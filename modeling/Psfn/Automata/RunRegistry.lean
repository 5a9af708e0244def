import Psfn.Lib.Js
import Psfn.Lib.JsString
import Psfn.Lib.JsValue
import Psfn.TaskScheduler.WallClock

/-!
# The automata run registry

`faculties/automata/run-registry.ts` over the records of `registry-contract.ts`. A registry keeps
a copy of the records of one companion's store. A call reads the copy, and answers from it or asks
the store; what it does with the store's answer is in `RunRegistryRun`.

The store is a map from run ids to records, as `InMemoryAutomataRunStore` keeps it and as the rows
of one companion are in PostgreSQL.
-/

namespace Psfn.Automata

open Lib (JsMap throwIf)
open TaskScheduler (isSafeInteger)

/-! ## Records -/

inductive AutomataRunStatus where
  | queued | running | completed | failed | cancelled
deriving DecidableEq

inductive AutomataRunOutcome where
  | completed | blocked | cancelled | budgetLimited
deriving DecidableEq

inductive AutomataFailureClass where
  | terminal | retry | leaseRetry | isolated
deriving DecidableEq

inductive AutomataRetentionClass where
  | ephemeral | standard | extended
deriving DecidableEq

inductive ProductionAutomataClassId where
  | subagentBounded
  | shardLongHorizon
  | memoryRetrieval
  | memoryExtraction
  | memorySleeptime
  | memorySocialGraphBuilder
  | intentionConcernCandidateReview
  | backgroundIntentionPostTurnHooks
  | backgroundEmotionAppraisal
  | backgroundAutoCompaction
  | postTurnSubagentSpawn
  | schedulerReflection
  | schedulerFreeTime
  | schedulerAutomataBusReviewer
  | memoryBiographySynthesis
  | memoryBiographyReview
deriving DecidableEq

def ProductionAutomataClassId.text : ProductionAutomataClassId → String
  | .subagentBounded => "subagent.bounded"
  | .shardLongHorizon => "shard.long_horizon"
  | .memoryRetrieval => "memory.retrieval"
  | .memoryExtraction => "memory.extraction"
  | .memorySleeptime => "memory.sleeptime"
  | .memorySocialGraphBuilder => "memory.social_graph_builder"
  | .intentionConcernCandidateReview => "intention.concern_candidate_review"
  | .backgroundIntentionPostTurnHooks => "background.intention_post_turn_hooks"
  | .backgroundEmotionAppraisal => "background.emotion_appraisal"
  | .backgroundAutoCompaction => "background.auto_compaction"
  | .postTurnSubagentSpawn => "post_turn.subagent_spawn"
  | .schedulerReflection => "scheduler.reflection"
  | .schedulerFreeTime => "scheduler.free_time"
  | .schedulerAutomataBusReviewer => "scheduler.automata_bus_reviewer"
  | .memoryBiographySynthesis => "memory.biography_synthesis"
  | .memoryBiographyReview => "memory.biography_review"

structure AutomataClassDescriptor where
  id             : ProductionAutomataClassId
  failureClass   : AutomataFailureClass
  retentionClass : AutomataRetentionClass

def PRODUCTION_AUTOMATA_CLASSES : List AutomataClassDescriptor := [
  ⟨.subagentBounded, .terminal, .standard⟩,
  ⟨.shardLongHorizon, .terminal, .extended⟩,
  ⟨.memoryRetrieval, .isolated, .ephemeral⟩,
  ⟨.memoryExtraction, .leaseRetry, .standard⟩,
  ⟨.memorySleeptime, .retry, .extended⟩,
  ⟨.memorySocialGraphBuilder, .isolated, .standard⟩,
  ⟨.intentionConcernCandidateReview, .retry, .standard⟩,
  ⟨.backgroundIntentionPostTurnHooks, .leaseRetry, .standard⟩,
  ⟨.backgroundEmotionAppraisal, .leaseRetry, .standard⟩,
  ⟨.backgroundAutoCompaction, .leaseRetry, .standard⟩,
  ⟨.postTurnSubagentSpawn, .retry, .standard⟩,
  ⟨.schedulerReflection, .isolated, .extended⟩,
  ⟨.schedulerFreeTime, .isolated, .standard⟩,
  ⟨.schedulerAutomataBusReviewer, .isolated, .standard⟩,
  ⟨.memoryBiographySynthesis, .retry, .standard⟩,
  ⟨.memoryBiographyReview, .retry, .standard⟩]

/-- The retention times of the owner's policy. -/
structure AutomataOwnerPolicy where
  retentionMs : AutomataRetentionClass → Int

structure EffectiveAutomataClassDescriptor extends AutomataClassDescriptor where
  retentionMs : Int

def buildEffectiveAutomataClassManifest (policy : AutomataOwnerPolicy) :
    List EffectiveAutomataClassDescriptor :=
  PRODUCTION_AUTOMATA_CLASSES.map fun entry =>
    { entry with retentionMs := policy.retentionMs entry.retentionClass }

inductive Custody where
  | pending | durable | discarded
deriving DecidableEq

structure AutomataArtifactRef where
  kind    : String
  ref     : String
  custody : Custody
deriving DecidableEq

inductive PromotionState where
  | notRequested | pending | promoted | rejected
deriving DecidableEq

inductive FoldState where
  | notRequired | pending | folded | rejected
deriving DecidableEq

structure AutomataRunRecord where
  companionId         : String
  runId               : String
  automatonClass      : ProductionAutomataClassId
  workerId            : String
  workerGeneration    : Int
  taskId              : String
  taskLabel           : String
  taskSummary         : String
  parentRunId         : Option String
  sourceRunId         : Option String
  sessionIds          : List String
  artifacts           : List AutomataArtifactRef
  status              : AutomataRunStatus
  statusReason        : String
  outcome             : Option AutomataRunOutcome
  failureReason       : Option String
  promotionState      : PromotionState
  foldState           : FoldState
  createdAtMs         : Int
  startedAtMs         : Option Int
  finishedAtMs        : Option Int
  retentionDeadlineMs : Int
deriving DecidableEq

def isTerminalStatus (status : AutomataRunStatus) : Bool :=
  status = .completed || status = .failed || status = .cancelled

def ALLOWED_TRANSITIONS : AutomataRunStatus → List AutomataRunStatus
  | .queued => [.running, .failed, .cancelled]
  | .running => [.completed, .failed, .cancelled]
  | .completed => []
  | .failed => []
  | .cancelled => []

def AutomataRunStatus.text : AutomataRunStatus → String
  | .queued => "queued"
  | .running => "running"
  | .completed => "completed"
  | .failed => "failed"
  | .cancelled => "cancelled"

def AUTOMATA_RUN_STATUSES : List AutomataRunStatus :=
  [.queued, .running, .completed, .failed, .cancelled]

def requireAutomataRunStatus (status : String) : Except String AutomataRunStatus :=
  match AUTOMATA_RUN_STATUSES.find? fun s => s.text = status with
  | some found => .ok found
  | none => .error s!"Unknown automata run status \"{status}\"."

def requireAutomataClass (classId : String) : Except String ProductionAutomataClassId :=
  match PRODUCTION_AUTOMATA_CLASSES.find? fun entry => entry.id.text = classId with
  | some found => .ok found.id
  | none => .error s!"Unknown automata class \"{classId}\"."

/-! ## Texts and artifacts -/

def createAutomataTextValidator (domain value field : String) : Except String String := do
  throwIf (Lib.JsString.trim value = "") s!"{domain} {field} must be a non-empty string"
  return Lib.JsString.trim value

def requiredText (value field : String) : Except String String :=
  createAutomataTextValidator "Automata run" value field

def uniqueTexts (values : List String) (field : String) : Except String (List String) := do
  let normalized ← values.zipIdx.mapM fun p => requiredText p.1 s!"{field}[{p.2}]"
  throwIf (!decide normalized.Nodup) s!"Automata run {field} must not contain duplicates"
  return normalized

/-- What a text that may be absent is stored as; an empty one counts as absent. -/
def optionalText (value : Option String) (field : String) : Except String (Option String) :=
  match value with
  | none => .ok none
  | some value =>
    if value = "" then .ok none
    else do
      let text ← requiredText value field
      return some text

/-- The key under which an artifact is kept: kind and ref, joined by a NUL. -/
def AutomataArtifactRef.key (artifact : AutomataArtifactRef) : String :=
  artifact.kind ++ "\x00" ++ artifact.ref

def normalizeArtifacts (artifacts : List AutomataArtifactRef) :
    Except String (List AutomataArtifactRef) := do
  let normalized ← artifacts.mapM fun artifact => do
    let kind ← requiredText artifact.kind "artifacts.kind"
    let ref ← requiredText artifact.ref "artifacts.ref"
    return ({ artifact with kind, ref } : AutomataArtifactRef)
  throwIf (!decide (normalized.map (·.key)).Nodup)
    "Automata run artifacts must not contain duplicate kind/ref pairs"
  return normalized

def mergeArtifacts (existing added : List AutomataArtifactRef) : List AutomataArtifactRef :=
  let byReference := JsMap.ofList (existing.map fun artifact => (artifact.key, artifact))
  (added.foldl (fun byReference artifact => byReference.set artifact.key artifact)
    byReference).values

/-- The texts of two lists are compared; they are equal when the lists are. -/
def sameArtifacts (left right : List AutomataArtifactRef) : Bool := left = right

/-! ## Calls -/

structure RegisterAutomataRunInput where
  runId            : String
  automatonClass   : String
  workerId         : String
  workerGeneration : Option Int
  taskId           : String
  taskLabel        : String
  taskSummary      : String
  parentRunId      : Option String
  sourceRunId      : Option String
  sessionIds       : Option (List String)
  artifacts        : Option (List AutomataArtifactRef)
  createdAtMs      : Option Int

structure TransitionAutomataRunInput where
  status        : String
  reason        : String
  atMs          : Option Int
  outcome       : Option AutomataRunOutcome
  failureReason : Option String

structure AutomataRunRegistry where
  companionId : String
  policy      : AutomataOwnerPolicy

def AutomataRunRegistry.classes (registry : AutomataRunRegistry) :
    List EffectiveAutomataClassDescriptor :=
  buildEffectiveAutomataClassManifest registry.policy

/-- What a call does before it awaits the store: it answers, or it asks the store to insert a
record, to replace the one it read (`current`), or for a record. -/
inductive Begun where
  | returned (record : AutomataRunRecord)
  | insert (record : AutomataRunRecord)
  | update (current updated : AutomataRunRecord)
  | loadExact (runId : String)
deriving DecidableEq

abbrev Runs := JsMap String AutomataRunRecord

def requirePositiveGeneration (workerGeneration : Int) : Except String Int := do
  throwIf (!isSafeInteger workerGeneration || workerGeneration < 1)
    "Automata run workerGeneration must be a positive safe integer"
  return workerGeneration

def AutomataRunRegistry.register (registry : AutomataRunRegistry) (now : Int)
    (input : RegisterAutomataRunInput) (runs : Runs) : Except String Begun := do
  let runId ← requiredText input.runId "runId"
  throwIf (runs.has runId) s!"Automata run \"{runId}\" already exists."
  let automatonClass ← requireAutomataClass input.automatonClass
  match registry.classes.find? fun entry => entry.id = automatonClass with
  | none => .error s!"Unknown automata class \"{input.automatonClass}\"."
  | some descriptor => do
    let createdAtMs := input.createdAtMs.getD now
    throwIf (!isSafeInteger createdAtMs || createdAtMs < 0) "Automata run createdAtMs is invalid"
    let workerGeneration ← requirePositiveGeneration (input.workerGeneration.getD 1)
    let workerId ← requiredText input.workerId "workerId"
    let taskId ← requiredText input.taskId "taskId"
    let taskLabel ← requiredText input.taskLabel "taskLabel"
    let taskSummary ← requiredText input.taskSummary "taskSummary"
    let parentRunId ← optionalText input.parentRunId "parentRunId"
    let sourceRunId ← optionalText input.sourceRunId "sourceRunId"
    let sessionIds ← uniqueTexts (input.sessionIds.getD []) "sessionIds"
    let artifacts ← normalizeArtifacts (input.artifacts.getD [])
    return .insert {
      companionId := registry.companionId
      runId, automatonClass, workerId, workerGeneration, taskId, taskLabel, taskSummary
      parentRunId, sourceRunId, sessionIds, artifacts
      status := .queued
      statusReason := "execution_requested"
      outcome := none
      failureReason := none
      promotionState := .notRequested
      foldState := .notRequired
      createdAtMs
      startedAtMs := none
      finishedAtMs := none
      retentionDeadlineMs := createdAtMs + descriptor.retentionMs }

/-- The fields on which a run and the call that re-enters it differ. -/
def bindingConflicts (record : AutomataRunRecord) (expected : RegisterAutomataRunInput) :
    List String :=
  (if record.automatonClass.text = expected.automatonClass then [] else ["automatonClass"])
  ++ (if record.workerId = expected.workerId then [] else ["workerId"])
  ++ (if record.taskId = expected.taskId then [] else ["taskId"])
  ++ (if record.taskLabel = expected.taskLabel then [] else ["taskLabel"])
  ++ (if record.taskSummary = expected.taskSummary then [] else ["taskSummary"])
  ++ (if record.parentRunId = expected.parentRunId then [] else ["parentRunId"])
  ++ (if record.sourceRunId = expected.sourceRunId then [] else ["sourceRunId"])
  ++ (if record.sessionIds = expected.sessionIds.getD [] then [] else ["sessionIds"])
  ++ (if expected.createdAtMs.all (· = record.createdAtMs) then [] else ["createdAtMs"])
  ++ (if expected.workerGeneration.all (· = record.workerGeneration) then []
    else ["workerGeneration"])

def assertExactRunBinding (record : AutomataRunRecord) (expected : RegisterAutomataRunInput) :
    Except String Unit :=
  throwIf (!(bindingConflicts record expected).isEmpty)
    (s!"Automata run \"{record.runId}\" conflicts with its authoritative binding: "
      ++ ", ".intercalate (bindingConflicts record expected) ++ ".")

def AutomataRunRegistry.ensureRun (registry : AutomataRunRegistry) (now : Int)
    (input : RegisterAutomataRunInput) (runs : Runs) : Except String Begun := do
  let runId ← requiredText input.runId "runId"
  match runs.get runId with
  | none => registry.register now input runs
  | some existing => do
    assertExactRunBinding existing input
    return .returned existing

/-- Whether a transition says again what the terminal record says. -/
def isTerminalReplay (current : AutomataRunRecord) (next : AutomataRunStatus)
    (input : TransitionAutomataRunInput) : Except String Bool :=
  if current.status = next && isTerminalStatus next then do
    let reason ← requiredText input.reason "statusReason"
    let failureReason ← input.failureReason.mapM fun value => requiredText value "failureReason"
    return current.statusReason = reason && current.outcome = input.outcome
      && current.failureReason = failureReason
  else .ok false

def transition (now : Int) (runId : String) (input : TransitionAutomataRunInput) (runs : Runs) :
    Except String Begun := do
  let normalizedRunId ← requiredText runId "runId"
  match runs.get normalizedRunId with
  | none => .error s!"Unknown automata run \"{normalizedRunId}\"."
  | some current => do
    let next ← requireAutomataRunStatus input.status
    let replay ← isTerminalReplay current next input
    if replay then return .returned current
    else do
      throwIf (!(ALLOWED_TRANSITIONS current.status).contains next)
        (s!"Invalid automata run transition for {normalizedRunId}: "
          ++ s!"{current.status.text} -> {next.text}.")
      let atMs := input.atMs.getD now
      let statusReason ← requiredText input.reason "statusReason"
      let failureReason ← optionalText input.failureReason "failureReason"
      return .update current { current with
        status := next
        statusReason
        startedAtMs := if next = .running then some atMs else current.startedAtMs
        finishedAtMs := if next = .running then current.finishedAtMs else some atMs
        outcome := input.outcome <|> current.outcome
        failureReason := failureReason <|> current.failureReason }

def linkArtifacts (runId : String) (artifacts : List AutomataArtifactRef) (runs : Runs) :
    Except String Begun := do
  let normalizedRunId ← requiredText runId "runId"
  match runs.get normalizedRunId with
  | none => .error s!"Unknown automata run \"{normalizedRunId}\"."
  | some current => do
    let added ← normalizeArtifacts artifacts
    let merged := mergeArtifacts current.artifacts added
    if sameArtifacts current.artifacts merged then return .returned current
    else return .update current { current with artifacts := merged }

def loadExactRun (runId : String) (runs : Runs) : Except String Begun := do
  let normalized ← requiredText runId "runId"
  match runs.get normalized with
  | some retained => return .returned retained
  | none => return .loadExact normalized

end Psfn.Automata
