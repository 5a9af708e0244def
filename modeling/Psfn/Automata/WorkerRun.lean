import Psfn.Automata.RunRegistryRun
import Psfn.Automata.TerminalClaim
import Psfn.Lib.Crash

/-!
# An automata run, from hydration to settlement

`AutomataRunRegistry.hydrate`, the run port of `bus/class-lifecycle.ts`, the settlement of
`bus/worker-execution.ts` and the terminal handoff of `bus/production-worker-adapter.ts`, for the
run of one spec. The records and the run's terminal on the Bus are durable; the registry's copy is
lost when the process dies. Every access to the store or the Bus may throw or be where the process
dies; a handoff that throws may have been committed.

Lifecycle events, briefings and Bus tools, and the references of a receipt are left out. A failure
policy is given by its answers; one that always answers `retry` never lets the settlement end.
-/

namespace Psfn.Automata

open Lib (JsMap throwIf)
open Lib.Crash (Op Prog)
open TaskScheduler (isSafeInteger)

/-! ## What is durable -/

/-- The terminal that is committed on the Bus, and the lifecycle state it was committed with. -/
structure CommittedTerminal where
  claim          : String
  occurredAtMs   : Int
  lifecycleState : LifecycleState

/-- `late` is set when the run's work is executed although its terminal is committed. -/
structure Machine where
  store    : Runs
  terminal : Option CommittedTerminal
  runs     : Runs
  late     : Bool

/-- A program of a process. The flag of a fault says whether a handoff was committed. -/
abbrev Process (α : Type) : Type := Prog Machine Bool α

/-- The registry's copy is lost. -/
def loseCopy (_ : Bool) (m : Machine) : Machine := { m with runs := JsMap.empty }

/-- A statement of the store, and the copy written after it. -/
def writeOp (record : AutomataRunRecord) (statement : Runs → Except String Runs) :
    Op Machine Bool where
  effect m :=
    match statement m.store with
    | .ok store => some { m with store, runs := m.runs.set record.runId record }
    | .error _ => none
  torn _ m := m

def readOp : Op Machine Bool where
  effect m := some m
  torn _ m := m

def Machine.commit (m : Machine) (terminal : CommittedTerminal) : Machine :=
  { m with terminal := some terminal }

/-- `writer.append`: committed, and indexed after that. -/
def appendOp (terminal : CommittedTerminal) : Op Machine Bool where
  effect m := some (m.commit terminal)
  torn committed m := if committed then m.commit terminal else m

def Machine.work (m : Machine) : Machine := { m with late := m.late || m.terminal.isSome }

def workOp : Op Machine Bool where
  effect m := some m.work
  torn _ m := m.work

def read : Process Unit := Prog.perform loseCopy readOp

/-! ## The registry -/

/-- A call of the registry, with no other call open. -/
def AutomataRunRegistry.call (registry : AutomataRunRegistry) (now : Int) (call : Call) :
    Process (Option AutomataRunRecord) := do
  let m ← Prog.get
  let begun ← Prog.ofExcept (registry.begin now m.runs call)
  match begun with
  | .returned record => pure (some record)
  | .insert record => do
    Prog.perform loseCopy (writeOp record (storeInsert record))
    pure (some record)
  | .update current updated => do
    Prog.perform loseCopy (writeOp updated (storeUpdate updated current.status))
    pure (some updated)
  | .loadExact runId => do
    read
    let m ← Prog.get
    match m.store.get runId with
    | none => pure none
    | some record => do
      Prog.modify fun m => { m with runs := m.runs.set runId record }
      pure (some record)

/-- A call that answers with a record. -/
def AutomataRunRegistry.mutate (registry : AutomataRunRegistry) (now : Int) (call : Call) :
    Process AutomataRunRecord := do
  let answer ← registry.call now call
  match answer with
  | some record => pure record
  | none => Prog.throw

def AUTOMATA_RUN_PROCESS_RESTART_REASON : String := "process_restart_interrupted"

structure AutomataRedeliveryCandidate where
  automatonClass : ProductionAutomataClassId
  lineageRunIds  : List String

/-- What a registry is hydrated with; the oracle may throw. -/
structure Hydration where
  nowMs                : Int
  findRedeliveredRunIds : List AutomataRedeliveryCandidate → Option (List String)
  localeLe             : String → String → Bool

def retained (nowMs : Int) (store : Runs) : Runs :=
  JsMap.ofList (((store.values.filter fun record =>
    !isTerminalStatus record.status || nowMs < record.retentionDeadlineMs)).map fun record =>
      (record.runId, record))

def sortedRuns (localeLe : String → String → Bool) (runs : Runs) : List AutomataRunRecord :=
  runs.values.mergeSort fun left right =>
    right.createdAtMs < left.createdAtMs
      || (left.createdAtMs = right.createdAtMs && localeLe left.runId right.runId)

def AutomataRunRegistry.failRestartOrphan (registry : AutomataRunRegistry)
    (record : AutomataRunRecord) (why : String) (nowMs : Int) : Process Unit := do
  let _ ← registry.mutate nowMs (.transition record.runId {
    status := "failed"
    reason := AUTOMATA_RUN_PROCESS_RESTART_REASON
    outcome := some .blocked
    failureReason := some (s!"Run was {record.status.text} when its owning process exited; "
      ++ s!"class {record.automatonClass.text} {why}, so it was failed at restart.")
    atMs := some nowMs })

/-- A record of the copy, or of the store. -/
def lookupRun (store runs : Runs) (runId : String) : Option AutomataRunRecord :=
  match runs.get runId with
  | some record => some record
  | none => store.get runId

/-- The ancestors after `lineage`, and the copy with them. With as much fuel as there are records
it does not run out. -/
def followLineage (store : Runs) (record : AutomataRunRecord) :
    Nat → Option String → List String → Runs → Except String (List String × Runs)
  | _, none, lineage, runs => .ok (lineage, runs)
  | 0, some _, _, _ => .error "more ancestors than records"
  | fuel + 1, some sourceRunId, lineage, runs =>
    if lineage.contains sourceRunId then
      .error s!"Automata run \"{record.runId}\" has a cyclic source lineage."
    else
      match lookupRun store runs sourceRunId with
      | none => .ok (lineage ++ [sourceRunId], runs)
      | some source =>
        if source.automatonClass ≠ record.automatonClass then
          .error s!"Automata run \"{record.runId}\" has a cross-class source lineage."
        else followLineage store record fuel source.sourceRunId (lineage ++ [source.runId])
          (runs.set source.runId source)

def lineageRunIds (store : Runs) (record : AutomataRunRecord) (runs : Runs) :
    Except String (List String × Runs) :=
  followLineage store record (store.size + runs.size + 1) record.sourceRunId [record.runId] runs

/-- The lineages of the orphans that may be redelivered; the others are failed on the way. -/
def AutomataRunRegistry.gatherOrphans (registry : AutomataRunRegistry) (nowMs : Int) :
    List AutomataRunRecord → Process (List (AutomataRunRecord × List String))
  | [] => pure []
  | record :: rest => do
    let descriptor ← Prog.ofExcept (match registry.classes.find? fun entry =>
        entry.id = record.automatonClass with
      | some descriptor => .ok descriptor
      | none => .error s!"Unknown automata class \"{record.automatonClass.text}\".")
    if descriptor.failureClass ≠ .leaseRetry then do
      registry.failRestartOrphan record "has no redelivery path" nowMs
      registry.gatherOrphans nowMs rest
    else do
      read
      let m ← Prog.get
      let found ← Prog.ofExcept (lineageRunIds m.store record m.runs)
      Prog.modify fun m => { m with runs := found.2 }
      let others ← registry.gatherOrphans nowMs rest
      pure ((record, found.1) :: others)

def AutomataRunRegistry.terminalizeOrphanedRuns (registry : AutomataRunRegistry)
    (hydration : Hydration) : Process Unit := do
  let m ← Prog.get
  let leaseRetry ← registry.gatherOrphans hydration.nowMs
    ((sortedRuns hydration.localeLe m.runs).filter fun record => !isTerminalStatus record.status)
  if leaseRetry.isEmpty then pure ()
  else
    match hydration.findRedeliveredRunIds
        (leaseRetry.map fun orphan => ⟨orphan.1.automatonClass, orphan.2⟩) with
    | none => Prog.throw
    | some redelivered =>
      if redelivered.any fun runId => !(leaseRetry.flatMap Prod.snd).contains runId then Prog.throw
      else Prog.each (fun orphan : AutomataRunRecord × List String =>
        if orphan.2.any redelivered.contains then pure ()
        else registry.failRestartOrphan orphan.1
          "is lease_retry but no live background-work job owns this run" hydration.nowMs) leaseRetry

def AutomataRunRegistry.hydrate (registry : AutomataRunRegistry) (hydration : Hydration) :
    Process Unit := do
  read
  Prog.modify fun m => { m with runs := retained hydration.nowMs m.store }
  registry.terminalizeOrphanedRuns hydration

/-! ## The terminal handoff -/

/-- A terminal that is read back from the Bus. -/
structure CommittedAutomataTerminalHandoff where
  occurredAtMs : Int
  outcome      : PersistedAutomataTerminalOutcome

def assertLifecycleLineage (registry : AutomataRunRegistry) (lineage : AutomataWorkerLineage)
    (runs : Runs) : Except String AutomataRunRecord :=
  match runs.get lineage.runId with
  | none => .error s!"Automata Bus run \"{lineage.runId}\" is not registered"
  | some run => do
    throwIf (run.companionId ≠ registry.companionId || run.taskId ≠ lineage.taskId
        || run.automatonClass ≠ lineage.automatonClass)
      "Automata Bus scope does not match authoritative run lineage"
    throwIf (run.workerId ≠ lineage.workerId || run.parentRunId ≠ lineage.parentRunId
        || run.sourceRunId ≠ lineage.sourceRunId
        || !run.sessionIds.isPerm lineage.sessionIds)
      "Automata terminal lineage does not match the authoritative run registry"
    return run

/-- What the idempotency key of a run attempt requires. -/
def buildAutomataTerminalHandoffKey (runId : String) (attempt : Int) : Except String Unit := do
  throwIf (Lib.JsString.trim runId = "")
    "Automata terminal handoff key requires a non-empty runId"
  throwIf (!isSafeInteger attempt || attempt < 1)
    "Automata terminal handoff key attempt must be a positive safe integer"

/-- What the run's terminal says, read from the Bus. -/
def readCommittedTerminalHandoff (automatonClass : ProductionAutomataClassId) :
    Process (Option CommittedAutomataTerminalHandoff) := do
  read
  let m ← Prog.get
  match m.terminal with
  | none => pure none
  | some terminal => do
    let outcome ← Prog.ofExcept (parseTerminalClaim terminal.claim automatonClass.text)
    pure (some ⟨terminal.occurredAtMs, outcome⟩)

def readTerminalHandoff (registry : AutomataRunRegistry) (lineage : AutomataWorkerLineage)
    (attempt : Int) : Process (Option CommittedAutomataTerminalHandoff) := do
  let _ ← Prog.ofExcept (buildAutomataTerminalHandoffKey lineage.runId attempt)
  let m ← Prog.get
  let _ ← Prog.ofExcept (assertLifecycleLineage registry lineage m.runs)
  readCommittedTerminalHandoff lineage.automatonClass

/-- The references that a finding needs. -/
def evidenceForRefs (input : RecordAutomataTerminalHandoffInput) : Except String (List String) :=
  ((input.outputRefs.map (·.ref)) ++ input.parentHandoffRef.toList).mapM fun reference =>
    busText reference "evidence reference"

/-- `new Date(ms).toISOString()` does not throw. -/
def isTimeValue (ms : Int) : Bool := ms.natAbs ≤ 8640000000000000

/-- The committed terminal of a replay, or nothing when this call committed. -/
def recordTerminalHandoff (registry : AutomataRunRegistry)
    (input : RecordAutomataTerminalHandoffInput) :
    Process (Option CommittedAutomataTerminalHandoff) := do
  let m ← Prog.get
  let _ ← Prog.ofExcept (assertLifecycleLineage registry input.lineage m.runs)
  let committed ← readCommittedTerminalHandoff input.lineage.automatonClass
  let claim ← Prog.ofExcept (terminalClaim input)
  match committed with
  | some committed => pure (some committed)
  | none => do
    let _ ← Prog.ofExcept (throwIf (!isTimeValue input.occurredAtMs) "Invalid time value")
    let _ ← Prog.ofExcept (evidenceForRefs input)
    Prog.perform loseCopy (appendOp ⟨claim, input.occurredAtMs, input.lifecycleState⟩)
    pure none

/-! ## The run port -/

structure AutomataClassRunSpec where
  automatonClass : ProductionAutomataClassId
  runId          : String
  workerId       : String
  taskId         : String
  taskLabel      : String
  taskSummary    : String
  sessionIds     : Option (List String)
  parentRunId    : Option String
  sourceRunId    : Option String
  createdAtMs    : Option Int

/-- `value ? { key: value } : {}`. -/
def truthy (value : Option String) : Option String := value.filter fun value => value ≠ ""

def AutomataClassRunSpec.input (spec : AutomataClassRunSpec) : RegisterAutomataRunInput where
  runId := spec.runId
  automatonClass := spec.automatonClass.text
  workerId := spec.workerId
  workerGeneration := none
  taskId := spec.taskId
  taskLabel := spec.taskLabel
  taskSummary := spec.taskSummary
  parentRunId := truthy spec.parentRunId
  sourceRunId := truthy spec.sourceRunId
  sessionIds := some (spec.sessionIds.getD [])
  artifacts := none
  createdAtMs := spec.createdAtMs

def lineageFromSpec (spec : AutomataClassRunSpec) (sessionIds : List String) :
    AutomataWorkerLineage where
  automatonClass := spec.automatonClass
  runId := spec.runId
  taskId := spec.taskId
  workerId := spec.workerId
  parentRunId := truthy spec.parentRunId
  sourceRunId := truthy spec.sourceRunId
  sessionIds := sessionIds

structure AutomataWorkerRunBinding where
  lineage        : AutomataWorkerLineage
  attempt        : Int
  execute        : Bool
  replayTerminal : Option CommittedAutomataTerminalHandoff

def RUN_STARTED_REASON : String := "automata_run_started"

def RUN_COMPLETED_REASON : String := "automata_run_completed"

def RUN_FAILED_REASON : String := "automata_run_failed"

def RUN_CANCELLED_REASON : String := "automata_run_cancelled"

def AutomataClassRunSpec.begin (spec : AutomataClassRunSpec) (registry : AutomataRunRegistry)
    (now : Int) : Process AutomataWorkerRunBinding := do
  let run ← registry.mutate now (.ensureRun spec.input)
  let lineage := lineageFromSpec spec run.sessionIds
  match run.status with
  | .failed => Prog.throw
  | .cancelled => Prog.throw
  | .completed => pure ⟨lineage, run.workerGeneration, false, none⟩
  | .queued => do
    let run ← registry.mutate now
      (.transition run.runId ⟨"running", RUN_STARTED_REASON, spec.createdAtMs, none, none⟩)
    pure ⟨lineage, run.workerGeneration, true, none⟩
  | .running => do
    let committed ← readTerminalHandoff registry lineage run.workerGeneration
    pure ⟨lineage, run.workerGeneration, committed.isNone, committed⟩

structure AutomataWorkerTerminalRequest where
  lifecycleState : LifecycleState
  outcome        : AutomataRunOutcome
  stateReason    : String
  failureReason  : Option String
  atMs           : Int

/-- The transition that a request asks for. -/
def AutomataWorkerTerminalRequest.transition (request : AutomataWorkerTerminalRequest) :
    TransitionAutomataRunInput where
  status := request.lifecycleState.text
  reason :=
    match request.lifecycleState with
    | .completed => RUN_COMPLETED_REASON
    | .failed => RUN_FAILED_REASON
    | .cancelled => RUN_CANCELLED_REASON
  atMs := some request.atMs
  outcome := some request.outcome
  failureReason :=
    if request.lifecycleState = .completed then none
    else some (request.failureReason.getD request.stateReason)

def AutomataClassRunSpec.terminalize (spec : AutomataClassRunSpec)
    (registry : AutomataRunRegistry) (request : AutomataWorkerTerminalRequest) : Process Unit := do
  let m ← Prog.get
  match m.runs.get spec.runId with
  | none => Prog.throw
  | some run =>
    if isTerminalStatus run.status then pure ()
    else do
      let _ ← registry.mutate request.atMs (.transition run.runId request.transition)

/-! ## Settlement -/

structure AutomataWorkerOutcome where
  lifecycleState   : LifecycleState
  outcome          : AutomataRunOutcome
  stateReason      : String
  failureReason    : Option String
  resultKind       : ResultKind
  summary          : Option String
  usage            : Option AutomataWorkerTerminalUsage
  outputRefs       : List AutomataArtifactRef
  parentHandoffRef : Option String
  atMs             : Option Int

inductive AutomataWorkerFailureDisposition where
  | retry | fail | degrade
deriving DecidableEq

/-- What the attempt returned, or nothing when it threw. -/
def tried {α : Type} (attempt : Process α) : Process (Option α) :=
  Prog.tryCatch (do
    let value ← attempt
    pure (some value)) (pure none)

/-- The answer of a stage that may fail; nothing when it is degraded. After its last answer the
policy degrades, as the default policy does. -/
def runRecoverableStage {α : Type} (attempt : Process α) :
    List AutomataWorkerFailureDisposition → Process (Option α)
  | [] => tried attempt
  | .degrade :: _ => tried attempt
  | .fail :: _ => do
    let value ← attempt
    pure (some value)
  | .retry :: rest => do
    let result ← tried attempt
    match result with
    | some value => pure (some value)
    | none => runRecoverableStage attempt rest

def AutomataWorkerOutcome.handoff (outcome : AutomataWorkerOutcome)
    (binding : AutomataWorkerRunBinding) (observedBusWrites : Nat) (now : Int) :
    RecordAutomataTerminalHandoffInput where
  lineage := binding.lineage
  lifecycleState := outcome.lifecycleState
  outcome := outcome.outcome
  stateReason := outcome.stateReason
  failureReason := truthy outcome.failureReason
  resultKind := outcome.resultKind
  handoffKind := if 0 < observedBusWrites || outcome.summary.isSome then .useful else .noFinding
  summary := outcome.summary
  usage := outcome.usage
  outputRefs := outcome.outputRefs
  parentHandoffRef := truthy outcome.parentHandoffRef
  occurredAtMs := outcome.atMs.getD now

def recordHandoff (registry : AutomataRunRegistry) (input : RecordAutomataTerminalHandoffInput)
    (attempt : Int) (answers : List AutomataWorkerFailureDisposition) :
    Process (Option (Option CommittedAutomataTerminalHandoff)) := do
  let _ ← Prog.ofExcept (buildAutomataTerminalHandoffKey input.lineage.runId attempt)
  runRecoverableStage (recordTerminalHandoff registry input) answers

def CommittedAutomataTerminalHandoff.request (committed : CommittedAutomataTerminalHandoff) :
    AutomataWorkerTerminalRequest where
  lifecycleState := committed.outcome.lifecycleState
  outcome := committed.outcome.outcome
  stateReason := committed.outcome.stateReason
  failureReason := committed.outcome.failureReason
  atMs := committed.occurredAtMs

def AutomataWorkerOutcome.request (outcome : AutomataWorkerOutcome) (now : Int) :
    AutomataWorkerTerminalRequest where
  lifecycleState := outcome.lifecycleState
  outcome := outcome.outcome
  stateReason := outcome.stateReason
  failureReason := truthy outcome.failureReason
  atMs := outcome.atMs.getD now

def AutomataClassRunSpec.settleOnce (spec : AutomataClassRunSpec) (registry : AutomataRunRegistry)
    (now : Int) (binding : AutomataWorkerRunBinding) (observedBusWrites : Nat)
    (answers : List AutomataWorkerFailureDisposition) (outcome : AutomataWorkerOutcome) :
    Process Unit :=
  if binding.execute then do
    let handoff ← recordHandoff registry (outcome.handoff binding observedBusWrites now)
      binding.attempt answers
    match handoff with
    | some (some committed) => spec.terminalize registry committed.request
    | _ => spec.terminalize registry (outcome.request now)
  else
    match binding.replayTerminal with
    | none => pure ()
    | some committed => spec.terminalize registry committed.request

/-! ## Drivers -/

/-- A settlement that the worker asks for, and how the failure policy answers. -/
structure Settlement where
  observedBusWrites : Nat
  answers           : List AutomataWorkerFailureDisposition
  outcome           : AutomataWorkerOutcome

/-- `settle` until it does not throw; a settlement that is done is not repeated. -/
def AutomataClassRunSpec.settle (spec : AutomataClassRunSpec) (registry : AutomataRunRegistry)
    (now : Int) (binding : AutomataWorkerRunBinding) : List Settlement → Process Unit
  | [] => pure ()
  | s :: rest =>
    Prog.tryCatch (spec.settleOnce registry now binding s.observedBusWrites s.answers s.outcome)
      (spec.settle registry now binding rest)

/-- A worker that opens the run, executes its work when it may, and settles. -/
def AutomataClassRunSpec.worker (spec : AutomataClassRunSpec) (registry : AutomataRunRegistry)
    (now : Int) (settlements : List Settlement) : Process Unit := do
  let binding ← spec.begin registry now
  if binding.execute then Prog.perform loseCopy workOp else pure ()
  spec.settle registry now binding settlements

def runReplayed : AutomataWorkerOutcome where
  lifecycleState := .completed
  outcome := .completed
  stateReason := RUN_COMPLETED_REASON
  failureReason := none
  resultKind := .none
  summary := none
  usage := none
  outputRefs := []
  parentHandoffRef := none
  atMs := none

end Psfn.Automata
