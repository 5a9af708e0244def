import Psfn.Lib.Transition
import Psfn.Scheduler.Definitions

/-!
# Tool-call scheduler — runs

`executeToolCallsWithScheduler` as a machine that stops at every `await`: at the head of
the batch loop, inside a sequential batch while a call runs or while the queue is polled
for steering messages, and inside a parallel batch while up to `limit` calls run. What the
environment decides — how a call ends, when, and what is queued — labels the step.

The worker loop of `mapBounded` takes the next item whenever a worker is free and writes
each result to the item's own slot.
-/

namespace Psfn.Scheduler

open Psfn.Lib

/-! ## The two halves of a call -/

def ToolResultMessage.answers (r : ToolResultMessage) : String × String := (r.toolCallId, r.toolName)

def ToolCallDescriptor.asks (d : ToolCallDescriptor) : String × String :=
  (d.toolCall.id, d.toolCall.name)

section Calls

variable {stableStringify : JsValue → String} {options : ToolCallSchedulerOptions}

/-- A skipped call is answered under its own id. -/
theorem startToolCall_skipped {guard : Option ToolCallExecutionGuard} {toolCall : ToolCall}
    {parameters : JsValue} {result : ToolResultMessage}
    (h : startToolCall stableStringify options guard toolCall parameters = .skipped result) :
    result.answers = (toolCall.id, toolCall.name) := by
  unfold startToolCall at h
  cases guard with
  | none => exact absurd h (by simp)
  | some g =>
    dsimp only at h
    split at h
    · obtain rfl := Start.skipped.inj h
      rfl
    · split at h
      · obtain rfl := Start.skipped.inj h
        rfl
      · split at h
        · obtain rfl := Start.skipped.inj h
          rfl
        · split at h
          · obtain rfl := Start.skipped.inj h
            rfl
          · exact absurd h (by simp)

/-- A call that runs: the guard let it through, and now has its signature in flight if the
call is to be deduplicated. -/
structure Started (options : ToolCallSchedulerOptions) (call : Running)
    (g g' : ToolCallExecutionGuard) : Prop where
  notInFlight : call.deduplicate = true → call.signature ∉ g.inFlightSignatures
  notDone     : call.deduplicate = true → call.signature ∉ g.successfulSignatures
  budget      : failureCount g call.signature < maxFailures options
  guard       : g' = if call.deduplicate then
    { g with inFlightSignatures := JsSet.add g.inFlightSignatures call.signature } else g

theorem startToolCall_running {guard guard' : Option ToolCallExecutionGuard} {toolCall : ToolCall}
    {parameters : JsValue} {call : Running}
    (h : startToolCall stableStringify options guard toolCall parameters = .running guard' call) :
    call.toolCall = toolCall ∧ (guard = none → guard' = none) ∧
      ∀ g, guard = some g → ∃ g', guard' = some g' ∧ Started options call g g' := by
  unfold startToolCall at h
  cases guard with
  | none =>
    obtain ⟨rfl, rfl⟩ := Start.running.inj h
    exact ⟨rfl, fun _ => rfl, fun g hg => absurd hg (by simp)⟩
  | some g =>
    dsimp only at h
    split at h
    · exact absurd h (by simp)
    · split at h
      · exact absurd h (by simp)
      · rename_i hflight
        split at h
        · exact absurd h (by simp)
        · rename_i hdone
          split at h
          · exact absurd h (by simp)
          · rename_i hbudget
            obtain ⟨rfl, rfl⟩ := Start.running.inj h
            refine ⟨rfl, by simp, fun g₀ hg₀ => ?_⟩
            obtain rfl := Option.some.inj hg₀
            refine ⟨_, rfl, ⟨?_, ?_, by simpa using hbudget, rfl⟩⟩
            · intro hd
              simpa [show resolveToolCallIdempotency parameters toolCall.arguments = true from hd]
                using hflight
            · intro hd
              simpa [show resolveToolCallIdempotency parameters toolCall.arguments = true from hd]
                using hdone

end Calls

/-! ## States -/

inductive Phase where
  /-- The head of the batch loop. -/
  | head (index : Nat)
  /-- A sequential batch: the calls not yet settled, the one running, the results so far. -/
  | sequential (index : Nat) (batch pending : List ToolCallDescriptor) (running : Option Running)
      (settled : List ToolResultMessage)
  /-- A sequential batch waiting for `getSteeringMessages`. -/
  | polling (index : Nat) (batch pending : List ToolCallDescriptor)
      (settled : List ToolResultMessage)
  /-- A parallel batch: the next item, the items running, one slot for each item. -/
  | parallel (index : Nat) (batch : List ToolCallDescriptor) (limit next : Nat)
      (running : List (Nat × Running)) (slots : List (Option ToolResultMessage))
  | returned (steeringMessages : Option (List AgentMessage))

structure State where
  descriptors : List ToolCallDescriptor
  guard       : Option ToolCallExecutionGuard
  results     : List ToolResultMessage
  phase       : Phase

/-- A fresh call of `executeToolCallsWithScheduler`. -/
def State.begin (descriptors : List ToolCallDescriptor) (guard : Option ToolCallExecutionGuard) :
    State where
  descriptors := descriptors
  guard := guard
  results := []
  phase := .head 0

/-- The start and the end of an execution, as an observer sees them. -/
inductive CallEvent where
  | started (call : Running)
  | ended (call : Running) (result : ToolResultMessage)

/-- What a step shows: an execution that started or ended, and, if the step interrupts the
run, the calls of the batch at hand that had not been executed. -/
structure StepLabel where
  event     : Option CallEvent := none
  interrupt : Option (List ToolCallDescriptor) := none

/-- The batch loop goes on after a batch that ran to its end. -/
def State.endBatch (s : State) (index : Nat) (batchResults : List ToolResultMessage) : State :=
  { s with results := s.results ++ batchResults, phase := .head index }

/-- The batch loop ends after a batch that was interrupted: the calls after the batch get
a skipped result. -/
def State.interrupted (s : State) (index : Nat) (batchResults : List ToolResultMessage)
    (resultText : String) (steeringMessages : Option (List AgentMessage)) : State :=
  { s with
    results := s.results ++ batchResults ++ skipRemaining (s.descriptors.drop index) resultText
    phase := .returned steeringMessages }

/-- A sequential batch after a call that neither halted nor was followed by steering. -/
def State.nextCall (s : State) (index : Nat) (batch pending : List ToolCallDescriptor)
    (settled : List ToolResultMessage) : State :=
  match pending with
  | [] => s.endBatch (index + batch.length) settled
  | _ :: _ => { s with phase := .sequential index batch pending none settled }

/-! ## Steps and runs -/

section Steps

variable (stableStringify : JsValue → String)
  (parseMissingArgumentRequirement : String → Option MissingArgumentRequirement)
  (options : ToolCallSchedulerOptions) (hasSteering : Bool)

/-- `mode === 'parallel'`. -/
def runsParallel (batch : List ToolCallDescriptor) : Bool :=
  decide (batch.length > 1) &&
    decide (resolveBatchParallelLimit batch options.maxParallelToolCalls > 1)

/-- What a sequential batch does with the result of the call at the front of `pending`. -/
inductive AfterResult (s : State) (index : Nat) (batch rest : List ToolCallDescriptor)
    (settled : List ToolResultMessage) (result : ToolResultMessage) :
    Option (List ToolCallDescriptor) → State → Prop
  | halt (dependency : ToolCallEvidenceDependency)
      (h : blocksSequentialDependents result.outcome dependency = true) :
      AfterResult s index batch rest settled result (some rest)
        (s.interrupted (index + batch.length) (settled ++ [result])
          (haltReasonText result.outcome) none)
  | poll (dependency : ToolCallEvidenceDependency)
      (h : blocksSequentialDependents result.outcome dependency = false)
      (hsteering : hasSteering = true) :
      AfterResult s index batch rest settled result none
        { s with phase := .polling index batch rest (settled ++ [result]) }
  | next (dependency : ToolCallEvidenceDependency)
      (h : blocksSequentialDependents result.outcome dependency = false)
      (hsteering : hasSteering = false) :
      AfterResult s index batch rest settled result none
        (s.nextCall index batch rest (settled ++ [result]))

inductive Step : State → StepLabel → State → Prop
  | returns {s : State} {index : Nat} (hphase : s.phase = .head index)
      (hindex : s.descriptors.length ≤ index) :
      Step s {} { s with phase := .returned none }
  | enterSequential {s : State} {index : Nat} (hphase : s.phase = .head index)
      (hindex : index < s.descriptors.length)
      (hmode : runsParallel options (collectCompatibleBatch s.descriptors index) = false) :
      Step s {}
        { s with phase := .sequential index (collectCompatibleBatch s.descriptors index)
                   (collectCompatibleBatch s.descriptors index) none [] }
  | enterParallel {s : State} {index : Nat} (hphase : s.phase = .head index)
      (hindex : index < s.descriptors.length)
      (hmode : runsParallel options (collectCompatibleBatch s.descriptors index) = true) :
      Step s {}
        { s with phase := .parallel index (collectCompatibleBatch s.descriptors index)
                   (resolveBatchParallelLimit (collectCompatibleBatch s.descriptors index)
                     options.maxParallelToolCalls) 0 []
                   ((collectCompatibleBatch s.descriptors index).map fun _ => none) }
  | sequentialSkip {s t : State} {interrupt : Option (List ToolCallDescriptor)} {index : Nat}
      {batch rest : List ToolCallDescriptor} {d : ToolCallDescriptor}
      {settled : List ToolResultMessage} (parameters : JsValue) {result : ToolResultMessage}
      (hphase : s.phase = .sequential index batch (d :: rest) none settled)
      (hstart : startToolCall stableStringify options s.guard d.toolCall parameters =
        .skipped result)
      (hafter : AfterResult hasSteering s index batch rest settled result interrupt t) :
      Step s { interrupt } t
  | sequentialStart {s : State} {index : Nat} {batch rest : List ToolCallDescriptor}
      {d : ToolCallDescriptor} {settled : List ToolResultMessage} (parameters : JsValue)
      {guard : Option ToolCallExecutionGuard} {call : Running}
      (hphase : s.phase = .sequential index batch (d :: rest) none settled)
      (hstart : startToolCall stableStringify options s.guard d.toolCall parameters =
        .running guard call) :
      Step s { event := some (.started call) }
        { s with guard, phase := .sequential index batch (d :: rest) (some call) settled }
  | sequentialFinish {s t : State} {interrupt : Option (List ToolCallDescriptor)} {index : Nat}
      {batch rest : List ToolCallDescriptor} {d : ToolCallDescriptor}
      {settled : List ToolResultMessage} {call : Running} (execution : Execution)
      (hphase : s.phase = .sequential index batch (d :: rest) (some call) settled)
      (hafter : AfterResult hasSteering
        { s with guard :=
            (finishToolCall parseMissingArgumentRequirement s.guard call execution).1 }
        index batch rest settled
        (finishToolCall parseMissingArgumentRequirement s.guard call execution).2 interrupt t) :
      Step s
        { event := some (.ended call
            (finishToolCall parseMissingArgumentRequirement s.guard call execution).2)
          interrupt } t
  | pollQuiet {s : State} {index : Nat} {batch pending : List ToolCallDescriptor}
      {settled : List ToolResultMessage} (hphase : s.phase = .polling index batch pending settled) :
      Step s {} (s.nextCall index batch pending settled)
  | pollSteering {s : State} {index : Nat} {batch pending : List ToolCallDescriptor}
      {settled : List ToolResultMessage} (queued : List AgentMessage) (hqueued : queued ≠ [])
      (hphase : s.phase = .polling index batch pending settled) :
      Step s { interrupt := some pending }
        (s.interrupted (index + batch.length) settled (resolveQueuedMessageAttribution queued)
          (some queued))
  | workerSkip {s : State} {index limit next : Nat} {batch : List ToolCallDescriptor}
      {running : List (Nat × Running)} {slots : List (Option ToolResultMessage)}
      {d : ToolCallDescriptor} (parameters : JsValue) {result : ToolResultMessage}
      (hphase : s.phase = .parallel index batch limit next running slots)
      (hworker : running.length < limit) (hitem : batch[next]? = some d)
      (hstart : startToolCall stableStringify options s.guard d.toolCall parameters =
        .skipped result) :
      Step s {}
        { s with phase := .parallel index batch limit (next + 1) running
                   (slots.set next (some result)) }
  | workerStart {s : State} {index limit next : Nat} {batch : List ToolCallDescriptor}
      {running : List (Nat × Running)} {slots : List (Option ToolResultMessage)}
      {d : ToolCallDescriptor} (parameters : JsValue) {guard : Option ToolCallExecutionGuard}
      {call : Running} (hphase : s.phase = .parallel index batch limit next running slots)
      (hworker : running.length < limit) (hitem : batch[next]? = some d)
      (hstart : startToolCall stableStringify options s.guard d.toolCall parameters =
        .running guard call) :
      Step s { event := some (.started call) }
        { s with guard, phase := .parallel index batch limit (next + 1) (running ++ [(next, call)])
                   slots }
  | workerFinish {s : State} {index limit next item : Nat} {batch : List ToolCallDescriptor}
      {before after : List (Nat × Running)} {slots : List (Option ToolResultMessage)}
      {call : Running} (execution : Execution)
      (hphase : s.phase = .parallel index batch limit next (before ++ (item, call) :: after) slots) :
      Step s
        { event := some (.ended call
            (finishToolCall parseMissingArgumentRequirement s.guard call execution).2) }
        { s with
          guard := (finishToolCall parseMissingArgumentRequirement s.guard call execution).1
          phase := .parallel index batch limit next (before ++ after)
            (slots.set item
              (some (finishToolCall parseMissingArgumentRequirement s.guard call execution).2)) }
  | parallelEnd {s : State} {index limit : Nat} {batch : List ToolCallDescriptor}
      {slots : List (Option ToolResultMessage)}
      (hphase : s.phase = .parallel index batch limit batch.length [] slots) :
      Step s {} (s.endBatch (index + batch.length) (slots.filterMap id))

/-- A run, with the labels of its steps in order. -/
inductive Run : State → List StepLabel → State → Prop
  | refl (s : State) : Run s [] s
  | tail {s t u : State} {labels : List StepLabel} {label : StepLabel} (h : Run s labels t)
      (hstep : Step stableStringify parseMissingArgumentRequirement options hasSteering t label u) :
      Run s (labels ++ [label]) u

end Steps

end Psfn.Scheduler
