import Psfn.Scheduler.Results

/-!
# Tool-call scheduler — the replay guard

The guard is read before a tool is awaited and written after. Everything about it follows
from two facts on one call: what the first half demands of the guard (`Started`) and what
the second half does to it (`Settled`). `GuardInvariant` is stated for a guard, the calls
running and the events observed so far, in any interleaving of starts and ends; the
scheduler's steps are seen to be such starts and ends (`step_guard`).

* `guardInvariant_session` — over any sequence of scheduler runs sharing one guard;
* `replay_guard` — no two deduplicated calls of one signature overlap, none is executed
  after a plain success, and the failures of a signature stay within the limit as long as
  no execution starts while those already running could exhaust it. The last condition is
  not checked by the guard: `three_failures`.
-/

namespace Psfn.Scheduler

open Psfn.Lib

/-! ## What an observer counts -/

/-- A plain success: not an error, not degraded evidence, not held. -/
def plainSuccess (result : ToolResultMessage) : Bool :=
  result.outcome = .success && !isHeldToolCallResult result.details

def CallEvent.isFailureOf (signature : String) : CallEvent → Bool
  | .started _ => false
  | .ended call result => call.signature = signature && result.isError

/-- Failing executions of a signature among the events. -/
def failures (log : List CallEvent) (signature : String) : Nat :=
  log.countP (CallEvent.isFailureOf signature)

/-- Executions of a signature that are running. -/
def runningOf (running : List Running) (signature : String) : Nat :=
  running.countP fun call => call.signature = signature

/-- Two deduplicated calls of one signature. -/
def Clash (a b : Running) : Prop :=
  a.deduplicate = true ∧ b.deduplicate = true ∧ a.signature = b.signature

/-- No deduplicated call starts after a deduplicated execution of its signature ended in
plain success. -/
def NoReplay (log : List CallEvent) : Prop :=
  ∀ before call after, log = before ++ .started call :: after → call.deduplicate = true →
    ∀ call' result, .ended call' result ∈ before → call'.deduplicate = true →
      call'.signature = call.signature → plainSuccess result = false

/-! ## What the second half of a call does to the guard -/

structure Settled (call : Running) (result : ToolResultMessage) (g g' : ToolCallExecutionGuard) :
    Prop where
  inFlight : g'.inFlightSignatures =
    if call.deduplicate then JsSet.delete g.inFlightSignatures call.signature else g.inFlightSignatures
  done     : ∀ signature, signature ∈ g'.successfulSignatures ↔ signature ∈ g.successfulSignatures ∨
    (call.deduplicate = true ∧ plainSuccess result = true ∧ signature = call.signature)
  count    : ∀ signature, failureCount g' signature = failureCount g signature +
    if call.signature = signature ∧ result.isError = true then 1 else 0

section Parameters

variable (parseMissingArgumentRequirement : String → Option MissingArgumentRequirement)

/-- The record of missing arguments touches nothing else. -/
theorem recordMalformedArgumentFailure_frame (g : ToolCallExecutionGuard) (toolCall : ToolCall)
    (result : AgentToolResult) :
    let g' := recordMalformedArgumentFailure parseMissingArgumentRequirement g toolCall result
    g'.inFlightSignatures = g.inFlightSignatures ∧
    g'.successfulSignatures = g.successfulSignatures ∧
    g'.failureCountsBySignature = g.failureCountsBySignature := by
  unfold recordMalformedArgumentFailure
  split
  · exact ⟨rfl, rfl, rfl⟩
  · dsimp only
    split <;> exact ⟨rfl, rfl, rfl⟩

theorem failureCount_set (g : ToolCallExecutionGuard) (signature σ : String) (n : Nat) :
    failureCount { g with failureCountsBySignature := g.failureCountsBySignature.set signature n } σ =
      if signature = σ then n else failureCount g σ := by
  unfold failureCount
  rw [JsMap.get_set]
  by_cases h : σ = signature
  · subst h
    simp
  · simp [h, Ne.symm h]

theorem settleGuard_settled (g : ToolCallExecutionGuard) (call : Running) (result : AgentToolResult)
    (outcome : ToolCallOutcome) (message : ToolResultMessage)
    (houtcome : message.outcome = outcome) (herror : message.isError = isToolCallErrorOutcome outcome)
    (hdetails : message.details = result.details) :
    Settled call message g
      (settleGuard parseMissingArgumentRequirement g call result outcome) := by
  -- the guard once the signature is no longer in flight
  obtain ⟨g₁, hg₁, hflight, hdone, hcount⟩ : ∃ g₁, g₁ = (if call.deduplicate then
      { g with inFlightSignatures := JsSet.delete g.inFlightSignatures call.signature } else g) ∧
      g₁.inFlightSignatures = (if call.deduplicate then
        JsSet.delete g.inFlightSignatures call.signature else g.inFlightSignatures) ∧
      g₁.successfulSignatures = g.successfulSignatures ∧
      g₁.failureCountsBySignature = g.failureCountsBySignature := by
    refine ⟨_, rfl, ?_⟩
    split <;> exact ⟨rfl, rfl, rfl⟩
  have hcount' : ∀ σ, failureCount g₁ σ = failureCount g σ := fun σ => by
    rw [failureCount, hcount, failureCount]
  simp only [settleGuard, ← hg₁]
  by_cases he : isToolCallErrorOutcome outcome = true
  · -- a failure: one more under the signature, no success recorded
    have hplain : plainSuccess message = false := by
      cases outcome <;> simp_all [plainSuccess, isToolCallErrorOutcome]
    rw [if_pos he]
    obtain ⟨hf, hs, hc⟩ := recordMalformedArgumentFailure_frame parseMissingArgumentRequirement
      { g₁ with failureCountsBySignature :=
          g₁.failureCountsBySignature.set call.signature (failureCount g₁ call.signature + 1) }
      call.toolCall result
    refine ⟨hf.trans hflight, fun σ => ?_, fun σ => ?_⟩
    · rw [hs, hplain]
      simp [hdone]
    · have hσ := failureCount_set g₁ call.signature σ (failureCount g₁ call.signature + 1)
      rw [failureCount, hc, ← failureCount, hσ, herror, he]
      by_cases h : call.signature = σ
      · subst h
        simp [hcount']
      · simp [h, hcount']
  · rw [if_neg he]
    have hno : message.isError = false := by simpa [herror] using he
    split
    · rename_i hsuccess
      have hplain : plainSuccess message = true := by
        simpa [plainSuccess, houtcome, hdetails] using hsuccess
      refine ⟨hflight, fun σ => ?_, fun σ => ?_⟩
      · cases hd : call.deduplicate <;> simp [hplain, hdone, JsSet.mem_add]
      · show failureCount g₁ σ = _
        simp [hno, hcount' σ]
    · rename_i hsuccess
      have hplain : plainSuccess message = false := by
        simpa [plainSuccess, houtcome, hdetails] using hsuccess
      exact ⟨hflight, fun σ => by simp [hplain, hdone], fun σ => by simp [hno, hcount' σ]⟩

theorem finishToolCall_settled (g : ToolCallExecutionGuard) (call : Running) (execution : Execution) :
    ∃ g', (finishToolCall parseMissingArgumentRequirement (some g) call execution).1 = some g' ∧
      Settled call (finishToolCall parseMissingArgumentRequirement (some g) call execution).2 g g' := by
  refine ⟨_, rfl, ?_⟩
  split
  · -- noting the corrected tool changes nothing the guard's decisions read
    have h := settleGuard_settled parseMissingArgumentRequirement
      { g with correctedToolNames := JsSet.add g.correctedToolNames call.toolCall.name } call
      (classifyExecution call.toolCall.name execution).1
      (classifyExecution call.toolCall.name execution).2
      (finishToolCall parseMissingArgumentRequirement (some g) call execution).2 rfl rfl rfl
    exact ⟨h.inFlight, h.done, h.count⟩
  · exact settleGuard_settled _ g call _ _ _ rfl rfl rfl

end Parameters

/-! ## Starts and ends, in any order -/

/-- What ties the guard to the calls running and the events so far. -/
structure GuardInvariant (g : ToolCallExecutionGuard) (running : List Running)
    (log : List CallEvent) : Prop where
  inFlight : ∀ call ∈ running, call.deduplicate = true → call.signature ∈ g.inFlightSignatures
  apart    : running.Pairwise fun a b => ¬ Clash a b
  done     : ∀ call result, .ended call result ∈ log → call.deduplicate = true →
    plainSuccess result = true → call.signature ∈ g.successfulSignatures
  replay   : NoReplay log
  count    : ∀ signature, failureCount g signature = failures log signature

theorem guardInvariant_init : GuardInvariant createToolCallExecutionGuard [] [] where
  inFlight := by simp
  apart := List.Pairwise.nil
  done := by simp
  replay := by
    intro before call after h
    exact absurd h (by simp)
  count := fun _ => rfl

theorem failures_append_started (log : List CallEvent) (call : Running) (signature : String) :
    failures (log ++ [.started call]) signature = failures log signature := by
  simp [failures, CallEvent.isFailureOf]

theorem failures_append_ended (log : List CallEvent) (call : Running) (result : ToolResultMessage)
    (signature : String) :
    failures (log ++ [.ended call result]) signature = failures log signature +
      if call.signature = signature ∧ result.isError = true then 1 else 0 := by
  simp [failures, CallEvent.isFailureOf, List.countP_append, List.countP_cons]

/-- A log that ends in one more event: its starts are the old ones, or that event. -/
theorem append_singleton_split {log before after : List CallEvent} {e e' : CallEvent}
    (h : log ++ [e] = before ++ e' :: after) :
    (∃ after', after = after' ++ [e] ∧ log = before ++ e' :: after') ∨
    (after = [] ∧ log = before ∧ e = e') := by
  rcases List.eq_nil_or_concat after with rfl | ⟨after', x, rfl⟩
  · obtain ⟨h₁, h₂⟩ := List.append_inj' h rfl
    exact Or.inr ⟨rfl, h₁, by simpa using h₂⟩
  · left
    rw [List.concat_eq_append, ← List.cons_append, ← List.append_assoc] at h
    obtain ⟨h₁, h₂⟩ := List.append_inj' h rfl
    obtain rfl : e = x := by simpa using h₂
    exact ⟨after', by simp, h₁⟩

theorem GuardInvariant.start {g g' : ToolCallExecutionGuard} {running : List Running}
    {log : List CallEvent} {options : ToolCallSchedulerOptions} {call : Running}
    (h : GuardInvariant g running log) (hstart : Started options call g g') :
    GuardInvariant g' (running ++ [call]) (log ++ [.started call]) := by
  have hsub : ∀ σ, σ ∈ g.inFlightSignatures → σ ∈ g'.inFlightSignatures := by
    intro σ hσ
    rw [hstart.guard]
    split
    · exact JsSet.mem_add.mpr (Or.inl hσ)
    · exact hσ
  have hsame : g'.successfulSignatures = g.successfulSignatures ∧
      g'.failureCountsBySignature = g.failureCountsBySignature := by
    rw [hstart.guard]
    split <;> exact ⟨rfl, rfl⟩
  refine ⟨?_, ?_, ?_, ?_, ?_⟩
  · intro c hc hd
    rcases List.mem_append.mp hc with hc | hc
    · exact hsub _ (h.inFlight c hc hd)
    · obtain rfl := List.mem_singleton.mp hc
      rw [hstart.guard, if_pos hd]
      exact JsSet.mem_add.mpr (Or.inr rfl)
  · -- a running call of the same signature would have it in flight
    rw [List.pairwise_append]
    refine ⟨h.apart, List.pairwise_singleton _ _, fun a ha b hb hclash => ?_⟩
    obtain rfl := List.mem_singleton.mp hb
    obtain ⟨hda, hdb, hsig⟩ := hclash
    exact hstart.notInFlight hdb (hsig ▸ h.inFlight a ha hda)
  · intro c r hmem hd hplain
    have hold : .ended c r ∈ log := by simpa using hmem
    rw [hsame.1]
    exact h.done c r hold hd hplain
  · intro before c after hsplit hd c' r hmem hd' hsig
    rcases append_singleton_split hsplit with ⟨after', -, hlog⟩ | ⟨-, hlog, hlast⟩
    · exact h.replay before c after' hlog hd c' r hmem hd' hsig
    · obtain rfl : call = c := by simpa using hlast
      subst hlog
      by_contra hplain
      exact hstart.notDone hd (hsig ▸ h.done c' r hmem hd' (by simpa using hplain))
  · intro σ
    rw [failures_append_started, ← h.count, failureCount, hsame.2, failureCount]

theorem GuardInvariant.finish {g g' : ToolCallExecutionGuard} {before after : List Running}
    {log : List CallEvent} {call : Running} {result : ToolResultMessage}
    (h : GuardInvariant g (before ++ call :: after) log) (hsettled : Settled call result g g') :
    GuardInvariant g' (before ++ after) (log ++ [.ended call result]) := by
  have hsublist : (before ++ after).Sublist (before ++ call :: after) :=
    List.Sublist.append_left (List.sublist_cons_self call after) before
  refine ⟨?_, h.apart.sublist hsublist, ?_, ?_, ?_⟩
  · intro c hc hd
    have hold := h.inFlight c (hsublist.subset hc) hd
    rw [hsettled.inFlight]
    split
    · -- the call that ended was the only deduplicated one of its signature
      rename_i hdcall
      refine JsSet.mem_delete.mpr ⟨hold, fun hsig => ?_⟩
      have hapart := h.apart
      rw [List.pairwise_append, List.pairwise_cons] at hapart
      obtain ⟨-, ⟨hafter, -⟩, hbefore⟩ := hapart
      rcases List.mem_append.mp hc with hc | hc
      · exact hbefore c hc call (List.mem_cons_self ..) ⟨hd, hdcall, hsig⟩
      · exact hafter c hc ⟨hdcall, hd, hsig.symm⟩
    · exact hold
  · intro c r hmem hd hplain
    rw [hsettled.done]
    rcases List.mem_append.mp hmem with hmem | hmem
    · exact Or.inl (h.done c r hmem hd hplain)
    · obtain ⟨rfl, rfl⟩ : c = call ∧ r = result := by simpa using hmem
      exact Or.inr ⟨hd, hplain, rfl⟩
  · intro before' c after' hsplit hd c' r hmem hd' hsig
    rcases append_singleton_split hsplit with ⟨after'', -, hlog⟩ | ⟨-, -, hlast⟩
    · exact h.replay before' c after'' hlog hd c' r hmem hd' hsig
    · exact absurd hlast (by simp)
  · intro σ
    rw [failures_append_ended, ← h.count, hsettled.count]

/-! ## Sessions: runs that share one guard -/

def Phase.running : Phase → List Running
  | .sequential _ _ _ running _ => running.toList
  | .parallel _ _ _ _ running _ => running.map Prod.snd
  | _ => []

/-- The executions that have started and not ended. -/
def State.running (s : State) : List Running := s.phase.running

def events (labels : List StepLabel) : List CallEvent := labels.filterMap StepLabel.event

section Sessions

variable (stableStringify : JsValue → String)
  (parseMissingArgumentRequirement : String → Option MissingArgumentRequirement)
  (options : ToolCallSchedulerOptions)

/-- Any number of scheduler runs, one after another, on the guard of the first. The failure
limit is the same in all of them; everything else may differ. Every step meets `ok`. -/
inductive Session (ok : List StepLabel → State → StepLabel → Prop) : List StepLabel → State → Prop
  | begin (calls : List ToolCallDescriptor) :
      Session ok [] (State.begin calls (some createToolCallExecutionGuard))
  | step {labels : List StepLabel} {s t : State} {label : StepLabel} (h : Session ok labels s)
      (maxParallelToolCalls : JsNumber) (hasSteering : Bool)
      (hstep : Step stableStringify parseMissingArgumentRequirement
        { options with maxParallelToolCalls } hasSteering s label t)
      (hok : ok labels s label) : Session ok (labels ++ [label]) t
  | again {labels : List StepLabel} {s : State} {m : Option (List AgentMessage)}
      (h : Session ok labels s) (hreturned : s.phase = .returned m)
      (calls : List ToolCallDescriptor) : Session ok labels (State.begin calls s.guard)

end Sessions

section Runs

variable {stableStringify : JsValue → String}
  {parseMissingArgumentRequirement : String → Option MissingArgumentRequirement}
  {options : ToolCallSchedulerOptions} {hasSteering : Bool}

/-- How a step looks to the guard: not at all, a start, or an end. -/
inductive GuardStep (options : ToolCallSchedulerOptions) (g : ToolCallExecutionGuard)
    (running : List Running) :
    Option CallEvent → Option ToolCallExecutionGuard → List Running → Prop
  | quiet : GuardStep options g running none (some g) running
  | start {call : Running} {g' : ToolCallExecutionGuard} (h : Started options call g g') :
      GuardStep options g running (some (.started call)) (some g') (running ++ [call])
  | finish {before after : List Running} {call : Running} {result : ToolResultMessage}
      {g' : ToolCallExecutionGuard} (hrunning : running = before ++ call :: after)
      (h : Settled call result g g') :
      GuardStep options g running (some (.ended call result)) (some g') (before ++ after)

/-- Steps that leave the guard and the running calls alone. -/
theorem guardStep_quiet {s t : State} {g : ToolCallExecutionGuard} (hg : s.guard = some g)
    (hguard : t.guard = s.guard) (hrunning : t.running = s.running) :
    GuardStep options g s.running none t.guard t.running := by
  rw [hguard, hg, hrunning]
  exact .quiet

theorem nextCall_guard (s : State) (index : Nat) (batch pending : List ToolCallDescriptor)
    (settled : List ToolResultMessage) :
    (s.nextCall index batch pending settled).guard = s.guard ∧
      (s.nextCall index batch pending settled).running = [] := by
  cases pending <;> exact ⟨rfl, rfl⟩

theorem afterResult_guard {s t : State} {interrupt : Option (List ToolCallDescriptor)} {index : Nat}
    {batch rest : List ToolCallDescriptor} {settled : List ToolResultMessage}
    {result : ToolResultMessage}
    (h : AfterResult hasSteering s index batch rest settled result interrupt t) :
    t.guard = s.guard ∧ t.running = [] := by
  cases h with
  | halt => exact ⟨rfl, rfl⟩
  | poll => exact ⟨rfl, rfl⟩
  | next => exact nextCall_guard ..

/-- The scheduler's steps are starts and ends of executions on its guard. -/
theorem step_guard {s t : State} {label : StepLabel} {g : ToolCallExecutionGuard}
    (h : Step stableStringify parseMissingArgumentRequirement options hasSteering s label t)
    (hg : s.guard = some g) : GuardStep options g s.running label.event t.guard t.running := by
  cases h with
  | returns hphase _ => exact guardStep_quiet hg rfl (by simp [State.running, hphase, Phase.running])
  | enterSequential hphase _ _ =>
    exact guardStep_quiet hg rfl (by simp [State.running, hphase, Phase.running])
  | enterParallel hphase _ _ =>
    exact guardStep_quiet hg rfl (by simp [State.running, hphase, Phase.running])
  | sequentialSkip parameters hphase hstart hafter =>
    obtain ⟨hguard, hrunning⟩ := afterResult_guard hafter
    exact guardStep_quiet hg hguard
      (hrunning.trans (by simp [State.running, hphase, Phase.running]))
  | sequentialStart parameters hphase hstart =>
    obtain ⟨-, -, hsome⟩ := startToolCall_running hstart
    obtain ⟨g', rfl, hstarted⟩ := hsome g hg
    have hrunning : s.running = [] := by simp [State.running, hphase, Phase.running]
    rw [hrunning]
    exact .start hstarted
  | @sequentialFinish _ _ _ _ _ _ _ call execution hphase hafter =>
    obtain ⟨g', hg', hsettled⟩ := finishToolCall_settled parseMissingArgumentRequirement g call execution
    obtain ⟨hguard, hrunning⟩ := afterResult_guard hafter
    have hbefore : s.running = [] ++ call :: [] := by simp [State.running, hphase, Phase.running]
    rw [hguard, hrunning]
    dsimp only
    rw [hg, hg']
    exact .finish hbefore hsettled
  | pollQuiet hphase =>
    obtain ⟨hguard, hrunning⟩ := nextCall_guard s _ _ _ _
    exact guardStep_quiet hg hguard
      (hrunning.trans (by simp [State.running, hphase, Phase.running]))
  | pollSteering queued _ hphase =>
    exact guardStep_quiet hg rfl
      (by simp [State.running, State.interrupted, hphase, Phase.running])
  | workerSkip parameters hphase _ _ _ =>
    exact guardStep_quiet hg rfl (by simp [State.running, hphase, Phase.running])
  | @workerStart _ _ next _ running _ _ parameters _ call hphase _ _ hstart =>
    obtain ⟨-, -, hsome⟩ := startToolCall_running hstart
    obtain ⟨g', rfl, hstarted⟩ := hsome g hg
    have hrunning : s.running = running.map Prod.snd := by
      simp [State.running, hphase, Phase.running]
    have hafter : (running ++ [(next, call)]).map Prod.snd = s.running ++ [call] := by
      rw [hrunning, List.map_append]
      rfl
    show GuardStep options g s.running _ _ ((running ++ [(next, call)]).map Prod.snd)
    rw [hafter]
    exact .start hstarted
  | @workerFinish _ _ _ _ _ before after _ call execution hphase =>
    obtain ⟨g', hg', hsettled⟩ := finishToolCall_settled parseMissingArgumentRequirement g call execution
    have hbefore : s.running = before.map Prod.snd ++ call :: after.map Prod.snd := by
      simp [State.running, hphase, Phase.running]
    show GuardStep options g s.running _ _ ((before ++ after).map Prod.snd)
    dsimp only
    rw [List.map_append, hg, hg']
    exact .finish hbefore hsettled
  | parallelEnd hphase =>
    exact guardStep_quiet hg rfl (by simp [State.running, State.endBatch, hphase, Phase.running])

/-! ## Whole sessions -/

theorem events_append (labels : List StepLabel) (label : StepLabel) :
    events (labels ++ [label]) = events labels ++ label.event.toList := by
  rw [events, List.filterMap_append]
  cases h : label.event <;> simp [events, h]

variable {ok : List StepLabel → State → StepLabel → Prop}

/-- **The invariant along a session.** -/
theorem guardInvariant_session {labels : List StepLabel} {s : State}
    (h : Session stableStringify parseMissingArgumentRequirement options ok labels s) :
    ∃ g, s.guard = some g ∧ GuardInvariant g s.running (events labels) := by
  induction h with
  | begin calls => exact ⟨_, rfl, guardInvariant_init⟩
  | @step labels s t label h maxParallelToolCalls hasSteering hstep hok ih =>
    obtain ⟨g, hg, hinv⟩ := ih
    have hguard := step_guard hstep hg
    rw [events_append]
    generalize label.event = event, t.guard = guard', t.running = running' at hguard ⊢
    cases hguard with
    | quiet => exact ⟨g, rfl, by simpa using hinv⟩
    | start hstarted => exact ⟨_, rfl, hinv.start hstarted⟩
    | finish hrunning hsettled => exact ⟨_, rfl, GuardInvariant.finish (hrunning ▸ hinv) hsettled⟩
  | @again labels s m h hreturned calls ih =>
    obtain ⟨g, hg, hinv⟩ := ih
    have hrunning : s.running = [] := by simp [State.running, hreturned, Phase.running]
    rw [hrunning] at hinv
    exact ⟨g, hg, hinv⟩

/-- A step that starts an execution does so while the failures of its signature, and the
executions of it that could still fail, leave room below the limit. -/
def StartsWithinBudget (options : ToolCallSchedulerOptions) (labels : List StepLabel) (s : State)
    (label : StepLabel) : Prop :=
  ∀ call, label.event = some (.started call) →
    failures (events labels) call.signature + runningOf s.running call.signature <
      maxFailures options

theorem failures_within_budget {labels : List StepLabel} {s : State}
    (h : Session stableStringify parseMissingArgumentRequirement options
      (StartsWithinBudget options) labels s) (signature : String) :
    failures (events labels) signature + runningOf s.running signature ≤ maxFailures options := by
  induction h with
  | begin calls => exact Nat.zero_le _
  | @step labels s t label h maxParallelToolCalls hasSteering hstep hok ih =>
    obtain ⟨g, hg, -⟩ := guardInvariant_session h
    have hguard := step_guard hstep hg
    rw [events_append]
    unfold StartsWithinBudget at hok
    generalize label.event = event, t.guard = guard', t.running = running' at hguard hok ⊢
    cases hguard with
    | quiet => simpa using ih
    | @start call _ hstarted =>
      have hroom := hok call rfl
      show failures (events labels ++ [.started call]) signature + _ ≤ _
      rw [failures_append_started, runningOf, List.countP_append]
      by_cases hσ : call.signature = signature
      · subst hσ
        simp only [List.countP_singleton, decide_true, if_true]
        rw [runningOf] at hroom
        omega
      · simpa [hσ, runningOf] using ih
    | @finish before after call result _ hrunning hsettled =>
      -- an execution that ends passes from the running ones to the failures, or vanishes
      show failures (events labels ++ [.ended call result]) signature + _ ≤ _
      rw [hrunning, runningOf, List.countP_append, List.countP_cons] at ih
      rw [failures_append_ended, runningOf, List.countP_append]
      by_cases hσ : call.signature = signature
      · simp only [hσ, decide_true, if_true] at ih
        split <;> omega
      · simp only [hσ, decide_false, false_and, if_false] at ih ⊢
        simpa using ih
  | @again labels s m h hreturned calls ih =>
    have hrunning : s.running = [] := by simp [State.running, hreturned, Phase.running]
    rw [hrunning] at ih
    exact ih

end Runs

/-- **The replay guard.** In every state of every session, the deduplicated calls that run
have different signatures and none has been executed after a plain success. In every
session that starts no execution its signature has no room for, the failures of a
signature stay within the limit. -/
theorem replay_guard (stableStringify : JsValue → String)
    (parseMissingArgumentRequirement : String → Option MissingArgumentRequirement)
    (options : ToolCallSchedulerOptions) :
    (∀ labels s, Session stableStringify parseMissingArgumentRequirement options
        (fun _ _ _ => True) labels s →
      s.running.Pairwise (fun a b => ¬ Clash a b) ∧ NoReplay (events labels)) ∧
    (∀ labels s, Session stableStringify parseMissingArgumentRequirement options
        (StartsWithinBudget options) labels s →
      ∀ signature, failures (events labels) signature ≤ maxFailures options) := by
  refine ⟨fun labels s h => ?_, fun labels s h signature => ?_⟩
  · obtain ⟨g, -, hinv⟩ := guardInvariant_session h
    exact ⟨hinv.apart, hinv.replay⟩
  · have := failures_within_budget h signature
    omega

/-! ### Failures that pass the limit together

Three equal subagent calls, which are not deduplicated, in one parallel batch: each is let
through before any of them has failed. -/

/-- Two failures of a signature are allowed; three are recorded. -/
theorem three_failures :
    ∃ labels s, Session (fun _ => "\x7b\x7d") (fun _ => none) serialOptions (fun _ _ _ => True)
        labels s ∧
      maxFailures serialOptions = 2 ∧ failures (events labels) "subagent:\x7b\x7d" = 3 := by
  refine ⟨_, _, .step (.step (.step (.step (.step (.step (.step
    (.begin [subagentCall "a", subagentCall "b", subagentCall "c"])
    (.finite 3) false (.enterParallel rfl (by decide) (by decide)) trivial)
    (.finite 3) false (.workerStart .undefined rfl (by decide) rfl rfl) trivial)
    (.finite 3) false (.workerStart .undefined rfl (by decide) rfl rfl) trivial)
    (.finite 3) false (.workerStart .undefined rfl (by decide) rfl rfl) trivial)
    (.finite 3) false (@Step.workerFinish _ _ _ _ _ _ _ _ _ _ [] _ _ _ failedExecution rfl) trivial)
    (.finite 3) false (@Step.workerFinish _ _ _ _ _ _ _ _ _ _ [] _ _ _ failedExecution rfl) trivial)
    (.finite 3) false (@Step.workerFinish _ _ _ _ _ _ _ _ _ _ [] _ _ _ failedExecution rfl) trivial,
    rfl, by decide⟩

end Psfn.Scheduler
