import Mathlib.Data.List.Basic
import Psfn.Scheduler.Run

/-!
# Tool-call scheduler — one result per call

A run of the scheduler answers every call of the list, in order, each under its own id —
unless a halt or a steering message interrupts a sequential batch that still holds
unexecuted calls. The loop then advances by the whole batch and skips only what comes
after it, so those calls get no result at all.

* `collectCompatibleBatch_spec` — a batch is a non-empty prefix of what is left;
* `PhaseInvariant`, `phaseInvariant_step`, `phaseInvariant_run` — what the results
  collected so far answer, at every `await`;
* `step_decreases`, `exists_step` — a run cannot go on forever and only stops by returning;
* `one_result_per_call_iff` — the run answers every call exactly when no interruption left
  calls of its own batch unexecuted.
-/

namespace Psfn.Scheduler

open Psfn.Lib

/-! ## Who a result answers -/

/-- Every call of the list has one result, in order. -/
def AnsweredInOrder (calls : List ToolCallDescriptor) (results : List ToolResultMessage) : Prop :=
  results.map ToolResultMessage.answers = calls.map ToolCallDescriptor.asks

theorem AnsweredInOrder.append {calls calls' : List ToolCallDescriptor}
    {results results' : List ToolResultMessage} (h : AnsweredInOrder calls results)
    (h' : AnsweredInOrder calls' results') :
    AnsweredInOrder (calls ++ calls') (results ++ results') := by
  unfold AnsweredInOrder at *
  rw [List.map_append, List.map_append, h, h']

variable {calls : List ToolCallDescriptor}

theorem AnsweredInOrder.length_eq {results : List ToolResultMessage}
    (h : AnsweredInOrder calls results) :
    results.length = calls.length := by
  have := congrArg List.length h
  simpa using this

theorem answered_skipRemaining (remaining : List ToolCallDescriptor) (text : String) :
    AnsweredInOrder remaining (skipRemaining remaining text) := by
  unfold AnsweredInOrder skipRemaining
  rw [List.map_map]
  rfl

/-! ## Batches -/

theorem extendBatch_spec (batch rest : List ToolCallDescriptor) :
    ∃ taken after, extendBatch batch rest = batch ++ taken ∧ rest = taken ++ after := by
  induction rest generalizing batch with
  | nil => exact ⟨[], [], by simp [extendBatch], rfl⟩
  | cons candidate rest ih =>
    rw [extendBatch]
    split
    · exact ⟨[], candidate :: rest, by simp, rfl⟩
    · obtain ⟨taken, after, hext, hrest⟩ := ih (batch ++ [candidate])
      exact ⟨candidate :: taken, after, by rw [hext]; simp, by rw [hrest]; rfl⟩

variable {descriptors : List ToolCallDescriptor} {index : Nat}

/-- A batch is a non-empty prefix of the calls that are left. -/
theorem collectCompatibleBatch_spec (h : index < descriptors.length) :
    collectCompatibleBatch descriptors index ≠ [] ∧
    ∃ after, descriptors.drop index = collectCompatibleBatch descriptors index ++ after := by
  unfold collectCompatibleBatch
  cases hdrop : descriptors.drop index with
  | nil => exact absurd (List.drop_eq_nil_iff.mp hdrop) (by omega)
  | cons first rest =>
    dsimp only
    split
    · exact ⟨by simp, rest, rfl⟩
    · obtain ⟨taken, after, hext, hrest⟩ := extendBatch_spec [first] rest
      rw [hext]
      exact ⟨by simp, after, by rw [hrest]; simp⟩

variable {batch after : List ToolCallDescriptor}

/-- The calls before the end of a batch, when the batch is a prefix of what is left. -/
theorem take_add_of_drop (h : descriptors.drop index = batch ++ after) :
    descriptors.take (index + batch.length) = descriptors.take index ++ batch ∧
      descriptors.drop (index + batch.length) = after := by
  constructor
  · rw [List.take_add, h, List.take_left]
  · rw [← List.drop_drop, h, List.drop_left]

/-! ## The invariant at every await -/

/-- Item `j` of a parallel batch: waiting for a worker, running, or answered in its slot. -/
structure WorkersInvariant (batch : List ToolCallDescriptor) (next : Nat)
    (running : List (Nat × Running)) (slots : List (Option ToolResultMessage)) : Prop where
  size    : slots.length = batch.length
  started : next ≤ batch.length
  runs    : ∀ p ∈ running, p.1 < next ∧ ∃ d, batch[p.1]? = some d ∧ p.2.toolCall = d.toolCall
  filled  : ∀ j < next, (∃ p ∈ running, p.1 = j) ∨ ∃ r, slots[j]? = some (some r)
  answer  : ∀ (j : Nat) (r : ToolResultMessage), slots[j]? = some (some r) →
    ∃ d, batch[j]? = some d ∧ r.answers = d.asks

def PhaseInvariant (descriptors : List ToolCallDescriptor) (results : List ToolResultMessage) :
    Phase → Prop
  | .head index =>
    index ≤ descriptors.length ∧ AnsweredInOrder (descriptors.take index) results
  | .sequential index batch pending running settled =>
    AnsweredInOrder (descriptors.take index) results ∧
    (∃ after, descriptors.drop index = batch ++ after) ∧
    (∃ settledCalls, batch = settledCalls ++ pending ∧ AnsweredInOrder settledCalls settled) ∧
    (pending ≠ []) ∧
    ∀ call, running = some call → ∃ d rest, pending = d :: rest ∧ call.toolCall = d.toolCall
  | .polling index batch pending settled =>
    AnsweredInOrder (descriptors.take index) results ∧
    (∃ after, descriptors.drop index = batch ++ after) ∧ batch ≠ [] ∧
    ∃ settledCalls, batch = settledCalls ++ pending ∧ AnsweredInOrder settledCalls settled
  | .parallel index batch limit next running slots =>
    AnsweredInOrder (descriptors.take index) results ∧
    (∃ after, descriptors.drop index = batch ++ after) ∧ batch ≠ [] ∧ 0 < limit ∧
    WorkersInvariant batch next running slots
  | .returned _ => True

/-! ## What one step does -/

variable {slots : List (Option ToolResultMessage)}

theorem WorkersInvariant.skip {next : Nat} {running : List (Nat × Running)}
    (h : WorkersInvariant batch next running slots) {d : ToolCallDescriptor}
    (hitem : batch[next]? = some d) {r : ToolResultMessage} (hr : r.answers = d.asks) :
    WorkersInvariant batch (next + 1) running (slots.set next (some r)) := by
  have hlt : next < batch.length := (List.getElem?_eq_some_iff.mp hitem).1
  refine ⟨by rw [List.length_set, h.size], hlt, ?_, ?_, ?_⟩
  · intro p hp
    obtain ⟨hlt', d', hd', ht⟩ := h.runs p hp
    exact ⟨Nat.lt_succ_of_lt hlt', d', hd', ht⟩
  · intro j hj
    by_cases hjn : j = next
    · subst hjn
      exact Or.inr ⟨r, by rw [List.getElem?_set_self (h.size ▸ hlt)]⟩
    · rw [List.getElem?_set_ne (Ne.symm hjn)]
      exact h.filled j (by omega)
  · intro j r' hj
    by_cases hjn : j = next
    · subst hjn
      rw [List.getElem?_set_self (h.size ▸ hlt)] at hj
      obtain rfl : r = r' := by simpa using hj
      exact ⟨d, hitem, hr⟩
    · rw [List.getElem?_set_ne (Ne.symm hjn)] at hj
      exact h.answer j r' hj

theorem WorkersInvariant.start {batch : List ToolCallDescriptor} {next : Nat}
    {running : List (Nat × Running)} {slots : List (Option ToolResultMessage)}
    (h : WorkersInvariant batch next running slots) {d : ToolCallDescriptor}
    (hitem : batch[next]? = some d) {call : Running} (hcall : call.toolCall = d.toolCall) :
    WorkersInvariant batch (next + 1) (running ++ [(next, call)]) slots := by
  have hlt : next < batch.length := (List.getElem?_eq_some_iff.mp hitem).1
  refine ⟨h.size, hlt, ?_, ?_, h.answer⟩
  · intro p hp
    rcases List.mem_append.mp hp with hp | hp
    · obtain ⟨hlt', d', hd', ht⟩ := h.runs p hp
      exact ⟨Nat.lt_succ_of_lt hlt', d', hd', ht⟩
    · obtain rfl := List.mem_singleton.mp hp
      exact ⟨Nat.lt_succ_self _, d, hitem, hcall⟩
  · intro j hj
    by_cases hjn : j = next
    · exact Or.inl ⟨(next, call), by simp, hjn.symm⟩
    · rcases h.filled j (by omega) with ⟨p, hp, hpj⟩ | hfilled
      · exact Or.inl ⟨p, List.mem_append_left _ hp, hpj⟩
      · exact Or.inr hfilled

theorem WorkersInvariant.finish {batch : List ToolCallDescriptor} {next item : Nat}
    {before after : List (Nat × Running)} {call : Running}
    {slots : List (Option ToolResultMessage)}
    (h : WorkersInvariant batch next (before ++ (item, call) :: after) slots)
    {r : ToolResultMessage} (hr : r.answers = (call.toolCall.id, call.toolCall.name)) :
    WorkersInvariant batch next (before ++ after) (slots.set item (some r)) := by
  have hkeep : ∀ p, p ∈ before ++ after → p ∈ before ++ (item, call) :: after := by
    intro p hp
    simp only [List.mem_append, List.mem_cons] at hp ⊢
    tauto
  obtain ⟨hitem, d, hd, ht⟩ := h.runs (item, call) (by simp)
  have hlt : item < slots.length := by
    have := h.started
    rw [h.size]
    exact Nat.lt_of_lt_of_le hitem this
  refine ⟨by rw [List.length_set, h.size], h.started, fun p hp => h.runs p (hkeep p hp), ?_, ?_⟩
  · intro j hj
    by_cases hji : j = item
    · subst hji
      exact Or.inr ⟨r, by rw [List.getElem?_set_self hlt]⟩
    · rw [List.getElem?_set_ne (Ne.symm hji)]
      rcases h.filled j hj with ⟨p, hp, hpj⟩ | hfilled
      · refine Or.inl ⟨p, ?_, hpj⟩
        -- the entry that left the list belonged to another item
        simp only [List.mem_append, List.mem_cons] at hp ⊢
        rcases hp with hp | rfl | hp
        · exact Or.inl hp
        · exact absurd hpj (Ne.symm hji)
        · exact Or.inr hp
      · exact Or.inr hfilled
  · intro j r' hj
    by_cases hji : j = item
    · subst hji
      rw [List.getElem?_set_self hlt] at hj
      obtain rfl : r = r' := by simpa using hj
      exact ⟨d, hd, by rw [hr, ToolCallDescriptor.asks]; simp only [← ht]⟩
    · rw [List.getElem?_set_ne (Ne.symm hji)] at hj
      exact h.answer j r' hj

/-- When every worker has returned, the slots answer the batch. -/
theorem answered_slots (hsize : slots.length = batch.length)
    (h : ∀ j < batch.length, ∃ r d, slots[j]? = some (some r) ∧ batch[j]? = some d ∧
      r.answers = d.asks) :
    AnsweredInOrder batch (slots.filterMap id) := by
  induction batch generalizing slots with
  | nil =>
    obtain rfl := List.length_eq_zero_iff.mp hsize
    rfl
  | cons d batch ih =>
    cases slots with
    | nil => exact absurd hsize (by simp)
    | cons slot slots =>
      obtain ⟨r, d', hslot, hd', hr⟩ := h 0 (by simp)
      obtain rfl : slot = some r := by simpa using hslot
      obtain rfl : d = d' := by simpa using hd'
      have hrest : AnsweredInOrder batch (slots.filterMap id) := by
        apply ih (by simpa using hsize)
        intro j hj
        simpa using h (j + 1) (by simpa using hj)
      have hfirst : AnsweredInOrder [d] [r] := by simp [AnsweredInOrder, hr]
      exact hfirst.append hrest

theorem WorkersInvariant.complete (h : WorkersInvariant batch batch.length [] slots) :
    AnsweredInOrder batch (slots.filterMap id) := by
  apply answered_slots h.size
  intro j hj
  rcases h.filled j hj with ⟨p, hp, -⟩ | ⟨r, hr⟩
  · exact absurd hp (by simp)
  · obtain ⟨d, hd, ha⟩ := h.answer j r hr
    exact ⟨r, d, hr, hd, ha⟩

variable {s : State} {settled : List ToolResultMessage}

/-- A batch that ran to its end brings the loop to its head again. -/
theorem endBatch_invariant (hres : AnsweredInOrder (s.descriptors.take index) s.results)
    (hdrop : s.descriptors.drop index = batch ++ after) (hbatch : batch ≠ [])
    (hsettled : AnsweredInOrder batch settled) :
    PhaseInvariant s.descriptors (s.endBatch (index + batch.length) settled).results
      (s.endBatch (index + batch.length) settled).phase := by
  refine ⟨?_, ?_⟩
  · have hlen := congrArg List.length hdrop
    have hpos : 0 < batch.length := List.length_pos_of_ne_nil hbatch
    rw [List.length_drop, List.length_append] at hlen
    omega
  · rw [(take_add_of_drop hdrop).1]
    exact hres.append hsettled

variable {settledCalls : List ToolCallDescriptor}

theorem nextCall_invariant {pending : List ToolCallDescriptor}
    (hres : AnsweredInOrder (s.descriptors.take index) s.results)
    (hdrop : s.descriptors.drop index = batch ++ after) (hbatch : batch ≠ [])
    (hsplit : batch = settledCalls ++ pending) (hsettled : AnsweredInOrder settledCalls settled) :
    PhaseInvariant s.descriptors (s.nextCall index batch pending settled).results
      (s.nextCall index batch pending settled).phase := by
  cases pending with
  | nil =>
    rw [List.append_nil] at hsplit
    subst hsplit
    exact endBatch_invariant hres hdrop hbatch hsettled
  | cons d rest =>
    exact ⟨hres, ⟨after, hdrop⟩, ⟨settledCalls, hsplit, hsettled⟩, by simp, by simp⟩

/-- An interrupted run answers the calls before the batch, the settled ones of the batch
and those after it: all of them exactly when nothing of the batch was pending. -/
theorem interrupted_results {pending : List ToolCallDescriptor} (text : String)
    (m : Option (List AgentMessage)) (hres : AnsweredInOrder (s.descriptors.take index) s.results)
    (hdrop : s.descriptors.drop index = batch ++ after) (hsplit : batch = settledCalls ++ pending)
    (hsettled : AnsweredInOrder settledCalls settled) :
    (pending = [] → AnsweredInOrder s.descriptors
      (s.interrupted (index + batch.length) settled text m).results) ∧
    (pending ≠ [] →
      (s.interrupted (index + batch.length) settled text m).results.length < s.descriptors.length) := by
  have hall : AnsweredInOrder (s.descriptors.take index ++ settledCalls ++ after)
      (s.interrupted (index + batch.length) settled text m).results := by
    rw [State.interrupted, (take_add_of_drop hdrop).2]
    exact (hres.append hsettled).append (answered_skipRemaining after text)
  have hwhole : s.descriptors = s.descriptors.take index ++ settledCalls ++ pending ++ after := by
    rw [List.append_assoc _ settledCalls pending, ← hsplit, List.append_assoc, ← hdrop,
      List.take_append_drop]
  refine ⟨?_, ?_⟩
  · rintro rfl
    rw [List.append_nil] at hwhole
    rw [hwhole]
    exact hall
  · intro hpending
    have hpos : 0 < pending.length := List.length_pos_of_ne_nil hpending
    have hlen := hall.length_eq
    have htotal := congrArg List.length hwhole
    simp only [List.length_append] at hlen htotal
    omega

/-- What a step establishes, by whether it interrupts the run. -/
structure StepSpec (s : State) (interrupt : Option (List ToolCallDescriptor)) (t : State) :
    Prop where
  same    : t.descriptors = s.descriptors
  advance : interrupt = none → PhaseInvariant s.descriptors t.results t.phase ∧
    ∀ m, t.phase = .returned m → AnsweredInOrder s.descriptors t.results
  cut     : ∀ unexecuted, interrupt = some unexecuted → (∃ m, t.phase = .returned m) ∧
    (unexecuted = [] → AnsweredInOrder s.descriptors t.results) ∧
    (unexecuted ≠ [] → t.results.length < s.descriptors.length)

variable {t : State}

/-- An advancing step that does not return. -/
theorem StepSpec.ofPhase (hsame : t.descriptors = s.descriptors)
    (hphase : PhaseInvariant s.descriptors t.results t.phase)
    (hgoing : ∀ m, t.phase ≠ .returned m) :
    StepSpec s none t :=
  ⟨hsame, fun _ => ⟨hphase, fun m hm => absurd hm (hgoing m)⟩, fun _ h => absurd h (by simp)⟩

theorem State.nextCall_phase_ne_returned (s : State) (index : Nat)
    (batch pending : List ToolCallDescriptor) (settled : List ToolResultMessage)
    (m : Option (List AgentMessage)) :
    (s.nextCall index batch pending settled).phase ≠ .returned m := by
  cases pending <;> simp [State.nextCall, State.endBatch]

theorem State.nextCall_descriptors (s : State) (index : Nat)
    (batch pending : List ToolCallDescriptor) (settled : List ToolResultMessage) :
    (s.nextCall index batch pending settled).descriptors = s.descriptors := by
  cases pending <;> rfl

/-- The three ways a sequential batch goes on after a result. -/
theorem afterResult_spec {hasSteering : Bool} {interrupt : Option (List ToolCallDescriptor)}
    {rest : List ToolCallDescriptor} {d : ToolCallDescriptor} {result : ToolResultMessage}
    (hres : AnsweredInOrder (s.descriptors.take index) s.results)
    (hdrop : s.descriptors.drop index = batch ++ after) (hsplit : batch = settledCalls ++ d :: rest)
    (hsettled : AnsweredInOrder settledCalls settled) (hresult : result.answers = d.asks)
    (h : AfterResult hasSteering s index batch rest settled result interrupt t) :
    StepSpec s interrupt t := by
  have hsplit' : batch = (settledCalls ++ [d]) ++ rest := by simp [hsplit]
  have hsettled' : AnsweredInOrder (settledCalls ++ [d]) (settled ++ [result]) :=
    hsettled.append (by simp [AnsweredInOrder, hresult])
  have hbatch : batch ≠ [] := by simp [hsplit]
  cases h with
  | halt dependency hb =>
    refine ⟨rfl, fun hk => absurd hk (by simp), fun unexecuted hk => ?_⟩
    obtain rfl := Option.some.inj hk
    exact ⟨⟨none, rfl⟩, interrupted_results _ _ hres hdrop hsplit' hsettled'⟩
  | poll dependency hb hsteering =>
    exact .ofPhase rfl ⟨hres, ⟨after, hdrop⟩, hbatch, _, hsplit', hsettled'⟩ (by simp)
  | next dependency hb hsteering =>
    exact .ofPhase (s.nextCall_descriptors ..)
      (nextCall_invariant hres hdrop hbatch hsplit' hsettled')
      (s.nextCall_phase_ne_returned index batch rest _)

/-- Some interruption of the run left calls of its own batch unexecuted. -/
def CutsBatch (labels : List StepLabel) : Prop :=
  ∃ label ∈ labels, ∃ unexecuted, unexecuted ≠ [] ∧ label.interrupt = some unexecuted

section Runs

variable {stableStringify : JsValue → String}
  {parseMissingArgumentRequirement : String → Option MissingArgumentRequirement}
  {options : ToolCallSchedulerOptions} {hasSteering : Bool}

variable {label : StepLabel}

/-- **Step lemma.** -/
theorem step_spec
    (h : Step stableStringify parseMissingArgumentRequirement options hasSteering s label t)
    (hinv : PhaseInvariant s.descriptors s.results s.phase) : StepSpec s label.interrupt t := by
  cases h with
  | @returns index hphase hindex =>
    rw [hphase] at hinv
    obtain ⟨hle, hres⟩ := hinv
    have hwhole : s.descriptors.take index = s.descriptors := List.take_of_length_le hindex
    refine ⟨rfl, fun _ => ⟨trivial, fun _ _ => ?_⟩, fun _ hk => absurd hk (by simp)⟩
    rw [← hwhole]
    exact hres
  | @enterSequential index hphase hindex hmode =>
    rw [hphase] at hinv
    obtain ⟨hne, after, hdrop⟩ := collectCompatibleBatch_spec hindex
    exact .ofPhase rfl ⟨hinv.2, ⟨after, hdrop⟩, ⟨[], rfl, rfl⟩, hne, by simp⟩ (by simp)
  | @enterParallel index hphase hindex hmode =>
    rw [hphase] at hinv
    obtain ⟨hne, after, hdrop⟩ := collectCompatibleBatch_spec hindex
    have hlimit : 0 < resolveBatchParallelLimit (collectCompatibleBatch s.descriptors index)
        options.maxParallelToolCalls := Nat.lt_of_lt_of_le Nat.zero_lt_one (Nat.le_max_left 1 _)
    refine .ofPhase rfl ⟨hinv.2, ⟨after, hdrop⟩, hne, hlimit, ⟨by simp, by simp, by simp, by simp,
      ?_⟩⟩ (by simp)
    intro j r hj
    rw [List.getElem?_map, Option.map_eq_some_iff] at hj
    obtain ⟨-, -, hnone⟩ := hj
    exact absurd hnone (by simp)
  | @sequentialSkip _ _ index batch rest d settled parameters result hphase hstart hafter =>
    rw [hphase] at hinv
    obtain ⟨hres, ⟨after, hdrop⟩, ⟨settledCalls, hsplit, hsettled⟩, -, -⟩ := hinv
    exact afterResult_spec hres hdrop hsplit hsettled (startToolCall_skipped hstart) hafter
  | @sequentialStart index batch rest d settled parameters guard call hphase hstart =>
    rw [hphase] at hinv
    obtain ⟨hres, hdrop, hsplit, hne, -⟩ := hinv
    refine .ofPhase rfl ⟨hres, hdrop, hsplit, hne, ?_⟩ (by simp)
    intro c hc
    obtain rfl := Option.some.inj hc
    exact ⟨d, rest, rfl, (startToolCall_running hstart).1⟩
  | @sequentialFinish _ _ index batch rest d settled call execution hphase hafter =>
    rw [hphase] at hinv
    obtain ⟨hres, ⟨after, hdrop⟩, ⟨settledCalls, hsplit, hsettled⟩, -, hcall⟩ := hinv
    obtain ⟨d', rest', hpending, htool⟩ := hcall call rfl
    obtain ⟨rfl, rfl⟩ := List.cons.inj hpending
    have hanswers : (finishToolCall parseMissingArgumentRequirement s.guard call execution).2.answers =
        d.asks := by
      rw [ToolCallDescriptor.asks, ← htool]
      rfl
    have hspec := afterResult_spec (s := { s with guard := (finishToolCall
      parseMissingArgumentRequirement s.guard call execution).1 }) hres hdrop hsplit hsettled hanswers
      hafter
    exact ⟨hspec.same, hspec.advance, hspec.cut⟩
  | @pollQuiet index batch pending settled hphase =>
    rw [hphase] at hinv
    obtain ⟨hres, ⟨after, hdrop⟩, hbatch, settledCalls, hsplit, hsettled⟩ := hinv
    exact .ofPhase (s.nextCall_descriptors ..)
      (nextCall_invariant hres hdrop hbatch hsplit hsettled)
      (s.nextCall_phase_ne_returned index batch pending settled)
  | @pollSteering index batch pending settled queued hqueued hphase =>
    rw [hphase] at hinv
    obtain ⟨hres, ⟨after, hdrop⟩, -, settledCalls, hsplit, hsettled⟩ := hinv
    refine ⟨rfl, fun hk => absurd hk (by simp), fun unexecuted hk => ?_⟩
    obtain rfl := Option.some.inj hk
    exact ⟨⟨some queued, rfl⟩, interrupted_results _ _ hres hdrop hsplit hsettled⟩
  | @workerSkip index limit next batch running slots d parameters result hphase hworker hitem hstart =>
    rw [hphase] at hinv
    obtain ⟨hres, hdrop, hne, hlimit, hw⟩ := hinv
    exact .ofPhase rfl ⟨hres, hdrop, hne, hlimit, hw.skip hitem (startToolCall_skipped hstart)⟩ (by simp)
  | @workerStart index limit next batch running slots d parameters guard call hphase hworker hitem hstart =>
    rw [hphase] at hinv
    obtain ⟨hres, hdrop, hne, hlimit, hw⟩ := hinv
    exact .ofPhase rfl ⟨hres, hdrop, hne, hlimit, hw.start hitem (startToolCall_running hstart).1⟩ (by simp)
  | @workerFinish index limit next item batch before after slots call execution hphase =>
    rw [hphase] at hinv
    obtain ⟨hres, hdrop, hne, hlimit, hw⟩ := hinv
    exact .ofPhase rfl ⟨hres, hdrop, hne, hlimit, hw.finish rfl⟩ (by simp)
  | @parallelEnd index limit batch slots hphase =>
    rw [hphase] at hinv
    obtain ⟨hres, ⟨after, hdrop⟩, hne, -, hw⟩ := hinv
    exact .ofPhase rfl (endBatch_invariant hres hdrop hne hw.complete) (by simp [State.endBatch])

/-- What can be said of a run so far. -/
structure RunInvariant (calls : List ToolCallDescriptor) (labels : List StepLabel) (s : State) :
    Prop where
  same     : s.descriptors = calls
  phase    : PhaseInvariant s.descriptors s.results s.phase
  going    : (∀ m, s.phase ≠ .returned m) → ¬ CutsBatch labels
  complete : ∀ m, s.phase = .returned m → ¬ CutsBatch labels → AnsweredInOrder calls s.results
  short    : ∀ m, s.phase = .returned m → CutsBatch labels → s.results.length < calls.length

variable {labels : List StepLabel}

theorem cutsBatch_append :
    CutsBatch (labels ++ [label]) ↔
      CutsBatch labels ∨ ∃ unexecuted, unexecuted ≠ [] ∧ label.interrupt = some unexecuted := by
  simp only [CutsBatch, List.mem_append, List.mem_singleton, or_and_right, exists_or,
    exists_eq_left]

theorem not_returned_of_step
    (h : Step stableStringify parseMissingArgumentRequirement options hasSteering s label t)
    (m : Option (List AgentMessage)) : s.phase ≠ .returned m := by
  cases h <;> simp_all

variable {guard : Option ToolCallExecutionGuard}

/-- **Run lemma.** -/
theorem run_invariant
    (h : Run stableStringify parseMissingArgumentRequirement options hasSteering (State.begin calls
      guard) labels s) :
    RunInvariant calls labels s := by
  induction h with
  | refl =>
    exact ⟨rfl, ⟨Nat.zero_le _, rfl⟩, fun _ => by simp [CutsBatch], by simp [State.begin],
      by simp [State.begin]⟩
  | @tail t u labels label hrun hstep hinv =>
    have hspec := step_spec hstep hinv.phase
    have hopen : ¬ CutsBatch labels := hinv.going (not_returned_of_step hstep)
    have hsame : u.descriptors = calls := hspec.same.trans hinv.same
    cases hkind : label.interrupt with
    | none =>
      have hnocut : ¬ CutsBatch (labels ++ [label]) := by
        rw [cutsBatch_append]
        simp [hopen, hkind]
      obtain ⟨hphase, hreturned⟩ := hspec.advance hkind
      rw [hinv.same] at hphase hreturned
      exact ⟨hsame, hsame.symm ▸ hphase, fun _ => hnocut, fun m hm _ => hreturned m hm,
        fun _ _ hcut => absurd hcut hnocut⟩
    | some unexecuted =>
      obtain ⟨⟨m, hm⟩, hall, hshort⟩ := hspec.cut unexecuted hkind
      rw [hinv.same] at hall hshort
      have hcut : CutsBatch (labels ++ [label]) ↔ unexecuted ≠ [] := by
        rw [cutsBatch_append]
        simp [hopen, hkind]
      refine ⟨hsame, by rw [hm]; trivial, fun hgoing => absurd hm (hgoing m), ?_, ?_⟩
      · intro _ _ hno
        exact hall (by simpa [hcut] using hno)
      · intro _ _ hyes
        exact hshort (hcut.mp hyes)

/-! ## Every run returns -/

/-- Steps left, at most: three for a call of a sequential batch, two for one of a parallel
batch, and one to enter each batch. -/
def remainingSteps (s : State) : Nat :=
  match s.phase with
  | .head index => 5 * (s.descriptors.length - index) + 1
  | .sequential index batch pending running _ =>
    5 * (s.descriptors.length - (index + batch.length)) + 4 * pending.length + 1 -
      (if running.isSome then 1 else 0)
  | .polling index batch pending _ =>
    5 * (s.descriptors.length - (index + batch.length)) + 4 * pending.length + 3
  | .parallel index batch _ next running _ =>
    5 * (s.descriptors.length - (index + batch.length)) + 2 * (batch.length - next) +
      running.length + 2
  | .returned _ => 0

theorem remainingSteps_nextCall (s : State) (index : Nat) (batch pending : List ToolCallDescriptor)
    (settled : List ToolResultMessage) :
    remainingSteps (s.nextCall index batch pending settled) ≤
      5 * (s.descriptors.length - (index + batch.length)) + 4 * pending.length + 1 := by
  cases pending with
  | nil => simp [State.nextCall, State.endBatch, remainingSteps]
  | cons d rest => simp [State.nextCall, remainingSteps]

theorem remainingSteps_afterResult {interrupt : Option (List ToolCallDescriptor)}
    {rest : List ToolCallDescriptor} {result : ToolResultMessage}
    (h : AfterResult hasSteering s index batch rest settled result interrupt t) :
    remainingSteps t ≤
      5 * (s.descriptors.length - (index + batch.length)) + 4 * rest.length + 3 := by
  cases h with
  | halt => simp [State.interrupted, remainingSteps]
  | poll => simp [remainingSteps]
  | next =>
    have := remainingSteps_nextCall s index batch rest (settled ++ [result])
    omega

/-- A batch holds at least one call, and as many as are left at most. -/
theorem batch_length_bounds (h : index < descriptors.length) :
    0 < (collectCompatibleBatch descriptors index).length ∧
      index + (collectCompatibleBatch descriptors index).length ≤ descriptors.length := by
  obtain ⟨hne, after, hdrop⟩ := collectCompatibleBatch_spec h
  have hlen := congrArg List.length hdrop
  rw [List.length_drop, List.length_append] at hlen
  exact ⟨List.length_pos_of_ne_nil hne, by omega⟩

theorem step_decreases
    (h : Step stableStringify parseMissingArgumentRequirement options hasSteering s label t) :
    remainingSteps t < remainingSteps s := by
  cases h with
  | returns hphase hindex => simp [remainingSteps, hphase]
  | enterSequential hphase hindex hmode =>
    have := batch_length_bounds hindex
    simp only [remainingSteps, hphase, Option.isSome_none, Bool.false_eq_true, if_false]
    omega
  | enterParallel hphase hindex hmode =>
    have := batch_length_bounds hindex
    simp only [remainingSteps, hphase, List.length_nil]
    omega
  | sequentialSkip parameters hphase hstart hafter =>
    have := remainingSteps_afterResult hafter
    simp only [remainingSteps, hphase, Option.isSome_none, Bool.false_eq_true, if_false,
      List.length_cons] at this ⊢
    omega
  | sequentialStart parameters hphase hstart =>
    simp only [remainingSteps, hphase, Option.isSome_none, Option.isSome_some, Bool.false_eq_true,
      if_false, if_true, List.length_cons]
    omega
  | sequentialFinish execution hphase hafter =>
    have := remainingSteps_afterResult hafter
    simp only [remainingSteps, hphase, Option.isSome_some, if_true, List.length_cons] at this ⊢
    omega
  | @pollQuiet index batch pending settled hphase =>
    have := remainingSteps_nextCall s index batch pending settled
    simp only [remainingSteps, hphase] at this ⊢
    omega
  | pollSteering queued hqueued hphase =>
    simp [remainingSteps, hphase, State.interrupted]
  | @workerSkip index limit next batch running slots d parameters result hphase hworker hitem hstart =>
    have hlt : next < batch.length := (List.getElem?_eq_some_iff.mp hitem).1
    simp only [remainingSteps, hphase]
    omega
  | @workerStart index limit next batch running slots d parameters guard call hphase hworker hitem hstart =>
    have hlt : next < batch.length := (List.getElem?_eq_some_iff.mp hitem).1
    simp only [remainingSteps, hphase, List.length_append, List.length_singleton]
    omega
  | workerFinish execution hphase =>
    simp only [remainingSteps, hphase, List.length_append, List.length_cons]
    omega
  | parallelEnd hphase =>
    simp only [remainingSteps, hphase, State.endBatch]
    omega

/-- Some way of going on after a result. -/
theorem exists_afterResult (hasSteering : Bool) (s : State) (index : Nat) (batch rest : List ToolCallDescriptor)
    (settled : List ToolResultMessage) (result : ToolResultMessage) :
    ∃ interrupt t, AfterResult hasSteering s index batch rest settled result interrupt t := by
  by_cases hb : blocksSequentialDependents result.outcome .required = true
  · exact ⟨_, _, .halt .required hb⟩
  · cases hasSteering with
    | true => exact ⟨_, _, .poll .required (by simpa using hb) rfl⟩
    | false => exact ⟨_, _, .next .required (by simpa using hb) rfl⟩

/-- What the tool answers when nothing else is to be said. -/
def emptyExecution : Execution where
  raw := .returned { content := [], details := .object [] }
  screening := .none

/-- A run that has not returned can go on: no state waits for nothing. -/
theorem exists_step (hinv : PhaseInvariant s.descriptors s.results s.phase)
    (hgoing : ∀ m, s.phase ≠ .returned m) :
    ∃ label t, Step stableStringify parseMissingArgumentRequirement options hasSteering s label t := by
  cases hphase : s.phase with
  | head index =>
    by_cases hindex : index < s.descriptors.length
    · cases hmode : runsParallel options (collectCompatibleBatch s.descriptors index) with
      | true => exact ⟨_, _, .enterParallel hphase hindex hmode⟩
      | false => exact ⟨_, _, .enterSequential hphase hindex hmode⟩
    · exact ⟨_, _, .returns hphase (Nat.le_of_not_lt hindex)⟩
  | sequential index batch pending running settled =>
    rw [hphase] at hinv
    obtain ⟨-, -, -, hne, hcall⟩ := hinv
    obtain ⟨d, rest, rfl⟩ := List.exists_cons_of_ne_nil hne
    cases running with
    | none =>
      cases hstart : startToolCall stableStringify options s.guard d.toolCall .undefined with
      | skipped result =>
        obtain ⟨interrupt, t, hafter⟩ := exists_afterResult hasSteering s index batch rest settled result
        exact ⟨_, t, .sequentialSkip .undefined hphase hstart hafter⟩
      | running guard call => exact ⟨_, _, .sequentialStart .undefined hphase hstart⟩
    | some call =>
      obtain ⟨interrupt, t, hafter⟩ := exists_afterResult hasSteering
        { s with guard := (finishToolCall parseMissingArgumentRequirement s.guard call
            emptyExecution).1 } index batch rest settled
        (finishToolCall parseMissingArgumentRequirement s.guard call emptyExecution).2
      exact ⟨_, t, .sequentialFinish emptyExecution hphase hafter⟩
  | polling index batch pending settled => exact ⟨_, _, .pollQuiet hphase⟩
  | parallel index batch limit next running slots =>
    rw [hphase] at hinv
    obtain ⟨-, -, -, hlimit, hw⟩ := hinv
    cases running with
    | cons p running =>
      obtain ⟨item, call⟩ := p
      exact ⟨_, _, @Step.workerFinish _ _ _ _ s index limit next item batch [] running slots call
        emptyExecution hphase⟩
    | nil =>
      by_cases hnext : next < batch.length
      · have hitem : batch[next]? = some batch[next] := List.getElem?_eq_getElem hnext
        cases hstart : startToolCall stableStringify options s.guard batch[next].toolCall
            .undefined with
        | skipped result => exact ⟨_, _, .workerSkip .undefined hphase hlimit hitem hstart⟩
        | running guard call => exact ⟨_, _, .workerStart .undefined hphase hlimit hitem hstart⟩
      · obtain rfl : next = batch.length := Nat.le_antisymm hw.started (Nat.le_of_not_lt hnext)
        exact ⟨_, _, .parallelEnd hphase⟩
  | returned m => exact absurd hphase (hgoing m)

/-- Every run can be completed. -/
theorem exists_returned
    (h : Run stableStringify parseMissingArgumentRequirement options hasSteering (State.begin calls
      guard) labels s) :
    ∃ labels' t m, Run stableStringify parseMissingArgumentRequirement options hasSteering
      (State.begin calls guard) labels' t ∧ labels <+: labels' ∧ t.phase = .returned m := by
  -- on the number of steps left
  induction hn : remainingSteps s using Nat.strong_induction_on generalizing labels s with
  | _ n ih =>
    subst hn
    by_cases hret : ∃ m, s.phase = .returned m
    · obtain ⟨m, hm⟩ := hret
      exact ⟨labels, s, m, h, List.prefix_refl _, hm⟩
    · have hnext : ∃ label t, Step stableStringify parseMissingArgumentRequirement options
          hasSteering s label t :=
        exists_step (run_invariant h).phase fun m hm => hret ⟨m, hm⟩
      obtain ⟨label, t, hstep⟩ := hnext
      obtain ⟨labels', u, m, hrun, hpre, hm⟩ := ih _ (step_decreases hstep) (h.tail hstep) rfl
      exact ⟨labels', u, m, hrun, (List.prefix_append ..).trans hpre, hm⟩

theorem run_length_le
    (h : Run stableStringify parseMissingArgumentRequirement options hasSteering (State.begin calls
      guard) labels s) :
    labels.length + remainingSteps s ≤ 5 * calls.length + 1 := by
  induction h with
  | refl => simp [remainingSteps, State.begin]
  | tail _ hstep ih =>
    have := step_decreases hstep
    rw [List.length_append, List.length_singleton]
    omega

end Runs

/-- **One result per call, exactly when no batch is cut.** For every list of calls with any
metadata, every guard and every environment: each run comes to an end within a bound that
depends on the list only and can always be completed, and a completed run has answered
every call, in order and under its own id, exactly if no halt or steering message
interrupted a sequential batch with calls still unexecuted. -/
theorem one_result_per_call_iff (stableStringify : JsValue → String)
    (parseMissingArgumentRequirement : String → Option MissingArgumentRequirement)
    (options : ToolCallSchedulerOptions) (hasSteering : Bool) (calls : List ToolCallDescriptor)
    (guard : Option ToolCallExecutionGuard) :
    (∀ labels s, Run stableStringify parseMissingArgumentRequirement options hasSteering
        (State.begin calls guard) labels s →
      labels.length ≤ 5 * calls.length + 1 ∧
      ∃ labels' t m, Run stableStringify parseMissingArgumentRequirement options hasSteering
        (State.begin calls guard) labels' t ∧ labels <+: labels' ∧ t.phase = .returned m) ∧
    (∀ labels s m, Run stableStringify parseMissingArgumentRequirement options hasSteering
        (State.begin calls guard) labels s → s.phase = .returned m →
      (AnsweredInOrder calls s.results ↔ ¬ CutsBatch labels)) := by
  refine ⟨fun labels s h => ⟨?_, exists_returned h⟩, fun labels s m h hm => ⟨?_, ?_⟩⟩
  · have := run_length_le h
    omega
  · intro hanswered hcut
    have hshort := (run_invariant h).short m hm hcut
    have hlen := hanswered.length_eq
    omega
  · exact (run_invariant h).complete m hm

/-! ### A cut batch

Two subagent calls, one allowed to run at a time: one sequential batch of two. -/

def subagentCall (id : String) : ToolCallDescriptor where
  toolCall := { id, name := "subagent", arguments := .object [] }
  metadata := { concurrencyClass := .spawnSubagent, exclusivityKeyPolicy := .none }

def serialOptions : ToolCallSchedulerOptions where
  maxParallelToolCalls := .finite 1

def failedExecution : Execution where
  raw := .threw { content := [.text "failed"], details := .object [] }
  screening := .none

/-- The first call fails, the run halts, and the second call has no result. -/
theorem second_call_unanswered :
    ∃ labels s m, Run (fun _ => "\x7b\x7d") (fun _ => none) serialOptions false
      (State.begin [subagentCall "a", subagentCall "b"] (some createToolCallExecutionGuard)) labels s ∧
      s.phase = .returned m ∧
      s.results.map ToolResultMessage.answers = [("a", "subagent")] ∧
      ¬ AnsweredInOrder [subagentCall "a", subagentCall "b"] s.results := by
  refine ⟨_, _, _, .tail (.tail (.tail (.refl _)
    (.enterSequential rfl (by decide) (by decide)))
    (.sequentialStart .undefined rfl rfl))
    (.sequentialFinish failedExecution rfl (.halt .required rfl)), rfl, rfl, ?_⟩
  exact fun h => absurd h.length_eq (by decide)

end Psfn.Scheduler
