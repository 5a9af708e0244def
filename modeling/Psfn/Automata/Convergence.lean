import Psfn.Automata.WorkerRun

/-!
# The registry and the Bus agree on how a run ended

The terminal handoff is committed on the Bus before the registry's record is terminal, and a
process may die in between. A later process then finds the run running and its terminal committed.
Settlement and re-entry converge on the committed terminal; hydration does not look at it.

* `keeps_worker` — a worker keeps the registry and the Bus in agreement, wherever it throws or
  dies, and executes no work after the commit;
* `keeps_hydrate` — so does hydration, when it spares the run or the terminal is a failure;
* `converges_run` — any number of hydrations and workers, one after the other;
* `orphaned`, `converges_failed` — a completed run that hydration fails.
-/

namespace Psfn.Automata

open Lib (JsMap System bind_eq_ok throwIf_eq_ok)
open Lib.JsString (trim trim_trim)
open Lib.Crash

/-! ## What the calls of a worker answer -/

section Calls

variable {registry : AutomataRunRegistry} {now : Int} {runs : Runs} {begun : Begun}

theorem of_requiredText {value field text : String} (h : requiredText value field = .ok text) :
    trim value ≠ "" ∧ text = trim value := by
  obtain ⟨_, hempty, h⟩ := bind_eq_ok.1 h
  cases h
  exact ⟨by simpa using throwIf_eq_ok.1 hempty, rfl⟩

theorem insert_of_register {input : RegisterAutomataRunInput}
    (h : registry.register now input runs = .ok begun) :
    ∃ record, begun = .insert record ∧ record.runId = trim input.runId ∧
      record.status = .queued := by
  obtain ⟨runId, hid, h⟩ := bind_eq_ok.1 h
  obtain ⟨_, -, h⟩ := bind_eq_ok.1 h
  obtain ⟨_, -, h⟩ := bind_eq_ok.1 h
  split at h
  · cases h
  · obtain ⟨_, -, h⟩ := bind_eq_ok.1 h
    obtain ⟨_, -, h⟩ := bind_eq_ok.1 h
    obtain ⟨_, -, h⟩ := bind_eq_ok.1 h
    obtain ⟨_, -, h⟩ := bind_eq_ok.1 h
    obtain ⟨_, -, h⟩ := bind_eq_ok.1 h
    obtain ⟨_, -, h⟩ := bind_eq_ok.1 h
    obtain ⟨_, -, h⟩ := bind_eq_ok.1 h
    obtain ⟨_, -, h⟩ := bind_eq_ok.1 h
    obtain ⟨_, -, h⟩ := bind_eq_ok.1 h
    obtain ⟨_, -, h⟩ := bind_eq_ok.1 h
    cases h
    exact ⟨_, rfl, (of_requiredText hid).2, rfl⟩

/-- A run is opened as it stands in the copy, or it is new. -/
theorem opened_of_ensureRun {input : RegisterAutomataRunInput}
    (h : registry.begin now runs (.ensureRun input) = .ok begun) :
    (∃ existing, begun = .returned existing ∧ runs.get (trim input.runId) = some existing) ∨
      ∃ record, begun = .insert record ∧ record.runId = trim input.runId ∧
        record.status = .queued := by
  obtain ⟨runId, hid, h⟩ := bind_eq_ok.1 h
  split at h
  · exact .inr (insert_of_register h)
  · rename_i existing hexisting
    obtain ⟨_, -, h⟩ := bind_eq_ok.1 h
    cases h
    rw [(of_requiredText hid).2] at hexisting
    exact .inl ⟨existing, rfl, hexisting⟩

theorem requireAutomataRunStatus_text (status : AutomataRunStatus) :
    requireAutomataRunStatus status.text = .ok status := by cases status <;> decide

theorem status_of_isTerminalReplay {current : AutomataRunRecord} {next : AutomataRunStatus}
    {input : TransitionAutomataRunInput} (h : isTerminalReplay current next input = .ok true) :
    current.status = next := by
  unfold isTerminalReplay at h
  split at h
  · rename_i hsame
    simp only [Bool.and_eq_true, decide_eq_true_eq] at hsame
    exact hsame.1
  · cases h

/-- A transition finds its run as it should be, or moves it to the status it names. -/
theorem moved_of_transition {runId : String} {status : AutomataRunStatus}
    {input : TransitionAutomataRunInput} (hstatus : input.status = status.text)
    (h : registry.begin now runs (.transition runId input) = .ok begun) :
    ∃ current, runs.get (trim runId) = some current ∧
      (begun = .returned current ∧ current.status = status ∨
        ∃ updated, begun = .update current updated ∧ updated.runId = current.runId ∧
          updated.automatonClass = current.automatonClass ∧ updated.status = status) := by
  obtain ⟨normalized, hid, h⟩ := bind_eq_ok.1 h
  split at h
  · cases h
  · rename_i current hcurrent
    rw [(of_requiredText hid).2] at hcurrent
    obtain ⟨next, hnext, h⟩ := bind_eq_ok.1 h
    rw [hstatus, requireAutomataRunStatus_text] at hnext
    cases hnext
    obtain ⟨replay, hreplay, h⟩ := bind_eq_ok.1 h
    refine ⟨current, hcurrent, ?_⟩
    split at h
    · rename_i hsame
      cases h
      rw [hsame] at hreplay
      exact .inl ⟨rfl, status_of_isTerminalReplay hreplay⟩
    · obtain ⟨_, -, h⟩ := bind_eq_ok.1 h
      obtain ⟨_, -, h⟩ := bind_eq_ok.1 h
      obtain ⟨_, -, h⟩ := bind_eq_ok.1 h
      cases h
      exact .inr ⟨_, rfl, rfl, rfl, rfl⟩

end Calls

/-! ## Agreement -/

def LifecycleState.status : LifecycleState → AutomataRunStatus
  | .completed => .completed
  | .failed => .failed
  | .cancelled => .cancelled

/-- A record that has started, and ended as `state` if it has ended. -/
def EndsAs (state : LifecycleState) (record : AutomataRunRecord) : Prop :=
  record.status ≠ .queued ∧ (isTerminalStatus record.status = true → record.status = state.status)

/-- The run's record and its terminal agree, and no work was executed after the commit. -/
structure Agrees (id : String) (m : Machine) : Prop where
  keyed   : ∀ i record, m.store.get i = some record → record.runId = i
  trimmed : ∀ i record, m.store.get i = some record → trim i = i
  copied  : ∀ i record, m.runs.get i = some record → m.store.get i = some record
  ended   : ∀ t, m.terminal = some t →
    ∃ record, m.store.get id = some record ∧ EndsAs t.lifecycleState record
  written : ∀ t, m.terminal = some t → ∃ input, terminalClaim input = .ok t.claim ∧
    input.lifecycleState = t.lifecycleState
  onTime  : m.late = false

/-- The machine with the record in the store and in the copy. -/
def Machine.write (m : Machine) (record : AutomataRunRecord) : Machine :=
  { m with
    store := m.store.set record.runId record
    runs := m.runs.set record.runId record }

section Agreement

variable {id : String} {m : Machine} {record : AutomataRunRecord}

theorem Agrees.copyKeyed (h : Agrees id m) (i : String) (record : AutomataRunRecord)
    (hget : m.runs.get i = some record) : record.runId = i :=
  h.keyed i record (h.copied i record hget)

theorem Agrees.lose (h : Agrees id m) (tear : Bool) : Agrees id (loseCopy tear m) where
  keyed := h.keyed
  trimmed := h.trimmed
  copied := by
    intro i record hget
    rw [loseCopy, JsMap.get_empty] at hget
    cases hget
  ended := h.ended
  written := h.written
  onTime := h.onTime

/-- A copy that is made of stored records. -/
theorem Agrees.copy (h : Agrees id m) {runs : Runs}
    (hcopied : ∀ i record, runs.get i = some record → m.store.get i = some record) :
    Agrees id { m with runs } :=
  ⟨h.keyed, h.trimmed, hcopied, h.ended, h.written, h.onTime⟩

theorem get_write_self : (m.write record).store.get record.runId = some record :=
  JsMap.get_set_self _ _ _

theorem get_write_of_ne {i : String} (hi : i ≠ record.runId) :
    (m.write record).store.get i = m.store.get i := JsMap.get_set_of_ne _ hi _

/-- A record that is the run's ends as the terminal says. -/
theorem Agrees.write (h : Agrees id m) (htrimmed : trim record.runId = record.runId)
    (hended : record.runId = id → ∀ t, m.terminal = some t → EndsAs t.lifecycleState record) :
    Agrees id (m.write record) where
  keyed := keyed_set h.keyed
  trimmed := by
    intro i other hget
    by_cases hi : i = record.runId
    · rw [hi]
      exact htrimmed
    · rw [get_write_of_ne hi] at hget
      exact h.trimmed i other hget
  copied := by
    intro i other hget
    by_cases hi : i = record.runId
    · subst hi
      rw [Machine.write, JsMap.get_set_self] at hget ⊢
      exact hget
    · rw [Machine.write, JsMap.get_set_of_ne _ hi] at hget ⊢
      exact h.copied i other hget
  ended := by
    intro t ht
    by_cases hi : id = record.runId
    · refine ⟨record, ?_, hended hi.symm t ht⟩
      rw [hi, get_write_self]
    · rw [get_write_of_ne hi]
      exact h.ended t ht
  written := h.written
  onTime := h.onTime

end Agreement

/-! ## Operations -/

/-- From `P` the program returns with `Q`, and leaves `I` wherever it throws or dies. -/
abbrev Keeps {α : Type} (I P : Machine → Prop) (p : Process α) (Q : α → Machine → Prop) : Prop :=
  Triple P p ⟨Q, I, I⟩

/-- `I` does not speak of the copy. -/
def Survives (I : Machine → Prop) : Prop := ∀ m tear, I m → I (loseCopy tear m)

section Operations

variable {I P : Machine → Prop} {record : AutomataRunRecord}

theorem keeps_read (hlose : Survives I) (hP : ∀ m, P m → I m) : Keeps I P read fun _ => P := by
  refine triple_perform ?_ ?_ ?_ ?_
  · rintro m m' hm heffect
    cases heffect
    exact hm
  · intro m hm heffect
    cases heffect
  · exact fun m _ hm => hP m hm
  · exact fun m tear hm => hlose m tear (hP m hm)

theorem keeps_writeOp {statement : Runs → Except String Runs} {Q : Unit → Machine → Prop}
    (hlose : Survives I) (hP : ∀ m, P m → I m)
    (hwrite : ∀ m store, P m → statement m.store = .ok store →
      Q () { m with store, runs := m.runs.set record.runId record }) :
    Keeps I P (Prog.perform loseCopy (writeOp record statement)) Q := by
  refine triple_perform ?_ (fun m hm _ => hP m hm) (fun m _ hm => hP m hm)
    fun m tear hm => hlose m tear (hP m hm)
  intro m m' hm heffect
  unfold writeOp at heffect
  dsimp only at heffect
  split at heffect
  · rename_i store hstatement
    cases heffect
    exact hwrite m store hm hstatement
  · cases heffect

/-- A call of the registry answers from the copy, or writes the record it answers with. -/
theorem keeps_mutate {registry : AutomataRunRegistry} {now : Int} {call : Call}
    {Q : AutomataRunRecord → Machine → Prop} (hlose : Survives I) (hP : ∀ m, P m → I m)
    (hreturned : ∀ m record, P m → registry.begin now m.runs call = .ok (.returned record) →
      Q record m)
    (hinserted : ∀ m record, P m → registry.begin now m.runs call = .ok (.insert record) →
      m.store.get record.runId = none → Q record (m.write record))
    (hupdated : ∀ m current updated, P m →
      registry.begin now m.runs call = .ok (.update current updated) →
      Q updated (m.write updated))
    (hload : ∀ runs runId, registry.begin now runs call ≠ .ok (.loadExact runId)) :
    Keeps I P (registry.mutate now call) Q := by
  refine triple_bind (R := fun answer m => ∃ record, answer = some record ∧ Q record m) ?_ ?_
  · refine triple_get fun m hm => ?_
    refine triple_bind (R := fun begun m' => m' = m ∧ registry.begin now m.runs call = .ok begun)
      ?_ ?_
    · refine triple_ofExcept (fun begun hbegun m' hm' => ⟨hm', hbegun⟩) ?_
      rintro m' rfl
      exact hP _ hm
    · intro begun
      cases begun with
      | returned record =>
        refine triple_pure ?_
        rintro m' ⟨rfl, hbegun⟩
        exact ⟨record, rfl, hreturned _ record hm hbegun⟩
      | insert record =>
        refine triple_bind (keeps_writeOp (Q := fun _ m' => Q record m') hlose ?_ ?_)
          fun _ => triple_pure fun m' hm' => ⟨record, rfl, hm'⟩
        · rintro m' ⟨rfl, -⟩
          exact hP _ hm
        · rintro m' store ⟨rfl, hbegun⟩ hinsert
          obtain ⟨hnone, rfl⟩ := of_storeInsert hinsert
          exact hinserted _ record hm hbegun hnone
      | update current updated =>
        refine triple_bind (keeps_writeOp (Q := fun _ m' => Q updated m') hlose ?_ ?_)
          fun _ => triple_pure fun m' hm' => ⟨updated, rfl, hm'⟩
        · rintro m' ⟨rfl, -⟩
          exact hP _ hm
        · rintro m' store ⟨rfl, hbegun⟩ hupdate
          obtain ⟨-, rfl⟩ := of_storeUpdate hupdate
          exact hupdated _ current updated hm hbegun
      | loadExact runId => exact fun faults m' hm' => absurd hm'.2 (hload _ _)
  · intro answer
    cases answer with
    | some record =>
      refine triple_pure ?_
      rintro m ⟨_, heq, hm⟩
      cases heq
      exact hm
    | none =>
      rintro faults m ⟨_, heq, -⟩
      cases heq

theorem keeps_transition {registry : AutomataRunRegistry} {now : Int} {runId : String}
    {status : AutomataRunStatus} {input : TransitionAutomataRunInput}
    {Q : AutomataRunRecord → Machine → Prop} (hstatus : input.status = status.text)
    (hlose : Survives I) (hP : ∀ m, P m → I m)
    (hreturned : ∀ m current, P m → m.runs.get (trim runId) = some current →
      current.status = status → Q current m)
    (hupdated : ∀ m current updated, P m → m.runs.get (trim runId) = some current →
      updated.runId = current.runId → updated.automatonClass = current.automatonClass →
      updated.status = status → Q updated (m.write updated)) :
    Keeps I P (registry.mutate now (.transition runId input)) Q := by
  refine keeps_mutate hlose hP ?_ ?_ ?_ ?_
  · intro m record hm hbegun
    obtain ⟨current, hget, ⟨hcurrent, hsame⟩ | ⟨updated, hupdate, -⟩⟩ :=
      moved_of_transition hstatus hbegun
    · cases hcurrent
      exact hreturned m record hm hget hsame
    · cases hupdate
  · intro m record hm hbegun hnone
    obtain ⟨current, -, ⟨hcurrent, -⟩ | ⟨updated, hupdate, -⟩⟩ :=
      moved_of_transition hstatus hbegun
    · cases hcurrent
    · cases hupdate
  · intro m current updated hm hbegun
    obtain ⟨current', hget, ⟨hcurrent, -⟩ | ⟨updated', hupdate, hid, hclass, hnext⟩⟩ :=
      moved_of_transition hstatus hbegun
    · cases hcurrent
    · cases hupdate
      exact hupdated m _ _ hm hget hid hclass hnext
  · intro runs id hbegun
    obtain ⟨current, -, ⟨hcurrent, -⟩ | ⟨updated, hupdate, -⟩⟩ :=
      moved_of_transition hstatus hbegun
    · cases hcurrent
    · cases hupdate

end Operations

/-! ## Workers -/

theorem survives_agrees (id : String) : Survives (Agrees id) := fun _ tear h => h.lose tear

/-- Wherever the run ends from here, it ends as `state`. -/
structure Bound (id : String) (state : LifecycleState) (m : Machine) : Prop where
  agrees  : Agrees id m
  started : ∃ record, m.store.get id = some record ∧ EndsAs state record
  named   : ∀ t, m.terminal = some t → t.lifecycleState = state

section Workers

variable {id : String} {state : LifecycleState} {m : Machine} {record : AutomataRunRecord}
  {registry : AutomataRunRegistry} {spec : AutomataClassRunSpec} {now : Int}

theorem survives_bound : Survives (Bound id state) := fun _ tear h =>
  ⟨h.agrees.lose tear, h.started, h.named⟩

theorem Bound.write (h : Bound id state m) (htrimmed : trim record.runId = record.runId)
    (hended : EndsAs state record) : Bound id state (m.write record) where
  agrees := by
    refine h.agrees.write htrimmed fun _ t ht => ?_
    rw [h.named t ht]
    exact hended
  started := by
    by_cases hi : id = record.runId
    · refine ⟨record, ?_, hended⟩
      rw [hi, get_write_self]
    · rw [get_write_of_ne hi]
      exact h.started
  named := h.named

theorem Bound.commit (h : Bound id state m) {t : CommittedTerminal}
    {input : RecordAutomataTerminalHandoffInput} (hclaim : terminalClaim input = .ok t.claim)
    (hinput : input.lifecycleState = state) (ht : t.lifecycleState = state) :
    Bound id state (m.commit t) where
  agrees :=
    { keyed := h.agrees.keyed
      trimmed := h.agrees.trimmed
      copied := h.agrees.copied
      ended := by
        intro t' ht'
        cases ht'
        rw [ht]
        exact h.started
      written := by
        intro t' ht'
        cases ht'
        exact ⟨input, hclaim, hinput.trans ht.symm⟩
      onTime := h.agrees.onTime }
  started := h.started
  named := by
    intro t' ht'
    cases ht'
    exact ht

theorem endsAs_of_status (hstatus : record.status = state.status) : EndsAs state record := by
  refine ⟨?_, fun _ => hstatus⟩
  rw [hstatus]
  cases state <;> nofun

theorem keeps_terminalize {request : AutomataWorkerTerminalRequest}
    (hrequest : request.lifecycleState = state) :
    Keeps (Bound id state) (Bound id state) (spec.terminalize registry request)
      fun _ => Bound id state := by
  refine triple_get fun m hm => ?_
  split
  · refine triple_throw ?_
    rintro m' rfl
    exact hm
  · rename_i run hrun
    split
    · refine triple_pure ?_
      rintro m' rfl
      exact hm
    · have hstatus : request.transition.status = state.status.text := by
        rw [← hrequest]
        cases hstate : request.lifecycleState <;>
          simp [AutomataWorkerTerminalRequest.transition, hstate, LifecycleState.text,
            LifecycleState.status, AutomataRunStatus.text]
      refine triple_bind (R := fun _ => Bound id state) (keeps_transition hstatus survives_bound
        ?_ ?_ ?_) fun _ => triple_pure fun _ h => h
      · rintro m' rfl
        exact hm
      · rintro m' current rfl - -
        exact hm
      · rintro m' current updated rfl hget hid - hnext
        have htrimmed := hm.agrees.trimmed _ _ (hm.agrees.copied _ _ hget)
        rw [← hm.agrees.copyKeyed _ _ hget, ← hid] at htrimmed
        exact hm.write htrimmed (endsAs_of_status hnext)

/-- What is read back is the committed terminal's lifecycle state, or there is no terminal. -/
def Reads (committed : Option CommittedAutomataTerminalHandoff) (m : Machine) : Prop :=
  (committed = none → m.terminal = none) ∧
    ∀ c, committed = some c → ∃ t, m.terminal = some t ∧
      c.outcome.lifecycleState = t.lifecycleState

theorem keeps_readCommittedTerminalHandoff {I P : Machine → Prop} (hlose : Survives I)
    (hP : ∀ m, P m → I m) (hagrees : ∀ m, P m → Agrees id m)
    (automatonClass : ProductionAutomataClassId) :
    Keeps I P (readCommittedTerminalHandoff automatonClass) fun committed m =>
      P m ∧ Reads committed m := by
  refine triple_bind (keeps_read hlose hP) fun _ => triple_get fun m hm => ?_
  split
  · rename_i hterminal
    refine triple_pure ?_
    rintro m' rfl
    exact ⟨hm, fun _ => hterminal, nofun⟩
  · rename_i terminal hterminal
    refine triple_bind (R := fun outcome m' => P m' ∧ m'.terminal = some terminal ∧
      outcome.lifecycleState = terminal.lifecycleState) ?_ fun outcome => triple_pure ?_
    · refine triple_ofExcept ?_ ?_
      · rintro outcome hparse m' rfl
        obtain ⟨input, hclaim, hinput⟩ := (hagrees _ hm).written terminal hterminal
        exact ⟨hm, hterminal, (parse_lifecycleState hclaim hparse).trans hinput⟩
      · rintro m' rfl
        exact hP _ hm
    · rintro m' ⟨hm', hterminal', houtcome⟩
      refine ⟨hm', nofun, ?_⟩
      intro c hc
      cases hc
      exact ⟨terminal, hterminal', houtcome⟩

/-- What comes of a handoff names the state that the run ends as. -/
def Names (state : LifecycleState) (committed : Option CommittedAutomataTerminalHandoff) : Prop :=
  ∀ c, committed = some c → c.outcome.lifecycleState = state

theorem Bound.names (h : Bound id state m) {committed : Option CommittedAutomataTerminalHandoff}
    (hreads : Reads committed m) : Names state committed := by
  intro c hc
  obtain ⟨t, ht, hstate⟩ := hreads.2 c hc
  exact hstate.trans (h.named t ht)

theorem keeps_recordTerminalHandoff {input : RecordAutomataTerminalHandoffInput}
    (hinput : input.lifecycleState = state) :
    Keeps (Bound id state) (Bound id state) (recordTerminalHandoff registry input)
      fun committed m => Bound id state m ∧ Names state committed := by
  refine triple_get fun m hm => ?_
  refine triple_bind (R := fun _ => Bound id state) ?_ fun _ => ?_
  · refine triple_ofExcept ?_ ?_
    · rintro _ - m' rfl
      exact hm
    · rintro m' rfl
      exact hm
  refine triple_bind (keeps_readCommittedTerminalHandoff survives_bound (fun _ h => h)
    (fun _ h => h.agrees) _) fun committed => ?_
  refine triple_bind (R := fun claim m => (Bound id state m ∧ Names state committed) ∧
    terminalClaim input = .ok claim) ?_ fun claim => ?_
  · refine triple_ofExcept ?_ fun m h => h.1
    rintro claim hclaim m ⟨hbound, hreads⟩
    exact ⟨⟨hbound, hbound.names hreads⟩, hclaim⟩
  cases committed with
  | some committed => exact triple_pure fun m h => h.1
  | none =>
    refine triple_bind (triple_ofExcept (fun _ _ m h => h) fun m h => h.1.1) fun _ => ?_
    refine triple_bind (triple_ofExcept (fun _ _ m h => h) fun m h => h.1.1) fun _ => ?_
    refine triple_bind (R := fun _ => Bound id state) ?_ fun _ => triple_pure ?_
    · refine triple_perform ?_ ?_ ?_ ?_
      · rintro m m' ⟨⟨hbound, -⟩, hclaim⟩ heffect
        cases heffect
        exact hbound.commit hclaim hinput hinput
      · rintro m - heffect
        cases heffect
      · rintro m committed ⟨⟨hbound, -⟩, hclaim⟩
        cases committed with
        | false => exact hbound
        | true => exact hbound.commit hclaim hinput hinput
      · rintro m committed ⟨⟨hbound, -⟩, hclaim⟩
        cases committed with
        | false => exact survives_bound _ _ hbound
        | true => exact survives_bound _ _ (hbound.commit hclaim hinput hinput)
    · exact fun m hm => ⟨hm, nofun⟩

/-- However the policy answers, a stage keeps what its attempt keeps. -/
theorem keeps_runRecoverableStage {α : Type} {I : Machine → Prop} {attempt : Process α}
    {Q : α → Prop} (hattempt : Keeps I I attempt fun a m => I m ∧ Q a)
    (answers : List AutomataWorkerFailureDisposition) :
    Keeps I I (runRecoverableStage attempt answers) fun result m =>
      I m ∧ ∀ a, result = some a → Q a := by
  have hsome : Keeps I I (do
      let value ← attempt
      pure (some value)) fun result m => I m ∧ ∀ a, result = some a → Q a := by
    refine triple_bind hattempt fun value => triple_pure ?_
    rintro m ⟨hm, hvalue⟩
    refine ⟨hm, ?_⟩
    intro a ha
    cases ha
    exact hvalue
  have htried : Keeps I I (tried attempt) fun result m =>
      I m ∧ ∀ a, result = some a → Q a :=
    triple_tryCatch hsome (triple_pure fun m hm => ⟨hm, nofun⟩)
  induction answers with
  | nil => exact htried
  | cons answer rest ih =>
    cases answer with
    | degrade => exact htried
    | fail => exact hsome
    | retry =>
      refine triple_bind htried fun result => ?_
      cases result with
      | some value => exact triple_pure fun m hm => hm
      | none => exact triple_pre ih fun m hm => hm.1

/-- A settlement ends the run as it was bound to end. -/
theorem keeps_settleOnce {binding : AutomataWorkerRunBinding} {observedBusWrites : Nat}
    {answers : List AutomataWorkerFailureDisposition} {outcome : AutomataWorkerOutcome}
    (houtcome : binding.execute = true → outcome.lifecycleState = state)
    (hreplay : Names state binding.replayTerminal) :
    Keeps (Bound id state) (Bound id state)
      (spec.settleOnce registry now binding observedBusWrites answers outcome)
      fun _ => Bound id state := by
  unfold AutomataClassRunSpec.settleOnce
  split
  · rename_i hexecute
    refine triple_bind (R := fun handoff m => Bound id state m ∧
      ∀ committed, handoff = some committed → Names state committed) ?_ fun handoff => ?_
    · refine triple_bind (R := fun _ => Bound id state)
        (triple_ofExcept (fun _ _ m h => h) fun m h => h) fun _ => ?_
      exact keeps_runRecoverableStage (keeps_recordTerminalHandoff (houtcome hexecute)) answers
    · split
      · rename_i committed
        intro faults m hm
        exact keeps_terminalize (hm.2 _ rfl committed rfl) faults m hm.1
      · exact triple_pre (keeps_terminalize (houtcome hexecute)) fun m hm => hm.1
  · split
    · exact triple_pure fun m hm => hm
    · rename_i committed hcommitted
      exact keeps_terminalize (hreplay committed hcommitted)

theorem keeps_settle {binding : AutomataWorkerRunBinding} {settlements : List Settlement}
    (hsettlements : binding.execute = true →
      ∀ s ∈ settlements, s.outcome.lifecycleState = state)
    (hreplay : Names state binding.replayTerminal) :
    Keeps (Bound id state) (Bound id state) (spec.settle registry now binding settlements)
      fun _ => Bound id state := by
  induction settlements with
  | nil => exact triple_pure fun m hm => hm
  | cons s rest ih =>
    refine triple_tryCatch (keeps_settleOnce ?_ hreplay) (ih ?_)
    · exact fun hexecute => hsettlements hexecute s (List.mem_cons_self ..)
    · exact fun hexecute s' hs' => hsettlements hexecute s' (List.mem_cons_of_mem _ hs')

/-- A run that a worker has begun, whose own settlements name `state`. -/
structure Ready (id : String) (state : LifecycleState) (binding : AutomataWorkerRunBinding)
    (state' : LifecycleState) (m : Machine) : Prop where
  bound   : Bound id state' m
  fresh   : binding.execute = true → state' = state ∧ m.terminal = none
  replays : Names state' binding.replayTerminal

theorem EndsAs.status {t : LifecycleState} (h : EndsAs t record)
    (hstatus : record.status = state.status) : t = state := by
  have hterminal : isTerminalStatus record.status = true := by
    rw [hstatus]
    cases state <;> rfl
  have hsame := hstatus.symm.trans (h.2 hterminal)
  cases t <;> cases state <;> first | rfl | cases hsame

/-- A run whose record has ended is bound to end as it has. -/
theorem bound_of_ended (h : Agrees id m) (hrun : m.store.get id = some record)
    (hstatus : record.status = state.status) : Bound id state m where
  agrees := h
  started := ⟨record, hrun, endsAs_of_status hstatus⟩
  named := by
    intro t ht
    obtain ⟨record', hget, hended⟩ := h.ended t ht
    rw [hrun] at hget
    cases hget
    exact hended.status hstatus

/-- A run that is not terminal is bound to end as its terminal says. -/
theorem bound_of_terminal (h : Agrees id m) {t : CommittedTerminal} (ht : m.terminal = some t) :
    Bound id t.lifecycleState m where
  agrees := h
  started := h.ended t ht
  named := by
    intro t' ht'
    rw [ht] at ht'
    cases ht'
    rfl

/-- Without a terminal, a running run may still end in any way. -/
theorem bound_of_running (h : Agrees id m) (hrun : m.store.get id = some record)
    (hstatus : record.status = .running) (hnone : m.terminal = none) : Bound id state m where
  agrees := h
  started := by
    refine ⟨record, hrun, ?_, ?_⟩
    · rw [hstatus]
      nofun
    · rw [hstatus]
      nofun
  named := by
    intro t ht
    rw [hnone] at ht
    cases ht

theorem keeps_ensureRun {input : RegisterAutomataRunInput} (hid : trim input.runId = id) :
    Keeps (Agrees id) (Agrees id) (registry.mutate now (.ensureRun input)) fun run m =>
      Agrees id m ∧ m.runs.get id = some run := by
  refine keeps_mutate (survives_agrees id) (fun _ h => h) ?_ ?_ ?_ ?_
  · intro m record hm hbegun
    obtain ⟨existing, hreturned, hget⟩ | ⟨_, hinsert, -⟩ := opened_of_ensureRun hbegun
    · cases hreturned
      rw [hid] at hget
      exact ⟨hm, hget⟩
    · cases hinsert
  · intro m record hm hbegun hnone
    obtain ⟨existing, hreturned, -⟩ | ⟨_, hinsert, hrunId, -⟩ := opened_of_ensureRun hbegun
    · cases hreturned
    · cases hinsert
      rw [hid] at hrunId
      refine ⟨hm.write ?_ ?_, ?_⟩
      · rw [hrunId, ← hid, trim_trim]
      · -- the run is not stored yet, and a terminal needs a stored run
        intro heq t ht
        obtain ⟨stored, hstored, -⟩ := hm.ended t ht
        rw [← hrunId, hnone] at hstored
        cases hstored
      · rw [← hrunId]
        exact JsMap.get_set_self _ _ _
  · intro m current updated hm hbegun
    obtain ⟨existing, hreturned, -⟩ | ⟨_, hinsert, -⟩ := opened_of_ensureRun hbegun
    · cases hreturned
    · cases hinsert
  · intro runs id' hbegun
    obtain ⟨existing, hreturned, -⟩ | ⟨_, hinsert, -⟩ := opened_of_ensureRun hbegun
    · cases hreturned
    · cases hinsert

theorem keeps_readTerminalHandoff {P : Machine → Prop} (hP : ∀ m, P m → Agrees id m)
    (lineage : AutomataWorkerLineage) (attempt : Int) :
    Keeps (Agrees id) P (readTerminalHandoff registry lineage attempt) fun committed m =>
      P m ∧ Reads committed m := by
  refine triple_bind (R := fun _ => P) (triple_ofExcept (fun _ _ m h => h) hP) fun _ => ?_
  refine triple_get fun m hm => ?_
  refine triple_bind (R := fun _ => P) ?_ fun _ =>
    keeps_readCommittedTerminalHandoff (survives_agrees id) hP hP _
  refine triple_ofExcept ?_ ?_
  · rintro _ - m' rfl
    exact hm
  · rintro m' rfl
    exact hP _ hm

/-- A worker that may execute finds no terminal. -/
theorem keeps_begin (hid : trim spec.runId = id) :
    Keeps (Agrees id) (Agrees id) (spec.begin registry now) fun binding m =>
      ∃ state', Ready id state binding state' m := by
  refine triple_bind (keeps_ensureRun hid) fun run => ?_
  dsimp only
  cases hstatus : run.status with
  | failed => exact triple_throw fun m hm => hm.1
  | cancelled => exact triple_throw fun m hm => hm.1
  | completed =>
    refine triple_pure ?_
    rintro m ⟨hm, hrun⟩
    exact ⟨.completed, bound_of_ended hm (hm.copied _ _ hrun) hstatus, nofun, nofun⟩
  | queued =>
    refine triple_bind (R := fun _ m => Bound id state m ∧ m.terminal = none)
      (keeps_transition (show _ = AutomataRunStatus.running.text from rfl) (survives_agrees id) (fun m hm => hm.1) ?_ ?_)
      fun _ => triple_pure ?_
    · rintro m current ⟨hm, hrun⟩ hget hsame
      rw [hm.copyKeyed _ _ hrun, ← hid, trim_trim, hid, hrun] at hget
      cases hget
      rw [hstatus] at hsame
      cases hsame
    · rintro m current updated ⟨hm, hrun⟩ hget hrunId - hnext
      have hnone : m.terminal = none := by
        cases hterminal : m.terminal with
        | none => rfl
        | some t =>
          obtain ⟨stored, hstored, hstarted, -⟩ := hm.ended t hterminal
          rw [hm.copied _ _ hrun] at hstored
          cases hstored
          exact absurd hstatus hstarted
      have hupdated : updated.runId = id := by
        rw [hrunId, hm.copyKeyed _ _ hget, hm.copyKeyed _ _ hrun, ← hid, trim_trim]
      have hagrees : Agrees id (m.write updated) := by
        refine hm.write ?_ ?_
        · rw [hupdated, ← hid, trim_trim]
        · rintro - t ht
          rw [hnone] at ht
          cases ht
      refine ⟨bound_of_running hagrees ?_ hnext hnone, hnone⟩
      rw [← hupdated]
      exact get_write_self
    · rintro m ⟨hm, hnone⟩
      exact ⟨state, hm, fun _ => ⟨rfl, hnone⟩, nofun⟩
  | running =>
    refine triple_bind (keeps_readTerminalHandoff (fun m hm => hm.1) _ _) fun committed =>
      triple_pure ?_
    rintro m ⟨⟨hm, hrun⟩, hreads⟩
    cases committed with
    | none =>
      have hnone := hreads.1 rfl
      exact ⟨state, bound_of_running hm (hm.copied _ _ hrun) hstatus hnone,
        fun _ => ⟨rfl, hnone⟩, nofun⟩
    | some committed =>
      obtain ⟨t, ht, -⟩ := hreads.2 committed rfl
      have hbound := bound_of_terminal hm ht
      exact ⟨t.lifecycleState, hbound, nofun, hbound.names hreads⟩

theorem Ready.work {binding : AutomataWorkerRunBinding} {state' : LifecycleState}
    (h : Ready id state binding state' m) (hexecute : binding.execute = true) :
    Bound id state' m.work where
  agrees :=
    { keyed := h.bound.agrees.keyed
      trimmed := h.bound.agrees.trimmed
      copied := h.bound.agrees.copied
      ended := h.bound.agrees.ended
      written := h.bound.agrees.written
      onTime := by
        rw [Machine.work, h.bound.agrees.onTime, (h.fresh hexecute).2]
        rfl }
  started := h.bound.started
  named := h.bound.named

/-- **A worker keeps the agreement**, wherever it throws or dies, if its settlements name one
state. -/
theorem keeps_worker (hid : trim spec.runId = id) {settlements : List Settlement}
    (hsettlements : ∀ s ∈ settlements, s.outcome.lifecycleState = state) :
    Keeps (Agrees id) (Agrees id) (spec.worker registry now settlements) fun _ => Agrees id := by
  have hbegin : Keeps (Agrees id) (Agrees id) (spec.begin registry now) fun binding m =>
      ∃ state', Ready id state binding state' m := keeps_begin hid
  refine triple_bind hbegin fun binding => ?_
  rintro faults m ⟨state', hready⟩
  have hone : binding.execute = true → ∀ s ∈ settlements, s.outcome.lifecycleState = state' :=
    fun hexecute s hs => (hsettlements s hs).trans (hready.fresh hexecute).1.symm
  have hsettle : Keeps (Agrees id) (Bound id state') (spec.settle registry now binding settlements)
      fun _ => Agrees id :=
    triple_weaken (keeps_settle hone hready.replays) (fun _ h => h)
      (fun _ _ h => h.agrees) (fun _ h => h.agrees) (fun _ h => h.agrees)
  dsimp only
  split
  · rename_i hexecute
    refine triple_bind (P := Ready id state binding state') (R := fun _ => Bound id state') ?_
      (fun _ => hsettle) faults m hready
    refine triple_perform ?_ ?_ ?_ ?_
    · rintro m m' h heffect
      cases heffect
      exact h.work hexecute
    · rintro m - heffect
      cases heffect
    · exact fun m tear h => (h.work hexecute).agrees
    · exact fun m tear h => survives_agrees id _ _ (h.work hexecute).agrees
  · exact hsettle faults m hready.bound

end Workers

/-! ## Hydration -/

/-- The run is of a class that is redelivered, and whatever runs the oracle is asked about, an
answer that the registry accepts names a run of this run's lineage. -/
structure Spares (registry : AutomataRunRegistry) (hydration : Hydration)
    (record : AutomataRunRecord) : Prop where
  leaseRetry : ∃ descriptor,
    (registry.classes.find? fun entry => entry.id = record.automatonClass) = some descriptor ∧
      descriptor.failureClass = .leaseRetry
  vouched : ∀ candidates redelivered,
    hydration.findRedeliveredRunIds candidates = some redelivered →
      (∀ runId ∈ redelivered, runId ∈ candidates.flatMap (·.lineageRunIds)) →
      ∀ c ∈ candidates, c.automatonClass = record.automatonClass →
        c.lineageRunIds.head? = some record.runId → ∃ runId ∈ c.lineageRunIds, runId ∈ redelivered

/-- A run that is not terminal may be failed, or the hydration spares it. -/
def SparedUnder (registry : AutomataRunRegistry) (hydration : Hydration)
    (terminal : Option CommittedTerminal) (record : AutomataRunRecord) : Prop :=
  ∀ t, terminal = some t → t.lifecycleState ≠ .failed → Spares registry hydration record

section Hydrating

variable {id : String} {terminal : Option CommittedTerminal} {m : Machine}
  {record : AutomataRunRecord} {registry : AutomataRunRegistry} {hydration : Hydration}
  {store runs : Runs}

/-- Hydration commits nothing. -/
def Held (id : String) (terminal : Option CommittedTerminal) (m : Machine) : Prop :=
  Agrees id m ∧ m.terminal = terminal

theorem survives_held : Survives (Held id terminal) := fun _ tear h => ⟨h.1.lose tear, h.2⟩

/-- A run is failed only if no other end is committed. -/
theorem keeps_failRestartOrphan {why : String} {nowMs : Int}
    (hfailed : record.runId = id → ∀ t, terminal = some t → t.lifecycleState = .failed)
    (htrimmed : trim record.runId = record.runId) :
    Keeps (Held id terminal) (Held id terminal) (registry.failRestartOrphan record why nowMs)
      fun _ => Held id terminal := by
  refine triple_bind (R := fun _ => Held id terminal) (keeps_transition
    (show _ = AutomataRunStatus.failed.text from rfl) survives_held (fun _ h => h) (fun _ _ h _ _ => h) ?_) fun _ => triple_pure fun _ h => h
  rintro m current updated ⟨hm, hterminal⟩ hget hrunId - hnext
  have hupdated : updated.runId = record.runId := by
    rw [hrunId, hm.copyKeyed _ _ hget, htrimmed]
  refine ⟨hm.write ?_ ?_, hterminal⟩
  · rw [hupdated, htrimmed]
  · intro hid t ht
    have hstate := hfailed (hupdated.symm.trans hid) t (hterminal.symm.trans ht)
    rw [hstate]
    exact endsAs_of_status hnext

/-- The lineage starts as it did, and what is copied is stored. -/
theorem of_followLineage {record : AutomataRunRecord} {found : List String × Runs} {first : String}
    (hkeyed : ∀ i record, store.get i = some record → record.runId = i) (fuel : Nat)
    (source : Option String) (lineage : List String) (runs : Runs)
    (hcopied : ∀ i record, runs.get i = some record → store.get i = some record)
    (hfirst : lineage.head? = some first)
    (h : followLineage store record fuel source lineage runs = .ok found) :
    found.1.head? = some first ∧
      ∀ i record, found.2.get i = some record → store.get i = some record := by
  induction fuel generalizing source lineage runs with
  | zero =>
    cases source with
    | none =>
      cases h
      exact ⟨hfirst, hcopied⟩
    | some sourceRunId => cases h
  | succ fuel ih =>
    cases source with
    | none =>
      cases h
      exact ⟨hfirst, hcopied⟩
    | some sourceRunId =>
      rw [followLineage] at h
      split at h
      · cases h
      · split at h
        · cases h
          refine ⟨?_, hcopied⟩
          rw [List.head?_append, hfirst]
          rfl
        · rename_i source hsource
          split at h
          · cases h
          · have hstored : store.get sourceRunId = some source := by
              unfold lookupRun at hsource
              split at hsource
              · rename_i copy hcopy
                cases hsource
                exact hcopied _ _ hcopy
              · exact hsource
            refine ih source.sourceRunId _ _ ?_ ?_ h
            · intro i other hget
              by_cases hi : i = source.runId
              · rw [hi, JsMap.get_set_self] at hget
                cases hget
                rw [hi, hkeyed _ _ hstored]
                exact hstored
              · rw [JsMap.get_set_of_ne _ hi] at hget
                exact hcopied i other hget
            · rw [List.head?_append, hfirst]
              rfl

/-- The orphans that are kept for the oracle, and their lineages. -/
theorem keeps_gatherOrphans {nowMs : Int} (records : List AutomataRunRecord)
    (htrimmed : ∀ record ∈ records, trim record.runId = record.runId)
    (hspared : ∀ record ∈ records, record.runId = id →
      SparedUnder registry hydration terminal record) :
    Keeps (Held id terminal) (Held id terminal) (registry.gatherOrphans nowMs records)
      fun orphans m => Held id terminal m ∧ ∀ orphan ∈ orphans, orphan.1 ∈ records ∧
        orphan.2.head? = some orphan.1.runId := by
  induction records with
  | nil => exact triple_pure fun m hm => ⟨hm, fun _ hmem => absurd hmem List.not_mem_nil⟩
  | cons record rest ih =>
    have hrest := ih (fun r hr => htrimmed r (List.mem_cons_of_mem _ hr))
      fun r hr => hspared r (List.mem_cons_of_mem _ hr)
    refine triple_bind (R := fun descriptor m => Held id terminal m ∧
      (registry.classes.find? fun entry => entry.id = record.automatonClass) = some descriptor)
      ?_ fun descriptor => ?_
    · refine triple_ofExcept ?_ fun _ h => h
      intro descriptor hfound m hm
      split at hfound
      · rename_i descriptor' hfind
        cases hfound
        exact ⟨hm, hfind⟩
      · cases hfound
    · refine triple_fact fun hfind => ?_
      split
      · rename_i hclass
        have hfailed : record.runId = id → ∀ t, terminal = some t → t.lifecycleState = .failed := by
          intro hid t ht
          by_contra hstate
          obtain ⟨descriptor', hfind', hretry⟩ :=
            (hspared record (List.mem_cons_self ..) hid t ht hstate).leaseRetry
          rw [hfind] at hfind'
          cases hfind'
          exact hclass hretry
        refine triple_bind (keeps_failRestartOrphan hfailed (htrimmed _ (List.mem_cons_self ..)))
          fun _ => triple_weaken hrest (fun _ h => h) ?_ (fun _ h => h) fun _ h => h
        rintro orphans m ⟨hm, horphans⟩
        exact ⟨hm, fun orphan hmem => ⟨List.mem_cons_of_mem _ (horphans orphan hmem).1,
          (horphans orphan hmem).2⟩⟩
      · refine triple_bind (keeps_read survives_held fun _ h => h) fun _ => triple_get
          fun m hm => ?_
        refine triple_bind (R := fun found m' => m' = m ∧
          lineageRunIds m.store record m.runs = .ok found) ?_ fun found => ?_
        · refine triple_ofExcept (fun found hfound m' hm' => ⟨hm', hfound⟩) ?_
          rintro m' rfl
          exact hm
        refine triple_bind (R := fun _ m' => Held id terminal m' ∧
          found.1.head? = some record.runId) (triple_modify ?_) fun _ => ?_
        · rintro m' ⟨rfl, hfound⟩
          obtain ⟨hfirst, hcopied⟩ := of_followLineage hm.1.keyed _ _ _ _ hm.1.copied rfl hfound
          exact ⟨⟨hm.1.copy hcopied, hm.2⟩, hfirst⟩
        · refine triple_fact fun hfirst => triple_bind hrest fun others => triple_pure ?_
          rintro m ⟨hm, hothers⟩
          refine ⟨hm, ?_⟩
          intro orphan hmem
          rcases List.mem_cons.1 hmem with rfl | hmem
          · exact ⟨List.mem_cons_self .., hfirst⟩
          · exact ⟨List.mem_cons_of_mem _ (hothers orphan hmem).1, (hothers orphan hmem).2⟩

theorem get_of_mem_retained {nowMs : Int}
    (hkeyed : ∀ i record, store.get i = some record → record.runId = i) {i : String}
    (h : (retained nowMs store).get i = some record) : store.get i = some record := by
  obtain hmem | hget := JsMap.mem_of_get_foldl_set h
  · obtain ⟨record', hkept, heq⟩ := List.mem_map.1 hmem
    cases heq
    obtain ⟨j, hget⟩ := (JsMap.mem_values_iff store record).1 (List.mem_filter.1 hkept).1
    rw [hkeyed j record hget]
    exact hget
  · rw [JsMap.get_empty] at hget
    cases hget

/-- Of the orphans that are kept for the oracle, those it does not vouch for are failed. -/
theorem keeps_terminalizeOrphanedRuns {P : Machine → Prop} (hP : ∀ m, P m → Held id terminal m)
    (hspared : ∀ m, P m → ∀ record ∈ m.runs.values, isTerminalStatus record.status = false →
      record.runId = id → SparedUnder registry hydration terminal record) :
    Keeps (Held id terminal) P (registry.terminalizeOrphanedRuns hydration)
      fun _ => Held id terminal := by
  refine triple_get fun m hm => ?_
  have hmem : ∀ record ∈ (sortedRuns hydration.localeLe m.runs).filter fun record =>
      !isTerminalStatus record.status, record ∈ m.runs.values ∧
        isTerminalStatus record.status = false := by
    intro record hrecord
    obtain ⟨hsorted, hstatus⟩ := List.mem_filter.1 hrecord
    exact ⟨List.mem_mergeSort.1 hsorted, by simpa using hstatus⟩
  have htrimmed : ∀ record ∈ m.runs.values, trim record.runId = record.runId := by
    intro record hrecord
    obtain ⟨i, hget⟩ := (JsMap.mem_values_iff m.runs record).1 hrecord
    have hagrees := (hP m hm).1
    rw [hagrees.copyKeyed i record hget]
    exact hagrees.trimmed i record (hagrees.copied i record hget)
  refine triple_bind (triple_pre (keeps_gatherOrphans _ (fun r hr => htrimmed r (hmem r hr).1)
    fun r hr => hspared m hm r (hmem r hr).1 (hmem r hr).2) ?_) fun orphans => ?_
  · rintro m' rfl
    exact hP _ hm
  refine triple_fact fun horphans => ?_
  split
  · exact triple_pure fun _ h => h
  split
  · exact triple_throw fun _ h => h
  · rename_i redelivered hanswer
    split
    · exact triple_throw fun _ h => h
    · rename_i hknown
      refine triple_each (I := fun _ => Held id terminal) ?_
      intro done orphan rest horphan
      have hhere : orphan ∈ orphans := by
        rw [horphan]
        exact List.mem_append_right _ (List.mem_cons_self ..)
      obtain ⟨hrecord, hfirst⟩ := horphans orphan hhere
      split
      · exact triple_pure fun _ h => h
      · rename_i hlost
        refine keeps_failRestartOrphan ?_ (htrimmed _ (hmem _ hrecord).1)
        intro hid t ht
        by_contra hstate
        obtain ⟨hvalue, hstatus⟩ := hmem _ hrecord
        -- the oracle was asked about this lineage, and named no run of it
        have hspares := hspared m hm _ hvalue hstatus hid t ht hstate
        have hflat : ∀ runId ∈ redelivered, runId ∈ (orphans.map fun orphan =>
            (⟨orphan.1.automatonClass, orphan.2⟩ : AutomataRedeliveryCandidate)).flatMap
              (·.lineageRunIds) := by
          intro runId hrunId
          rw [List.flatMap_map]
          by_contra hunknown
          refine hknown (List.any_eq_true.2 ⟨runId, hrunId, ?_⟩)
          simpa using hunknown
        obtain ⟨runId, hlineage, hnamed⟩ := hspares.vouched _ redelivered hanswer hflat
          ⟨orphan.1.automatonClass, orphan.2⟩ (List.mem_map_of_mem hhere) rfl hfirst
        exact hlost (List.any_eq_true.2 ⟨runId, hlineage, List.contains_iff_mem.2 hnamed⟩)

/-- What a hydration must spare: the run, once it has a terminal that is no failure. -/
def Spared (registry : AutomataRunRegistry) (id : String) (m : Machine) (hydration : Hydration) :
    Prop :=
  ∀ record, m.store.get id = some record → isTerminalStatus record.status = false →
    SparedUnder registry hydration m.terminal record

/-- **Hydration keeps the agreement**, if it spares the run. -/
theorem keeps_hydrate :
    Keeps (Agrees id) (fun m => Agrees id m ∧ Spared registry id m hydration)
      (registry.hydrate hydration) fun _ => Agrees id := by
  rintro faults m ⟨hm, hspared⟩
  suffices hexact : Triple (fun m' => m' = m) (registry.hydrate hydration)
      ⟨fun _ => Held id m.terminal, Held id m.terminal, Held id m.terminal⟩ from
    triple_weaken hexact (fun _ h => h) (fun _ _ h => h.1) (fun _ h => h.1) (fun _ h => h.1)
      faults m rfl
  have hheld : ∀ m', m' = m → Held id m.terminal m' := by
    rintro m' rfl
    exact ⟨hm, rfl⟩
  refine triple_bind (keeps_read survives_held hheld) fun _ => ?_
  refine triple_bind (R := fun _ m' => Held id m.terminal m' ∧ ∀ record ∈ m'.runs.values,
    isTerminalStatus record.status = false → record.runId = id →
      SparedUnder registry hydration m.terminal record) (triple_modify ?_) fun _ =>
    keeps_terminalizeOrphanedRuns (fun _ h => h.1) fun _ h => h.2
  rintro m' rfl
  refine ⟨⟨hm.copy fun i record hget => get_of_mem_retained hm.keyed hget, rfl⟩, ?_⟩
  intro record hrecord hstatus hid
  obtain ⟨i, hget⟩ := (JsMap.mem_values_iff _ record).1 hrecord
  have hstored := get_of_mem_retained hm.keyed hget
  rw [← hm.keyed i record hstored, hid] at hstored
  exact hspared record hstored hstatus

end Hydrating

/-! ## Runs -/

/-- A store as it is before the run's first process, with no terminal of the run. -/
structure Stored where
  store   : Runs
  keyed   : ∀ i record, store.get i = some record → record.runId = i
  trimmed : ∀ i record, store.get i = some record → trim i = i

def Stored.machine (start : Stored) : Machine := ⟨start.store, none, JsMap.empty, false⟩

/-- A hydration or a worker, under any script of faults. -/
inductive Life (registry : AutomataRunRegistry) (spec : AutomataClassRunSpec)
    (spared : Machine → Hydration → Prop) (oneEnd : List Settlement → Prop) :
    Machine → Machine → Prop
  | hydrated (m : Machine) (hydration : Hydration) (faults : List (Fault Bool))
      (h : spared m hydration) :
      Life registry spec spared oneEnd m ((registry.hydrate hydration faults m).state)
  | worked (m : Machine) (now : Int) (settlements : List Settlement) (faults : List (Fault Bool))
      (h : oneEnd settlements) :
      Life registry spec spared oneEnd m ((spec.worker registry now settlements faults m).state)

def lifeSystem (registry : AutomataRunRegistry) (spec : AutomataClassRunSpec) (start : Stored)
    (spared : Machine → Hydration → Prop) (oneEnd : List Settlement → Prop) : System Machine where
  init := start.machine
  step := Life registry spec spared oneEnd

/-- What one worker asks to settle names one lifecycle state. -/
def OneEnd (settlements : List Settlement) : Prop :=
  ∃ state, ∀ s ∈ settlements, s.outcome.lifecycleState = state

theorem Stored.agrees (start : Stored) (id : String) : Agrees id start.machine where
  keyed := start.keyed
  trimmed := start.trimmed
  copied := by
    intro i record hget
    rw [Stored.machine, JsMap.get_empty] at hget
    cases hget
  ended := nofun
  written := nofun
  onTime := rfl

/-- **The registry and the Bus never disagree** while hydration spares the run and each worker
settles it in one way. -/
theorem converges_run (registry : AutomataRunRegistry) (spec : AutomataClassRunSpec)
    (start : Stored) {m : Machine}
    (h : (lifeSystem registry spec start (Spared registry (trim spec.runId)) OneEnd).Reachable m) :
    m.late = false ∧ ∀ t, m.terminal = some t → ∀ record,
      m.store.get (trim spec.runId) = some record ∨ m.runs.get (trim spec.runId) = some record →
        isTerminalStatus record.status = true → record.status = t.lifecycleState.status := by
  have hagrees : Agrees (trim spec.runId) m := by
    refine System.invariant (I := Agrees (trim spec.runId)) (start.agrees _) ?_ h
    intro m m' hm hlife
    cases hlife with
    | hydrated hydration faults hspared =>
      exact keeps_hydrate.state faults ⟨hm, hspared⟩
    | worked now settlements faults hone =>
      obtain ⟨state, hstate⟩ := hone
      exact (keeps_worker rfl hstate).state faults hm
  refine ⟨hagrees.onTime, ?_⟩
  intro t ht record hget hstatus
  obtain ⟨stored, hstored, hended⟩ := hagrees.ended t ht
  have hrecord : m.store.get (trim spec.runId) = some record :=
    hget.elim id fun hcopy => hagrees.copied _ _ hcopy
  rw [hstored] at hrecord
  cases hrecord
  exact hended.2 hstatus

/-! ## A completed run that is failed -/

def freeTime : AutomataClassRunSpec where
  automatonClass := .schedulerFreeTime
  runId := "run"
  workerId := "worker"
  taskId := "task"
  taskLabel := "label"
  taskSummary := "summary"
  sessionIds := none
  parentRunId := none
  sourceRunId := none
  createdAtMs := some 1

def noRuns : Stored where
  store := JsMap.empty
  keyed := by
    intro i record hget
    rw [JsMap.get_empty] at hget
    cases hget
  trimmed := by
    intro i record hget
    rw [JsMap.get_empty] at hget
    cases hget

def completes : Settlement := ⟨0, [], runReplayed⟩

/-- The process dies between the commit of the handoff and the update of the registry. -/
def beforeTerminalize : List (Fault Bool) := [.none, .none, .none, .none, .none, .crashes false]

def cutShort : Machine :=
  (freeTime.worker soleRegistry 10 [completes] beforeTerminalize noRuns.machine).state

/-- The next process finds no live job of the run. -/
def restart : Hydration := ⟨20, fun _ => some [], fun _ _ => true⟩

def orphaned : Machine := (soleRegistry.hydrate restart [] cutShort).state

theorem orphaned_failed :
    (orphaned.store.get "run").map (·.status) = some .failed ∧
      orphaned.terminal.map (·.lifecycleState) = some .completed := by decide +kernel

/-- A process dies after it committed that the run is completed, and hydration fails the run. -/
theorem converges_failed :
    ¬ ∀ (registry : AutomataRunRegistry) (spec : AutomataClassRunSpec) (start : Stored)
        (m : Machine),
      (lifeSystem registry spec start (fun _ _ => True) fun _ => True).Reachable m →
        m.late = false ∧ ∀ t, m.terminal = some t → ∀ record,
          m.store.get (trim spec.runId) = some record ∨
            m.runs.get (trim spec.runId) = some record →
          isTerminalStatus record.status = true → record.status = t.lifecycleState.status := by
  intro h
  have hcut : (lifeSystem soleRegistry freeTime noRuns (fun _ _ => True) fun _ => True).Reachable
      cutShort :=
    Relation.ReflTransGen.single (Life.worked _ 10 [completes] beforeTerminalize trivial)
  have horphaned := hcut.next (Life.hydrated cutShort restart [] trivial)
  have hid : trim freeTime.runId = "run" := by decide
  obtain ⟨hstatus, hstate⟩ := orphaned_failed
  obtain ⟨record, hrecord, hfailed⟩ := Option.map_eq_some_iff.1 hstatus
  obtain ⟨t, hterminal, hcompleted⟩ := Option.map_eq_some_iff.1 hstate
  have hsame := (h _ _ _ orphaned horphaned).2 t hterminal record
    (.inl (by rw [hid]; exact hrecord)) (by rw [hfailed]; rfl)
  rw [hfailed, hcompleted] at hsame
  cases hsame

/-- The same worker, when nothing fails. -/
theorem converges_run_completed :
    let m := (freeTime.worker soleRegistry 10 [completes] [] noRuns.machine).state
    (m.store.get "run").map (·.status) = some .completed ∧ m.terminal ≠ none ∧
      m.late = false ∧ ∀ t, m.terminal = some t → ∀ record,
        m.store.get (trim freeTime.runId) = some record ∨
          m.runs.get (trim freeTime.runId) = some record →
        isTerminalStatus record.status = true → record.status = t.lifecycleState.status := by
  refine ⟨by decide +kernel, ?_, converges_run soleRegistry freeTime noRuns
    (Relation.ReflTransGen.single (Life.worked _ 10 [completes] [] ⟨.completed, ?_⟩))⟩
  · have hsome : Option.isSome
        (freeTime.worker soleRegistry 10 [completes] [] noRuns.machine).state.terminal = true := by
      decide +kernel
    exact Option.isSome_iff_ne_none.1 hsome
  · intro s hs
    rw [List.mem_singleton.1 hs]
    rfl

end Psfn.Automata
