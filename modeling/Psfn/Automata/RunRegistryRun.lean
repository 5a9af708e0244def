import Psfn.Automata.RunRegistry
import Psfn.Lib.Transition

/-!
# The run registry — overlapping calls

A call reads the registry's copy, awaits the store, and writes the copy. The store checks that the
status it replaces is the one the call read, and nothing else, so between a call's read and its
write of the copy another call may get through.

* `coherent_of_reachable` — what stays true of store, copy and open calls when no update gets
  through between another call's store write and its write of the copy, or on artifacts that have
  changed since;
* `registry_run` — then statuses only advance, links stay, and the copy is the store's record when
  no call is open;
* `lostLink_reachable`, `registry_lost` — a link that is lost, where updates do get through.
-/

namespace Psfn.Automata

open Lib (JsMap System bind_eq_ok throwIf_eq_ok)

/-! ## Calls and the store -/

inductive Call where
  | register (input : RegisterAutomataRunInput)
  | ensureRun (input : RegisterAutomataRunInput)
  | transition (runId : String) (input : TransitionAutomataRunInput)
  | linkArtifacts (runId : String) (artifacts : List AutomataArtifactRef)
  | loadExactRun (runId : String)

def AutomataRunRegistry.begin (registry : AutomataRunRegistry) (now : Int) (runs : Runs) :
    Call → Except String Begun
  | .register input => registry.register now input runs
  | .ensureRun input => registry.ensureRun now input runs
  | .transition runId input => Automata.transition now runId input runs
  | .linkArtifacts runId artifacts => Automata.linkArtifacts runId artifacts runs
  | .loadExactRun runId => Automata.loadExactRun runId runs

/-- The artifacts that a call links when it succeeds. -/
def Call.linking : Call → List AutomataArtifactRef
  | .linkArtifacts _ artifacts => (normalizeArtifacts artifacts).toOption.getD []
  | _ => []

/-- A call that awaits the store, or that has its answer and writes the copy next. -/
inductive Pending where
  | inserting (record : AutomataRunRecord)
  | updating (current updated : AutomataRunRecord) (linking : List AutomataArtifactRef)
  | loading (runId : String)
  | resolved (record : AutomataRunRecord) (linking : List AutomataArtifactRef)

def Pending.runId : Pending → String
  | .inserting record => record.runId
  | .updating current _ _ => current.runId
  | .loading runId => runId
  | .resolved record _ => record.runId

/-- `AutomataRunStorePort.insert`. -/
def storeInsert (record : AutomataRunRecord) (store : Runs) : Except String Runs :=
  if store.has record.runId then .error s!"Automata run \"{record.runId}\" already exists."
  else .ok (store.set record.runId record)

/-- `AutomataRunStorePort.update`. -/
def storeUpdate (record : AutomataRunRecord) (previousStatus : AutomataRunStatus) (store : Runs) :
    Except String Runs :=
  if (store.get record.runId).any fun current => current.status = previousStatus then
    .ok (store.set record.runId record)
  else .error s!"Automata run \"{record.runId}\" changed concurrently."

variable {record : AutomataRunRecord}

theorem of_storeInsert {store store' : Runs} (h : storeInsert record store = .ok store') :
    store.get record.runId = none ∧ store' = store.set record.runId record := by
  unfold storeInsert at h
  split at h
  · cases h
  · rename_i hnew
    cases h
    exact ⟨by simpa [JsMap.has] using hnew, rfl⟩

theorem of_storeUpdate {previousStatus : AutomataRunStatus} {store store' : Runs}
    (h : storeUpdate record previousStatus store = .ok store') :
    (∃ stored, store.get record.runId = some stored ∧ stored.status = previousStatus) ∧
      store' = store.set record.runId record := by
  unfold storeUpdate at h
  split at h
  · rename_i hsame
    cases h
    cases hstored : store.get record.runId with
    | none =>
      rw [hstored] at hsame
      cases hsame
    | some stored =>
      rw [hstored] at hsame
      exact ⟨⟨stored, rfl, of_decide_eq_true hsame⟩, rfl⟩
  · cases h

/-- The store's step of a call, and what is left of the call. -/
def Pending.answer (store : Runs) : Pending → Runs × List Pending
  | .inserting record =>
    match storeInsert record store with
    | .ok store' => (store', [.resolved record []])
    | .error _ => (store, [])
  | .updating current updated linking =>
    match storeUpdate updated current.status store with
    | .ok store' => (store', [.resolved updated linking])
    | .error _ => (store, [])
  | .loading runId =>
    match store.get runId with
    | some record => (store, [.resolved record []])
    | none => (store, [])
  | .resolved record linking => (store, [.resolved record linking])

/-- The store, the registry's copy, the open calls, and what was linked successfully. -/
structure World where
  store   : Runs
  runs    : Runs
  pending : List Pending
  linked  : List (String × List AutomataArtifactRef)

/-- A call up to its first await. -/
def World.enter (registry : AutomataRunRegistry) (now : Int) (call : Call) (w : World) : World :=
  match registry.begin now w.runs call with
  | .error _ => w
  | .ok (.returned record) => { w with linked := w.linked ++ [(record.runId, call.linking)] }
  | .ok (.insert record) => { w with pending := .inserting record :: w.pending }
  | .ok (.update current updated) =>
    { w with pending := .updating current updated call.linking :: w.pending }
  | .ok (.loadExact runId) => { w with pending := .loading runId :: w.pending }

/-- One step, where an answer is given only if it is allowed: a call begins, the store answers or
throws, or a call that has its answer writes the copy and returns. -/
inductive Step (registry : AutomataRunRegistry) (allowed : World → Pending → Prop) :
    World → World → Prop
  | enter {w : World} (now : Int) (call : Call) :
    Step registry allowed w (w.enter registry now call)
  | answer {store runs : Runs} {before after : List Pending} {p : Pending}
    {linked : List (String × List AutomataArtifactRef)}
    (h : allowed ⟨store, runs, before ++ p :: after, linked⟩ p) :
    Step registry allowed ⟨store, runs, before ++ p :: after, linked⟩
      ⟨(p.answer store).1, runs, before ++ (p.answer store).2 ++ after, linked⟩
  | throws {store runs : Runs} {before after : List Pending} {p : Pending}
    {linked : List (String × List AutomataArtifactRef)}
    (h : ∀ record linking, p ≠ .resolved record linking) :
    Step registry allowed ⟨store, runs, before ++ p :: after, linked⟩
      ⟨store, runs, before ++ after, linked⟩
  | resume {store runs : Runs} {before after : List Pending} {record : AutomataRunRecord}
    {linking : List AutomataArtifactRef} {linked : List (String × List AutomataArtifactRef)} :
    Step registry allowed ⟨store, runs, before ++ .resolved record linking :: after, linked⟩
      ⟨store, runs.set record.runId record, before ++ after, linked ++ [(record.runId, linking)]⟩

/-- A store and the records that hydration copied from it. -/
structure Hydrated where
  store      : Runs
  runs       : Runs
  storeKeyed : ∀ id record, store.get id = some record → record.runId = id
  copied     : ∀ id record, runs.get id = some record → store.get id = some record

def registrySystem (registry : AutomataRunRegistry) (start : Hydrated)
    (allowed : World → Pending → Prop) : System World where
  init := ⟨start.store, start.runs, [], []⟩
  step := Step registry allowed

/-! ## What a call asks for -/

/-- Every kind and ref that is wanted is there. -/
def HasAll (held wanted : List AutomataArtifactRef) : Prop :=
  ∀ artifact ∈ wanted, ∃ other ∈ held, other.kind = artifact.kind ∧ other.ref = artifact.ref

theorem HasAll.refl (artifacts : List AutomataArtifactRef) : HasAll artifacts artifacts :=
  fun artifact hmem => ⟨artifact, hmem, rfl, rfl⟩

theorem HasAll.trans {a b c : List AutomataArtifactRef} (hab : HasAll a b) (hbc : HasAll b c) :
    HasAll a c := by
  intro artifact hmem
  obtain ⟨middle, hmiddle, hkind, href⟩ := hbc artifact hmem
  obtain ⟨other, hother, hkind', href'⟩ := hab middle hmiddle
  exact ⟨other, hother, hkind'.trans hkind, href'.trans href⟩

theorem hasAll_append {held a b : List AutomataArtifactRef} :
    HasAll held (a ++ b) ↔ HasAll held a ∧ HasAll held b := by
  constructor
  · intro h
    exact ⟨fun x hx => h x (List.mem_append_left _ hx),
      fun x hx => h x (List.mem_append_right _ hx)⟩
  · rintro ⟨ha, hb⟩ x hx
    rcases List.mem_append.1 hx with hx | hx
    · exact ha x hx
    · exact hb x hx

/-- Artifacts with one key are one kind and ref. -/
def KeysApart (artifacts : List AutomataArtifactRef) : Prop :=
  ∀ a ∈ artifacts, ∀ b ∈ artifacts, a.key = b.key → a.kind = b.kind ∧ a.ref = b.ref

theorem mergeArtifacts_eq (existing added : List AutomataArtifactRef) :
    mergeArtifacts existing added =
      (JsMap.ofList ((existing ++ added).map fun a => (a.key, a))).values := by
  unfold mergeArtifacts JsMap.ofList
  rw [List.map_append, List.foldl_append, List.foldl_map (l := added)]

theorem hasAll_mergeArtifacts {existing added : List AutomataArtifactRef}
    (hapart : KeysApart (existing ++ added)) :
    HasAll (mergeArtifacts existing added) (existing ++ added) := by
  intro artifact hmem
  have hpair : (artifact.key, artifact) ∈ (existing ++ added).map fun a => (a.key, a) :=
    List.mem_map.2 ⟨artifact, hmem, rfl⟩
  obtain ⟨other, hother, hget⟩ := JsMap.exists_get_foldl_set hpair JsMap.empty
  obtain ⟨source, hsource, heq⟩ := List.mem_map.1 hother
  obtain ⟨hkey, rfl⟩ := Prod.mk.inj heq
  refine ⟨source, ?_, hapart source hsource artifact hmem hkey⟩
  rw [mergeArtifacts_eq, JsMap.mem_values_iff]
  exact ⟨artifact.key, hget⟩

/-- A link that changes nothing had every artifact already. -/
theorem hasAll_of_sameArtifacts {existing added : List AutomataArtifactRef}
    (hdistinct : (added.map (·.key)).Nodup)
    (hsame : sameArtifacts existing (mergeArtifacts existing added) = true) :
    HasAll existing added := by
  have hmerged : existing = mergeArtifacts existing added := of_decide_eq_true hsame
  intro artifact hmem
  refine ⟨artifact, ?_, rfl, rfl⟩
  rw [hmerged, mergeArtifacts, JsMap.mem_values_iff]
  refine ⟨artifact.key, ?_⟩
  have hfold := JsMap.get_foldl_set_of_nodup (l := added.map fun a => (a.key, a))
    (by rw [List.map_map]; exact hdistinct) (List.mem_map.2 ⟨artifact, hmem, rfl⟩)
    (JsMap.ofList (existing.map fun a => (a.key, a)))
  rw [List.foldl_map] at hfold
  exact hfold

theorem nodup_of_normalizeArtifacts {artifacts normalized : List AutomataArtifactRef}
    (h : normalizeArtifacts artifacts = .ok normalized) : (normalized.map (·.key)).Nodup := by
  obtain ⟨_, -, h⟩ := bind_eq_ok.1 h
  obtain ⟨_, hdistinct, h⟩ := bind_eq_ok.1 h
  have hnodup := throwIf_eq_ok.1 hdistinct
  cases h
  simpa using hnodup

/-- What the answer of a call's first part says of the copy. -/
def Begun.Reads (runs : Runs) (linking : List AutomataArtifactRef) : Begun → Prop
  | .returned record => runs.get record.runId = some record ∧ HasAll record.artifacts linking
  | .insert record => record.status = .queued
  | .update current updated =>
    updated.runId = current.runId ∧
      (updated.status = current.status ∨ updated.status ∈ ALLOWED_TRANSITIONS current.status) ∧
      ((updated.artifacts = current.artifacts ∧ linking = []) ∨
        (updated.artifacts ≠ current.artifacts ∧
          updated.artifacts = mergeArtifacts current.artifacts linking))
  | .loadExact _ => True

variable {registry : AutomataRunRegistry} {now : Int} {runs : Runs} {begun : Begun}

variable {linking : List AutomataArtifactRef}

theorem reads_register {input : RegisterAutomataRunInput}
    (h : registry.register now input runs = .ok begun) : begun.Reads runs linking := by
  obtain ⟨_, -, h⟩ := bind_eq_ok.1 h
  obtain ⟨_, -, h⟩ := bind_eq_ok.1 h
  obtain ⟨_, -, h⟩ := bind_eq_ok.1 h
  split at h
  · cases h
  · obtain ⟨_, -, h⟩ := bind_eq_ok.1 h
    obtain ⟨_, -, h⟩ := bind_eq_ok.1 h
    obtain ⟨_, -, h⟩ := bind_eq_ok.1 h
    obtain ⟨_, -, h⟩ := bind_eq_ok.1 h
    obtain ⟨_, -, h⟩ := bind_eq_ok.1 h
    obtain ⟨_, -, h⟩ := bind_eq_ok.1 h
    obtain ⟨_, -, h⟩ := bind_eq_ok.1 h
    obtain ⟨_, -, h⟩ := bind_eq_ok.1 h
    obtain ⟨_, -, h⟩ := bind_eq_ok.1 h
    obtain ⟨_, -, h⟩ := bind_eq_ok.1 h
    cases h
    exact rfl

theorem reads_transition {runId : String} {input : TransitionAutomataRunInput}
    (hkeyed : ∀ id record, runs.get id = some record → record.runId = id)
    (h : transition now runId input runs = .ok begun) : begun.Reads runs [] := by
  obtain ⟨normalized, -, h⟩ := bind_eq_ok.1 h
  split at h
  · cases h
  · rename_i current hcurrent
    have hid := hkeyed _ _ hcurrent
    obtain ⟨next, -, h⟩ := bind_eq_ok.1 h
    obtain ⟨replay, -, h⟩ := bind_eq_ok.1 h
    split at h
    · cases h
      exact ⟨by rw [hid]; exact hcurrent, fun _ hmem => absurd hmem List.not_mem_nil⟩
    · obtain ⟨_, hallowed, h⟩ := bind_eq_ok.1 h
      obtain ⟨_, -, h⟩ := bind_eq_ok.1 h
      obtain ⟨_, -, h⟩ := bind_eq_ok.1 h
      cases h
      have hmem : next ∈ ALLOWED_TRANSITIONS current.status := by
        simpa using throwIf_eq_ok.1 hallowed
      exact ⟨rfl, .inr hmem, .inl ⟨rfl, rfl⟩⟩

theorem reads_linkArtifacts {runId : String} {artifacts : List AutomataArtifactRef}
    (hkeyed : ∀ id record, runs.get id = some record → record.runId = id)
    (h : linkArtifacts runId artifacts runs = .ok begun) :
    begun.Reads runs (Call.linkArtifacts runId artifacts).linking := by
  obtain ⟨normalized, -, h⟩ := bind_eq_ok.1 h
  split at h
  · cases h
  · rename_i current hcurrent
    have hid := hkeyed _ _ hcurrent
    obtain ⟨added, hadded, h⟩ := bind_eq_ok.1 h
    have hlinking : (Call.linkArtifacts runId artifacts).linking = added := by
      show (normalizeArtifacts artifacts).toOption.getD [] = added
      rw [hadded]
      rfl
    rw [hlinking]
    dsimp only at h
    split at h
    · rename_i hsame
      cases h
      exact ⟨by rw [hid]; exact hcurrent,
        hasAll_of_sameArtifacts (nodup_of_normalizeArtifacts hadded) hsame⟩
    · rename_i hchanged
      cases h
      exact ⟨rfl, .inl rfl, .inr ⟨fun heq => hchanged (decide_eq_true heq.symm), rfl⟩⟩

theorem reads_begin {call : Call}
    (hkeyed : ∀ id record, runs.get id = some record → record.runId = id)
    (h : registry.begin now runs call = .ok begun) : begun.Reads runs call.linking := by
  cases call with
  | register input => exact reads_register h
  | ensureRun input =>
    obtain ⟨runId, -, h⟩ := bind_eq_ok.1 h
    split at h
    · exact reads_register h
    · rename_i existing hexisting
      obtain ⟨_, -, h⟩ := bind_eq_ok.1 h
      cases h
      exact ⟨by rw [hkeyed _ _ hexisting]; exact hexisting,
        fun _ hmem => absurd hmem List.not_mem_nil⟩
  | transition runId input => exact reads_transition hkeyed h
  | linkArtifacts runId artifacts => exact reads_linkArtifacts hkeyed h
  | loadExactRun runId =>
    obtain ⟨normalized, -, h⟩ := bind_eq_ok.1 h
    split at h
    · rename_i retained hretained
      cases h
      exact ⟨by rw [hkeyed _ _ hretained]; exact hretained,
        fun _ hmem => absurd hmem List.not_mem_nil⟩
    · cases h
      trivial

/-! ## Undisturbed runs -/

/-- Nothing overlaps the update of a record that a call read: no call on the run has its answer and
has yet to write the copy, the copy has the artifacts that were read, and no two artifacts share a
key. -/
structure Undisturbed (w : World) (current updated : AutomataRunRecord)
    (linking : List AutomataArtifactRef) : Prop where
  written   : ∀ record linking', .resolved record linking' ∈ w.pending →
    record.runId ≠ current.runId
  unchanged : ∃ copy, w.runs.get current.runId = some copy ∧ copy.artifacts = current.artifacts
  apart     : updated.artifacts = current.artifacts ∨ KeysApart (current.artifacts ++ linking)

/-- An update that the store lets through is undisturbed. -/
def Serial (w : World) : Pending → Prop
  | .updating current updated linking =>
    (∀ stored, w.store.get current.runId = some stored → stored.status = current.status →
      Undisturbed w current updated linking)
  | _ => True

/-- The record that a status may follow. -/
def Follows (status status' : AutomataRunStatus) : Prop :=
  status' = status ∨ status' ∈ ALLOWED_TRANSITIONS status

/-- What is known of an open call. -/
def Sound (store : Runs) : Pending → Prop
  | .inserting record => record.status = .queued
  | .updating current updated linking =>
    updated.runId = current.runId ∧ Follows current.status updated.status ∧
      ((updated.artifacts = current.artifacts ∧ linking = []) ∨
        (updated.artifacts ≠ current.artifacts ∧
          updated.artifacts = mergeArtifacts current.artifacts linking))
  | .loading _ => True
  | .resolved record linking =>
    store.get record.runId = some record ∧ HasAll record.artifacts linking

/-- The store and the copy, between the steps of calls. -/
structure Coherent (w : World) : Prop where
  storeKeyed : ∀ id record, w.store.get id = some record → record.runId = id
  runsKeyed  : ∀ id record, w.runs.get id = some record → record.runId = id
  behind     : ∀ id copy, w.runs.get id = some copy → ∃ stored, w.store.get id = some stored ∧
    Follows copy.status stored.status ∧ HasAll stored.artifacts copy.artifacts ∧
      (copy = stored ∨ ∃ linking, .resolved stored linking ∈ w.pending)
  pending    : ∀ p ∈ w.pending, Sound w.store p
  linked     : ∀ link ∈ w.linked, ∃ stored, w.store.get link.1 = some stored ∧
    HasAll stored.artifacts link.2

/-- Every record is still there, under a status that follows. -/
def Advances (store store' : Runs) : Prop :=
  ∀ id record, store.get id = some record →
    ∃ record', store'.get id = some record' ∧ Follows record.status record'.status

theorem Advances.refl (store : Runs) : Advances store store :=
  fun _ record h => ⟨record, h, .inl rfl⟩

section Steps

variable {w w' : World} {store store' : Runs} {linked : List (String × List AutomataArtifactRef)}

/-- A set that keeps or extends what is stored under one id. -/
theorem linked_set
    (h : ∀ link ∈ linked, ∃ stored, store.get link.1 = some stored ∧ HasAll stored.artifacts link.2)
    (hset : ∀ stored, store.get record.runId = some stored →
      HasAll record.artifacts stored.artifacts) :
    ∀ link ∈ linked, ∃ stored, (store.set record.runId record).get link.1 = some stored ∧
      HasAll stored.artifacts link.2 := by
  intro link hmem
  obtain ⟨stored, hstored, hall⟩ := h link hmem
  by_cases hid : link.1 = record.runId
  · rw [hid] at hstored ⊢
    exact ⟨record, JsMap.get_set_self _ _ _, (hset stored hstored).trans hall⟩
  · exact ⟨stored, by rw [JsMap.get_set_of_ne _ hid]; exact hstored, hall⟩

theorem keyed_set (h : ∀ id record, store.get id = some record → record.runId = id) :
    ∀ id record', (store.set record.runId record).get id = some record' → record'.runId = id := by
  intro id record' hget
  by_cases hid : id = record.runId
  · rw [hid, JsMap.get_set_self] at hget
    cases hget
    exact hid.symm
  · rw [JsMap.get_set_of_ne _ hid] at hget
    exact h id record' hget

variable {p : Pending}

/-- Answers about other runs stay sound. -/
theorem sound_set (h : Sound store p)
    (hother : ∀ r linking, p = .resolved r linking → r.runId ≠ record.runId) :
    Sound (store.set record.runId record) p := by
  cases p with
  | inserting r => exact h
  | updating current updated linking => exact h
  | loading runId => trivial
  | resolved r linking =>
    refine ⟨?_, h.2⟩
    rw [JsMap.get_set_of_ne _ (hother r linking rfl)]
    exact h.1

/-- Calls that have their answer are kept, and no open call is unsound. -/
theorem coherent_pending (h : Coherent w) {pending : List Pending}
    (hsound : ∀ p ∈ pending, Sound w.store p)
    (hkeep : ∀ record linking, .resolved record linking ∈ w.pending →
      .resolved record linking ∈ pending) : Coherent { w with pending } := by
  refine ⟨h.storeKeyed, h.runsKeyed, ?_, hsound, h.linked⟩
  intro id copy hcopy
  obtain ⟨stored, hstored, hfollows, hall, hsame⟩ := h.behind id copy hcopy
  refine ⟨stored, hstored, hfollows, hall, ?_⟩
  rcases hsame with hsame | ⟨linking, hmem⟩
  · exact .inl hsame
  · exact .inr ⟨linking, hkeep stored linking hmem⟩

theorem coherent_enter (h : Coherent w) (registry : AutomataRunRegistry) (now : Int)
    (call : Call) : Coherent (w.enter registry now call) := by
  unfold World.enter
  have hadd : ∀ p, Sound w.store p → Coherent { w with pending := p :: w.pending } := by
    intro p hp
    refine coherent_pending h ?_ fun record linking hmem => List.mem_cons_of_mem _ hmem
    intro q hq
    rcases List.mem_cons.1 hq with rfl | hq
    · exact hp
    · exact h.pending q hq
  split
  · exact h
  · -- the answer is the copy's record, whose artifacts the store has
    rename_i record hbegin
    obtain ⟨hcopy, hlinking⟩ := reads_begin h.runsKeyed hbegin
    refine ⟨h.storeKeyed, h.runsKeyed, h.behind, h.pending, ?_⟩
    intro link hmem
    rcases List.mem_append.1 hmem with hmem | hmem
    · exact h.linked link hmem
    · rw [List.mem_singleton.1 hmem]
      obtain ⟨stored, hstored, -, hall, -⟩ := h.behind _ _ hcopy
      exact ⟨stored, hstored, hall.trans hlinking⟩
  · rename_i record hbegin
    exact hadd _ (reads_begin h.runsKeyed hbegin)
  · rename_i current updated hbegin
    exact hadd _ (reads_begin h.runsKeyed hbegin)
  · exact hadd _ trivial

/-- A record goes into the store while the copy is up to date and no other call on the run has its
answer. -/
theorem coherent_write (h : Coherent w) {pending : List Pending}
    (hstored : ∀ stored, w.store.get record.runId = some stored →
      HasAll record.artifacts stored.artifacts)
    (hlinking : HasAll record.artifacts linking)
    (hcopy : ∀ copy, w.runs.get record.runId = some copy →
      w.store.get record.runId = some copy ∧ Follows copy.status record.status)
    (hnone : ∀ r linking', .resolved r linking' ∈ w.pending → r.runId ≠ record.runId)
    (hpending : ∀ p ∈ pending, p = .resolved record linking ∨ p ∈ w.pending)
    (hkeep : ∀ r linking', .resolved r linking' ∈ w.pending → .resolved r linking' ∈ pending)
    (hnew : .resolved record linking ∈ pending) :
    Coherent ⟨w.store.set record.runId record, w.runs, pending, w.linked⟩ := by
  refine ⟨keyed_set h.storeKeyed, h.runsKeyed, ?_, ?_, linked_set h.linked hstored⟩
  · intro id copy hget
    by_cases hid : id = record.runId
    · subst hid
      obtain ⟨hsame, hfollows⟩ := hcopy copy hget
      exact ⟨record, JsMap.get_set_self _ _ _, hfollows, hstored copy hsame, .inr ⟨linking, hnew⟩⟩
    · obtain ⟨stored, hget', hfollows, hall, hsame⟩ := h.behind id copy hget
      refine ⟨stored, by rw [JsMap.get_set_of_ne _ hid]; exact hget', hfollows, hall, ?_⟩
      rcases hsame with hsame | ⟨linking', hmem⟩
      · exact .inl hsame
      · exact .inr ⟨linking', hkeep stored linking' hmem⟩
  · intro p hp
    rcases hpending p hp with rfl | hold
    · exact ⟨JsMap.get_set_self _ _ _, hlinking⟩
    · exact sound_set (h.pending p hold) fun r linking' heq => hnone r linking' (heq ▸ hold)

variable {middle : List Pending}

/-- What is open once `middle` stands where the call `p` stood. -/
theorem mem_replace {before after : List Pending} {q : Pending}
    (hq : q ∈ before ++ middle ++ after) : q ∈ middle ∨ q ∈ before ++ p :: after := by
  rw [List.mem_append, List.mem_append] at hq
  rcases hq with (hq | hq) | hq
  · exact .inr (by simp [hq])
  · exact .inl hq
  · exact .inr (by simp [hq])

theorem resolved_replace {before after : List Pending}
    (hne : ∀ record linking, p ≠ .resolved record linking)
    (hmem : .resolved record linking ∈ before ++ p :: after) :
    .resolved record linking ∈ before ++ middle ++ after := by
  rw [List.mem_append, List.mem_cons] at hmem
  rcases hmem with hmem | rfl | hmem
  · simp [hmem]
  · exact absurd rfl (hne record linking)
  · simp [hmem]

variable {before after : List Pending} {p : Pending}

/-- A call that awaits the store is replaced by what the unchanged store answers. -/
theorem coherent_replace (h : Coherent ⟨store, runs, before ++ p :: after, linked⟩)
    (hmiddle : ∀ q ∈ middle, Sound store q) (hne : ∀ record linking, p ≠ .resolved record linking) :
    Coherent ⟨store, runs, before ++ middle ++ after, linked⟩ := by
  refine coherent_pending (w := ⟨store, runs, before ++ p :: after, linked⟩) h ?_
    fun record linking hmem => resolved_replace hne hmem
  intro q hq
  rcases mem_replace hq with hq | hq
  · exact hmiddle q hq
  · exact h.pending q hq

theorem coherent_insert (h : Coherent ⟨store, runs, before ++ .inserting record :: after, linked⟩)
    (hnone : store.get record.runId = none) :
    Coherent ⟨store.set record.runId record, runs,
      before ++ [.resolved record []] ++ after, linked⟩ := by
  have habsent : ∀ stored, store.get record.runId ≠ some stored := by
    intro stored hstored
    rw [hnone] at hstored
    cases hstored
  refine coherent_write h (fun stored hget => absurd hget (habsent stored))
    (fun _ hmem => absurd hmem List.not_mem_nil) ?_ ?_ ?_
    (fun r linking hmem => resolved_replace (p := .inserting record) (fun _ _ => nofun) hmem)
    (by simp)
  · intro copy hcopy
    obtain ⟨stored, hget, -⟩ := h.behind _ _ hcopy
    exact absurd hget (habsent stored)
  · intro r linking hmem hid
    exact absurd (hid ▸ (h.pending _ hmem).1) (habsent r)
  · intro q hq
    rcases mem_replace hq with hq | hq
    · exact .inl (List.mem_singleton.1 hq)
    · exact .inr hq

theorem coherent_update {current updated stored : AutomataRunRecord}
    (h : Coherent ⟨store, runs, before ++ .updating current updated linking :: after, linked⟩)
    (hstored : store.get current.runId = some stored) (hstatus : stored.status = current.status)
    (hquiet : Undisturbed ⟨store, runs, before ++ .updating current updated linking :: after,
      linked⟩ current updated linking) :
    Coherent ⟨store.set updated.runId updated, runs,
      before ++ [.resolved updated linking] ++ after, linked⟩ := by
  obtain ⟨hid, hfollows, hartifacts⟩ :=
    h.pending (.updating current updated linking) (List.mem_append_right _ List.mem_cons_self)
  obtain ⟨copy, hcopy, hsameArtifacts⟩ := hquiet.unchanged
  -- no answer is outstanding, so the copy is what the store has
  have hcopied : copy = stored := by
    obtain ⟨stored', hstored', -, -, hsame⟩ := h.behind _ _ hcopy
    rw [hstored] at hstored'
    cases hstored'
    rcases hsame with hsame | ⟨linking', hmem⟩
    · exact hsame
    · exact absurd (h.storeKeyed _ _ hstored) (hquiet.written stored linking' hmem)
  have hall : HasAll updated.artifacts current.artifacts ∧ HasAll updated.artifacts linking := by
    rcases hartifacts with ⟨hsame, rfl⟩ | ⟨hchanged, hmerged⟩
    · rw [hsame]
      exact ⟨HasAll.refl _, fun _ hmem => absurd hmem List.not_mem_nil⟩
    · rcases hquiet.apart with hsame | hapart
      · exact absurd hsame hchanged
      · rw [hmerged]
        exact hasAll_append.1 (hasAll_mergeArtifacts hapart)
  refine coherent_write h ?_ hall.2 ?_ ?_ ?_ (fun r linking' hmem => resolved_replace
    (p := .updating current updated linking) (fun _ _ => nofun) hmem) (by simp)
  · intro stored' hget
    rw [hid, hstored] at hget
    cases hget
    rw [← hcopied, hsameArtifacts]
    exact hall.1
  · intro copy' hget
    rw [hid, hcopy] at hget
    cases hget
    rw [hid, hcopied]
    exact ⟨hstored, hstatus ▸ hfollows⟩
  · intro r linking' hmem hr
    exact hquiet.written r linking' hmem (hr.trans hid)
  · intro q hq
    rcases mem_replace hq with hq | hq
    · exact .inl (List.mem_singleton.1 hq)
    · exact .inr hq

theorem coherent_answer (h : Coherent ⟨store, runs, before ++ p :: after, linked⟩)
    (hserial : Serial ⟨store, runs, before ++ p :: after, linked⟩ p) :
    Coherent ⟨(p.answer store).1, runs, before ++ (p.answer store).2 ++ after, linked⟩ := by
  have hnothing : ∀ q ∈ ([] : List Pending), Sound store q :=
    fun q hq => absurd hq List.not_mem_nil
  cases p with
  | inserting record =>
    cases hinsert : storeInsert record store with
    | error message =>
      rw [Pending.answer, hinsert]
      exact coherent_replace h hnothing fun _ _ => nofun
    | ok store' =>
      rw [Pending.answer, hinsert]
      obtain ⟨hnone, rfl⟩ := of_storeInsert hinsert
      exact coherent_insert h hnone
  | updating current updated linking =>
    have hid : updated.runId = current.runId :=
      (h.pending (.updating current updated linking) (by simp)).1
    cases hupdate : storeUpdate updated current.status store with
    | error message =>
      rw [Pending.answer, hupdate]
      exact coherent_replace h hnothing fun _ _ => nofun
    | ok store' =>
      rw [Pending.answer, hupdate]
      obtain ⟨⟨stored, hstored, hstatus⟩, rfl⟩ := of_storeUpdate hupdate
      rw [hid] at hstored
      exact coherent_update h hstored hstatus (hserial stored hstored hstatus)
  | loading runId =>
    cases hload : store.get runId with
    | none =>
      rw [Pending.answer, hload]
      exact coherent_replace h hnothing fun _ _ => nofun
    | some record =>
      rw [Pending.answer, hload]
      refine coherent_replace h ?_ fun _ _ => nofun
      intro q hq
      rw [List.mem_singleton.1 hq]
      refine ⟨?_, fun _ hmem => absurd hmem List.not_mem_nil⟩
      rw [h.storeKeyed _ _ hload]
      exact hload
  | resolved record linking =>
    have hsame : before ++ ((Pending.resolved record linking).answer store).2 ++ after =
        before ++ .resolved record linking :: after := by
      simp [Pending.answer]
    rw [hsame]
    exact h

/-- The store's answer keeps every record, and its status follows. -/
theorem advances_answer (hp : Sound store p) : Advances store (p.answer store).1 := by
  cases p with
  | inserting record =>
    cases hinsert : storeInsert record store with
    | error message =>
      rw [Pending.answer, hinsert]
      exact Advances.refl store
    | ok store' =>
      rw [Pending.answer, hinsert]
      obtain ⟨hnone, rfl⟩ := of_storeInsert hinsert
      intro id old hget
      have hid : id ≠ record.runId := by
        rintro rfl
        rw [hnone] at hget
        cases hget
      exact ⟨old, by rw [JsMap.get_set_of_ne _ hid]; exact hget, .inl rfl⟩
  | updating current updated linking =>
    cases hupdate : storeUpdate updated current.status store with
    | error message =>
      rw [Pending.answer, hupdate]
      exact Advances.refl store
    | ok store' =>
      rw [Pending.answer, hupdate]
      obtain ⟨⟨stored, hstored, hstatus⟩, rfl⟩ := of_storeUpdate hupdate
      intro id old hget
      by_cases hid : id = updated.runId
      · subst hid
        have hsame : stored = old := Option.some.inj (hstored.symm.trans hget)
        exact ⟨updated, JsMap.get_set_self _ _ _, hsame ▸ hstatus ▸ hp.2.1⟩
      · exact ⟨old, by rw [JsMap.get_set_of_ne _ hid]; exact hget, .inl rfl⟩
  | loading runId =>
    cases hload : store.get runId with
    | none =>
      rw [Pending.answer, hload]
      exact Advances.refl store
    | some record =>
      rw [Pending.answer, hload]
      exact Advances.refl store
  | resolved record linking => exact Advances.refl store

/-- A call that has its answer writes the copy and returns. -/
theorem coherent_resume
    (h : Coherent ⟨store, runs, before ++ .resolved record linking :: after, linked⟩) :
    Coherent ⟨store, runs.set record.runId record, before ++ after,
      linked ++ [(record.runId, linking)]⟩ := by
  obtain ⟨hstored, hlinking⟩ := h.pending (.resolved record linking) (by simp)
  have hold : ∀ q ∈ before ++ after, q ∈ before ++ .resolved record linking :: after := by
    intro q hq
    rcases List.mem_append.1 hq with hq | hq <;> simp [hq]
  refine ⟨h.storeKeyed, keyed_set h.runsKeyed, ?_, fun q hq => h.pending q (hold q hq), ?_⟩
  · intro id copy hget
    by_cases hid : id = record.runId
    · subst hid
      rw [JsMap.get_set_self] at hget
      cases hget
      exact ⟨record, hstored, .inl rfl, HasAll.refl _, .inl rfl⟩
    · rw [JsMap.get_set_of_ne _ hid] at hget
      obtain ⟨stored, hget', hfollows, hall, hsame⟩ := h.behind id copy hget
      refine ⟨stored, hget', hfollows, hall, ?_⟩
      rcases hsame with hsame | ⟨linking', hmem⟩
      · exact .inl hsame
      · -- the answer that leaves is about another run
        refine .inr ⟨linking', ?_⟩
        have hne : stored.runId ≠ record.runId := by
          rw [h.storeKeyed _ _ hget']
          exact hid
        have hmem' := List.mem_append.1 hmem
        rw [List.mem_cons] at hmem'
        rcases hmem' with hmem' | heq | hmem'
        · exact List.mem_append_left _ hmem'
        · cases heq
          exact absurd rfl hne
        · exact List.mem_append_right _ hmem'
  · intro link hmem
    rcases List.mem_append.1 hmem with hmem | hmem
    · exact h.linked link hmem
    · rw [List.mem_singleton.1 hmem]
      exact ⟨record, hstored, hlinking⟩

/-- The copy of a run is replaced by what the store has now. -/
theorem advances_resume
    (h : Coherent ⟨store, runs, before ++ .resolved record linking :: after, linked⟩) :
    Advances runs (runs.set record.runId record) := by
  obtain ⟨hstored, -⟩ := h.pending (.resolved record linking) (by simp)
  intro id copy hget
  by_cases hid : id = record.runId
  · subst hid
    obtain ⟨stored, hget', hfollows, -⟩ := h.behind _ _ hget
    have hsame : stored = record := Option.some.inj (hget'.symm.trans hstored)
    exact ⟨record, JsMap.get_set_self _ _ _, hsame ▸ hfollows⟩
  · exact ⟨copy, by rw [JsMap.get_set_of_ne _ hid]; exact hget, .inl rfl⟩

end Steps

section Runs

variable {registry : AutomataRunRegistry} {start : Hydrated} {w w' : World}

theorem coherent_step (h : Coherent w) (hstep : Step registry Serial w w') :
    Coherent w' ∧ Advances w.store w'.store ∧ Advances w.runs w'.runs := by
  cases hstep with
  | enter now call =>
    refine ⟨coherent_enter h registry now call, ?_, ?_⟩
    · unfold World.enter
      split <;> exact Advances.refl _
    · unfold World.enter
      split <;> exact Advances.refl _
  | answer hserial =>
    exact ⟨coherent_answer h hserial, advances_answer (h.pending _ (by simp)), Advances.refl _⟩
  | @throws store runs before after p linked hne =>
    refine ⟨?_, Advances.refl _, Advances.refl _⟩
    have hrest : Coherent ⟨store, runs, before ++ [] ++ after, linked⟩ :=
      coherent_replace h (fun q hq => absurd hq List.not_mem_nil) hne
    rw [List.append_nil] at hrest
    exact hrest
  | resume => exact ⟨coherent_resume h, Advances.refl _, advances_resume h⟩

theorem coherent_of_reachable (h : (registrySystem registry start Serial).Reachable w) :
    Coherent w := by
  refine System.invariant (I := Coherent) ?_ (fun _ _ hw hstep => (coherent_step hw hstep).1) h
  refine ⟨start.storeKeyed, ?_, ?_, fun _ hp => absurd hp List.not_mem_nil,
    fun _ hmem => absurd hmem List.not_mem_nil⟩
  · intro id record hget
    exact start.storeKeyed id record (start.copied id record hget)
  · intro id copy hget
    exact ⟨copy, start.copied id copy hget, .inl rfl, HasAll.refl _, .inl rfl⟩

/-- **Undisturbed calls lose no update**: in the store and in the copy a status only advances, what
was linked stays linked, and with no call on a run open the copy is the store's record. -/
theorem registry_run (registry : AutomataRunRegistry) (start : Hydrated) {w : World}
    (h : (registrySystem registry start Serial).Reachable w) :
    (∀ w', (registrySystem registry start Serial).step w w' →
      Advances w.store w'.store ∧ Advances w.runs w'.runs) ∧
    (∀ link ∈ w.linked, ∃ stored, w.store.get link.1 = some stored ∧
      HasAll stored.artifacts link.2) ∧
    (∀ id, (∀ p ∈ w.pending, p.runId ≠ id) → ∀ copy, w.runs.get id = some copy →
      w.store.get id = some copy) := by
  have hcoherent := coherent_of_reachable h
  refine ⟨fun w' hstep => (coherent_step hcoherent hstep).2, hcoherent.linked, ?_⟩
  intro id hquiet copy hcopy
  obtain ⟨stored, hstored, -, -, hsame⟩ := hcoherent.behind id copy hcopy
  rcases hsame with rfl | ⟨linking, hmem⟩
  · exact hstored
  · exact absurd (hcoherent.storeKeyed id stored hstored) (hquiet _ hmem)

end Runs

/-! ## A lost link -/

theorem enter_update {registry : AutomataRunRegistry} {now : Int} {call : Call} {w : World}
    {current updated : AutomataRunRecord}
    (h : registry.begin now w.runs call = .ok (.update current updated)) :
    w.enter registry now call =
      { w with pending := .updating current updated call.linking :: w.pending } := by
  unfold World.enter
  rw [h]

def soleRegistry : AutomataRunRegistry := ⟨"companion", ⟨fun _ => 1000⟩⟩

def soleRun : AutomataRunRecord where
  companionId := "companion"
  runId := "run"
  automatonClass := .subagentBounded
  workerId := "worker"
  workerGeneration := 1
  taskId := "task"
  taskLabel := "label"
  taskSummary := "summary"
  parentRunId := none
  sourceRunId := none
  sessionIds := []
  artifacts := []
  status := .running
  statusReason := "automata_run_started"
  outcome := none
  failureReason := none
  promotionState := .notRequested
  foldState := .notRequired
  createdAtMs := 0
  startedAtMs := some 0
  finishedAtMs := none
  retentionDeadlineMs := 1000

def soleRuns : Runs := JsMap.empty.set "run" soleRun

theorem get_soleRuns {id : String} (h : soleRuns.get id = some record) : record.runId = id := by
  by_cases hid : id = "run"
  · rw [soleRuns, hid, JsMap.get_set_self] at h
    cases h
    exact hid.symm
  · rw [soleRuns, JsMap.get_set_of_ne _ hid] at h
    cases h

def soleStart : Hydrated where
  store := soleRuns
  runs := soleRuns
  storeKeyed := fun _ _ h => get_soleRuns h
  copied := fun _ _ h => h

def report : AutomataArtifactRef := ⟨"report", "ref-1", .durable⟩

def summary : AutomataArtifactRef := ⟨"summary", "ref-2", .durable⟩

def linked (artifact : AutomataArtifactRef) : AutomataRunRecord :=
  { soleRun with artifacts := [artifact] }

/-- Two calls have read the run; one has linked its artifact and returned, then the store has taken
the record of the other. -/
def lostLink : World where
  store := (soleRuns.set "run" (linked report)).set "run" (linked summary)
  runs := soleRuns.set "run" (linked report)
  pending := [.resolved (linked summary) [summary]]
  linked := [("run", [report])]

/-- The call that links the artifact, as it awaits the store. -/
def opened (artifact : AutomataArtifactRef) : Pending :=
  .updating soleRun (linked artifact) [artifact]

section Links

variable {allowed : World → Pending → Prop} {pending : List Pending}

theorem enter_link {artifact : AutomataArtifactRef}
    (hbegin : soleRegistry.begin 0 soleRuns (.linkArtifacts "run" [artifact]) =
      .ok (.update soleRun (linked artifact)))
    (hlinking : (Call.linkArtifacts "run" [artifact]).linking = [artifact]) :
    Step soleRegistry allowed ⟨soleRuns, soleRuns, pending, []⟩
      ⟨soleRuns, soleRuns, opened artifact :: pending, []⟩ := by
  have henter : Step soleRegistry allowed ⟨soleRuns, soleRuns, pending, []⟩
      (World.enter soleRegistry 0 (.linkArtifacts "run" [artifact])
        ⟨soleRuns, soleRuns, pending, []⟩) := .enter 0 _
  rw [enter_update hbegin, hlinking] at henter
  exact henter

/-- Both calls begin from the record they have read, and the store takes both. -/
theorem linkSteps :
    soleRegistry.begin 0 soleRuns (.linkArtifacts "run" [report]) =
        .ok (.update soleRun (linked report)) ∧
      soleRegistry.begin 0 soleRuns (.linkArtifacts "run" [summary]) =
        .ok (.update soleRun (linked summary)) ∧
      storeUpdate (linked report) .running soleRuns =
        .ok (soleRuns.set "run" (linked report)) ∧
      storeUpdate (linked summary) .running (soleRuns.set "run" (linked report)) =
        .ok ((soleRuns.set "run" (linked report)).set "run" (linked summary)) ∧
      lostLink.store.get "run" = some (linked summary) ∧
      soleRuns.get "run" = some soleRun := by
  decide +kernel

theorem enter_report : Step soleRegistry allowed ⟨soleRuns, soleRuns, pending, []⟩
    ⟨soleRuns, soleRuns, opened report :: pending, []⟩ :=
  enter_link linkSteps.1 rfl

theorem enter_summary : Step soleRegistry allowed ⟨soleRuns, soleRuns, pending, []⟩
    ⟨soleRuns, soleRuns, opened summary :: pending, []⟩ :=
  enter_link linkSteps.2.1 rfl

/-- The store takes the first record, and the call returns. -/
theorem link_report {w : World}
    (h : (registrySystem soleRegistry soleStart allowed).Runs w
      ⟨soleRuns, soleRuns, pending ++ [opened report], []⟩)
    (hallowed : allowed ⟨soleRuns, soleRuns, pending ++ [opened report], []⟩ (opened report)) :
    (registrySystem soleRegistry soleStart allowed).Runs w
      ⟨soleRuns.set "run" (linked report), soleRuns.set "run" (linked report), pending,
        [("run", [report])]⟩ := by
  obtain ⟨-, -, hupdate, -⟩ := linkSteps
  have hanswer : Step soleRegistry allowed ⟨soleRuns, soleRuns, pending ++ [opened report], []⟩
      ⟨((opened report).answer soleRuns).1, soleRuns,
        pending ++ ((opened report).answer soleRuns).2 ++ [], []⟩ := .answer hallowed
  rw [opened, Pending.answer, show soleRun.status = .running from rfl, hupdate,
    List.append_nil] at hanswer
  have hresume : Step soleRegistry allowed
      ⟨soleRuns.set "run" (linked report), soleRuns,
        pending ++ [.resolved (linked report) [report]], []⟩
      ⟨soleRuns.set "run" (linked report), soleRuns.set "run" (linked report), pending ++ [],
        [] ++ [("run", [report])]⟩ := .resume
  rw [List.append_nil] at hresume
  exact (h.tail hanswer).tail hresume

end Links

theorem lostLink_reachable :
    (registrySystem soleRegistry soleStart fun _ _ => True).Reachable lostLink := by
  have hlinked : (registrySystem soleRegistry soleStart fun _ _ => True).Reachable
      ⟨soleRuns.set "run" (linked report), soleRuns.set "run" (linked report), [opened summary],
        [("run", [report])]⟩ :=
    link_report ((Relation.ReflTransGen.single enter_report).tail enter_summary) trivial
  -- the store takes the record of the second call, which was read before
  obtain ⟨-, -, -, hupdate, -⟩ := linkSteps
  have hanswer : Step soleRegistry (fun _ _ => True)
      ⟨soleRuns.set "run" (linked report), soleRuns.set "run" (linked report),
        [] ++ opened summary :: [], [("run", [report])]⟩
      ⟨((opened summary).answer (soleRuns.set "run" (linked report))).1,
        soleRuns.set "run" (linked report),
        [] ++ ((opened summary).answer (soleRuns.set "run" (linked report))).2 ++ [],
        [("run", [report])]⟩ := .answer trivial
  rw [opened, Pending.answer, show soleRun.status = .running from rfl, hupdate] at hanswer
  exact hlinked.tail hanswer

/-- An artifact that was linked is no longer on the stored record. -/
theorem registry_lost :
    ¬ ∀ (registry : AutomataRunRegistry) (start : Hydrated) (w : World),
      (registrySystem registry start fun _ _ => True).Reachable w →
      (∀ w', (registrySystem registry start fun _ _ => True).step w w' →
        Advances w.store w'.store ∧ Advances w.runs w'.runs) ∧
      (∀ link ∈ w.linked, ∃ stored, w.store.get link.1 = some stored ∧
        HasAll stored.artifacts link.2) ∧
      (∀ id, (∀ p ∈ w.pending, p.runId ≠ id) → ∀ copy, w.runs.get id = some copy →
        w.store.get id = some copy) := by
  intro hclaim
  obtain ⟨stored, hstored, hall⟩ :=
    (hclaim _ _ _ lostLink_reachable).2.1 ("run", [report]) List.mem_cons_self
  obtain ⟨-, -, -, -, hsummary, -⟩ := linkSteps
  rw [hsummary] at hstored
  cases hstored
  obtain ⟨other, hother, hkind, -⟩ := hall report List.mem_cons_self
  rw [List.mem_singleton.1 hother] at hkind
  exact absurd hkind (by decide)

/-- One link, with no other call open. -/
theorem registry_run_report :
    ∃ stored, (soleRuns.set "run" (linked report)).get "run" = some stored ∧
      HasAll stored.artifacts [report] := by
  have hserial : Serial ⟨soleRuns, soleRuns, [] ++ [opened report], []⟩ (opened report) := by
    intro stored hstored hstatus
    refine ⟨fun record linking hmem => ?_, ⟨soleRun, linkSteps.2.2.2.2.2, rfl⟩, .inr ?_⟩
    · cases List.mem_singleton.1 hmem
    · intro a ha b hb _
      rw [List.mem_singleton.1 ha, List.mem_singleton.1 hb]
      exact ⟨rfl, rfl⟩
  have hreach : (registrySystem soleRegistry soleStart Serial).Reachable
      ⟨soleRuns.set "run" (linked report), soleRuns.set "run" (linked report), [],
        [("run", [report])]⟩ := link_report (Relation.ReflTransGen.single enter_report) hserial
  exact (registry_run soleRegistry soleStart hreach).2.1 ("run", [report]) List.mem_cons_self

end Psfn.Automata
