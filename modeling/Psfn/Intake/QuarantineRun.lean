import Psfn.Lib.Transition
import Psfn.Intake.QuarantineLoad

/-!
# Quarantine store — what each operation does to the disk

Two things are kept of the entries: that status and envelope state match, which needs
nothing of the inputs, and that the loader accepts them, which does. Both are instances of
`Kept`, and the operations are followed once for any of them.

* `Kept` — what must be shown of single entries for the operations to keep it.
* `triple_hold`, `triple_applyDecision`, `triple_recordRedelivery`,
  `triple_recordAccessAttempts`, `triple_checkArtifactAccesses`, `triple_lazySweep` — every
  write of an operation, from a disk whose entries keep it.
-/

namespace Psfn.Intake

open Psfn.Lib

/-! ## Operations on the map -/

section Map

variable {P : IntakeQuarantineEntry → Prop}

theorem Entries.All.set {entries : Entries} (h : entries.All P) {e : IntakeQuarantineEntry}
    (he : P e) {id : String} (hid : e.id = id) : Entries.All P (entries.set id e) := by
  intro id' e' hget
  rw [JsMap.get_set] at hget
  split at hget
  · rename_i heq
    obtain rfl := Option.some.inj hget
    exact ⟨hid.trans heq.symm, he⟩
  · exact h id' e' hget

/-- Nothing in a subset of the entries is new. -/
theorem Entries.All.mono {entries entries' : Entries} (h : entries.All P)
    (hsub : ∀ id e, entries'.get id = some e → entries.get id = some e) : entries'.All P :=
  fun id e hget => h id e (hsub id e hget)

end Map

theorem Retains.rel_trans {m m' m'' : Entries} (h : m.Rel Retains m') (h' : m'.Rel Retains m'') :
    m.Rel Retains m'' :=
  JsMap.Rel.trans (fun a b c => @Retains.trans a b c) h h'

theorem Retains.rel_follows {m m' m'' : Entries} (h : m.Rel Retains m')
    (h' : m'.Rel Follows m'') : m.Rel Follows m'' :=
  JsMap.Rel.trans (fun a b c => @Follows.trans a b c) (h.mono fun _ _ => And.left) h'

/-- The entries pruning removes. -/
def prunedEntries (entries : Entries) : List IntakeQuarantineEntry :=
  let terminal := (entries.values.filter fun entry =>
    entry.status ≠ .held && !anchorsLiveArtifact entry).insertionSort heldNoLater
  terminal.take (terminal.length - maxTerminalEntries)

theorem get_pruneTerminalHistory (entries : Entries) (id : String) :
    (pruneTerminalHistory entries).get id =
      if id ∈ (prunedEntries entries).map (·.id) then none else entries.get id := by
  rw [← JsMap.get_foldl_delete, List.foldl_map]
  rfl

theorem get_of_get_pruneTerminalHistory {entries : Entries} {id : String}
    {e : IntakeQuarantineEntry} (h : (pruneTerminalHistory entries).get id = some e) :
    entries.get id = some e := by
  rw [get_pruneTerminalHistory] at h
  split at h
  · cases h
  · exact h

/-- Pruning drops no held entry and none that gates an artifact. -/
theorem of_mem_prunedEntries {entries : Entries} {e : IntakeQuarantineEntry}
    (h : e ∈ prunedEntries entries) : e.status ≠ .held ∧ anchorsLiveArtifact e = false ∧
      ∃ id, entries.get id = some e := by
  have hmem := (List.perm_insertionSort heldNoLater _).mem_iff.1 (List.mem_of_mem_take h)
  obtain ⟨hvalue, hterminal⟩ := List.mem_filter.1 hmem
  simp only [Bool.and_eq_true, decide_eq_true_eq, Bool.not_eq_true'] at hterminal
  exact ⟨hterminal.1, hterminal.2, (entries.mem_values_iff e).1 hvalue⟩

theorem get_pruneTerminalHistory_of_anchors {P : IntakeQuarantineEntry → Prop} {entries : Entries}
    (hentries : entries.All P) {id : String} {e : IntakeQuarantineEntry}
    (hget : entries.get id = some e) (hanchors : anchorsLiveArtifact e = true) :
    (pruneTerminalHistory entries).get id = some e := by
  rw [get_pruneTerminalHistory, if_neg, hget]
  intro hmem
  obtain ⟨x, hx, hid⟩ := List.mem_map.1 hmem
  obtain ⟨-, hnot, id', hget'⟩ := of_mem_prunedEntries hx
  -- the pruned entry would be the one under this id
  obtain rfl : id' = id := (hentries id' x hget').1.symm.trans hid
  obtain rfl := Option.some.inj (hget'.symm.trans hget)
  rw [hanchors] at hnot
  cases hnot

/-! ## What the operations keep -/

/-- A property of entries that every operation keeps, and loading too. -/
structure Kept where
  entry     : IntakeQuarantineEntry → Prop
  attempt   : IntakeQuarantineAccessAttempt → Prop
  tracked   : ∀ e, entry e → e.Tracked
  expired   : ∀ e e' atMs reason, entry e → e.status = .held →
    expireEntry e atMs reason = .ok e' → entry e'
  decided   : ∀ input actor reason atMs e e', entry e → JsString.trim actor ≠ "" →
    JsString.trim reason ≠ "" → decideEntry input actor reason atMs e = .ok e' → entry e'
  attempted : ∀ e a, entry e → attempt a → entry (addAttempt e a)
  loaded    : ∀ filePath (m m' : Entries), m.All entry →
    load filePath (some (fileShape m).json) = .ok m' → m'.All entry ∧ m.Rel Retains m'

/-- Whatever the inputs, status and envelope state match. -/
def Kept.states : Kept where
  entry := IntakeQuarantineEntry.Tracked
  attempt := fun _ => True
  tracked := fun _ he => he
  expired := fun _ _ _ _ he hheld h => (expireEntry_spec he hheld h).1
  decided := fun _ _ _ _ _ _ he _ _ h => (decideEntry_spec he h).2.1
  attempted := fun _ _ he _ => ⟨he.envelopeId, he.state⟩
  loaded := fun _ _ _ h hload => load_retains h hload

/-- The loader accepts every entry. -/
def Kept.wellFormed : Kept where
  entry := IntakeQuarantineEntry.WellFormed
  attempt := IntakeQuarantineAccessAttempt.WellFormed
  tracked := fun _ he => he.tracked
  expired := fun _ _ _ _ he hheld h => expireEntry_wellFormed he hheld h
  decided := fun _ _ _ _ _ _ he hactor hreason h => decideEntry_wellFormed he hactor hreason h
  attempted := fun _ _ he ha => addAttempt_wellFormed he ha
  loaded := by
    intro filePath m m' h hload
    obtain rfl := Except.ok.inj ((load_file h).symm.trans hload)
    exact ⟨h, JsMap.Rel.refl Retains.refl m⟩

section Keeps

variable {K : Kept}

/-- Expiring held entries, each under its own key. -/
theorem expireEach_spec {atMs : JsNumber} {reason : String}
    {l : List (String × IntakeQuarantineEntry)} {m m' : Entries} {xs : List IntakeQuarantineEntry}
    (hm : m.All K.entry) (hnodup : (l.map Prod.fst).Nodup)
    (hl : ∀ p ∈ l, m.get p.1 = some p.2 ∧ p.2.status = .held)
    (h : expireEach atMs reason l m = .ok (m', xs)) :
    m'.All K.entry ∧ m.Rel Retains m' ∧
      (∀ p ∈ l, ∃ e, m'.get p.1 = some e ∧ e.status = .expired) ∧
      (∀ id, id ∉ l.map Prod.fst → m'.get id = m.get id) := by
  induction l generalizing m m' xs with
  | nil =>
    obtain ⟨rfl, -⟩ := Prod.mk.inj (Except.ok.inj h)
    exact ⟨hm, JsMap.Rel.refl Retains.refl m, by simp, fun _ _ => rfl⟩
  | cons p rest ih =>
    obtain ⟨id, e⟩ := p
    obtain ⟨hget, hheld⟩ := hl (id, e) (List.mem_cons_self ..)
    obtain ⟨hid, he⟩ := hm id e hget
    rw [expireEach, bind_eq_ok] at h
    obtain ⟨expired, hexpired, h⟩ := h
    rw [bind_eq_ok] at h
    obtain ⟨⟨after, others⟩, hrest, hr⟩ := h
    obtain ⟨rfl, rfl⟩ := Prod.mk.inj (Except.ok.inj hr)
    obtain ⟨-, hretains, hstatus⟩ := expireEntry_spec (K.tracked e he) hheld hexpired
    have hkept := K.expired e expired atMs reason he hheld hexpired
    rw [List.map_cons, List.nodup_cons] at hnodup
    -- the rest of the list is untouched by the first replacement
    have hl' : ∀ q ∈ rest, JsMap.get (m.set id expired) q.1 = some q.2 ∧ q.2.status = .held := by
      intro q hq
      have hne : q.1 ≠ id := fun heq => hnodup.1 (List.mem_map.2 ⟨q, hq, heq⟩)
      rw [JsMap.get_set_of_ne m hne]
      exact hl q (List.mem_cons_of_mem _ hq)
    obtain ⟨hm', hrel, hall, hothers⟩ :=
      ih (hm.set hkept (hretains.1.id.trans hid)) hnodup.2 hl' hrest
    refine ⟨hm', Retains.rel_trans (JsMap.rel_set Retains.refl hget hretains) hrel, ?_, ?_⟩
    · intro q hq
      rcases List.mem_cons.1 hq with rfl | hq
      · exact ⟨expired, by rw [hothers id hnodup.1, JsMap.get_set_self], hstatus⟩
      · exact hall q hq
    · intro id' hid'
      rw [List.map_cons, List.mem_cons, not_or] at hid'
      rw [hothers id' hid'.2, JsMap.get_set_of_ne m hid'.1]

theorem addAttempts_spec {attempts : List (String × IntakeQuarantineAccessAttempt)} {m : Entries}
    (hm : m.All K.entry) (hattempts : ∀ p ∈ attempts, K.attempt p.2) :
    Entries.All K.entry (addAttempts m attempts) ∧ m.Rel Retains (addAttempts m attempts) := by
  induction attempts generalizing m with
  | nil => exact ⟨hm, JsMap.Rel.refl Retains.refl m⟩
  | cons p rest ih =>
    have hrest := fun q hq => hattempts q (List.mem_cons_of_mem _ hq)
    rw [addAttempts, List.foldl_cons, ← addAttempts]
    cases hget : m.get p.1 with
    | none => exact ih hm hrest
    | some e =>
      obtain ⟨hid, he⟩ := hm p.1 e hget
      have hkept := K.attempted e p.2 he (hattempts p (List.mem_cons_self ..))
      obtain ⟨hm', hrel⟩ := ih (hm.set hkept rfl) hrest
      exact ⟨hm', Retains.rel_trans
        (JsMap.rel_set Retains.refl (hid ▸ hget) (addAttempt_retains e p.2)) hrel⟩

end Keeps

/-! ## The disk between two writes -/

/-- The entries on the disk; none while there is no file. -/
def Disk.entries (d : Disk) : Entries := d.persisted.getD JsMap.empty

def Disk.Keeps (K : Kept) (d : Disk) : Prop := d.entries.All K.entry

/-- What every write of an operation that found `d` leaves. -/
structure Reaches (K : Kept) (d d' : Disk) : Prop where
  keeps    : d'.Keeps K
  terminal : ∀ id e e', d.entries.get id = some e → d'.entries.get id = some e' →
    e.status ≠ .held → e'.status = e.status
  monotone : d.gateRevision ≤ d'.gateRevision
  gate     : d'.gateRevision = d.gateRevision → d.entries.Rel Retains d'.entries

/-- Every entry that gates an artifact is still there, and gates it as before. -/
def KeepsAnchors (d d' : Disk) : Prop :=
  ∀ id e, d.entries.get id = some e → anchorsLiveArtifact e = true →
    ∃ e', d'.entries.get id = some e' ∧ Retains e e'

theorem Retains.anchors {e e' : IntakeQuarantineEntry} (h : Retains e e') :
    anchorsLiveArtifact e' = anchorsLiveArtifact e := by
  unfold anchorsLiveArtifact
  rw [h.2, h.1.artifactPaths]

/-- What an operation that found `d` has in memory while it only retained entries. -/
structure Found (K : Kept) (d : Disk) (m : Entries) : Prop where
  keeps   : m.All K.entry
  retains : d.entries.Rel Retains m

/-- What a sweep leaves: the same gate, and every entry at most expired. -/
structure Swept (K : Kept) (d d' : Disk) : Prop where
  found    : Found K d d'.entries
  revision : d'.gateRevision = d.gateRevision

section Disk

variable {K : Kept} {d : Disk}

theorem Swept.refl (h : d.Keeps K) : Swept K d d := ⟨⟨h, JsMap.Rel.refl Retains.refl _⟩, rfl⟩

/-- A write that changes entries only by `Follows`, and moves the gate revision when it does
not retain them. -/
theorem reaches_of_follows {d' : Disk} (hkeeps : d'.Keeps K)
    (hfollows : d.entries.Rel Follows d'.entries) (hrevision : d.gateRevision ≤ d'.gateRevision)
    (hgate : d'.gateRevision = d.gateRevision → d.entries.Rel Retains d'.entries) :
    Reaches K d d' := by
  refine ⟨hkeeps, ?_, hrevision, hgate⟩
  intro id e e' he he' hterminal
  obtain ⟨e'', hget, hfollows⟩ := hfollows.get_some he
  obtain rfl := Option.some.inj (hget.symm.trans he')
  exact hfollows.terminal hterminal

theorem Found.reaches {m : Entries} (h : Found K d m) {d' : Disk} (hentries : d'.entries = m)
    (hrevision : d.gateRevision ≤ d'.gateRevision) : Reaches K d d' := by
  subst hentries
  exact reaches_of_follows h.keeps (h.retains.mono fun _ _ => And.left) hrevision fun _ => h.retains

theorem Swept.reaches {d' : Disk} (h : Swept K d d') : Reaches K d d' :=
  h.found.reaches rfl h.revision.ge

theorem Found.keepsAnchors {d' : Disk} (h : Found K d d'.entries) : KeepsAnchors d d' :=
  fun _ _ he _ => h.retains.get_some he

end Disk

/-! ## Operations on the disk -/

section Programs

open Traced

variable {K : Kept} {store : IntakeQuarantineStore} {d : Disk}

theorem triple_loadLocked (hd : d.Keeps K) (V : Disk → Prop) :
    Triple (fun s => s = d) (loadLocked store) V (fun m s => s = d ∧ Found K d m) := by
  refine triple_get ?_
  rintro s rfl
  refine triple_ofExcept ?_
  rintro m hm s rfl
  refine ⟨rfl, ?_⟩
  cases hp : s.persisted with
  | none =>
    rw [Disk.file, hp] at hm
    obtain rfl := Except.ok.inj hm
    have hnone : s.entries = JsMap.empty := by rw [Disk.entries, hp]; rfl
    refine ⟨?_, ?_⟩
    · intro id e hget
      cases hget
    · rw [hnone]
      exact JsMap.Rel.refl Retains.refl _
  | some entries =>
    have hentries : s.entries = entries := by rw [Disk.entries, hp]; rfl
    rw [Disk.file, hp] at hm
    obtain ⟨hkeeps, hretains⟩ := K.loaded _ entries m (hentries ▸ hd) hm
    exact ⟨hkeeps, hentries ▸ hretains⟩

/-- The entries that are due are held entries, each under its own key. -/
theorem due_spec (atMs : JsNumber) (entries : Entries) :
    ((entries.entries.filter fun p => isDue atMs p.2).map Prod.fst).Nodup ∧
      ∀ p ∈ entries.entries.filter fun p => isDue atMs p.2,
        entries.get p.1 = some p.2 ∧ p.2.status = .held := by
  refine ⟨entries.nodup.sublist (List.filter_sublist.map Prod.fst), ?_⟩
  intro p hp
  obtain ⟨hmem, hdue⟩ := List.mem_filter.1 hp
  simp only [isDue, Bool.and_eq_true, decide_eq_true_eq] at hdue
  exact ⟨(entries.mem_entries_iff_get p.1 p.2).1 hmem, hdue.1⟩

theorem triple_sweepExpired {m : Entries} (hd : d.Keeps K) (hm : Found K d m) (atMs : JsNumber) :
    Triple (fun s => s = d) (sweepExpired store m atMs) (Swept K d)
      (fun m' s => Swept K d s ∧ Found K d m') := by
  refine triple_check ?_
  rintro ⟨m', expired⟩ hexpire
  obtain ⟨hnodup, hdue⟩ := due_spec atMs m
  obtain ⟨hkeeps, hrel, -, -⟩ := expireEach_spec hm.keeps hnodup hdue hexpire
  have hfound : Found K d m' := ⟨hkeeps, Retains.rel_trans hm.retains hrel⟩
  dsimp only
  split
  · refine triple_pure ?_
    rintro s rfl
    exact ⟨Swept.refl hd, hm⟩
  · refine triple_bind (R := fun _ s => s = { d with persisted := some m' }) ?_ ?_
    · refine triple_write ?_
      rintro s rfl
      exact ⟨⟨hfound, rfl⟩, rfl⟩
    · intro _
      refine triple_check fun _ _ => triple_pure ?_
      rintro s rfl
      exact ⟨⟨hfound, rfl⟩, hfound⟩

/-- The opening of every locked mutation: reload, then sweep. -/
theorem triple_lockedSweep {α : Type} {f : Entries → Traced Disk α} {V : Disk → Prop}
    {Q : α → Disk → Prop} {atMs : JsNumber} (hd : d.Keeps K) (hV : ∀ s, Swept K d s → V s)
    (hf : ∀ s m, Swept K d s → Found K d m → Triple (fun t => t = s) (f m) V Q) :
    Triple (fun s => s = d)
      (loadLocked store >>= fun loaded => sweepExpired store loaded atMs >>= f) V Q := by
  refine triple_bind (triple_loadLocked hd V) ?_
  rintro m s ⟨rfl, hm⟩
  refine (triple_bind (triple_written (triple_sweepExpired hd hm atMs) hV) ?_) s rfl
  rintro m' s' ⟨hswept, hfound⟩
  exact hf s' m' hswept hfound s' rfl

/-! ### Holding -/

def heldEntries (entries : Entries) : List IntakeQuarantineEntry :=
  entries.values.filter fun entry => entry.status = .held

theorem mem_heldEntries {entries : Entries} {e : IntakeQuarantineEntry} :
    e ∈ heldEntries entries ↔ (∃ id, entries.get id = some e) ∧ e.status = .held := by
  simp [heldEntries, JsMap.mem_values_iff]

theorem Entries.All.ids {P : IntakeQuarantineEntry → Prop} {entries : Entries} (h : entries.All P) :
    entries.values.map (·.id) = entries.keys := by
  rw [JsMap.values, JsMap.keys, List.map_map]
  refine List.map_congr_left fun p hp => ?_
  exact (h p.1 p.2 ((entries.mem_entries_iff_get p.1 p.2).1 hp)).1

theorem Entries.All.nodup_values {P : IntakeQuarantineEntry → Prop} {entries : Entries}
    (h : entries.All P) :
    entries.values.Nodup := by
  refine List.Nodup.of_map (·.id) ?_
  rw [h.ids]
  exact entries.nodup

/-- The held entries, oldest first. -/
def heldByAge (entries : Entries) : List IntakeQuarantineEntry :=
  (heldEntries entries).insertionSort heldNoLater

theorem mem_heldByAge {entries : Entries} {e : IntakeQuarantineEntry} :
    e ∈ heldByAge entries ↔ e ∈ heldEntries entries :=
  (List.perm_insertionSort heldNoLater _).mem_iff

theorem overCapacity_eq (store : IntakeQuarantineStore) (entries : Entries) :
    overCapacity store entries =
      (heldByAge entries).take ((heldByAge entries).length - (store.maxHeldItems - 1)) := rfl

/-- The entries that make room are held entries, each under its own key. -/
theorem overCapacity_spec (store : IntakeQuarantineStore) {P : IntakeQuarantineEntry → Prop}
    {entries : Entries} (h : entries.All P) :
    (((overCapacity store entries).map fun e => (e.id, e)).map Prod.fst).Nodup ∧
      ∀ p ∈ (overCapacity store entries).map fun e => (e.id, e),
        entries.get p.1 = some p.2 ∧ p.2.status = .held := by
  have hsub : (overCapacity store entries).Sublist (heldByAge entries) := List.take_sublist _ _
  constructor
  · rw [List.map_map]
    have hids : ((heldByAge entries).map (·.id)).Nodup := by
      rw [heldByAge, ((List.perm_insertionSort heldNoLater (heldEntries entries)).map _).nodup_iff]
      have hall : (entries.values.map (·.id)).Nodup := by
        rw [h.ids]
        exact entries.nodup
      exact hall.sublist (List.filter_sublist.map _)
    exact hids.sublist (hsub.map _)
  · intro p hp
    obtain ⟨e, he, rfl⟩ := List.mem_map.1 hp
    obtain ⟨⟨id, hget⟩, hheld⟩ := mem_heldEntries.1 (mem_heldByAge.1 (hsub.subset he))
    exact ⟨(h id e hget).1 ▸ hget, hheld⟩

/-- Once the capacity is respected, one more entry fits. -/
theorem length_heldEntries_le {store : IntakeQuarantineStore} {P : IntakeQuarantineEntry → Prop}
    {m m₂ m' : Entries} {entry : IntakeQuarantineEntry} (hm : m.All P) (hm' : m'.All P)
    (hexpired : ∀ e ∈ overCapacity store m, ∃ e', m₂.get e.id = some e' ∧ e'.status = .expired)
    (hothers : ∀ id, id ∉ (overCapacity store m).map (·.id) → m₂.get id = m.get id)
    (hsub : ∀ id e, m'.get id = some e → m₂.get id = some e ∨ e = entry) :
    (heldEntries m').length ≤ store.maxHeldItems := by
  rw [overCapacity_eq] at hexpired hothers
  generalize hexcess : (heldByAge m).length - (store.maxHeldItems - 1) = excess at hexpired hothers
  have hkept : heldEntries m' ⊆ entry :: (heldByAge m).drop excess := by
    intro e he
    obtain ⟨⟨id, hget⟩, hheld⟩ := mem_heldEntries.1 he
    rcases hsub id e hget with hget₂ | rfl
    · -- an entry that is still held is not one that was expired to make room
      have hnot : id ∉ ((heldByAge m).take excess).map (·.id) := by
        intro hmem
        obtain ⟨x, hx, rfl⟩ := List.mem_map.1 hmem
        obtain ⟨e', he', hstatus⟩ := hexpired x hx
        obtain rfl := Option.some.inj (he'.symm.trans hget₂)
        rw [hheld] at hstatus
        cases hstatus
      have hgetm : m.get id = some e := by rw [← hothers id hnot, hget₂]
      have hmem : e ∈ (heldByAge m).take excess ++ (heldByAge m).drop excess := by
        rw [List.take_append_drop, mem_heldByAge, mem_heldEntries]
        exact ⟨⟨id, hgetm⟩, hheld⟩
      rcases List.mem_append.1 hmem with hmem | hmem
      · exact absurd (List.mem_map.2 ⟨e, hmem, (hm id e hgetm).1⟩) hnot
      · exact List.mem_cons_of_mem _ hmem
    · exact List.mem_cons_self ..
  have hnodup : (heldEntries m').Nodup := hm'.nodup_values.sublist List.filter_sublist
  have hlength := (List.subperm_of_subset hnodup hkept).length_le
  rw [List.length_cons, List.length_drop] at hlength
  have hpositive := store.positive
  omega

/-- The entries a hold persists: those it found, expired to make room, and the new one. -/
theorem hold_entries {m m₂ : Entries} {entry : IntakeQuarantineEntry} (hm₂ : m₂.All K.entry)
    (hentry : K.entry entry) (hrel : m.Rel Retains m₂) (hnew : m.has entry.id = false) :
    Entries.All K.entry (pruneTerminalHistory (m₂.set entry.id entry)) ∧
      (∀ id e e', m.get id = some e →
        (pruneTerminalHistory (m₂.set entry.id entry)).get id = some e' → Retains e e') ∧
      ∀ id e, m.get id = some e → anchorsLiveArtifact e = true →
        ∃ e', (pruneTerminalHistory (m₂.set entry.id entry)).get id = some e' ∧ Retains e e' := by
  have hset := hm₂.set hentry rfl
  have hne : ∀ id e, m.get id = some e → id ≠ entry.id := by
    rintro id e he rfl
    rw [JsMap.has, he] at hnew
    cases hnew
  refine ⟨hset.mono fun _ _ => get_of_get_pruneTerminalHistory, ?_, ?_⟩
  · intro id e e' he he'
    have hget := get_of_get_pruneTerminalHistory he'
    rw [JsMap.get_set_of_ne m₂ (hne id e he)] at hget
    obtain ⟨e'', he'', hretains⟩ := hrel.get_some he
    obtain rfl := Option.some.inj (he''.symm.trans hget)
    exact hretains
  · intro id e he hanchors
    obtain ⟨e', he', hretains⟩ := hrel.get_some he
    refine ⟨e', get_pruneTerminalHistory_of_anchors hset ?_ (hretains.anchors.trans hanchors),
      hretains⟩
    rw [JsMap.get_set_of_ne m₂ (hne id e he), he']

/-- **A hold** keeps what is kept of the entries, drops none that gates an artifact, and leaves
at most as many held entries as its store allows. -/
theorem triple_hold {fs : FileSystem} {now : JsNumber} {input : IntakeQuarantineHoldInput}
    (hd : d.Keeps K)
    (hentry : ∀ artifacts, input.envelope.state = .quarantined →
      holdArtifacts fs input.artifactPaths = .ok artifacts →
        K.entry (heldEntry store input artifacts (input.atMs.getD now))) :
    Triple (fun s => s = d) (hold store fs now input) (fun s => Reaches K d s ∧ KeepsAnchors d s)
      (fun _ s => (heldEntries s.entries).length ≤ store.maxHeldItems) := by
  refine triple_check fun _ hstate => ?_
  have hstate : input.envelope.state = .quarantined := by simpa [throwIf_eq_ok] using hstate
  refine triple_check fun artifacts hartifacts => ?_
  refine triple_lockedSweep hd (fun s hs => ⟨hs.reaches, hs.found.keepsAnchors⟩) ?_
  intro d₁ m hswept hm
  refine triple_check fun _ hnew => ?_
  have hnew : m.has input.envelope.id = false := by simpa [throwIf_eq_ok] using hnew
  refine triple_check ?_
  rintro ⟨m₂, _⟩ hcapped
  obtain ⟨hnodup, hcapacity⟩ := overCapacity_spec store hm.keeps
  obtain ⟨hm₂, hrel, hexpired, hothers⟩ := expireEach_spec hm.keeps hnodup hcapacity hcapped
  have hentry := hentry artifacts hstate hartifacts
  have hid : (heldEntry store input artifacts (input.atMs.getD now)).id = input.envelope.id := rfl
  dsimp only
  generalize heldEntry store input artifacts (input.atMs.getD now) = entry at hentry hid
  rw [← hid] at hnew
  obtain ⟨hkeeps, hretains, hanchors⟩ := hold_entries hm₂ hentry hrel hnew
  have hsub : ∀ id e, (pruneTerminalHistory (m₂.set entry.id entry)).get id = some e →
      m₂.get id = some e ∨ e = entry := by
    intro id e he
    have hget := get_of_get_pruneTerminalHistory he
    rw [JsMap.get_set] at hget
    split at hget
    · exact .inr (Option.some.inj hget).symm
    · exact .inl hget
  generalize pruneTerminalHistory (m₂.set entry.id entry) = m₃ at hkeeps hretains hanchors hsub
  have hrevision : d.gateRevision ≤ d₁.gateRevision + 1 := by
    rw [hswept.revision]
    exact Nat.le_succ _
  -- the gate revision moves first, then the entries
  refine triple_bind (R := fun _ s => s = { d₁ with gateRevision := d₁.gateRevision + 1 }) ?_ ?_
  · refine triple_write ?_
    rintro s rfl
    exact ⟨⟨hswept.found.reaches rfl hrevision, hswept.found.keepsAnchors⟩, rfl⟩
  · intro _
    refine triple_bind (R := fun _ s => s.entries = m₃) ?_ ?_
    · refine triple_write ?_
      rintro s rfl
      refine ⟨⟨⟨hkeeps, ?_, hrevision, ?_⟩, ?_⟩, rfl⟩
      · intro id e e' he he' hterminal
        obtain ⟨e₁, he₁, hfollows⟩ := hm.retains.get_some he
        have hstatus := hfollows.1.terminal hterminal
        rw [(hretains id e₁ e' he₁ he').1.terminal (hstatus ▸ hterminal), hstatus]
      · intro heq
        have hsame := hswept.revision
        dsimp only at heq
        omega
      · intro id e he hanchor
        obtain ⟨e₁, he₁, hretains₁⟩ := hm.retains.get_some he
        obtain ⟨e₂, he₂, hretains₂⟩ := hanchors id e₁ he₁ (hretains₁.anchors.trans hanchor)
        exact ⟨e₂, he₂, hretains₁.trans hretains₂⟩
    · intro _
      refine triple_pure ?_
      intro s hs
      rw [hs]
      refine length_heldEntries_le hm.keeps hkeeps ?_ ?_ hsub
      · intro e he
        exact hexpired (e.id, e) (List.mem_map.2 ⟨e, he, rfl⟩)
      · intro id hnot
        refine hothers id fun hmem => hnot ?_
        simpa [List.map_map, Function.comp_def] using hmem

/-! ### The other operations -/

/-- Persisting entries that were only retained. -/
theorem triple_persist_retained {d₁ : Disk} {m m' : Entries} (hswept : Swept K d d₁)
    (hm : Found K d m) (hkeeps : m'.All K.entry) (hrel : m.Rel Retains m') :
    Triple (fun s => s = d₁) (persist m') (Reaches K d) (fun _ _ => True) := by
  have hfound : Found K d m' := ⟨hkeeps, Retains.rel_trans hm.retains hrel⟩
  refine triple_write ?_
  rintro s rfl
  exact ⟨hfound.reaches rfl hswept.revision.ge, trivial⟩

theorem triple_applyDecision {now : JsNumber} {input : IntakeQuarantineDecisionInput}
    (hd : d.Keeps K) :
    Triple (fun s => s = d) (applyDecision store now input) (Reaches K d) (fun _ _ => True) := by
  refine triple_check fun _ hreason => triple_check fun _ hactor => ?_
  have hreason : JsString.trim (JsString.trim input.reason) ≠ "" := by
    simpa [throwIf_eq_ok] using hreason
  have hactor : JsString.trim (JsString.trim input.actor) ≠ "" := by
    simpa [throwIf_eq_ok] using hactor
  refine triple_lockedSweep hd (fun s hs => hs.reaches) fun d₁ m hswept hm => ?_
  refine triple_check fun e hget => triple_check fun e' hdecide => ?_
  rw [orThrow_eq_ok] at hget
  obtain ⟨hid, he⟩ := hm.keeps input.id e hget
  obtain ⟨-, -, hfollows, hgate⟩ := decideEntry_spec (K.tracked e he) hdecide
  have hset := hm.keeps.set (K.decided _ _ _ _ e e' he hactor hreason hdecide) hfollows.id
  have hget : m.get e.id = some e := hid ▸ hget
  have hrevision : d.gateRevision ≤ d₁.gateRevision + 1 := by
    rw [hswept.revision]
    exact Nat.le_succ _
  cases hconsumable : isIntakeSinkConsumableState e'.envelope.state with
  | true =>
    -- a release moves the gate revision before it publishes the entry
    refine triple_bind (R := fun _ s => s = { d₁ with gateRevision := d₁.gateRevision + 1 }) ?_ ?_
    · refine triple_write ?_
      rintro s rfl
      exact ⟨hswept.found.reaches rfl hrevision, rfl⟩
    · intro _
      refine triple_bind (R := fun _ _ => True) ?_ fun _ => triple_pure fun _ _ => trivial
      refine triple_write ?_
      rintro s rfl
      refine ⟨reaches_of_follows hset
        (Retains.rel_follows hm.retains (JsMap.rel_set Follows.refl hget hfollows)) hrevision ?_,
        trivial⟩
      intro heq
      have hsame := hswept.revision
      dsimp only at heq
      omega
  | false =>
    refine triple_bind (R := fun _ _ => True) ?_ fun _ => triple_pure fun _ _ => trivial
    exact triple_persist_retained hswept hm hset
      (JsMap.rel_set Retains.refl hget ⟨hfollows, hgate hconsumable⟩)

theorem triple_recordRedelivery {input : IntakeQuarantineRedeliveryInput} (hd : d.Keeps K)
    (hkept : ∀ e, K.entry e → checkRedelivery input = .ok () →
      e.status = .releasedRaw ∨ e.status = .releasedSanitized →
        K.entry { e with redelivery := some (redeliveryRecord input) }) :
    Triple (fun s => s = d) (recordRedelivery store input) (Reaches K d) (fun _ _ => True) := by
  refine triple_check fun _ hcheck => triple_bind (triple_loadLocked hd _) ?_
  rintro m s ⟨rfl, hm⟩
  suffices hrest : Triple (fun t => t = s) _ (Reaches K s) (fun _ _ => True) from hrest s rfl
  refine triple_check fun e hget => triple_check fun _ hstatus => ?_
  rw [orThrow_eq_ok] at hget
  have hstatus : e.status = .releasedRaw ∨ e.status = .releasedSanitized := by
    rw [throwIf_eq_ok] at hstatus
    cases hs : e.status <;> simp_all
  obtain ⟨hid, he⟩ := hm.keeps input.id e hget
  refine triple_bind (R := fun _ _ => True) ?_ fun _ => triple_pure fun _ _ => trivial
  exact triple_persist_retained (Swept.refl hd) hm (hm.keeps.set (hkept e he hcheck hstatus) rfl)
    (JsMap.rel_set Retains.refl (hid ▸ hget) (redeliver_retains input e))

theorem triple_recordAccessAttempts {now : JsNumber}
    {inputs : List IntakeQuarantineAccessAttemptInput} (hd : d.Keeps K)
    (hattempt : ∀ input ∈ inputs, ∀ p, normalizeAttempt now input = .ok p → K.attempt p.2) :
    Triple (fun s => s = d) (recordAccessAttempts store now inputs) (Reaches K d)
      (fun _ _ => True) := by
  unfold recordAccessAttempts
  split
  · exact triple_pure fun _ _ => trivial
  · refine triple_check fun attempts hattempts => ?_
    refine triple_lockedSweep hd (fun s hs => hs.reaches) fun d₁ m hswept hm => ?_
    refine triple_check fun _ _ => ?_
    obtain ⟨hkeeps, hrel⟩ := addAttempts_spec hm.keeps (mapM_forall hattempt hattempts)
    refine triple_bind (R := fun _ _ => True) ?_ fun _ => triple_pure fun _ _ => trivial
    exact triple_persist_retained hswept hm hkeeps hrel

theorem normalizeRequest_spec {cwd : String} {request : ArtifactAccessRequest}
    {r : String × List String × List String} (h : normalizeRequest cwd request = .ok r) :
    ∃ s, r.1 = JsString.trim s ∧ r.1 ≠ "" := by
  simp only [normalizeRequest, bind_eq_ok, throwIf_eq_ok] at h
  obtain ⟨_, hpath, _, -, _, -, hr⟩ := h
  obtain rfl := Except.ok.inj hr
  exact ⟨request.requestedPath, rfl, by simpa using hpath⟩

theorem triple_checkArtifactAccesses {fs : FileSystem} {now : JsNumber}
    {input : IntakeQuarantineArtifactAccessBatchInput} (hd : d.Keeps K)
    (hattempt : ∀ s, JsString.trim s ≠ "" → JsString.trim input.via ≠ "" →
      K.attempt { path := JsString.sliceTo (JsString.trim s) maxArtifactPathChars
                  via := JsString.sliceTo (JsString.trim input.via) maxAccessAttemptViaChars
                  atMs := input.atMs.getD now }) :
    Triple (fun s => s = d) (checkArtifactAccesses store fs now input) (Reaches K d)
      (fun _ _ => True) := by
  refine triple_check fun _ hvia => triple_check fun requests hrequests => ?_
  have hvia : JsString.trim input.via ≠ "" := by simpa [throwIf_eq_ok] using hvia
  have hpaths := mapM_forall (fun request _ r hr => normalizeRequest_spec hr) hrequests
  refine triple_lockedSweep hd (fun s hs => hs.reaches) fun d₁ m hswept hm => ?_
  refine triple_check fun found hfound => ?_
  have hfoundPaths : ∀ p ∈ found, ∃ s, p.1 = JsString.trim s ∧ p.1 ≠ "" := by
    refine mapM_forall ?_ hfound
    intro request hrequest p hp
    rw [bind_eq_ok] at hp
    obtain ⟨entry, -, hr⟩ := hp
    obtain rfl := Except.ok.inj hr
    exact hpaths request hrequest
  -- every recorded attempt carries a path and a seam that are not blank
  have hattempts : ∀ p ∈ deniedAttempts (JsString.trim input.via) (input.atMs.getD now) found,
      K.attempt p.2 := by
    intro p hp
    obtain ⟨⟨path, matched⟩, hmem, hp⟩ := List.mem_filterMap.1 hp
    obtain ⟨s, hs, hne⟩ := hfoundPaths _ hmem
    dsimp only at hp hs hne
    subst hs
    split at hp
    · split at hp
      · cases hp
      · obtain rfl := Option.some.inj hp
        exact hattempt s hne hvia
    · cases hp
  obtain ⟨hkeeps, hrel⟩ := addAttempts_spec hm.keeps hattempts
  dsimp only
  split
  · exact triple_get fun _ _ => triple_pure fun _ _ => trivial
  · refine triple_bind (R := fun _ _ => True) (triple_persist_retained hswept hm hkeeps hrel) ?_
    exact fun _ => triple_get fun _ _ => triple_pure fun _ _ => trivial

theorem triple_lazySweep {atMs : JsNumber} (hd : d.Keeps K) :
    Triple (fun s => s = d) (lazySweep store atMs) (Reaches K d) (fun _ _ => True) := by
  refine triple_bind (triple_loadLocked hd _) fun m => triple_and fun hm => ?_
  exact triple_post (triple_written (triple_sweepExpired hd hm atMs) fun _ hs => hs.reaches)
    fun _ _ _ => trivial

end Programs

end Psfn.Intake
