import Mathlib.Data.List.Induction
import Psfn.Disclosure.Merge

/-!
# Outbound disclosure — the fold against its specification

`SourcesAllow` says, on the contributions themselves, when a destination may be
written to: every source is classified, permits the destination by its own list, was
admitted under the room's current epoch, and the most sensitive one is within the
ceiling. The code never looks at that list again; it keeps one lineage.

`Represents` is the invariant that ties the two: what a lineage answers about
permissions, epochs, sensitivity and classification is what all its sources answer
together.

* `Represents.accumulate` — one more source keeps the invariant;
* `represents_fold` — so every fold of a non-empty list has it;
* `assess_fold_iff` — the verdict, with the one room the representation loses: the
  canonical `channelEpochs` object cannot hold the key `__proto__`.
-/

namespace Psfn.Disclosure

open Psfn.Lib

/-! ## Specification -/

/-- What the admitted sources, taken one by one, say about `d`. -/
structure SourcesAllow (cs : List DisclosureSourceContribution) (d : DisclosureDestination) :
    Prop where
  classified : ∀ c ∈ cs, c.classified = true
  permitted  : ∀ c ∈ cs, destinationPermitted c.permittedDestinations d = true
  epoch      : ∀ channelId e, d.trackedRoom = some (channelId, e) → ∀ c ∈ cs, ∃ own,
    (mergeSourceEpochs c.permittedDestinations d.kind).get channelId = some own ∧
      own.strictEq e = true
  ceiling    : sensitivityOrd (maxSensitivity (cs.map (·.sensitivity))) ≤
    sensitivityOrd (destinationAutoShareableCeiling d.kind)

/-- A room with a tracked epoch whose channel id is `__proto__`. -/
def TrackedProtoRoom (d : DisclosureDestination) : Prop :=
  ∃ e, d.trackedRoom = some ("__proto__", e)

/-! ## Sensitivity -/

theorem maxSensitivity_append {l : List SensitivityLevel} (hl : l ≠ []) (x : SensitivityLevel) :
    maxSensitivity (l ++ [x]) = maxSensitivity [maxSensitivity l, x] := by
  cases l with
  | nil => exact absurd rfl hl
  | cons a rest =>
    simp only [maxSensitivity, List.cons_append, List.foldl_cons, List.foldl_append,
      List.foldl_nil, gt_iff_lt, lt_irrefl, if_false]

theorem maxSensitivity_le_iff {l : List SensitivityLevel} (hl : l ≠ []) (n : Nat) :
    sensitivityOrd (maxSensitivity l) ≤ n ↔ ∀ x ∈ l, sensitivityOrd x ≤ n := by
  have hfold : ∀ (l : List SensitivityLevel) (a : SensitivityLevel),
      sensitivityOrd (l.foldl (fun highest level =>
        if sensitivityOrd level > sensitivityOrd highest then level else highest) a) ≤ n ↔
      sensitivityOrd a ≤ n ∧ ∀ x ∈ l, sensitivityOrd x ≤ n := by
    intro l
    induction l with
    | nil => simp
    | cons x rest ih =>
      intro a
      rw [List.foldl_cons, ih, List.forall_mem_cons, ← and_assoc]
      apply and_congr_left
      intro _
      split <;> omega
  cases l with
  | nil => exact absurd rfl hl
  | cons a rest =>
    rw [maxSensitivity, hfold]
    simp

/-! ## The representation invariant -/

/-- `L` answers for the sources `cs`. Epochs are compared only where the id gate is
open: a constraint carries no epoch for an id it does not permit. -/
structure Represents (L : DisclosureLineage) (cs : List DisclosureSourceContribution) : Prop where
  count        : L.sourceCount = cs.length
  unclassified : L.hasUnclassifiedSource = cs.any fun c => !c.classified
  sensitivity  : L.effectiveSensitivity = maxSensitivity (cs.map (·.sensitivity))
  permitted    : ∀ k target, idPermitted (mergeSourceIds L.permittedDestinations k) target =
    cs.all fun c => idPermitted (mergeSourceIds c.permittedDestinations k) target
  scopedIds    : ScopedIds L.permittedDestinations
  epochs       : ∀ k, disclosureKindIdField k = some .channelId → ∀ id,
    idPermitted (mergeSourceIds L.permittedDestinations k) (some id) = true → ∀ e,
      ((mergeSourceEpochs L.permittedDestinations k).get id = some e ↔
        id ≠ "__proto__" ∧ ∀ c ∈ cs, (mergeSourceEpochs c.permittedDestinations k).get id = some e)

variable {cs : List DisclosureSourceContribution}

section Fold

variable {localeCompare : String → String → Int}

/-- The first source fixes the running list. -/
theorem represents_first (context : GenerationDisclosureContext) (c : DisclosureSourceContribution)
    (hc : ScopedIds c.permittedDestinations) :
    Represents (accumulateDisclosureSource localeCompare (beginDisclosureAccumulation context) c)
      [c] where
  count := rfl
  unclassified := by simp [accumulateDisclosureSource, beginDisclosureAccumulation]
  sensitivity := by
    simp [accumulateDisclosureSource, beginDisclosureAccumulation, maxSensitivity]
  permitted k target := by
    simp [accumulateDisclosureSource, beginDisclosureAccumulation, idPermitted_normalize]
  scopedIds := hc.normalize
  epochs k hk id hid e := by
    have hid' : idPermitted (mergeSourceIds c.permittedDestinations k) (some id) = true := by
      rw [← idPermitted_normalize localeCompare]
      exact hid
    obtain ⟨l, hl, hmem⟩ := exists_ids_of_idPermitted hc (by simp [hk]) hid'
    show (mergeSourceEpochs (normalizeConstraints localeCompare c.permittedDestinations) k).get id =
      some e ↔ _
    rw [epoch_normalize hk hl hmem]
    by_cases hp : id = "__proto__" <;> simp [hp]

/-- Every later source is intersected in. -/
theorem Represents.accumulate {L : DisclosureLineage} (h : Represents L cs) (hne : cs ≠ [])
    (c : DisclosureSourceContribution) (hc : ScopedIds c.permittedDestinations) :
    Represents (accumulateDisclosureSource localeCompare L c) (cs ++ [c]) := by
  have hcount : L.sourceCount ≠ 0 := by
    rw [h.count]
    exact fun hz => hne (List.length_eq_zero_iff.mp hz)
  have hlist : (accumulateDisclosureSource localeCompare L c).permittedDestinations =
      intersectDestinationConstraints localeCompare L.permittedDestinations
        c.permittedDestinations := by
    simp [accumulateDisclosureSource, hcount]
  have hpermitted : ∀ k target, idPermitted (mergeSourceIds
      (accumulateDisclosureSource localeCompare L c).permittedDestinations k) target =
      (idPermitted (mergeSourceIds L.permittedDestinations k) target &&
        idPermitted (mergeSourceIds c.permittedDestinations k) target) := by
    intro k target
    rw [hlist, idPermitted_intersect]
  refine ⟨?_, ?_, ?_, ?_, ?_, ?_⟩
  · simp [accumulateDisclosureSource, h.count]
  · simp [accumulateDisclosureSource, h.unclassified]
  · have hmap : cs.map (·.sensitivity) ≠ [] := by simpa using hne
    rw [List.map_append, List.map_singleton, maxSensitivity_append hmap, ← h.sensitivity]
    simp [accumulateDisclosureSource, hcount]
  · intro k target
    rw [hpermitted, h.permitted]
    simp
  · rw [hlist]
    exact h.scopedIds.intersect hc
  · intro k hk id hid e
    have hfield : disclosureKindIdField k ≠ none := by simp [hk]
    rw [hpermitted, Bool.and_eq_true] at hid
    obtain ⟨la, hla, hma⟩ := exists_ids_of_idPermitted h.scopedIds hfield hid.1
    obtain ⟨lb, hlb, hmb⟩ := exists_ids_of_idPermitted hc hfield hid.2
    rw [hlist, epoch_intersect hk hla hlb hma hmb, h.epochs k hk id hid.1]
    simp only [List.mem_append, List.mem_singleton, or_imp, forall_and, forall_eq]
    tauto

/-- **Run lemma.** Every fold of a non-empty list of scoped sources represents it. -/
theorem represents_fold (context : GenerationDisclosureContext)
    (cs : List DisclosureSourceContribution) (hne : cs ≠ [])
    (hscoped : ∀ c ∈ cs, ScopedIds c.permittedDestinations) :
    Represents (foldDisclosureSources localeCompare context cs) cs := by
  -- the induction peels the last source: the invariant is about the prefix folded so far
  induction cs using List.reverseRecOn with
  | nil => exact absurd rfl hne
  | append_singleton pre c ih =>
    have hc : ScopedIds c.permittedDestinations := hscoped c (by simp)
    rw [foldDisclosureSources, List.foldl_append, List.foldl_cons, List.foldl_nil]
    by_cases hpre : pre = []
    · subst hpre
      exact represents_first context c hc
    · exact (ih hpre fun x hx => hscoped x (by simp [hx])).accumulate hpre c hc

end Fold

/-! ## The verdict -/

variable {d : DisclosureDestination}

theorem assessDisclosure_allowed_iff (hd : d.kind ≠ .companionSelf) (L : DisclosureLineage) :
    (assessDisclosure (some L) d).allowed = true ↔
      L.sourceCount ≠ 0 ∧ L.hasUnclassifiedSource = false ∧
      destinationPermitted L.permittedDestinations d = true ∧
      destinationEpochEligible L.permittedDestinations d = true ∧
      sensitivityOrd L.effectiveSensitivity ≤
        sensitivityOrd (destinationAutoShareableCeiling d.kind) := by
  simp only [assessDisclosure, hd, if_false]
  by_cases h₁ : L.sourceCount = 0
  · simp [h₁]
  by_cases h₂ : L.hasUnclassifiedSource = true
  · simp [h₁, h₂]
  by_cases h₃ : destinationPermitted L.permittedDestinations d = true
  · by_cases h₄ : destinationEpochEligible L.permittedDestinations d = true
    · by_cases h₅ : sensitivityOrd L.effectiveSensitivity ≤
          sensitivityOrd (destinationAutoShareableCeiling d.kind)
      · simp [h₁, h₂, h₃, h₄, h₅, Nat.not_lt.mpr h₅]
      · simp [h₁, h₂, h₃, h₄, h₅, Nat.not_le.mp h₅]
    · simp [h₁, h₂, h₃, h₄]
  · simp [h₁, h₂, h₃]

variable {e : JsNumber}

/-- Own-epoch equality, as `===` and as a lookup. -/
theorem exists_strictEq_iff {m : JsMap String JsNumber} {id : String} :
    (∃ own, m.get id = some own ∧ own.strictEq e = true) ↔ e ≠ .nan ∧ m.get id = some e := by
  constructor
  · rintro ⟨own, hget, heq⟩
    obtain ⟨rfl, hnan⟩ := JsNumber.strictEq_iff.mp heq
    exact ⟨hnan, hget⟩
  · rintro ⟨hnan, hget⟩
    exact ⟨e, hget, JsNumber.strictEq_iff.mpr ⟨rfl, hnan⟩⟩

theorem destinationEpochEligible_of_untracked (cs : List DisclosureDestinationConstraint)
    (hroom : d.trackedRoom = none) :
    destinationEpochEligible cs d = true := by
  simp [destinationEpochEligible, hroom]

theorem destinationEpochEligible_iff (cs : List DisclosureDestinationConstraint)
    {channelId : String} (hroom : d.trackedRoom = some (channelId, e)) :
    destinationEpochEligible cs d = true ↔
      e ≠ .nan ∧ (mergeSourceEpochs cs d.kind).get channelId = some e := by
  rw [← exists_strictEq_iff]
  simp only [destinationEpochEligible, hroom]
  cases (mergeSourceEpochs cs d.kind).get channelId <;> simp

theorem trackedRoom_spec {channelId : String} (h : d.trackedRoom = some (channelId, e)) :
    disclosureKindIdField d.kind = some .channelId ∧ d.targetId = some channelId := by
  cases d with
  | inviteOnlyRoom id ep => cases ep <;> simp_all [DisclosureDestination.trackedRoom,
      DisclosureDestination.kind, DisclosureDestination.targetId, disclosureKindIdField]
  | publicRoom id ep => cases ep <;> simp_all [DisclosureDestination.trackedRoom,
      DisclosureDestination.kind, DisclosureDestination.targetId, disclosureKindIdField]
  | companionSelf => simp [DisclosureDestination.trackedRoom] at h
  | contactDm id => simp [DisclosureDestination.trackedRoom] at h
  | publication => simp [DisclosureDestination.trackedRoom] at h

/-- A lineage that represents its sources decides as they do, except that it knows no
epoch for a room called `__proto__`. -/
theorem Represents.assess_iff {L : DisclosureLineage} (h : Represents L cs) (hne : cs ≠ [])
    (hd : d.kind ≠ .companionSelf) :
    (assessDisclosure (some L) d).allowed = true ↔ SourcesAllow cs d ∧ ¬ TrackedProtoRoom d := by
  have hcount : L.sourceCount ≠ 0 := by
    rw [h.count]
    exact fun hz => hne (List.length_eq_zero_iff.mp hz)
  have hclass : L.hasUnclassifiedSource = false ↔ ∀ c ∈ cs, c.classified = true := by
    rw [h.unclassified, List.any_eq_false]
    simp
  have hperm : destinationPermitted L.permittedDestinations d = true ↔
      ∀ c ∈ cs, destinationPermitted c.permittedDestinations d = true := by
    rw [destinationPermitted_eq hd, h.permitted, List.all_eq_true]
    simp only [destinationPermitted_eq hd]
  -- the epoch gate is only read when the id gate is open, which is what `epochs` needs
  have hepoch : destinationPermitted L.permittedDestinations d = true →
      (destinationEpochEligible L.permittedDestinations d = true ↔
        (∀ channelId e, d.trackedRoom = some (channelId, e) → ∀ c ∈ cs, ∃ own,
          (mergeSourceEpochs c.permittedDestinations d.kind).get channelId = some own ∧
            own.strictEq e = true) ∧ ¬ TrackedProtoRoom d) := by
    intro hopen
    simp only [exists_strictEq_iff]
    cases hroom : d.trackedRoom with
    | none => simp [TrackedProtoRoom, hroom, destinationEpochEligible_of_untracked _ hroom]
    | some room =>
      obtain ⟨channelId, e⟩ := room
      obtain ⟨hk, htarget⟩ := trackedRoom_spec hroom
      rw [destinationPermitted_eq hd, htarget] at hopen
      obtain ⟨c₀, hc₀⟩ := List.exists_mem_of_ne_nil cs hne
      rw [destinationEpochEligible_iff _ hroom, h.epochs d.kind hk channelId hopen e,
        TrackedProtoRoom, hroom]
      constructor
      · rintro ⟨hnan, hproto, hall⟩
        constructor
        · intro channelId' e' heq c hc
          obtain ⟨rfl, rfl⟩ := Prod.mk.inj (Option.some.inj heq)
          exact ⟨hnan, hall c hc⟩
        · rintro ⟨e', he'⟩
          exact hproto (Prod.mk.inj (Option.some.inj he')).1
      · rintro ⟨hall, hproto⟩
        refine ⟨(hall channelId e rfl c₀ hc₀).1, ?_, fun c hc => (hall channelId e rfl c hc).2⟩
        rintro rfl
        exact hproto ⟨e, rfl⟩
  rw [assessDisclosure_allowed_iff hd, hclass, h.sensitivity]
  constructor
  · rintro ⟨-, hc, hp, he, hs⟩
    obtain ⟨hown, hproto⟩ := (hepoch hp).mp he
    exact ⟨⟨hc, hperm.mp hp, hown, hs⟩, hproto⟩
  · rintro ⟨⟨hc, hp, hown, hs⟩, hproto⟩
    exact ⟨hcount, hc, hperm.mpr hp, (hepoch (hperm.mpr hp)).mpr ⟨hown, hproto⟩, hs⟩

/-- The specification reads the list as a set. -/
theorem SourcesAllow.perm {cs' : List DisclosureSourceContribution} (hp : cs.Perm cs')
    (hne : cs ≠ []) (h : SourcesAllow cs d) : SourcesAllow cs' d where
  classified c hc := h.classified c (hp.mem_iff.mpr hc)
  permitted c hc := h.permitted c (hp.mem_iff.mpr hc)
  epoch channelId e hroom c hc := h.epoch channelId e hroom c (hp.mem_iff.mpr hc)
  ceiling := by
    have hne' : cs' ≠ [] := fun h' => hne (hp.trans (h' ▸ List.Perm.refl _)).eq_nil
    have hle := (maxSensitivity_le_iff (by simpa using hne) _).mp h.ceiling
    rw [maxSensitivity_le_iff (by simpa using hne')]
    intro x hx
    exact hle x ((hp.map _).mem_iff.mpr hx)

theorem sourcesAllow_perm_iff {cs' : List DisclosureSourceContribution} (hp : cs.Perm cs')
    (hne : cs ≠ []) (d : DisclosureDestination) : SourcesAllow cs d ↔ SourcesAllow cs' d := by
  have hne' : cs' ≠ [] := fun h' => hne (hp.trans (h' ▸ List.Perm.refl _)).eq_nil
  exact ⟨fun h => h.perm hp hne, fun h => h.perm hp.symm hne'⟩

section Verdict

variable (localeCompare : String → String → Int) (context : GenerationDisclosureContext)

theorem assess_fold_iff (hne : cs ≠ []) {seam : String}
    (hscoped : ∀ c ∈ cs, assertScopedDisclosureConstraints seam c.permittedDestinations = .ok ())
    (hd : d.kind ≠ .companionSelf) :
    (assessDisclosure (some (foldDisclosureSources localeCompare context cs)) d).allowed = true ↔
      SourcesAllow cs d ∧ ¬ TrackedProtoRoom d :=
  (represents_fold context cs hne fun c hc => scopedIds_of_assert (hscoped c hc)).assess_iff hne hd

/-- **The fold meets its specification, exactly up to the key `__proto__`.** For every
non-empty list of scoped sources and every outward destination, the verdict is the
one the sources give and does not depend on their order — unless the destination is an
epoch-tracked room called `__proto__` that the sources do allow. -/
theorem fold_verdict_eq_spec_iff {cs : List DisclosureSourceContribution} (hne : cs ≠ [])
    {seam : String}
    (hscoped : ∀ c ∈ cs, assertScopedDisclosureConstraints seam c.permittedDestinations = .ok ())
    {d : DisclosureDestination} (hd : d.kind ≠ .companionSelf) :
    (((assessDisclosure (some (foldDisclosureSources localeCompare context cs)) d).allowed = true ↔
        SourcesAllow cs d) ∧
      ∀ cs', cs.Perm cs' →
        (assessDisclosure (some (foldDisclosureSources localeCompare context cs')) d).allowed =
          (assessDisclosure (some (foldDisclosureSources localeCompare context cs)) d).allowed) ↔
    ¬ (TrackedProtoRoom d ∧ SourcesAllow cs d) := by
  rw [assess_fold_iff localeCompare context hne hscoped hd]
  constructor
  · rintro ⟨hiff, -⟩ ⟨hproto, hallow⟩
    exact (hiff.mpr hallow).2 hproto
  · intro hcond
    refine ⟨⟨And.left, fun hallow => ⟨hallow, fun hproto => hcond ⟨hproto, hallow⟩⟩⟩, ?_⟩
    intro cs' hp
    have hne' : cs' ≠ [] := fun h' => hne (hp.trans (h' ▸ List.Perm.refl _)).eq_nil
    have hscoped' : ∀ c ∈ cs',
        assertScopedDisclosureConstraints seam c.permittedDestinations = .ok () :=
      fun c hc => hscoped c (hp.mem_iff.mpr hc)
    rw [Bool.eq_iff_iff, assess_fold_iff localeCompare context hne' hscoped' hd,
      assess_fold_iff localeCompare context hne hscoped hd, sourcesAllow_perm_iff hp hne d]

end Verdict

/-! ## The room the representation loses -/

/-- One public source admitted to a public room under epoch `1`. -/
def roomSource (channelId : String) : DisclosureSourceContribution where
  ref := "memory:1"
  sensitivity := .«public»
  permittedDestinations :=
    [{ kind := .publicRoom
       channelIds := some [channelId]
       channelEpochs := some ⟨[(channelId, .finite 1)], List.nodup_singleton _⟩ }]
  classified := true

def sampleContext : GenerationDisclosureContext where
  generationContextRef := "gen"
  classifierVersion := "v1"
  classifiedAt := "2026-01-01T00:00:00.000Z"

/-- The collation of code points, enough to run the fold. -/
def codePointCompare (a b : String) : Int :=
  if a < b then -1 else if a = b then 0 else 1

theorem sourcesAllow_roomSource (channelId : String) :
    SourcesAllow [roomSource channelId] (.publicRoom channelId (some (.finite 1))) where
  classified := by simp [roomSource]
  permitted := by
    simp [roomSource, destinationPermitted, mergeSourceIds, DisclosureDestination.kind,
      disclosureKindIdField, mergeScopedIds, constraintChannelOrContactIds,
      DisclosureDestination.targetId]
  epoch := by
    rintro id e hroom c hc
    rw [List.mem_singleton] at hc
    obtain ⟨rfl, rfl⟩ : id = channelId ∧ e = .finite 1 := by
      simpa [DisclosureDestination.trackedRoom, eq_comm] using hroom
    subst hc
    refine ⟨.finite 1, ?_, by decide⟩
    simp [roomSource, mergeSourceEpochs, DisclosureDestination.kind, disclosureKindIdField,
      mergeConstraintEpochs, mergeEpochEntry, JsNumber.isFinite]
  ceiling := by
    simp [roomSource, maxSensitivity, sensitivityOrd]

theorem assertScoped_roomSource (channelId : String) :
    ∀ c ∈ [roomSource channelId],
      assertScopedDisclosureConstraints "seam" c.permittedDestinations = .ok () := by
  intro c hc
  rw [List.mem_singleton] at hc
  subst hc
  rfl

/-- Any other room is decided as the source says. -/
theorem fold_verdict_generalRoom :
    ([roomSource "general"] ≠ [] ∧
      ∀ c ∈ [roomSource "general"],
        assertScopedDisclosureConstraints "seam" c.permittedDestinations = .ok ()) ∧
    (assessDisclosure (some (foldDisclosureSources codePointCompare sampleContext
      [roomSource "general"])) (.publicRoom "general" (some (.finite 1)))).allowed = true := by
  have hiff := (fold_verdict_eq_spec_iff codePointCompare sampleContext
    (by simp) (assertScoped_roomSource "general")
    (d := .publicRoom "general" (some (.finite 1))) (by decide)).mpr
    (by simp [TrackedProtoRoom, DisclosureDestination.trackedRoom])
  exact ⟨⟨by simp, assertScoped_roomSource "general"⟩,
    hiff.1.mpr (sourcesAllow_roomSource "general")⟩

/-- The same source under the id `__proto__`, folded and assessed: the epoch is gone. -/
theorem fold_verdict_protoRoom :
    SourcesAllow [roomSource "__proto__"] (.publicRoom "__proto__" (some (.finite 1))) ∧
    (∀ c ∈ [roomSource "__proto__"],
      assertScopedDisclosureConstraints "seam" c.permittedDestinations = .ok ()) ∧
    (assessDisclosure (some (foldDisclosureSources codePointCompare sampleContext
      [roomSource "__proto__"])) (.publicRoom "__proto__" (some (.finite 1)))).allowed = false := by
  exact ⟨sourcesAllow_roomSource _, assertScoped_roomSource _, by decide +kernel⟩

end Psfn.Disclosure
