import Psfn.Disclosure.Definitions

/-!
# Outbound disclosure — what merging and intersecting preserve

A permission list is only ever looked at through two functions: the merged id set of
a kind (`mergeSourceIds`) and the merged admitted epochs of a room kind
(`mergeSourceEpochs`). This module computes both for the canonical lists that
`normalizeConstraints` and `intersectDestinationConstraints` build:

* `idPermitted_normalize`, `idPermitted_intersect` — normalising loses and gains no
  permission, and an intersection permits an id exactly when both sides do;
* `epoch_normalize`, `epoch_intersect` — the admitted epoch of a surviving room is
  kept, and survives an intersection exactly when both sides record it and agree —
  except under the id `__proto__`, which a plain object cannot hold.

No list has to be well scoped for the first pair. The second pair needs a concrete
id set: an unrestricted constraint carries no epochs.
-/

namespace Psfn.Disclosure

open Psfn.Lib

/-! ## The id gate as a function of the merged id set -/

/-- The kind/id gate, on the merged id set of the destination's kind. -/
def idPermitted (ids : Option IdSet) (target : Option String) : Bool :=
  match ids with
  | none => false
  | some .unrestricted => true
  | some (.ids l) =>
    match target with
    | none => false
    | some id => decide (id ∈ l)

theorem destinationPermitted_eq {d : DisclosureDestination} (hd : d.kind ≠ .companionSelf)
    (cs : List DisclosureDestinationConstraint) :
    destinationPermitted cs d = idPermitted (mergeSourceIds cs d.kind) d.targetId := by
  rw [destinationPermitted, if_neg hd]
  rfl

theorem idPermitted_congr {l l' : List String} (h : ∀ id, id ∈ l ↔ id ∈ l')
    (target : Option String) :
    idPermitted (some (.ids l)) target = idPermitted (some (.ids l')) target := by
  cases target with
  | none => rfl
  | some id => simp [idPermitted, h id]

/-! ## Canonical lists: one constraint per kind -/

theorem mem_disclosureDestinationKinds (k : DisclosureDestinationKind) :
    k ∈ disclosureDestinationKinds := by
  cases k <;> decide

theorem nodup_disclosureDestinationKinds : disclosureDestinationKinds.Nodup := by
  decide

/-- In a list built kind by kind, the constraints of one kind are the one built for it. -/
theorem filter_kind_filterMap {f : DisclosureDestinationKind → Option DisclosureDestinationConstraint}
    (hf : ∀ k c, f k = some c → c.kind = k) (k : DisclosureDestinationKind) :
    (disclosureDestinationKinds.filterMap f).filter (fun c => c.kind = k) = (f k).toList := by
  have hgen : ∀ ks : List DisclosureDestinationKind, ks.Nodup →
      (ks.filterMap f).filter (fun c => c.kind = k) = if k ∈ ks then (f k).toList else [] := by
    intro ks
    induction ks with
    | nil => simp
    | cons k₀ ks ih =>
      intro hnd
      rw [List.nodup_cons] at hnd
      have ih' := ih hnd.2
      cases hk₀ : f k₀ with
      | none =>
        rw [List.filterMap_cons_none hk₀, ih']
        by_cases hk : k = k₀
        · subst hk
          simp [hk₀]
        · simp [hk]
      | some c =>
        have hc : c.kind = k₀ := hf k₀ c hk₀
        rw [List.filterMap_cons_some hk₀, List.filter_cons, ih']
        by_cases hk : k = k₀
        · subst hk
          simp [hc, hk₀, hnd.1]
        · have hck : ¬ c.kind = k := by
            rw [hc]
            exact Ne.symm hk
          simp [hck, hk]
  rw [hgen _ nodup_disclosureDestinationKinds, if_pos (mem_disclosureDestinationKinds k)]

variable {cs : List DisclosureDestinationConstraint} {k : DisclosureDestinationKind}

theorem mergeSourceIds_eq_of_filter {cs' : List DisclosureDestinationConstraint}
    (h : cs.filter (fun c => c.kind = k) = cs'.filter (fun c => c.kind = k)) :
    mergeSourceIds cs k = mergeSourceIds cs' k := by
  simp only [mergeSourceIds, h]

@[simp] theorem mergeSourceIds_nil (k : DisclosureDestinationKind) : mergeSourceIds [] k = none := rfl

theorem buildConstraint_kind (cmp : String → String → Int) (k : DisclosureDestinationKind)
    (ids : IdSet) (epochs : JsMap String JsNumber) : (buildConstraint cmp k ids epochs).kind = k := by
  unfold buildConstraint
  split <;> try rfl
  dsimp only
  split
  · split <;> rfl
  · rfl

variable {id : String}

theorem mem_sortIds {cmp : String → String → Int} {l : List String} :
    id ∈ sortIds cmp l ↔ id ∈ l :=
  List.mem_mergeSort

theorem mem_insertIds (l acc : List String) :
    id ∈ l.foldl (fun ids id => if id ∈ ids then ids else ids ++ [id]) acc ↔ id ∈ acc ∨ id ∈ l := by
  induction l generalizing acc with
  | nil => simp
  | cons x rest ih =>
    rw [List.foldl_cons, ih]
    by_cases hx : x ∈ acc
    · rw [if_pos hx, List.mem_cons]
      constructor
      · rintro (h | h)
        · exact Or.inl h
        · exact Or.inr (Or.inr h)
      · rintro (h | rfl | h)
        · exact Or.inl h
        · exact Or.inl hx
        · exact Or.inr h
    · rw [if_neg hx, List.mem_append, List.mem_singleton, List.mem_cons, or_assoc]

/-- The id list a canonical constraint of an id-bearing kind carries. -/
theorem constraintIds_buildConstraint {cmp : String → String → Int}
    (hk : disclosureKindIdField k ≠ none) (l : List String) (epochs : JsMap String JsNumber) :
    constraintChannelOrContactIds (buildConstraint cmp k (.ids l) epochs) =
      some (sortIds cmp l) := by
  rw [constraintChannelOrContactIds, buildConstraint_kind]
  cases hfield : disclosureKindIdField k with
  | none => exact absurd hfield hk
  | some field =>
    cases field with
    | contactId => simp [buildConstraint, hfield]
    | channelId =>
      simp only [buildConstraint, hfield]
      split
      · split <;> rfl
      · rfl

theorem buildConstraint_unrestricted (cmp : String → String → Int) (k : DisclosureDestinationKind)
    (epochs : JsMap String JsNumber) : buildConstraint cmp k .unrestricted epochs = { kind := k } := by
  unfold buildConstraint
  cases disclosureKindIdField k with
  | none => rfl
  | some field => cases field <;> rfl

/-- Merging the one canonical constraint of a kind gives back its id set, as a set. -/
theorem idPermitted_buildConstraint {cmp : String → String → Int} {ids : IdSet}
    (hids : disclosureKindIdField k = none → ids = .unrestricted) (epochs : JsMap String JsNumber)
    (target : Option String) :
    idPermitted (mergeSourceIds [buildConstraint cmp k ids epochs] k) target =
      idPermitted (some ids) target := by
  have hfilter : [buildConstraint cmp k ids epochs].filter (fun c => c.kind = k) =
      [buildConstraint cmp k ids epochs] := by
    simp [buildConstraint_kind]
  by_cases hk : disclosureKindIdField k = none
  · rw [mergeSourceIds, hfilter, hids hk]
    simp [hk]
  · cases ids with
    | unrestricted =>
      have hnone : constraintChannelOrContactIds { kind := k } = none := by
        unfold constraintChannelOrContactIds
        cases disclosureKindIdField k with
        | none => rfl
        | some field => cases field <;> rfl
      rw [mergeSourceIds, hfilter, buildConstraint_unrestricted]
      simp [hk, mergeScopedIds, hnone]
    | ids l =>
      rw [mergeSourceIds, hfilter]
      simp only [List.isEmpty_cons, Bool.false_eq_true, if_false, hk, mergeScopedIds,
        constraintIds_buildConstraint hk]
      apply idPermitted_congr
      intro id
      rw [mem_insertIds, mem_sortIds]
      simp

/-- An id-free kind is merged to the unrestricted set. -/
theorem mergeSourceIds_of_idFree (hk : disclosureKindIdField k = none) {ids : IdSet}
    (h : mergeSourceIds cs k = some ids) :
    ids = .unrestricted := by
  simp only [mergeSourceIds] at h
  split at h
  · exact absurd h (by simp)
  · simpa [hk] using h.symm

/-! ## Permissions under normalisation and intersection -/

theorem normalizeKind_kind {cmp : String → String → Int} (k : DisclosureDestinationKind)
    (c : DisclosureDestinationConstraint) (h : normalizeKind cmp cs k = some c) : c.kind = k := by
  rw [normalizeKind, Option.map_eq_some_iff] at h
  obtain ⟨ids, -, rfl⟩ := h
  exact buildConstraint_kind ..

theorem mergeSourceIds_normalize (cmp : String → String → Int)
    (cs : List DisclosureDestinationConstraint) (k : DisclosureDestinationKind) :
    mergeSourceIds (normalizeConstraints cmp cs) k =
      mergeSourceIds (normalizeKind cmp cs k).toList k := by
  apply mergeSourceIds_eq_of_filter
  rw [normalizeConstraints, filter_kind_filterMap normalizeKind_kind]
  cases h : normalizeKind cmp cs k with
  | none => simp
  | some c => simp [normalizeKind_kind k c h]

theorem idPermitted_normalize (cmp : String → String → Int)
    (cs : List DisclosureDestinationConstraint) (k : DisclosureDestinationKind)
    (target : Option String) :
    idPermitted (mergeSourceIds (normalizeConstraints cmp cs) k) target =
      idPermitted (mergeSourceIds cs k) target := by
  rw [mergeSourceIds_normalize, normalizeKind]
  cases h : mergeSourceIds cs k with
  | none => simp
  | some ids =>
    exact idPermitted_buildConstraint (fun hk => mergeSourceIds_of_idFree hk h) _ _

theorem idPermitted_intersectIdSets (a b : IdSet) (target : Option String) :
    idPermitted (some (intersectIdSets a b)) target =
      (idPermitted (some a) target && idPermitted (some b) target) := by
  cases a <;> cases b <;> cases target <;> simp [intersectIdSets, idPermitted]

theorem idPermitted_empty (target : Option String) : idPermitted (some (.ids [])) target = false := by
  cases target <;> simp [idPermitted]

/-- What the loop of `intersectDestinationConstraints` does for one kind. -/
theorem intersectKind_cases (cmp : String → String → Int)
    (l r : List DisclosureDestinationConstraint) (k : DisclosureDestinationKind) :
    (intersectKind cmp l r k = none ∧
      ∀ target, (idPermitted (mergeSourceIds l k) target &&
        idPermitted (mergeSourceIds r k) target) = false) ∨
    (∃ a b, mergeSourceIds l k = some a ∧ mergeSourceIds r k = some b ∧
      intersectKind cmp l r k = some (buildConstraint cmp k (intersectIdSets a b)
        (intersectEpochs (mergeSourceEpochs l k) (mergeSourceEpochs r k)
          (intersectIdSets a b)))) := by
  cases hl : mergeSourceIds l k with
  | none =>
    left
    simp [intersectKind, hl, idPermitted]
  | some a =>
    cases hr : mergeSourceIds r k with
    | none =>
      left
      simp [intersectKind, hl, hr, idPermitted]
    | some b =>
      by_cases he : intersectIdSets a b = .ids []
      · left
        refine ⟨by simp [intersectKind, hl, hr, he], fun target => ?_⟩
        rw [← idPermitted_intersectIdSets, he, idPermitted_empty]
      · right
        exact ⟨a, b, rfl, rfl, by simp [intersectKind, hl, hr, he]⟩

variable {l r : List DisclosureDestinationConstraint}

theorem intersectKind_kind {cmp : String → String → Int} (k : DisclosureDestinationKind)
    (c : DisclosureDestinationConstraint) (h : intersectKind cmp l r k = some c) : c.kind = k := by
  rcases intersectKind_cases cmp l r k with ⟨hnone, -⟩ | ⟨a, b, -, -, heq⟩
  · rw [hnone] at h
    exact absurd h (by simp)
  · rw [heq] at h
    obtain rfl := Option.some.inj h
    exact buildConstraint_kind ..

theorem filter_kind_intersect (cmp : String → String → Int)
    (l r : List DisclosureDestinationConstraint) (k : DisclosureDestinationKind) :
    (intersectDestinationConstraints cmp l r).filter (fun c => c.kind = k) =
      (intersectKind cmp l r k).toList.filter (fun c => c.kind = k) := by
  rw [intersectDestinationConstraints, filter_kind_filterMap intersectKind_kind]
  cases h : intersectKind cmp l r k with
  | none => simp
  | some c => simp [intersectKind_kind k c h]

theorem intersectIdSets_of_idFree (hk : disclosureKindIdField k = none) {a b : IdSet}
    (ha : mergeSourceIds l k = some a) (hb : mergeSourceIds r k = some b) :
    intersectIdSets a b = .unrestricted := by
  rw [mergeSourceIds_of_idFree hk ha, mergeSourceIds_of_idFree hk hb]
  rfl

theorem idPermitted_intersect (cmp : String → String → Int)
    (l r : List DisclosureDestinationConstraint) (k : DisclosureDestinationKind)
    (target : Option String) :
    idPermitted (mergeSourceIds (intersectDestinationConstraints cmp l r) k) target =
      (idPermitted (mergeSourceIds l k) target && idPermitted (mergeSourceIds r k) target) := by
  rw [mergeSourceIds_eq_of_filter (filter_kind_intersect cmp l r k)]
  rcases intersectKind_cases cmp l r k with ⟨hnone, hdeny⟩ | ⟨a, b, ha, hb, heq⟩
  · rw [hnone, hdeny]
    rfl
  · rw [heq, Option.toList_some,
      idPermitted_buildConstraint (fun hk => intersectIdSets_of_idFree hk ha hb),
      idPermitted_intersectIdSets, ha, hb]

/-! ## Scoped lists -/

/-- Every id-bearing kind the list names is restricted to concrete ids. -/
def ScopedIds (cs : List DisclosureDestinationConstraint) : Prop :=
  ∀ k, disclosureKindIdField k ≠ none → mergeSourceIds cs k ≠ some .unrestricted

theorem mergeScopedIds_ne_unrestricted (h : ∀ c ∈ cs, constraintChannelOrContactIds c ≠ none)
    (acc : List String) :
    mergeScopedIds acc cs ≠ .unrestricted := by
  induction cs generalizing acc with
  | nil => simp [mergeScopedIds]
  | cons c rest ih =>
    cases hc : constraintChannelOrContactIds c with
    | none => exact absurd hc (h c (List.mem_cons_self ..))
    | some l =>
      simp only [mergeScopedIds, hc]
      exact ih (fun x hx => h x (List.mem_cons_of_mem _ hx)) _

/-- Lists that pass the population seam's guard are scoped. -/
theorem scopedIds_of_assert {context : String}
    (h : assertScopedDisclosureConstraints context cs = .ok ()) : ScopedIds cs := by
  have hids : ∀ c ∈ cs, disclosureKindIdField c.kind ≠ none →
      constraintChannelOrContactIds c ≠ none := by
    induction cs with
    | nil => simp
    | cons c rest ih =>
      intro x hx hk
      rw [assertScopedDisclosureConstraints] at h
      cases hfield : disclosureKindIdField c.kind with
      | none =>
        simp only [hfield] at h
        rcases List.mem_cons.mp hx with rfl | hx
        · exact absurd hfield hk
        · exact ih h x hx hk
      | some field =>
        simp only [hfield] at h
        split at h
        · rename_i hsome
          rcases List.mem_cons.mp hx with rfl | hx
          · simp only [constraintChannelOrContactIds, hfield]
            cases field <;> simp_all
          · exact ih h x hx hk
        · exact absurd h (by simp)
  intro k hk
  simp only [mergeSourceIds, hk, if_false]
  split
  · simp
  · rw [ne_eq, Option.some.injEq]
    apply mergeScopedIds_ne_unrestricted
    intro c hc
    obtain ⟨hmem, hkind⟩ := List.mem_filter.mp hc
    exact hids c hmem (by simpa using (of_decide_eq_true hkind) ▸ hk)

/-- A permitted id of a scoped list comes with a concrete id set holding it. -/
theorem exists_ids_of_idPermitted (hs : ScopedIds cs) (hk : disclosureKindIdField k ≠ none)
    (h : idPermitted (mergeSourceIds cs k) (some id) = true) :
    ∃ l, mergeSourceIds cs k = some (.ids l) ∧ id ∈ l := by
  cases hids : mergeSourceIds cs k with
  | none => simp [hids, idPermitted] at h
  | some ids =>
    cases ids with
    | unrestricted => exact absurd hids (hs k hk)
    | ids l => exact ⟨l, rfl, by simpa [hids, idPermitted] using h⟩

/-- A scoped id set stays concrete under `buildConstraint`. -/
theorem mergeSourceIds_buildConstraint_ne {cmp : String → String → Int}
    (hk : disclosureKindIdField k ≠ none) (l : List String) (epochs : JsMap String JsNumber) :
    mergeSourceIds [buildConstraint cmp k (.ids l) epochs] k ≠ some .unrestricted := by
  simp only [mergeSourceIds, hk, if_false]
  split
  · simp
  · rw [ne_eq, Option.some.injEq]
    apply mergeScopedIds_ne_unrestricted
    intro c hc
    obtain ⟨hmem, -⟩ := List.mem_filter.mp hc
    rw [List.mem_singleton] at hmem
    rw [hmem, constraintIds_buildConstraint hk]
    simp

theorem ScopedIds.normalize {cmp : String → String → Int} (hs : ScopedIds cs) :
    ScopedIds (normalizeConstraints cmp cs) := by
  intro k hk
  rw [mergeSourceIds_normalize, normalizeKind]
  cases h : mergeSourceIds cs k with
  | none => simp
  | some ids =>
    cases ids with
    | unrestricted => exact absurd h (hs k hk)
    | ids l => exact mergeSourceIds_buildConstraint_ne hk l _

theorem ScopedIds.intersect {cmp : String → String → Int} (hl : ScopedIds l) (hr : ScopedIds r) :
    ScopedIds (intersectDestinationConstraints cmp l r) := by
  intro k hk
  rw [mergeSourceIds_eq_of_filter (filter_kind_intersect cmp l r k)]
  rcases intersectKind_cases cmp l r k with ⟨hnone, -⟩ | ⟨a, b, ha, hb, heq⟩
  · simp [hnone]
  · rw [heq]
    cases a with
    | unrestricted => exact absurd ha (hl k hk)
    | ids la =>
      cases b with
      | unrestricted => exact absurd hb (hr k hk)
      | ids lb => exact mergeSourceIds_buildConstraint_ne hk _ _

/-! ## Admitted epochs -/

/-- The epochs recorded for a kind depend only on the constraints of that kind. -/
theorem mergeSourceEpochs_eq_of_filter {cs' : List DisclosureDestinationConstraint}
    (h : cs.filter (fun c => c.kind = k) = cs'.filter (fun c => c.kind = k)) :
    mergeSourceEpochs cs k = mergeSourceEpochs cs' k := by
  have hskip : ∀ (l : List DisclosureDestinationConstraint) (s : EpochMerge),
      l.foldl (mergeConstraintEpochs k) s =
        (l.filter fun c => c.kind = k).foldl (mergeConstraintEpochs k) s := by
    intro l
    induction l with
    | nil => simp
    | cons c rest ih =>
      intro s
      by_cases hc : c.kind = k
      · simp [hc, ih]
      · simp [hc, ih, mergeConstraintEpochs]
  simp only [mergeSourceEpochs, hskip cs, hskip cs', h]

/-- Only finite epochs are ever recorded. -/
theorem mergeEpochEntry_finite {s : EpochMerge} {p : String × JsNumber}
    (h : ∀ id e, s.epochs.get id = some e → e.isFinite = true) :
    ∀ id e, (mergeEpochEntry s p).epochs.get id = some e → e.isFinite = true := by
  obtain ⟨id₀, e₀⟩ := p
  intro id e he
  simp only [mergeEpochEntry] at he
  split at he
  · exact h id e he
  · rename_i hfin
    split at he
    · exact h id e he
    · split at he
      · rw [JsMap.get_set] at he
        split at he
        · obtain rfl := Option.some.inj he
          simpa using hfin
        · exact h id e he
      · split at he
        · exact h id e he
        · rw [JsMap.get_delete] at he
          split at he
          · exact absurd he (by simp)
          · exact h id e he

variable {e : JsNumber}

theorem mergeSourceEpochs_finite (h : (mergeSourceEpochs cs k).get id = some e) :
    e.isFinite = true := by
  have hrecord : ∀ (l : List (String × JsNumber)) (s : EpochMerge),
      (∀ id e, s.epochs.get id = some e → e.isFinite = true) →
      ∀ id e, (l.foldl mergeEpochEntry s).epochs.get id = some e → e.isFinite = true := by
    intro l
    induction l with
    | nil => exact fun s hs => hs
    | cons p rest ih => exact fun s hs => ih _ (mergeEpochEntry_finite hs)
  have hlist : ∀ (l : List DisclosureDestinationConstraint) (s : EpochMerge),
      (∀ id e, s.epochs.get id = some e → e.isFinite = true) →
      ∀ id e, (l.foldl (mergeConstraintEpochs k) s).epochs.get id = some e → e.isFinite = true := by
    intro l
    induction l with
    | nil => exact fun s hs => hs
    | cons c rest ih =>
      intro s hs
      apply ih
      unfold mergeConstraintEpochs
      split
      · exact hs
      · split
        · exact hs
        · exact hrecord _ s hs
  unfold mergeSourceEpochs at h
  split at h
  · exact absurd h (by simp)
  · exact hlist cs _ (by simp) id e h

/-- Folding the entries of one record over a state that knows none of its keys
records exactly the finite entries. -/
theorem foldl_mergeEpochEntry_get (l : List (String × JsNumber)) (m : JsMap String JsNumber)
    (hnd : (l.map Prod.fst).Nodup) (hfresh : ∀ p ∈ l, m.get p.1 = none) (id : String) :
    (l.foldl mergeEpochEntry ⟨m, []⟩).epochs.get id =
      match (JsMap.lookup id l).filter JsNumber.isFinite with
      | some e => some e
      | none => m.get id := by
  induction l generalizing m with
  | nil => rfl
  | cons p rest ih =>
    obtain ⟨id₀, e₀⟩ := p
    rw [List.map_cons, List.nodup_cons] at hnd
    have hid₀ : m.get id₀ = none := hfresh _ (List.mem_cons_self ..)
    have hrest : ∀ p ∈ rest, p.1 ≠ id₀ := fun p hp heq =>
      hnd.1 (List.mem_map.mpr ⟨p, hp, heq⟩)
    have hlookup : JsMap.lookup id₀ rest = none := by
      rw [← Option.not_isSome_iff_eq_none]
      intro hsome
      obtain ⟨v, hv⟩ := Option.isSome_iff_exists.mp hsome
      exact hrest _ ((JsMap.lookup_eq_some_iff hnd.2).mp hv) rfl
    by_cases hfin : e₀.isFinite = true
    · have hstep : mergeEpochEntry ⟨m, []⟩ (id₀, e₀) = ⟨m.set id₀ e₀, []⟩ := by
        simp [mergeEpochEntry, hfin, hid₀]
      rw [List.foldl_cons, hstep, ih (m.set id₀ e₀) hnd.2]
      · by_cases hid : id₀ = id
        · subst hid
          have hkeep : (some e₀).filter JsNumber.isFinite = some e₀ := by simp [Option.filter, hfin]
          simp only [JsMap.lookup, if_true, hlookup, hkeep, Option.filter_none, JsMap.get_set_self]
        · simp only [JsMap.lookup, hid, if_false, JsMap.get_set_of_ne m (Ne.symm hid)]
      · intro p hp
        rw [JsMap.get_set_of_ne m (hrest p hp)]
        exact hfresh p (List.mem_cons_of_mem _ hp)
    · have hstep : mergeEpochEntry ⟨m, []⟩ (id₀, e₀) = ⟨m, []⟩ := by
        simp [mergeEpochEntry, hfin]
      rw [List.foldl_cons, hstep, ih m hnd.2 fun p hp => hfresh p (List.mem_cons_of_mem _ hp)]
      by_cases hid : id₀ = id
      · subst hid
        have hdrop : (some e₀).filter JsNumber.isFinite = none := by simp [Option.filter, hfin]
        simp only [JsMap.lookup, if_true, hlookup, hdrop, Option.filter_none]
      · simp only [JsMap.lookup, hid, if_false]

/-- The epochs read back from one constraint of a room kind. -/
theorem mergeSourceEpochs_singleton (hk : disclosureKindIdField k = some .channelId)
    {c : DisclosureDestinationConstraint} (hc : c.kind = k) (id : String) :
    (mergeSourceEpochs [c] k).get id =
      (c.channelEpochs.bind fun record => record.get id).filter JsNumber.isFinite := by
  simp only [mergeSourceEpochs, hk, ne_eq, not_true_eq_false, if_false, List.foldl_cons,
    List.foldl_nil, mergeConstraintEpochs, hc]
  cases c.channelEpochs with
  | none => rfl
  | some record =>
    rw [foldl_mergeEpochEntry_get record.entries JsMap.empty record.nodup (by simp)]
    simp only [Option.bind_some, JsMap.get]
    cases (JsMap.lookup id record.entries).filter JsNumber.isFinite <;> rfl

theorem buildChannelEpochs_get (sorted : List String) (epochs : JsMap String JsNumber) (id : String) :
    (buildChannelEpochs sorted epochs).get id =
      if id ∈ sorted ∧ id ≠ "__proto__" then epochs.get id else none := by
  have hgen : ∀ record : JsMap String JsNumber,
      (sorted.foldl (assignChannelEpoch epochs) record).get id =
      if id ∈ sorted ∧ id ≠ "__proto__" ∧ (epochs.get id).isSome then epochs.get id
      else record.get id := by
    induction sorted with
    | nil => simp
    | cons x rest ih =>
      intro record
      rw [List.foldl_cons, ih, assignChannelEpoch]
      by_cases hx : id = x
      · subst hx
        cases he : epochs.get id with
        | none => simp
        | some e =>
          by_cases hp : id = "__proto__"
          · simp [hp, assignProperty]
          · simp [hp, get_assignProperty]
      · cases he : epochs.get x with
        | none => simp [hx]
        | some e => simp [hx, get_assignProperty]
  rw [buildChannelEpochs, hgen]
  cases he : epochs.get id <;> simp

theorem JsMap_get_of_size_zero {m : JsMap String JsNumber} (h : ¬ m.size > 0) (id : String) :
    m.get id = none := by
  have hnil : m.entries = [] := List.length_eq_zero_iff.mp (by simpa [JsMap.size] using h)
  simp [JsMap.get, hnil, JsMap.lookup]

/-- The epochs a canonical room constraint carries: those of the surviving ids, the
id `__proto__` excepted. -/
theorem mergeSourceEpochs_buildConstraint {cmp : String → String → Int}
    (hk : disclosureKindIdField k = some .channelId) (l : List String)
    {epochs : JsMap String JsNumber} (hfin : ∀ id e, epochs.get id = some e → e.isFinite = true)
    (id : String) :
    (mergeSourceEpochs [buildConstraint cmp k (.ids l) epochs] k).get id =
      if id ∈ l ∧ id ≠ "__proto__" then epochs.get id else none := by
  have hfilter : (epochs.get id).filter JsNumber.isFinite = epochs.get id := by
    cases he : epochs.get id with
    | none => rfl
    | some e => simp [hfin id e he]
  rw [mergeSourceEpochs_singleton hk (buildConstraint_kind ..)]
  simp only [buildConstraint, hk]
  by_cases hsize : epochs.size > 0
  · rw [if_pos hsize]
    have hget := buildChannelEpochs_get (sortIds cmp l) epochs id
    simp only [mem_sortIds] at hget
    by_cases hrec : (buildChannelEpochs (sortIds cmp l) epochs).size > 0
    · rw [if_pos hrec]
      simp only [Option.bind_some, hget]
      split
      · exact hfilter
      · rfl
    · rw [if_neg hrec, ← hget, JsMap_get_of_size_zero hrec]
      rfl
  · rw [if_neg hsize, JsMap_get_of_size_zero hsize, ite_self]
    rfl

theorem epoch_normalize {cmp : String → String → Int}
    (hk : disclosureKindIdField k = some .channelId) {l : List String}
    (hl : mergeSourceIds cs k = some (.ids l)) (hid : id ∈ l) :
    (mergeSourceEpochs (normalizeConstraints cmp cs) k).get id =
      if id = "__proto__" then none else (mergeSourceEpochs cs k).get id := by
  have hfilter : (normalizeConstraints cmp cs).filter (fun c => c.kind = k) =
      [buildConstraint cmp k (.ids l) (mergeSourceEpochs cs k)].filter (fun c => c.kind = k) := by
    rw [normalizeConstraints, filter_kind_filterMap normalizeKind_kind]
    simp [normalizeKind, hl, buildConstraint_kind]
  rw [mergeSourceEpochs_eq_of_filter hfilter,
    mergeSourceEpochs_buildConstraint hk l fun _ _ => mergeSourceEpochs_finite]
  by_cases hp : id = "__proto__" <;> simp [hp, hid]

variable {right : JsMap String JsNumber}

/-- One entry of the left map is kept exactly when its id survives and the right
map records the same epoch. -/
theorem intersectEpochEntry_eq {keep : List String} (result : JsMap String JsNumber)
    (hfin : e.isFinite = true) :
    intersectEpochEntry right (.ids keep) result (id, e) =
      if id ∈ keep ∧ right.get id = some e then result.set id e else result := by
  simp only [intersectEpochEntry, IdSet.allows]
  by_cases hk : id ∈ keep
  · cases hr : right.get id with
    | none => simp
    | some other =>
      by_cases hoe : other = e
      · subst hoe
        have heq : other.strictEq other = true :=
          JsNumber.strictEq_iff.mpr ⟨rfl, JsNumber.ne_nan_of_isFinite hfin⟩
        simp [hk, heq]
      · have hne : ¬ other.strictEq e = true := fun h => hoe (JsNumber.strictEq_iff.mp h).1
        simp [hk, hne, hoe]
  · simp [hk]

theorem foldl_intersectEpochEntry_get {keep : List String} (l : List (String × JsNumber))
    (result : JsMap String JsNumber) (hnd : (l.map Prod.fst).Nodup)
    (hfresh : ∀ p ∈ l, result.get p.1 = none) (hfin : ∀ p ∈ l, p.2.isFinite = true) :
    (l.foldl (intersectEpochEntry right (.ids keep)) result).get id = some e ↔
      result.get id = some e ∨ (id ∈ keep ∧ (id, e) ∈ l ∧ right.get id = some e) := by
  induction l generalizing result with
  | nil => simp
  | cons p rest ih =>
    obtain ⟨id₀, e₀⟩ := p
    rw [List.map_cons, List.nodup_cons] at hnd
    have hne : ∀ p ∈ rest, p.1 ≠ id₀ := fun p hp heq => hnd.1 (List.mem_map.mpr ⟨p, hp, heq⟩)
    have hnone : result.get id₀ = none := hfresh _ (List.mem_cons_self ..)
    have hfresh' : ∀ p ∈ rest, (intersectEpochEntry right (.ids keep) result (id₀, e₀)).get p.1 =
        none := by
      intro p hp
      rw [intersectEpochEntry_eq result (hfin _ (List.mem_cons_self ..))]
      split
      · rw [JsMap.get_set_of_ne result (hne p hp)]
        exact hfresh p (List.mem_cons_of_mem _ hp)
      · exact hfresh p (List.mem_cons_of_mem _ hp)
    rw [List.foldl_cons, ih _ hnd.2 hfresh' fun p hp => hfin p (List.mem_cons_of_mem _ hp),
      intersectEpochEntry_eq result (hfin _ (List.mem_cons_self ..))]
    by_cases hid : id = id₀
    · subst hid
      have hnot : ∀ e, (id, e) ∉ rest := fun e hm => hne _ hm rfl
      by_cases hkeep : id ∈ keep ∧ right.get id = some e₀
      · rw [if_pos hkeep, JsMap.get_set_self, hnone, hkeep.2]
        simp [hnot, hkeep.1, eq_comm]
      · rw [if_neg hkeep, hnone]
        simp only [hnot, reduceCtorEq, false_and, and_false, or_false, List.mem_cons,
          Prod.mk.injEq, true_and, false_or, false_iff]
        rintro ⟨hmem, rfl, hright⟩
        exact hkeep ⟨hmem, hright⟩
    · have hget : (if id₀ ∈ keep ∧ right.get id₀ = some e₀ then result.set id₀ e₀
          else result).get id = result.get id := by
        split
        · exact JsMap.get_set_of_ne result hid e₀
        · rfl
      rw [hget]
      simp [hid]

theorem intersectEpochs_get {left : JsMap String JsNumber}
    (hfin : ∀ id e, left.get id = some e → e.isFinite = true) (keep : List String) (id : String)
    (e : JsNumber) :
    (intersectEpochs left right (.ids keep)).get id = some e ↔
      id ∈ keep ∧ left.get id = some e ∧ right.get id = some e := by
  rw [intersectEpochs, foldl_intersectEpochEntry_get left.entries JsMap.empty left.nodup (by simp)
    (fun p hp => hfin p.1 p.2 ((left.mem_entries_iff_get _ _).mp hp)), JsMap.mem_entries_iff_get]
  simp

theorem epoch_intersect {cmp : String → String → Int}
    (hk : disclosureKindIdField k = some .channelId) {la lb : List String}
    (ha : mergeSourceIds l k = some (.ids la)) (hb : mergeSourceIds r k = some (.ids lb))
    (hida : id ∈ la) (hidb : id ∈ lb) (e : JsNumber) :
    (mergeSourceEpochs (intersectDestinationConstraints cmp l r) k).get id = some e ↔
      id ≠ "__proto__" ∧ (mergeSourceEpochs l k).get id = some e ∧
        (mergeSourceEpochs r k).get id = some e := by
  have hmem : id ∈ la.filter fun id => id ∈ lb := by
    simp [hida, hidb]
  have hne : intersectIdSets (.ids la) (.ids lb) ≠ .ids [] := by
    intro h
    rw [intersectIdSets, IdSet.ids.injEq] at h
    rw [h] at hmem
    exact absurd hmem (by simp)
  have hkind : intersectKind cmp l r k = some (buildConstraint cmp k
      (.ids (la.filter fun id => id ∈ lb))
      (intersectEpochs (mergeSourceEpochs l k) (mergeSourceEpochs r k)
        (.ids (la.filter fun id => id ∈ lb)))) := by
    simp only [intersectKind, ha, hb, hne, if_false]
    rfl
  have hfin : ∀ id e, (intersectEpochs (mergeSourceEpochs l k) (mergeSourceEpochs r k)
      (.ids (la.filter fun id => id ∈ lb))).get id = some e → e.isFinite = true := by
    intro id e he
    rw [intersectEpochs_get (fun _ _ => mergeSourceEpochs_finite)] at he
    exact mergeSourceEpochs_finite he.2.1
  rw [mergeSourceEpochs_eq_of_filter (filter_kind_intersect cmp l r k), hkind, Option.toList_some,
    mergeSourceEpochs_buildConstraint hk _ hfin]
  by_cases hp : id = "__proto__"
  · simp [hp]
  · rw [if_pos ⟨hmem, hp⟩, intersectEpochs_get (fun _ _ => mergeSourceEpochs_finite)]
    simp [hmem, hp]

end Psfn.Disclosure
