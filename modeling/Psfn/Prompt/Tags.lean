import Psfn.Prompt.Escaping

/-!
# What is left of the tags

Neutralizing rewrites the whole tags of a text once. A tag opened around whole tags holds angle
brackets, so it is no match until those inside it are gone.

* `tag_opens_squeeze`, `tag_opens_trimEnd` — white space does not decide what opens a tag;
* `tagFound_iff_nestsTag` — in the kept part of a neutralized text, a tag is left where one is
  opened around whole tags.
-/

namespace Psfn.Prompt

open Psfn.Lib Psfn.Lib.Replace
open Psfn.Voice (Text unit text isSpace isLetter)

/-! ## Classes of units -/

theorem isLetter_iff {u : UInt16} : isLetter u = true ↔
    (65 ≤ u.toNat ∧ u.toNat ≤ 90) ∨ (97 ≤ u.toNat ∧ u.toNat ≤ 122) := by
  simp only [isLetter, Bool.or_eq_true, Bool.and_eq_true, decide_eq_true_eq,
    UInt16.le_iff_toNat_le]
  exact Iff.rfl

theorem isNameUnit_iff {u : UInt16} : isNameUnit u = true ↔
    isLetter u = true ∨ (48 ≤ u.toNat ∧ u.toNat ≤ 57) ∨ u.toNat = 95 ∨ u.toNat = 46 ∨
      u.toNat = 58 ∨ u.toNat = 45 := by
  simp only [isNameUnit, isDigit, Bool.or_eq_true, Bool.and_eq_true, decide_eq_true_eq,
    UInt16.le_iff_toNat_le, ← UInt16.toNat_inj, or_assoc]
  exact Iff.rfl

theorem isSpace_eq_false_of_isNameUnit {u : UInt16} (h : isNameUnit u = true) :
    isSpace u = false := by
  rw [isNameUnit_iff, isLetter_iff] at h
  rw [Bool.eq_false_iff]
  intro hspace
  simp only [isSpace, Bool.or_eq_true, Bool.and_eq_true, decide_eq_true_eq,
    UInt16.le_iff_toNat_le, ← UInt16.toNat_inj, UInt16.reduceToNat] at hspace
  omega

theorem isNameUnit_of_isWordUnit {u : UInt16} (h : isWordUnit u = true) :
    isNameUnit u = true := by
  simp only [isWordUnit, Bool.or_eq_true] at h
  simp only [isNameUnit, Bool.or_eq_true]
  exact .inl (.inl (.inl h))

theorem isWordUnit_of_isLetter {u : UInt16} (h : isLetter u = true) : isWordUnit u = true := by
  simp only [isWordUnit, Bool.or_eq_true]
  exact .inl (.inl h)

theorem isSpace_eq_false_of_isWordUnit {u : UInt16} (h : isWordUnit u = true) :
    isSpace u = false :=
  isSpace_eq_false_of_isNameUnit (isNameUnit_of_isWordUnit h)

theorem isWordUnit_eq_false_of_isSpace {u : UInt16} (h : isSpace u = true) :
    isWordUnit u = false := by
  rw [Bool.eq_false_iff]
  intro hword
  rw [isSpace_eq_false_of_isWordUnit hword] at h
  cases h

theorem isLetter_of_lower {u : UInt16} (h : isLetter (lower u) = true) : isLetter u = true := by
  rw [lower] at h
  split at h
  · next hupper =>
    rw [isLetter, Bool.or_eq_true]
    exact .inl (by simpa using hupper)
  · exact h

/-! ## Tags -/

theorem mem_of_closesNext {t : Text} (h : closesNext t = true) : unit '>' ∈ t := by
  induction t with
  | nil => cases h
  | cons u t ih =>
    rw [closesNext] at h
    by_cases hclose : u = unit '>'
    · rw [hclose]
      exact List.mem_cons_self
    · rw [if_neg hclose] at h
      by_cases hopen : u = unit '<'
      · rw [if_pos hopen] at h
        cases h
      · rw [if_neg hopen] at h
        exact List.mem_cons_of_mem u (ih h)

theorem closesNext_append {t : Text} (h : closesNext t = true) (x : Text) :
    closesNext (t ++ x) = true := by
  induction t with
  | nil => cases h
  | cons u t ih =>
    rw [closesNext] at h
    rw [List.cons_append, closesNext]
    split
    · rfl
    · next hclose =>
      rw [if_neg hclose] at h
      split
      · next hopen =>
        rw [if_pos hopen] at h
        cases h
      · next hopen =>
        rw [if_neg hopen] at h
        exact ih h

/-- No angle bracket. -/
def NoAngle (t : Text) : Prop := ∀ u ∈ t, u ≠ unit '<' ∧ u ≠ unit '>'

theorem closesNext_of_noAngle {t : Text} (h : NoAngle t) : closesNext t = false := by
  rw [Bool.eq_false_iff]
  exact fun hcloses => (h _ (mem_of_closesNext hcloses)).2 rfl

theorem closesNext_append_noAngle {x : Text} (hx : NoAngle x) (t : Text) :
    closesNext (t ++ x) = closesNext t := by
  induction t with
  | nil => exact closesNext_of_noAngle hx
  | cons u t ih => rw [List.cons_append, closesNext, closesNext, ih]

/-- The name ends before the tag does. -/
theorem opensName_append {t : Text} (h : unit '>' ∈ t) (x : Text) :
    opensName (t ++ x) = opensName t := by
  cases t with
  | nil => cases h
  | cons u t =>
    rw [List.cons_append, opensName, opensName]
    by_cases hletter : isLetter u = true
    · have hmem : unit '>' ∈ t := by
        rcases List.mem_cons.1 h with hu | ht
        · rw [← hu] at hletter
          exact absurd hletter (by decide)
        · exact ht
      have hne : t.dropWhile isNameUnit ≠ [] := fun hnil =>
        absurd (List.dropWhile_eq_nil_iff.1 hnil _ hmem) (by decide)
      rw [List.dropWhile_append, if_neg fun hempty => hne (List.isEmpty_iff.1 hempty),
        List.head?_append_of_ne_nil _ hne]
    · rw [Bool.eq_false_iff.2 hletter, Bool.false_and, Bool.false_and]

theorem opensTag_append {t : Text} (h : closesNext t = true) (x : Text) :
    opensTag (t ++ x) = opensTag t := by
  have hmem := mem_of_closesNext h
  cases t with
  | nil => cases h
  | cons u t =>
    rw [List.cons_append, opensTag, opensTag, List.head?_cons, List.head?_cons, List.tail_cons,
      List.tail_cons]
    by_cases hslash : some u = some (unit '/')
    · rw [if_pos hslash, if_pos hslash]
      refine opensName_append ?_ x
      rcases List.mem_cons.1 hmem with hu | ht
      · rw [Option.some_inj, ← hu] at hslash
        exact absurd hslash (by decide)
      · exact ht
    · rw [if_neg hslash, if_neg hslash]
      exact opensName_append hmem x

theorem tag_opens_append {x : Text} (hx : NoAngle x) (u : UInt16) (t : Text) :
    tagDelimiters.opens u (t ++ x) = tagDelimiters.opens u t := by
  show (_ && opensTag (t ++ x) && closesNext (t ++ x)) = (_ && opensTag t && closesNext t)
  rw [closesNext_append_noAngle hx]
  by_cases h : closesNext t = true
  · rw [opensTag_append h]
  · rw [Bool.eq_false_iff.2 h, Bool.and_false, Bool.and_false]

theorem tag_found_noAngle {x : Text} (hx : NoAngle x) : tagDelimiters.found x = false := by
  induction x with
  | nil => rfl
  | cons u x ih =>
    have hu := hx u List.mem_cons_self
    rw [Delimiters.found, ih fun v hv => hx v (List.mem_cons_of_mem u hv), Bool.or_false]
    show (decide (u = unit '<') && _ && _) = false
    rw [decide_eq_false hu.1, Bool.false_and, Bool.false_and]

theorem tag_found_append {x : Text} (hx : NoAngle x) (t : Text) :
    tagDelimiters.found (t ++ x) = tagDelimiters.found t :=
  tagDelimiters.found_append (tag_opens_append hx) (tag_found_noAngle hx) t

theorem closesNext_squeeze (after : Bool) (t : Text) :
    closesNext (squeeze isSpace (unit ' ') after t) = closesNext t := by
  induction t generalizing after with
  | nil => rfl
  | cons u t ih =>
    by_cases hspace : isSpace u = true
    · have hclose : u ≠ unit '>' := by
        rintro rfl
        exact absurd hspace (by decide)
      have hopen : u ≠ unit '<' := by
        rintro rfl
        exact absurd hspace (by decide)
      rw [closesNext, if_neg hclose, if_neg hopen]
      cases after with
      | false =>
        rw [squeeze_cons_pos hspace, closesNext, if_neg (by decide), if_neg (by decide), ih]
      | true => rw [squeeze_true_cons_pos hspace, ih]
    · rw [squeeze_cons_neg hspace, closesNext, closesNext, ih]

theorem endsName_squeeze (t : Text) :
    (((squeeze isSpace (unit ' ') false t).dropWhile isNameUnit).head?.any endsName) =
      ((t.dropWhile isNameUnit).head?.any endsName) := by
  induction t with
  | nil => rfl
  | cons u t ih =>
    by_cases hname : isNameUnit u = true
    · have hspace : ¬ isSpace u = true := by
        rw [isSpace_eq_false_of_isNameUnit hname]
        exact Bool.false_ne_true
      rw [squeeze_cons_neg hspace, List.dropWhile_cons_of_pos hname,
        List.dropWhile_cons_of_pos hname, ih]
    · rw [List.dropWhile_cons_of_neg hname]
      by_cases hspace : isSpace u = true
      · rw [squeeze_cons_pos hspace, List.dropWhile_cons_of_neg (by decide)]
        show endsName (unit ' ') = endsName u
        rw [endsName, endsName, hspace]
        rfl
      · rw [squeeze_cons_neg hspace, List.dropWhile_cons_of_neg hname]
        rfl

theorem opensName_squeeze (t : Text) :
    opensName (squeeze isSpace (unit ' ') false t) = opensName t := by
  cases t with
  | nil => rfl
  | cons u t =>
    by_cases hspace : isSpace u = true
    · have hletter : isLetter u = false := by
        rw [Bool.eq_false_iff]
        intro hletter
        rw [isSpace_eq_false_of_isWordUnit (isWordUnit_of_isLetter hletter)] at hspace
        cases hspace
      have hblank : isLetter (unit ' ') = false := by decide
      rw [squeeze_cons_pos hspace, opensName, opensName, hletter, hblank, Bool.false_and,
        Bool.false_and]
    · rw [squeeze_cons_neg hspace, opensName, opensName, endsName_squeeze]

theorem opensTag_squeeze (t : Text) :
    opensTag (squeeze isSpace (unit ' ') false t) = opensTag t := by
  have hname := opensName_squeeze t
  cases t with
  | nil => rfl
  | cons u t =>
    rw [opensTag, opensTag, hname]
    by_cases hspace : isSpace u = true
    · have hslash : ¬ some u = some (unit '/') := by
        rw [Option.some_inj]
        rintro rfl
        exact absurd hspace (by decide)
      rw [squeeze_cons_pos hspace, List.head?_cons, List.head?_cons, if_neg (by decide),
        if_neg hslash]
    · rw [squeeze_cons_neg hspace, List.head?_cons, List.head?_cons, List.tail_cons,
        List.tail_cons, opensName_squeeze]

theorem tag_opens_squeeze (u : UInt16) (t : Text) :
    tagDelimiters.opens u (squeeze isSpace (unit ' ') false t) = tagDelimiters.opens u t := by
  show (_ && opensTag _ && closesNext _) = (_ && opensTag t && closesNext t)
  rw [opensTag_squeeze, closesNext_squeeze]

theorem noAngle_of_spaces {t : Text} (h : ∀ u ∈ t, isSpace u = true) : NoAngle t := by
  refine fun u hu => ⟨?_, ?_⟩ <;> rintro rfl <;> exact absurd (h _ hu) (by decide)

theorem tag_opens_trimEnd (u : UInt16) (t : Text) :
    tagDelimiters.opens u (t.rdropWhile isSpace) = tagDelimiters.opens u t := by
  have hspaces : NoAngle (t.rtakeWhile isSpace) :=
    noAngle_of_spaces fun u hu => List.mem_rtakeWhile_imp hu
  rw [← tag_opens_append hspaces, List.rdropWhile_append_rtakeWhile]

theorem tag_found_trimEnd (t : Text) :
    tagDelimiters.found (t.rdropWhile isSpace) = tagDelimiters.found t := by
  have hspaces : NoAngle (t.rtakeWhile isSpace) :=
    noAngle_of_spaces fun u hu => List.mem_rtakeWhile_imp hu
  rw [← tag_found_append hspaces, List.rdropWhile_append_rtakeWhile]

theorem tag_apart : tagDelimiters.Apart isSpace where
  opens u t h := by
    have hopen : u ≠ unit '<' := by
      rintro rfl
      exact absurd h (by decide)
    show (decide (u = unit '<') && _ && _) = false
    rw [decide_eq_false hopen, Bool.false_and, Bool.false_and]
  closes u h := by
    refine decide_eq_false ?_
    rintro rfl
    exact absurd h (by decide)
  onOpen _ _ _ := show isSpace (unit '‹') = false by decide
  onClose _ _ := show isSpace (unit '›') = false by decide

/-- A unit that is no part of a tag's delimiters or name. -/
def InertInTag (u : UInt16) : Prop :=
  isNameUnit u = false ∧ endsName u = false ∧ u ≠ unit '<'

section TagMap

variable {f : UInt16 → UInt16} (hf : ∀ u, f u = u ∨ (InertInTag u ∧ InertInTag (f u)))

include hf

theorem isNameUnit_map (u : UInt16) : isNameUnit (f u) = isNameUnit u := by
  rcases hf u with h | ⟨hu, hfu⟩
  · rw [h]
  · rw [hu.1, hfu.1]

theorem endsName_map (u : UInt16) : endsName (f u) = endsName u := by
  rcases hf u with h | ⟨hu, hfu⟩
  · rw [h]
  · rw [hu.2.1, hfu.2.1]

theorem isLetter_map (u : UInt16) : isLetter (f u) = isLetter u := by
  rcases hf u with h | ⟨hu, hfu⟩
  · rw [h]
  · have hletter : ∀ {v}, InertInTag v → isLetter v = false := by
      intro v hv
      rw [Bool.eq_false_iff]
      intro h
      have hname := isNameUnit_of_isWordUnit (isWordUnit_of_isLetter h)
      rw [hv.1] at hname
      cases hname
    rw [hletter hu, hletter hfu]

/-- The units that the tag pattern names one by one. -/
theorem eq_map_iff {v : UInt16} (hv : ¬ InertInTag v) (u : UInt16) : f u = v ↔ u = v := by
  rcases hf u with h | ⟨hu, hfu⟩
  · rw [h]
  · constructor
    · rintro rfl
      exact absurd hfu hv
    · rintro rfl
      exact absurd hu hv

theorem opensName_map (t : Text) : opensName (t.map f) = opensName t := by
  cases t with
  | nil => rfl
  | cons u t =>
    have hnames : isNameUnit ∘ f = isNameUnit := funext (isNameUnit_map hf)
    have hends : (fun v => endsName (f v)) = endsName := funext (endsName_map hf)
    rw [List.map_cons, opensName, opensName, isLetter_map hf, List.dropWhile_map, hnames,
      List.head?_map, Option.any_map, hends]

theorem opensTag_map (t : Text) : opensTag (t.map f) = opensTag t := by
  have hslash : ∀ u, f u = unit '/' ↔ u = unit '/' :=
    eq_map_iff hf fun h => absurd h.2.1 (by decide)
  rw [opensTag, opensTag]
  cases t with
  | nil => rfl
  | cons u t =>
    rw [List.map_cons, List.head?_cons, List.head?_cons, List.tail_cons, List.tail_cons,
      ← List.map_cons, opensName_map hf, opensName_map hf]
    simp only [Option.some_inj, hslash]

theorem closesNext_map (t : Text) : closesNext (t.map f) = closesNext t := by
  have hclose : ∀ u, f u = unit '>' ↔ u = unit '>' :=
    eq_map_iff hf fun h => absurd h.2.1 (by decide)
  have hopen : ∀ u, f u = unit '<' ↔ u = unit '<' := eq_map_iff hf fun h => h.2.2 rfl
  induction t with
  | nil => rfl
  | cons u t ih =>
    rw [List.map_cons, closesNext, closesNext, ih]
    simp only [hclose, hopen]

theorem tag_found_map (t : Text) : tagDelimiters.found (t.map f) = tagDelimiters.found t := by
  refine tagDelimiters.found_map (fun u t => ?_) t
  have hopen : f u = unit '<' ↔ u = unit '<' := eq_map_iff hf (fun h => h.2.2 rfl) u
  show (decide (f u = unit '<') && opensTag (t.map f) && closesNext (t.map f)) = _
  rw [opensTag_map hf, closesNext_map hf, decide_eq_decide.2 hopen]
  rfl

end TagMap

/-! ## A tag around whole tags -/

/-- A `>` is reached past whole tags only; the bit is whether one of them is open. -/
def closesAfterTags : Bool → Text → Bool
  | _, [] => false
  | false, u :: t =>
    if u = unit '>' then true
    else if u = unit '<' then opensTag t && closesNext t && closesAfterTags true t
    else closesAfterTags false t
  | true, u :: t =>
    if u = unit '>' then closesAfterTags false t else closesAfterTags true t

/-- A tag is opened around one or more whole tags. -/
def nestsTag : Text → Bool
  | [] => false
  | u :: t =>
    (u = unit '<' && opensTag t && !closesNext t && closesAfterTags false t) || nestsTag t

theorem opensTag_of_take {t : Text} {k : Nat}
    (h : (opensTag (t.take k) && closesNext (t.take k)) = true) :
    (opensTag t && closesNext t) = true := by
  rw [Bool.and_eq_true] at h ⊢
  rw [← List.take_append_drop k t, opensTag_append h.2]
  exact ⟨h.1, closesNext_append h.2 _⟩

/-- Inside a tag that is cut off before its end. -/
theorem closesNext_scan_cut {t : Text} (k : Nat) (hcloses : closesNext t = true)
    (hcut : closesNext (t.take k) = false) :
    closesNext ((tagDelimiters.scan true t).take k) = false := by
  induction t generalizing k with
  | nil => cases hcloses
  | cons u t ih =>
    cases k with
    | zero => rfl
    | succ k =>
      rw [List.take_succ_cons, closesNext] at hcut
      rw [closesNext] at hcloses
      by_cases hclose : u = unit '>'
      · rw [if_pos hclose] at hcut
        cases hcut
      · rw [if_neg hclose] at hcut hcloses
        by_cases hopen : u = unit '<'
        · rw [if_pos hopen] at hcloses
          cases hcloses
        · rw [if_neg hopen] at hcut hcloses
          have hscan : tagDelimiters.scan true (u :: t) = u :: tagDelimiters.scan true t :=
            if_neg fun h => hclose (of_decide_eq_true h)
          rw [hscan, List.take_succ_cons, closesNext, if_neg hclose, if_neg hopen]
          exact ih k hcloses hcut

theorem closesNext_scan (m : Bool) (t : Text) (k : Nat) (hm : m = true → closesNext t = true) :
    closesNext ((tagDelimiters.scan m t).take k) = closesAfterTags m (t.take k) := by
  induction t generalizing m k with
  | nil => cases m <;> rw [Delimiters.scan, List.take_nil] <;> rfl
  | cons u t ih =>
    cases k with
    | zero => cases m <;> rfl
    | succ k =>
      cases m with
      | false =>
        rw [Delimiters.scan]
        by_cases hopens : tagDelimiters.opens u t = true
        · -- a whole tag: its `<` is swapped, and the scan goes on to its end
          have hparts : (u = unit '<' ∧ opensTag t = true) ∧ closesNext t = true := by
            simpa [tagDelimiters] using hopens
          have hswapped : closesNext (unit '‹' :: (tagDelimiters.scan true t).take k) =
              closesNext ((tagDelimiters.scan true t).take k) := rfl
          have hnot : ¬ u = unit '>' := by
            rw [hparts.1.1]
            decide
          rw [if_pos hopens, List.take_succ_cons, List.take_succ_cons, closesAfterTags,
            if_neg hnot, if_pos hparts.1.1]
          show closesNext (unit '‹' :: (tagDelimiters.scan true t).take k) = _
          rw [hswapped]
          by_cases hwhole : closesNext (t.take k) = true
          · have hopensTag : opensTag (t.take k) = true := by
              rw [← opensTag_append hwhole (t.drop k), List.take_append_drop]
              exact hparts.1.2
            rw [hopensTag, hwhole, ih true k fun _ => hparts.2]
            rfl
          · rw [Bool.eq_false_iff.2 hwhole, Bool.and_false, Bool.false_and,
              closesNext_scan_cut k hparts.2 (Bool.eq_false_iff.2 hwhole)]
        · rw [if_neg hopens, List.take_succ_cons, List.take_succ_cons, closesNext,
            closesAfterTags]
          by_cases hclose : u = unit '>'
          · rw [if_pos hclose, if_pos hclose]
          · rw [if_neg hclose, if_neg hclose]
            by_cases hopen : u = unit '<'
            · have hpart : (opensTag (t.take k) && closesNext (t.take k)) = false := by
                rw [Bool.eq_false_iff]
                intro h
                refine hopens ?_
                show (decide (u = unit '<') && opensTag t && closesNext t) = true
                rw [decide_eq_true hopen, Bool.true_and]
                exact opensTag_of_take h
              rw [if_pos hopen, if_pos hopen, hpart, Bool.false_and]
            · rw [if_neg hopen, if_neg hopen]
              exact ih false k fun h => by cases h
      | true =>
        have hcloses := hm rfl
        rw [closesNext] at hcloses
        by_cases hclose : u = unit '>'
        · have hscan : tagDelimiters.scan true (u :: t) =
              unit '›' :: tagDelimiters.scan false t := if_pos (decide_eq_true hclose)
          rw [hscan, List.take_succ_cons, List.take_succ_cons, closesAfterTags, if_pos hclose,
            ← ih false k fun h => by cases h]
          rfl
        · rw [if_neg hclose] at hcloses
          by_cases hopen : u = unit '<'
          · rw [if_pos hopen] at hcloses
            cases hcloses
          · rw [if_neg hopen] at hcloses
            have hscan : tagDelimiters.scan true (u :: t) = u :: tagDelimiters.scan true t :=
              if_neg fun h => hclose (of_decide_eq_true h)
            rw [hscan, List.take_succ_cons, List.take_succ_cons, closesAfterTags, if_neg hclose,
              closesNext, if_neg hclose, if_neg hopen]
            exact ih true k fun _ => hcloses

theorem noAngle_of_cut {t : Text} {k : Nat} (hcloses : closesNext t = true)
    (hcut : closesNext (t.take k) = false) : NoAngle (t.take k) := by
  induction t generalizing k with
  | nil => cases hcloses
  | cons u t ih =>
    cases k with
    | zero => exact fun v hv => nomatch hv
    | succ k =>
      rw [List.take_succ_cons, closesNext] at hcut
      rw [closesNext] at hcloses
      by_cases hclose : u = unit '>'
      · rw [if_pos hclose] at hcut
        cases hcut
      · rw [if_neg hclose] at hcut hcloses
        by_cases hopen : u = unit '<'
        · rw [if_pos hopen] at hcloses
          cases hcloses
        · rw [if_neg hopen] at hcut hcloses
          rw [List.take_succ_cons]
          intro v hv
          rcases List.mem_cons.1 hv with rfl | hv
          · exact ⟨hopen, hclose⟩
          · exact ih hcloses hcut v hv

theorem closesAfterTags_noAngle {x : Text} (hx : NoAngle x) :
    closesAfterTags false x = false := by
  induction x with
  | nil => rfl
  | cons u x ih =>
    have hu := hx u List.mem_cons_self
    rw [closesAfterTags, if_neg hu.2, if_neg hu.1]
    exact ih fun v hv => hx v (List.mem_cons_of_mem u hv)

/-- Outside a tag, only the `<` of a whole tag is swapped. -/
theorem tag_scan_cons {u : UInt16} (hu : u ≠ unit '<') (t : Text) :
    tagDelimiters.scan false (u :: t) = u :: tagDelimiters.scan false t := by
  have hopens : tagDelimiters.opens u t = false := by
    show (decide (u = unit '<') && _ && _) = false
    rw [decide_eq_false hu, Bool.false_and, Bool.false_and]
  rw [Delimiters.scan, if_neg (Bool.eq_false_iff.1 hopens)]

theorem tag_scan_open (t : Text) :
    ∃ v m, (v = unit '<' ∨ v = unit '‹') ∧
      tagDelimiters.scan false (unit '<' :: t) = v :: tagDelimiters.scan m t := by
  rw [Delimiters.scan]
  split
  · exact ⟨_, true, .inr rfl, rfl⟩
  · exact ⟨_, false, .inl rfl, rfl⟩

theorem endsName_scan (t : Text) (k : Nat) :
    ((((tagDelimiters.scan false t).take k).dropWhile isNameUnit).head?.any endsName) =
      (((t.take k).dropWhile isNameUnit).head?.any endsName) := by
  induction t generalizing k with
  | nil => rfl
  | cons u t ih =>
    cases k with
    | zero => rfl
    | succ k =>
      by_cases hopen : u = unit '<'
      · obtain ⟨v, m, hv, hscan⟩ := tag_scan_open t
        rw [hopen, hscan, List.take_succ_cons, List.take_succ_cons]
        rcases hv with rfl | rfl <;> rfl
      · rw [tag_scan_cons hopen, List.take_succ_cons, List.take_succ_cons]
        by_cases hname : isNameUnit u = true
        · rw [List.dropWhile_cons_of_pos hname, List.dropWhile_cons_of_pos hname, ih]
        · rw [List.dropWhile_cons_of_neg hname, List.dropWhile_cons_of_neg hname]
          rfl

theorem opensName_scan (t : Text) (k : Nat) :
    opensName ((tagDelimiters.scan false t).take k) = opensName (t.take k) := by
  cases t with
  | nil => rfl
  | cons u t =>
    cases k with
    | zero => rfl
    | succ k =>
      by_cases hopen : u = unit '<'
      · obtain ⟨v, m, hv, hscan⟩ := tag_scan_open t
        rw [hopen, hscan, List.take_succ_cons, List.take_succ_cons]
        rcases hv with rfl | rfl <;> rfl
      · rw [tag_scan_cons hopen, List.take_succ_cons, List.take_succ_cons, opensName, opensName,
          endsName_scan]

theorem opensTag_scan (t : Text) (k : Nat) :
    opensTag ((tagDelimiters.scan false t).take k) = opensTag (t.take k) := by
  cases t with
  | nil => rfl
  | cons u t =>
    cases k with
    | zero => rfl
    | succ k =>
      by_cases hopen : u = unit '<'
      · obtain ⟨v, m, hv, hscan⟩ := tag_scan_open t
        rw [hopen, hscan, List.take_succ_cons, List.take_succ_cons]
        rcases hv with rfl | rfl <;> rfl
      · have hname := opensName_scan (u :: t) (k + 1)
        rw [tag_scan_cons hopen, List.take_succ_cons, List.take_succ_cons] at hname ⊢
        rw [opensTag, opensTag, List.head?_cons, List.head?_cons, List.tail_cons, List.tail_cons,
          opensName_scan, hname]

/-- **What is left of the tags.** In the kept part of a neutralized text, a tag is left where one
is opened around whole tags. -/
theorem tagFound_iff_nestsTag (m : Bool) (t : Text) (k : Nat)
    (hm : m = true → closesNext t = true) :
    tagDelimiters.found ((tagDelimiters.scan m t).take k) = nestsTag (t.take k) := by
  induction t generalizing m k with
  | nil => cases m <;> rw [Delimiters.scan, List.take_nil] <;> rfl
  | cons u t ih =>
    cases k with
    | zero => cases m <;> rfl
    | succ k =>
      cases m with
      | false =>
        rw [Delimiters.scan]
        by_cases hopens : tagDelimiters.opens u t = true
        · have hcloses : closesNext t = true := by
            have hparts : (u = unit '<' ∧ opensTag t = true) ∧ closesNext t = true := by
              simpa [tagDelimiters] using hopens
            exact hparts.2
          have hinert : ∀ x, tagDelimiters.opens (tagDelimiters.onOpen u) x = false := fun x => rfl
          -- a whole tag that the cap cuts is not followed by any `>`
          have hnone : (!closesNext (t.take k) && closesAfterTags false (t.take k)) = false := by
            by_cases hwhole : closesNext (t.take k) = true
            · rw [hwhole, Bool.not_true, Bool.false_and]
            · rw [closesAfterTags_noAngle (noAngle_of_cut hcloses (Bool.eq_false_iff.2 hwhole)),
                Bool.and_false]
          rw [if_pos hopens, List.take_succ_cons, List.take_succ_cons, Delimiters.found, hinert,
            Bool.false_or, ih true k fun _ => hcloses, nestsTag, Bool.and_assoc, hnone,
            Bool.and_false, Bool.false_or]
        · rw [if_neg hopens, List.take_succ_cons, List.take_succ_cons, Delimiters.found, nestsTag,
            ih false k fun h => by cases h]
          congr 1
          show (_ && opensTag _ && closesNext _) = _
          rw [opensTag_scan, closesNext_scan false t k fun h => by cases h]
          by_cases hopen : u = unit '<'
          · have hpart : (opensTag (t.take k) && closesNext (t.take k)) = false := by
              rw [Bool.eq_false_iff]
              intro h
              refine hopens ?_
              show (decide (u = unit '<') && opensTag t && closesNext t) = true
              rw [decide_eq_true hopen, Bool.true_and]
              exact opensTag_of_take h
            cases hname : opensTag (t.take k) <;> cases hcloses : closesNext (t.take k)
            · simp
            · simp
            · simp
            · rw [hname, hcloses] at hpart
              cases hpart
          · rw [decide_eq_false hopen]
            rfl
      | true =>
        have hcloses := hm rfl
        rw [closesNext] at hcloses
        by_cases hclose : u = unit '>'
        · have hscan : tagDelimiters.scan true (u :: t) =
              unit '›' :: tagDelimiters.scan false t := if_pos (decide_eq_true hclose)
          have hopen : decide (u = unit '<') = false := by
            rw [hclose]
            decide
          rw [hscan, List.take_succ_cons, List.take_succ_cons, nestsTag, hopen, Bool.false_and,
            Bool.false_and, Bool.false_and, Bool.false_or, ← ih false k fun h => by cases h]
          rfl
        · rw [if_neg hclose] at hcloses
          by_cases hopen : u = unit '<'
          · rw [if_pos hopen] at hcloses
            cases hcloses
          · rw [if_neg hopen] at hcloses
            have hscan : tagDelimiters.scan true (u :: t) = u :: tagDelimiters.scan true t :=
              if_neg fun h => hclose (of_decide_eq_true h)
            rw [hscan, List.take_succ_cons, List.take_succ_cons, nestsTag, decide_eq_false hopen,
              Bool.false_and, Bool.false_and, Bool.false_and, Bool.false_or,
              ← ih true k fun _ => hcloses, Delimiters.found]
            show (decide (u = unit '<') && _ && _ || _) = _
            rw [decide_eq_false hopen, Bool.false_and, Bool.false_and, Bool.false_or]

end Psfn.Prompt
