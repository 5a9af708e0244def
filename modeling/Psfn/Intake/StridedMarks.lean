import Psfn.Intake.Marking

/-!
# Marks in a single line

`interleaveDatamark` jumps over 199 code points and looks for white space from there. A loop that
walks one code point at a time and counts them puts the marks in the same places.

* `interleaveCounting_jump` — below the stride the counting loop only copies code points;
* `interleaveCounting_search` — from the stride on it copies up to the next white space;
* `interleaveDatamark_line` — so the two loops agree, and what is left between the marks is the
  text.
-/

namespace Psfn.Intake.Marking

open Psfn.Voice (unit text isSpace)

/-! ## The loop that counts -/

/-- The code points of a text; a pair of surrogates is one, a surrogate alone is one. -/
def codePoints : Text → List Text
  | [] => []
  | [u] => [[u]]
  | u :: v :: t =>
    if isHighSurrogate u && isLowSurrogate v then [u, v] :: codePoints t
    else [u] :: codePoints (v :: t)

/-- One code point at a time; `count` is how many there are since the last mark, or the start. -/
def interleaveCounting (marker : Text) : Nat → List Text → Text
  | _, [] => []
  | count, point :: points =>
    if stride ≤ count + 1 ∧ point.any isSpace = true then
      point ++ (marker ++ interleaveCounting marker 0 points)
    else point ++ interleaveCounting marker (count + 1) points

variable (marker : Text)

theorem isSpace_eq_false_of_surrogate {u : UInt16}
    (h : (isHighSurrogate u || isLowSurrogate u) = true) : isSpace u = false := by
  rw [Bool.eq_false_iff]
  intro hspace
  simp only [isHighSurrogate, isLowSurrogate, isSpace, Bool.or_eq_true, Bool.and_eq_true,
    decide_eq_true_eq, UInt16.le_iff_toNat_le, ← UInt16.toNat_inj, UInt16.reduceToNat] at h hspace
  omega

theorem flatten_codePoints (t : Text) : (codePoints t).flatten = t := by
  induction t using codePoints.induct with
  | case1 => rfl
  | case2 u => rfl
  | case3 u v t hpair ih => rw [codePoints, if_pos hpair, List.flatten_cons, ih]; rfl
  | case4 u v t hpair ih => rw [codePoints, if_neg hpair, List.flatten_cons, ih]; rfl

/-- Below the stride the counting loop only copies, as far as the jump goes. -/
theorem interleaveCounting_jump (n : Nat) (t : Text) {count : Nat} (h : count + n = stride - 1) :
    interleaveCounting marker count (codePoints t) = t.take (codePointUnits n t) ++
      interleaveCounting marker (stride - 1) (codePoints (t.drop (codePointUnits n t))) := by
  induction n, t using codePointUnits.induct generalizing count with
  | case1 t =>
    rw [Nat.add_zero] at h
    rw [codePointUnits, h]
    rfl
  | case2 n hn =>
    cases n with
    | zero => exact absurd rfl hn
    | succ n => rfl
  | case3 n u =>
    have hbelow : ¬ (stride ≤ count + 1 ∧ List.any [u] isSpace = true) := by
      rw [stride] at h ⊢
      omega
    rw [codePointUnits, codePoints, interleaveCounting, if_neg hbelow]
    rfl
  | case4 n u v t hpair ih =>
    have hbelow : ¬ (stride ≤ count + 1 ∧ List.any [u, v] isSpace = true) := by
      rw [stride] at h ⊢
      omega
    rw [codePointUnits, if_pos hpair, codePoints, if_pos hpair, interleaveCounting, if_neg hbelow,
      ih (by omega)]
    rfl
  | case5 n u v t hpair ih =>
    have hbelow : ¬ (stride ≤ count + 1 ∧ List.any [u] isSpace = true) := by
      rw [stride] at h ⊢
      omega
    rw [codePointUnits, if_neg hpair, codePoints, if_neg hpair, interleaveCounting, if_neg hbelow,
      ih (by omega)]
    rfl

/-- From the stride on the counting loop copies up to the next white space. -/
theorem interleaveCounting_search (t : Text) {count : Nat} (h : stride ≤ count + 1) :
    (t.findIdx? isSpace = none → interleaveCounting marker count (codePoints t) = t) ∧
      ∀ i, t.findIdx? isSpace = some i → interleaveCounting marker count (codePoints t) =
        t.take (i + 1) ++ (marker ++ interleaveCounting marker 0 (codePoints (t.drop (i + 1)))) := by
  induction t using codePoints.induct generalizing count with
  | case1 => exact ⟨fun _ => rfl, nofun⟩
  | case2 u =>
    rw [codePoints, interleaveCounting]
    by_cases hu : isSpace u = true
    · rw [if_pos ⟨h, by simpa using hu⟩]
      refine ⟨fun hnone => ?_, fun i hi => ?_⟩
      · simp [hu] at hnone
      · obtain rfl : i = 0 := by simpa [List.findIdx?_cons, hu] using hi.symm
        rfl
    · rw [if_neg fun hand => hu (by simpa using hand.2)]
      exact ⟨fun _ => rfl, fun i hi => by simp [List.findIdx?_cons, hu] at hi⟩
  | case3 u v t hpair ih =>
    -- neither unit of a pair is white space
    rw [Bool.and_eq_true] at hpair
    have hu : isSpace u = false := isSpace_eq_false_of_surrogate (by rw [hpair.1]; rfl)
    have hv : isSpace v = false := isSpace_eq_false_of_surrogate (by rw [hpair.2, Bool.or_true])
    have hmark : ¬ (stride ≤ count + 1 ∧ List.any [u, v] isSpace = true) := by simp [hu, hv]
    obtain ⟨hnone, hsome⟩ := @ih (count + 1) (by omega)
    rw [codePoints, if_pos (by rw [hpair.1, hpair.2]; rfl), interleaveCounting, if_neg hmark]
    refine ⟨fun hfind => ?_, fun i hi => ?_⟩
    · rw [hnone (by simpa [List.findIdx?_cons, hu, hv] using hfind)]
      rfl
    · simp only [List.findIdx?_cons, hu, hv, Bool.false_eq_true, if_false, Option.map_map] at hi
      obtain ⟨j, hj, rfl⟩ := Option.map_eq_some_iff.1 hi
      rw [hsome j hj]
      rfl
  | case4 u v t hpair ih =>
    obtain ⟨hnone, hsome⟩ := @ih (count + 1) (by omega)
    rw [codePoints, if_neg hpair, interleaveCounting]
    by_cases hu : isSpace u = true
    · rw [if_pos ⟨h, by simpa using hu⟩]
      refine ⟨fun hfind => ?_, fun i hi => ?_⟩
      · simp [List.findIdx?_cons, hu] at hfind
      · obtain rfl : i = 0 := by simpa [List.findIdx?_cons, hu] using hi.symm
        rfl
    · rw [if_neg fun hand => hu (by simpa using hand.2)]
      rw [Bool.not_eq_true] at hu
      refine ⟨fun hfind => ?_, fun i hi => ?_⟩
      · rw [List.findIdx?_cons, hu, if_neg Bool.false_ne_true, Option.map_eq_none_iff] at hfind
        rw [hnone hfind]
        rfl
      · rw [List.findIdx?_cons, hu, if_neg Bool.false_ne_true] at hi
        obtain ⟨j, hj, rfl⟩ := Option.map_eq_some_iff.1 hi
        rw [hsome j hj]
        rfl

/-! ## The two loops -/

theorem interleaveLine_eq (t : Text) :
    interleaveLine marker t = interleaveCounting marker 0 (codePoints t) := by
  induction t using interleaveLine.induct with
  | case1 t hnone =>
    have hsearch := (interleaveCounting_search marker (t.drop (codePointUnits (stride - 1) t))
      (show stride ≤ stride - 1 + 1 from Nat.le_refl _)).1 (Option.map_eq_none_iff.1 hnone)
    rw [interleaveCounting_jump marker (stride - 1) t (Nat.zero_add _), hsearch, List.take_append_drop,
      interleaveLine]
    split
    · rfl
    · next hsome =>
      rw [hnone] at hsome
      cases hsome
  | case2 t n hsome ih =>
    obtain ⟨i, hi, rfl⟩ := Option.map_eq_some_iff.1 hsome
    have hsearch := (interleaveCounting_search marker (t.drop (codePointUnits (stride - 1) t))
      (show stride ≤ stride - 1 + 1 from Nat.le_refl _)).2 i hi
    rw [interleaveCounting_jump marker (stride - 1) t (Nat.zero_add _), hsearch, List.drop_drop,
      ← List.append_assoc, ← List.take_add, ← Nat.add_assoc, ← ih, ← List.append_assoc,
      interleaveLine]
    split
    · next hnone =>
      rw [hsome] at hnone
      cases hnone
    · next hsome' =>
      rw [hsome] at hsome'
      obtain rfl := Option.some.inj hsome'
      rfl

/-- The text between the marks. -/
theorem exists_pieces (count : Nat) (points : List Text) :
    ∃ first rest, points.flatten = first ++ rest.flatten ∧
      interleaveCounting marker count points = marker.intercalate (first :: rest) := by
  induction points generalizing count with
  | nil => exact ⟨[], [], rfl, by simp [interleaveCounting]⟩
  | cons point points ih =>
    rw [interleaveCounting, List.flatten_cons]
    split
    · obtain ⟨first, rest, hflatten, hbody⟩ := ih 0
      refine ⟨point, first :: rest, by rw [hflatten, List.flatten_cons], ?_⟩
      rw [hbody, List.intercalate_cons_cons, List.append_assoc]
    · obtain ⟨first, rest, hflatten, hbody⟩ := ih (count + 1)
      refine ⟨point ++ first, rest, by rw [hflatten, List.append_assoc], ?_⟩
      rw [hbody]
      cases rest with
      | nil => rw [List.intercalate_singleton, List.intercalate_singleton]
      | cons next rest =>
        rw [List.intercalate_cons_cons, List.intercalate_cons_cons, List.append_assoc,
          List.append_assoc, List.append_assoc]

/-- **The strided loop is the counting loop**, on a single line longer than the stride, and the
pieces between the marks are the text. -/
theorem interleaveDatamark_line {marker t : Text} (hmarker : marker ≠ []) (hline : unit '\n' ∉ t)
    (hlong : stride < t.length) :
    interleaveDatamark t marker = .ok (interleaveCounting marker 0 (codePoints t)) ∧
      ∃ pieces : List Text, pieces.flatten = t ∧
        interleaveCounting marker 0 (codePoints t) = marker.intercalate pieces := by
  constructor
  · rw [interleaveDatamark, if_neg (by simpa using hmarker), if_neg hline, if_neg (by omega),
      interleaveLine_eq]
    rfl
  · obtain ⟨first, rest, hflatten, hbody⟩ := exists_pieces marker 0 (codePoints t)
    refine ⟨first :: rest, ?_, hbody⟩
    rw [List.flatten_cons, ← hflatten, flatten_codePoints]

/-- Fifty words. -/
theorem interleaveDatamark_line_words :
    interleaveDatamark (List.replicate 50 (text "word ")).flatten intakeDatamarkMarker =
        .ok (interleaveCounting intakeDatamarkMarker 0
          (codePoints (List.replicate 50 (text "word ")).flatten)) ∧
      ∃ pieces : List Text, pieces.flatten = (List.replicate 50 (text "word ")).flatten ∧
        interleaveCounting intakeDatamarkMarker 0
            (codePoints (List.replicate 50 (text "word ")).flatten) =
          intakeDatamarkMarker.intercalate pieces :=
  interleaveDatamark_line (by decide) (by decide +kernel) (by decide +kernel)

end Psfn.Intake.Marking
