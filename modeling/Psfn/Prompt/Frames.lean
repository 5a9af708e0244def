import Psfn.Prompt.Tags

/-!
# What is left of the frames

Neutralizing swaps the first bracket of a frame and the next closing one. The brackets between
them are left, and capping the length can end a longer word in a keyword.

* `frame_opens_squeeze`, `frame_opens_trimEnd` — white space does not decide what opens a frame;
* `frameFound_iff_nestsFrame` — in the kept part of a neutralized text, a frame is left where one
  is opened inside another, or where the cut ends a keyword.
-/

namespace Psfn.Prompt

open Psfn.Lib Psfn.Lib.Replace
open Psfn.Voice (Text unit text isSpace isLetter)

/-! ## Frames -/

/-- No unit that a keyword or the spaces before it could go on with. -/
def Breaks (t : Text) : Prop := ∀ u ∈ t, isWordUnit u = false

theorem letters_of_keyword {keyword : Text} (h : keyword ∈ bracketFrameKeywords) :
    ∀ k ∈ keyword, isLetter k = true := by
  have hall : bracketFrameKeywords.all (fun keyword => keyword.all isLetter) = true := rfl
  exact List.all_eq_true.1 (List.all_eq_true.1 hall keyword h)

/-- A unit that is no letter is no unit of a keyword. -/
theorem lower_eq_false {u k : UInt16} (hk : isLetter k = true) (hu : isLetter u = false) :
    decide (lower u = k) = false := by
  refine decide_eq_false ?_
  rintro rfl
  rw [isLetter_of_lower hk] at hu
  cases hu

theorem isLetter_eq_false_of_not_word {u : UInt16} (h : isWordUnit u = false) :
    isLetter u = false := by
  rw [Bool.eq_false_iff]
  intro hletter
  rw [isWordUnit_of_isLetter hletter] at h
  cases h

theorem hasKeyword_append {x : Text} (hx : Breaks x) {keyword : Text}
    (hkeyword : ∀ k ∈ keyword, isLetter k = true) (t : Text) :
    hasKeyword keyword (t ++ x) = hasKeyword keyword t := by
  induction keyword generalizing t with
  | nil =>
    cases t with
    | nil =>
      cases x with
      | nil => rfl
      | cons v x =>
        show (!isWordUnit v) = true
        rw [hx v List.mem_cons_self]
        rfl
    | cons u t => rfl
  | cons k keyword ih =>
    cases t with
    | nil =>
      cases x with
      | nil => rfl
      | cons v x =>
        have hv := isLetter_eq_false_of_not_word (hx v List.mem_cons_self)
        show hasKeyword (k :: keyword) (v :: x) = false
        rw [hasKeyword, lower_eq_false (hkeyword k List.mem_cons_self) hv, Bool.false_and]
    | cons u t =>
      rw [List.cons_append, hasKeyword, hasKeyword,
        ih (fun l hl => hkeyword l (List.mem_cons_of_mem k hl))]

theorem opensFrame_append {x : Text} (hx : Breaks x) (t : Text) :
    opensFrame (t ++ x) = opensFrame t := by
  rw [opensFrame, opensFrame, Bool.eq_iff_iff, List.any_eq_true, List.any_eq_true]
  refine exists_congr fun keyword => and_congr_right fun hkeyword => ?_
  have hletters := letters_of_keyword hkeyword
  rw [List.dropWhile_append]
  split
  · next hempty =>
    have hrest : Breaks (x.dropWhile isSpace) := fun u hu =>
      hx u ((List.dropWhile_sublist isSpace).subset hu)
    rw [List.isEmpty_iff.1 hempty, ← hasKeyword_append hrest hletters [], List.nil_append]
  · rw [hasKeyword_append hx hletters]

theorem hasKeyword_squeeze {keyword : Text} (hkeyword : ∀ k ∈ keyword, isLetter k = true)
    (t : Text) :
    hasKeyword keyword (squeeze isSpace (unit ' ') false t) = hasKeyword keyword t := by
  induction keyword generalizing t with
  | nil =>
    cases t with
    | nil => rfl
    | cons u t =>
      by_cases hspace : isSpace u = true
      · rw [squeeze_cons_pos hspace]
        show (!isWordUnit (unit ' ')) = !isWordUnit u
        rw [isWordUnit_eq_false_of_isSpace hspace]
        rfl
      · rw [squeeze_cons_neg hspace]
        rfl
  | cons k keyword ih =>
    cases t with
    | nil => rfl
    | cons u t =>
      have hk := hkeyword k List.mem_cons_self
      by_cases hspace : isSpace u = true
      · have hu := isLetter_eq_false_of_not_word (isWordUnit_eq_false_of_isSpace hspace)
        have hblank : isLetter (unit ' ') = false := by decide
        rw [squeeze_cons_pos hspace, hasKeyword, hasKeyword, lower_eq_false hk hu,
          lower_eq_false hk hblank, Bool.false_and, Bool.false_and]
      · rw [squeeze_cons_neg hspace, hasKeyword, hasKeyword,
          ih fun l hl => hkeyword l (List.mem_cons_of_mem k hl)]

theorem opensFrame_squeeze (t : Text) :
    opensFrame (squeeze isSpace (unit ' ') false t) = opensFrame t := by
  rw [opensFrame, opensFrame, Bool.eq_iff_iff, List.any_eq_true, List.any_eq_true]
  refine exists_congr fun keyword => and_congr_right fun hkeyword => ?_
  rw [dropWhile_squeeze (by decide), hasKeyword_squeeze (letters_of_keyword hkeyword)]

/-- A unit that is neither white space nor part of a word. -/
def InertInFrame (u : UInt16) : Prop := isWordUnit u = false ∧ isSpace u = false

section FrameMap

variable {f : UInt16 → UInt16} (hf : ∀ u, f u = u ∨ (InertInFrame u ∧ InertInFrame (f u)))

include hf

theorem isWordUnit_map (u : UInt16) : isWordUnit (f u) = isWordUnit u := by
  rcases hf u with h | ⟨hu, hfu⟩
  · rw [h]
  · rw [hu.1, hfu.1]

theorem isSpace_map (u : UInt16) : isSpace (f u) = isSpace u := by
  rcases hf u with h | ⟨hu, hfu⟩
  · rw [h]
  · rw [hu.2, hfu.2]

theorem lower_map {k : UInt16} (hk : isLetter k = true) (u : UInt16) :
    decide (lower (f u) = k) = decide (lower u = k) := by
  rcases hf u with h | ⟨hu, hfu⟩
  · rw [h]
  · rw [lower_eq_false hk (isLetter_eq_false_of_not_word hu.1),
      lower_eq_false hk (isLetter_eq_false_of_not_word hfu.1)]

theorem hasKeyword_map {keyword : Text} (hkeyword : ∀ k ∈ keyword, isLetter k = true)
    (t : Text) : hasKeyword keyword (t.map f) = hasKeyword keyword t := by
  induction keyword generalizing t with
  | nil =>
    cases t with
    | nil => rfl
    | cons u t => exact congrArg (!·) (isWordUnit_map hf u)
  | cons k keyword ih =>
    cases t with
    | nil => rfl
    | cons u t =>
      rw [List.map_cons, hasKeyword, hasKeyword, lower_map hf (hkeyword k List.mem_cons_self),
        ih fun l hl => hkeyword l (List.mem_cons_of_mem k hl)]

theorem opensFrame_map (t : Text) : opensFrame (t.map f) = opensFrame t := by
  have hspaces : isSpace ∘ f = isSpace := funext (isSpace_map hf)
  rw [opensFrame, opensFrame, Bool.eq_iff_iff, List.any_eq_true, List.any_eq_true]
  refine exists_congr fun keyword => and_congr_right fun hkeyword => ?_
  rw [List.dropWhile_map, hspaces, hasKeyword_map hf (letters_of_keyword hkeyword)]

end FrameMap

theorem frame_opens_append {x : Text} (hx : Breaks x) (u : UInt16) (t : Text) :
    frameDelimiters.opens u (t ++ x) = frameDelimiters.opens u t := by
  show (_ && opensFrame (t ++ x)) = (_ && opensFrame t)
  rw [opensFrame_append hx]

theorem frame_found_of_notMem {x : Text} (hx : unit '[' ∉ x) : frameDelimiters.found x = false := by
  induction x with
  | nil => rfl
  | cons u x ih =>
    rw [List.mem_cons, not_or] at hx
    rw [Delimiters.found, ih hx.2, Bool.or_false]
    show (decide (u = unit '[') && _) = false
    rw [decide_eq_false fun h => hx.1 h.symm, Bool.false_and]

theorem frame_found_append {x : Text} (hbreaks : Breaks x) (hx : unit '[' ∉ x) (t : Text) :
    frameDelimiters.found (t ++ x) = frameDelimiters.found t :=
  frameDelimiters.found_append (frame_opens_append hbreaks) (frame_found_of_notMem hx) t

theorem frame_opens_squeeze (u : UInt16) (t : Text) :
    frameDelimiters.opens u (squeeze isSpace (unit ' ') false t) = frameDelimiters.opens u t := by
  show (_ && opensFrame _) = (_ && opensFrame t)
  rw [opensFrame_squeeze]

theorem breaks_of_spaces {t : Text} (h : ∀ u ∈ t, isSpace u = true) : Breaks t :=
  fun u hu => isWordUnit_eq_false_of_isSpace (h u hu)

theorem frame_opens_trimEnd (u : UInt16) (t : Text) :
    frameDelimiters.opens u (t.rdropWhile isSpace) = frameDelimiters.opens u t := by
  have hspaces : Breaks (t.rtakeWhile isSpace) :=
    breaks_of_spaces fun u hu => List.mem_rtakeWhile_imp hu
  rw [← frame_opens_append hspaces, List.rdropWhile_append_rtakeWhile]

theorem frame_found_trimEnd (t : Text) :
    frameDelimiters.found (t.rdropWhile isSpace) = frameDelimiters.found t := by
  have hspaces : ∀ u ∈ t.rtakeWhile isSpace, isSpace u = true :=
    fun u hu => List.mem_rtakeWhile_imp hu
  have hbracket : unit '[' ∉ t.rtakeWhile isSpace := fun h =>
    absurd (hspaces _ h) (by decide)
  rw [← frame_found_append (breaks_of_spaces hspaces) hbracket,
    List.rdropWhile_append_rtakeWhile]

theorem frame_apart : frameDelimiters.Apart isSpace where
  opens u t h := by
    have hopen : u ≠ unit '[' := by
      rintro rfl
      exact absurd h (by decide)
    show (decide (u = unit '[') && _) = false
    rw [decide_eq_false hopen, Bool.false_and]
  closes u h := by
    refine decide_eq_false ?_
    rintro rfl
    exact absurd h (by decide)
  onOpen _ _ _ := show isSpace (unit '(') = false by decide
  onClose _ _ := show isSpace (unit ')') = false by decide

/-! ## One frame inside another -/

/-- A frame is opened inside another one; the bit is whether a frame is open. -/
def nestsFrame : Bool → Text → Bool
  | _, [] => false
  | false, u :: t => if u = unit '[' && opensFrame t then nestsFrame true t else nestsFrame false t
  | true, u :: t =>
    if u = unit ']' then nestsFrame false t
    else (u = unit '[' && opensFrame t) || nestsFrame true t

/-- A frame opens in the first `k` units of the text, and not in the whole text. -/
def cutsIntoFrame : Nat → Text → Bool
  | _, [] => false
  | 0, _ => false
  | k + 1, u :: t =>
    (u = unit '[' && opensFrame (t.take k) && !opensFrame t) || cutsIntoFrame k t

/-- `(` and `)` read as the square brackets they may come from. -/
def squareUp (u : UInt16) : UInt16 :=
  if u = unit '(' then unit '[' else if u = unit ')' then unit ']' else u

theorem squareUp_eq (u : UInt16) :
    squareUp u = u ∨ (u = unit '(' ∧ squareUp u = unit '[') ∨
      (u = unit ')' ∧ squareUp u = unit ']') := by
  rw [squareUp]
  split
  · next h => exact .inr (.inl ⟨h, rfl⟩)
  · split
    · next h => exact .inr (.inr ⟨h, rfl⟩)
    · exact .inl rfl

theorem squareUp_scan (m : Bool) (t : Text) :
    (frameDelimiters.scan m t).map squareUp = t.map squareUp := by
  refine frameDelimiters.map_scan (fun u r h => ?_) (fun u h => ?_) m t
  · have hu : u = unit '[' := by
      have hparts : u = unit '[' ∧ opensFrame r = true := by simpa [frameDelimiters] using h
      exact hparts.1
    rw [hu]
    rfl
  · rw [show u = unit ']' from of_decide_eq_true h]
    rfl

theorem opensFrame_scan (m : Bool) (t : Text) (k : Nat) :
    opensFrame ((frameDelimiters.scan m t).take k) = opensFrame (t.take k) := by
  have hinert : ∀ u, squareUp u = u ∨ (InertInFrame u ∧ InertInFrame (squareUp u)) := by
    intro u
    rcases squareUp_eq u with h | ⟨hu, h⟩ | ⟨hu, h⟩
    · exact .inl h
    · rw [h, hu]
      exact .inr ⟨⟨by decide, by decide⟩, ⟨by decide, by decide⟩⟩
    · rw [h, hu]
      exact .inr ⟨⟨by decide, by decide⟩, ⟨by decide, by decide⟩⟩
  rw [← opensFrame_map hinert, List.map_take, squareUp_scan, ← List.map_take,
    opensFrame_map hinert]

theorem hasKeyword_split {keyword t : Text} (h : hasKeyword keyword t = true)
    (hkeyword : ∀ k ∈ keyword, isLetter k = true) (k : Nat) :
    hasKeyword keyword (t.take k) = true ∨ ∀ u ∈ t.take k, isLetter u = true := by
  induction keyword generalizing t k with
  | nil =>
    cases t with
    | nil =>
      rw [List.take_nil]
      exact .inl h
    | cons u t =>
      cases k with
      | zero => exact .inl rfl
      | succ k => exact .inl h
  | cons l keyword ih =>
    cases t with
    | nil => cases h
    | cons u t =>
      rw [hasKeyword, Bool.and_eq_true] at h
      cases k with
      | zero => exact .inr fun v hv => nomatch hv
      | succ k =>
        have hu : isLetter u = true := by
          refine isLetter_of_lower ?_
          rw [of_decide_eq_true h.1]
          exact hkeyword l List.mem_cons_self
        rcases ih h.2 (fun k hk => hkeyword k (List.mem_cons_of_mem l hk)) k with hwhole | hpart
        · refine .inl ?_
          rw [List.take_succ_cons, hasKeyword, h.1, hwhole]
          rfl
        · refine .inr fun v hv => ?_
          rcases List.mem_cons.1 hv with rfl | hv
          · exact hu
          · exact hpart v hv

/-- A frame that the cut no longer opens is cut before its keyword ends. -/
theorem opensFrame_cut {t : Text} (h : opensFrame t = true) (k : Nat)
    (hcut : opensFrame (t.take k) = false) : unit '[' ∉ t.take k := by
  induction t generalizing k with
  | nil =>
    rw [List.take_nil]
    exact List.not_mem_nil
  | cons u t ih =>
    cases k with
    | zero => exact List.not_mem_nil
    | succ k =>
      rw [List.take_succ_cons] at hcut ⊢
      by_cases hspace : isSpace u = true
      · have hskip : ∀ x, opensFrame (u :: x) = opensFrame x := fun x => by
          rw [opensFrame, opensFrame, List.dropWhile_cons_of_pos hspace]
        rw [hskip] at h hcut
        rw [List.mem_cons, not_or]
        refine ⟨?_, ih h k hcut⟩
        rintro rfl
        exact absurd hspace (by decide)
      · rw [opensFrame, List.dropWhile_cons_of_neg hspace, List.any_eq_true] at h
        obtain ⟨keyword, hkeyword, hhas⟩ := h
        rcases hasKeyword_split hhas (letters_of_keyword hkeyword) (k + 1) with hwhole | hpart
        · have hopens : opensFrame (u :: t.take k) = true := by
            rw [opensFrame, List.dropWhile_cons_of_neg hspace, List.any_eq_true]
            exact ⟨keyword, hkeyword, hwhole⟩
          rw [hopens] at hcut
          cases hcut
        · exact fun hmem => absurd (hpart _ hmem) (by decide)

theorem nestsFrame_of_notMem {x : Text} (hx : unit '[' ∉ x) (m : Bool) :
    nestsFrame m x = false := by
  induction x generalizing m with
  | nil => cases m <;> rfl
  | cons u x ih =>
    rw [List.mem_cons, not_or] at hx
    have hopen : decide (u = unit '[') = false := decide_eq_false fun h => hx.1 h.symm
    cases m with
    | false =>
      rw [nestsFrame, hopen, Bool.false_and, if_neg Bool.false_ne_true, ih hx.2]
    | true =>
      rw [nestsFrame, hopen, Bool.false_and, Bool.false_or, ih hx.2, ih hx.2, ite_self]

/-- **What is left of the frames.** In the kept part of a neutralized text, a frame is left where
one is opened inside another, or where the cut ends a keyword. -/
theorem frameFound_iff_nestsFrame (m : Bool) (t : Text) (k : Nat) :
    frameDelimiters.found ((frameDelimiters.scan m t).take k) =
      (nestsFrame m (t.take k) || cutsIntoFrame k t) := by
  induction t generalizing m k with
  | nil => cases m <;> cases k <;> rfl
  | cons u t ih =>
    cases k with
    | zero => cases m <;> rfl
    | succ k =>
      have hkeep : ∀ m', frameDelimiters.opens u ((frameDelimiters.scan m' t).take k) =
          (decide (u = unit '[') && opensFrame (t.take k)) := fun m' => by
        show (_ && opensFrame _) = _
        rw [opensFrame_scan]
      cases m with
      | false =>
        rw [Delimiters.scan, List.take_succ_cons, cutsIntoFrame, nestsFrame]
        by_cases hopens : frameDelimiters.opens u t = true
        · have hparts : u = unit '[' ∧ opensFrame t = true := by
            simpa [frameDelimiters] using hopens
          have hinert : ∀ x, frameDelimiters.opens (frameDelimiters.onOpen u) x = false :=
            fun x => rfl
          rw [if_pos hopens, List.take_succ_cons, Delimiters.found, hinert, Bool.false_or, ih,
            hparts.2, Bool.not_true, Bool.and_false, Bool.false_or]
          by_cases hcut : opensFrame (t.take k) = true
          · rw [if_pos (by rw [hcut, hparts.1]; rfl)]
          · have hnone := opensFrame_cut hparts.2 k (Bool.eq_false_iff.2 hcut)
            rw [nestsFrame_of_notMem hnone, nestsFrame_of_notMem hnone, ite_self]
        · rw [if_neg hopens, List.take_succ_cons, Delimiters.found, hkeep, ih]
          by_cases hopen : u = unit '['
          · have hlater : opensFrame t = false := by
              rw [Bool.eq_false_iff]
              intro h
              refine hopens ?_
              show (decide (u = unit '[') && opensFrame t) = true
              rw [decide_eq_true hopen, h]
              rfl
            rw [decide_eq_true hopen, hlater, Bool.true_and]
            cases opensFrame (t.take k) <;> simp
          · rw [decide_eq_false hopen]
            simp
      | true =>
        rw [List.take_succ_cons, cutsIntoFrame, nestsFrame]
        by_cases hclose : u = unit ']'
        · have hscan : frameDelimiters.scan true (u :: t) =
              unit ')' :: frameDelimiters.scan false t := if_pos (decide_eq_true hclose)
          have hopen : decide (u = unit '[') = false := by
            rw [hclose]
            decide
          rw [hscan, List.take_succ_cons, if_pos hclose, hopen, Bool.false_and, Bool.false_and,
            Bool.false_or, ← ih]
          rfl
        · have hscan : frameDelimiters.scan true (u :: t) = u :: frameDelimiters.scan true t :=
            if_neg fun h => hclose (of_decide_eq_true h)
          rw [hscan, List.take_succ_cons, if_neg hclose, Delimiters.found, hkeep, ih]
          -- what opens inside a frame is found whether or not the cut completes it
          cases decide (u = unit '[') && opensFrame (t.take k) <;> simp

end Psfn.Prompt
