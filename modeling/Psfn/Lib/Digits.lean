import Psfn.Lib.JsString

/-!
# Decimal texts in text order

Texts of one width that are made of decimal digits are ordered as the numbers they stand for.

* `fixed_lt` — of two numbers below `10 ^ w`, the smaller one has the smaller text;
* `textLt_append`, `textLt_append_left` — the first part that differs decides;
* `toDigits_eq_fixed` — a number without leading zeros has the text of its own width.
-/

namespace Psfn.Lib.Digits

open Psfn.Lib.JsString

/-! ## Text order -/

/-- The order of `localeCompare` on texts of digits, `-`, `T`, `W` and `Z`. -/
def textLe (a b : List Char) : Bool := unitsLe (a.map Char.toNat) (b.map Char.toNat)

def textLt (a b : List Char) : Prop := textLe b a = false

theorem unitsLe_antisymm : ∀ {a b : List Nat}, unitsLe a b = true → unitsLe b a = true → a = b
  | [], [], _, _ => rfl
  | [], _ :: _, _, h => by cases h
  | _ :: _, [], h, _ => by cases h
  | x :: xs, y :: ys, hab, hba => by
    simp only [unitsLe, Bool.or_eq_true, Bool.and_eq_true, decide_eq_true_eq] at hab hba
    rcases hab with hlt | ⟨rfl, hxs⟩
    · rcases hba with hgt | ⟨rfl, -⟩
      · omega
      · omega
    · rcases hba with hlt | ⟨-, hys⟩
      · omega
      · rw [unitsLe_antisymm hxs hys]

theorem textLe_total (a b : List Char) : (textLe a b || textLe b a) = true := unitsLe_total _ _

theorem textLe_trans {a b c : List Char} (hab : textLe a b = true) (hbc : textLe b c = true) :
    textLe a c = true := unitsLe_trans _ _ _ hab hbc

theorem textLe_antisymm {a b : List Char} (hab : textLe a b = true) (hba : textLe b a = true) :
    a = b :=
  List.map_injective_iff.2 (fun _ _ h => Char.toNat_inj.1 h) (unitsLe_antisymm hab hba)

theorem textLe_refl (a : List Char) : textLe a a = true := by simpa using textLe_total a a

theorem textLt.le {a b : List Char} (h : textLt a b) : textLe a b = true := by
  have htotal := textLe_total a b
  rw [show textLe b a = false from h, Bool.or_false] at htotal
  exact htotal

theorem textLt.ne {a b : List Char} (h : textLt a b) : a ≠ b := by
  rintro rfl
  rw [textLt, textLe_refl] at h
  cases h

theorem textLt_of_ne {a b : List Char} (h : textLe a b = true) (hne : a ≠ b) : textLt a b := by
  rw [textLt, Bool.eq_false_iff]
  exact fun hba => hne (textLe_antisymm h hba)

theorem textLe_append_left (a x y : List Char) : textLe (a ++ x) (a ++ y) = textLe x y := by
  induction a with
  | nil => rfl
  | cons c a ih =>
    rw [← ih]
    show unitsLe (c.toNat :: _) (c.toNat :: _) = _
    rw [unitsLe]
    simp [textLe]

theorem textLt_append_left {x y : List Char} (a : List Char) :
    textLt (a ++ x) (a ++ y) ↔ textLt x y := by
  rw [textLt, textLt, textLe_append_left]

theorem textLt_append {a b : List Char} (hlength : a.length = b.length) (h : textLt a b)
    (x y : List Char) : textLt (a ++ x) (b ++ y) := by
  induction a generalizing b with
  | nil =>
    rw [List.length_nil, eq_comm, List.length_eq_zero_iff] at hlength
    rw [hlength] at h
    cases h
  | cons c a ih =>
    cases b with
    | nil => cases hlength
    | cons e b =>
      have hrest := ih (Nat.succ.inj hlength)
      rw [textLt] at h ⊢
      simp only [textLe, List.cons_append, List.map_cons, unitsLe, Bool.or_eq_false_iff,
        Bool.and_eq_false_iff, decide_eq_false_iff_not] at h ⊢
      refine ⟨h.1, ?_⟩
      rcases h.2 with hne | hle
      · exact .inl hne
      · exact .inr (hrest hle)

/-! ## Fixed width -/

/-- The last `w` decimal digits of `n`. -/
def fixed : Nat → Nat → List Char
  | 0, _ => []
  | w + 1, n => fixed w (n / 10) ++ [Nat.digitChar (n % 10)]

/-- How many numbers have a text of width `w`. -/
def count : Nat → Nat
  | 0 => 1
  | w + 1 => 10 * count w

theorem toNat_digitChar {d : Nat} (h : d < 10) : (Nat.digitChar d).toNat = 48 + d := by
  have hall : ∀ d < 10, (Nat.digitChar d).toNat = 48 + d := by decide
  exact hall d h

@[simp] theorem length_fixed (w n : Nat) : (fixed w n).length = w := by
  induction w generalizing n with
  | zero => rfl
  | succ w ih => rw [fixed, List.length_append, ih, List.length_singleton]

theorem fixed_lt {w n m : Nat} (h : n < m) (hm : m < count w) :
    textLt (fixed w n) (fixed w m) := by
  induction w generalizing n m with
  | zero =>
    rw [count] at hm
    omega
  | succ w ih =>
    rw [count] at hm
    rw [fixed, fixed]
    rcases Nat.lt_or_ge (n / 10) (m / 10) with hlt | hge
    · exact textLt_append (by simp) (ih hlt (by omega)) _ _
    · -- the leading digits agree, so the last one decides
      have heq : n / 10 = m / 10 := by omega
      have hlast : n % 10 < m % 10 := by omega
      rw [heq, textLt_append_left]
      simp only [textLt, textLe, List.map_cons, List.map_nil, unitsLe, Bool.or_eq_false_iff,
        Bool.and_eq_false_iff, decide_eq_false_iff_not]
      rw [toNat_digitChar (by omega), toNat_digitChar (by omega)]
      exact ⟨by omega, .inl (by omega)⟩

theorem fixed_inj {w n m : Nat} (hn : n < count w) (hm : m < count w)
    (h : fixed w n = fixed w m) : n = m := by
  rcases Nat.lt_trichotomy n m with hlt | heq | hgt
  · exact absurd h (fixed_lt hlt hm).ne
  · exact heq
  · exact absurd h.symm (fixed_lt hgt hn).ne

theorem lt_of_fixed_lt {w n m : Nat} (hn : n < count w)
    (h : textLt (fixed w n) (fixed w m)) : n < m := by
  rcases Nat.lt_trichotomy n m with hlt | rfl | hgt
  · exact hlt
  · exact absurd rfl h.ne
  · have hle := (fixed_lt hgt hn).le
    rw [show textLe (fixed w m) (fixed w n) = false from h] at hle
    cases hle

theorem decimalValue_fixed {w n : Nat} (h : n < count w) : decimalValue (fixed w n) = n := by
  induction w generalizing n with
  | zero =>
    rw [count] at h
    have hzero : n = 0 := by omega
    rw [hzero]
    rfl
  | succ w ih =>
    rw [count] at h
    rw [fixed, decimalValue, List.foldl_append, ← decimalValue, ih (by omega), List.foldl_cons,
      List.foldl_nil, toNat_digitChar (by omega)]
    show 10 * (n / 10) + (48 + n % 10 - 48) = n
    omega

theorem isDigit_of_mem_fixed {w n : Nat} {c : Char} (h : c ∈ fixed w n) : c.isDigit = true := by
  induction w generalizing n with
  | zero => cases h
  | succ w ih =>
    rw [fixed, List.mem_append, List.mem_singleton] at h
    rcases h with h | rfl
    · exact ih h
    · have hall : ∀ d < 10, (Nat.digitChar d).isDigit = true := by decide
      exact hall _ (Nat.mod_lt _ (by decide))

/-- A number that needs all the digits. -/
theorem toDigits_eq_fixed {w n : Nat} (hlow : count w ≤ n) (hhigh : n < count (w + 1)) :
    Nat.toDigits 10 n = fixed (w + 1) n := by
  induction w generalizing n with
  | zero =>
    rw [count, count] at hhigh
    rw [Nat.toDigits_of_lt_base hhigh, fixed, fixed, Nat.mod_eq_of_lt hhigh]
    rfl
  | succ w ih =>
    have hpos : 0 < count w := by
      clear ih hlow hhigh
      induction w with
      | zero => decide
      | succ w ih =>
        rw [count]
        omega
    rw [count] at hlow hhigh
    rw [count] at hhigh
    have hrest := ih (n := n / 10) (by omega) (by rw [count]; omega)
    rw [Nat.toDigits_of_base_le (by decide) (by omega), hrest]
    rfl

/-- `padStart(2, '0')`. -/
def padTwo (t : List Char) : List Char := List.replicate (2 - t.length) '0' ++ t

theorem padTwo_eq_fixed {n : Nat} (h : n < 100) : padTwo (Nat.toDigits 10 n) = fixed 2 n := by
  have hall : ∀ n < 100, padTwo (Nat.toDigits 10 n) = fixed 2 n := by decide +kernel
  exact hall n h

end Psfn.Lib.Digits
