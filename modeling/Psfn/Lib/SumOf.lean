import Mathlib.Tactic.Linarith

/-!
# Sums over a list

The sum of a rational measure over the entries of a list, and how it moves when one entry is added
or changed: a ledger's books are kept by these rules.
-/

namespace Psfn.Lib

def sumOf {α : Type} (f : α → Rat) : List α → Rat
  | [] => 0
  | a :: rest => f a + sumOf f rest

example : sumOf id [] = 0 := by rw [sumOf]

theorem sumOf_append {α : Type} (f : α → Rat) (l : List α) (a : α) :
    sumOf f (l ++ [a]) = sumOf f l + f a := by
  induction l with
  | nil => simp [sumOf]
  | cons first rest ih => rw [List.cons_append, sumOf, ih, sumOf, add_assoc]

theorem sumOf_modify {α : Type} (f : α → Rat) (g : α → α) {l : List α} {i : Nat} {a : α}
    (h : l[i]? = some a) : sumOf f (l.modify i g) = sumOf f l + (f (g a) - f a) := by
  induction l generalizing i with
  | nil => cases h
  | cons first rest ih =>
    cases i with
    | zero =>
      obtain rfl : first = a := Option.some.inj h
      rw [List.modify_zero_cons, sumOf, sumOf]
      linarith
    | succ i =>
      rw [List.modify_succ_cons, sumOf, sumOf, ih h]
      linarith

theorem sumOf_eq_zero {α : Type} {f : α → Rat} {l : List α} (h : ∀ a ∈ l, f a = 0) :
    sumOf f l = 0 := by
  induction l with
  | nil => rfl
  | cons first rest ih =>
    rw [sumOf, h first List.mem_cons_self, ih fun a ha => h a (List.mem_cons_of_mem _ ha),
      add_zero]

theorem sumOf_nonneg {α : Type} {f : α → Rat} {l : List α} (h : ∀ a ∈ l, 0 ≤ f a) :
    0 ≤ sumOf f l := by
  induction l with
  | nil => exact le_refl _
  | cons first rest ih =>
    exact add_nonneg (h first List.mem_cons_self) (ih fun a ha => h a (List.mem_cons_of_mem _ ha))

theorem le_sumOf {α : Type} {f : α → Rat} {l : List α} (hnonneg : ∀ a ∈ l, 0 ≤ f a) {a : α}
    (hmem : a ∈ l) : f a ≤ sumOf f l := by
  induction l with
  | nil => exact absurd hmem List.not_mem_nil
  | cons first rest ih =>
    have hfirst := hnonneg first List.mem_cons_self
    have hrest := sumOf_nonneg fun a ha => hnonneg a (List.mem_cons_of_mem _ ha)
    rw [sumOf]
    rcases List.mem_cons.1 hmem with rfl | hmem
    · linarith
    · linarith [ih (fun a ha => hnonneg a (List.mem_cons_of_mem _ ha)) hmem]

end Psfn.Lib
