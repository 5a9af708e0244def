import Mathlib.Data.List.Induction
import Psfn.Lib.Js

/-!
# JavaScript sets

A `Set` as the list of its elements in insertion order. `mem_replay` says what a set
holds after any sequence of additions and deletions: of the operations on an element,
the last one decides.
-/

namespace Psfn.Lib.JsSet

variable {α β : Type} [DecidableEq α]

/-- `Set.prototype.add`. -/
def add (s : List α) (x : α) : List α := if x ∈ s then s else s ++ [x]

/-- `Set.prototype.delete`. -/
def delete (s : List α) (x : α) : List α := s.filter (· ≠ x)

theorem mem_add {s : List α} {x y : α} : y ∈ add s x ↔ y ∈ s ∨ y = x := by
  unfold add
  split <;> simp_all

theorem mem_delete {s : List α} {x y : α} : y ∈ delete s x ↔ y ∈ s ∧ y ≠ x := by
  simp [delete]

/-- The operations of a sequence, each on the element `target` names. -/
def replay (target : β → α) (adds : β → Bool) (operations : List β) (s : List α) : List α :=
  operations.foldl (fun s b => if adds b then add s (target b) else delete s (target b)) s

/-- What the last operation on an element says of it, if there is one. -/
def lastOn (target : β → α) (adds : β → Bool) (operations : List β) (x : α) : Option Bool :=
  ((operations.filter fun b => target b = x).getLast?).map adds

theorem mem_replay (target : β → α) (adds : β → Bool) (operations : List β) (s : List α) (x : α) :
    x ∈ replay target adds operations s ↔
      (lastOn target adds operations x).getD (decide (x ∈ s)) = true := by
  induction operations using List.reverseRecOn with
  | nil => simp [replay, lastOn]
  | append_singleton operations b ih =>
    rw [replay, List.foldl_append, List.foldl_cons, List.foldl_nil, ← replay, lastOn,
      List.filter_append]
    by_cases hb : target b = x
    · subst hb
      cases ha : adds b <;> simp [mem_add, mem_delete, ha]
    · have hx : x ≠ target b := fun h => hb h.symm
      have hlast : lastOn target adds operations x =
          ((operations.filter fun b => target b = x).getLast?).map adds := rfl
      cases ha : adds b <;> simp [mem_add, mem_delete, hb, hx, ih, hlast]

/-! ## Sets of lists -/

end Psfn.Lib.JsSet
