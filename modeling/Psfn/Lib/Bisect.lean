import Mathlib.Data.Nat.Basic

/-!
# Bisection with a probe that can refuse

The search for the last index below a bound, over a probe that answers on which side of
the bound an index lies, or refuses to answer. The search gives up at the first refusal.
Nothing is assumed of the answers at the indices it does not look at: `bisect_spec` says
what the two probes that end the search said.
-/

namespace Psfn.Lib

/-- The loop: `candidate` is the last index found below the bound, `[low, high)` is still to
be searched. -/
def bisectLoop (probe : Nat → Option Bool) : Nat → Nat → Nat → Option Nat → Option (Option Nat)
  | 0, _, _, candidate => some candidate
  | fuel + 1, low, high, candidate =>
    if low < high then
      let midpoint := low + (high - 1 - low) / 2
      match probe midpoint with
      | none => none
      | some true => bisectLoop probe fuel (midpoint + 1) high (some midpoint)
      | some false => bisectLoop probe fuel low midpoint candidate
    else some candidate

/-- The search over `[0, n)`; every round shortens the interval, so `n` rounds are enough. -/
def bisect (probe : Nat → Option Bool) (n : Nat) : Option (Option Nat) :=
  bisectLoop probe n 0 n none

/-- `found` is the index before `k`, if there is one, and the probe put it below the bound. -/
def FoundBefore (probe : Nat → Option Bool) (k : Nat) : Option Nat → Prop
  | none => k = 0
  | some i => k = i + 1 ∧ probe i = some true

theorem bisectLoop_spec {probe : Nat → Option Bool} {n fuel low high : Nat}
    {candidate found : Option Nat} (hfuel : high - low ≤ fuel) (hlow : low ≤ high) (hn : high ≤ n)
    (hcandidate : FoundBefore probe low candidate) (hhigh : high = n ∨ probe high = some false)
    (h : bisectLoop probe fuel low high candidate = some found) :
    ∃ k ≤ n, FoundBefore probe k found ∧ (k = n ∨ probe k = some false) := by
  induction fuel generalizing low high candidate with
  | zero =>
    obtain rfl : low = high := by omega
    obtain rfl := Option.some.inj h
    exact ⟨low, hn, hcandidate, hhigh⟩
  | succ fuel ih =>
    rw [bisectLoop] at h
    split at h
    · rename_i hlt
      dsimp only at h
      generalize hmid : low + (high - 1 - low) / 2 = midpoint at h
      have hbounds : low ≤ midpoint ∧ midpoint < high := by omega
      split at h
      · exact absurd h (by simp)
      · rename_i hprobe
        have hfound : FoundBefore probe (midpoint + 1) (some midpoint) := ⟨rfl, hprobe⟩
        exact ih (by omega) (by omega) hn hfound hhigh h
      · rename_i hprobe
        exact ih (by omega) hbounds.1 (by omega) hcandidate (Or.inr hprobe) h
    · obtain rfl : low = high := by omega
      obtain rfl := Option.some.inj h
      exact ⟨low, hn, hcandidate, hhigh⟩

/-- **What a search that was not refused found**: a place `k` where the probe changes sides,
as far as it was asked. -/
theorem bisect_spec {probe : Nat → Option Bool} {n : Nat} {found : Option Nat}
    (h : bisect probe n = some found) :
    ∃ k ≤ n, FoundBefore probe k found ∧ (k = n ∨ probe k = some false) := by
  have hstart : FoundBefore probe 0 none := rfl
  exact bisectLoop_spec (Nat.sub_le n 0) (Nat.zero_le n) (Nat.le_refl n) hstart (Or.inl rfl) h

end Psfn.Lib
