import Mathlib.Logic.Relation

/-!
# Transition systems

States, one initial state and a step relation; runs are finite sequences of steps.
The two rules every state-machine proof of the project goes through:

* `System.invariant` — what holds initially and is kept by every step holds in
  every reachable state;
* `System.stable` — what is kept by every step from a state satisfying an
  invariant is kept along every later run.
-/

namespace Psfn.Lib

structure System (σ : Type) where
  init : σ
  step : σ → σ → Prop

namespace System

variable {σ : Type} (S : System σ)

/-- `t` is reached from `s` in some number of steps. -/
def Runs (s t : σ) : Prop := Relation.ReflTransGen S.step s t

def Reachable (s : σ) : Prop := S.Runs S.init s

variable {S}

theorem Reachable.next {s t : σ} (h : S.Reachable s) (hst : S.step s t) : S.Reachable t :=
  Relation.ReflTransGen.tail h hst

theorem invariant {I : σ → Prop} (hinit : I S.init) (hstep : ∀ s t, I s → S.step s t → I t)
    {s : σ} (h : S.Reachable s) : I s := by
  induction h with
  | refl => exact hinit
  | tail _ hst ih => exact hstep _ _ ih hst

theorem stable {I P : σ → Prop} (hI : ∀ s t, I s → S.step s t → I t)
    (hP : ∀ s t, I s → P s → S.step s t → P t) {s t : σ} (hs : I s) (hp : P s)
    (hrun : S.Runs s t) : P t := by
  have hboth : I t ∧ P t := by
    induction hrun with
    | refl => exact ⟨hs, hp⟩
    | tail _ hst ih => exact ⟨hI _ _ ih.1 hst, hP _ _ ih.1 ih.2 hst⟩
  exact hboth.2

end System

end Psfn.Lib
