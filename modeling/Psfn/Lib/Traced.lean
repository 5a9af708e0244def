import Mathlib.Data.List.Basic

/-!
# Programs that write

A program that reads and writes a state, one atomic write at a time, and may throw. A run
records every state it wrote: a process can die after any of its writes, so these are the
states another process may find.

`Triple P m V Q` says that from a state satisfying `P` every write satisfies `V`, and that
`Q` holds of what is returned, if the program returns.
-/

namespace Psfn.Lib

/-- One run: the states written, in order, the state at the end, and the result. -/
structure Trace (σ α : Type) where
  written : List σ
  state   : σ
  result  : Except String α

def Traced (σ α : Type) : Type := σ → Trace σ α

namespace Traced

variable {σ α β : Type}

def pure (a : α) : Traced σ α := fun s => ⟨[], s, .ok a⟩

def bind (m : Traced σ α) (f : α → Traced σ β) : Traced σ β := fun s =>
  match m s with
  | ⟨written, s', .ok a⟩ =>
    let rest := f a s'
    ⟨written ++ rest.written, rest.state, rest.result⟩
  | ⟨written, s', .error e⟩ => ⟨written, s', .error e⟩

instance : Monad (Traced σ) where
  pure := pure
  bind := bind

/-- A computation that reads and writes nothing. -/
def ofExcept (x : Except String α) : Traced σ α := fun s => ⟨[], s, x⟩

def get : Traced σ σ := fun s => ⟨[], s, .ok s⟩

/-- One atomic write. -/
def write (f : σ → σ) : Traced σ Unit := fun s => ⟨[f s], f s, .ok ()⟩

/-! ## Triples -/

def Triple (P : σ → Prop) (m : Traced σ α) (V : σ → Prop) (Q : α → σ → Prop) : Prop :=
  ∀ s, P s → (∀ t ∈ (m s).written, V t) ∧ ∀ a, (m s).result = .ok a → Q a (m s).state

theorem triple_pure {P V : σ → Prop} {Q : α → σ → Prop} {a : α} (h : ∀ s, P s → Q a s) :
    Triple P (Pure.pure a : Traced σ α) V Q := by
  intro s hs
  refine ⟨fun t ht => absurd ht (List.not_mem_nil), ?_⟩
  intro b hb
  obtain rfl : a = b := Except.ok.inj hb
  exact h s hs

theorem triple_ofExcept {P V : σ → Prop} {Q : α → σ → Prop} {x : Except String α}
    (h : ∀ a, x = .ok a → ∀ s, P s → Q a s) : Triple P (ofExcept x : Traced σ α) V Q :=
  fun s hs => ⟨fun _ ht => absurd ht (List.not_mem_nil), fun a ha => h a ha s hs⟩

theorem triple_write {P V : σ → Prop} {Q : Unit → σ → Prop} {f : σ → σ}
    (h : ∀ s, P s → V (f s) ∧ Q () (f s)) : Triple P (write f) V Q := by
  intro s hs
  refine ⟨?_, fun _ _ => (h s hs).2⟩
  intro t ht
  rw [List.mem_singleton.1 ht]
  exact (h s hs).1

theorem triple_bind {P V : σ → Prop} {R : α → σ → Prop} {Q : β → σ → Prop} {m : Traced σ α}
    {f : α → Traced σ β} (hm : Triple P m V R) (hf : ∀ a, Triple (R a) (f a) V Q) :
    Triple P (m >>= f) V Q := by
  intro s hs
  obtain ⟨hwritten, hok⟩ := hm s hs
  change (∀ t ∈ (bind m f s).written, V t) ∧ ∀ b, (bind m f s).result = .ok b → Q b (bind m f s).state
  unfold bind
  cases hrun : m s with
  | mk written s' result =>
    rw [hrun] at hwritten hok
    cases result with
    | error e => exact ⟨hwritten, fun b hb => by cases hb⟩
    | ok a =>
      obtain ⟨hwritten', hok'⟩ := hf a s' (hok a rfl)
      refine ⟨fun t ht => ?_, hok'⟩
      rcases List.mem_append.1 ht with ht | ht
      · exact hwritten t ht
      · exact hwritten' t ht

/-- Reading fixes the state for what follows. -/
theorem triple_get {P V : σ → Prop} {Q : β → σ → Prop} {f : σ → Traced σ β}
    (h : ∀ s₀, P s₀ → Triple (fun s => s = s₀) (f s₀) V Q) : Triple P (get >>= f) V Q := by
  intro s hs
  exact h s hs s rfl

/-- A check in front of a program. -/
theorem triple_check {P V : σ → Prop} {Q : β → σ → Prop} {x : Except String α}
    {f : α → Traced σ β} (h : ∀ a, x = .ok a → Triple P (f a) V Q) :
    Triple P (ofExcept x >>= f) V Q := by
  refine triple_bind (R := fun a s => P s ∧ x = .ok a) ?_ ?_
  · exact triple_ofExcept fun a ha s hs => ⟨hs, ha⟩
  · rintro a s ⟨hs, ha⟩
    exact h a ha s hs

/-- What the precondition says beside the state. -/
theorem triple_and {P V : σ → Prop} {Q : α → σ → Prop} {m : Traced σ α} {fact : Prop}
    (h : fact → Triple P m V Q) : Triple (fun s => P s ∧ fact) m V Q :=
  fun s hs => h hs.2 s hs.1

theorem triple_post {P V : σ → Prop} {Q Q' : α → σ → Prop} {m : Traced σ α} (h : Triple P m V Q)
    (hpost : ∀ a s, Q a s → Q' a s) : Triple P m V Q' := fun s hs =>
  ⟨(h s hs).1, fun a ha => hpost a _ ((h s hs).2 a ha)⟩

theorem triple_written {P V V' : σ → Prop} {Q : α → σ → Prop} {m : Traced σ α}
    (h : Triple P m V Q) (hV : ∀ s, V s → V' s) : Triple P m V' Q := fun s hs =>
  ⟨fun t ht => hV t ((h s hs).1 t ht), (h s hs).2⟩

end Traced

end Psfn.Lib
