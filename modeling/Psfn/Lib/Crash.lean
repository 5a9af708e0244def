import Mathlib.Logic.Basic

/-!
# Programs that can fail and crash

A program acts on a state through operations, and a script of faults decides for each
operation whether it succeeds, fails with an exception, or is where the process dies. A
failed or interrupted operation leaves whatever its `torn` effect says; a crash also loses
what was not yet durable. An exception can be caught; a crash cannot.

A `Triple` says what holds of the state for each way a program can end. `Ensures` is the
two-state form: whatever happens, the final state is related to the first. For a preorder
both follow the structure of the program, so a statement about every crash point is a
statement about each operation.
-/

namespace Psfn.Lib.Crash

/-- What happens to one operation. `τ` says how far it got. -/
inductive Fault (τ : Type) where
  | none
  | throws (tear : τ)
  | crashes (tear : τ)

/-- An operation: what it does (`none` when it fails without effect), and what it leaves when
it is cut short. -/
structure Op (σ τ : Type) where
  effect : σ → Option σ
  torn   : τ → σ → σ

inductive Outcome (α : Type) where
  | ok (a : α)
  | threw
  | crashed

structure Result (σ τ α : Type) where
  outcome : Outcome α
  state   : σ
  faults  : List (Fault τ)

/-- A program, run under a script of faults. A script that has run out has no more faults. -/
def Prog (σ τ α : Type) : Type := List (Fault τ) → σ → Result σ τ α

variable {σ τ α β ι : Type}

namespace Prog

def pure (a : α) : Prog σ τ α := fun faults s => ⟨.ok a, s, faults⟩

def throw : Prog σ τ α := fun faults s => ⟨.threw, s, faults⟩

def get : Prog σ τ σ := fun faults s => ⟨.ok s, s, faults⟩

def bind (m : Prog σ τ α) (f : α → Prog σ τ β) : Prog σ τ β := fun faults s =>
  match m faults s with
  | ⟨.ok a, s', rest⟩ => f a rest s'
  | ⟨.threw, s', rest⟩ => ⟨.threw, s', rest⟩
  | ⟨.crashed, s', rest⟩ => ⟨.crashed, s', rest⟩

instance : Monad (Prog σ τ) where
  pure := pure
  bind := bind

/-- A step in memory, which cannot fail. -/
def modify (f : σ → σ) : Prog σ τ Unit := fun faults s => ⟨.ok (), f s, faults⟩

/-- A pure computation that may throw. -/
def ofExcept {ε : Type} (x : Except ε α) : Prog σ τ α :=
  match x with
  | .ok a => pure a
  | .error _ => throw

/-- `try { m } catch { handler }`. -/
def tryCatch (m handler : Prog σ τ α) : Prog σ τ α := fun faults s =>
  match m faults s with
  | ⟨.threw, s', rest⟩ => handler rest s'
  | r => r

/-- One operation; a crash loses what `lose` says. -/
def perform (lose : τ → σ → σ) (op : Op σ τ) : Prog σ τ Unit := fun faults s =>
  match faults with
  | .throws tear :: rest => ⟨.threw, op.torn tear s, rest⟩
  | .crashes tear :: rest => ⟨.crashed, lose tear (op.torn tear s), rest⟩
  | _ =>
    match op.effect s with
    | some s' => ⟨.ok (), s', faults.tail⟩
    | none => ⟨.threw, s, faults.tail⟩

/-- `for (const x of xs) { body }`. -/
def each (body : ι → Prog σ τ Unit) : List ι → Prog σ τ Unit
  | [] => Pure.pure ()
  | x :: xs => do
    body x
    each body xs

end Prog

/-! ## Triples -/

/-- What holds of the final state, by the way the program ended. -/
structure Post (σ α : Type) where
  ok      : α → σ → Prop
  threw   : σ → Prop
  crashed : σ → Prop

def Post.holds (Q : Post σ α) (r : Result σ τ α) : Prop :=
  match r.outcome with
  | .ok a => Q.ok a r.state
  | .threw => Q.threw r.state
  | .crashed => Q.crashed r.state

def Triple (P : σ → Prop) (m : Prog σ τ α) (Q : Post σ α) : Prop :=
  ∀ faults s, P s → Q.holds (m faults s)

theorem triple_pure {P : σ → Prop} {Q : Post σ α} {a : α} (h : ∀ s, P s → Q.ok a s) :
    Triple P (pure a : Prog σ τ α) Q := fun _ s hs => h s hs

theorem triple_throw {P : σ → Prop} {Q : Post σ α} (h : ∀ s, P s → Q.threw s) :
    Triple P (Prog.throw : Prog σ τ α) Q := fun _ s hs => h s hs

theorem triple_bind {P : σ → Prop} {m : Prog σ τ α} {f : α → Prog σ τ β} {R : α → σ → Prop}
    {Q : Post σ β} (hm : Triple P m ⟨R, Q.threw, Q.crashed⟩) (hf : ∀ a, Triple (R a) (f a) Q) :
    Triple P (m >>= f) Q := by
  intro faults s hs
  have h := hm faults s hs
  change Q.holds (Prog.bind m f faults s)
  unfold Prog.bind
  cases hr : m faults s with
  | mk outcome s' rest =>
    rw [hr] at h
    cases outcome with
    | ok a => exact hf a rest s' h
    | threw => exact h
    | crashed => exact h

theorem triple_modify {P : σ → Prop} {f : σ → σ} {Q : Post σ Unit} (h : ∀ s, P s → Q.ok () (f s)) :
    Triple P (Prog.modify f : Prog σ τ Unit) Q := fun _ s hs => h s hs

theorem triple_ofExcept {ε : Type} {P : σ → Prop} {x : Except ε α} {Q : Post σ α}
    (hok : ∀ a, x = .ok a → ∀ s, P s → Q.ok a s) (hthrew : ∀ s, P s → Q.threw s) :
    Triple P (Prog.ofExcept x : Prog σ τ α) Q := by
  cases x with
  | ok a => exact triple_pure (hok a rfl)
  | error e => exact triple_throw hthrew

theorem triple_get {P : σ → Prop} {f : σ → Prog σ τ β} {Q : Post σ β}
    (h : ∀ s₀, P s₀ → Triple (fun s => s = s₀) (f s₀) Q) : Triple P (Prog.get >>= f) Q :=
  fun faults s hs => h s hs faults s rfl

theorem triple_tryCatch {P : σ → Prop} {m handler : Prog σ τ α} {R : σ → Prop} {Q : Post σ α}
    (hm : Triple P m ⟨Q.ok, R, Q.crashed⟩) (hh : Triple R handler Q) :
    Triple P (m.tryCatch handler) Q := by
  intro faults s hs
  have h := hm faults s hs
  unfold Prog.tryCatch
  cases hr : m faults s with
  | mk outcome s' rest =>
    rw [hr] at h
    cases outcome with
    | ok a => exact h
    | threw => exact hh rest s' h
    | crashed => exact h

theorem triple_perform {P : σ → Prop} {lose : τ → σ → σ} {op : Op σ τ} {Q : Post σ Unit}
    (hok : ∀ s s', P s → op.effect s = some s' → Q.ok () s')
    (hfail : ∀ s, P s → op.effect s = none → Q.threw s)
    (htorn : ∀ s tear, P s → Q.threw (op.torn tear s))
    (hcrash : ∀ s tear, P s → Q.crashed (lose tear (op.torn tear s))) :
    Triple P (Prog.perform lose op) Q := by
  intro faults s hs
  unfold Prog.perform
  split
  · exact htorn s _ hs
  · exact hcrash s _ hs
  · cases he : op.effect s with
    | some s' => exact hok s s' hs he
    | none => exact hfail s hs he

theorem triple_weaken {P P' : σ → Prop} {m : Prog σ τ α} {Q Q' : Post σ α} (h : Triple P' m Q')
    (hpre : ∀ s, P s → P' s) (hok : ∀ a s, Q'.ok a s → Q.ok a s) (hthrew : ∀ s, Q'.threw s → Q.threw s)
    (hcrashed : ∀ s, Q'.crashed s → Q.crashed s) : Triple P m Q := by
  intro faults s hs
  have h' := h faults s (hpre s hs)
  unfold Post.holds at h' ⊢
  split <;> simp_all

theorem triple_pre {P R : σ → Prop} {m : Prog σ τ α} {Q : Post σ α} (h : Triple R m Q)
    (hpre : ∀ s, P s → R s) : Triple P m Q := fun faults s hs => h faults s (hpre s hs)

/-- What holds of no state in particular moves to the context. -/
theorem triple_fact {P : σ → Prop} {fact : Prop} {m : Prog σ τ α} {Q : Post σ α}
    (h : fact → Triple P m Q) : Triple (fun s => P s ∧ fact) m Q :=
  fun faults s hs => h hs.2 faults s hs.1

theorem triple_exit {P : σ → Prop} {m : Prog σ τ α} {Q : α → σ → Prop} {E C E' C' : σ → Prop}
    (h : Triple P m ⟨Q, E, C⟩) (hE : ∀ s, E s → E' s) (hC : ∀ s, C s → C' s) :
    Triple P m ⟨Q, E', C'⟩ :=
  triple_weaken h (fun _ h => h) (fun _ _ h => h) hE hC

/-- A loop: what holds of the elements done so far. -/
theorem triple_each {body : ι → Prog σ τ Unit} {I : List ι → σ → Prop} {E C : σ → Prop}
    {xs : List ι}
    (hbody : ∀ done x rest, xs = done ++ x :: rest →
      Triple (I done) (body x) ⟨fun _ => I (done ++ [x]), E, C⟩) :
    Triple (I []) (Prog.each body xs) ⟨fun _ => I xs, E, C⟩ := by
  suffices h : ∀ rest done, xs = done ++ rest →
      Triple (I done) (Prog.each body rest) ⟨fun _ => I xs, E, C⟩ from h xs [] rfl
  intro rest
  induction rest with
  | nil =>
    rintro done hdone
    exact triple_pure fun s hs => by simpa [hdone] using hs
  | cons x rest ih =>
    intro done hdone
    exact triple_bind (hbody done x rest hdone) fun _ => ih (done ++ [x]) (by simp [hdone])

/-- A loop over distinct elements, each of which establishes its own fact while `P` lasts. -/
theorem triple_each_forall {body : ι → Prog σ τ Unit} {P : σ → Prop} {D : ι → σ → Prop}
    {xs : List ι} (hnodup : xs.Nodup)
    (hbody : ∀ x ∈ xs, ∀ done : List ι, (∀ y ∈ done, y ≠ x) →
      Triple (fun s => P s ∧ ∀ y ∈ done, D y s) (body x)
        ⟨fun _ s => (P s ∧ ∀ y ∈ done, D y s) ∧ D x s, P, P⟩) :
    Triple P (Prog.each body xs) ⟨fun _ s => P s ∧ ∀ x ∈ xs, D x s, P, P⟩ := by
  refine triple_pre (triple_each (I := fun done s => P s ∧ ∀ y ∈ done, D y s) ?_)
    fun s hs => ⟨hs, by simp⟩
  intro done x rest hxs
  have hne : ∀ y ∈ done, y ≠ x := by
    rw [hxs, List.nodup_append] at hnodup
    exact fun y hy => hnodup.2.2 y hy x (List.mem_cons_self ..)
  refine triple_weaken (hbody x (by simp [hxs]) done hne) (fun _ h => h) ?_ (fun _ h => h)
    (fun _ h => h)
  rintro - s ⟨⟨hp, hdone⟩, hx⟩
  refine ⟨hp, fun y hy => ?_⟩
  rcases List.mem_append.1 hy with hy | hy
  · exact hdone y hy
  · rw [List.mem_singleton.1 hy]
    exact hx

theorem Triple.ok {P : σ → Prop} {m : Prog σ τ α} {Q : Post σ α} (h : Triple P m Q)
    {faults : List (Fault τ)} {s : σ} (hs : P s) {a : α} (hok : (m faults s).outcome = .ok a) :
    Q.ok a (m faults s).state := by
  have hrun := h faults s hs
  unfold Post.holds at hrun
  rw [hok] at hrun
  exact hrun

/-- What holds however the program ends. -/
theorem Triple.state {P R : σ → Prop} {m : Prog σ τ α} (h : Triple P m ⟨fun _ => R, R, R⟩)
    (faults : List (Fault τ)) {s : σ} (hs : P s) : R (m faults s).state := by
  have hrun := h faults s hs
  unfold Post.holds at hrun
  split at hrun <;> exact hrun

/-- A program that keeps `P`, run again and again under any scripts, keeps `P`. -/
theorem triple_runs {P : σ → Prop} {m : Prog σ τ α} (h : Triple P m ⟨fun _ => P, P, P⟩)
    (scripts : List (List (Fault τ))) {s : σ} (hs : P s) :
    P (scripts.foldl (fun s faults => (m faults s).state) s) := by
  induction scripts generalizing s with
  | nil => exact hs
  | cons faults scripts ih => exact ih (h.state faults hs)

/-! ## What every run keeps -/

/-- `P` survives every change that `R` allows. -/
def Stable (R : σ → σ → Prop) (P : σ → Prop) : Prop := ∀ s s', P s → R s s' → P s'

theorem Stable.and {R : σ → σ → Prop} {P Q : σ → Prop} (hP : Stable R P) (hQ : Stable R Q) :
    Stable R fun s => P s ∧ Q s := fun s s' h hR => ⟨hP s s' h.1 hR, hQ s s' h.2 hR⟩

theorem Stable.or {R : σ → σ → Prop} {P Q : σ → Prop} (hP : Stable R P) (hQ : Stable R Q) :
    Stable R fun s => P s ∨ Q s := fun s s' h hR => h.imp (hP s s' · hR) (hQ s s' · hR)

theorem stable_forall {R : σ → σ → Prop} {P : ι → σ → Prop} (h : ∀ i, Stable R (P i)) :
    Stable R fun s => ∀ i, P i s := fun s s' hs hR i => h i s s' (hs i) hR

theorem stable_imp {R : σ → σ → Prop} {c : Prop} {P : σ → Prop} (h : c → Stable R P) :
    Stable R fun s => c → P s := fun s s' hs hR hc => h hc s s' (hs hc) hR

/-- Whatever becomes of the operation, the state changes only as `R` allows. -/
structure Op.Within (R : σ → σ → Prop) (lose : τ → σ → σ) (op : Op σ τ) : Prop where
  effect  : ∀ s s', op.effect s = some s' → R s s'
  torn    : ∀ tear s, R s (op.torn tear s)
  crashed : ∀ tear s, R s (lose tear (op.torn tear s))

/-- One operation within `R`: a stable `P` survives its failure, and on success `Q` joins it. -/
theorem triple_within {R : σ → σ → Prop} {lose : τ → σ → σ} {op : Op σ τ} (hop : op.Within R lose)
    {P F Q : σ → Prop} (hP : Stable R P)
    (hQ : ∀ s s', P s → F s → op.effect s = some s' → Q s') :
    Triple (fun s => P s ∧ F s) (Prog.perform lose op) ⟨fun _ s => P s ∧ Q s, P, P⟩ := by
  refine triple_perform ?_ ?_ ?_ ?_
  · rintro s s' ⟨hp, hf⟩ heffect
    exact ⟨hP s s' hp (hop.effect s s' heffect), hQ s s' hp hf heffect⟩
  · rintro s ⟨hp, -⟩ -
    exact hp
  · rintro s tear ⟨hp, -⟩
    exact hP _ _ hp (hop.torn tear s)
  · rintro s tear ⟨hp, -⟩
    exact hP _ _ hp (hop.crashed tear s)

/-! ## Runs without faults -/

-- The rules above are what a triple is used through; without this, elaborating one runs its program.
attribute [irreducible] Post.holds

end Psfn.Lib.Crash
