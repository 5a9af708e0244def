import Mathlib.Tactic.Tauto
import Psfn.Lib.Transition

/-!
# Interleaved calls

Any number of calls run over one shared state. A call takes atomic steps on the shared state;
between two of them any other call may take one, or the environment may change the shared state.
A call may stop between two steps: its process died, or it threw.

* `Interleaving.outline` — a proof outline in the style of Owicki and Gries: an assertion about
  each running call that holds when it starts, is handed on from step to step, and that no other
  call can spoil, holds in every reachable pool; and so does a relation between the calls;
* `Program` — a call as a chain of awaits: an operation, its answer, what the call does next;
* `Program.Outlined`, `Interleaving.asserted` — the outline with one assertion for each
  operation, which the answer before it has to establish;
* `Program.Issues`, `Interleaving.issues_of_reachable` — what holds of every operation of the
  calls that start holds of every operation of the calls that run.

A `guard` restricts the runs: only steps that satisfy it are taken.
-/

namespace Psfn.Lib

/-- The shared state and the calls that are running. -/
structure Pool (σ P : Type) where
  shared  : σ
  running : List P

structure Interleaving (σ P L : Type) where
  /-- An atomic step of a call, with a label that says what it does. -/
  step        : σ → P → L → σ → P → Prop
  environment : σ → σ → Prop
  /-- The call may begin now. -/
  starts      : σ → P → Prop

namespace Interleaving

variable {σ P L : Type} (I : Interleaving σ P L)

/-- A step of the pool, with the label of the call's step. -/
inductive Step : Pool σ P → Option L → Pool σ P → Prop
  | start {s : σ} {running : List P} {p : P} (h : I.starts s p) :
    Step ⟨s, running⟩ none ⟨s, p :: running⟩
  | advance {s s' : σ} {before after : List P} {p p' : P} {l : L} (h : I.step s p l s' p') :
    Step ⟨s, before ++ p :: after⟩ (some l) ⟨s', before ++ p' :: after⟩
  | stop {s : σ} {before after : List P} {p : P} :
    Step ⟨s, before ++ p :: after⟩ none ⟨s, before ++ after⟩
  | environment {s s' : σ} {running : List P} (h : I.environment s s') :
    Step ⟨s, running⟩ none ⟨s', running⟩

/-- The runs from a shared state on which no call runs, along steps that satisfy the guard. -/
def system (guard : Pool σ P → Option L → σ → Prop) (s₀ : σ) : System (Pool σ P) where
  init := ⟨s₀, []⟩
  step pool pool' := ∃ label, I.Step pool label pool' ∧ guard pool label pool'.shared

variable {I}

/-- The call at the head of the pool takes a step. -/
theorem Step.first {s s' : σ} {p p' : P} {l : L} {rest : List P} (h : I.step s p l s' p') :
    I.Step ⟨s, p :: rest⟩ (some l) ⟨s', p' :: rest⟩ :=
  show I.Step ⟨s, [] ++ p :: rest⟩ (some l) ⟨s', [] ++ p' :: rest⟩ from .advance h

/-- The label of a step is that of a call that ran. -/
theorem Step.running {pool pool' : Pool σ P} {l : L} (h : I.Step pool (some l) pool') :
    ∃ p p', p ∈ pool.running ∧ I.step pool.shared p l pool'.shared p' := by
  cases h with
  | @advance s s' before after p p' l hstep => exact ⟨p, p', by simp, hstep⟩

/-- A step without a label starts or stops a call, or is the environment's. -/
theorem Step.silent {pool pool' : Pool σ P} (h : I.Step pool none pool') :
    pool'.shared = pool.shared ∨ I.environment pool.shared pool'.shared := by
  cases h with
  | start _ => exact .inl rfl
  | stop => exact .inl rfl
  | environment henv => exact .inr henv

/-- What a step does to the shared state. -/
theorem Step.cases_shared {pool pool' : Pool σ P} {label : Option L}
    (h : I.Step pool label pool') :
    pool'.shared = pool.shared ∨ (label = none ∧ I.environment pool.shared pool'.shared) ∨
      ∃ l p p', label = some l ∧ p ∈ pool.running ∧
        I.step pool.shared p l pool'.shared p' := by
  cases label with
  | none =>
    rcases h.silent with hsame | henv
    · exact .inl hsame
    · exact .inr (.inl ⟨rfl, henv⟩)
  | some l =>
    obtain ⟨p, p', hmem, hstep⟩ := h.running
    exact .inr (.inr ⟨l, p, p', rfl, hmem, hstep⟩)

/-- **A proof outline holds along every run.** -/
theorem outline {guard : Pool σ P → Option L → σ → Prop} {s₀ : σ} (Inv : σ → Prop)
    (A : σ → P → Prop) (R : P → P → Prop) (hsymm : ∀ p q, R p q → R q p) (hinit : Inv s₀)
    (hstart : ∀ s p, Inv s → I.starts s p → A s p ∧ ∀ q, A s q → R p q)
    (hstep : ∀ pool p l s' p', Inv pool.shared → p ∈ pool.running → A pool.shared p →
      I.step pool.shared p l s' p' → guard pool (some l) s' → Inv s' ∧ A s' p')
    (hothers : ∀ pool p l s' p' q, Inv pool.shared → p ∈ pool.running → A pool.shared p →
      I.step pool.shared p l s' p' → guard pool (some l) s' → q ∈ pool.running →
      A pool.shared q → R p q → A s' q ∧ R p' q)
    (henv : ∀ pool s', Inv pool.shared → I.environment pool.shared s' → guard pool none s' →
      Inv s' ∧ ∀ q ∈ pool.running, A pool.shared q → A s' q)
    {pool : Pool σ P} (h : (I.system guard s₀).Reachable pool) :
    Inv pool.shared ∧ (∀ p ∈ pool.running, A pool.shared p) ∧ pool.running.Pairwise R := by
  refine System.invariant (S := I.system guard s₀)
    (I := fun pool => Inv pool.shared ∧ (∀ p ∈ pool.running, A pool.shared p) ∧
      pool.running.Pairwise R)
    ⟨hinit, fun p hp => absurd hp List.not_mem_nil, List.Pairwise.nil⟩ ?_ h
  rintro pool pool' ⟨hinv, hall, hrel⟩ ⟨label, hpool, hguard⟩
  cases hpool with
  | start hstarts =>
    obtain ⟨hnew, hfresh⟩ := hstart _ _ hinv hstarts
    refine ⟨hinv, fun p hp => ?_, List.pairwise_cons.2 ⟨fun q hq => hfresh q (hall q hq), hrel⟩⟩
    rcases List.mem_cons.1 hp with rfl | hp
    · exact hnew
    · exact hall p hp
  | @advance s s' before after p p' l hsteps =>
    have hmem : p ∈ before ++ p :: after := by simp
    obtain ⟨hinv', hnext⟩ := hstep _ p l s' p' hinv hmem (hall p hmem) hsteps hguard
    -- the other calls were running before, and stood in the relation to this one
    have hkept : ∀ q, (q ∈ before ∨ q ∈ after) → A s' q ∧ R p' q := by
      intro q hq
      have hq' : q ∈ before ++ p :: after := by
        rcases hq with hq | hq <;> simp [hq]
      have hpq : R p q := by
        rw [List.pairwise_append, List.pairwise_cons] at hrel
        rcases hq with hq | hq
        · exact hsymm _ _ (hrel.2.2 q hq p List.mem_cons_self)
        · exact hrel.2.1.1 q hq
      exact hothers _ p l s' p' q hinv hmem (hall p hmem) hsteps hguard hq' (hall q hq') hpq
    refine ⟨hinv', fun q hq => ?_, ?_⟩
    · rcases List.mem_append.1 hq with hq | hq
      · exact (hkept q (.inl hq)).1
      · rcases List.mem_cons.1 hq with rfl | hq
        · exact hnext
        · exact (hkept q (.inr hq)).1
    · rw [List.pairwise_append, List.pairwise_cons] at hrel ⊢
      refine ⟨hrel.1, ⟨fun q hq => (hkept q (.inr hq)).2, hrel.2.1.2⟩, fun q hq r hr => ?_⟩
      rcases List.mem_cons.1 hr with rfl | hr
      · exact hsymm _ _ (hkept q (.inl hq)).2
      · exact hrel.2.2 q hq r (List.mem_cons_of_mem _ hr)
  | @stop s before after p =>
    have hsub : (before ++ after).Sublist (before ++ p :: after) :=
      (List.sublist_cons_self p after).append_left before
    exact ⟨hinv, fun q hq => hall q (hsub.subset hq), hrel.sublist hsub⟩
  | environment henvironment =>
    obtain ⟨hinv', hkept⟩ := henv _ _ hinv henvironment hguard
    exact ⟨hinv', fun q hq => hkept q hq (hall q hq), hrel⟩

end Interleaving

/-! ## Chains of awaits -/

/-- What is left of a call. -/
inductive Program (Op : Type) (Ans : Op → Type) where
  | done
  | await (op : Op) (next : Ans op → Program Op Ans)

namespace Program

variable {σ Op : Type} {Ans : Op → Type}

/-- The call executes the operation that it awaits. -/
inductive Steps (exec : σ → (op : Op) → Ans op → σ → Prop) :
    σ → Program Op Ans → Op → σ → Program Op Ans → Prop
  | await {s s' : σ} {op : Op} {ans : Ans op} {next : Ans op → Program Op Ans}
    (h : exec s op ans s') : Steps exec s (.await op next) op s' (next ans)

/-- What is asserted of the operation that the call awaits. -/
def Head (A : Op → Prop) : Program Op Ans → Prop
  | .done => True
  | .await op _ => A op

/-- Every answer establishes what is asserted of the operation that is awaited next. -/
def Outlined (exec : σ → (op : Op) → Ans op → σ → Prop) (A : σ → Op → Prop) :
    Program Op Ans → Prop
  | .done => True
  | .await op next => ∀ s ans s', A s op → exec s op ans s' →
      (next ans).Head (A s') ∧ (next ans).Outlined exec A

/-- Every operation that the call may still issue satisfies `Q`. -/
def Issues (Q : Op → Prop) : Program Op Ans → Prop
  | .done => True
  | .await op next => Q op ∧ ∀ ans, (next ans).Issues Q

theorem Head.mono {A B : Op → Prop} {p : Program Op Ans}
    (h : ∀ op next, p = .await op next → A op → B op) (hp : p.Head A) : p.Head B := by
  cases p with
  | done => trivial
  | await op next => exact h op next rfl hp

end Program

section Awaits

variable {σ Op : Type} {Ans : Op → Type} {exec : σ → (op : Op) → Ans op → σ → Prop}
  {environment : σ → σ → Prop} {starts : σ → Program Op Ans → Prop}
  {guard : Pool σ (Program Op Ans) → Option Op → σ → Prop} {s₀ : σ}

/-- **An assertion that is established at every await and that no other step spoils holds at
every await that is reached.** -/
theorem Interleaving.asserted {A : σ → Op → Prop}
    (hstart : ∀ s p, starts s p → p.Head (A s) ∧ p.Outlined exec A)
    (hkeep : ∀ pool op next ans s' op' next', Program.await op next ∈ pool.running →
      A pool.shared op → exec pool.shared op ans s' → guard pool (some op) s' →
      Program.await op' next' ∈ pool.running → A pool.shared op' → A s' op')
    (henv : ∀ pool s' op next, environment pool.shared s' → guard pool none s' →
      Program.await op next ∈ pool.running → A pool.shared op → A s' op)
    {pool : Pool σ (Program Op Ans)}
    (h : ((⟨Program.Steps exec, environment, starts⟩ : Interleaving σ (Program Op Ans) Op).system
      guard s₀).Reachable pool) {op : Op} {next : Ans op → Program Op Ans}
    (hmem : .await op next ∈ pool.running) : A pool.shared op := by
  have houtline := (Interleaving.outline (fun _ => True)
    (fun s p => p.Head (A s) ∧ p.Outlined exec A) (fun _ _ => True)
    (fun _ _ _ => trivial) trivial
    (fun s p _ hstarts => ⟨hstart s p hstarts, fun _ _ => trivial⟩) ?_ ?_ ?_ h).2.1 _ hmem
  · exact houtline.1
  · rintro pool _ op s' _ - - hp ⟨hexec⟩ -
    exact ⟨trivial, hp.2 _ _ _ hp.1 hexec⟩
  · rintro pool _ op s' _ q - hmem hp ⟨hexec⟩ hguard hq hqA -
    refine ⟨⟨Program.Head.mono (fun op' next' heq hA => ?_) hqA.1, hqA.2⟩, trivial⟩
    exact hkeep pool op _ _ s' op' next' hmem hp.1 hexec hguard (heq ▸ hq) hA
  · intro pool s' _ henvironment hguard
    refine ⟨trivial, fun q hq hqA => ⟨Program.Head.mono (fun op next heq hA => ?_) hqA.1, hqA.2⟩⟩
    exact henv pool s' op next henvironment hguard (heq ▸ hq) hA

theorem Interleaving.issues_of_reachable {Q : Op → Prop} (hstart : ∀ s p, starts s p → p.Issues Q)
    {pool : Pool σ (Program Op Ans)}
    (h : ((⟨Program.Steps exec, environment, starts⟩ : Interleaving σ (Program Op Ans) Op).system
      guard s₀).Reachable pool) : ∀ p ∈ pool.running, p.Issues Q := by
  refine (Interleaving.outline (fun _ => True) (fun _ p => p.Issues Q)
    (fun _ _ => True) (fun _ _ _ => trivial) trivial
    (fun s p _ hstarts => ⟨hstart s p hstarts, fun _ _ => trivial⟩) ?_
    (fun _ _ _ _ _ _ _ _ _ _ _ _ hq _ => ⟨hq, trivial⟩)
    (fun _ _ _ _ _ => ⟨trivial, fun _ _ hq => hq⟩) h).2.1
  rintro pool _ op s' _ - - hissues ⟨hexec⟩ -
  exact ⟨trivial, hissues.2 _⟩

end Awaits

end Psfn.Lib
