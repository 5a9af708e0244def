import Mathlib.Data.List.Count
import Mathlib.Tactic.Common
import Psfn.Resilience.CircuitBreaker

/-!
# Circuit breaker — the half-open discipline

The breaker with its operations in flight. A period of a key is a stretch of time in which
its circuit does not change state; the breaker itself keeps no such number, so the periods and
the operations that have succeeded are carried along only to state what should hold.

* `half_open_discipline` — as long as nothing admitted in an earlier period succeeds, or
  gives back a probe, while the circuit is half-open: no operation starts before the cooldown
  has elapsed, no more probes of the period are in flight than are allowed, and the circuit
  closes only when that many probes of the period have succeeded.
* `slow_success_closes` — an operation admitted before the circuit opened closes it.
-/

namespace Psfn.Resilience

open Psfn.Lib

/-! ## What one call does to its entry -/

section Entry

variable {options : ResolvedCircuitBreakerOptions} {key : String} {method : Option String}

/-- The counters and the state are as before. -/
def SameCounters (e e' : CircuitEntry) : Prop :=
  e'.state = e.state ∧ e'.halfOpenAttempts = e.halfOpenAttempts ∧
    e'.halfOpenSuccesses = e.halfOpenSuccesses ∧ e'.openUntilMs = e.openUntilMs

/-- What `beginExecute` can do to an entry. -/
inductive Admission (options : ResolvedCircuitBreakerOptions) (nowMs : Int) (e : CircuitEntry) :
    CircuitEntry → Except CircuitOpenError Bool → Prop where
  | refused {e' : CircuitEntry} {error : CircuitOpenError} (same : SameCounters e e') :
    Admission options nowMs e e' (.error error)
  | full {e' : CircuitEntry} {error : CircuitOpenError} (opened : e.state = .opened)
    (attempts : options.halfOpenMaxAttempts.1 ≤ e.halfOpenAttempts) :
    Admission options nowMs e e' (.error error)
  | closed {e' : CircuitEntry} (closed : e.state = .closed) (same : SameCounters e e') :
    Admission options nowMs e e' (.ok false)
  | probe {e' : CircuitEntry} (halfOpen : e'.state = .halfOpen)
    (before : e.state = .halfOpen ∧ e'.halfOpenSuccesses = e.halfOpenSuccesses ∨
      e.state = .opened ∧ e.openUntilMs.getD 0 ≤ nowMs ∧ e'.halfOpenSuccesses = 0)
    (room : e.halfOpenAttempts < options.halfOpenMaxAttempts.1)
    (attempts : e'.halfOpenAttempts = e.halfOpenAttempts + 1) :
    Admission options nowMs e e' (.ok true)

theorem admission (e : CircuitEntry) (nowMs : Int) :
    Admission options nowMs e (beginExecute options key method e nowMs).1
      (beginExecute options key method e nowMs).2 := by
  obtain ⟨state, failures, attempts, successes, openedAtMs, openUntilMs⟩ := e
  cases state with
  | closed =>
    simp only [beginExecute, assertCanExecute, pruneFailures, reduceCtorEq, false_and, if_false]
    exact .closed rfl ⟨rfl, rfl, rfl, rfl⟩
  | opened =>
    by_cases helapsed : openUntilMs.getD 0 ≤ nowMs
    · by_cases hfull : options.halfOpenMaxAttempts.1 ≤ attempts
      · simp only [beginExecute, assertCanExecute, pruneFailures, transition, helapsed, hfull, and_self,
          if_true, reduceCtorEq, false_and, if_false]
        exact .full rfl hfull
      · simp only [beginExecute, assertCanExecute, pruneFailures, transition, helapsed, hfull, and_self,
          and_false, if_true, reduceCtorEq, false_and, if_false]
        exact .probe rfl (.inr ⟨rfl, helapsed, rfl⟩) (Nat.lt_of_not_le hfull) rfl
    · simp only [beginExecute, assertCanExecute, pruneFailures, helapsed, and_false, if_false,
        reduceCtorEq, false_and, if_true]
      exact .refused ⟨rfl, rfl, rfl, rfl⟩
  | halfOpen =>
    by_cases hfull : options.halfOpenMaxAttempts.1 ≤ attempts
    · simp only [beginExecute, assertCanExecute, pruneFailures, reduceCtorEq, false_and, if_false, hfull,
        and_self, if_true]
      exact .refused ⟨rfl, rfl, rfl, rfl⟩
    · simp only [beginExecute, assertCanExecute, pruneFailures, reduceCtorEq, false_and, if_false, hfull,
        and_false, if_true]
      exact .probe rfl (.inl ⟨rfl, rfl⟩) (Nat.lt_of_not_le hfull) rfl

/-- What `settle` can do to an entry. -/
inductive Settlement (options : ResolvedCircuitBreakerOptions) (wasHalfOpen : Bool)
    (e e' : CircuitEntry) : Outcome → Prop where
  | outside {outcome : Outcome} (before : e.state ≠ .halfOpen)
    (after : e'.state = e.state ∧ e'.openUntilMs = e.openUntilMs ∨
      e'.state = .opened ∧ ∃ untilMs, e'.openUntilMs = some untilMs)
    (attempts : e'.halfOpenAttempts ≤ e.halfOpenAttempts)
    (successes : e'.halfOpenSuccesses ≤ e.halfOpenSuccesses) :
    Settlement options wasHalfOpen e e' outcome
  | reopened {message : String} (before : e.state = .halfOpen) (after : e'.state = .opened)
    (untilMs : ∃ untilMs, e'.openUntilMs = some untilMs) (attempts : e'.halfOpenAttempts = 0)
    (successes : e'.halfOpenSuccesses = 0) :
    Settlement options wasHalfOpen e e' (.failure message)
  | counted (before : e.state = .halfOpen) (after : e'.state = .halfOpen)
    (room : e.halfOpenSuccesses + 1 < options.halfOpenMaxAttempts.1)
    (attempts : e'.halfOpenAttempts = e.halfOpenAttempts - wasHalfOpen.toNat)
    (successes : e'.halfOpenSuccesses = e.halfOpenSuccesses + 1) :
    Settlement options wasHalfOpen e e' .success
  | closed (before : e.state = .halfOpen) (after : e'.state = .closed)
    (enough : options.halfOpenMaxAttempts.1 ≤ e.halfOpenSuccesses + 1)
    (attempts : e'.halfOpenAttempts = 0) (successes : e'.halfOpenSuccesses = 0) :
    Settlement options wasHalfOpen e e' .success
  | ignored (before : e.state = .halfOpen) (after : e'.state = .halfOpen)
    (attempts : e'.halfOpenAttempts = e.halfOpenAttempts - wasHalfOpen.toNat)
    (successes : e'.halfOpenSuccesses = e.halfOpenSuccesses) :
    Settlement options wasHalfOpen e e' .ignored

/-- The `finally` block on its own. -/
theorem settle_eq (e : CircuitEntry) (wasHalfOpen : Bool) (outcome : Outcome)
    (recordedAtMs openedAtMs : Int) :
    (settle options key method e wasHalfOpen outcome recordedAtMs openedAtMs).1 =
      let recorded := (match outcome with
        | .success => recordSuccess options key method e
        | .failure message => recordFailure options key method e message recordedAtMs openedAtMs
        | .ignored => (e, none)).1
      { recorded with halfOpenAttempts := recorded.halfOpenAttempts - wasHalfOpen.toNat } := by
  cases wasHalfOpen <;> rfl

theorem settlement (e : CircuitEntry) (wasHalfOpen : Bool) (outcome : Outcome)
    (recordedAtMs openedAtMs : Int) :
    Settlement options wasHalfOpen e
      (settle options key method e wasHalfOpen outcome recordedAtMs openedAtMs).1 outcome := by
  rw [settle_eq]
  obtain ⟨state, failures, attempts, successes, openedMs, openUntilMs⟩ := e
  cases outcome with
  | success =>
    by_cases hstate : state = .halfOpen
    · subst hstate
      by_cases hroom : successes + 1 < options.halfOpenMaxAttempts.1
      · simp only [recordSuccess, ne_eq, not_true, if_false, hroom, if_true]
        exact .counted rfl rfl hroom rfl rfl
      · simp only [recordSuccess, ne_eq, not_true, if_false, hroom, transition, reduceCtorEq,
          false_and]
        exact .closed rfl rfl (Nat.le_of_not_lt hroom) (Nat.zero_sub _) rfl
    · simp only [recordSuccess, hstate, ne_eq, not_false_eq_true, if_true]
      exact .outside hstate (.inl ⟨rfl, rfl⟩) (Nat.sub_le _ _) (le_refl _)
  | failure message =>
    cases state with
    | halfOpen =>
      simp only [recordFailure, pruneFailures, if_true, openCircuit, transition, reduceCtorEq,
        false_and, if_false]
      exact .reopened rfl rfl ⟨_, rfl⟩ (Nat.zero_sub _) rfl
    | opened =>
      simp only [recordFailure, pruneFailures, reduceCtorEq, if_false, false_and]
      exact .outside (by simp) (.inl ⟨rfl, rfl⟩) (Nat.sub_le _ _) (le_refl _)
    | closed =>
      simp only [recordFailure, pruneFailures, reduceCtorEq, if_false, true_and]
      split
      · simp only [openCircuit, transition, reduceCtorEq, false_and, if_false]
        exact .outside (by simp) (.inr ⟨rfl, _, rfl⟩) (by simp) (Nat.zero_le _)
      · exact .outside (by simp) (.inl ⟨rfl, rfl⟩) (Nat.sub_le _ _) (le_refl _)
  | ignored =>
    by_cases hstate : state = .halfOpen
    · exact .ignored hstate hstate rfl rfl
    · exact .outside hstate (.inl ⟨rfl, rfl⟩) (Nat.sub_le _ _) (le_refl _)

end Entry

/-! ## The breaker and its operations in flight -/

/-- An operation in flight: what its closure keeps, and the period it was admitted in. -/
structure Ticket where
  key         : String
  wasHalfOpen : Bool
  period      : Nat
deriving DecidableEq, Repr

structure Breaker where
  entries   : JsMap String CircuitEntry
  inFlight  : List Ticket
  /-- How often the circuit of a key has changed state. -/
  period    : String → Nat
  /-- The operations that have completed with success. -/
  succeeded : List Ticket

inductive Event where
  | start (key : String) (method : Option String) (nowMs : Int)
  | complete (ticket : Ticket) (method : Option String) (outcome : Outcome)
      (recordedAtMs openedAtMs : Int)

namespace Breaker

variable (options : ResolvedCircuitBreakerOptions)

def init : Breaker :=
  { entries := JsMap.empty, inFlight := [], period := fun _ => 0, succeeded := [] }

/-- `this.entries.get(key) ?? createEntry()`. -/
def entry (b : Breaker) (key : String) : CircuitEntry := (b.entries.get key).getD createEntry

/-- Mutates the entry of a key; another state begins another period. -/
def put (b : Breaker) (key : String) (entry : CircuitEntry) : Breaker :=
  { b with
    entries := b.entries.set key entry
    period := fun k =>
      if k = key ∧ entry.state ≠ (b.entry key).state then b.period k + 1 else b.period k }

def start (b : Breaker) (key : String) (method : Option String) (nowMs : Int) : Breaker :=
  let admitted := beginExecute options key method (b.entry key) nowMs
  let after := b.put key admitted.1
  match admitted.2 with
  | .error _ => after
  | .ok wasHalfOpen =>
    { after with inFlight := ⟨key, wasHalfOpen, after.period key⟩ :: after.inFlight }

def complete (b : Breaker) (ticket : Ticket) (method : Option String) (outcome : Outcome)
    (recordedAtMs openedAtMs : Int) : Breaker :=
  let settled := settle options ticket.key method (b.entry ticket.key) ticket.wasHalfOpen outcome
    recordedAtMs openedAtMs
  { b.put ticket.key settled.1 with
    inFlight := b.inFlight.erase ticket
    succeeded := if outcome = .success then ticket :: b.succeeded else b.succeeded }

def next (b : Breaker) : Event → Breaker
  | .start key method nowMs => b.start options key method nowMs
  | .complete ticket method outcome recordedAtMs openedAtMs =>
    b.complete options ticket method outcome recordedAtMs openedAtMs

/-- The probes in flight that the current period of the key admitted. -/
def probes (b : Breaker) (key : String) : Nat :=
  b.inFlight.countP fun t => t.key = key ∧ t.period = b.period key

/-- The successes of operations that the current period of the key admitted. -/
def ownSuccesses (b : Breaker) (key : String) : Nat :=
  b.succeeded.countP fun t => t.key = key ∧ t.period = b.period key

end Breaker

/-- Only an operation in flight completes. -/
def Event.Enabled (b : Breaker) : Event → Prop
  | .start .. => True
  | .complete ticket .. => ticket ∈ b.inFlight

/-- Any interleaving of the allowed events. -/
def breakerSystem (options : ResolvedCircuitBreakerOptions) (allowed : Breaker → Event → Prop) :
    System Breaker where
  init := Breaker.init
  step b b' := ∃ event, event.Enabled b ∧ allowed b event ∧ b' = b.next options event

/-- While the circuit is half-open, an operation of an earlier period completes at most with a
recorded failure, or, if it was not a probe itself, with a failure nobody records. -/
def Timely (b : Breaker) : Event → Prop
  | .start .. => True
  | .complete ticket _ outcome _ _ =>
    (b.entry ticket.key).state = .halfOpen → ticket.period ≠ b.period ticket.key →
      (∃ message, outcome = .failure message) ∨ outcome = .ignored ∧ ticket.wasHalfOpen = false

/-! ## The invariant -/

/-- What holds of a key in every state of a timely run. -/
structure Disciplined (options : ResolvedCircuitBreakerOptions) (b : Breaker) (key : String) :
    Prop where
  opened    : (b.entry key).state = .opened → ∃ untilMs, (b.entry key).openUntilMs = some untilMs
  outside   : (b.entry key).state ≠ .halfOpen →
    (b.entry key).halfOpenAttempts = 0 ∧ (b.entry key).halfOpenSuccesses = 0
  attempts  : (b.entry key).state = .halfOpen → (b.entry key).halfOpenAttempts = b.probes key
  bounded   : (b.entry key).halfOpenAttempts ≤ options.halfOpenMaxAttempts.1
  successes : (b.entry key).state = .halfOpen →
    (b.entry key).halfOpenSuccesses = b.ownSuccesses key
  below     : (b.entry key).halfOpenSuccesses < options.halfOpenMaxAttempts.1
  probing   : (b.entry key).state = .halfOpen → ∀ t ∈ b.inFlight, t.key = key →
    t.period = b.period key → t.wasHalfOpen = true
  flying    : ∀ t ∈ b.inFlight, t.key = key → t.period ≤ b.period key
  past      : ∀ t ∈ b.succeeded, t.key = key → t.period ≤ b.period key

section Steps

variable {options : ResolvedCircuitBreakerOptions} {b : Breaker} {key : String}

theorem disciplined_init (options : ResolvedCircuitBreakerOptions) (key : String) :
    Disciplined options Breaker.init key := by
  refine ⟨?_, ?_, ?_, Nat.zero_le _, ?_, options.halfOpenMaxAttempts.2, ?_, ?_, ?_⟩ <;>
    simp [Breaker.init, Breaker.entry, createEntry]

@[simp] theorem Breaker.entry_put (b : Breaker) (key k : String) (e : CircuitEntry) :
    (b.put key e).entry k = if k = key then e else b.entry k := by
  unfold Breaker.entry Breaker.put
  rw [JsMap.get_set]
  split <;> rfl

theorem Breaker.period_put_of_same (b : Breaker) {key : String} {e : CircuitEntry}
    (h : e.state = (b.entry key).state) : (b.put key e).period = b.period := by
  funext k
  simp [Breaker.put, h]

theorem Breaker.period_put_of_ne (b : Breaker) {key k : String} (e : CircuitEntry) (h : k ≠ key) :
    (b.put key e).period k = b.period k := by
  simp [Breaker.put, h]

theorem Breaker.period_put_of_change (b : Breaker) {key : String} {e : CircuitEntry}
    (h : e.state ≠ (b.entry key).state) : (b.put key e).period key = b.period key + 1 := by
  simp [Breaker.put, h]

/-- A period nobody was admitted in yet has no operations. -/
theorem countP_new_period {l : List Ticket} {key : String} {period : Nat}
    (h : ∀ t ∈ l, t.key = key → t.period ≤ period) :
    l.countP (fun t => t.key = key ∧ t.period = period + 1) = 0 := by
  rw [List.countP_eq_zero]
  intro t ht hmatch
  obtain ⟨hkey, hperiod⟩ := of_decide_eq_true hmatch
  have hle := h t ht hkey
  omega

/-- Another key's event leaves a key's discipline as it is. -/
theorem Disciplined.frame (h : Disciplined options b key) {b' : Breaker}
    (hentry : b'.entry key = b.entry key) (hperiod : b'.period key = b.period key)
    (hflight : ∀ p : Ticket → Bool, (∀ t, p t = true → t.key = key) →
      b'.inFlight.countP p = b.inFlight.countP p)
    (hsucceeded : ∀ p : Ticket → Bool, (∀ t, p t = true → t.key = key) →
      b'.succeeded.countP p = b.succeeded.countP p) : Disciplined options b' key := by
  -- what no ticket of the key did before, none does now
  have hnone : ∀ (l l' : List Ticket), (∀ p : Ticket → Bool, (∀ t, p t = true → t.key = key) →
      l'.countP p = l.countP p) → ∀ Q : Ticket → Prop, (∀ t ∈ l, t.key = key → Q t) →
        ∀ t ∈ l', t.key = key → Q t := by
    classical
    intro l l' hcount Q hQ t ht hkey
    by_contra hnot
    have hcount := hcount (fun t => t.key = key ∧ ¬ Q t) fun t ht => (of_decide_eq_true ht).1
    have hzero : l.countP (fun t => t.key = key ∧ ¬ Q t) = 0 := by
      rw [List.countP_eq_zero]
      intro t ht hmatch
      obtain ⟨hkey, hnot⟩ := of_decide_eq_true hmatch
      exact hnot (hQ t ht hkey)
    rw [hzero, List.countP_eq_zero] at hcount
    exact hcount t ht (decide_eq_true ⟨hkey, hnot⟩)
  have hown : ∀ t : Ticket, decide (t.key = key ∧ t.period = b.period key) = true → t.key = key :=
    fun t ht => (of_decide_eq_true ht).1
  refine ⟨?_, ?_, ?_, ?_, ?_, ?_, ?_, ?_, ?_⟩
  · rw [hentry]; exact h.opened
  · rw [hentry]; exact h.outside
  · rw [hentry, Breaker.probes, hperiod, hflight _ hown]; exact h.attempts
  · rw [hentry]; exact h.bounded
  · rw [hentry, Breaker.ownSuccesses, hperiod, hsucceeded _ hown]; exact h.successes
  · rw [hentry]; exact h.below
  · rw [hentry, hperiod]
    exact fun hstate => hnone _ _ hflight _ (h.probing hstate)
  · rw [hperiod]; exact hnone _ _ hflight _ h.flying
  · rw [hperiod]; exact hnone _ _ hsucceeded _ h.past

/-- A call that was refused only pruned the failures. -/
theorem Disciplined.put_same (h : Disciplined options b key) {e : CircuitEntry}
    (hsame : SameCounters (b.entry key) e) : Disciplined options (b.put key e) key := by
  obtain ⟨hstate, hattempts, hsuccesses, huntil⟩ := hsame
  have hentry : (b.put key e).entry key = e := by simp
  have hperiod := b.period_put_of_same hstate
  refine ⟨?_, ?_, ?_, ?_, ?_, ?_, ?_, ?_, ?_⟩
  · rw [hentry, hstate, huntil]; exact h.opened
  · rw [hentry, hstate, hattempts, hsuccesses]; exact h.outside
  · rw [hentry, hstate, hattempts, Breaker.probes, hperiod]; exact h.attempts
  · rw [hentry, hattempts]; exact h.bounded
  · rw [hentry, hstate, hsuccesses, Breaker.ownSuccesses, hperiod]; exact h.successes
  · rw [hentry, hsuccesses]; exact h.below
  · rw [hentry, hstate, hperiod]; exact h.probing
  · rw [hperiod]; exact h.flying
  · rw [hperiod]; exact h.past

theorem Disciplined.start (h : Disciplined options b key) (method : Option String) (nowMs : Int) :
    Disciplined options (b.start options key method nowMs) key := by
  have hadmission := @admission options key method (b.entry key) nowMs
  unfold Breaker.start
  generalize beginExecute options key method (b.entry key) nowMs = admitted at hadmission
  obtain ⟨e, result⟩ := admitted
  dsimp only at hadmission ⊢
  have hentry : (b.put key e).entry key = e := by simp
  cases hadmission with
  | refused same => exact h.put_same same
  | full opened attempts =>
    -- an open circuit has no attempts, and at least one is allowed
    have hzero := (h.outside (by simp [opened])).1
    have hpos := options.halfOpenMaxAttempts.2
    omega
  | closed closed same =>
    have hput := h.put_same same
    have hclosed : ((b.put key e).entry key).state = .closed := by rw [hentry, same.1, closed]
    refine ⟨hput.opened, hput.outside, ?_, hput.bounded, hput.successes, hput.below, ?_, ?_,
      hput.past⟩
    · intro hstate
      exact absurd (hclosed.symm.trans hstate) (by decide)
    · intro hstate
      exact absurd (hclosed.symm.trans hstate) (by decide)
    · intro t ht hkey
      rcases List.mem_cons.1 ht with rfl | ht
      · exact le_refl _
      · exact hput.flying t ht hkey
  | probe halfOpen before room attempts =>
    -- the probe is one more of its period, which is new if the circuit was open
    have hcount : (b.put key e).probes key = (b.entry key).halfOpenAttempts ∧
        e.halfOpenSuccesses = (b.put key e).ownSuccesses key ∧
        e.halfOpenSuccesses < options.halfOpenMaxAttempts.1 ∧
        (∀ t ∈ b.inFlight, t.key = key → t.period = (b.put key e).period key →
          t.wasHalfOpen = true) ∧
        b.period key ≤ (b.put key e).period key := by
      rcases before with ⟨hstate, hsuccesses⟩ | ⟨hstate, -, hsuccesses⟩
      · have hperiod := b.period_put_of_same (halfOpen.trans hstate.symm)
        refine ⟨?_, ?_, ?_, ?_, ?_⟩
        · rw [Breaker.probes, hperiod]; exact (h.attempts hstate).symm
        · rw [hsuccesses, Breaker.ownSuccesses, hperiod]; exact h.successes hstate
        · rw [hsuccesses]; exact h.below
        · rw [hperiod]; exact h.probing hstate
        · rw [hperiod]
      · have hchange : e.state ≠ (b.entry key).state := by simp [halfOpen, hstate]
        have hperiod := b.period_put_of_change hchange
        refine ⟨?_, ?_, ?_, ?_, ?_⟩
        · rw [Breaker.probes, hperiod, (h.outside (by simp [hstate])).1]
          exact countP_new_period h.flying
        · rw [hsuccesses, Breaker.ownSuccesses, hperiod]
          exact (countP_new_period h.past).symm
        · rw [hsuccesses]; exact options.halfOpenMaxAttempts.2
        · intro t ht hkey hnew
          have hle := h.flying t ht hkey
          omega
        · omega
    obtain ⟨hprobes, hsuccesses, hbelow, hprobing, hperiod⟩ := hcount
    refine ⟨?_, ?_, ?_, ?_, ?_, ?_, ?_, ?_, ?_⟩
    · intro hstate
      exact absurd (halfOpen.symm.trans ((congrArg _ hentry).symm.trans hstate)) (by decide)
    · intro hstate
      exact absurd ((congrArg _ hentry).trans halfOpen) hstate
    · intro _
      change ((b.put key e).entry key).halfOpenAttempts = List.countP _ (_ :: b.inFlight)
      rw [hentry, attempts, ← hprobes, List.countP_cons_of_pos (by simp)]
      rfl
    · change ((b.put key e).entry key).halfOpenAttempts ≤ _
      rw [hentry, attempts]
      exact room
    · intro _
      change ((b.put key e).entry key).halfOpenSuccesses = _
      rw [hentry]
      exact hsuccesses
    · change ((b.put key e).entry key).halfOpenSuccesses < _
      rw [hentry]
      exact hbelow
    · intro _ t ht hkey hown
      rcases List.mem_cons.1 ht with rfl | ht
      · rfl
      · exact hprobing t ht hkey hown
    · intro t ht hkey
      rcases List.mem_cons.1 ht with rfl | ht
      · exact le_refl _
      · exact (h.flying t ht hkey).trans hperiod
    · intro t ht hkey
      exact (h.past t ht hkey).trans hperiod

/-- A completion that leaves the circuit closed or open: the counters are at zero. -/
theorem Disciplined.of_outside (h : Disciplined options b key) {b' : Breaker}
    (hstate : (b'.entry key).state ≠ .halfOpen)
    (hopened : (b'.entry key).state = .opened →
      ∃ untilMs, (b'.entry key).openUntilMs = some untilMs)
    (hattempts : (b'.entry key).halfOpenAttempts = 0)
    (hsuccesses : (b'.entry key).halfOpenSuccesses = 0) (hperiod : b.period key ≤ b'.period key)
    (hflight : ∀ t ∈ b'.inFlight, t ∈ b.inFlight)
    (hsucceeded : ∀ t ∈ b'.succeeded, t ∈ b.succeeded ∨ t ∈ b.inFlight) :
    Disciplined options b' key := by
  refine ⟨hopened, fun _ => ⟨hattempts, hsuccesses⟩, fun hhalf => absurd hhalf hstate, ?_,
    fun hhalf => absurd hhalf hstate, ?_, fun hhalf => absurd hhalf hstate, ?_, ?_⟩
  · rw [hattempts]; exact Nat.zero_le _
  · rw [hsuccesses]; exact options.halfOpenMaxAttempts.2
  · exact fun t ht hkey => (h.flying t (hflight t ht) hkey).trans hperiod
  · intro t ht hkey
    rcases hsucceeded t ht with ht | ht
    · exact (h.past t ht hkey).trans hperiod
    · exact (h.flying t ht hkey).trans hperiod

theorem Breaker.period_le_put (b : Breaker) (key : String) (e : CircuitEntry) :
    b.period key ≤ (b.put key e).period key := by
  simp only [Breaker.put]
  split <;> omega

theorem mem_succeeded_complete {ticket t : Ticket} {outcome : Outcome} (hin : ticket ∈ b.inFlight)
    (ht : t ∈ if outcome = .success then ticket :: b.succeeded else b.succeeded) :
    t ∈ b.succeeded ∨ t ∈ b.inFlight := by
  split at ht
  · rcases List.mem_cons.1 ht with rfl | ht
    · exact .inr hin
    · exact .inl ht
  · exact .inl ht

/-- A timely completion while the circuit is half-open takes back what its admission counted. -/
theorem Disciplined.probes_erase (h : Disciplined options b key)
    (hstate : (b.entry key).state = .halfOpen) {ticket : Ticket} (hkey : ticket.key = key)
    (hin : ticket ∈ b.inFlight)
    (hstale : ticket.period ≠ b.period key → ticket.wasHalfOpen = false) :
    (b.entry key).halfOpenAttempts - ticket.wasHalfOpen.toNat =
      (b.inFlight.erase ticket).countP fun t => t.key = key ∧ t.period = b.period key := by
  rw [List.countP_erase, h.attempts hstate, Breaker.probes]
  by_cases hown : ticket.period = b.period key
  · have hprobe := h.probing hstate ticket hin hkey hown
    simp [hin, hkey, hown, hprobe]
  · simp [hown, hstale hown]

theorem Disciplined.complete (h : Disciplined options b key) {ticket : Ticket}
    (hkey : ticket.key = key) (hin : ticket ∈ b.inFlight) {method : Option String}
    {outcome : Outcome} {recordedAtMs openedAtMs : Int}
    (htimely : Timely b (.complete ticket method outcome recordedAtMs openedAtMs)) :
    Disciplined options (b.complete options ticket method outcome recordedAtMs openedAtMs) key := by
  subst hkey
  have hsettlement := @settlement options ticket.key method (b.entry ticket.key)
    ticket.wasHalfOpen outcome recordedAtMs openedAtMs
  unfold Breaker.complete
  generalize settle options ticket.key method (b.entry ticket.key) ticket.wasHalfOpen outcome
    recordedAtMs openedAtMs = settled at hsettlement
  obtain ⟨e, told⟩ := settled
  dsimp only at hsettlement ⊢
  have hentry : ∀ inFlight succeeded, Breaker.entry { b.put ticket.key e with
      inFlight := inFlight, succeeded := succeeded } ticket.key = e :=
    fun _ _ => (b.entry_put ticket.key ticket.key e).trans (if_pos rfl)
  have hperiod := b.period_le_put ticket.key e
  have hflight : ∀ t ∈ b.inFlight.erase ticket, t ∈ b.inFlight := fun t => List.mem_of_mem_erase
  have hsucceeded := fun t => @mem_succeeded_complete b ticket t outcome hin
  -- a half-open circuit stays so within the period: the tickets' periods mean the same
  have hhalf : e.state = .halfOpen → (b.entry ticket.key).state = .halfOpen →
      (b.put ticket.key e).period = b.period :=
    fun hafter hbefore => b.period_put_of_same (hafter.trans hbefore.symm)
  cases hsettlement with
  | outside before after attempts successes =>
    obtain ⟨hattempts, hsuccesses⟩ := h.outside before
    refine h.of_outside ?_ ?_ ?_ ?_ hperiod hflight hsucceeded
    · rw [hentry]
      rcases after with ⟨hstate, -⟩ | ⟨hstate, -⟩
      · rw [hstate]; exact before
      · rw [hstate]; decide
    · rw [hentry]
      rcases after with ⟨hstate, huntil⟩ | ⟨-, huntil⟩
      · rw [hstate, huntil]; exact h.opened
      · exact fun _ => huntil
    · rw [hentry]; omega
    · rw [hentry]; omega
  | reopened before after untilMs attempts successes =>
    refine h.of_outside ?_ ?_ ?_ ?_ hperiod hflight hsucceeded
    · rw [hentry, after]; decide
    · rw [hentry]; exact fun _ => untilMs
    · rw [hentry, attempts]
    · rw [hentry, successes]
  | closed before after enough attempts successes =>
    refine h.of_outside ?_ ?_ ?_ ?_ hperiod hflight hsucceeded
    · rw [hentry, after]; decide
    · rw [hentry, after]
      intro hopened
      cases hopened
    · rw [hentry, attempts]
    · rw [hentry, successes]
  | counted before after room attempts successes =>
    have hown : ticket.period = b.period ticket.key := by
      by_contra hstale
      rcases htimely before hstale with ⟨message, hfailure⟩ | ⟨hignored, -⟩
      · cases hfailure
      · cases hignored
    have hsame := hhalf after before
    have herase := h.probes_erase before rfl hin fun hstale => absurd hown hstale
    refine ⟨?_, ?_, ?_, ?_, ?_, ?_, ?_, ?_, ?_⟩
    · rw [hentry, after]
      intro hopened
      cases hopened
    · rw [hentry]
      exact fun hstate => absurd after hstate
    · intro _
      rw [hentry, attempts, Breaker.probes, hsame]
      exact herase
    · rw [hentry, attempts]
      exact (Nat.sub_le _ _).trans h.bounded
    · intro _
      rw [hentry, successes, h.successes before, Breaker.ownSuccesses, Breaker.ownSuccesses, hsame,
        if_pos rfl, List.countP_cons_of_pos (by simp [hown])]
    · rw [hentry, successes]
      exact room
    · rw [hsame]
      exact fun _ t ht => h.probing before t (hflight t ht)
    · rw [hsame]
      exact fun t ht => h.flying t (hflight t ht)
    · rw [hsame]
      intro t ht hkey
      rcases hsucceeded t ht with ht | ht
      · exact h.past t ht hkey
      · exact h.flying t ht hkey
  | ignored before after attempts successes =>
    have hstale : ticket.period ≠ b.period ticket.key → ticket.wasHalfOpen = false := by
      intro hne
      rcases htimely before hne with ⟨message, hfailure⟩ | ⟨-, hnot⟩
      · cases hfailure
      · exact hnot
    have hsame := hhalf after before
    have herase := h.probes_erase before rfl hin hstale
    refine ⟨?_, ?_, ?_, ?_, ?_, ?_, ?_, ?_, ?_⟩
    · rw [hentry, after]
      intro hopened
      cases hopened
    · rw [hentry]
      exact fun hstate => absurd after hstate
    · intro _
      rw [hentry, attempts, Breaker.probes, hsame]
      exact herase
    · rw [hentry, attempts]
      exact (Nat.sub_le _ _).trans h.bounded
    · intro _
      rw [hentry, successes, h.successes before, Breaker.ownSuccesses, Breaker.ownSuccesses, hsame]
      rfl
    · rw [hentry, successes]
      exact h.below
    · rw [hsame]
      exact fun _ t ht => h.probing before t (hflight t ht)
    · rw [hsame]
      exact fun t ht => h.flying t (hflight t ht)
    · rw [hsame]
      exact h.past

/-- One event of a timely run. -/
theorem Disciplined.next (h : Disciplined options b key) {event : Event} (henabled : event.Enabled b)
    (htimely : Timely b event) : Disciplined options (b.next options event) key := by
  cases event with
  | start k method nowMs =>
    by_cases hkey : k = key
    · subst hkey
      exact h.start method nowMs
    · have hne : key ≠ k := fun heq => hkey heq.symm
      change Disciplined options (b.start options k method nowMs) key
      unfold Breaker.start
      generalize beginExecute options k method (b.entry k) nowMs = admitted
      obtain ⟨e, result⟩ := admitted
      have hput : Disciplined options (b.put k e) key :=
        h.frame (by simp [hne]) (b.period_put_of_ne e hne) (fun _ _ => rfl) fun _ _ => rfl
      cases result with
      | error refused => exact hput
      | ok wasHalfOpen =>
        refine hput.frame rfl rfl (fun p hp => ?_) fun _ _ => rfl
        exact List.countP_cons_of_neg fun hmatch => hkey (hp _ hmatch)
  | complete ticket method outcome recordedAtMs openedAtMs =>
    by_cases hkey : ticket.key = key
    · exact h.complete hkey henabled htimely
    · have hne : key ≠ ticket.key := fun heq => hkey heq.symm
      refine h.frame ?_ ?_ (fun p hp => ?_) (fun p hp => ?_)
      · exact (b.entry_put ticket.key key _).trans (if_neg hne)
      · exact b.period_put_of_ne _ hne
      · have hnot : p ticket ≠ true := fun hmatch => hkey (hp _ hmatch)
        change (b.inFlight.erase ticket).countP p = b.inFlight.countP p
        rw [List.countP_erase]
        simp [hnot]
      · change (if outcome = .success then ticket :: b.succeeded else b.succeeded).countP p = _
        split
        · exact List.countP_cons_of_neg fun hmatch => hkey (hp _ hmatch)
        · rfl

end Steps

theorem reachable_disciplined {options : ResolvedCircuitBreakerOptions} {b : Breaker}
    (h : (breakerSystem options Timely).Reachable b) (key : String) :
    Disciplined options b key := by
  refine System.invariant (I := fun b => Disciplined options b key)
    (disciplined_init options key) ?_ h
  rintro b _ hb ⟨event, henabled, htimely, rfl⟩
  exact hb.next henabled htimely

/-- The circuit of a key that an event closes was closed by a success of its own. -/
theorem closes_of_next {options : ResolvedCircuitBreakerOptions} {b : Breaker} {key : String}
    {event : Event} (hbefore : (b.entry key).state = .halfOpen)
    (hafter : ((b.next options event).entry key).state = .closed) :
    ∃ ticket method recordedAtMs openedAtMs,
      event = .complete ticket method .success recordedAtMs openedAtMs ∧ ticket.key = key ∧
        options.halfOpenMaxAttempts.1 ≤ (b.entry key).halfOpenSuccesses + 1 := by
  cases event with
  | start k method nowMs =>
    exfalso
    have hadmission := @admission options k method (b.entry k) nowMs
    have hentry : (b.next options (.start k method nowMs)).entry key =
        if key = k then (beginExecute options k method (b.entry k) nowMs).1 else b.entry key := by
      rw [← b.entry_put]
      change (b.start options k method nowMs).entry key = _
      unfold Breaker.start
      dsimp only
      split <;> rfl
    rw [hentry] at hafter
    by_cases hkey : key = k
    · subst hkey
      rw [if_pos rfl] at hafter
      generalize beginExecute options key method (b.entry key) nowMs = admitted at hadmission hafter
      obtain ⟨e, result⟩ := admitted
      dsimp only at hadmission hafter
      cases hadmission with
      | refused same => exact absurd (hbefore.symm.trans (same.1.symm.trans hafter)) (by decide)
      | full opened _ => exact absurd (hbefore.symm.trans opened) (by decide)
      | closed closed _ => exact absurd (hbefore.symm.trans closed) (by decide)
      | probe halfOpen _ _ _ => exact absurd (halfOpen.symm.trans hafter) (by decide)
    · rw [if_neg hkey, hbefore] at hafter
      cases hafter
  | complete ticket method outcome recordedAtMs openedAtMs =>
    have hsettlement := @settlement options ticket.key method (b.entry ticket.key)
      ticket.wasHalfOpen outcome recordedAtMs openedAtMs
    have hentry : (b.next options (.complete ticket method outcome recordedAtMs openedAtMs)).entry
        key = if key = ticket.key then (settle options ticket.key method (b.entry ticket.key)
          ticket.wasHalfOpen outcome recordedAtMs openedAtMs).1 else b.entry key := by
      rw [← b.entry_put]
      rfl
    rw [hentry] at hafter
    by_cases hkey : key = ticket.key
    · subst hkey
      rw [if_pos rfl] at hafter
      generalize settle options ticket.key method (b.entry ticket.key) ticket.wasHalfOpen outcome
        recordedAtMs openedAtMs = settled at hsettlement hafter
      obtain ⟨e, told⟩ := settled
      dsimp only at hsettlement hafter
      cases hsettlement with
      | outside before _ _ _ => exact absurd hbefore before
      | reopened _ after _ _ _ => exact absurd (after.symm.trans hafter) (by decide)
      | counted _ after _ _ _ => exact absurd (after.symm.trans hafter) (by decide)
      | ignored _ after _ _ => exact absurd (after.symm.trans hafter) (by decide)
      | closed _ _ enough _ _ => exact ⟨ticket, method, recordedAtMs, openedAtMs, rfl, rfl, enough⟩
    · rw [if_neg hkey, hbefore] at hafter
      cases hafter

/-- **The half-open discipline.** In every state of every timely run, for every key: an operation
is admitted by an open circuit only when its cooldown has elapsed; while the circuit is half-open,
at most `halfOpenMaxAttempts` of the operations its period admitted are in flight; and an event
that closes it is the success of an operation of that period, and the one that completes the
required number of successes of the period. -/
theorem half_open_discipline {options : ResolvedCircuitBreakerOptions} {b : Breaker}
    (h : (breakerSystem options Timely).Reachable b) (key : String) :
    (∀ method nowMs wasHalfOpen, (b.entry key).state = .opened →
        (beginExecute options key method (b.entry key) nowMs).2 = .ok wasHalfOpen →
          ∃ untilMs, (b.entry key).openUntilMs = some untilMs ∧ untilMs ≤ nowMs) ∧
      ((b.entry key).state = .halfOpen → b.probes key ≤ options.halfOpenMaxAttempts.1) ∧
      ∀ event, event.Enabled b → Timely b event → (b.entry key).state = .halfOpen →
        ((b.next options event).entry key).state = .closed →
          ∃ ticket method recordedAtMs openedAtMs,
            event = .complete ticket method .success recordedAtMs openedAtMs ∧
              ticket.key = key ∧ ticket.wasHalfOpen = true ∧ ticket.period = b.period key ∧
              b.ownSuccesses key + 1 = options.halfOpenMaxAttempts.1 := by
  have hkey := reachable_disciplined h key
  refine ⟨?_, ?_, ?_⟩
  · intro method nowMs wasHalfOpen hopened hadmitted
    obtain ⟨untilMs, huntil⟩ := hkey.opened hopened
    refine ⟨untilMs, huntil, ?_⟩
    have hadmission := @admission options key method (b.entry key) nowMs
    rw [hadmitted] at hadmission
    cases hadmission with
    | closed closed _ => simp [closed] at hopened
    | probe _ before _ _ =>
      rcases before with ⟨hstate, -⟩ | ⟨-, helapsed, -⟩
      · simp [hstate] at hopened
      · simpa [huntil] using helapsed
  · intro hstate
    rw [← hkey.attempts hstate]
    exact hkey.bounded
  · intro event henabled htimely hstate hclosed
    obtain ⟨ticket, method, recordedAtMs, openedAtMs, rfl, rfl, henough⟩ :=
      closes_of_next hstate hclosed
    have hown : ticket.period = b.period ticket.key := by
      by_contra hstale
      rcases htimely hstate hstale with ⟨message, hfailure⟩ | ⟨hignored, -⟩
      · cases hfailure
      · cases hignored
    refine ⟨ticket, method, recordedAtMs, openedAtMs, rfl, rfl,
      hkey.probing hstate ticket henabled rfl hown, hown, ?_⟩
    rw [← hkey.successes hstate]
    have hbelow := hkey.below
    omega

/-! ## Two runs -/

/-- `{ failureThreshold: 1, windowMs: 10_000, cooldownMs: 5_000 }`. -/
def sampleOptions : ResolvedCircuitBreakerOptions :=
  resolveOptions (.finite 1) (.finite 10000) (.finite 5000) none

def sampleKey : String := "web.fetch::https://example.test"

def startAt (b : Breaker) (nowMs : Int) : Breaker :=
  b.next sampleOptions (.start sampleKey none nowMs)

def completeWith (b : Breaker) (ticket : Ticket) (outcome : Outcome) (nowMs : Int) : Breaker :=
  b.next sampleOptions (.complete ticket none outcome nowMs nowMs)

/-- The operation of the first, closed period. -/
def firstTicket : Ticket := ⟨sampleKey, false, 0⟩

/-- One operation failed and opened the circuit, and a probe is in flight. -/
def probedBreaker : Breaker :=
  startAt (completeWith (startAt Breaker.init 1000) firstTicket (.failure "503") 1000) 6000

/-- The same, with a second operation that was already in flight when the circuit opened. -/
def slowBreaker : Breaker :=
  startAt (completeWith (startAt (startAt Breaker.init 1000) 1000) firstTicket (.failure "503")
    1000) 6000

theorem reachable_startAt {allowed : Breaker → Event → Prop} {b : Breaker} {nowMs : Int}
    (h : (breakerSystem sampleOptions allowed).Reachable b)
    (hallowed : allowed b (.start sampleKey none nowMs)) :
    (breakerSystem sampleOptions allowed).Reachable (startAt b nowMs) :=
  h.next ⟨.start sampleKey none nowMs, trivial, hallowed, rfl⟩

theorem reachable_completeWith {allowed : Breaker → Event → Prop} {b : Breaker} {ticket : Ticket}
    {outcome : Outcome} {nowMs : Int} (h : (breakerSystem sampleOptions allowed).Reachable b)
    (hin : ticket ∈ b.inFlight)
    (hallowed : allowed b (.complete ticket none outcome nowMs nowMs)) :
    (breakerSystem sampleOptions allowed).Reachable (completeWith b ticket outcome nowMs) :=
  h.next ⟨.complete ticket none outcome nowMs nowMs, hin, hallowed, rfl⟩

theorem probedBreaker_reachable : (breakerSystem sampleOptions Timely).Reachable probedBreaker := by
  have hstart : (breakerSystem sampleOptions Timely).Reachable (startAt Breaker.init 1000) :=
    reachable_startAt .refl trivial
  have hin : firstTicket ∈ (startAt Breaker.init 1000).inFlight := by decide +kernel
  have hfail : (breakerSystem sampleOptions Timely).Reachable
      (completeWith (startAt Breaker.init 1000) firstTicket (.failure "503") 1000) :=
    reachable_completeWith hstart hin fun _ _ => .inl ⟨_, rfl⟩
  exact reachable_startAt hfail trivial

/-- The probe is the one its period allows. -/
theorem half_open_discipline_probe :
    (probedBreaker.entry sampleKey).state = .halfOpen ∧ probedBreaker.probes sampleKey ≤ 1 := by
  have hstate : (probedBreaker.entry sampleKey).state = .halfOpen := by decide +kernel
  exact ⟨hstate, (half_open_discipline probedBreaker_reachable sampleKey).2.1 hstate⟩

/-- The slow operation of the first period succeeds while the circuit is half-open: it closes,
although no probe has succeeded and the only one is still in flight. -/
theorem slow_success_closes :
    (breakerSystem sampleOptions fun _ _ => True).Reachable slowBreaker ∧
      (slowBreaker.entry sampleKey).state = .halfOpen ∧ firstTicket ∈ slowBreaker.inFlight ∧
      firstTicket.period ≠ slowBreaker.period sampleKey ∧
      slowBreaker.probes sampleKey = 1 ∧ slowBreaker.ownSuccesses sampleKey = 0 ∧
      ((completeWith slowBreaker firstTicket .success 6001).entry sampleKey).state = .closed := by
  refine ⟨?_, by decide +kernel, by decide +kernel, by decide +kernel, by decide +kernel,
    by decide +kernel, by decide +kernel⟩
  have hstart : (breakerSystem sampleOptions fun _ _ => True).Reachable
      (startAt (startAt Breaker.init 1000) 1000) :=
    reachable_startAt (reachable_startAt .refl trivial) trivial
  have hin : firstTicket ∈ (startAt (startAt Breaker.init 1000) 1000).inFlight := by
    decide +kernel
  exact reachable_startAt (reachable_completeWith hstart hin trivial) trivial

end Psfn.Resilience
