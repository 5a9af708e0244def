import Psfn.Lib.Js
import Psfn.Lib.Transition

/-!
# Circuit breaker — definitions

The sliding-window circuit breaker: per key an entry with its state, the failures of the
window and two half-open counters. `execute` is split where it awaits: `beginExecute` is what runs
before the operation is started, `settle` what runs when it has completed. Everything in
between is other calls' code, so an operation in flight is only what its closure keeps, the
key and whether it was admitted half-open.

Times are readings of `now()`; every reading is its own parameter.
-/

namespace Psfn.Resilience

open Psfn.Lib

/-! ## Options -/

theorem positive_of_whole {q : Rat} (h : q.den = 1 ∧ 0 < q.num.toNat) : 0 < q.num.toNat := h.2

/-- `toPositiveInteger` on a number. -/
def toPositiveInteger : JsNumber → Option { n : Nat // 0 < n }
  | .finite q =>
    if h : q.den = 1 ∧ 0 < q.num.toNat then some ⟨q.num.toNat, positive_of_whole h⟩ else none
  | _ => none

def positiveIntegerOr (value : Option JsNumber) (fallback : { n : Nat // 0 < n }) :
    { n : Nat // 0 < n } :=
  (value.bind toPositiveInteger).getD fallback

/-- `ResolvedCircuitBreakerOptions`, without the clock. -/
structure ResolvedCircuitBreakerOptions where
  failureThreshold    : { n : Nat // 0 < n }
  windowMs            : { n : Nat // 0 < n }
  cooldownMs          : { n : Nat // 0 < n }
  halfOpenMaxAttempts : { n : Nat // 0 < n }

def resolveOptions (failureThreshold windowMs cooldownMs : JsNumber)
    (halfOpenMaxAttempts : Option JsNumber) : ResolvedCircuitBreakerOptions where
  failureThreshold := positiveIntegerOr (some failureThreshold) ⟨1, Nat.one_pos⟩
  windowMs := positiveIntegerOr (some windowMs) ⟨1, Nat.one_pos⟩
  cooldownMs := positiveIntegerOr (some cooldownMs) ⟨1, Nat.one_pos⟩
  halfOpenMaxAttempts := positiveIntegerOr halfOpenMaxAttempts ⟨1, Nat.one_pos⟩

/-! ## Entries -/

/-- `'closed' | 'open' | 'half_open'`. -/
inductive CircuitBreakerState where
  | closed | opened | halfOpen
deriving DecidableEq, Repr

inductive CircuitBreakerTransitionReason where
  | failureThreshold | cooldownElapsed | halfOpenSuccess | halfOpenFailure
deriving DecidableEq, Repr

structure CircuitEntry where
  state             : CircuitBreakerState := .closed
  failures          : List Int := []
  halfOpenAttempts  : Nat := 0
  halfOpenSuccesses : Nat := 0
  openedAtMs        : Option Int := none
  openUntilMs       : Option Int := none
deriving DecidableEq, Repr

def createEntry : CircuitEntry := {}

structure CircuitBreakerSnapshot where
  key              : String
  method           : Option String
  state            : CircuitBreakerState
  failureCount     : Nat
  failureThreshold : Nat
  windowMs         : Nat
  cooldownMs       : Nat
  openedAtMs       : Option Int
  openUntilMs      : Option Int
deriving DecidableEq, Repr

structure CircuitBreakerTransition extends CircuitBreakerSnapshot where
  source    : CircuitBreakerState
  target    : CircuitBreakerState
  reason    : CircuitBreakerTransitionReason
  lastError : Option String
deriving DecidableEq, Repr

/-- What a refused call throws. -/
structure CircuitOpenError where
  snapshot : CircuitBreakerSnapshot
  nowMs    : Int
deriving DecidableEq, Repr

section Entry

variable (options : ResolvedCircuitBreakerOptions) (key : String) (method : Option String)

def toSnapshot (entry : CircuitEntry) : CircuitBreakerSnapshot where
  key
  -- an empty method is left out
  method := method.filter (· ≠ "")
  state := entry.state
  failureCount := entry.failures.length
  failureThreshold := options.failureThreshold
  windowMs := options.windowMs
  cooldownMs := options.cooldownMs
  openedAtMs := entry.openedAtMs
  openUntilMs := entry.openUntilMs

def pruneFailures (entry : CircuitEntry) (nowMs : Int) : CircuitEntry :=
  { entry with failures := entry.failures.filter fun timestamp =>
      nowMs - options.windowMs.1 ≤ timestamp }

/-- The entry after a transition, and what the observer is told. -/
def transition (entry : CircuitEntry) (target : CircuitBreakerState)
    (reason : CircuitBreakerTransitionReason) (lastError : Option String) :
    CircuitEntry × Option CircuitBreakerTransition :=
  if entry.state = target ∧ reason ≠ .failureThreshold ∧ reason ≠ .halfOpenFailure then
    (entry, none)
  else
    let after := { entry with
      state := target
      halfOpenAttempts := if target = .halfOpen then entry.halfOpenAttempts else 0
      halfOpenSuccesses := 0 }
    (after, some { toSnapshot options key method after with
      source := entry.state, target, reason, lastError := lastError.filter (· ≠ "") })

/-- `open`, a reserved word. -/
def openCircuit (entry : CircuitEntry) (reason : CircuitBreakerTransitionReason)
    (message : String) (nowMs : Int) : CircuitEntry × Option CircuitBreakerTransition :=
  transition options key method
    { entry with openedAtMs := some nowMs, openUntilMs := some (nowMs + options.cooldownMs.1) }
    .opened reason (some message)

/-- The entry is mutated also when the call is refused. -/
def assertCanExecute (entry : CircuitEntry) (nowMs : Int) :
    CircuitEntry × Except CircuitOpenError Unit :=
  let pruned := pruneFailures options entry nowMs
  let entry := if pruned.state = .opened ∧ pruned.openUntilMs.getD 0 ≤ nowMs
    then (transition options key method pruned .halfOpen .cooldownElapsed none).1 else pruned
  if entry.state = .halfOpen ∧ options.halfOpenMaxAttempts.1 ≤ entry.halfOpenAttempts then
    (entry, .error ⟨toSnapshot options key method entry, nowMs⟩)
  else if entry.state = .opened then
    (entry, .error ⟨toSnapshot options key method entry, nowMs⟩)
  else (entry, .ok ())

def recordSuccess (entry : CircuitEntry) : CircuitEntry × Option CircuitBreakerTransition :=
  if entry.state ≠ .halfOpen then (entry, none)
  else
    let counted := { entry with halfOpenSuccesses := entry.halfOpenSuccesses + 1 }
    if counted.halfOpenSuccesses < options.halfOpenMaxAttempts.1 then (counted, none)
    else transition options key method
      { counted with failures := [], openedAtMs := none, openUntilMs := none }
      .closed .halfOpenSuccess none

/-- `recordedAtMs` and `openedAtMs` are its two readings of the clock. -/
def recordFailure (entry : CircuitEntry) (message : String) (recordedAtMs openedAtMs : Int) :
    CircuitEntry × Option CircuitBreakerTransition :=
  let pruned := pruneFailures options entry recordedAtMs
  let entry := { pruned with failures := pruned.failures ++ [recordedAtMs] }
  if entry.state = .halfOpen then
    openCircuit options key method entry .halfOpenFailure message openedAtMs
  else if entry.state = .closed ∧ options.failureThreshold.1 ≤ entry.failures.length then
    openCircuit options key method entry .failureThreshold message openedAtMs
  else (entry, none)

/-! ## The two halves of `execute` -/

/-- Up to the call of the operation; whether it was admitted half-open, or why not. -/
def beginExecute (entry : CircuitEntry) (nowMs : Int) : CircuitEntry × Except CircuitOpenError Bool :=
  match assertCanExecute options key method entry nowMs with
  | (entry, .error refused) => (entry, .error refused)
  | (entry, .ok _) =>
    if entry.state = .halfOpen then
      ({ entry with halfOpenAttempts := entry.halfOpenAttempts + 1 }, .ok true)
    else (entry, .ok false)

/-- How an operation ended: a failure is a rejection, or a result `isFailureResult` rejects;
`ignored` is a rejection `shouldRecordFailure` declines. -/
inductive Outcome where
  | success
  | failure (message : String)
  | ignored
deriving DecidableEq, Repr

/-- From the end of the operation on; the last step is the `finally` block. -/
def settle (entry : CircuitEntry) (wasHalfOpen : Bool) (outcome : Outcome)
    (recordedAtMs openedAtMs : Int) : CircuitEntry × Option CircuitBreakerTransition :=
  let recorded := match outcome with
    | .success => recordSuccess options key method entry
    | .failure message => recordFailure options key method entry message recordedAtMs openedAtMs
    | .ignored => (entry, none)
  if wasHalfOpen then
    ({ recorded.1 with halfOpenAttempts := recorded.1.halfOpenAttempts - 1 }, recorded.2)
  else recorded

end Entry

end Psfn.Resilience
