import Mathlib.Algebra.Order.Ring.Rat
import Mathlib.Tactic.Linarith
import Psfn.Lib.Validate

/-!
# The social pot

`core/agent/fatigue/social-pot.ts` and `persistence/postgres/social-pot-store.ts`: a balance that
regenerates by whole ticks, applied lazily whenever the pot is read, drawn from or refunded to.
Every operation is one transaction under the advisory lock of its companion, so a run is a list of
operations on one row. Units are exact; times are whole milliseconds.
-/

namespace Psfn.Fatigue

open Psfn.Lib

/-! ## Configurations and inputs -/

/-- A configuration `assertSocialPotConfig` has accepted. -/
structure PotConfig where
  capUnits                 : Rat
  regenerationTickMs       : Nat
  regenerationUnitsPerTick : Rat
  cap_pos   : 0 < capUnits
  tick_pos  : 0 < regenerationTickMs
  units_pos : 0 < regenerationUnitsPerTick
  units_le  : regenerationUnitsPerTick ≤ capUnits

/-- `Number.MAX_SAFE_INTEGER`. -/
def maxSafeInteger : Rat := 9007199254740991

/-- `Number.isSafeInteger`, of a number that is finite and not negative. -/
def isSafeInteger (q : Rat) : Bool := q.den = 1 && q ≤ maxSafeInteger

def requireTimestamp (value : JsNumber) (field : String) : Except String Nat :=
  match value with
  | .finite q =>
    if 0 ≤ q && isSafeInteger q then .ok q.num.toNat
    else .error s!"{field} must be a non-negative safe integer timestamp"
  | _ => .error s!"{field} must be a non-negative safe integer timestamp"

/-- An operation whose input has been checked. -/
inductive PotOp where
  | readPot (nowMs : Nat) (config : PotConfig)
  | draw (nowMs : Nat) (config : PotConfig) (amount : {q : Rat // 0 < q})
      (maxDrawFraction : Option {q : Rat // 0 < q ∧ q ≤ 1})
  | refund (nowMs : Nat) (config : PotConfig) (amount : {q : Rat // 0 < q})

/-! ## Regeneration -/

structure SocialPotRegenerationResult where
  balance       : Rat
  lastRegenAtMs : Nat

/-- The whole ticks since the last one. -/
def elapsedTicks (lastRegenAtMs nowMs tickMs : Nat) : Nat :=
  if lastRegenAtMs < nowMs then (nowMs - lastRegenAtMs) / tickMs else 0

def regenerateSocialPot (balance : Rat) (lastRegenAtMs nowMs : Nat) (config : PotConfig) :
    SocialPotRegenerationResult :=
  let ticks := elapsedTicks lastRegenAtMs nowMs config.regenerationTickMs
  { balance := min config.capUnits (balance + ticks * config.regenerationUnitsPerTick)
    lastRegenAtMs := lastRegenAtMs + ticks * config.regenerationTickMs }

theorem regenerate_nonneg {balance : Rat} (h : 0 ≤ balance) (lastRegenAtMs nowMs : Nat)
    (config : PotConfig) : 0 ≤ (regenerateSocialPot balance lastRegenAtMs nowMs config).balance := by
  have hcredit : 0 ≤ (elapsedTicks lastRegenAtMs nowMs config.regenerationTickMs : Rat) *
      config.regenerationUnitsPerTick := mul_nonneg (Nat.cast_nonneg _) config.units_pos.le
  exact le_min config.cap_pos.le (add_nonneg h hcredit)

/-! ## The store -/

/-- The row of a companion, with the table's check on the balance. -/
structure SocialPotRow where
  balance       : Rat
  lastRegenAtMs : Nat
  revision      : Nat
  nonneg        : 0 ≤ balance
deriving DecidableEq

structure SocialPotSnapshot where
  balance       : Rat
  cap           : Rat
  lastRegenAtMs : Nat
  revision      : Nat
deriving DecidableEq

inductive SocialPotDrawOutcome where
  | drawn
  | insufficient
  | capped
deriving DecidableEq

structure SocialPotDrawResult where
  outcome : SocialPotDrawOutcome
  drawn   : Rat
  before  : SocialPotSnapshot
  after   : SocialPotSnapshot
deriving DecidableEq

inductive PotResult where
  | snapshot (snapshot : SocialPotSnapshot)
  | draw (result : SocialPotDrawResult)
deriving DecidableEq

def loadOrInitialize (row : Option SocialPotRow) (nowMs : Nat) (config : PotConfig) :
    SocialPotRow :=
  row.getD { balance := config.capUnits, lastRegenAtMs := nowMs, revision := 1
             nonneg := config.cap_pos.le }

def persistIfChanged (current : SocialPotRow) (nextBalance : Rat) (nextLastRegenAtMs : Nat)
    (h : 0 ≤ nextBalance) : SocialPotRow :=
  if nextBalance = current.balance ∧ nextLastRegenAtMs = current.lastRegenAtMs then current
  else { balance := nextBalance, lastRegenAtMs := nextLastRegenAtMs
         revision := current.revision + 1, nonneg := h }

def toSnapshot (row : SocialPotRow) (cap : Rat) : SocialPotSnapshot where
  balance := row.balance
  cap := cap
  lastRegenAtMs := row.lastRegenAtMs
  revision := row.revision

/-- The row as `regenerateSocialPot` leaves it. -/
def regenerateRow (current : SocialPotRow) (nowMs : Nat) (config : PotConfig) :
    SocialPotRegenerationResult :=
  regenerateSocialPot current.balance current.lastRegenAtMs nowMs config

theorem regenerateRow_nonneg (current : SocialPotRow) (nowMs : Nat) (config : PotConfig) :
    0 ≤ (regenerateRow current nowMs config).balance :=
  regenerate_nonneg current.nonneg _ _ _

def readPot (row : Option SocialPotRow) (nowMs : Nat) (config : PotConfig) :
    SocialPotRow × SocialPotSnapshot :=
  let current := loadOrInitialize row nowMs config
  let regenerated := regenerateRow current nowMs config
  let persisted := persistIfChanged current regenerated.balance regenerated.lastRegenAtMs
    (regenerateRow_nonneg _ _ _)
  (persisted, toSnapshot persisted config.capUnits)

/-- `maxDrawFraction !== undefined && amount > maxDrawFraction * balance`. -/
def isCapped (maxDrawFraction : Option {q : Rat // 0 < q ∧ q ≤ 1}) (amount balance : Rat) : Bool :=
  maxDrawFraction.any fun fraction => fraction.1 * balance < amount

/-- The balance a draw leaves. -/
def drawBalance (sufficient : Bool) (balance amount : Rat) : Rat :=
  if sufficient then balance - amount else balance

theorem drawBalance_nonneg {balance amount : Rat} {sufficient : Bool} (h : 0 ≤ balance)
    (hsufficient : sufficient = true → amount ≤ balance) :
    0 ≤ drawBalance sufficient balance amount := by
  unfold drawBalance
  split
  · have hle := hsufficient ‹_›
    linarith
  · exact h

def isSufficient (maxDrawFraction : Option {q : Rat // 0 < q ∧ q ≤ 1}) (amount balance : Rat) :
    Bool :=
  !isCapped maxDrawFraction amount balance && amount ≤ balance

theorem le_of_isSufficient {maxDrawFraction : Option {q : Rat // 0 < q ∧ q ≤ 1}}
    {amount balance : Rat} (h : isSufficient maxDrawFraction amount balance = true) :
    amount ≤ balance :=
  of_decide_eq_true (Bool.and_eq_true_iff.1 h).2

def draw (row : Option SocialPotRow) (nowMs : Nat) (config : PotConfig) (amount : {q : Rat // 0 < q})
    (maxDrawFraction : Option {q : Rat // 0 < q ∧ q ≤ 1}) : SocialPotRow × SocialPotDrawResult :=
  let current := loadOrInitialize row nowMs config
  let regenerated := regenerateRow current nowMs config
  let capped := isCapped maxDrawFraction amount.1 regenerated.balance
  let sufficient := isSufficient maxDrawFraction amount.1 regenerated.balance
  let persisted := persistIfChanged current (drawBalance sufficient regenerated.balance amount.1)
    regenerated.lastRegenAtMs
    (drawBalance_nonneg (regenerateRow_nonneg _ _ _) le_of_isSufficient)
  (persisted,
    { outcome := if sufficient then .drawn else if capped then .capped else .insufficient
      drawn := if sufficient then amount.1 else 0
      before :=
        { balance := regenerated.balance, cap := config.capUnits
          lastRegenAtMs := regenerated.lastRegenAtMs, revision := current.revision }
      after := toSnapshot persisted config.capUnits })

theorem refund_nonneg {balance : Rat} (h : 0 ≤ balance) (config : PotConfig)
    (amount : {q : Rat // 0 < q}) : 0 ≤ min (balance + amount.1) config.capUnits :=
  le_min (add_nonneg h amount.2.le) config.cap_pos.le

def refund (row : Option SocialPotRow) (nowMs : Nat) (config : PotConfig)
    (amount : {q : Rat // 0 < q}) : SocialPotRow × SocialPotSnapshot :=
  let current := loadOrInitialize row nowMs config
  let regenerated := regenerateRow current nowMs config
  let persisted := persistIfChanged current
    (min (regenerated.balance + amount.1) config.capUnits) regenerated.lastRegenAtMs
    (refund_nonneg (regenerateRow_nonneg _ _ _) config amount)
  (persisted, toSnapshot persisted config.capUnits)

namespace PotOp

def nowMs : PotOp → Nat
  | readPot nowMs _ => nowMs
  | draw nowMs _ _ _ => nowMs
  | refund nowMs _ _ => nowMs

def config : PotOp → PotConfig
  | readPot _ config => config
  | draw _ config _ _ => config
  | refund _ config _ => config

/-- One transaction: the row after it, and what it returns. -/
def run (row : Option SocialPotRow) : PotOp → SocialPotRow × PotResult
  | readPot nowMs config =>
    let r := Fatigue.readPot row nowMs config
    (r.1, .snapshot r.2)
  | draw nowMs config amount maxDrawFraction =>
    let r := Fatigue.draw row nowMs config amount maxDrawFraction
    (r.1, .draw r.2)
  | refund nowMs config amount =>
    let r := Fatigue.refund row nowMs config amount
    (r.1, .snapshot r.2)

end PotOp

/-- The pot after a list of operations. -/
def potAfter (row : Option SocialPotRow) (ops : List PotOp) : Option SocialPotRow :=
  ops.foldl (fun row op => some (op.run row).1) row

end Psfn.Fatigue
