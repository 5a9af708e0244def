import Mathlib.Algebra.Order.Ring.Rat
import Psfn.Lib.Validate

/-!
# Run charges — the rolling window

The rolling 24-hour window of `shared/telemetry/run-charge.ts`, kept in memory and filled from
the ledger at start, and the window `readRunChargeRollingWindowFromLedger` of
`charge-ledger.ts` computes from the rows themselves. Amounts and times are exact.

A lane is whatever key an event names; rows of the ledger are parsed JSON with the number of
their line.
-/

namespace Psfn.Charge

open Psfn.Lib

variable {κ : Type} [DecidableEq κ]

/-! ## The window in memory -/

structure RunChargeEvent (κ : Type) where
  eventId     : String
  timestampMs : Rat
  lane        : κ
  surface     : String
  amount      : Rat
deriving DecidableEq

/-- An entry of the window: its id is trimmed. -/
structure RollingChargeWindowEntry (κ : Type) where
  eventId     : String
  timestampMs : Rat
  lane        : κ
  surface     : String
  amount      : Rat
deriving DecidableEq

/-- `RUN_CHARGE_ROLLING_WINDOW_MS`. -/
def runChargeRollingWindowMs : Rat := 24 * 60 * 60000

def pruneRollingChargeWindow (nowMs : Rat) (entries : List (RollingChargeWindowEntry κ)) :
    List (RollingChargeWindowEntry κ) :=
  entries.filter fun entry => nowMs - runChargeRollingWindowMs ≤ entry.timestampMs

def RunChargeEvent.entry (event : RunChargeEvent κ) : RollingChargeWindowEntry κ where
  eventId := JsString.trim event.eventId
  timestampMs := event.timestampMs
  lane := event.lane
  surface := event.surface
  amount := event.amount

def recordRollingChargeEvent (entries : List (RollingChargeWindowEntry κ))
    (event : RunChargeEvent κ) : Except String (List (RollingChargeWindowEntry κ)) :=
  if event.amount ≤ 0 then .ok entries
  else if JsString.trim event.eventId = "" then
    .error "RunChargeEvent.eventId is required for rolling charge accounting"
  else
    let pruned := pruneRollingChargeWindow event.timestampMs entries
    if pruned.any fun entry => entry.eventId = JsString.trim event.eventId then .ok pruned
    else .ok (pruned ++ [event.entry])

/-- The body of the loop of `hydrateRunChargeRollingWindowFromEvents`. -/
def hydrateEvent (nowMs : Rat) (entries : List (RollingChargeWindowEntry κ))
    (event : RunChargeEvent κ) : Except String (List (RollingChargeWindowEntry κ)) :=
  if event.amount ≤ 0 || nowMs < event.timestampMs then .ok entries
  else recordRollingChargeEvent entries event

def hydrateRunChargeRollingWindowFromEvents (entries : List (RollingChargeWindowEntry κ))
    (events : List (RunChargeEvent κ)) (nowMs : Rat) :
    Except String (List (RollingChargeWindowEntry κ)) := do
  let hydrated ← events.foldlM (hydrateEvent nowMs) (pruneRollingChargeWindow nowMs entries)
  return pruneRollingChargeWindow nowMs hydrated

structure RunChargeRollingWindowSnapshot (κ : Type) where
  windowMs    : Rat
  spentByLane : JsMap κ Rat
  entryCount  : Nat

def addSpentByLane (target : JsMap κ Rat) (lane : κ) (amount : Rat) : JsMap κ Rat :=
  if amount ≤ 0 then target else target.set lane ((target.get lane).getD 0 + amount)

/-- One round of the loop of `getRunChargeRollingWindowSnapshot`. -/
def snapshotEntry (nowMs : Rat) (snapshot : RunChargeRollingWindowSnapshot κ)
    (entry : RollingChargeWindowEntry κ) : RunChargeRollingWindowSnapshot κ :=
  if nowMs < entry.timestampMs then snapshot
  else { snapshot with
    entryCount := snapshot.entryCount + 1
    spentByLane := addSpentByLane snapshot.spentByLane entry.lane entry.amount }

def emptySnapshot : RunChargeRollingWindowSnapshot κ where
  windowMs := runChargeRollingWindowMs
  spentByLane := .empty
  entryCount := 0

def getRunChargeRollingWindowSnapshot (entries : List (RollingChargeWindowEntry κ)) (nowMs : Rat) :
    RunChargeRollingWindowSnapshot κ :=
  (pruneRollingChargeWindow nowMs entries).foldl (snapshotEntry nowMs) emptySnapshot

/-! ## Rows of the ledger -/

structure RunChargeLedgerEntry (κ : Type) where
  eventId : String
  event   : RunChargeEvent κ

def normalizePositiveFiniteNumber : JsValue → Option Rat
  | .number (.finite q) => if 0 ≤ q then some q else none
  | _ => none

def normalizeOptionalString : JsValue → Option String
  | .string s => if JsString.trim s = "" then none else some (JsString.trim s)
  | _ => none

/-- A line of the file: its number, and its value or the error of `JSON.parse`. -/
structure LedgerLine where
  line   : Nat
  parsed : Except String JsValue

def invalidEntry (line : Nat) (what : String) : String :=
  s!"Invalid charge ledger entry at line {line}: {what}"

def isSchema (value : JsValue) : Bool :=
  (match value.property "schemaVersion" with
    | .number n => n.strictEq (.finite 1)
    | _ => false) &&
  (match value.property "recordType" with
    | .string s => s = "charge_event"
    | _ => false)

/-- `nestedEventId && nestedEventId !== eventId`. -/
def identitiesDiffer (eventId nested : Option String) : Bool :=
  nested.isSome && nested ≠ eventId

def assertLedgerEntry (value : JsValue) (line : Nat) : Except String Unit := do
  throwIf (!value.isRecord) (invalidEntry line "expected object")
  throwIf (!isSchema value) (invalidEntry line "unsupported schema")
  let eventId := normalizeOptionalString (value.property "eventId")
  throwIf eventId.isNone (invalidEntry line "missing eventId")
  throwIf (normalizePositiveFiniteNumber (value.property "recordedAtMs")).isNone
    (invalidEntry line "missing recordedAtMs")
  let event := value.property "event"
  throwIf (!event.isRecord) (invalidEntry line "missing event")
  throwIf (identitiesDiffer eventId (normalizeOptionalString (event.property "eventId")))
    (invalidEntry line "eventId does not match event.eventId")
  throwIf (normalizePositiveFiniteNumber (event.property "timestampMs")).isNone
    (invalidEntry line "missing event timestamp")
  throwIf (normalizePositiveFiniteNumber (event.property "amount")).isNone
    (invalidEntry line "missing event amount")
  let lineage := event.property "lineage"
  throwIf (!(lineage.isRecord && (normalizeOptionalString (lineage.property "runId")).isSome &&
      (normalizeOptionalString (lineage.property "rootRunId")).isSome))
    (invalidEntry line "missing lineage")

/-- A string property of a row that passed the checks. -/
def text : JsValue → String
  | .string s => s
  | _ => ""

/-- The row as `withEventIdentity` leaves it; `key` is the property key a value stands for. -/
def withEventIdentity (key : JsValue → κ) (value : JsValue) : RunChargeLedgerEntry κ :=
  let eventId := text (value.property "eventId")
  let event := value.property "event"
  let nested := event.property "eventId"
  { eventId
    event :=
      { eventId := if (normalizeOptionalString nested).isSome then text nested else eventId
        timestampMs := (normalizePositiveFiniteNumber (event.property "timestampMs")).getD 0
        lane := key (event.property "lane")
        surface := text (event.property "surface")
        amount := (normalizePositiveFiniteNumber (event.property "amount")).getD 0 } }

/-- The row of a line, as `visitLedgerRows` hands it on. -/
def readLedgerRow (key : JsValue → κ) (path : String) (line : LedgerLine) :
    Except String (RunChargeLedgerEntry κ) :=
  match line.parsed with
  | .error e => .error s!"Invalid charge ledger JSON at line {line.line} of {path}: {e}"
  | .ok value => do
    assertLedgerEntry value line.line
    return withEventIdentity key value

/-- `CALENDAR_ACCRUAL_DAYS * DAY_MS`. -/
def residentHorizonMs : Rat := 31 * (24 * 60 * 60000)

/-- `hydration.entries` after the lines were read: the rows of the resident horizon, in file
order. -/
def hydrationVisitor (key : JsValue → κ) (path : String) (nowMs : Rat)
    (entries : List (RunChargeLedgerEntry κ)) (line : LedgerLine) :
    Except String (List (RunChargeLedgerEntry κ)) := do
  let entry ← readLedgerRow key path line
  return if nowMs - residentHorizonMs ≤ entry.event.timestampMs then entries ++ [entry]
    else entries

def readLedgerHydration (key : JsValue → κ) (path : String) (nowMs : Rat)
    (lines : List LedgerLine) : Except String (List (RunChargeLedgerEntry κ)) :=
  lines.foldlM (hydrationVisitor key path nowMs) []

/-- The window a process starts with: an empty one, hydrated from the ledger. -/
def hydratedWindow (key : JsValue → κ) (path : String) (nowMs : Rat) (lines : List LedgerLine) :
    Except String (RunChargeRollingWindowSnapshot κ) := do
  let entries ← readLedgerHydration key path nowMs lines
  let window ← hydrateRunChargeRollingWindowFromEvents [] (entries.map (·.event)) nowMs
  return getRunChargeRollingWindowSnapshot window nowMs

/-! ## The window from the file -/

def addRecordAmount (target : JsMap κ Rat) (lane : κ) (amount : Rat) : JsMap κ Rat :=
  target.set lane ((target.get lane).getD 0 + amount)

/-- What `readRunChargeRollingWindowFromLedger` carries from row to row. -/
structure LedgerScan (κ : Type) where
  seenEventIds : List String
  spentByLane  : JsMap κ Rat
  entryCount   : Nat

def ledgerIdentity (entry : RunChargeLedgerEntry κ) : String :=
  if JsString.trim entry.event.eventId = "" then entry.eventId
  else JsString.trim entry.event.eventId

def outsideWindow (nowMs : Rat) (event : RunChargeEvent κ) : Bool :=
  event.timestampMs < nowMs - runChargeRollingWindowMs || nowMs < event.timestampMs ||
    event.amount ≤ 0

/-- The callback of the scan, for a row that was read. -/
def scanEntry (nowMs : Rat) (scan : LedgerScan κ) (entry : RunChargeLedgerEntry κ) :
    LedgerScan κ :=
  if outsideWindow nowMs entry.event then scan
  else if ledgerIdentity entry ∈ scan.seenEventIds then scan
  else
    { seenEventIds := scan.seenEventIds ++ [ledgerIdentity entry]
      spentByLane := addRecordAmount scan.spentByLane entry.event.lane entry.event.amount
      entryCount := scan.entryCount + 1 }

def scanLine (key : JsValue → κ) (path : String) (nowMs : Rat) (scan : LedgerScan κ)
    (line : LedgerLine) : Except String (LedgerScan κ) := do
  let entry ← readLedgerRow key path line
  return scanEntry nowMs scan entry

def readRunChargeRollingWindowFromLedger (key : JsValue → κ) (path : String) (nowMs : Rat)
    (lines : List LedgerLine) : Except String (RunChargeRollingWindowSnapshot κ) := do
  let scan ← lines.foldlM (scanLine key path nowMs)
    { seenEventIds := [], spentByLane := .empty, entryCount := 0 }
  return { windowMs := runChargeRollingWindowMs, spentByLane := scan.spentByLane
           entryCount := scan.entryCount }

end Psfn.Charge
