import Psfn.Lib.JsString
import Psfn.Lib.JsValue
import Psfn.Lib.Table

/-!
# Background work — the tables

The rows of `persistence/postgres/background-work-store.ts` and the constraints its
migrations put on them. A text column holds what `requireText` gives back and a time
column a non-negative safe integer; both carry the proof. `lease_expires_at_ms` is a sum
made by the database, so it is any number.

`mapRow` is the way back from a stored row: it throws when a running row has no lease,
when another row has one, and on a number that is not safe.
-/

namespace Psfn.Background

open Psfn.Lib

/-! ## Columns -/

/-- `Number.MAX_SAFE_INTEGER`. -/
def maxSafeInteger : Nat := 9007199254740991

/-- The largest value of an `INTEGER` column. -/
def maxInt4 : Nat := 2147483647

/-- `MAX_TEXT_LENGTH`. -/
def maxTextLength : Nat := 2048

/-- A text that `requireText` gives back as it is. -/
structure Text where
  value   : String
  trimmed : JsString.trim value = value
  nonEmpty : value ≠ ""
  bounded : JsString.utf16Length value ≤ maxTextLength

instance : DecidableEq Text := fun a b =>
  decidable_of_iff (a.value = b.value) (by cases a; cases b; simp)

/-- A non-negative safe integer, as `requireBackgroundWorkSafeInteger` returns it. -/
structure SafeInteger where
  value : Nat
  safe  : value ≤ maxSafeInteger
deriving DecidableEq

def SafeInteger.zero : SafeInteger := ⟨0, by decide⟩

inductive BackgroundWorkKind where
  | memoryExtraction | intentionPostTurnHooks | emotionAppraisal | autoCompaction
deriving DecidableEq, Repr

/-- `FOREGROUND_EXCLUSIVE_KIND`. -/
def foregroundExclusiveKind : BackgroundWorkKind := .autoCompaction

inductive BackgroundWorkState where
  | queued | deferred | retryWait | running | succeeded | failed | staleDiscarded
deriving DecidableEq, Repr

/-- `state IN ('queued', 'deferred', 'retry_wait')`. -/
def BackgroundWorkState.runnable : BackgroundWorkState → Bool
  | .queued | .deferred | .retryWait => true
  | _ => false

/-- `state IN ('succeeded', 'failed', 'stale_discarded')`. -/
def BackgroundWorkState.terminal : BackgroundWorkState → Bool
  | .succeeded | .failed | .staleDiscarded => true
  | _ => false

inductive BackgroundWorkReasonCode where
  | enqueued | deduplicated | foregroundActive | started | completed | handlerFailed
  | retryScheduled | retryExhausted | leaseExpired | shutdown | sourceNotReady | sourceMissing
  | sourceMismatch | superseded | malformedPayload | unknownKind | effectOutcomeUnknown
deriving DecidableEq, Repr

/-- `deferred_from_state`. -/
inductive DeferredFromState where
  | queued | retryWait
deriving DecidableEq, Repr

/-- `BACKGROUND_WORK_LEASE_EXPIRY_LIMIT`. -/
def leaseExpiryLimit : Nat := 3

/-! ## Rows -/

structure BackgroundWorkRow where
  jobId                     : Text
  idempotencyKey            : Text
  logicalSessionId          : Text
  kind                      : BackgroundWorkKind
  payloadSchemaVersion      : Nat
  payload                   : JsValue
  payloadFingerprint        : Text
  sourceTurnId              : Text
  sourceRequestId           : Text
  sourceChannelId           : Text
  state                     : BackgroundWorkState
  reasonCode                : BackgroundWorkReasonCode
  attemptCount              : Nat
  maxAttempts               : Nat
  createdAtMs               : SafeInteger
  availableAtMs             : SafeInteger
  updatedAtMs               : SafeInteger
  leaseOwner                : Option Text
  leaseExpiresAtMs          : Option Nat
  completedAtMs             : Option SafeInteger
  revision                  : Nat
  deferredFromState         : Option DeferredFromState
  deferredFromAvailableAtMs : Option SafeInteger
  deferCount                : Nat
  firstDeferredAtMs         : Option SafeInteger
  welfareClaimed            : Bool
  leaseExpiryCount          : Nat

/-- A row of `agent_background_work_handoffs`. -/
structure HandoffRow where
  logicalSessionId    : Text
  sourceTurnId        : Text
  manifestFingerprint : String
deriving DecidableEq

inductive EffectReceiptState where
  | pending | started | applied
deriving DecidableEq, Repr

/-- A row of `agent_background_work_effect_receipts`. -/
structure EffectReceiptRow where
  jobId                    : Text
  effectKey                : Text
  state                    : EffectReceiptState
  leaseOwner               : Text
  leaseRevision            : Nat
  projectsSubsystemOutputs : Bool
deriving DecidableEq

/-- A row of `agent_background_work_foreground_leases`. -/
structure ForegroundLeaseRow where
  leaseId          : Text
  logicalSessionId : Text
  leaseOwner       : Text
  expiresAtMs      : Nat
deriving DecidableEq

inductive SubsystemOutputStatus where
  | applied | failed | outcomeUnknown
deriving DecidableEq, Repr

/-- A row of `agent_turn_subsystem_output_status`. -/
structure OutputStatusRow where
  logicalSessionId : Text
  sourceChannelId  : Text
  sourceTurnId     : Text
  sourceRequestId  : Text
  status           : SubsystemOutputStatus
deriving DecidableEq

/-! ## The database -/

structure Database where
  jobs             : List BackgroundWorkRow := []
  handoffs         : List HandoffRow := []
  receipts         : List EffectReceiptRow := []
  foregroundLeases : List ForegroundLeaseRow := []
  outputStatus     : List OutputStatusRow := []

/-- The `CHECK` constraints of the job table that a typed row can break. -/
def BackgroundWorkRow.checks (row : BackgroundWorkRow) : Bool :=
  row.payloadSchemaVersion == 1 && row.attemptCount ≤ row.maxAttempts && 0 < row.maxAttempts
    && row.maxAttempts ≤ maxInt4 && 0 < row.revision && row.revision ≤ maxInt4
    && row.deferCount ≤ maxInt4 && row.leaseExpiryCount ≤ maxInt4
    && (row.state = .deferred ||
      (row.deferredFromState.isNone && row.deferredFromAvailableAtMs.isNone))
    && (if row.state = .running then row.leaseOwner.isSome && row.leaseExpiresAtMs.isSome
        else row.leaseOwner.isNone && row.leaseExpiresAtMs.isNone)
    && row.state.terminal == row.completedAtMs.isSome
    && (row.state = .running || !row.welfareClaimed)

def BackgroundWorkRow.running (row : BackgroundWorkRow) : Bool := row.state = .running

/-- The constraints of all tables: `CHECK`s, keys, the unique index over running rows and
the reference from a receipt to its job. -/
def Database.constraints (db : Database) : Bool :=
  db.jobs.all BackgroundWorkRow.checks
    && decide (db.jobs.map (·.jobId)).Nodup
    && decide (db.jobs.map (·.idempotencyKey)).Nodup
    && decide ((db.jobs.filter (·.running)).map (·.logicalSessionId)).Nodup
    && decide (db.handoffs.map fun h => (h.logicalSessionId, h.sourceTurnId)).Nodup
    && decide (db.receipts.map fun r => (r.jobId, r.effectKey)).Nodup
    && db.receipts.all (fun r => db.jobs.any fun job => job.jobId = r.jobId)

/-! ## Reading a row back -/

/-- `requireBackgroundWorkSafeInteger` on a column. -/
def safeInteger (n : Nat) (field : String) : Except String Nat :=
  if n ≤ maxSafeInteger then .ok n
  else .error s!"Background work {field} must be a non-negative safe integer"

theorem discard_eq_ok {α : Type} {x : Except String α} {u : Unit} :
    discard x = .ok u ↔ ∃ a, x = .ok a := by
  cases x with
  | error message => simp [discard, Functor.discard, Functor.mapConst, Except.map]
  | ok a => simp [discard, Functor.discard, Functor.mapConst, Except.map]

theorem safeInteger_eq_ok {n m : Nat} {field : String} :
    safeInteger n field = .ok m ↔ n ≤ maxSafeInteger ∧ m = n := by
  unfold safeInteger
  split
  · rename_i hsafe
    simp [hsafe, eq_comm]
  · rename_i hnotSafe
    simp [hnotSafe]

def positiveInteger (n : Nat) (field : String) : Except String Nat := do
  let parsed ← safeInteger n field
  throwIf (parsed < 1) s!"Background work {field} must be positive"
  .ok parsed

/-- A column that may be null. -/
def nullableSafeInteger (n : Option Nat) (field : String) : Except String Unit :=
  n.elim (.ok ()) fun value => discard (safeInteger value field)

/-- `mapRow`: the row, or what is wrong with it. -/
def mapRow (row : BackgroundWorkRow) : Except String BackgroundWorkRow := do
  nullableSafeInteger row.leaseExpiresAtMs "leaseExpiresAtMs"
  throwIf (row.running && (row.leaseOwner.isNone || row.leaseExpiresAtMs.isNone))
    s!"Running background job {row.jobId.value} is missing its lease"
  throwIf (!row.running && (row.leaseOwner.isSome || row.leaseExpiresAtMs.isSome))
    s!"Non-running background job {row.jobId.value} carries a lease"
  discard (positiveInteger row.payloadSchemaVersion "payloadSchemaVersion")
  discard (safeInteger row.attemptCount "attemptCount")
  discard (positiveInteger row.maxAttempts "maxAttempts")
  discard (positiveInteger row.revision "revision")
  discard (safeInteger row.deferCount "deferCount")
  discard (safeInteger row.leaseExpiryCount "leaseExpiryCount")
  .ok row

/-- `mapClaimedRow`. -/
def mapClaimedRow (row : BackgroundWorkRow) : Except String BackgroundWorkRow := do
  let mapped ← mapRow row
  throwIf (!mapped.running) s!"Claimed background job {mapped.jobId.value} is not running"
  .ok mapped

end Psfn.Background
