import Psfn.Lib.JsString
import Psfn.Lib.JsValue
import Psfn.Lib.Table
import Psfn.Lib.Uuid
import Psfn.TaskScheduler.WallClock

/-!
# The fleet-maintenance baton

`persistence/postgres/fleet-maintenance-store.ts` under the coordinators of
`core/scheduler/fleet-maintenance-coordinator.ts`. There is one scope, so one baton row, which the
migration inserts. Each operation is a transaction that locks the row, or one statement.

The mark that a coordinator keeps in memory of a foreground turn decides whether it asks the store
for a preemption and what it tells its runner; here a preemption may be asked for at any time. The
fingerprint of a manifest is SHA-256 of its lines, a parameter.
-/

namespace Psfn.FleetMaintenance

open Lib (Uuid throwIf)
open Lib.JsString (utf16Length)
open TaskScheduler (isSafeInteger requireTimestamp)

/-! ## Rows -/

structure BatonRow where
  manifestFingerprint : Option String
  fleetSize           : Nat
  holderCompanionId   : Option Uuid
  holderInstanceId    : Option Uuid
  fencingToken        : Int
  acquiredAtMs        : Option Int
  leaseExpiresAtMs    : Option Int
  phase               : Option String
  preemptRequested    : Bool
  lastServedOrdinal   : Int
  revision            : Int

structure DemandRow where
  companionId         : Uuid
  manifestFingerprint : String
  manifestOrdinal     : Nat
  fleetSize           : Nat
  requestedAtMs       : Int
  readyUntilMs        : Int

structure CheckpointRow where
  companionId   : Uuid
  phase         : String
  checkpointRef : Option String
  fencingToken  : Int
  updatedAtMs   : Int

structure Database where
  baton       : BatonRow
  demands     : List DemandRow
  checkpoints : List CheckpointRow

def isFingerprint (text : String) : Bool :=
  text.toList.length = 64 && text.toList.all Lib.isLowerHexDigit

/-- `char_length(text) BETWEEN 1 AND max`. -/
def charLengthWithin (max : Nat) (text : String) : Bool :=
  1 ≤ text.toList.length && text.toList.length ≤ max

def BatonRow.checks (row : BatonRow) : Bool :=
  0 ≤ row.fencingToken && -1 ≤ row.lastServedOrdinal && 1 ≤ row.revision
    && (row.fleetSize = 0) == row.manifestFingerprint.isNone
    && row.manifestFingerprint.all isFingerprint
    && (row.lastServedOrdinal < row.fleetSize || row.fleetSize = 0)
    && row.holderCompanionId.isNone == row.acquiredAtMs.isNone
    && row.holderCompanionId.isNone == row.holderInstanceId.isNone
    && row.holderCompanionId.isNone == row.leaseExpiresAtMs.isNone
    && row.holderCompanionId.isNone == row.phase.isNone
    && (row.holderCompanionId.isSome || !row.preemptRequested)
    && row.phase.all (charLengthWithin 128)
    && row.leaseExpiresAtMs.all fun expires => row.acquiredAtMs.all fun acquired => acquired < expires

def DemandRow.checks (row : DemandRow) : Bool :=
  isFingerprint row.manifestFingerprint && 0 < row.fleetSize && 0 ≤ row.requestedAtMs
    && row.requestedAtMs < row.readyUntilMs && row.manifestOrdinal < row.fleetSize

def CheckpointRow.checks (row : CheckpointRow) : Bool :=
  charLengthWithin 128 row.phase && row.checkpointRef.all (charLengthWithin 512)
    && 0 < row.fencingToken && 0 ≤ row.updatedAtMs

/-- The checks of the rows, and the unique keys. -/
def Database.constraints (db : Database) : Bool :=
  db.baton.checks && db.demands.all (·.checks) && db.checkpoints.all (·.checks)
    && decide (db.demands.map (·.companionId)).Nodup
    && decide (db.demands.map fun d => (d.manifestFingerprint, d.manifestOrdinal)).Nodup
    && decide (db.checkpoints.map (·.companionId)).Nodup

/-- The database after its migration. -/
def Database.migrated : Database where
  baton := ⟨none, 0, none, none, 0, none, none, none, false, -1, 1⟩
  demands := []
  checkpoints := []

def withPostgresClient {α : Type} (body : Database → Except String (Database × α))
    (db : Database) : Database × Except String α :=
  Lib.Table.transaction Database.constraints body db

/-! ## Reading -/

structure FleetMaintenanceLease where
  companionId      : Uuid
  fencingToken     : Int
  acquiredAtMs     : Int
  expiresAtMs      : Int
  phase            : String
  checkpointRef    : Option String
  preemptRequested : Bool

/-- What a coordinator says of itself. -/
structure StoreBinding where
  companionId         : Uuid
  holderInstanceId    : Uuid
  manifestOrdinal     : Nat
  fleetSize           : Nat
  manifestFingerprint : String

def requireSafeInteger (value : Int) (field : String) : Except String Int := do
  throwIf (!isSafeInteger value) s!"{field} must be a safe integer"
  return value

def nullableSafeInteger (value : Option Int) (field : String) : Except String (Option Int) :=
  match value with
  | none => .ok none
  | some value => do
    let safe ← requireSafeInteger value field
    return some safe

def toLease (row : BatonRow) (checkpointRef : Option String) :
    Except String FleetMaintenanceLease :=
  match row.holderCompanionId, row.phase with
  | some companionId, some phase => do
    throwIf row.holderInstanceId.isNone
      "fleet maintenance baton holder is missing its process-instance fence"
    let acquiredAt ← nullableSafeInteger row.acquiredAtMs "fleetMaintenance.acquiredAtMs"
    let expiresAt ← nullableSafeInteger row.leaseExpiresAtMs "fleetMaintenance.expiresAtMs"
    match acquiredAt, expiresAt with
    | some acquiredAtMs, some expiresAtMs => do
      let fencingToken ← requireSafeInteger row.fencingToken "fleetMaintenance.fencingToken"
      return ⟨companionId, fencingToken, acquiredAtMs, expiresAtMs, phase, checkpointRef,
        row.preemptRequested⟩
    | _, _ => .error "fleet maintenance baton holder is missing its lease timestamps"
  | _, _ => .error "fleet maintenance baton row has no holder"

def readCheckpointRow (db : Database) (input : StoreBinding) : Option CheckpointRow :=
  db.checkpoints.find? fun row => row.companionId = input.companionId

/-- The holder's columns set to `NULL`. -/
def BatonRow.cleared (row : BatonRow) : BatonRow :=
  { row with
    holderCompanionId := none
    holderInstanceId := none
    acquiredAtMs := none
    leaseExpiresAtMs := none
    phase := none
    preemptRequested := false
    revision := row.revision + 1 }

def FENCE_LOST : String := "fleet maintenance fencing authority was lost"

/-- `OWNED_LEASE_FENCE_PREDICATE`. -/
def BatonRow.ownedBy (row : BatonRow) (input : StoreBinding) (fencingToken : Int) : Bool :=
  row.holderCompanionId = some input.companionId
    && row.holderInstanceId = some input.holderInstanceId && row.fencingToken = fencingToken

/-- The expiry of the live lease that the caller owns. -/
def lockOwnedLiveLease (input : StoreBinding) (fencingToken nowMs : Int) (db : Database) :
    Except String Int :=
  if db.baton.ownedBy input fencingToken then do
    let expiry ← nullableSafeInteger db.baton.leaseExpiresAtMs "fleetMaintenance.expiresAtMs"
    match expiry with
    | none => .error FENCE_LOST
    | some expiry => if expiry ≤ nowMs then .error FENCE_LOST else .ok expiry
  else .error FENCE_LOST

def lockAndReconcileManifest (input : StoreBinding) (nowMs : Int) (db : Database) :
    Except String Database :=
  if db.baton.manifestFingerprint = some input.manifestFingerprint then do
    throwIf (db.baton.fleetSize ≠ input.fleetSize)
      "fleet maintenance manifest fingerprint has inconsistent fleet size"
    return db
  else do
    let expiry ← nullableSafeInteger db.baton.leaseExpiresAtMs "fleetMaintenance.expiresAtMs"
    throwIf (db.baton.holderCompanionId.isSome && expiry.any fun expiry => expiry > nowMs)
      "fleet maintenance manifest changed while a live baton is held"
    return { db with
      demands := []
      baton := { db.baton.cleared with
        manifestFingerprint := some input.manifestFingerprint
        fleetSize := input.fleetSize
        lastServedOrdinal := -1 } }

/-! ## Operations of the store -/

/-- `INSERT … ON CONFLICT (scope, companion_id) DO UPDATE`. -/
def upsertDemand (input : StoreBinding) (nowMs demandExpiresAtMs : Int) (rows : List DemandRow) :
    List DemandRow :=
  let fresh : DemandRow :=
    ⟨input.companionId, input.manifestFingerprint, input.manifestOrdinal, input.fleetSize, nowMs,
      demandExpiresAtMs⟩
  if rows.any fun row => row.companionId = input.companionId then
    Lib.Table.update (fun row => row.companionId = input.companionId)
      (fun row => { fresh with
        requestedAtMs := if row.readyUntilMs ≤ nowMs then nowMs else row.requestedAtMs }) rows
  else rows ++ [fresh]

def announceDemand (input : StoreBinding) (nowMs demandExpiresAtMs : Int) :
    Database → Database × Except String Unit :=
  withPostgresClient fun db => do
    let db ← lockAndReconcileManifest input nowMs db
    return ({ db with demands := upsertDemand input nowMs demandExpiresAtMs db.demands }, ())

inductive WaitingReason where
  | held | manifestOrder | noDemand
deriving DecidableEq

inductive AcquireResult where
  | acquired (lease : FleetMaintenanceLease)
  | waiting (reason : WaitingReason) (holderCompanionId nextCompanionId : Option Uuid)
      (retryAtMs : Option Int)

/-- How far a demand comes after the ordinal that was served last. -/
def servingDistance (lastServedOrdinal : Int) (fleetSize : Nat) (row : DemandRow) : Int :=
  if lastServedOrdinal < row.manifestOrdinal then row.manifestOrdinal - lastServedOrdinal
  else row.manifestOrdinal + fleetSize - lastServedOrdinal

/-- `ORDER BY … ASC LIMIT 1`. -/
def nextDemand (input : StoreBinding) (nowMs : Int) (db : Database) : Option DemandRow :=
  let distance := servingDistance db.baton.lastServedOrdinal input.fleetSize
  let ready := db.demands.filter fun row =>
    row.manifestFingerprint = input.manifestFingerprint && nowMs < row.readyUntilMs
  ready.foldl (fun first row =>
    if first.all fun first => distance row < distance first then some row else first) none

/-- Grants the free baton. -/
def grant (input : StoreBinding) (nowMs leaseExpiresAtMs : Int) (phase : String) (db : Database) :
    Except String (Database × AcquireResult) := do
  let checkpoint := readCheckpointRow db input
  let baton := { db.baton with
    holderCompanionId := some input.companionId
    holderInstanceId := some input.holderInstanceId
    fencingToken := db.baton.fencingToken + 1
    acquiredAtMs := some nowMs
    leaseExpiresAtMs := some leaseExpiresAtMs
    phase := some ((checkpoint.map (·.phase)).getD phase)
    preemptRequested := false
    revision := db.baton.revision + 1 }
  let lease ← toLease baton (checkpoint.bind (·.checkpointRef))
  return ({ db with baton }, .acquired lease)

/-- What is done with the baton once a lease that has run out is cleared. -/
def acquireBaton (input : StoreBinding) (nowMs leaseExpiresAtMs : Int) (phase : String)
    (holderExpiry : Option Int) (db : Database) : Except String (Database × AcquireResult) :=
  match db.baton.holderCompanionId with
  | some holder =>
    if holder = input.companionId && db.baton.holderInstanceId = some input.holderInstanceId then do
      let lease ← toLease db.baton ((readCheckpointRow db input).bind (·.checkpointRef))
      return (db, .acquired lease)
    else .ok (db, .waiting .held (some holder) (some holder) holderExpiry)
  | none =>
    match nextDemand input nowMs db with
    | none => .ok (db, .waiting .noDemand none none none)
    | some candidate =>
      if candidate.companionId ≠ input.companionId then
        .ok (db, .waiting .manifestOrder none (some candidate.companionId) none)
      else grant input nowMs leaseExpiresAtMs phase db

/-- A lease that has run out is cleared. -/
def clearExpired (nowMs : Int) (holderExpiry : Option Int) (db : Database) : Database :=
  if db.baton.holderCompanionId.isSome && holderExpiry.any fun expiry => expiry ≤ nowMs then
    { db with baton := db.baton.cleared }
  else db

def tryAcquire (input : StoreBinding) (nowMs leaseExpiresAtMs : Int) (phase : String) :
    Database → Database × Except String AcquireResult :=
  withPostgresClient fun db => do
    let db ← lockAndReconcileManifest input nowMs db
    let holderExpiry ← nullableSafeInteger db.baton.leaseExpiresAtMs "fleetMaintenance.expiresAtMs"
    acquireBaton input nowMs leaseExpiresAtMs phase holderExpiry
      (clearExpired nowMs holderExpiry db)

def renew (input : StoreBinding) (fencingToken nowMs leaseExpiresAtMs : Int) :
    Database → Database × Except String FleetMaintenanceLease :=
  withPostgresClient fun db => do
    let currentExpiry ← lockOwnedLiveLease input fencingToken nowMs db
    throwIf (leaseExpiresAtMs ≤ currentExpiry)
      "fleet maintenance renewal must extend the current lease deadline"
    let baton := { db.baton with
      leaseExpiresAtMs := some leaseExpiresAtMs, revision := db.baton.revision + 1 }
    let lease ← toLease baton ((readCheckpointRow db input).bind (·.checkpointRef))
    return ({ db with baton }, lease)

inductive Disposition where
  | continue | yieldRequested
deriving DecidableEq

def upsertCheckpoint (row : CheckpointRow) (rows : List CheckpointRow) : List CheckpointRow :=
  if rows.any fun old => old.companionId = row.companionId then
    Lib.Table.update (fun old => old.companionId = row.companionId) (fun _ => row) rows
  else rows ++ [row]

def commitCheckpoint (input : StoreBinding) (fencingToken nowMs leaseExpiresAtMs : Int)
    (phase : String) (checkpointRef : Option String) :
    Database → Database × Except String (FleetMaintenanceLease × Disposition) :=
  withPostgresClient fun db => do
    let currentExpiry ← lockOwnedLiveLease input fencingToken nowMs db
    throwIf (leaseExpiresAtMs < currentExpiry)
      "fleet maintenance checkpoint cannot shorten the current lease deadline"
    let baton := { db.baton with
      phase := some phase
      leaseExpiresAtMs := some leaseExpiresAtMs
      revision := db.baton.revision + 1 }
    let lease ← toLease baton checkpointRef
    return ({ db with
        baton
        checkpoints := upsertCheckpoint
          ⟨input.companionId, phase, checkpointRef, fencingToken, nowMs⟩ db.checkpoints },
      (lease, if baton.preemptRequested then .yieldRequested else .continue))

inductive ReleaseOutcome where
  | complete | yield
deriving DecidableEq

def release (input : StoreBinding) (fencingToken nowMs : Int) (outcome : ReleaseOutcome) :
    Database → Database × Except String Unit :=
  withPostgresClient fun db => do
    let _ ← lockOwnedLiveLease input fencingToken nowMs db
    return ({
        baton := { db.baton.cleared with
          lastServedOrdinal :=
            if outcome = .complete then input.manifestOrdinal else db.baton.lastServedOrdinal }
        demands := Lib.Table.delete (fun row => row.companionId = input.companionId) db.demands
        checkpoints :=
          if outcome = .complete then
            Lib.Table.delete (fun row => row.companionId = input.companionId) db.checkpoints
          else db.checkpoints }, ())

/-- One statement; whether it changed the row. -/
def requestPreemption (nowMs : Int) (db : Database) : Database × Except String Bool :=
  withPostgresClient (fun db =>
    if db.baton.holderCompanionId.isSome && db.baton.leaseExpiresAtMs.any (fun e => nowMs < e)
        && !db.baton.preemptRequested then
      .ok ({ db with baton := { db.baton with
        preemptRequested := true, revision := db.baton.revision + 1 } }, true)
    else .ok (db, false)) db

def withdrawDemand (input : StoreBinding) (db : Database) : Database × Except String Unit :=
  ({ db with demands :=
      Lib.Table.delete (fun row => row.companionId = input.companionId) db.demands }, .ok ())

/-! ## Coordinators -/

/-- A coordinator: one process instance of a companion of the manifest. -/
structure Coordinator where
  companionId       : Uuid
  fleetCompanionIds : List Uuid
  holderInstanceId  : Uuid
  unique            : fleetCompanionIds.Nodup
  present           : companionId ∈ fleetCompanionIds

def Coordinator.binding (fingerprint : List Uuid → String) (c : Coordinator) : StoreBinding where
  companionId := c.companionId
  holderInstanceId := c.holderInstanceId
  manifestOrdinal := c.fleetCompanionIds.idxOf c.companionId
  fleetSize := c.fleetCompanionIds.length
  manifestFingerprint := fingerprint c.fleetCompanionIds

def requireFutureTimestamp (value nowMs : Int) (field : String) : Except String Int := do
  let timestamp ← requireTimestamp value field
  throwIf (timestamp ≤ nowMs) s!"{field} must be strictly greater than nowMs"
  return timestamp

def isBoundedString (max : Nat) (value : String) : Bool :=
  1 ≤ utf16Length value && utf16Length value ≤ max

def requirePhase (value : String) : Except String String := do
  throwIf (!isBoundedString 128 value)
    "fleetMaintenance.phase must be a non-empty string of at most 128 characters"
  return value

def requireCheckpointRef (value : Option String) : Except String (Option String) := do
  throwIf (value.any fun value => !isBoundedString 512 value)
    ("fleetMaintenance.checkpointRef must be null or a non-empty string of at most 512 "
      ++ "characters")
  return value

def requireFencingToken (value : Int) : Except String Int := do
  throwIf (!isSafeInteger value || value ≤ 0)
    "fleetMaintenance.fencingToken must be a positive safe integer"
  return value

def requireLocalLease (c : Coordinator) (lease : FleetMaintenanceLease) : Except String Int := do
  throwIf (lease.companionId ≠ c.companionId) "fleet maintenance lease belongs to another companion"
  requireFencingToken lease.fencingToken

/-- A call of a coordinator. -/
inductive Call where
  | announceDemand (nowMs demandExpiresAtMs : Int)
  | tryAcquire (nowMs leaseExpiresAtMs : Int) (phase : String)
  | renew (lease : FleetMaintenanceLease) (nowMs leaseExpiresAtMs : Int)
  | commitCheckpoint (lease : FleetMaintenanceLease) (nowMs leaseExpiresAtMs : Int)
      (phase : String) (checkpointRef : Option String)
  | release (lease : FleetMaintenanceLease) (nowMs : Int) (outcome : ReleaseOutcome)
  | requestPreemption (nowMs : Int)
  | withdrawDemand

inductive Answer where
  | done
  | acquire (result : AcquireResult)
  | renewed (lease : FleetMaintenanceLease)
  | checkpointed (lease : FleetMaintenanceLease) (disposition : Disposition)
  | preempted (updated : Bool)

def requireWindow (nowMs deadlineMs : Int) (field : String) : Except String (Int × Int) := do
  let now ← requireTimestamp nowMs "fleetMaintenance.nowMs"
  let deadline ← requireFutureTimestamp deadlineMs now field
  return (now, deadline)

/-- The operation that a call asks the store for, once its arguments are checked. -/
inductive Operation where
  | announceDemand (nowMs demandExpiresAtMs : Int)
  | tryAcquire (nowMs leaseExpiresAtMs : Int) (phase : String)
  | renew (fencingToken nowMs leaseExpiresAtMs : Int)
  | commitCheckpoint (fencingToken nowMs leaseExpiresAtMs : Int) (phase : String)
      (checkpointRef : Option String)
  | release (fencingToken nowMs : Int) (outcome : ReleaseOutcome)
  | requestPreemption (nowMs : Int)
  | withdrawDemand

def Coordinator.operation (c : Coordinator) : Call → Except String Operation
  | .announceDemand nowMs demandExpiresAtMs => do
    let window ← requireWindow nowMs demandExpiresAtMs "fleetMaintenance.demandExpiresAtMs"
    return .announceDemand window.1 window.2
  | .tryAcquire nowMs leaseExpiresAtMs phase => do
    let window ← requireWindow nowMs leaseExpiresAtMs "fleetMaintenance.leaseExpiresAtMs"
    let phase ← requirePhase phase
    return .tryAcquire window.1 window.2 phase
  | .renew lease nowMs leaseExpiresAtMs => do
    let now ← requireTimestamp nowMs "fleetMaintenance.nowMs"
    let token ← requireLocalLease c lease
    let deadline ← requireFutureTimestamp leaseExpiresAtMs now "fleetMaintenance.leaseExpiresAtMs"
    return .renew token now deadline
  | .commitCheckpoint lease nowMs leaseExpiresAtMs phase checkpointRef => do
    let now ← requireTimestamp nowMs "fleetMaintenance.nowMs"
    let token ← requireLocalLease c lease
    let deadline ← requireFutureTimestamp leaseExpiresAtMs now "fleetMaintenance.leaseExpiresAtMs"
    let phase ← requirePhase phase
    let checkpointRef ← requireCheckpointRef checkpointRef
    return .commitCheckpoint token now deadline phase checkpointRef
  | .release lease nowMs outcome => do
    let token ← requireLocalLease c lease
    let now ← requireTimestamp nowMs "fleetMaintenance.nowMs"
    return .release token now outcome
  | .requestPreemption nowMs => do
    let now ← requireTimestamp nowMs "fleetMaintenance.nowMs"
    return .requestPreemption now
  | .withdrawDemand => .ok .withdrawDemand

/-- An operation of the store and its answer. -/
def Operation.run (input : StoreBinding) (db : Database) :
    Operation → Database × Except String Answer
  | .announceDemand nowMs demandExpiresAtMs =>
    (FleetMaintenance.announceDemand input nowMs demandExpiresAtMs db).map id fun r =>
      r.map fun _ => .done
  | .tryAcquire nowMs leaseExpiresAtMs phase =>
    (FleetMaintenance.tryAcquire input nowMs leaseExpiresAtMs phase db).map id fun r =>
      r.map .acquire
  | .renew fencingToken nowMs leaseExpiresAtMs =>
    (FleetMaintenance.renew input fencingToken nowMs leaseExpiresAtMs db).map id fun r =>
      r.map .renewed
  | .commitCheckpoint fencingToken nowMs leaseExpiresAtMs phase checkpointRef =>
    (FleetMaintenance.commitCheckpoint input fencingToken nowMs leaseExpiresAtMs phase
      checkpointRef db).map id fun r => r.map fun out => .checkpointed out.1 out.2
  | .release fencingToken nowMs outcome =>
    (FleetMaintenance.release input fencingToken nowMs outcome db).map id fun r =>
      r.map fun _ => .done
  | .requestPreemption nowMs =>
    (FleetMaintenance.requestPreemption nowMs db).map id fun r => r.map .preempted
  | .withdrawDemand =>
    (FleetMaintenance.withdrawDemand input db).map id fun r => r.map fun _ => .done

/-- The database after a call, and what it answers; a refused argument reaches no row. -/
def Coordinator.perform (fingerprint : List Uuid → String) (c : Coordinator) (call : Call)
    (db : Database) : Database × Except String Answer :=
  match c.operation call with
  | .error message => (db, .error message)
  | .ok operation => operation.run (c.binding fingerprint) db

end Psfn.FleetMaintenance
