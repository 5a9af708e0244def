import Mathlib.Data.List.MinMax
import Mathlib.Data.List.Sort
import Psfn.Fatigue.SocialPot
import Psfn.Lib.JsString
import Psfn.Lib.Table
import Psfn.Lib.Uuid

/-!
# The speaking arbiter — the store

The tables of `persistence/postgres/speaking-arbiter-store.ts`, the constraints the shared schema
puts on them, and the operations. Each operation checks its input, then runs one transaction;
all that write take the channel's advisory lock first. Rows are appended and never deleted, so
the order of the lease table is the order of acquisition.

`ensureOpenEpisode` draws a random UUID; it is an argument here, and the primary key refuses one
that is taken. References between the tables hold because the row referred to was read in the
same transaction.
-/

namespace Psfn.Arbiter

open Psfn.Lib
open Psfn.Fatigue (requireTimestamp)

/-! ## Columns -/

/-- What `requireIdentifier` gives back: channels and trigger events. -/
structure Identifier where
  value    : String
  nonEmpty : 1 ≤ JsString.utf16Length value
  bounded  : JsString.utf16Length value ≤ 512

instance : DecidableEq Identifier := fun a b =>
  decidable_of_iff (a.value = b.value) (by cases a; cases b; simp)

inductive SpeakingReservationStatus where
  | reserved | released | expired
deriving DecidableEq, Repr

def SpeakingReservationStatus.text : SpeakingReservationStatus → String
  | .reserved => "reserved"
  | .released => "released"
  | .expired => "expired"

inductive SpeakingEgressLeaseStatus where
  | held | released | expired | delivered | failed | overridden
deriving DecidableEq, Repr

def SpeakingEgressLeaseStatus.text : SpeakingEgressLeaseStatus → String
  | .held => "held"
  | .released => "released"
  | .expired => "expired"
  | .delivered => "delivered"
  | .failed => "failed"
  | .overridden => "overridden"

/-- `status IN ('delivered', 'overridden')`. -/
def SpeakingEgressLeaseStatus.speech : SpeakingEgressLeaseStatus → Bool
  | .delivered | .overridden => true
  | _ => false

inductive SpeakingArbiterReason where
  | silence | ignore | modelFailure | delivered | deliveryFailure | expiry | superseded
  | urgentOverride
deriving DecidableEq, Repr

def SpeakingArbiterReason.text : SpeakingArbiterReason → String
  | .silence => "silence"
  | .ignore => "ignore"
  | .modelFailure => "model_failure"
  | .delivered => "delivered"
  | .deliveryFailure => "delivery_failure"
  | .expiry => "expiry"
  | .superseded => "superseded"
  | .urgentOverride => "urgent_override"

/-- `${row.reason ?? 'null'}`. -/
def reasonText (reason : Option SpeakingArbiterReason) : String := reason.elim "null" (·.text)

inductive SpeakingEgressLeaseCompletion where
  | delivered | failed | released | overridden
deriving DecidableEq, Repr

/-- The completion as the status it is stored as. -/
def SpeakingEgressLeaseCompletion.status :
    SpeakingEgressLeaseCompletion → SpeakingEgressLeaseStatus
  | .delivered => .delivered
  | .failed => .failed
  | .released => .released
  | .overridden => .overridden

def speakingCompletionReason : SpeakingEgressLeaseCompletion → SpeakingArbiterReason
  | .delivered => .delivered
  | .failed => .deliveryFailure
  | .released => .silence
  | .overridden => .urgentOverride

def speakingCompletionIsSpeech : SpeakingEgressLeaseCompletion → Bool
  | .delivered | .overridden => true
  | .failed | .released => false

inductive RoomEpisodeStatus where
  | opened | closed
deriving DecidableEq, Repr

inductive RoomEpisodeBreakerState where
  | closed | opened | halfOpen
deriving DecidableEq, Repr

/-! ## Rows -/

structure EpisodeRow where
  episodeId                  : Uuid
  channelId                  : Identifier
  status                     : RoomEpisodeStatus
  pressure                   : Rat
  consecutiveAutonomousTurns : Nat
  lastSpeakerCompanionId     : Option Uuid
  openedAtMs                 : Nat
  lastActivityAtMs           : Nat
  closedAtMs                 : Option Nat
  revision                   : Nat
  breakerState               : RoomEpisodeBreakerState := .closed
deriving DecidableEq

structure ParticipationRow where
  episodeId     : Uuid
  companionId   : Uuid
  speakCount    : Nat
  lastSpokeAtMs : Option Nat
deriving DecidableEq

structure ReservationRow where
  reservationId  : Uuid
  channelId      : Identifier
  triggerEventId : Identifier
  companionId    : Uuid
  episodeId      : Uuid
  status         : SpeakingReservationStatus
  reason         : Option SpeakingArbiterReason
  reservedAtMs   : Nat
  expiresAtMs    : Nat
  finalizedAtMs  : Option Nat
  revision       : Nat
deriving DecidableEq

structure LeaseRow where
  leaseId        : Uuid
  reservationId  : Uuid
  channelId      : Identifier
  triggerEventId : Identifier
  companionId    : Uuid
  episodeId      : Uuid
  fencingToken   : Nat
  chargedUnits   : Rat
  status         : SpeakingEgressLeaseStatus
  reason         : Option SpeakingArbiterReason
  acquiredAtMs   : Nat
  expiresAtMs    : Nat
  finalizedAtMs  : Option Nat
  revision       : Nat
deriving DecidableEq

structure Database where
  episodes      : List EpisodeRow := []
  participation : List ParticipationRow := []
  reservations  : List ReservationRow := []
  leases        : List LeaseRow := []

/-! ## Constraints -/

/-- The `CHECK`s of an episode. -/
def EpisodeRow.checks (row : EpisodeRow) : Bool :=
  0 ≤ row.pressure && row.openedAtMs ≤ row.lastActivityAtMs && 1 ≤ row.revision
    && (row.status = .closed) == row.closedAtMs.isSome
    && row.closedAtMs.all (row.openedAtMs ≤ ·)

/-- The `CHECK`s of a reservation. -/
def ReservationRow.checks (row : ReservationRow) : Bool :=
  row.reservedAtMs < row.expiresAtMs && 1 ≤ row.revision
    && (row.status = .reserved) == row.finalizedAtMs.isNone
    && (row.status = .reserved) == row.reason.isNone
    && row.finalizedAtMs.all (row.reservedAtMs ≤ ·)

/-- The `CHECK`s of a lease. -/
def LeaseRow.checks (row : LeaseRow) : Bool :=
  1 ≤ row.fencingToken && 0 ≤ row.chargedUnits && row.acquiredAtMs < row.expiresAtMs
    && 1 ≤ row.revision
    && (row.status = .held) == row.finalizedAtMs.isNone
    && (row.status = .held) == row.reason.isNone
    && row.finalizedAtMs.all (row.acquiredAtMs ≤ ·)

/-- `WHERE channel_id = $1 AND trigger_event_id = $2`. -/
def LeaseRow.ofEvent (channelId triggerEventId : Identifier) (row : LeaseRow) : Bool :=
  row.channelId = channelId && row.triggerEventId = triggerEventId

def LeaseRow.held (row : LeaseRow) : Bool := row.status = .held

/-- `CHECK`s, keys and the two partial unique indexes. -/
def Database.constraints (db : Database) : Bool :=
  db.episodes.all EpisodeRow.checks
    && decide (db.episodes.map (·.episodeId)).Nodup
    && decide ((db.episodes.filter (·.status = .opened)).map (·.channelId)).Nodup
    && decide (db.participation.map fun p => (p.episodeId, p.companionId)).Nodup
    && db.reservations.all ReservationRow.checks
    && decide (db.reservations.map (·.reservationId)).Nodup
    && decide (db.reservations.map fun r => (r.channelId, r.triggerEventId, r.companionId)).Nodup
    && db.leases.all LeaseRow.checks
    && decide (db.leases.map (·.leaseId)).Nodup
    && decide (db.leases.map fun l => (l.channelId, l.triggerEventId, l.fencingToken)).Nodup
    && decide ((db.leases.filter (·.held)).map fun l => (l.channelId, l.triggerEventId)).Nodup

def withPostgresClient {α : Type} (body : Database → Except String (Database × α))
    (db : Database) : Database × Except String α :=
  Table.transaction Database.constraints body db

/-- The checks of an operation's input come before its transaction. -/
def checked {α β : Type} (input : Except String α)
    (body : α → Database → Except String (Database × β)) (db : Database) :
    Database × Except String β :=
  match input with
  | .ok call => withPostgresClient (body call) db
  | .error message => (db, .error message)

def requireFutureDeadline (expiresAtMs : JsNumber) (nowMs : Nat) (field : String) :
    Except String Nat := do
  let value ← requireTimestamp expiresAtMs field
  throwIf (value ≤ nowMs) s!"{field} must be strictly greater than nowMs"
  return value

def requireNonNegativeFinite (value : JsNumber) (field : String) : Except String Rat :=
  match value with
  | .finite q => if 0 ≤ q then .ok q else .error s!"{field} must be a finite number >= 0"
  | _ => .error s!"{field} must be a finite number >= 0"

/-! ## Episodes -/

def loadOpenEpisodeRow (db : Database) (channelId : Identifier) : Option EpisodeRow :=
  db.episodes.find? fun e => e.channelId = channelId && e.status = .opened

/-- The `VALUES` of a new episode. -/
def newEpisode (channelId : Identifier) (nowMs : Nat) (episodeId : Uuid) : EpisodeRow where
  episodeId := episodeId
  channelId := channelId
  status := .opened
  pressure := 0
  consecutiveAutonomousTurns := 0
  lastSpeakerCompanionId := none
  openedAtMs := nowMs
  lastActivityAtMs := nowMs
  closedAtMs := none
  revision := 1

/-- The open episode of the channel, made if there is none. -/
def ensureOpenEpisode (db : Database) (channelId : Identifier) (nowMs : Nat) (uuid : Uuid) :
    Database × EpisodeRow :=
  match loadOpenEpisodeRow db channelId with
  | some existing => (db, existing)
  | none =>
    ({ db with episodes := db.episodes ++ [newEpisode channelId nowMs uuid] },
      newEpisode channelId nowMs uuid)

/-- `UPDATE speaking_room_episodes SET … WHERE episode_id = $1`. -/
def updateEpisode (episodeId : Uuid) (set : EpisodeRow → EpisodeRow) (db : Database) : Database :=
  { db with
    episodes :=
      Table.update (·.episodeId = episodeId)
        (fun e => { set e with revision := e.revision + 1 }) db.episodes }

/-- `GREATEST(last_activity_at_ms, $n)`. -/
def EpisodeRow.active (nowMs : Nat) (e : EpisodeRow) : EpisodeRow :=
  { e with lastActivityAtMs := max e.lastActivityAtMs nowMs }

structure RoomEpisodeSnapshot where
  episode      : EpisodeRow
  participants : List ParticipationRow

/-- `ORDER BY last_spoke_at_ms ASC NULLS FIRST, companion_id ASC`. -/
def speakLeastOrder (a b : ParticipationRow) : Bool :=
  match a.lastSpokeAtMs, b.lastSpokeAtMs with
  | none, some _ => true
  | some _, none => false
  | none, none => decide (a.companionId.value ≤ b.companionId.value)
  | some s, some t => s < t || (s = t && decide (a.companionId.value ≤ b.companionId.value))

def loadEpisodeSnapshot (db : Database) (episodeId : Uuid) : Except String RoomEpisodeSnapshot :=
  match db.episodes.find? (·.episodeId = episodeId) with
  | none => .error s!"speaking room episode {episodeId.value} not found"
  | some row =>
    .ok { episode := row
          participants :=
            (db.participation.filter (·.episodeId = episodeId)).insertionSort
              fun a b => speakLeastOrder a b = true }

/-- What `ensureRoomEpisode`, `closeRoomEpisode` and `recordHumanActivity` take. -/
structure EpisodeCall where
  channelId : Identifier
  nowMs     : Nat
  uuid      : Uuid

def episodeCall (channelId : Identifier) (nowMs : JsNumber) (uuid : Uuid) :
    Except String EpisodeCall := do
  let now ← requireTimestamp nowMs "speakingArbiter.nowMs"
  return { channelId, nowMs := now, uuid }

def ensureRoomEpisodeBody (call : EpisodeCall) (db : Database) :
    Except String (Database × RoomEpisodeSnapshot) := do
  let opened := ensureOpenEpisode db call.channelId call.nowMs call.uuid
  let snapshot ← loadEpisodeSnapshot opened.1 opened.2.episodeId
  return (opened.1, snapshot)

def ensureRoomEpisode (channelId : Identifier) (nowMs : JsNumber) (uuid : Uuid) :
    Database → Database × Except String RoomEpisodeSnapshot :=
  checked (episodeCall channelId nowMs uuid) ensureRoomEpisodeBody

def recordHumanActivityBody (call : EpisodeCall) (db : Database) :
    Except String (Database × RoomEpisodeSnapshot) := do
  let opened := ensureOpenEpisode db call.channelId call.nowMs call.uuid
  let db' := updateEpisode opened.2.episodeId
    (fun e => { e.active call.nowMs with consecutiveAutonomousTurns := 0 }) opened.1
  let snapshot ← loadEpisodeSnapshot db' opened.2.episodeId
  return (db', snapshot)

def recordHumanActivity (channelId : Identifier) (nowMs : JsNumber) (uuid : Uuid) :
    Database → Database × Except String RoomEpisodeSnapshot :=
  checked (episodeCall channelId nowMs uuid) recordHumanActivityBody

def closeRoomEpisodeBody (call : EpisodeCall) (db : Database) :
    Except String (Database × Option RoomEpisodeSnapshot) :=
  match loadOpenEpisodeRow db call.channelId with
  | none => .ok (db, none)
  | some row => do
    let closedAt := max call.nowMs row.openedAtMs
    let db' := updateEpisode row.episodeId
      (fun e => { e.active closedAt with status := .closed, closedAtMs := some closedAt }) db
    let snapshot ← loadEpisodeSnapshot db' row.episodeId
    return (db', some snapshot)

/-- No episode is opened, so no UUID is drawn; `uuid` is not used. -/
def closeRoomEpisode (channelId : Identifier) (nowMs : JsNumber) (uuid : Uuid) :
    Database → Database × Except String (Option RoomEpisodeSnapshot) :=
  checked (episodeCall channelId nowMs uuid) closeRoomEpisodeBody

def readRoomEpisode (db : Database) (channelId : Identifier) :
    Except String (Option RoomEpisodeSnapshot) :=
  match loadOpenEpisodeRow db channelId with
  | none => .ok none
  | some row => (loadEpisodeSnapshot db row.episodeId).map some

/-- A channel with no open episode is not suppressed. -/
def readRoomEpisodeBreakerState (db : Database) (channelId : Identifier) :
    RoomEpisodeBreakerState :=
  (loadOpenEpisodeRow db channelId).elim .closed (·.breakerState)

def persistBreakerBody (channelId : Identifier) (state : RoomEpisodeBreakerState) (nowMs : Nat)
    (db : Database) : Except String (Database × Unit) :=
  .ok ({ db with
    episodes :=
      Table.update (fun e => e.channelId = channelId && e.status = .opened)
        (fun e => { e.active nowMs with breakerState := state, revision := e.revision + 1 })
        db.episodes }, ())

def persistRoomEpisodeBreakerState (channelId : Identifier) (state : RoomEpisodeBreakerState)
    (nowMs : JsNumber) : Database → Database × Except String Unit :=
  checked (requireTimestamp nowMs "speakingArbiter.nowMs") (persistBreakerBody channelId state)

/-! ## Reservations -/

/-- `INSERT … VALUES ($1, $2, 0, NULL) ON CONFLICT (episode_id, companion_id) DO NOTHING`. -/
def ensureParticipant (db : Database) (episodeId companionId : Uuid) : Database :=
  if db.participation.any (fun p => p.episodeId = episodeId && p.companionId = companionId) then db
  else
    { db with
      participation :=
        db.participation ++ [{ episodeId, companionId, speakCount := 0, lastSpokeAtMs := none }] }

structure ReserveInput where
  reservationId  : Uuid
  channelId      : Identifier
  triggerEventId : Identifier
  companionId    : Uuid
  nowMs          : JsNumber
  expiresAtMs    : JsNumber
  uuid           : Uuid

structure ReserveCall where
  reservationId  : Uuid
  channelId      : Identifier
  triggerEventId : Identifier
  companionId    : Uuid
  nowMs          : Nat
  expiresAtMs    : Nat
  uuid           : Uuid

def reserveCall (input : ReserveInput) : Except String ReserveCall := do
  let nowMs ← requireTimestamp input.nowMs "speakingArbiter.nowMs"
  let expiresAtMs ←
    requireFutureDeadline input.expiresAtMs nowMs "speakingArbiter.reservation.expiresAtMs"
  return { reservationId := input.reservationId, channelId := input.channelId
           triggerEventId := input.triggerEventId, companionId := input.companionId
           nowMs, expiresAtMs, uuid := input.uuid }

inductive ReserveOutcome where
  | reserved | replayed
deriving DecidableEq, Repr

structure ReserveResult where
  outcome     : ReserveOutcome
  reservation : ReservationRow
  episode     : RoomEpisodeSnapshot

def newReservation (call : ReserveCall) (episodeId : Uuid) : ReservationRow where
  reservationId := call.reservationId
  channelId := call.channelId
  triggerEventId := call.triggerEventId
  companionId := call.companionId
  episodeId := episodeId
  status := .reserved
  reason := none
  reservedAtMs := call.nowMs
  expiresAtMs := call.expiresAtMs
  finalizedAtMs := none
  revision := 1

/-- The episode of the trigger, kept fresh, with its participant. -/
def enterEpisode (call : ReserveCall) (db : Database) : Database × EpisodeRow :=
  let opened := ensureOpenEpisode db call.channelId call.nowMs call.uuid
  let touched :=
    if opened.2.lastActivityAtMs < call.nowMs then
      updateEpisode opened.2.episodeId (fun e => { e with lastActivityAtMs := call.nowMs }) opened.1
    else opened.1
  (ensureParticipant touched opened.2.episodeId call.companionId, opened.2)

def reserveBody (call : ReserveCall) (db : Database) :
    Except String (Database × ReserveResult) :=
  let entered := enterEpisode call db
  -- `ON CONFLICT (channel_id, trigger_event_id, companion_id) DO NOTHING`
  match entered.1.reservations.find? (fun r => r.channelId = call.channelId
      && r.triggerEventId = call.triggerEventId && r.companionId = call.companionId) with
  | none => do
    let row := newReservation call entered.2.episodeId
    let db' := { entered.1 with reservations := entered.1.reservations ++ [row] }
    let episode ← loadEpisodeSnapshot db' row.episodeId
    return (db', { outcome := .reserved, reservation := row, episode })
  | some existing => do
    let episode ← loadEpisodeSnapshot entered.1 existing.episodeId
    return (entered.1, { outcome := .replayed, reservation := existing, episode })

def reserve (input : ReserveInput) : Database → Database × Except String ReserveResult :=
  checked (reserveCall input) reserveBody

def listActiveReservers (db : Database) (channelId triggerEventId : Identifier) (nowMs : JsNumber) :
    Except String (List Uuid) := do
  let now ← requireTimestamp nowMs "speakingArbiter.nowMs"
  let active := db.reservations.filter fun r =>
    r.channelId = channelId && r.triggerEventId = triggerEventId && r.status = .reserved
      && now < r.expiresAtMs
  return (active.map (·.companionId)).insertionSort fun a b => a.value ≤ b.value

/-- `SET status = …, reason = …, finalized_at_ms = …, revision = revision + 1`. -/
def ReservationRow.finalize (status : SpeakingReservationStatus) (reason : SpeakingArbiterReason)
    (nowMs : Nat) (row : ReservationRow) : ReservationRow :=
  { row with status, reason := some reason, finalizedAtMs := some nowMs, revision := row.revision + 1 }

/-- An update of the reservations that are still open. -/
def finalizeReservations (cond : ReservationRow → Bool) (status : SpeakingReservationStatus)
    (reason : SpeakingArbiterReason) (nowMs : Nat) (db : Database) : Database :=
  { db with
    reservations :=
      Table.update (fun r => r.status = .reserved && cond r) (·.finalize status reason nowMs)
        db.reservations }

structure ReleaseReservationInput where
  reservationId : Uuid
  channelId     : Identifier
  reason        : SpeakingArbiterReason
  nowMs         : JsNumber

def releaseReservationBody (input : ReleaseReservationInput) (nowMs : Nat) (db : Database) :
    Except String (Database × ReservationRow) :=
  match db.reservations.find? (·.reservationId = input.reservationId) with
  | none => .error s!"speaking reservation {input.reservationId.value} not found"
  | some row =>
    if row.channelId ≠ input.channelId then
      .error s!"speaking reservation {input.reservationId.value} channel mismatch"
    else if row.status ≠ .reserved then
      -- an idempotent replay only when the recorded reason matches
      if row.reason = some input.reason then .ok (db, row)
      else
        .error (s!"speaking reservation {input.reservationId.value} already terminal " ++
          s!"({row.status.text}/{reasonText row.reason})")
    else
      .ok (finalizeReservations (·.reservationId = input.reservationId) .released input.reason
          nowMs db,
        row.finalize .released input.reason nowMs)

def releaseReservation (input : ReleaseReservationInput) :
    Database → Database × Except String ReservationRow :=
  checked (requireTimestamp input.nowMs "speakingArbiter.nowMs") (releaseReservationBody input)

/-! ## Leases -/

def isEgressLeaseLive (row : LeaseRow) (nowMs : Nat) : Bool :=
  row.status = .held && nowMs < row.expiresAtMs

def LeaseRow.finalize (status : SpeakingEgressLeaseStatus) (reason : SpeakingArbiterReason)
    (nowMs : Nat) (row : LeaseRow) : LeaseRow :=
  { row with status, reason := some reason, finalizedAtMs := some nowMs, revision := row.revision + 1 }

/-- An update of the leases that are still held. -/
def finalizeLeases (cond : LeaseRow → Bool) (status : SpeakingEgressLeaseStatus)
    (reason : SpeakingArbiterReason) (nowMs : Nat) (db : Database) : Database :=
  { db with
    leases := Table.update (fun l => l.held && cond l) (·.finalize status reason nowMs) db.leases }

structure AcquireEgressLeaseInput where
  leaseId       : Uuid
  reservationId : Uuid
  channelId     : Identifier
  nowMs         : JsNumber
  expiresAtMs   : JsNumber
  chargedUnits  : Option JsNumber

structure AcquireCall where
  leaseId       : Uuid
  reservationId : Uuid
  channelId     : Identifier
  nowMs         : Nat
  expiresAtMs   : Nat
  chargedUnits  : Rat

def acquireCall (input : AcquireEgressLeaseInput) : Except String AcquireCall := do
  let nowMs ← requireTimestamp input.nowMs "speakingArbiter.nowMs"
  let expiresAtMs ←
    requireFutureDeadline input.expiresAtMs nowMs "speakingArbiter.lease.expiresAtMs"
  let chargedUnits ← input.chargedUnits.elim (.ok 0) fun units =>
    requireNonNegativeFinite units "speakingArbiter.lease.chargedUnits"
  return { leaseId := input.leaseId, reservationId := input.reservationId
           channelId := input.channelId, nowMs, expiresAtMs, chargedUnits }

inductive DeclineReason where
  | held | alreadyDelivered
deriving DecidableEq, Repr

/-- The lease that won the event. -/
structure HeldBy where
  companionId  : Uuid
  leaseId      : Uuid
  fencingToken : Nat
deriving DecidableEq

inductive AcquireEgressLeaseResult where
  | acquired (lease : LeaseRow)
  | declined (heldBy : HeldBy) (declineReason : DeclineReason)
deriving DecidableEq

def LeaseRow.heldBy (row : LeaseRow) : HeldBy :=
  { companionId := row.companionId, leaseId := row.leaseId, fencingToken := row.fencingToken }

/-- The lease that spoke for the event: `ORDER BY fencing_token DESC LIMIT 1`. -/
def spentLease (db : Database) (channelId triggerEventId : Identifier) : Option LeaseRow :=
  (db.leases.filter fun l => l.ofEvent channelId triggerEventId && l.status.speech).argmax
    (·.fencingToken)

def heldLease (db : Database) (channelId triggerEventId : Identifier) : Option LeaseRow :=
  db.leases.find? fun l => l.ofEvent channelId triggerEventId && l.held

/-- `COALESCE(MAX(fencing_token), 0) + 1`. -/
def nextFencingToken (db : Database) (channelId triggerEventId : Identifier) : Nat :=
  ((db.leases.filter (·.ofEvent channelId triggerEventId)).map (·.fencingToken)).foldr max 0 + 1

def newLease (call : AcquireCall) (reservation : ReservationRow) (db : Database) : LeaseRow where
  leaseId := call.leaseId
  reservationId := call.reservationId
  channelId := call.channelId
  triggerEventId := reservation.triggerEventId
  companionId := reservation.companionId
  episodeId := reservation.episodeId
  fencingToken := nextFencingToken db call.channelId reservation.triggerEventId
  chargedUnits := call.chargedUnits
  status := .held
  reason := none
  acquiredAtMs := call.nowMs
  expiresAtMs := call.expiresAtMs
  finalizedAtMs := none
  revision := 1

def grantLease (call : AcquireCall) (reservation : ReservationRow) (db : Database) :
    Database × AcquireEgressLeaseResult :=
  let lease := newLease call reservation db
  ({ db with leases := db.leases ++ [lease] }, .acquired lease)

/-- The reservation may be promoted: the event is not spent. -/
def promoteReservation (call : AcquireCall) (reservation : ReservationRow) (db : Database) :
    Except String (Database × AcquireEgressLeaseResult) :=
  if reservation.status ≠ .reserved then
    .error (s!"speaking reservation {call.reservationId.value} is not reservable " ++
      s!"({reservation.status.text})")
  else if reservation.expiresAtMs ≤ call.nowMs then
    .error s!"speaking reservation {call.reservationId.value} has expired"
  else
    match heldLease db call.channelId reservation.triggerEventId with
    | none => .ok (grantLease call reservation db)
    | some heldRow =>
      if isEgressLeaseLive heldRow call.nowMs then .ok (db, .declined heldRow.heldBy .held)
      else
        -- the holder's deadline lapsed: reclaim its lease and grant afresh
        .ok (grantLease call reservation
          (finalizeLeases (·.leaseId = heldRow.leaseId) .expired .expiry call.nowMs db))

def acquireEgressLeaseBody (call : AcquireCall) (db : Database) :
    Except String (Database × AcquireEgressLeaseResult) :=
  match db.leases.find? (·.leaseId = call.leaseId) with
  | some replayRow =>
    if replayRow.reservationId ≠ call.reservationId || replayRow.channelId ≠ call.channelId then
      .error s!"speaking egress lease {call.leaseId.value} replay binding mismatch"
    else .ok (db, .acquired replayRow)
  | none =>
    match db.reservations.find? (·.reservationId = call.reservationId) with
    | none => .error s!"speaking reservation {call.reservationId.value} not found"
    | some reservation =>
      if reservation.channelId ≠ call.channelId then
        .error s!"speaking reservation {call.reservationId.value} channel mismatch"
      else
        match spentLease db call.channelId reservation.triggerEventId with
        | some spentRow => .ok (db, .declined spentRow.heldBy .alreadyDelivered)
        | none => promoteReservation call reservation db

def acquireEgressLease (input : AcquireEgressLeaseInput) :
    Database → Database × Except String AcquireEgressLeaseResult :=
  checked (acquireCall input) acquireEgressLeaseBody

structure CompleteEgressLeaseInput where
  leaseId       : Uuid
  channelId     : Identifier
  fencingToken  : JsNumber
  completion    : SpeakingEgressLeaseCompletion
  nowMs         : JsNumber
  pressureDelta : Option JsNumber

structure CompleteCall where
  leaseId       : Uuid
  channelId     : Identifier
  fencingToken  : Int
  completion    : SpeakingEgressLeaseCompletion
  nowMs         : Nat
  pressureDelta : Rat

/-- `requireSafeInteger`. -/
def safeInteger (value : JsNumber) (field : String) : Except String Int :=
  match value with
  | .finite q =>
    if q.den = 1 && q.num.natAbs ≤ 9007199254740991 then .ok q.num
    else .error s!"{field} must be a safe integer"
  | _ => .error s!"{field} must be a safe integer"

def completeCall (input : CompleteEgressLeaseInput) : Except String CompleteCall := do
  let fencingToken ← safeInteger input.fencingToken "speakingArbiter.fencingToken"
  let nowMs ← requireTimestamp input.nowMs "speakingArbiter.nowMs"
  let pressureDelta ← input.pressureDelta.elim (.ok 0) fun delta =>
    requireNonNegativeFinite delta "speakingArbiter.pressureDelta"
  return { leaseId := input.leaseId, channelId := input.channelId, fencingToken
           completion := input.completion, nowMs, pressureDelta }

/-- `INSERT … VALUES ($1, $2, 1, $3) ON CONFLICT … DO UPDATE SET speak_count = speak_count + 1`. -/
def recordSpeech (db : Database) (episodeId companionId : Uuid) (nowMs : Nat) : Database :=
  if db.participation.any (fun p => p.episodeId = episodeId && p.companionId = companionId) then
    { db with
      participation :=
        Table.update (fun p => p.episodeId = episodeId && p.companionId = companionId)
          (fun p => { p with speakCount := p.speakCount + 1, lastSpokeAtMs := some nowMs })
          db.participation }
  else
    { db with
      participation :=
        db.participation ++
          [{ episodeId, companionId, speakCount := 1, lastSpokeAtMs := some nowMs }] }

/-- The lease has spoken: the other reservations of the event are superseded, the episode is
charged and the speaker counted. -/
def speak (call : CompleteCall) (lease : LeaseRow) (db : Database) : Database :=
  let superseded := finalizeReservations (fun r => r.channelId = lease.channelId
    && r.triggerEventId = lease.triggerEventId && r.reservationId ≠ lease.reservationId)
    .released .superseded call.nowMs db
  let charged := updateEpisode lease.episodeId (fun e =>
    { e.active call.nowMs with
      pressure := e.pressure + call.pressureDelta
      consecutiveAutonomousTurns := e.consecutiveAutonomousTurns + 1
      lastSpeakerCompanionId := some lease.companionId }) superseded
  recordSpeech charged lease.episodeId lease.companionId call.nowMs

def completeEgressLeaseBody (call : CompleteCall) (db : Database) :
    Except String (Database × LeaseRow) :=
  let reason := speakingCompletionReason call.completion
  match db.leases.find? (·.leaseId = call.leaseId) with
  | none => .error s!"speaking egress lease {call.leaseId.value} not found"
  | some row =>
    if row.channelId ≠ call.channelId then
      .error s!"speaking egress lease {call.leaseId.value} channel mismatch"
    else if (row.fencingToken : Int) ≠ call.fencingToken then
      .error s!"speaking egress lease {call.leaseId.value} stale fencing token"
    else if row.status ≠ .held then
      -- an idempotent replay only when the recorded reason matches
      if row.reason = some reason then .ok (db, row)
      else
        .error (s!"speaking egress lease {call.leaseId.value} already terminal " ++
          s!"({row.status.text}/{reasonText row.reason})")
    else
      let updated := row.finalize call.completion.status reason call.nowMs
      let completed := finalizeLeases (fun l => l.leaseId = call.leaseId
        && (l.fencingToken : Int) = call.fencingToken) call.completion.status reason call.nowMs db
      let resolved := finalizeReservations (·.reservationId = row.reservationId) .released reason
        call.nowMs completed
      .ok (if speakingCompletionIsSpeech call.completion then speak call updated resolved
        else resolved, updated)

def completeEgressLease (input : CompleteEgressLeaseInput) :
    Database → Database × Except String LeaseRow :=
  checked (completeCall input) completeEgressLeaseBody

/-- Leases first. A reservation whose lease is still held is not swept out from under it. -/
def sweepExpiredBody (channelId : Option Identifier) (nowMs : Nat) (db : Database) :
    Except String (Database × (Nat × Nat)) :=
  let lapsedLease := fun l : LeaseRow =>
    l.expiresAtMs ≤ nowMs && channelId.all (l.channelId = ·)
  let swept := finalizeLeases lapsedLease .expired .expiry nowMs db
  let lapsed := fun r : ReservationRow =>
    r.expiresAtMs ≤ nowMs && channelId.all (r.channelId = ·)
      && !swept.leases.any fun l => l.reservationId = r.reservationId && l.held
  .ok (finalizeReservations lapsed .expired .expiry nowMs swept,
    (swept.reservations.countP fun r => r.status = .reserved && lapsed r,
      db.leases.countP fun l => l.held && lapsedLease l))

def sweepExpired (channelId : Option Identifier) (nowMs : JsNumber) :
    Database → Database × Except String (Nat × Nat) :=
  checked (requireTimestamp nowMs "speakingArbiter.nowMs") (sweepExpiredBody channelId)

/-! ## Runs -/

/-- A call of the store, by anybody and with any clock. -/
inductive StoreOp where
  | ensureRoomEpisode (channelId : Identifier) (nowMs : JsNumber) (uuid : Uuid)
  | recordHumanActivity (channelId : Identifier) (nowMs : JsNumber) (uuid : Uuid)
  | closeRoomEpisode (channelId : Identifier) (nowMs : JsNumber) (uuid : Uuid)
  | persistRoomEpisodeBreakerState (channelId : Identifier) (state : RoomEpisodeBreakerState)
      (nowMs : JsNumber)
  | reserve (input : ReserveInput)
  | releaseReservation (input : ReleaseReservationInput)
  | acquireEgressLease (input : AcquireEgressLeaseInput)
  | completeEgressLease (input : CompleteEgressLeaseInput)
  | sweepExpired (channelId : Option Identifier) (nowMs : JsNumber)

/-- The database after a call. -/
def StoreOp.run : StoreOp → Database → Database
  | .ensureRoomEpisode channelId nowMs uuid, db =>
    (Arbiter.ensureRoomEpisode channelId nowMs uuid db).1
  | .recordHumanActivity channelId nowMs uuid, db =>
    (Arbiter.recordHumanActivity channelId nowMs uuid db).1
  | .closeRoomEpisode channelId nowMs uuid, db =>
    (Arbiter.closeRoomEpisode channelId nowMs uuid db).1
  | .persistRoomEpisodeBreakerState channelId state nowMs, db =>
    (Arbiter.persistRoomEpisodeBreakerState channelId state nowMs db).1
  | .reserve input, db => (Arbiter.reserve input db).1
  | .releaseReservation input, db => (Arbiter.releaseReservation input db).1
  | .acquireEgressLease input, db => (Arbiter.acquireEgressLease input db).1
  | .completeEgressLease input, db => (Arbiter.completeEgressLease input db).1
  | .sweepExpired channelId nowMs, db => (Arbiter.sweepExpired channelId nowMs db).1

end Psfn.Arbiter
