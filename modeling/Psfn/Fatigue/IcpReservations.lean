import Mathlib.Data.Rat.Floor
import Psfn.Fatigue.SocialPot
import Psfn.Lib.Table
import Psfn.Lib.Transition
import Psfn.Lib.Uuid

/-!
# ICP fatigue reservations

`persistence/postgres/icp-fatigue-regulation-reservation-store.ts`: one row per turn, counted
against the limits of its (local companion, peer, root initiation) while it is pending, delivering,
delivered or without a reply. A pending turn is owned by a lease, an advisory lock that a database
session of its own holds; it can be reclaimed by another reserve of the pair once no session holds
the lock.

A call is a chain of awaits: the lease, one transaction under the lock of the pair, and the release
of the lease. Any number of calls run at once in any number of processes; sessions are lost and
processes stop at any moment, and a statement that is lost may have been committed.

The decayed pressures are sums of `POWER(2, …)` in double precision; the row of that query is a
parameter. The episodes belong to another store and change in between.
-/

namespace Psfn.Fatigue

open Psfn.Lib

/-! ## Rows -/

inductive ReservationDecision where
  | charged | overcharge
deriving DecidableEq, Repr

def ReservationDecision.text : ReservationDecision → String
  | .charged => "charged"
  | .overcharge => "overcharge"

inductive ReservationOutcome where
  | pending | delivering | delivered | noReply | failed
deriving DecidableEq, Repr

/-- `outcome IN ('pending', 'delivering', 'delivered', 'no_reply')`. -/
def ReservationOutcome.counted : ReservationOutcome → Bool
  | .failed => false
  | _ => true

/-- Delivering, or terminal: past the point where the turn could be taken back. -/
def ReservationOutcome.settled : ReservationOutcome → Bool
  | .delivering | .delivered | .noReply => true
  | .pending | .failed => false

structure IcpConversationCorrelation where
  turnId           : Uuid
  conversationId   : Uuid
  rootInitiationId : Uuid
  localCompanionId : Uuid
  peerCompanionId  : Uuid
  peerContactId    : String
  channelId        : String
deriving DecidableEq

structure TurnReservation where
  correlation   : IcpConversationCorrelation
  decision      : ReservationDecision
  amount        : Nat
  reservedAtMs  : Nat
  finalizedAtMs : Option Nat
  outcome       : ReservationOutcome
deriving DecidableEq

/-- A row of `icp_conversation_episodes`, as far as it is read. -/
structure ConversationEpisode where
  conversationId          : Uuid
  rootInitiationId        : Uuid
  channelId               : String
  participantCompanionIds : List Uuid
  /-- `status IN ('invited', 'active')`. -/
  isLive                  : Bool
deriving DecidableEq

structure ReservationDb where
  rows     : List TurnReservation := []
  episodes : List ConversationEpisode := []

def TurnReservation.turnId (row : TurnReservation) : Uuid := row.correlation.turnId

def TurnReservation.checks (row : TurnReservation) : Bool :=
  0 < row.amount && row.correlation.localCompanionId ≠ row.correlation.peerCompanionId
    && (row.outcome = .pending || row.outcome = .delivering) == row.finalizedAtMs.isNone
    && row.finalizedAtMs.all (row.reservedAtMs ≤ ·)

/-- The `CHECK`s and the primary key. -/
def ReservationDb.constraints (db : ReservationDb) : Bool :=
  db.rows.all TurnReservation.checks && decide (db.rows.map (·.turnId)).Nodup

/-- `local_companion_id = $1 AND peer_companion_id = $2 AND root_initiation_id = $3`. -/
def TurnReservation.ofRoot (localId peerId rootId : Uuid) (row : TurnReservation) : Bool :=
  row.correlation.localCompanionId = localId && row.correlation.peerCompanionId = peerId
    && row.correlation.rootInitiationId = rootId

/-- The rows of the pair, in either direction. -/
def TurnReservation.ofPair (a b : Uuid) (row : TurnReservation) : Bool :=
  (row.correlation.localCompanionId = a && row.correlation.peerCompanionId = b)
    || (row.correlation.localCompanionId = b && row.correlation.peerCompanionId = a)

/-! ## `reserve` -/

structure ReserveInput where
  correlation                    : IcpConversationCorrelation
  timestampMs                    : JsNumber
  decision                       : ReservationDecision
  amount                         : JsNumber
  hardLimit                      : JsNumber
  overchargeLimit                : JsNumber
  relationshipPressureHalfLifeMs : JsNumber
  relationshipPressureWindowMs   : JsNumber
  unansweredInitiationAfterMs    : JsNumber
  declinedPressureUnits          : JsNumber
  deferredPressureUnits          : JsNumber
  unansweredPressureUnits        : JsNumber
deriving DecidableEq

/-- `normalizedInput`. -/
structure ReserveCall where
  correlation     : IcpConversationCorrelation
  timestampMs     : Nat
  decision        : ReservationDecision
  amount          : Nat
  hardLimit       : Nat
  overchargeLimit : Nat
  halfLifeMs      : Nat
  windowMs        : Nat
  unansweredMs    : Nat
  declinedUnits   : Rat
  deferredUnits   : Rat
  unansweredUnits : Rat
deriving DecidableEq

def requirePositiveInteger (value : JsNumber) (field : String) : Except String Nat :=
  match value with
  | .finite q =>
    if 1 ≤ q && isSafeInteger q then .ok q.num.toNat
    else .error s!"{field} must be a positive safe integer"
  | _ => .error s!"{field} must be a positive safe integer"

def requireNonNegativeFinite (value : JsNumber) (field : String) : Except String Rat :=
  match value with
  | .finite q => if 0 ≤ q then .ok q else .error s!"{field} must be a finite non-negative number"
  | _ => .error s!"{field} must be a finite non-negative number"

def reserveCall (input : ReserveInput) : Except String ReserveCall := do
  let timestampMs ← requireTimestamp input.timestampMs "reservation.timestampMs"
  let amount ← requirePositiveInteger input.amount "reservation.amount"
  let hardLimit ← requirePositiveInteger input.hardLimit "reservation.hardLimit"
  let overchargeLimit ← requirePositiveInteger input.overchargeLimit "reservation.overchargeLimit"
  let halfLifeMs ← requirePositiveInteger input.relationshipPressureHalfLifeMs
    "reservation.relationshipPressureHalfLifeMs"
  let windowMs ← requirePositiveInteger input.relationshipPressureWindowMs
    "reservation.relationshipPressureWindowMs"
  let unansweredMs ← requirePositiveInteger input.unansweredInitiationAfterMs
    "reservation.unansweredInitiationAfterMs"
  let declinedUnits ←
    requireNonNegativeFinite input.declinedPressureUnits "reservation.declinedPressureUnits"
  let deferredUnits ←
    requireNonNegativeFinite input.deferredPressureUnits "reservation.deferredPressureUnits"
  let unansweredUnits ←
    requireNonNegativeFinite input.unansweredPressureUnits "reservation.unansweredPressureUnits"
  throwIf (windowMs < halfLifeMs)
    "reservation relationship pressure window must be at least one half-life"
  return { correlation := input.correlation, timestampMs, decision := input.decision, amount
           hardLimit, overchargeLimit, halfLifeMs, windowMs, unansweredMs, declinedUnits
           deferredUnits, unansweredUnits }

def assertReplayMatches (row : TurnReservation) (call : ReserveCall) : Except String Unit :=
  throwIf (row.correlation.conversationId ≠ call.correlation.conversationId
      || row.correlation.rootInitiationId ≠ call.correlation.rootInitiationId
      || row.correlation.localCompanionId ≠ call.correlation.localCompanionId
      || row.correlation.peerCompanionId ≠ call.correlation.peerCompanionId
      || row.correlation.peerContactId ≠ call.correlation.peerContactId
      || row.correlation.channelId ≠ call.correlation.channelId
      || row.decision ≠ call.decision || row.amount ≠ call.amount)
    s!"ICP fatigue reservation replay mismatch for turn {call.correlation.turnId.value}"

/-- The `root_spend` query: `SUM(amount) FILTER (WHERE decision = …)`. -/
def rootSpend (db : ReservationDb) (decision : ReservationDecision) (localId peerId rootId : Uuid)
    (excludedTurnId : Option Uuid) : Nat :=
  ((db.rows.filter fun row => row.ofRoot localId peerId rootId && row.outcome.counted
    && excludedTurnId.all (row.turnId ≠ ·) && row.decision = decision).map (·.amount)).foldr
      (· + ·) 0

/-- The rest of the pressure query, after the checks that its numbers are finite. -/
structure PressureRow where
  directionalChargedPressure   : Rat
  contributingReservationCount : Nat

/-- The pressure query, and what it throws. -/
abbrev PressureQuery := ReservationDb → ReserveCall → Option Uuid → Except String PressureRow

inductive ReserveResultOutcome where
  | reserved | replayed | exhausted
deriving DecidableEq, Repr

structure ReservationResult where
  outcome                      : ReserveResultOutcome
  reservationOutcome           : Option ReservationOutcome
  normalSpentBefore            : Int
  overchargeSpentBefore        : Nat
  relationshipPressure         : Rat
  rootNormalSpent              : Nat
  rootOverchargeSpent          : Nat
  contributingReservationCount : Nat
deriving DecidableEq

def snapshotResult (query : PressureQuery) (db : ReservationDb) (call : ReserveCall)
    (outcome : ReserveResultOutcome) (excludedTurnId : Option Uuid) :
    Except String ReservationResult := do
  let pressure ← query db call excludedTurnId
  let c := call.correlation
  let spent := fun decision =>
    rootSpend db decision c.localCompanionId c.peerCompanionId c.rootInitiationId excludedTurnId
  return { outcome, reservationOutcome := none
           normalSpentBefore := max (spent .charged : Int) ⌈pressure.directionalChargedPressure⌉
           overchargeSpentBefore := spent .overcharge
           relationshipPressure := pressure.directionalChargedPressure
           rootNormalSpent := spent .charged
           rootOverchargeSpent := spent .overcharge
           contributingReservationCount := pressure.contributingReservationCount }

/-- A pending turn of the pair that no session owns: `pg_try_advisory_xact_lock` gets its lock. -/
def orphaned (call : ReserveCall) (leased : Uuid → Bool) (row : TurnReservation) : Bool :=
  row.ofPair call.correlation.localCompanionId call.correlation.peerCompanionId
    && row.outcome = .pending && row.turnId ≠ call.correlation.turnId && !leased row.turnId

def reclaimOrphans (call : ReserveCall) (leased : Uuid → Bool) (db : ReservationDb) :
    ReservationDb :=
  { db with
    rows :=
      Table.update (orphaned call leased)
        (fun row => { row with outcome := .failed, finalizedAtMs := some call.timestampMs })
        db.rows }

/-- The episode the insert selects from. -/
def bindsEpisode (call : ReserveCall) (episode : ConversationEpisode) : Bool :=
  episode.conversationId = call.correlation.conversationId
    && episode.rootInitiationId = call.correlation.rootInitiationId
    && episode.channelId = call.correlation.channelId
    && episode.participantCompanionIds.contains call.correlation.localCompanionId
    && episode.participantCompanionIds.contains call.correlation.peerCompanionId
    && episode.isLive

def newReservationRow (call : ReserveCall) : TurnReservation where
  correlation := call.correlation
  decision := call.decision
  amount := call.amount
  reservedAtMs := call.timestampMs
  finalizedAtMs := none
  outcome := .pending

/-- `ON CONFLICT (turn_id) DO UPDATE … WHERE outcome = 'failed'`. -/
def reopen (call : ReserveCall) (row : TurnReservation) : TurnReservation :=
  { row with reservedAtMs := call.timestampMs, finalizedAtMs := none, outcome := .pending }

def insertReservation (call : ReserveCall) (existing : Option TurnReservation)
    (db : ReservationDb) : Except String (ReservationDb × TurnReservation) :=
  if !db.episodes.any (bindsEpisode call) then
    .error "ICP fatigue reservation episode/channel/participant binding mismatch"
  else
    match existing with
    | none => .ok ({ db with rows := db.rows ++ [newReservationRow call] }, newReservationRow call)
    | some row =>
      .ok ({ db with
        rows :=
          Table.update (fun r => r.turnId = row.turnId && r.outcome = .failed) (reopen call)
            db.rows }, reopen call row)

def exhausted (call : ReserveCall) (snapshot : ReservationResult) : Bool :=
  match call.decision with
  | .charged => (call.hardLimit : Int) ≤ snapshot.normalSpentBefore
  | .overcharge => call.overchargeLimit ≤ snapshot.overchargeSpentBefore

/-- The result and `keepLease`. -/
def reserveBody (query : PressureQuery) (leased : Uuid → Bool) (call : ReserveCall)
    (db : ReservationDb) : Except String (ReservationDb × (ReservationResult × Bool)) :=
  let existing := db.rows.find? (·.turnId = call.correlation.turnId)
  match existing.filter (·.outcome ≠ .failed) with
  | some row => do
    assertReplayMatches row call
    let snapshot ← snapshotResult query db call .replayed (some call.correlation.turnId)
    return (db, { snapshot with reservationOutcome := some row.outcome }, row.outcome = .pending)
  | none => do
    let reclaimed := reclaimOrphans call leased db
    let snapshot ← snapshotResult query reclaimed call .reserved none
    if exhausted call snapshot then
      return (reclaimed, { snapshot with outcome := .exhausted }, false)
    else
      let inserted ← insertReservation call existing reclaimed
      assertReplayMatches inserted.2 call
      return (inserted.1, { snapshot with reservationOutcome := some .pending }, true)

/-! ## `prepareDelivery` and `finalize` -/

/-- What the store compares of the turn's fatigue metadata. -/
structure FatigueBinding where
  localCompanionId : Uuid
  peerContactId    : String
  channelId        : String
  spendDecision    : String
  amount           : Rat
  rootInitiationId : Option Uuid
  recordedEvent    : Option (String × Rat)
deriving DecidableEq

/-- The outcomes that `finalize` may be asked for. -/
inductive FinalOutcome where
  | delivered | noReply | failed
deriving DecidableEq, Repr

def FinalOutcome.outcome : FinalOutcome → ReservationOutcome
  | .delivered => .delivered
  | .noReply => .noReply
  | .failed => .failed

def assertFinalizationMatches (row : TurnReservation) (c : IcpConversationCorrelation)
    (fatigue : FatigueBinding) (outcome : FinalOutcome) : Except String Unit :=
  throwIf (row.correlation.conversationId ≠ c.conversationId
      || row.correlation.rootInitiationId ≠ c.rootInitiationId
      || row.correlation.localCompanionId ≠ c.localCompanionId
      || row.correlation.peerCompanionId ≠ c.peerCompanionId
      || row.correlation.peerContactId ≠ c.peerContactId
      || row.correlation.channelId ≠ c.channelId
      || row.decision.text ≠ fatigue.spendDecision || (row.amount : Rat) ≠ fatigue.amount
      || fatigue.rootInitiationId ≠ some c.rootInitiationId
      || (outcome ≠ .failed
        && fatigue.recordedEvent ≠ some (fatigue.spendDecision, fatigue.amount)))
    s!"ICP fatigue reservation finalization metadata binding mismatch for turn {c.turnId.value}"

structure PrepareInput where
  correlation      : IcpConversationCorrelation
  fatigue          : FatigueBinding
  recoveredOutcome : Option FinalOutcome
deriving DecidableEq

/-- `lease`: the process had the lease of the turn in its map when the call began. -/
def prepareDeliveryBody (lease : Bool) (input : PrepareInput) (db : ReservationDb) :
    Except String (ReservationDb × Unit) :=
  let c := input.correlation
  let conflict : String := s!"ICP fatigue delivery preparation conflict for turn {c.turnId.value}"
  match db.rows.find? (·.turnId = c.turnId) with
  | none => .error conflict
  | some row =>
    match row.outcome with
    | .delivered | .noReply =>
      match input.recoveredOutcome with
      | some recovered =>
        if recovered.outcome ≠ row.outcome then
          .error s!"ICP fatigue delivery terminal replay conflict for turn {c.turnId.value}"
        else do
          assertFinalizationMatches row c input.fatigue recovered
          return (db, ())
      | none => .error s!"ICP fatigue delivery terminal replay conflict for turn {c.turnId.value}"
    | .failed => .error conflict
    | .delivering => do
      assertFinalizationMatches row c input.fatigue .delivered
      return (db, ())
    | .pending =>
      if !lease then
        .error (s!"ICP fatigue delivery preparation requires the live reservation lease " ++
          s!"for turn {c.turnId.value}")
      else do
        assertFinalizationMatches row c input.fatigue .delivered
        return ({ db with
          rows :=
            Table.update (fun r => r.turnId = c.turnId && r.outcome = .pending)
              (fun r => { r with outcome := .delivering }) db.rows }, ())

structure FinalizeInput where
  correlation   : IcpConversationCorrelation
  outcome       : FinalOutcome
  finalizedAtMs : JsNumber
  fatigue       : FatigueBinding
deriving DecidableEq

/-- The checks before the lease is looked at. -/
def finalizeTime (input : FinalizeInput) : Except String Nat := do
  let finalizedAtMs ← requireTimestamp input.finalizedAtMs "finalizedAtMs"
  throwIf (input.fatigue.localCompanionId ≠ input.correlation.localCompanionId
      || input.fatigue.peerContactId ≠ input.correlation.peerContactId
      || input.fatigue.channelId ≠ input.correlation.channelId)
    "ICP fatigue reservation finalization metadata binding mismatch"
  return finalizedAtMs

/-- The row an outcome is reached from. -/
def FinalOutcome.source : FinalOutcome → ReservationOutcome
  | .failed => .pending
  | _ => .delivering

def finalizeBody (input : FinalizeInput) (finalizedAtMs : Nat) (db : ReservationDb) :
    Except String (ReservationDb × Unit) :=
  let c := input.correlation
  let set := fun r : TurnReservation =>
    { r with outcome := input.outcome.outcome, finalizedAtMs := some finalizedAtMs }
  match db.rows.find? (fun r => r.turnId = c.turnId && r.outcome = input.outcome.source) with
  | some row => do
    assertFinalizationMatches (set row) c input.fatigue input.outcome
    return ({ db with
      rows := Table.update (fun r => r.turnId = c.turnId && r.outcome = input.outcome.source) set
        db.rows }, ())
  | none => do
    -- a replay of the same finalization
    let row := db.rows.find? (·.turnId = c.turnId)
    row.elim (.ok ()) fun r => assertFinalizationMatches r c input.fatigue input.outcome
    throwIf (row.all (·.outcome ≠ input.outcome.outcome))
      s!"ICP fatigue reservation finalization conflict for turn {c.turnId.value}"
    return (db, ())

/-! ## Calls -/

inductive ReservationCall where
  | reserve (input : ReserveInput)
  | prepareDelivery (input : PrepareInput)
  | handoff (correlation : IcpConversationCorrelation)
  | finalize (input : FinalizeInput)
deriving DecidableEq

/-- What a call waits for. -/
inductive CallStage where
  /-- `SELECT 1` on the session of the lease the process already has. -/
  | pingOwn (call : ReserveCall)
  /-- A new session and `pg_try_advisory_lock`. -/
  | connect (call : ReserveCall)
  | reserve (call : ReserveCall) (created : Bool)
  /-- `SELECT 1` on the lease before the transaction of a preparation or a failure. -/
  | pingPrepare (input : PrepareInput)
  | prepare (input : PrepareInput) (lease : Bool)
  | pingFinalize (input : FinalizeInput) (finalizedAtMs : Nat)
  | finalize (input : FinalizeInput) (finalizedAtMs : Nat)
  /-- `releaseLease`, and then the call ends as it says. -/
  | release (turnId : Uuid) (result : Except String (Option ReservationResult))
  | returned (result : Except String (Option ReservationResult))
deriving DecidableEq

/-- An entry of a process's `leases` map: the turn and the session. -/
structure LeaseEntry where
  process : Nat
  turnId  : Uuid
  session : Nat
deriving DecidableEq

/-- An advisory lock a live session holds. -/
structure TurnLock where
  turnId  : Uuid
  session : Nat
deriving DecidableEq

structure PendingCall where
  process : Nat
  stage   : CallStage
deriving DecidableEq

structure IcpWorld where
  db          : ReservationDb := {}
  leases      : List LeaseEntry := []
  locks       : List TurnLock := []
  calls       : List PendingCall := []
  nextSession : Nat := 0

inductive StoreAnswer where
  | done
  /-- The statement was lost; it may have been carried out. -/
  | lost (committed : Bool)
deriving DecidableEq, Repr

inductive IcpAction where
  | start (process : Nat) (call : ReservationCall)
  | advance (i : Nat) (answer : StoreAnswer)
  /-- A session dies, and with it its lock. -/
  | sessionLost (session : Nat)
  /-- A process dies with its calls, its map and its sessions. -/
  | crash (process : Nat)
  /-- The episodes change. -/
  | setEpisodes (episodes : List ConversationEpisode)

namespace IcpWorld

/-- `this.leases.get(turnId)`. -/
def leaseOf (w : IcpWorld) (process : Nat) (turnId : Uuid) : Option LeaseEntry :=
  w.leases.find? fun entry => entry.process = process && entry.turnId = turnId

/-- Some session holds the lock of the turn. -/
def leased (w : IcpWorld) (turnId : Uuid) : Bool := w.locks.any (·.turnId = turnId)

/-- The session still answers. -/
def alive (w : IcpWorld) (entry : LeaseEntry) : Bool :=
  w.locks.any fun lock => lock.turnId = entry.turnId && lock.session = entry.session

def beginCall (w : IcpWorld) (process : Nat) : ReservationCall → CallStage
  | .reserve input =>
    match reserveCall input with
    | .error message => .returned (.error message)
    | .ok call =>
      if (w.leaseOf process call.correlation.turnId).isSome then .pingOwn call else .connect call
  | .prepareDelivery input =>
    if (w.leaseOf process input.correlation.turnId).isSome then .pingPrepare input
    else .prepare input false
  | .handoff correlation => .release correlation.turnId (.ok none)
  | .finalize input =>
    match finalizeTime input with
    | .error message => .returned (.error message)
    | .ok finalizedAtMs =>
      if input.outcome ≠ .failed then .finalize input finalizedAtMs
      else if (w.leaseOf process input.correlation.turnId).isSome then
        .pingFinalize input finalizedAtMs
      else
        .returned (.error (s!"ICP fatigue failure finalization requires the live reservation " ++
          s!"lease for turn {input.correlation.turnId.value}"))

/-- `this.leases.delete(turnId)`. -/
def forget (w : IcpWorld) (process : Nat) (turnId : Uuid) : IcpWorld :=
  { w with leases := w.leases.filter fun e => !(e.process = process && e.turnId = turnId) }

/-- The session's lock is gone. -/
def unlock (w : IcpWorld) (session : Nat) : IcpWorld :=
  { w with locks := w.locks.filter (·.session ≠ session) }

/-- `releaseLease`: the map entry goes at once, the lock when the unlock is carried out. -/
def releaseLease (w : IcpWorld) (process : Nat) (turnId : Uuid) (unlocked : Bool) : IcpWorld :=
  match w.leaseOf process turnId with
  | none => w
  | some entry =>
    let forgotten := w.forget process turnId
    if unlocked then forgotten.unlock entry.session else forgotten

/-- `pg_try_advisory_lock` on a new session, and the map entry. -/
def takeLease (w : IcpWorld) (process : Nat) (turnId : Uuid) : IcpWorld :=
  { w.forget process turnId with
    leases := { process, turnId, session := w.nextSession } :: (w.forget process turnId).leases
    locks := { turnId, session := w.nextSession } :: w.locks
    nextSession := w.nextSession + 1 }

def lostMessage : String := "connection lost"

/-- The transaction of a call: it commits, or it leaves the rows as they were. -/
def transact {β : Type} (w : IcpWorld) (body : ReservationDb → Except String (ReservationDb × β)) :
    IcpWorld × Except String β :=
  let result := Table.transaction ReservationDb.constraints body w.db
  ({ w with db := result.1 }, result.2)

/-- How `reserve` goes on after its transaction. -/
def afterReserve (call : ReserveCall) (created : Bool) :
    Except String (ReservationResult × Bool) → CallStage
  | .ok (result, true) => .returned (.ok (some result))
  | .ok (result, false) => .release call.correlation.turnId (.ok (some result))
  | .error message =>
    if created then .release call.correlation.turnId (.error message)
    else .returned (.error message)

/-- `prepareDelivery` and `finalize` release the lease only when they came through. -/
def afterTransaction (turnId : Uuid) : Except String Unit → CallStage
  | .ok _ => .release turnId (.ok none)
  | .error message => .returned (.error message)

/-- One answer to a call of the process: the world and the stage after it. -/
def advanceStage (query : PressureQuery) (w : IcpWorld) (process : Nat) :
    CallStage → StoreAnswer → IcpWorld × CallStage
  | .pingOwn call, answer =>
    let turnId := call.correlation.turnId
    if answer = .done && (w.leaseOf process turnId).any w.alive then (w, .reserve call false)
    else
      -- the ping failed: `releaseLease`, whose unlock may fail in turn
      let unlocked := answer = .lost true
      (w.releaseLease process turnId unlocked,
        if unlocked then .connect call else .returned (.error lostMessage))
  | .connect call, .done =>
    let turnId := call.correlation.turnId
    if w.leased turnId then
      (w, .returned (.error
        s!"ICP fatigue reservation turn {turnId.value} is already active in another process"))
    else (w.takeLease process turnId, .reserve call true)
  | .connect _, .lost _ =>
    (w, .returned (.error "ICP fatigue reservation lease capacity unavailable"))
  | .reserve call created, .done =>
    let result := w.transact (reserveBody query w.leased call)
    (result.1, afterReserve call created result.2)
  | .reserve call created, .lost committed =>
    (if committed then (w.transact (reserveBody query w.leased call)).1 else w,
      afterReserve call created (.error lostMessage))
  | .pingPrepare input, .done =>
    if (w.leaseOf process input.correlation.turnId).any w.alive then (w, .prepare input true)
    else (w, .returned (.error lostMessage))
  | .pingPrepare _, .lost _ => (w, .returned (.error lostMessage))
  | .prepare input lease, .done =>
    let result := w.transact (prepareDeliveryBody lease input)
    (result.1, afterTransaction input.correlation.turnId result.2)
  | .prepare input lease, .lost committed =>
    (if committed then (w.transact (prepareDeliveryBody lease input)).1 else w,
      .returned (.error lostMessage))
  | .pingFinalize input finalizedAtMs, .done =>
    if (w.leaseOf process input.correlation.turnId).any w.alive then
      (w, .finalize input finalizedAtMs)
    else (w, .returned (.error lostMessage))
  | .pingFinalize _ _, .lost _ => (w, .returned (.error lostMessage))
  | .finalize input finalizedAtMs, .done =>
    let result := w.transact (finalizeBody input finalizedAtMs)
    (result.1, afterTransaction input.correlation.turnId result.2)
  | .finalize input finalizedAtMs, .lost committed =>
    (if committed then (w.transact (finalizeBody input finalizedAtMs)).1 else w,
      .returned (.error lostMessage))
  | .release turnId result, .done => (w.releaseLease process turnId true, .returned result)
  | .release turnId _, .lost committed =>
    (w.releaseLease process turnId committed, .returned (.error lostMessage))
  | .returned result, _ => (w, .returned result)

def act (query : PressureQuery) (w : IcpWorld) : IcpAction → IcpWorld
  | .start process call =>
    { w with calls := w.calls ++ [{ process, stage := w.beginCall process call }] }
  | .advance i answer =>
    match w.calls[i]? with
    | none => w
    | some pending =>
      let result := advanceStage query w pending.process pending.stage answer
      { result.1 with calls := w.calls.set i { pending with stage := result.2 } }
  | .sessionLost session => w.unlock session
  | .crash process =>
    { w with
      calls := w.calls.filter (·.process ≠ process)
      leases := w.leases.filter (·.process ≠ process)
      locks := w.locks.filter fun lock =>
        !w.leases.any fun e => e.process = process && e.session = lock.session }
  | .setEpisodes episodes => { w with db := { w.db with episodes } }

end IcpWorld

/-- The limits every reserve is called with. -/
structure ReservationLimits where
  hardLimit       : Nat
  overchargeLimit : Nat
deriving DecidableEq

/-- Every reserve is for one slot and with the same limits. -/
def IcpAction.Enabled (limits : ReservationLimits) : IcpAction → Prop
  | .start _ (.reserve input) => input.amount = .finite 1 ∧
      input.hardLimit = .finite limits.hardLimit ∧
      input.overchargeLimit = .finite limits.overchargeLimit
  | _ => True

/-- Any interleaving of the calls of any number of processes. -/
def icpSystem (query : PressureQuery) (limits : ReservationLimits) : System IcpWorld where
  init := {}
  step w w' := ∃ action : IcpAction, action.Enabled limits ∧ w' = w.act query action

end Psfn.Fatigue
