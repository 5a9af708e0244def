import Mathlib.Data.List.Infix
import Psfn.Arbiter.Store
import Psfn.Lib.Transition

/-!
# The speaking arbiter — the egress phase

`core/agent/arbiter/egress-lease-phase.ts` and the breaker it consults,
`core/agent/fatigue/room-episode-circuit-breaker.ts`.

`grantReply` is a chain of awaits, and any number of them run at once, in as many processes as
there are companions. A run is its arguments and the `Stage` it waits in; `advance` takes it from
one answer to the next. What it asks is either the store, whose answer is computed from the
database at that moment, or code outside: the pressure resolver, the social pot and the sender,
which may answer anything. A store call may also be lost, before or after its commit, and a
process may stop.

`admissions`, `recoveries` and `reports` record what happened; no step reads them.
-/

namespace Psfn.Arbiter

open Psfn.Lib

/-! ## The room breaker -/

structure RoomEpisodeCircuitBreakerConfig where
  tripThreshold  : JsNumber
  resetThreshold : JsNumber
deriving DecidableEq

/-- A configuration that has been accepted. -/
structure BreakerThresholds where
  tripThreshold  : Rat
  resetThreshold : Rat
deriving DecidableEq

def assertPositiveFinite (value : JsNumber) (field : String) : Except String Rat :=
  match value with
  | .finite q =>
    if 0 < q then .ok q
    else .error s!"roomEpisodeCircuitBreaker.{field} must be a finite number > 0"
  | _ => .error s!"roomEpisodeCircuitBreaker.{field} must be a finite number > 0"

def assertRoomEpisodeCircuitBreakerConfig (config : RoomEpisodeCircuitBreakerConfig)
    (wrapUpThreshold : JsNumber) : Except String BreakerThresholds := do
  let tripThreshold ← assertPositiveFinite config.tripThreshold "tripThreshold"
  let resetThreshold ← assertPositiveFinite config.resetThreshold "resetThreshold"
  let wrapUp ← assertPositiveFinite wrapUpThreshold "wrapUpThreshold"
  throwIf (tripThreshold ≤ wrapUp)
    "roomEpisodeCircuitBreaker.tripThreshold must be > roomEpisodePressure.wrapUpThreshold"
  throwIf (tripThreshold ≤ resetThreshold)
    "roomEpisodeCircuitBreaker.resetThreshold must be < roomEpisodeCircuitBreaker.tripThreshold"
  return { tripThreshold, resetThreshold }

/-- The transition; once open, the breaker holds through the band between the thresholds. -/
def resolveBreaker (pressure : Rat) (thresholds : BreakerThresholds) :
    RoomEpisodeBreakerState → RoomEpisodeBreakerState
  | .closed => if thresholds.tripThreshold ≤ pressure then .opened else .closed
  | .opened => if pressure ≤ thresholds.resetThreshold then .halfOpen else .opened
  | .halfOpen =>
    if thresholds.tripThreshold ≤ pressure then .opened
    else if pressure ≤ thresholds.resetThreshold then .closed
    else .halfOpen

def resolveRoomEpisodeCircuitBreakerState (pressure : Rat) (priorState : RoomEpisodeBreakerState)
    (config : RoomEpisodeCircuitBreakerConfig) (wrapUpThreshold : JsNumber) :
    Except String RoomEpisodeBreakerState := do
  let thresholds ← assertRoomEpisodeCircuitBreakerConfig config wrapUpThreshold
  throwIf (pressure < 0) "roomEpisodeCircuitBreaker pressure must be a finite number >= 0"
  return resolveBreaker pressure thresholds priorState

inductive BreakerTransition where
  | closedToOpen | halfOpenToOpen
deriving DecidableEq, Repr

/-- `RoomEpisodeCircuitBreakerFiring`. -/
structure BreakerFiring where
  protectedCondition     : String := "room_episode_machine_flood"
  attribution            : String := "system_circuit_breaker"
  channelId              : String
  transition             : BreakerTransition
  actionSuppressed       : String := "autonomous_speaking_lease"
  pressure               : Rat
  tripThreshold          : Rat
  resetThreshold         : Rat
  wrapUpThreshold        : JsNumber
  contributingEventCount : Nat
  firedAtMs              : Rat
deriving DecidableEq

/-- `RoomEpisodePressureAssessment`, as far as it is read. -/
structure PressureAssessment where
  channelId              : String
  pressure               : JsNumber
  leaseThresholdBias     : Rat
  contributingEventCount : Nat
deriving DecidableEq

/-- `RoomEpisodeCircuitBreakerAssessment`. -/
structure BreakerAssessment where
  channelId     : String
  priorState    : RoomEpisodeBreakerState
  state         : RoomEpisodeBreakerState
  suppressed    : Bool
  probeAllowed  : Bool
  firing        : Option BreakerFiring
  evaluatedAtMs : Rat
deriving DecidableEq

/-- The pressure has been checked to be a finite number that is not negative. -/
def assessRoomEpisodeCircuitBreaker (assessed : PressureAssessment) (pressure : Rat)
    (priorState : RoomEpisodeBreakerState) (config : RoomEpisodeCircuitBreakerConfig)
    (wrapUpThreshold : JsNumber) (nowMs : Rat) : Except String BreakerAssessment := do
  let thresholds ← assertRoomEpisodeCircuitBreakerConfig config wrapUpThreshold
  let channelId := JsString.trim assessed.channelId
  throwIf (channelId = "") "roomEpisodeCircuitBreaker.channelId is required"
  throwIf (nowMs < 0) "roomEpisodeCircuitBreaker.nowMs must be a finite number >= 0"
  let state ← resolveRoomEpisodeCircuitBreakerState pressure priorState config wrapUpThreshold
  return {
    channelId, priorState, state
    suppressed := state = .opened
    probeAllowed := state = .halfOpen
    firing :=
      if state = .opened && priorState ≠ .opened then
        some { channelId
               transition := if priorState = .halfOpen then .halfOpenToOpen else .closedToOpen
               pressure
               tripThreshold := thresholds.tripThreshold
               resetThreshold := thresholds.resetThreshold
               wrapUpThreshold
               contributingEventCount := assessed.contributingEventCount
               firedAtMs := nowMs }
      else none
    evaluatedAtMs := nowMs }

/-- The pressure has decayed to the reset threshold. -/
def hasRecovered (pressure : Rat) (config : RoomEpisodeCircuitBreakerConfig)
    (wrapUpThreshold : JsNumber) : Bool :=
  match assertRoomEpisodeCircuitBreakerConfig config wrapUpThreshold with
  | .ok thresholds => pressure ≤ thresholds.resetThreshold
  | .error _ => false

/-! ## `grantReply` -/

inductive EgressMode where
  | shadow | on
deriving DecidableEq, Repr

/-- The configuration of one companion's phase; its constructor has checked the numbers. -/
structure EgressLeasePhaseConfig where
  mode                      : EgressMode
  leaseTtlMs                : Rat
  minReplyConfidence        : Rat
  roomEpisodeCircuitBreaker : RoomEpisodeCircuitBreakerConfig
  wrapUpThreshold           : JsNumber
  replyPressureUnits        : Rat
deriving DecidableEq

inductive TriggerKind where
  | inboundRoomMessage
  | endogenousRoomCandidate (companionId : String)
deriving DecidableEq, Repr

structure EgressReplyTrigger where
  kind          : TriggerKind
  channelId     : String
  sourceEventId : String
  occurredAtMs  : JsNumber
deriving DecidableEq

/-- The companion's phase and the arguments of one `grantReply`. -/
structure GrantCall where
  companionId : Uuid
  config      : EgressLeasePhaseConfig
  reservation : ReservationRow
  confidence  : Rat
  trigger     : EgressReplyTrigger
  nowMs       : JsNumber
deriving DecidableEq

inductive EgressLeaseErrorStage where
  | trigger | roomPressure | breaker | fairness | socialPot | acquire | complete
deriving DecidableEq, Repr

inductive EgressLeaseOutcome where
  | delivered | deliveryFailed | shadowed | reservationNotReservable | breakerSuppressed
  | belowConfidenceBar | yieldedSpeakLeast | drawRefused | leaseDeclined | gateError
deriving DecidableEq, Repr

inductive SocialPotEnforcementOutcome where
  | drawn | capped | insufficient | uncharged
deriving DecidableEq, Repr

inductive RefundOutcome where
  | refunded | refundFailed
deriving DecidableEq, Repr

structure EgressLeaseDecision where
  outcome          : EgressLeaseOutcome
  lease            : Option LeaseRow := none
  breakerState     : Option RoomEpisodeBreakerState := none
  breakerFiring    : Option BreakerFiring := none
  speakLeastWinner : Option Uuid := none
  drawOutcome      : Option SocialPotEnforcementOutcome := none
  declineReason    : Option DeclineReason := none
  refundOutcome    : Option RefundOutcome := none
  errorStage       : Option EgressLeaseErrorStage := none
  deliveryDetail   : Option String := none
deriving DecidableEq

def gateError (stage : EgressLeaseErrorStage) : EgressLeaseDecision :=
  { outcome := .gateError, errorStage := some stage }

/-- What a run waits for. -/
inductive Stage where
  | resolvePressure
  | readBreaker (assessed : PressureAssessment) (pressure : Rat)
  | persistBreaker (assessed : PressureAssessment) (pressure : Rat) (assessment : BreakerAssessment)
  /-- `releaseSilently`, and then the decision is returned. -/
  | releaseSilently (decision : EgressLeaseDecision)
  /-- The two reads are made together; each is here once it has come back. -/
  | fairness (breakerState : RoomEpisodeBreakerState) (reservers : Option (List Uuid))
      (participants : Option (List ParticipationRow))
  | drawPot (breakerState : RoomEpisodeBreakerState)
  | acquire (breakerState : RoomEpisodeBreakerState) (drawnUnits : Rat)
  /-- `refundDraw`; the reservation is released after it only when the lease was declined. -/
  | refundDraw (decision : EgressLeaseDecision) (drawnUnits : Rat) (declined : Bool)
  /-- `releaseSilently` after the lease was declined, where what it throws is caught. -/
  | releaseDeclined (decision : EgressLeaseDecision) (drawnUnits : Rat)
  | deliver (breakerState : RoomEpisodeBreakerState) (lease : LeaseRow)
  | complete (breakerState : RoomEpisodeBreakerState) (lease : LeaseRow)
      (completion : SpeakingEgressLeaseCompletion) (detail : Option String) (threw : Bool)
  | returned (decision : EgressLeaseDecision)
  /-- `grantReply` rejected: the release or the completion after a failed delivery threw. -/
  | rejected
  /-- The process stopped. -/
  | stopped
deriving DecidableEq

/-- What comes back. -/
inductive Answer where
  /-- The resolver's assessment, or that it threw. -/
  | pressure (assessed : Option PressureAssessment)
  /-- The store carried out the call and answered. -/
  | store
  /-- The call was lost: it threw, and may have been committed all the same. -/
  | lost (committed : Bool)
  | readReservers
  | readEpisode
  | draw (decision : Option (SocialPotEnforcementOutcome × Rat))
  /-- The store carried out the acquire under the id that was generated. -/
  | acquired (leaseId : Uuid)
  | acquireLost (leaseId : Uuid) (committed : Bool)
  | refund (credited : Bool)
  /-- The sender's outcome (whether it delivered) with its detail, or the name of what it threw. -/
  | delivery (outcome : Except String (Bool × Option String))
deriving DecidableEq

/-- What a step of a run shows: that the breaker admitted it, or that its delivery was reported. -/
inductive PhaseEvent where
  | admitted (probe : Bool) (recovered : Bool)
  | delivered (lease : LeaseRow)
deriving DecidableEq

/-- `assertFiniteTimestamp` and `assertNonNegativeFinite`. -/
def finiteNonNegative : JsNumber → Option Rat
  | .finite q => if 0 ≤ q then some q else none
  | _ => none

def assertNonEmpty (value : String) : Bool := JsString.trim value ≠ ""

/-- An endogenous candidate must be the companion's own. -/
def belongsToAnother (call : GrantCall) : Bool :=
  match call.trigger.kind with
  | .endogenousRoomCandidate companionId => companionId ≠ call.companionId.value
  | .inboundRoomMessage => false

/-- The checks before the first await. -/
def beginGrant (call : GrantCall) : Stage :=
  if (finiteNonNegative call.nowMs).isNone || !assertNonEmpty call.reservation.channelId.value
      || !assertNonEmpty call.reservation.triggerEventId.value then
    .returned (gateError .roomPressure)
  else if !assertNonEmpty call.trigger.channelId || !assertNonEmpty call.trigger.sourceEventId
      || (finiteNonNegative call.trigger.occurredAtMs).isNone
      || call.trigger.channelId ≠ call.reservation.channelId.value
      || call.trigger.sourceEventId ≠ call.reservation.triggerEventId.value
      || belongsToAnother call then
    .returned (gateError .trigger)
  else if call.reservation.status ≠ .reserved then
    .returned { outcome := .reservationNotReservable }
  else .resolvePressure

/-- `a.lastSpokeAtMs !== b.lastSpokeAtMs` and so on: never spoken, then least recent, then the
lowest count, then the id. -/
def speaksBefore (participants : List ParticipationRow) (a b : Uuid) : Bool :=
  let statOf := fun companionId => participants.find? fun p => p.companionId = companionId
  let last := fun companionId => (statOf companionId).bind (·.lastSpokeAtMs)
  let count := fun companionId => (statOf companionId).elim 0 (·.speakCount)
  if last a ≠ last b then
    match last a, last b with
    | none, _ => true
    | some _, none => false
    | some s, some t => s ≤ t
  else if count a ≠ count b then count a ≤ count b
  else decide (a.value ≤ b.value)

def selectSpeakLeastWinner (participants : List ParticipationRow) (contenders : List Uuid) :
    Option Uuid :=
  (contenders.eraseDups.insertionSort fun a b => speaksBefore participants a b = true).head?

/-- `/already terminal|not found/`. -/
def isBenignReservationTerminalError (message : String) : Bool :=
  decide ("already terminal".toList <:+: message.toList)
    || decide ("not found".toList <:+: message.toList)

/-- Admit only when closed, or on the fresh transition to half-open. -/
def breakerAdmits (assessment : BreakerAssessment) : Bool :=
  assessment.state = .closed
    || (assessment.priorState = .opened && assessment.state = .halfOpen)

/-- The stage after the breaker has been persisted. -/
def afterBreaker (call : GrantCall) (assessed : PressureAssessment)
    (assessment : BreakerAssessment) : Stage :=
  if !breakerAdmits assessment then
    .releaseSilently { outcome := .breakerSuppressed, breakerState := some assessment.state
                       breakerFiring := assessment.firing }
  else if call.confidence < call.config.minReplyConfidence + assessed.leaseThresholdBias then
    .releaseSilently { outcome := .belowConfidenceBar, breakerState := some assessment.state }
  else .fairness assessment.state none none

/-- Both reads of the fairness step have come back, or one has not yet. -/
def afterFairness (call : GrantCall) (breakerState : RoomEpisodeBreakerState)
    (reservers : Option (List Uuid)) (participants : Option (List ParticipationRow)) : Stage :=
  match reservers, participants with
  | some reservers, some participants =>
    let contenders :=
      if call.companionId ∈ reservers then reservers else reservers ++ [call.companionId]
    let winner := selectSpeakLeastWinner participants contenders
    if winner.isSome && winner ≠ some call.companionId then
      .releaseSilently { outcome := .yieldedSpeakLeast, breakerState := some breakerState
                         speakLeastWinner := winner }
    else if call.config.mode = .shadow then
      .releaseSilently { outcome := .shadowed, breakerState := some breakerState }
    else .drawPot breakerState
  | _, _ => .fairness breakerState reservers participants

def afterDraw (breakerState : RoomEpisodeBreakerState) :
    Option (SocialPotEnforcementOutcome × Rat) → Stage
  | none => .returned (gateError .socialPot)
  | some (.drawn, units) => .acquire breakerState units
  | some (refused, _) =>
    .releaseSilently { outcome := .drawRefused, breakerState := some breakerState
                       drawOutcome := some refused }

/-- `refundDraw` makes no call when nothing was drawn. -/
def refundUnits (decision : EgressLeaseDecision) (drawnUnits : Rat) (declined : Bool) : Stage :=
  if 0 < drawnUnits then .refundDraw decision drawnUnits declined
  else if declined then .releaseDeclined decision drawnUnits
  else .returned decision

def acquireInput (call : GrantCall) (leaseId : Uuid) (drawnUnits : Rat) :
    AcquireEgressLeaseInput where
  leaseId := leaseId
  reservationId := call.reservation.reservationId
  channelId := call.reservation.channelId
  nowMs := call.nowMs
  expiresAtMs := (finiteNonNegative call.nowMs).elim .nan fun now =>
    .finite (now + call.config.leaseTtlMs)
  chargedUnits := some (.finite drawnUnits)

def afterAcquire (breakerState : RoomEpisodeBreakerState) (drawnUnits : Rat) :
    Except String AcquireEgressLeaseResult → Stage
  | .ok (.acquired lease) => .deliver breakerState lease
  | .ok (.declined _ declineReason) =>
    refundUnits { outcome := .leaseDeclined, breakerState := some breakerState
                  declineReason := some declineReason } drawnUnits true
  | .error _ => refundUnits (gateError .acquire) drawnUnits false

def afterDelivery (breakerState : RoomEpisodeBreakerState) (lease : LeaseRow) :
    Except String (Bool × Option String) → Stage
  | .ok (true, detail) => .complete breakerState lease .delivered detail false
  | .ok (false, detail) => .complete breakerState lease .failed detail false
  | .error name => .complete breakerState lease .failed (some name) true

def deliveryEvent (lease : LeaseRow) : Except String (Bool × Option String) → Option PhaseEvent
  | .ok (true, _) => some (.delivered lease)
  | _ => none

def completeInput (call : GrantCall) (lease : LeaseRow)
    (completion : SpeakingEgressLeaseCompletion) : CompleteEgressLeaseInput where
  leaseId := lease.leaseId
  channelId := lease.channelId
  fencingToken := .finite lease.fencingToken
  completion := completion
  nowMs := call.nowMs
  pressureDelta := some (.finite call.config.replyPressureUnits)

/-- The decision after the completion; a completion that throws is caught only when the sender
did not. -/
def afterComplete (breakerState : RoomEpisodeBreakerState) (lease : LeaseRow)
    (completion : SpeakingEgressLeaseCompletion) (detail : Option String) (threw persisted : Bool) :
    Stage :=
  if persisted then
    .returned { outcome := if completion = .delivered then .delivered else .deliveryFailed
                lease := some lease, breakerState := some breakerState, deliveryDetail := detail }
  else if threw then .rejected
  else
    .returned { gateError .complete with lease := some lease, breakerState := some breakerState }

def releaseInput (call : GrantCall) : ReleaseReservationInput where
  reservationId := call.reservation.reservationId
  channelId := call.reservation.channelId
  reason := .silence
  nowMs := call.nowMs

def afterRelease (decision : EgressLeaseDecision) : Except String ReservationRow → Stage
  | .ok _ => .returned decision
  | .error message =>
    if isBenignReservationTerminalError message then .returned decision else .rejected

/-- What the release throws after a declined lease ends where a failed acquire does. -/
def afterReleaseDeclined (decision : EgressLeaseDecision) (drawnUnits : Rat) :
    Except String ReservationRow → Stage
  | .ok _ => .returned decision
  | .error message =>
    if isBenignReservationTerminalError message then .returned decision
    else refundUnits (gateError .acquire) drawnUnits false

/-- A read whose call throws ends the run. -/
def afterBreakerRead (call : GrantCall) (assessed : PressureAssessment) (pressure : Rat)
    (priorState : RoomEpisodeBreakerState) : Stage :=
  let nowMs := (finiteNonNegative call.nowMs).getD 0
  match assessRoomEpisodeCircuitBreaker assessed pressure priorState
      call.config.roomEpisodeCircuitBreaker call.config.wrapUpThreshold nowMs with
  | .ok assessment => .persistBreaker assessed pressure assessment
  | .error _ => .returned (gateError .breaker)

/-- The event of an admission. -/
def admission (call : GrantCall) (pressure : Rat) (assessment : BreakerAssessment) :
    Option PhaseEvent :=
  if breakerAdmits assessment then
    some (.admitted (assessment.priorState = .opened && assessment.state = .halfOpen)
      (hasRecovered pressure call.config.roomEpisodeCircuitBreaker call.config.wrapUpThreshold))
  else none

/-- One answer: the database and the stage after it, and what it shows. -/
def advance (call : GrantCall) (db : Database) :
    Stage → Answer → Option (Database × Stage × Option PhaseEvent)
  | .resolvePressure, .pressure assessed =>
    match assessed.bind fun a => (finiteNonNegative a.pressure).map fun p => (a, p) with
    | some (a, p) => some (db, .readBreaker a p, none)
    | none => some (db, .returned (gateError .roomPressure), none)
  | .readBreaker assessed pressure, .store =>
    some (db, afterBreakerRead call assessed pressure
      (readRoomEpisodeBreakerState db call.reservation.channelId), none)
  | .readBreaker _ _, .lost _ => some (db, .returned (gateError .breaker), none)
  | .persistBreaker assessed pressure assessment, .store =>
    let persisted := persistRoomEpisodeBreakerState call.reservation.channelId assessment.state
      call.nowMs db
    match persisted.2 with
    | .ok _ => some (persisted.1, afterBreaker call assessed assessment,
        admission call pressure assessment)
    | .error _ => some (persisted.1, .returned (gateError .breaker), none)
  | .persistBreaker _ _ assessment, .lost committed =>
    let persisted := persistRoomEpisodeBreakerState call.reservation.channelId assessment.state
      call.nowMs db
    some (if committed then persisted.1 else db, .returned (gateError .breaker), none)
  | .releaseSilently decision, .store =>
    let released := releaseReservation (releaseInput call) db
    some (released.1, afterRelease decision released.2, none)
  | .releaseSilently _, .lost committed =>
    some (if committed then (releaseReservation (releaseInput call) db).1 else db, .rejected, none)
  | .releaseDeclined decision drawnUnits, .store =>
    let released := releaseReservation (releaseInput call) db
    some (released.1, afterReleaseDeclined decision drawnUnits released.2, none)
  | .releaseDeclined _ drawnUnits, .lost committed =>
    some (if committed then (releaseReservation (releaseInput call) db).1 else db,
      refundUnits (gateError .acquire) drawnUnits false, none)
  | .fairness breakerState none participants, .readReservers =>
    match listActiveReservers db call.reservation.channelId call.reservation.triggerEventId
        call.nowMs with
    | .ok reservers => some (db, afterFairness call breakerState (some reservers) participants, none)
    | .error _ => some (db, .returned (gateError .fairness), none)
  | .fairness breakerState reservers none, .readEpisode =>
    match readRoomEpisode db call.reservation.channelId with
    | .ok episode => some (db, afterFairness call breakerState reservers
        (some (episode.elim [] (·.participants))), none)
    | .error _ => some (db, .returned (gateError .fairness), none)
  | .fairness _ _ _, .lost _ => some (db, .returned (gateError .fairness), none)
  | .drawPot breakerState, .draw decision => some (db, afterDraw breakerState decision, none)
  | .acquire breakerState drawnUnits, .acquired leaseId =>
    let acquired := acquireEgressLease (acquireInput call leaseId drawnUnits) db
    some (acquired.1, afterAcquire breakerState drawnUnits acquired.2, none)
  | .acquire _ drawnUnits, .acquireLost leaseId committed =>
    let acquired := acquireEgressLease (acquireInput call leaseId drawnUnits) db
    some (if committed then acquired.1 else db, refundUnits (gateError .acquire) drawnUnits false,
      none)
  | .refundDraw decision drawnUnits declined, .refund credited =>
    let decision := { decision with
      refundOutcome := some (if credited then .refunded else .refundFailed) }
    some (db, if declined then .releaseDeclined decision drawnUnits else .returned decision, none)
  | .deliver breakerState lease, .delivery outcome =>
    some (db, afterDelivery breakerState lease outcome, deliveryEvent lease outcome)
  | .complete breakerState lease completion detail threw, .store =>
    let completed := completeEgressLease (completeInput call lease completion) db
    some (completed.1,
      afterComplete breakerState lease completion detail threw completed.2.isOk, none)
  | .complete breakerState lease completion detail threw, .lost committed =>
    let completed := completeEgressLease (completeInput call lease completion) db
    some (if committed then completed.1 else db,
      afterComplete breakerState lease completion detail threw false, none)
  | _, _ => none

/-! ## All runs together -/

structure Run where
  call  : GrantCall
  stage : Stage
deriving DecidableEq

/-- An evaluation the breaker admitted: the channel, whether as the probe, the position it found
persisted, whether the pressure it evaluated had decayed to the reset threshold, and how often
the channel's breaker had gone from open to half-open by then. -/
structure Admission where
  channelId : Identifier
  probe     : Bool
  found     : RoomEpisodeBreakerState
  recovered : Bool
  recovery  : Nat
deriving DecidableEq

/-- A `sender.deliver` that reported a delivered reply. -/
structure DeliveryReport where
  channelId      : Identifier
  triggerEventId : Identifier
  companionId    : Uuid
  leaseId        : Uuid
deriving DecidableEq

structure World where
  db         : Database := {}
  runs       : List Run := []
  admissions : List Admission := []
  recoveries : List Identifier := []
  reports    : List DeliveryReport := []

inductive Action where
  /-- `grantReply` is called. -/
  | start (call : GrantCall)
  | advance (i : Nat) (answer : Answer)
  /-- The process of a run stops. -/
  | stop (i : Nat)
  /-- A call of the store from elsewhere. -/
  | store (op : StoreOp)

/-- The calls that are made outside `grantReply` too. -/
def StoreOp.outsideGrant : StoreOp → Bool
  | .persistRoomEpisodeBreakerState .. | .acquireEgressLease .. | .completeEgressLease .. => false
  | _ => true

namespace World

/-- The breaker of the channel went from open to half-open. -/
def recoveredChannel (db db' : Database) (channelId : Identifier) : List Identifier :=
  if readRoomEpisodeBreakerState db channelId = .opened
      ∧ readRoomEpisodeBreakerState db' channelId = .halfOpen then [channelId]
  else []

def observe (w : World) (call : GrantCall) (db' : Database) : Option PhaseEvent → World
  | none => w
  | some (.admitted probe recovered) =>
    let channelId := call.reservation.channelId
    let recoveries := w.recoveries ++ recoveredChannel w.db db' channelId
    { w with
      admissions := w.admissions ++
        [{ channelId, probe, recovered
           found := readRoomEpisodeBreakerState w.db channelId
           recovery := recoveries.count channelId }] }
  | some (.delivered lease) =>
    { w with
      reports := w.reports ++
        [{ channelId := call.reservation.channelId
           triggerEventId := call.reservation.triggerEventId
           companionId := call.companionId, leaseId := lease.leaseId }] }

def act (w : World) : Action → World
  | .start call => { w with runs := w.runs ++ [{ call, stage := beginGrant call }] }
  | .advance i answer =>
    match w.runs[i]? with
    | none => w
    | some run =>
      match Arbiter.advance run.call w.db run.stage answer with
      | none => w
      | some (db', stage, event) =>
        { w.observe run.call db' event with
          db := db'
          runs := w.runs.set i { run with stage }
          recoveries :=
            w.recoveries ++ recoveredChannel w.db db' run.call.reservation.channelId }
  | .stop i =>
    match w.runs[i]? with
    | none => w
    | some run => { w with runs := w.runs.set i { run with stage := .stopped } }
  | .store op => { w with db := op.run w.db }

end World

/-- The lease id that was generated for the call. -/
def Answer.generated : Answer → Option Uuid
  | .acquired leaseId => some leaseId
  | .acquireLost leaseId _ => some leaseId
  | _ => none

/-- `grantReply` gets a reservation the store returned, whose row may have changed its status
since; `randomUUID` draws no id that is in use; and only `grantReply` binds leases and moves the
breaker. -/
def Action.Enabled (w : World) : Action → Prop
  | .start call => ∃ row ∈ w.db.reservations, row.reservationId = call.reservation.reservationId ∧
      row.channelId = call.reservation.channelId ∧
      row.triggerEventId = call.reservation.triggerEventId
  | .advance _ answer => ∀ leaseId ∈ answer.generated, ∀ lease ∈ w.db.leases, lease.leaseId ≠ leaseId
  | .stop _ => True
  | .store op => op.outsideGrant = true

instance (w : World) : (action : Action) → Decidable (action.Enabled w)
  | .start call => inferInstanceAs (Decidable (∃ row ∈ w.db.reservations,
      row.reservationId = call.reservation.reservationId ∧
        row.channelId = call.reservation.channelId ∧
        row.triggerEventId = call.reservation.triggerEventId))
  | .advance _ answer => inferInstanceAs
      (Decidable (∀ leaseId ∈ answer.generated, ∀ lease ∈ w.db.leases, lease.leaseId ≠ leaseId))
  | .stop _ => isTrue trivial
  | .store op => inferInstanceAs (Decidable (op.outsideGrant = true))

/-! ## What a step of a run does -/

/-- The stages with nothing at stake: no position to persist, no lease in hand. -/
def Stage.idle : Stage → Bool
  | .persistBreaker .. | .deliver .. | .complete .. => false
  | _ => true

/-- The position a run is about to persist. -/
def Stage.persisting : Stage → Option BreakerAssessment
  | .persistBreaker _ _ assessment => some assessment
  | _ => none

/-- Everything one answer can do. -/
inductive AdvanceEffect (call : GrantCall) (db : Database) (stage : Stage) (answer : Answer)
    (db' : Database) (stage' : Stage) (event : Option PhaseEvent) : Prop
  | quiet (hdb : db' = db ∨ ∃ op : StoreOp, db' = op.run db ∧ ∀ input, op ≠ .completeEgressLease input)
      (hstage : stage'.idle = true) (hevent : event = none)
  | assess (assessed : PressureAssessment) (pressure : Rat) (prior : RoomEpisodeBreakerState)
      (hdb : db' = db) (hstage : stage' = afterBreakerRead call assessed pressure prior)
      (hevent : event = none)
  | admitted (assessed : PressureAssessment) (pressure : Rat) (assessment : BreakerAssessment)
      (hbefore : stage = .persistBreaker assessed pressure assessment) (hanswer : answer = .store)
      (hpersist : persistRoomEpisodeBreakerState call.reservation.channelId assessment.state
        call.nowMs db = (db', .ok ()))
      (hstage : stage' = afterBreaker call assessed assessment)
      (hevent : event = admission call pressure assessment)
  | acquire (breakerState : RoomEpisodeBreakerState) (drawnUnits : Rat) (leaseId : Uuid)
      (hanswer : answer = .acquired leaseId)
      (hdb : db' = (acquireEgressLease (acquireInput call leaseId drawnUnits) db).1)
      (hstage : stage' = afterAcquire breakerState drawnUnits
        (acquireEgressLease (acquireInput call leaseId drawnUnits) db).2)
      (hevent : event = none)
  | deliver (breakerState : RoomEpisodeBreakerState) (lease : LeaseRow)
      (outcome : Except String (Bool × Option String))
      (hbefore : stage = .deliver breakerState lease) (hdb : db' = db)
      (hstage : stage' = afterDelivery breakerState lease outcome)
      (hevent : event = deliveryEvent lease outcome)
  | complete (breakerState : RoomEpisodeBreakerState) (lease : LeaseRow)
      (completion : SpeakingEgressLeaseCompletion) (detail : Option String) (threw : Bool)
      (hbefore : stage = .complete breakerState lease completion detail threw)
      (hdb : db' = db ∨ db' = (completeEgressLease (completeInput call lease completion) db).1)
      (hstage : stage'.idle = true) (hevent : event = none)

theorem beginGrant_idle (call : GrantCall) : (beginGrant call).idle = true := by
  unfold beginGrant
  split
  · rfl
  · split
    · rfl
    · split <;> rfl

theorem afterBreaker_idle (call : GrantCall) (assessed : PressureAssessment)
    (assessment : BreakerAssessment) : (afterBreaker call assessed assessment).idle = true := by
  unfold afterBreaker
  split
  · rfl
  · split <;> rfl

theorem afterFairness_idle (call : GrantCall) (breakerState : RoomEpisodeBreakerState)
    (reservers : Option (List Uuid)) (participants : Option (List ParticipationRow)) :
    (afterFairness call breakerState reservers participants).idle = true := by
  unfold afterFairness
  split
  · dsimp only
    generalize selectSpeakLeastWinner _ _ = winner
    split
    · rfl
    · split <;> rfl
  · rfl

theorem afterDraw_idle (breakerState : RoomEpisodeBreakerState)
    (decision : Option (SocialPotEnforcementOutcome × Rat)) :
    (afterDraw breakerState decision).idle = true := by
  unfold afterDraw
  split <;> rfl

theorem refundUnits_idle (decision : EgressLeaseDecision) (drawnUnits : Rat) (declined : Bool) :
    (refundUnits decision drawnUnits declined).idle = true := by
  unfold refundUnits
  split
  · rfl
  · split <;> rfl

theorem afterRelease_idle (decision : EgressLeaseDecision)
    (result : Except String ReservationRow) : (afterRelease decision result).idle = true := by
  unfold afterRelease
  split
  · rfl
  · split <;> rfl

theorem afterReleaseDeclined_idle (decision : EgressLeaseDecision) (drawnUnits : Rat)
    (result : Except String ReservationRow) :
    (afterReleaseDeclined decision drawnUnits result).idle = true := by
  unfold afterReleaseDeclined
  split
  · rfl
  · split
    · rfl
    · exact refundUnits_idle _ _ _

theorem afterComplete_idle (breakerState : RoomEpisodeBreakerState) (lease : LeaseRow)
    (completion : SpeakingEgressLeaseCompletion) (detail : Option String) (threw persisted : Bool) :
    (afterComplete breakerState lease completion detail threw persisted).idle = true := by
  unfold afterComplete
  split
  · rfl
  · split <;> rfl

/-- A store call that is lost, with or without its commit. -/
theorem lost_effect (committed : Bool) {db done : Database} (op : StoreOp)
    (hop : ∀ input, op ≠ .completeEgressLease input) (hdone : done = op.run db) :
    (if committed = true then done else db) = db ∨ ∃ op : StoreOp,
      (if committed = true then done else db) = op.run db ∧
        ∀ input, op ≠ .completeEgressLease input := by
  cases committed with
  | false => exact .inl rfl
  | true => exact .inr ⟨op, hdone, hop⟩

theorem advance_effect {call : GrantCall} {db db' : Database} {stage stage' : Stage}
    {answer : Answer} {event : Option PhaseEvent}
    (h : advance call db stage answer = some (db', stage', event)) :
    AdvanceEffect call db stage answer db' stage' event := by
  unfold advance at h
  split at h
  · split at h
    · cases h
      exact .quiet (.inl rfl) rfl rfl
    · cases h
      exact .quiet (.inl rfl) rfl rfl
  · cases h
    exact .assess _ _ _ rfl rfl rfl
  · cases h
    exact .quiet (.inl rfl) rfl rfl
  · dsimp only at h
    split at h
    · rename_i hok
      cases h
      exact .admitted _ _ _ rfl rfl (Prod.ext rfl hok) rfl rfl
    · cases h
      exact .quiet (.inr ⟨.persistRoomEpisodeBreakerState _ _ _, rfl, fun _ => nofun⟩) rfl rfl
  · cases h
    exact .quiet (lost_effect _ (.persistRoomEpisodeBreakerState _ _ _) (fun _ => nofun) rfl) rfl rfl
  · cases h
    exact .quiet (.inr ⟨.releaseReservation _, rfl, fun _ => nofun⟩) (afterRelease_idle _ _) rfl
  · cases h
    exact .quiet (lost_effect _ (.releaseReservation _) (fun _ => nofun) rfl) rfl rfl
  · cases h
    exact .quiet (.inr ⟨.releaseReservation _, rfl, fun _ => nofun⟩)
      (afterReleaseDeclined_idle _ _ _) rfl
  · cases h
    exact .quiet (lost_effect _ (.releaseReservation _) (fun _ => nofun) rfl)
      (refundUnits_idle _ _ _) rfl
  · split at h
    · cases h
      exact .quiet (.inl rfl) (afterFairness_idle _ _ _ _) rfl
    · cases h
      exact .quiet (.inl rfl) rfl rfl
  · split at h
    · cases h
      exact .quiet (.inl rfl) (afterFairness_idle _ _ _ _) rfl
    · cases h
      exact .quiet (.inl rfl) rfl rfl
  · cases h
    exact .quiet (.inl rfl) rfl rfl
  · cases h
    exact .quiet (.inl rfl) (afterDraw_idle _ _) rfl
  · cases h
    exact .acquire _ _ _ rfl rfl rfl rfl
  · cases h
    exact .quiet (lost_effect _ (.acquireEgressLease _) (fun _ => nofun) rfl)
      (refundUnits_idle _ _ _) rfl
  · cases h
    refine .quiet (.inl rfl) ?_ rfl
    split <;> rfl
  · cases h
    exact .deliver _ _ _ rfl rfl rfl rfl
  · cases h
    exact .complete _ _ _ _ _ rfl (.inr rfl) (afterComplete_idle _ _ _ _ _ _) rfl
  · rename_i committed
    cases h
    refine .complete _ _ _ _ _ rfl ?_ (afterComplete_idle _ _ _ _ _ _) rfl
    cases committed with
    | false => exact .inl rfl
    | true => exact .inr rfl
  · cases h

/-- An answer to a run that does not wait for it changes nothing. -/
theorem act_advance (w : World) (i : Nat) (answer : Answer) :
    w.act (.advance i answer) = w ∨
      ∃ run db' stage event, w.runs[i]? = some run ∧
        AdvanceEffect run.call w.db run.stage answer db' stage event ∧
        w.act (.advance i answer) =
          { w.observe run.call db' event with
            db := db'
            runs := w.runs.set i { run with stage }
            recoveries := w.recoveries ++
              World.recoveredChannel w.db db' run.call.reservation.channelId } := by
  cases hrun : w.runs[i]? with
  | none => exact .inl (by simp only [World.act, hrun])
  | some run =>
    cases hadvance : advance run.call w.db run.stage answer with
    | none => exact .inl (by simp only [World.act, hrun, hadvance])
    | some next =>
      obtain ⟨db', stage, event⟩ := next
      refine .inr ⟨run, db', stage, event, rfl, advance_effect hadvance, ?_⟩
      simp only [World.act, hrun, hadvance]

/-! ## Runs -/

/-- Any interleaving of the allowed actions. -/
def arbiterSystem (allowed : World → Action → Prop) : System World where
  init := {}
  step w w' := ∃ action : Action, action.Enabled w ∧ allowed w action ∧ w' = w.act action

/-- The actions are possible and allowed, one after the other. -/
def Legal (allowed : World → Action → Prop) : World → List Action → Prop
  | _, [] => True
  | w, action :: rest => action.Enabled w ∧ allowed w action ∧ Legal allowed (w.act action) rest

instance decidableLegal (allowed : World → Action → Prop)
    [∀ w action, Decidable (allowed w action)] :
    (w : World) → (actions : List Action) → Decidable (Legal allowed w actions)
  | _, [] => isTrue trivial
  | w, action :: rest =>
    have := decidableLegal allowed (w.act action) rest
    inferInstanceAs (Decidable (_ ∧ _ ∧ _))

theorem reachable_of_legal {allowed : World → Action → Prop} {actions : List Action}
    (h : Legal allowed {} actions) :
    (arbiterSystem allowed).Reachable (actions.foldl World.act {}) := by
  suffices hfrom : ∀ w, (arbiterSystem allowed).Reachable w → Legal allowed w actions →
      (arbiterSystem allowed).Reachable (actions.foldl World.act w) from hfrom {} .refl h
  clear h
  induction actions with
  | nil => exact fun _ hw _ => hw
  | cons action rest ih =>
    intro w hw hlegal
    exact ih (w.act action) (hw.next ⟨action, hlegal.1, hlegal.2.1, rfl⟩) hlegal.2.2

end Psfn.Arbiter
