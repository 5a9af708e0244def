import Psfn.Escalation.Ledger

/-!
# The human escalation control plane

`shared/escalation/control-plane.ts`: `raise` and `resolveHumanEscalation`, each a chain of
awaits of the ledger, with the call of the sink in between. A call is modelled by the await it
waits at and the values it carries. What the clock, the database and the sink answer is in an
`Oracle`; with a shared clock every reading is that of the clock.

The owner's routing is fixed. A request has been validated.
-/

namespace Psfn.Escalation

open Psfn.Lib

structure HumanEscalationRoute where
  sink       : HumanEscalationSinkId
  cooldownMs : Nat
deriving DecidableEq, Repr

inductive HumanEscalationRaiseResult where
  | delivered (escalationId : Uuid)
  | recorded (escalationId : Uuid)
  | suppressed (escalationId : Uuid)
  | replayed (escalationId : Uuid) (outcome : HumanEscalationDeliveryOutcome)
  | undeliverable (escalationId : Uuid) (reason : HumanEscalationDeliveryOutcome)
deriving DecidableEq

/-- What a call cannot know: the clock, a fresh UUID, the sink's answer (nothing if it throws). -/
structure Oracle where
  nowMs  : Nat
  newId  : Uuid
  answer : Option HumanEscalationDeliveryOutcome

/-! ## `raise` -/

/-- A claim: what the attempt row is inserted with. -/
structure ProvisionalAttempt where
  record             : EscalationRow
  nowMs              : Nat
  outcome            : HumanEscalationDeliveryOutcome
  awaitingSettlement : Bool
deriving DecidableEq

/-- Where a raise waits: at `deliver` the call of the sink is out. `serial` is the attempt row it
inserted. -/
inductive RaiseStage where
  | findAttempt
  | openOrReopen
  | expireAnswered (record : EscalationRow)
  | evictAnswered (record : EscalationRow)
  | readClock (record : EscalationRow)
  | claimAttempt (claim : ProvisionalAttempt)
  | readBack
  | pruneAttempts (claim : ProvisionalAttempt) (serial : Nat)
  | deliver (claim : ProvisionalAttempt) (serial : Nat)
  | settleAttempt (claim : ProvisionalAttempt) (serial : Nat)
    (outcome : HumanEscalationDeliveryOutcome)
  | markNotified (claim : ProvisionalAttempt)
  | ended (result : Except String HumanEscalationRaiseResult)

structure RaiseCall where
  store          : HumanEscalationStore
  route          : HumanEscalationRoute
  facts          : HumanEscalationFacts
  idempotencyKey : String
  stage          : RaiseStage

/-- `nowMs - record.lastNotifiedAtMs < route.cooldownMs`, of a condition that was notified. -/
def withinCooldown (route : HumanEscalationRoute) (record : EscalationRow) (nowMs : Nat) : Bool :=
  0 < route.cooldownMs
    && record.lastNotifiedAtMs.any fun last : Nat => (nowMs : Int) - last < route.cooldownMs

/-- The claim that a raise makes once it has read the clock. -/
def provisionalAttempt (route : HumanEscalationRoute) (record : EscalationRow) (nowMs : Nat) :
    ProvisionalAttempt :=
  if withinCooldown route record nowMs then
    { record, nowMs, outcome := .suppressed, awaitingSettlement := false }
  else
    match route.sink with
    | .gardenOnly => { record, nowMs, outcome := .recorded, awaitingSettlement := false }
    | .operatorAlert => { record, nowMs, outcome := .deliveryFailed, awaitingSettlement := true }

def attemptRow (call : RaiseCall) (claim : ProvisionalAttempt) (nowMs serial : Nat) :
    AttemptRow where
  idempotencyKey := call.idempotencyKey
  escalationId := claim.record.escalationId
  sink := call.route.sink
  outcome := claim.outcome
  attemptedAtMs := claim.nowMs
  settlementLeaseUntilMs :=
    if claim.awaitingSettlement then some (nowMs + call.store.bounds.settlementLeaseMs) else none
  serial := serial

/-- The row is read once more to say what happened to it. -/
def settleError (idempotencyKey : String) (expectedOutcome : HumanEscalationDeliveryOutcome) :
    Option AttemptRow → String
  | none => s!"Human escalation attempt {idempotencyKey} is not in the ledger"
  | some existing =>
    s!"Human escalation attempt {idempotencyKey} holds outcome {existing.outcome.text}, " ++
      s!"not the expected {expectedOutcome.text}"

/-- What a raise does with the outcome of its attempt. -/
def afterOutcome (claim : ProvisionalAttempt) : HumanEscalationDeliveryOutcome → RaiseStage
  | .delivered => .markNotified claim
  | .recorded => .ended (.ok (.recorded claim.record.escalationId))
  | .suppressed =>
    .ended (.error "A human escalation sink may not report a suppressed outcome")
  | .noSink => .ended (.ok (.undeliverable claim.record.escalationId .noSink))
  | .unconfigured => .ended (.ok (.undeliverable claim.record.escalationId .unconfigured))
  | .deliveryFailed => .ended (.ok (.undeliverable claim.record.escalationId .deliveryFailed))

/-- What follows the claim's own ring pass. -/
def afterClaim (claim : ProvisionalAttempt) (serial : Nat) : RaiseStage :=
  if claim.awaitingSettlement then .deliver claim serial
  else if claim.outcome = .suppressed then
    .ended (.ok (.suppressed claim.record.escalationId))
  else afterOutcome claim claim.outcome

def RaiseCall.advance (oracle : Oracle) (call : RaiseCall) (ledger : Ledger) :
    Ledger × RaiseStage :=
  match call.stage with
  | .findAttempt =>
    match ledger.findAttempt call.idempotencyKey with
    | some replay => (ledger, .ended (.ok (.replayed replay.escalationId replay.outcome)))
    | none => (ledger, .openOrReopen)
  | .openOrReopen =>
    match ledger.openOrReopen call.facts oracle.newId with
    | .ok (ledger', record) => (ledger', .expireAnswered record)
    | .error message => (ledger, .ended (.error message))
  | .expireAnswered record =>
    (ledger.expireAnswered call.store oracle.nowMs, .evictAnswered record)
  | .evictAnswered record => (ledger.evictAnswered call.store record.kind, .readClock record)
  | .readClock record =>
    (ledger, .claimAttempt (provisionalAttempt call.route record oracle.nowMs))
  | .claimAttempt claim =>
    match ledger.claimAttempt (attemptRow call claim oracle.nowMs) with
    | .ok (ledger', some serial) => (ledger', .pruneAttempts claim serial)
    | .ok (ledger', none) => (ledger', .readBack)
    | .error message => (ledger, .ended (.error message))
  | .readBack =>
    match ledger.findAttempt call.idempotencyKey with
    | some existing => (ledger, .ended (.ok (.replayed existing.escalationId existing.outcome)))
    | none =>
      (ledger, .ended (.error
        s!"Human escalation attempt {call.idempotencyKey} could neither be claimed nor read back"))
  | .pruneAttempts claim serial =>
    let pruned := ledger.pruneAttempts call.store claim.record.escalationId oracle.nowMs
    (if claim.awaitingSettlement then { pruned with sinkCalls := serial :: pruned.sinkCalls }
      else pruned, afterClaim claim serial)
  | .deliver claim serial =>
    let outcome := oracle.answer.getD .deliveryFailed
    ({ ledger with
      notices := { serial, kind := call.facts.kind, dedupeKey := call.facts.dedupeKey
                   atMs := claim.nowMs, outcome } :: ledger.notices },
      .settleAttempt claim serial outcome)
  | .settleAttempt claim _ outcome =>
    let settled := ledger.settleAttempt call.idempotencyKey claim.outcome outcome
    (settled.1,
      if settled.2 then afterOutcome claim outcome
      else .ended (.error (settleError call.idempotencyKey claim.outcome
        (settled.1.findAttempt call.idempotencyKey))))
  | .markNotified claim =>
    let marked := ledger.markNotified claim.record.escalationId claim.nowMs
    (marked.1,
      if marked.2 then .ended (.ok (.delivered claim.record.escalationId))
      else .ended (.error
        s!"Human escalation {claim.record.escalationId.value} is not in the ledger"))
  | .ended result => (ledger, .ended result)

/-! ## `resolveHumanEscalation` -/

inductive ResolveStage where
  | getById
  | applyResolution (expectedState : HumanEscalationState)
  | expireAnswered (kind : HumanEscalationKind)
  | evictAnswered (kind : HumanEscalationKind)
  | ended

structure ResolveCall where
  store        : HumanEscalationStore
  escalationId : Uuid
  state        : HumanEscalationResolutionState
  resolvedAtMs : Nat
  stage        : ResolveStage

def ResolveCall.advance (oracle : Oracle) (call : ResolveCall) (ledger : Ledger) :
    Ledger × ResolveStage :=
  match call.stage with
  | .getById =>
    match ledger.getById call.escalationId with
    | none => (ledger, .ended)
    | some existing =>
      if allowedHumanTransition existing.state call.state then
        (ledger, .applyResolution existing.state)
      else (ledger, .ended)
  | .applyResolution expectedState =>
    let applied :=
      ledger.applyResolution call.escalationId expectedState call.state call.resolvedAtMs
    (applied.1, applied.2.elim .ended fun record => .expireAnswered record.kind)
  | .expireAnswered kind => (ledger.expireAnswered call.store oracle.nowMs, .evictAnswered kind)
  | .evictAnswered kind => (ledger.evictAnswered call.store kind, .ended)
  | .ended => (ledger, .ended)

/-! ## The processes -/

inductive Call where
  | raise (call : RaiseCall)
  | resolve (call : ResolveCall)

def Call.advance (oracle : Oracle) (ledger : Ledger) : Call → Ledger × Call
  | .raise call =>
    let result := call.advance oracle ledger
    (result.1, .raise { call with stage := result.2 })
  | .resolve call =>
    let result := call.advance oracle ledger
    (result.1, .resolve { call with stage := result.2 })

/-- A step: the call that took it, and the answers it got. -/
structure Move where
  call   : Call
  oracle : Oracle

/-- Any number of raises under the owner's routing and of human answers, in any processes. -/
def escalations (routing : HumanEscalationKind → HumanEscalationRoute) (sharedClock : Bool) :
    Interleaving Ledger Call Move where
  step ledger call move ledger' call' :=
    move.call = call ∧ (sharedClock = true → move.oracle.nowMs = ledger.clock) ∧
      call.advance move.oracle ledger = (ledger', call')
  environment ledger ledger' :=
    (sharedClock = true → ledger.clock ≤ ledger'.clock) ∧
      ledger' = { ledger with clock := ledger'.clock }
  starts _ call :=
    (∃ store facts idempotencyKey, call =
      .raise { store, route := routing facts.kind, facts, idempotencyKey, stage := .findAttempt }) ∨
    ∃ store escalationId state resolvedAtMs, call =
      .resolve { store, escalationId, state, resolvedAtMs, stage := .getById }

abbrev LedgerPool := Pool Ledger Call

end Psfn.Escalation
