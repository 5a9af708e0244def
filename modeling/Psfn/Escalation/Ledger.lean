import Psfn.Lib.Interleave
import Psfn.Lib.JsString
import Psfn.Lib.Table
import Psfn.Lib.Uuid

/-!
# The human escalation ledger

`persistence/postgres/human-escalation-store.ts`: one row per condition a human was asked about,
one row per delivery attempt under the caller's idempotency key, and the statements on them. An
attempt row goes with its escalation (`ON DELETE CASCADE`).

`serial`, `claims`, `sinkCalls` and `notices` are not columns: they number the attempt rows that
were ever inserted and record what was handed to a sink. No statement reads them.
-/

namespace Psfn.Escalation

open Psfn.Lib

/-! ## Vocabulary -/

inductive HumanEscalationKind where
  | runtimeIncident | operatorConfirmation | cogsecQuarantine
deriving DecidableEq, Repr

inductive HumanEscalationState where
  | opened | acknowledged | resolved | dismissed
deriving DecidableEq, Repr

/-- The states a person may move an escalation into. -/
inductive HumanEscalationResolutionState where
  | acknowledged | resolved | dismissed
deriving DecidableEq, Repr

def HumanEscalationResolutionState.state :
    HumanEscalationResolutionState → HumanEscalationState
  | .acknowledged => .acknowledged
  | .resolved => .resolved
  | .dismissed => .dismissed

/-- `ALLOWED_HUMAN_TRANSITIONS[from].includes(to)`. -/
def allowedHumanTransition : HumanEscalationState → HumanEscalationResolutionState → Bool
  | .opened, _ => true
  | .acknowledged, .resolved => true
  | .acknowledged, .dismissed => true
  | _, _ => false

inductive HumanEscalationSinkId where
  | operatorAlert | gardenOnly
deriving DecidableEq, Repr

inductive HumanEscalationDeliveryOutcome where
  | delivered | recorded | noSink | unconfigured | deliveryFailed | suppressed
deriving DecidableEq, Repr

def HumanEscalationDeliveryOutcome.text : HumanEscalationDeliveryOutcome → String
  | .delivered => "delivered"
  | .recorded => "recorded"
  | .noSink => "no_sink"
  | .unconfigured => "unconfigured"
  | .deliveryFailed => "delivery_failed"
  | .suppressed => "suppressed"

/-! ## Rows -/

structure HumanEscalationFacts where
  kind : HumanEscalationKind
  /-- `null` for a system-owned escalation. -/
  ownerCompanionId : Option String
  dedupeKey : String
  raisedAtMs : Nat
deriving DecidableEq, Repr

structure EscalationRow where
  escalationId     : Uuid
  kind             : HumanEscalationKind
  ownerCompanionId : Option String
  dedupeKey        : String
  state            : HumanEscalationState
  resolvedAtMs     : Option Nat
  raisedAtMs       : Nat
  lastRaisedAtMs   : Nat
  lastNotifiedAtMs : Option Nat
  raiseCount       : Nat
deriving DecidableEq

structure AttemptRow where
  idempotencyKey         : String
  escalationId           : Uuid
  sink                   : HumanEscalationSinkId
  outcome                : HumanEscalationDeliveryOutcome
  attemptedAtMs          : Nat
  settlementLeaseUntilMs : Option Nat
  /-- Which of the rows that were ever inserted. -/
  serial                 : Nat
deriving DecidableEq

/-- What became of a call of a sink. -/
structure Notice where
  serial    : Nat
  kind      : HumanEscalationKind
  dedupeKey : String
  /-- The time of the raise. -/
  atMs      : Nat
  outcome   : HumanEscalationDeliveryOutcome
deriving DecidableEq

structure Ledger where
  escalations : List EscalationRow := []
  attempts    : List AttemptRow := []
  claims      : Nat := 0
  /-- The attempt rows whose sink was called. -/
  sinkCalls   : List Nat := []
  notices     : List Notice := []
  clock       : Nat := 0

/-- `requireHumanEscalationLedgerBounds`. -/
structure HumanEscalationLedgerBounds where
  resolvedRetentionMs          : Nat
  maxResolvedRowsPerKind       : Nat
  maxAttemptsPerEscalation     : Nat
  settlementLeaseMs            : Nat
  resolvedRetentionMs_pos      : 1 ≤ resolvedRetentionMs
  maxResolvedRowsPerKind_pos   : 1 ≤ maxResolvedRowsPerKind
  maxAttemptsPerEscalation_pos : 1 ≤ maxAttemptsPerEscalation
  settlementLeaseMs_pos        : 1 ≤ settlementLeaseMs

/-- `PostgresHumanEscalationStore` of one process. -/
structure HumanEscalationStore where
  bounds               : HumanEscalationLedgerBounds
  retentionCompanionId : Option String

/-! ## `openOrReopen` -/

def EscalationRow.ofCondition (kind : HumanEscalationKind) (dedupeKey : String)
    (row : EscalationRow) : Bool := row.kind = kind && row.dedupeKey = dedupeKey

def newEscalationRow (facts : HumanEscalationFacts) (escalationId : Uuid) : EscalationRow where
  escalationId := escalationId
  kind := facts.kind
  ownerCompanionId := facts.ownerCompanionId
  dedupeKey := facts.dedupeKey
  state := .opened
  resolvedAtMs := none
  raisedAtMs := facts.raisedAtMs
  lastRaisedAtMs := facts.raisedAtMs
  lastNotifiedAtMs := none
  raiseCount := 1

/-- `ON CONFLICT (kind, dedupe_key) DO UPDATE`. -/
def EscalationRow.reopened (facts : HumanEscalationFacts) (row : EscalationRow) : EscalationRow :=
  { row with
    state := .opened
    resolvedAtMs := none
    lastRaisedAtMs := max row.lastRaisedAtMs facts.raisedAtMs
    raiseCount := row.raiseCount + 1 }

/-- `escalationId` is what `gen_random_uuid()` draws; the primary key refuses one that is taken. -/
def Ledger.openOrReopen (facts : HumanEscalationFacts) (escalationId : Uuid) (ledger : Ledger) :
    Except String (Ledger × EscalationRow) :=
  match ledger.escalations.find? (EscalationRow.ofCondition facts.kind facts.dedupeKey) with
  | some row =>
    .ok ({ ledger with
      escalations :=
        Table.update (EscalationRow.ofCondition facts.kind facts.dedupeKey)
          (EscalationRow.reopened facts) ledger.escalations }, row.reopened facts)
  | none =>
    if ledger.escalations.any (·.escalationId = escalationId) then
      .error "duplicate key value violates unique constraint"
    else
      .ok ({ ledger with
        escalations := ledger.escalations ++ [newEscalationRow facts escalationId] },
        newEscalationRow facts escalationId)

/-! ## `enforceBounds` -/

/-- `($2::text IS NULL OR owner_kind = 'system' OR owner_companion_id = $2)`. -/
def ownerFence (store : HumanEscalationStore) (row : EscalationRow) : Bool :=
  store.retentionCompanionId.isNone || row.ownerCompanionId.isNone
    || row.ownerCompanionId = store.retentionCompanionId

/-- The rows of the age eviction. -/
def expired (store : HumanEscalationStore) (nowMs : Nat) (row : EscalationRow) : Bool :=
  let cutoffMs : Int := nowMs - store.bounds.resolvedRetentionMs
  0 < cutoffMs && row.state ≠ .opened && row.resolvedAtMs.any (fun at_ => (at_ : Int) < cutoffMs)
    && ownerFence store row

/-- `ORDER BY resolved_at_ms DESC, escalation_id DESC`. -/
def newestAnswerFirst (a b : EscalationRow) : Bool :=
  let atA := a.resolvedAtMs.getD 0
  let atB := b.resolvedAtMs.getD 0
  atB < atA || (atA = atB && JsString.unitsLe (JsString.utf16Units b.escalationId.value)
    (JsString.utf16Units a.escalationId.value))

/-- What the per-kind ring ranks. -/
def answeredOf (store : HumanEscalationStore) (kind : HumanEscalationKind) (row : EscalationRow) :
    Bool := row.kind = kind && row.state ≠ .opened && ownerFence store row

/-- The rows past the `OFFSET`. -/
def Ledger.beyondRing (store : HumanEscalationStore) (kind : HumanEscalationKind)
    (ledger : Ledger) : List EscalationRow :=
  ((ledger.escalations.filter (answeredOf store kind)).mergeSort newestAnswerFirst).drop
    store.bounds.maxResolvedRowsPerKind

/-- `DELETE FROM human_escalations WHERE …`, with the cascade. -/
def Ledger.deleteEscalations (cond : EscalationRow → Bool) (ledger : Ledger) : Ledger :=
  { ledger with
    escalations := Table.delete cond ledger.escalations
    attempts :=
      Table.delete (fun attempt => ledger.escalations.any fun row =>
        cond row && row.escalationId = attempt.escalationId) ledger.attempts }

def Ledger.expireAnswered (store : HumanEscalationStore) (nowMs : Nat) (ledger : Ledger) :
    Ledger := ledger.deleteEscalations (expired store nowMs)

def Ledger.inRing (store : HumanEscalationStore) (kind : HumanEscalationKind) (ledger : Ledger)
    (row : EscalationRow) : Bool :=
  (ledger.beyondRing store kind).any (·.escalationId = row.escalationId)

def Ledger.evictAnswered (store : HumanEscalationStore) (kind : HumanEscalationKind)
    (ledger : Ledger) : Ledger := ledger.deleteEscalations (ledger.inRing store kind)

/-! ## Attempts -/

def Ledger.findAttempt (idempotencyKey : String) (ledger : Ledger) : Option AttemptRow :=
  ledger.attempts.find? (·.idempotencyKey = idempotencyKey)

/-- `INSERT … ON CONFLICT (idempotency_key) DO NOTHING`: the serial of the new row, or nothing. -/
def Ledger.claimAttempt (attempt : Nat → AttemptRow) (ledger : Ledger) :
    Except String (Ledger × Option Nat) :=
  let row := attempt ledger.claims
  if ledger.attempts.any (·.idempotencyKey = row.idempotencyKey) then .ok (ledger, none)
  else if ledger.escalations.any (·.escalationId = row.escalationId) then
    .ok ({ ledger with attempts := ledger.attempts ++ [row], claims := ledger.claims + 1 },
      some ledger.claims)
  else .error "insert or update violates foreign key constraint"

/-- `settlement_lease_until_ms IS NULL OR settlement_lease_until_ms <= $3`. -/
def unleased (escalationId : Uuid) (nowMs : Nat) (attempt : AttemptRow) : Bool :=
  attempt.escalationId = escalationId && attempt.settlementLeaseUntilMs.all (· ≤ nowMs)

def leased (escalationId : Uuid) (nowMs : Nat) (attempt : AttemptRow) : Bool :=
  attempt.escalationId = escalationId && attempt.settlementLeaseUntilMs.any (nowMs < ·)

/-- `ORDER BY attempted_at_ms DESC, idempotency_key DESC`. -/
def newestAttemptFirst (a b : AttemptRow) : Bool :=
  b.attemptedAtMs < a.attemptedAtMs
    || (a.attemptedAtMs = b.attemptedAtMs && JsString.unitsLe (JsString.utf16Units b.idempotencyKey)
      (JsString.utf16Units a.idempotencyKey))

/-- The rows past the `OFFSET` of the attempt ring. -/
def Ledger.beyondAttemptRing (store : HumanEscalationStore) (escalationId : Uuid) (nowMs : Nat)
    (ledger : Ledger) : List AttemptRow :=
  ((ledger.attempts.filter (unleased escalationId nowMs)).mergeSort newestAttemptFirst).drop
    (store.bounds.maxAttemptsPerEscalation
      - ledger.attempts.countP (leased escalationId nowMs))

def Ledger.pruneAttempts (store : HumanEscalationStore) (escalationId : Uuid) (nowMs : Nat)
    (ledger : Ledger) : Ledger :=
  { ledger with
    attempts := Table.delete (fun attempt =>
      (ledger.beyondAttemptRing store escalationId nowMs).any
        (·.idempotencyKey = attempt.idempotencyKey)) ledger.attempts }

def settles (idempotencyKey : String) (expectedOutcome : HumanEscalationDeliveryOutcome)
    (attempt : AttemptRow) : Bool :=
  attempt.idempotencyKey = idempotencyKey && attempt.outcome = expectedOutcome

/-- The compare-and-set, and whether it found its row. -/
def Ledger.settleAttempt (idempotencyKey : String)
    (expectedOutcome outcome : HumanEscalationDeliveryOutcome) (ledger : Ledger) :
    Ledger × Bool :=
  ({ ledger with
    attempts := Table.update (settles idempotencyKey expectedOutcome)
      (fun attempt => { attempt with outcome, settlementLeaseUntilMs := none }) ledger.attempts },
    ledger.attempts.any (settles idempotencyKey expectedOutcome))

/-- `GREATEST(COALESCE(last_notified_at_ms, 0), $2)`. -/
def Ledger.markNotified (escalationId : Uuid) (notifiedAtMs : Nat) (ledger : Ledger) :
    Ledger × Bool :=
  ({ ledger with
    escalations := Table.update (·.escalationId = escalationId)
      (fun row => { row with
        lastNotifiedAtMs := some (max (row.lastNotifiedAtMs.getD 0) notifiedAtMs) })
      ledger.escalations },
    ledger.escalations.any (·.escalationId = escalationId))

/-! ## `applyResolution` -/

def Ledger.getById (escalationId : Uuid) (ledger : Ledger) : Option EscalationRow :=
  ledger.escalations.find? (·.escalationId = escalationId)

def resolves (escalationId : Uuid) (expectedState : HumanEscalationState) (row : EscalationRow) :
    Bool := row.escalationId = escalationId && row.state = expectedState

/-- The update, and the row it found. -/
def Ledger.applyResolution (escalationId : Uuid) (expectedState : HumanEscalationState)
    (state : HumanEscalationResolutionState) (resolvedAtMs : Nat) (ledger : Ledger) :
    Ledger × Option EscalationRow :=
  let set := fun row : EscalationRow =>
    { row with state := state.state, resolvedAtMs := some resolvedAtMs }
  ({ ledger with
    escalations := Table.update (resolves escalationId expectedState) set ledger.escalations },
    (ledger.escalations.find? (resolves escalationId expectedState)).map set)

end Psfn.Escalation
