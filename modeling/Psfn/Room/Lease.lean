import Psfn.Fatigue.SocialPot
import Psfn.Lib.Interleave
import Psfn.Lib.JsString
import Psfn.Lib.Uuid

/-!
# Room participation leases

`persistence/postgres/room-participation-lease-store.ts` keeps one row per (companion, channel);
every mutation is a single conditional statement. `core/participation/room-participation-lease.ts`
is the gate that looks at a row that was read, and
`core/participation/room-participation-lease-coordinator.ts` joins the two: each of its calls is a
chain of awaits of the store.

Clock readings and owner settings are natural numbers; the timestamps of messages come from
connectors and are checked by the store. The order of the database on message ids is its
collation, a parameter. The scope classifier's answer is part of the input of a disposition.
-/

namespace Psfn.Room

open Psfn.Lib
open Psfn.Fatigue (requireTimestamp)

/-! ## Rows -/

inductive RoomParticipationDisposition where
  | directSummons | passiveSummons | reaction | reply | endogenousRoomEntry
deriving DecidableEq, Repr

inductive RoomParticipationLeaseCloseReason where
  | expiry | silence | messageCap | machineStreak | withdrawn | fatigue | roomPressure | policyOff
deriving DecidableEq, Repr

inductive RoomParticipationLeaseStatus where
  | active | closed
deriving DecidableEq, Repr

structure RoomParticipationLease where
  status               : RoomParticipationLeaseStatus
  openedDisposition    : RoomParticipationDisposition
  openedAtMs           : Nat
  lastActivityAtMs     : Nat
  expiresAtMs          : Nat
  watermarkMessageId   : String
  watermarkTimestampMs : Nat
  consideredCount      : Nat
  ignoreStreak         : Nat
  machineStreak        : Nat
  closedAtMs           : Option Nat
  closeReason          : Option RoomParticipationLeaseCloseReason
  revision             : Nat
deriving DecidableEq, Repr

/-- The primary key. -/
structure LeaseKey where
  companionId : String
  channelId   : String
deriving DecidableEq, Repr

abbrev RoomParticipationLeases := LeaseKey → Option RoomParticipationLease

/-- `>` of the database on message ids. -/
structure Collation where
  gt        : String → String → Bool
  irrefl    : ∀ a, gt a a = false
  trans     : ∀ a b c, gt a b = true → gt b c = true → gt a c = true
  connected : ∀ a b, gt a b = false → gt b a = false → a = b

/-- A room message as the store orders it. -/
structure RoomMessage where
  timestampMs : Nat
  messageId   : String
deriving DecidableEq, Repr

/-- `(a.timestamp_ms, a.message_id) > (b.timestamp_ms, b.message_id)`. -/
def RoomMessage.after (collation : Collation) (a b : RoomMessage) : Bool :=
  b.timestampMs < a.timestampMs
    || (a.timestampMs = b.timestampMs && collation.gt a.messageId b.messageId)

def RoomParticipationLease.watermark (lease : RoomParticipationLease) : RoomMessage where
  timestampMs := lease.watermarkTimestampMs
  messageId := lease.watermarkMessageId

/-! ## Statements -/

structure OpenRoomParticipationLease where
  disposition     : RoomParticipationDisposition
  source          : RoomMessage
  authorIsMachine : Bool
  nowMs           : Nat
  expiresAtMs     : Nat
deriving DecidableEq, Repr

structure RefreshRoomParticipationLease where
  source          : RoomMessage
  authorIsMachine : Bool
  nowMs           : Nat
  expiresAtMs     : Nat
deriving DecidableEq, Repr

structure ClaimRoomParticipationContinuation where
  message                            : RoomMessage
  authorIsMachine                    : Bool
  nowMs                              : Nat
  maxContinuationCandidates          : Nat
  maxConsecutiveMachineContinuations : Nat
deriving DecidableEq, Repr

/-- The watermark columns after `CASE WHEN … >` and `GREATEST`. -/
def advanceWatermark (collation : Collation) (lease : RoomParticipationLease)
    (source : RoomMessage) : RoomParticipationLease :=
  { lease with
    watermarkMessageId :=
      if source.after collation lease.watermark then source.messageId else lease.watermarkMessageId
    watermarkTimestampMs := max source.timestampMs lease.watermarkTimestampMs }

def insertedLease (input : OpenRoomParticipationLease) : RoomParticipationLease where
  status := .active
  openedDisposition := input.disposition
  openedAtMs := input.nowMs
  lastActivityAtMs := input.nowMs
  expiresAtMs := input.expiresAtMs
  watermarkMessageId := input.source.messageId
  watermarkTimestampMs := input.source.timestampMs
  consideredCount := 0
  ignoreStreak := 0
  machineStreak := 0
  closedAtMs := none
  closeReason := none
  revision := 1

/-- `ON CONFLICT … DO UPDATE`: the machine streak survives a machine-authored opening. -/
def reopenedLease (collation : Collation) (lease : RoomParticipationLease)
    (input : OpenRoomParticipationLease) : RoomParticipationLease :=
  { advanceWatermark collation lease input.source with
    status := .active
    openedDisposition := input.disposition
    openedAtMs := input.nowMs
    lastActivityAtMs := input.nowMs
    expiresAtMs := input.expiresAtMs
    consideredCount := 0
    ignoreStreak := 0
    machineStreak := if input.authorIsMachine then lease.machineStreak else 0
    closedAtMs := none
    closeReason := none
    revision := lease.revision + 1 }

/-- What `RETURNING` gives: the new row, if the statement took effect. -/
def openLease (collation : Collation) (input : OpenRoomParticipationLease) :
    Option RoomParticipationLease → Option RoomParticipationLease
  | none => some (insertedLease input)
  | some lease =>
    if input.authorIsMachine && lease.status = .closed && lease.closeReason = some .machineStreak
    then none
    else some (reopenedLease collation lease input)

def refreshLease (collation : Collation) (input : RefreshRoomParticipationLease) :
    Option RoomParticipationLease → Option RoomParticipationLease
  | none => none
  | some lease =>
    if lease.status = .active && input.nowMs < lease.expiresAtMs then
      some { advanceWatermark collation lease input.source with
        lastActivityAtMs := input.nowMs
        expiresAtMs := max lease.expiresAtMs input.expiresAtMs
        ignoreStreak := if input.authorIsMachine then lease.ignoreStreak else 0
        revision := lease.revision + 1 }
    else none

def claimContinuation (collation : Collation) (input : ClaimRoomParticipationContinuation) :
    Option RoomParticipationLease → Option RoomParticipationLease
  | none => none
  | some lease =>
    if lease.status = .active && input.nowMs < lease.expiresAtMs
      && input.message.after collation lease.watermark
      && lease.consideredCount < input.maxContinuationCandidates
      && (!input.authorIsMachine
        || lease.machineStreak < input.maxConsecutiveMachineContinuations) then
      some { lease with
        watermarkMessageId := input.message.messageId
        watermarkTimestampMs := input.message.timestampMs
        lastActivityAtMs := input.nowMs
        consideredCount := lease.consideredCount + 1
        machineStreak := if input.authorIsMachine then lease.machineStreak + 1 else 0
        revision := lease.revision + 1 }
    else none

def recordAppraisalRow (ignored : Bool) (nowMs : Nat) :
    Option RoomParticipationLease → Option RoomParticipationLease
  | none => none
  | some lease =>
    if lease.status = .active then
      some { lease with
        ignoreStreak := if ignored then lease.ignoreStreak + 1 else 0
        lastActivityAtMs := max lease.lastActivityAtMs nowMs
        revision := lease.revision + 1 }
    else none

def closeLease (reason : RoomParticipationLeaseCloseReason) (nowMs : Nat) :
    Option RoomParticipationLease → Option RoomParticipationLease
  | none => none
  | some lease =>
    if lease.status = .active then
      some { lease with
        status := .closed, closedAtMs := some nowMs, closeReason := some reason
        revision := lease.revision + 1 }
    else none

/-- A statement that passed the checks of its input. -/
inductive LeaseStatement where
  | openLease (input : OpenRoomParticipationLease)
  | refresh (input : RefreshRoomParticipationLease)
  | claimContinuation (input : ClaimRoomParticipationContinuation)
  | recordAppraisal (ignored : Bool) (nowMs : Nat)
  | close (reason : RoomParticipationLeaseCloseReason) (nowMs : Nat)
deriving DecidableEq, Repr

def LeaseStatement.returning (collation : Collation) :
    LeaseStatement → Option RoomParticipationLease → Option RoomParticipationLease
  | .openLease input => Room.openLease collation input
  | .refresh input => refreshLease collation input
  | .claimContinuation input => Room.claimContinuation collation input
  | .recordAppraisal ignored nowMs => recordAppraisalRow ignored nowMs
  | .close reason nowMs => closeLease reason nowMs

/-! ## The checks of the store -/

def requireCompanionId (value : String) : Except String String :=
  if isRfc4122Uuid value then .ok value
  else .error "roomParticipationLease.companionId must be an RFC 4122 UUID"

def requireIdentifier (value field : String) : Except String String :=
  if 1 ≤ JsString.utf16Length value && JsString.utf16Length value ≤ 512 then .ok value
  else .error s!"{field} must be a non-empty string of at most 512 characters"

def requireKey (companionId channelId : String) : Except String LeaseKey := do
  let companionId ← requireCompanionId companionId
  let channelId ← requireIdentifier channelId "roomParticipationLease.channelId"
  return { companionId, channelId }

/-- `open` and `refresh`. -/
def requireSource (companionId channelId messageId : String) (timestampMs : JsNumber) :
    Except String (LeaseKey × RoomMessage) := do
  let key ← requireKey companionId channelId
  let messageId ← requireIdentifier messageId "roomParticipationLease.watermarkMessageId"
  let timestampMs ← requireTimestamp timestampMs "roomParticipationLease.watermarkTimestampMs"
  return (key, { timestampMs, messageId })

def requireClaim (companionId channelId messageId : String) (timestampMs : JsNumber) :
    Except String (LeaseKey × RoomMessage) := do
  let key ← requireKey companionId channelId
  let messageId ← requireIdentifier messageId "roomParticipationLease.messageId"
  let timestampMs ← requireTimestamp timestampMs "roomParticipationLease.timestampMs"
  return (key, { timestampMs, messageId })

/-! ## The gate -/

structure RoomParticipationLeaseOpenOnSettings where
  directSummons       : Bool
  passiveSummons      : Bool
  reaction            : Bool
  reply               : Bool
  endogenousRoomEntry : Bool
deriving DecidableEq, Repr

structure RoomParticipationLeaseSettings where
  enabled                            : Bool
  leaseTtlMs                         : Nat
  silenceTimeoutMs                   : Nat
  continuationCooldownMs             : Nat
  maxContinuationCandidates          : Nat
  maxConsecutiveMachineContinuations : Nat
  maxConsecutiveIgnores              : Nat
  minContentChars                    : Nat
  openOn                             : RoomParticipationLeaseOpenOnSettings
deriving DecidableEq, Repr

structure RoomParticipationObservation where
  messageId       : String
  timestampMs     : JsNumber
  authorIsMachine : Bool
  contentLength   : Nat
deriving DecidableEq

inductive ParticipationSuppressionReason where
  | leasePolicyOff | leaseExpired | leaseSilent | leaseMessageCap | leaseMachineStreak
  | leaseWatermark | leaseCooldown | leaseLowSignal | leaseClaimLost
deriving DecidableEq, Repr

inductive RoomParticipationContinuationDecision where
  | admitted
  | absent
  | suppressed (suppression : ParticipationSuppressionReason)
  | close (reason : RoomParticipationLeaseCloseReason)
    (suppression : ParticipationSuppressionReason)
deriving DecidableEq, Repr

/-- Strings are compared by code units here, unlike in the database. -/
def isAfterWatermark (observation : RoomParticipationObservation)
    (watermark : RoomParticipationLease) : Bool :=
  let mark : JsNumber := .finite watermark.watermarkTimestampMs
  if !observation.timestampMs.strictEq mark then mark.lt observation.timestampMs
  else
    !JsString.unitsLe (JsString.utf16Units observation.messageId)
      (JsString.utf16Units watermark.watermarkMessageId)

def evaluateRoomParticipationContinuation (lease : Option RoomParticipationLease)
    (observation : RoomParticipationObservation) (settings : RoomParticipationLeaseSettings)
    (nowMs : Nat) : RoomParticipationContinuationDecision :=
  match lease.filter (·.status = .active) with
  | none => .absent
  | some lease =>
    let idleMs : Int := nowMs - lease.lastActivityAtMs
    if !settings.enabled then .close .policyOff .leasePolicyOff
    else if lease.expiresAtMs ≤ nowMs then .close .expiry .leaseExpired
    else if settings.silenceTimeoutMs ≤ idleMs then .close .silence .leaseSilent
    else if settings.maxContinuationCandidates ≤ lease.consideredCount then
      .close .messageCap .leaseMessageCap
    else if observation.authorIsMachine
        && settings.maxConsecutiveMachineContinuations ≤ lease.machineStreak then
      .close .machineStreak .leaseMachineStreak
    else if !isAfterWatermark observation lease then .suppressed .leaseWatermark
    else if idleMs < settings.continuationCooldownMs then .suppressed .leaseCooldown
    else if observation.contentLength < settings.minContentChars then .suppressed .leaseLowSignal
    else .admitted

/-! ## The coordinator -/

/-- What a call awaits: a `SELECT`, or a statement. Both answer with a row or nothing. -/
inductive LeaseOp where
  | read (key : LeaseKey)
  | run (key : LeaseKey) (statement : LeaseStatement)
deriving DecidableEq, Repr

/-- A call of the coordinator; its outcome changes nothing and is left out. -/
abbrev LeaseCall := Program LeaseOp fun _ => Option RoomParticipationLease

/-- A call that throws before it reaches the store is over. -/
def orThrow {α : Type} (checked : Except String α) (next : α → LeaseCall) : LeaseCall :=
  match checked with
  | .ok a => next a
  | .error _ => .done

/-- `RoomParticipationLeaseCoordinator`. -/
structure Coordinator where
  companionId : String
  settings    : RoomParticipationLeaseSettings

namespace Coordinator

def admitContinuation (coordinator : Coordinator) (channelId : String)
    (observation : RoomParticipationObservation) (nowMs : Nat) : LeaseCall :=
  let settings := coordinator.settings
  orThrow (requireKey coordinator.companionId channelId) fun key =>
    .await (.read key) fun lease =>
      match evaluateRoomParticipationContinuation lease observation settings nowMs with
      | .absent => .done
      | .suppressed _ => .done
      | .close reason _ => .await (.run key (.close reason nowMs)) fun _ => .done
      | .admitted =>
        orThrow (requireClaim coordinator.companionId channelId observation.messageId
          observation.timestampMs) fun (key, message) =>
          .await (.run key (.claimContinuation
            { message, authorIsMachine := observation.authorIsMachine, nowMs
              maxContinuationCandidates := settings.maxContinuationCandidates
              maxConsecutiveMachineContinuations :=
                settings.maxConsecutiveMachineContinuations })) fun _ => .done

/-- `isGroupCapableChannelType`. -/
def isGroupCapableChannelType (channelType : String) : Bool :=
  channelType = "discord" || channelType = "telegram" || channelType = "external"

structure DispositionInput where
  channelId         : String
  channelType       : String
  disposition       : RoomParticipationDisposition
  sourceMessageId   : String
  sourceTimestampMs : JsNumber
  authorIsMachine   : Bool
  isDirectMessage   : Bool
  /-- The classifier's answer. -/
  scope             : String

/-- `settings.openOn[OPEN_ON_KEYS[disposition]]`. -/
def opensOn (openOn : RoomParticipationLeaseOpenOnSettings) :
    RoomParticipationDisposition → Bool
  | .directSummons => openOn.directSummons
  | .passiveSummons => openOn.passiveSummons
  | .reaction => openOn.reaction
  | .reply => openOn.reply
  | .endogenousRoomEntry => openOn.endogenousRoomEntry

def recordDisposition (coordinator : Coordinator) (input : DispositionInput) (nowMs : Nat) :
    LeaseCall :=
  let settings := coordinator.settings
  let sourceMessageId := JsString.trim input.sourceMessageId
  if !settings.enabled || input.isDirectMessage || !isGroupCapableChannelType input.channelType
      || sourceMessageId = "" || !input.sourceTimestampMs.isFinite || input.scope ≠ "group" then
    .done
  else
    let expiresAtMs := nowMs + settings.leaseTtlMs
    let authorIsMachine := input.authorIsMachine
    orThrow (requireSource coordinator.companionId input.channelId sourceMessageId
      input.sourceTimestampMs) fun (key, source) =>
      .await (.run key (.refresh { source, authorIsMachine, nowMs, expiresAtMs })) fun refreshed =>
        if refreshed.isSome || !opensOn settings.openOn input.disposition
            || expiresAtMs ≤ nowMs then .done
        else
          .await (.run key (.openLease
            { disposition := input.disposition, source, authorIsMachine, nowMs, expiresAtMs }))
            fun _ => .done

inductive ParticipationAction where
  | ignore | react | reply
deriving DecidableEq, Repr

def recordAppraisal (coordinator : Coordinator) (channelId : String)
    (action : ParticipationAction) (nowMs : Nat) : LeaseCall :=
  let settings := coordinator.settings
  if !settings.enabled then .done
  else
    orThrow (requireKey coordinator.companionId channelId) fun key =>
      .await (.run key (.recordAppraisal (action = .ignore) nowMs)) fun updated =>
        match updated with
        | none => .done
        | some lease =>
          if lease.ignoreStreak < settings.maxConsecutiveIgnores then .done
          else .await (.run key (.close .withdrawn nowMs)) fun _ => .done

def reservationGateCloseReason (blockedBy : String) : Option RoomParticipationLeaseCloseReason :=
  if blockedBy = "fatigue_pot_insufficient" then some .fatigue
  else if blockedBy = "room_flooded" then some .roomPressure
  else none

def closeForReservationGate (coordinator : Coordinator) (channelId blockedBy : String)
    (nowMs : Nat) : LeaseCall :=
  match reservationGateCloseReason blockedBy with
  | none => .done
  | some reason =>
    orThrow (requireKey coordinator.companionId channelId) fun key =>
      .await (.run key (.close reason nowMs)) fun _ => .done

/-- A call that some code may make. -/
inductive Calls (settings : RoomParticipationLeaseSettings) (nowMs : Nat) : LeaseCall → Prop
  | admitContinuation (companionId channelId : String)
    (observation : RoomParticipationObservation) :
    Calls settings nowMs
      (Coordinator.admitContinuation ⟨companionId, settings⟩ channelId observation nowMs)
  | recordDisposition (companionId : String) (input : DispositionInput) :
    Calls settings nowMs (Coordinator.recordDisposition ⟨companionId, settings⟩ input nowMs)
  | recordAppraisal (companionId channelId : String) (action : ParticipationAction) :
    Calls settings nowMs
      (Coordinator.recordAppraisal ⟨companionId, settings⟩ channelId action nowMs)
  | closeForReservationGate (companionId channelId blockedBy : String) :
    Calls settings nowMs
      (Coordinator.closeForReservationGate ⟨companionId, settings⟩ channelId blockedBy nowMs)

end Coordinator

/-! ## The room -/

/-- The table, the clock of the processes, and the statements that took effect, the newest
first. -/
structure LeaseState where
  leases : RoomParticipationLeases := fun _ => none
  clock  : Nat := 0
  log    : List (LeaseKey × LeaseStatement) := []

def LeaseState.put (s : LeaseState) (key : LeaseKey) (statement : LeaseStatement)
    (lease : RoomParticipationLease) : LeaseState :=
  { s with
    leases := fun k => if k = key then some lease else s.leases k
    log := (key, statement) :: s.log }

/-- The answer, and the state afterwards. -/
def LeaseOp.exec (collation : Collation) (s : LeaseState) :
    LeaseOp → Option RoomParticipationLease × LeaseState
  | .read key => (s.leases key, s)
  | .run key statement =>
    match statement.returning collation (s.leases key) with
    | some lease => (some lease, s.put key statement lease)
    | none => (none, s)

/-- Any number of coordinators under the same settings. With a shared clock a call takes its time
from it and it never goes back; otherwise every process has a clock of its own. -/
def roomParticipation (collation : Collation) (settings : RoomParticipationLeaseSettings)
    (sharedClock : Bool) :
    Interleaving LeaseState LeaseCall LeaseOp where
  step := Program.Steps fun s op answer s' => op.exec collation s = (answer, s')
  environment s s' :=
    (sharedClock = true → s.clock ≤ s'.clock) ∧ s' = { s with clock := s'.clock }
  starts s call :=
    ∃ nowMs, (sharedClock = true → nowMs = s.clock) ∧ Coordinator.Calls settings nowMs call

abbrev RoomPool := Pool LeaseState LeaseCall

end Psfn.Room
