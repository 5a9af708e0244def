import Psfn.Room.LeaseRun

/-!
# Room participation leases — close reasons

A coordinator decides to close on a row it read, or on the row its appraisal returned, and
closes in a second statement that is conditioned on `status = 'active'` alone. A statement of
another coordinator in between may undo the reason: the lease that is closed is then not the
one that was looked at.

* `closes_truly` — when no statement that undoes the reason takes effect in between, every
  close is of a row that satisfies its reason;
* `holdsOf_returning_iff` — which statements undo which reason, exactly;
* `stale_close` — a lease re-opened after the read is closed as expired.
-/

namespace Psfn.Room

open Psfn.Lib
open Psfn.Fatigue (requireTimestamp)

variable {collation : Collation} {settings : RoomParticipationLeaseSettings}

/-! ## Reasons -/

/-- What the close reason says of the row, at the time of the close. The reasons of the
reservation gate and of the owner's switch say nothing of the row. -/
def RoomParticipationLeaseCloseReason.HoldsOf (settings : RoomParticipationLeaseSettings)
    (nowMs : Nat) (lease : RoomParticipationLease) : RoomParticipationLeaseCloseReason → Prop
  | .expiry => lease.expiresAtMs ≤ nowMs
  | .silence => (settings.silenceTimeoutMs : Int) ≤ nowMs - lease.lastActivityAtMs
  | .messageCap => settings.maxContinuationCandidates ≤ lease.consideredCount
  | .machineStreak => settings.maxConsecutiveMachineContinuations ≤ lease.machineStreak
  | .withdrawn => settings.maxConsecutiveIgnores ≤ lease.ignoreStreak
  | .fatigue => True
  | .roomPressure => True
  | .policyOff => True

/-- The statement, if it takes effect, makes the reason untrue. -/
def LeaseStatement.undoes (settings : RoomParticipationLeaseSettings) (nowMs : Nat) :
    LeaseStatement → RoomParticipationLeaseCloseReason → Bool
  | .openLease input, .expiry => nowMs < input.expiresAtMs
  | .refresh input, .expiry => nowMs < input.expiresAtMs
  | .openLease input, .silence => nowMs < input.nowMs + settings.silenceTimeoutMs
  | .refresh input, .silence => nowMs < input.nowMs + settings.silenceTimeoutMs
  | .claimContinuation input, .silence => nowMs < input.nowMs + settings.silenceTimeoutMs
  | .recordAppraisal _ atMs, .silence => nowMs < atMs + settings.silenceTimeoutMs
  | .openLease _, .messageCap => 0 < settings.maxContinuationCandidates
  | .openLease input, .machineStreak =>
    !input.authorIsMachine && 0 < settings.maxConsecutiveMachineContinuations
  | .claimContinuation input, .machineStreak =>
    !input.authorIsMachine && 0 < settings.maxConsecutiveMachineContinuations
  | .openLease _, .withdrawn => 0 < settings.maxConsecutiveIgnores
  | .refresh input, .withdrawn => !input.authorIsMachine && 0 < settings.maxConsecutiveIgnores
  | .recordAppraisal ignored _, .withdrawn => !ignored && 0 < settings.maxConsecutiveIgnores
  | _, _ => false

/-- A statement that takes effect on a row that satisfies a reason undoes it, or the row still
satisfies it. -/
theorem holdsOf_returning_iff {statement : LeaseStatement} {lease lease' : RoomParticipationLease}
    {reason : RoomParticipationLeaseCloseReason} {nowMs : Nat}
    (h : statement.returning collation (some lease) = some lease')
    (hholds : reason.HoldsOf settings nowMs lease) :
    reason.HoldsOf settings nowMs lease' ↔ statement.undoes settings nowMs reason = false := by
  cases statement with
  | openLease input =>
    simp only [LeaseStatement.returning, openLease, Option.ite_none_left_eq_some,
      Option.some.injEq] at h
    obtain ⟨-, rfl⟩ := h
    cases hauthor : input.authorIsMachine <;> cases reason <;>
      simp_all [RoomParticipationLeaseCloseReason.HoldsOf, LeaseStatement.undoes, reopenedLease,
        advanceWatermark] <;> omega
  | refresh input =>
    simp only [LeaseStatement.returning, refreshLease, Option.ite_none_right_eq_some,
      Option.some.injEq] at h
    obtain ⟨-, rfl⟩ := h
    cases hauthor : input.authorIsMachine <;> cases reason <;>
      simp_all [RoomParticipationLeaseCloseReason.HoldsOf, LeaseStatement.undoes,
        advanceWatermark] <;> omega
  | claimContinuation input =>
    simp only [LeaseStatement.returning, claimContinuation, Option.ite_none_right_eq_some,
      Option.some.injEq] at h
    obtain ⟨-, rfl⟩ := h
    cases hauthor : input.authorIsMachine <;> cases reason <;>
      simp_all [RoomParticipationLeaseCloseReason.HoldsOf, LeaseStatement.undoes] <;> omega
  | recordAppraisal ignored atMs =>
    simp only [LeaseStatement.returning, recordAppraisalRow, Option.ite_none_right_eq_some,
      Option.some.injEq] at h
    obtain ⟨-, rfl⟩ := h
    cases ignored <;> cases reason <;>
      simp_all [RoomParticipationLeaseCloseReason.HoldsOf, LeaseStatement.undoes] <;> omega
  | close other atMs =>
    simp only [LeaseStatement.returning, closeLease, Option.ite_none_right_eq_some,
      Option.some.injEq] at h
    obtain ⟨-, rfl⟩ := h
    cases reason <;>
      simp_all [RoomParticipationLeaseCloseReason.HoldsOf, LeaseStatement.undoes]

/-- The gate closes with a reason that is true of the row it looked at. -/
theorem holdsOf_of_evaluate {row : Option RoomParticipationLease}
    {observation : RoomParticipationObservation} {nowMs : Nat}
    {reason : RoomParticipationLeaseCloseReason} {suppression : ParticipationSuppressionReason}
    (h : evaluateRoomParticipationContinuation row observation settings nowMs =
      .close reason suppression) :
    ∃ lease, row = some lease ∧ reason.HoldsOf settings nowMs lease := by
  unfold evaluateRoomParticipationContinuation at h
  rcases hactive : row.filter (·.status = .active) with _ | lease
  · rw [hactive] at h
    exact RoomParticipationContinuationDecision.noConfusion h
  · rw [hactive] at h
    obtain ⟨hrow, -⟩ := Option.filter_eq_some_iff.1 hactive
    refine ⟨lease, hrow, ?_⟩
    dsimp only at h
    -- one case for each bound of the gate, in its order
    split at h
    · obtain ⟨rfl, -⟩ := RoomParticipationContinuationDecision.close.inj h
      trivial
    split at h
    · obtain ⟨rfl, -⟩ := RoomParticipationContinuationDecision.close.inj h
      assumption
    split at h
    · obtain ⟨rfl, -⟩ := RoomParticipationContinuationDecision.close.inj h
      assumption
    split at h
    · obtain ⟨rfl, -⟩ := RoomParticipationContinuationDecision.close.inj h
      assumption
    split at h
    · rename_i hmachine
      obtain ⟨rfl, -⟩ := RoomParticipationContinuationDecision.close.inj h
      rw [Bool.and_eq_true, decide_eq_true_eq] at hmachine
      exact hmachine.2
    split at h
    · exact RoomParticipationContinuationDecision.noConfusion h
    split at h
    · exact RoomParticipationContinuationDecision.noConfusion h
    split at h <;> exact RoomParticipationContinuationDecision.noConfusion h

/-! ## Decisions -/

/-- The close that a call awaits was decided for a reason that is true of the row. -/
def Decided (settings : RoomParticipationLeaseSettings) (s : LeaseState) : LeaseOp → Prop
  | .run key (.close reason nowMs) =>
    (∀ lease, reason.HoldsOf settings nowMs lease) ∨
      ∃ lease, s.leases key = some lease ∧ reason.HoldsOf settings nowMs lease
  | _ => True

theorem head_orThrow {α : Type} {A : LeaseOp → Prop} {checked : Except String α}
    {next : α → LeaseCall} (h : ∀ a, (next a).Head A) : (orThrow checked next).Head A := by
  cases checked with
  | ok a => exact h a
  | error message => trivial

theorem outlined_orThrow {α : Type}
    {exec : LeaseState → LeaseOp → Option RoomParticipationLease → LeaseState → Prop}
    {A : LeaseState → LeaseOp → Prop} {checked : Except String α} {next : α → LeaseCall}
    (h : ∀ a, (next a).Outlined exec A) : (orThrow checked next).Outlined exec A := by
  cases checked with
  | ok a => exact h a
  | error message => trivial

/-- **Every coordinator decides on the row that the store answered with.** -/
theorem Coordinator.Calls.outlined {nowMs : Nat} {call : LeaseCall}
    (h : Coordinator.Calls settings nowMs call) (s : LeaseState) :
    call.Head (Decided settings s) ∧
      call.Outlined (fun s op answer s' => op.exec collation s = (answer, s'))
        (Decided settings) := by
  cases h with
  | admitContinuation companionId channelId observation =>
    unfold Coordinator.admitContinuation
    refine ⟨head_orThrow fun key => trivial, outlined_orThrow fun key => ?_⟩
    intro s answer s' _ hexec
    obtain ⟨rfl, rfl⟩ := Prod.mk.inj hexec
    dsimp only
    split
    · exact ⟨trivial, trivial⟩
    · exact ⟨trivial, trivial⟩
    · rename_i hdecision
      exact ⟨.inr (holdsOf_of_evaluate hdecision), fun _ _ _ _ _ => ⟨trivial, trivial⟩⟩
    · exact ⟨head_orThrow fun _ => trivial,
        outlined_orThrow fun _ => fun _ _ _ _ _ => ⟨trivial, trivial⟩⟩
  | recordDisposition companionId input =>
    unfold Coordinator.recordDisposition
    dsimp only
    split
    · exact ⟨trivial, trivial⟩
    · refine ⟨head_orThrow fun source => trivial, outlined_orThrow fun source => ?_⟩
      intro s answer s' _ _
      dsimp only
      split
      · exact ⟨trivial, trivial⟩
      · exact ⟨trivial, fun _ _ _ _ _ => ⟨trivial, trivial⟩⟩
  | recordAppraisal companionId channelId action =>
    unfold Coordinator.recordAppraisal
    dsimp only
    split
    · exact ⟨trivial, trivial⟩
    · refine ⟨head_orThrow fun key => trivial, outlined_orThrow fun key => ?_⟩
      intro s answer s' _ hexec
      rcases exec_cases hexec with ⟨-, hnone⟩ | ⟨k, statement, lease, hop, -, rfl, rfl⟩
      · obtain rfl := hnone _ _ rfl
        exact ⟨trivial, trivial⟩
      · obtain ⟨rfl, rfl⟩ := LeaseOp.run.inj hop
        dsimp only
        split
        · exact ⟨trivial, trivial⟩
        · exact ⟨.inr ⟨lease, LeaseState.put_leases_self .., Nat.le_of_not_lt ‹_›⟩,
            fun _ _ _ _ _ => ⟨trivial, trivial⟩⟩
  | closeForReservationGate companionId channelId blockedBy =>
    unfold Coordinator.closeForReservationGate
    rcases hreason : Coordinator.reservationGateCloseReason blockedBy with _ | reason
    · exact ⟨trivial, trivial⟩
    · refine ⟨head_orThrow fun key => .inl fun lease => ?_,
        outlined_orThrow fun key => fun _ _ _ _ _ => ⟨trivial, trivial⟩⟩
      unfold Coordinator.reservationGateCloseReason at hreason
      split at hreason
      · obtain rfl := Option.some.inj hreason
        trivial
      · split at hreason
        · obtain rfl := Option.some.inj hreason
          trivial
        · cases hreason

/-! ## Runs -/

/-- The statement of the step, if it takes effect, undoes no reason for which a coordinator has
decided to close the lease and has not closed it yet. -/
def Undisturbed (collation : Collation) (settings : RoomParticipationLeaseSettings)
    (pool : RoomPool) (label : Option LeaseOp) (_ : LeaseState) : Prop :=
  ∀ key statement, label = some (.run key statement) →
    (statement.returning collation (pool.shared.leases key)).isSome = true →
    ∀ reason nowMs next, .await (.run key (.close reason nowMs)) next ∈ pool.running →
      statement.undoes settings nowMs reason = false

/-- A close that takes effect in the step is of a row that satisfies the reason. -/
def ClosesTruly (settings : RoomParticipationLeaseSettings) (pool : RoomPool)
    (label : Option LeaseOp) : Prop :=
  ∀ key reason nowMs lease, label = some (.run key (.close reason nowMs)) →
    pool.shared.leases key = some lease → lease.status = .active →
    reason.HoldsOf settings nowMs lease

/-- A statement that does not undo the reason of a decided close leaves it decided. -/
theorem decided_put {s : LeaseState} {key : LeaseKey} {statement : LeaseStatement}
    {lease : RoomParticipationLease}
    (hreturning : statement.returning collation (s.leases key) = some lease) {op : LeaseOp}
    (hundone : ∀ reason nowMs, op = .run key (.close reason nowMs) →
      statement.undoes settings nowMs reason = false)
    (hdecided : Decided settings s op) : Decided settings (s.put key statement lease) op := by
  cases op with
  | read other => trivial
  | run other closing =>
    cases closing with
    | close reason nowMs =>
      rcases hdecided with halways | ⟨old, hold, hholds⟩
      · exact .inl halways
      · by_cases hkey : other = key
        · subst hkey
          rw [hold] at hreturning
          exact .inr ⟨lease, LeaseState.put_leases_self ..,
            (holdsOf_returning_iff hreturning hholds).2 (hundone reason nowMs rfl)⟩
        · exact .inr ⟨old, by rw [LeaseState.put_leases_of_ne _ _ _ hkey, hold], hholds⟩
    | openLease input => trivial
    | refresh input => trivial
    | claimContinuation input => trivial
    | recordAppraisal ignored atMs => trivial

/--
**A durable close reason is true of the lease it closes** in every run in which no statement
that takes effect between a decision and its close undoes the reason.
-/
theorem closes_truly (collation : Collation) (settings : RoomParticipationLeaseSettings)
    (sharedClock : Bool) {pool pool' : RoomPool} {label : Option LeaseOp}
    (hreach : ((roomParticipation collation settings sharedClock).system
      (Undisturbed collation settings) {}).Reachable pool)
    (hstep : (roomParticipation collation settings sharedClock).Step pool label pool') :
    ClosesTruly settings pool label := by
  rintro key reason nowMs lease rfl hlease -
  obtain ⟨_, _, hmem, ⟨-⟩⟩ := hstep.running
  have hdecided := Interleaving.asserted (A := Decided settings) (fun s call hstarts => by
    obtain ⟨atMs, -, hcall⟩ := hstarts
    exact hcall.outlined s) ?_ ?_ hreach hmem
  · rcases hdecided with halways | ⟨other, hother, hholds⟩
    · exact halways lease
    · rw [hlease] at hother
      exact Option.some.inj hother ▸ hholds
  · -- another call's statement
    intro pool op next answer s' op' next' _ _ hexec hguard hmem' hdecided
    rcases exec_cases hexec with ⟨rfl, -⟩ | ⟨k, statement, lease, rfl, hreturning, -, rfl⟩
    · exact hdecided
    · refine decided_put hreturning (fun reason nowMs hop => ?_) hdecided
      subst hop
      exact hguard k statement rfl (by rw [hreturning]; rfl) reason nowMs next' hmem'
  · -- the clock
    rintro pool s' op next ⟨-, hclock⟩ - - hdecided
    rw [hclock]
    cases op with
    | read key => trivial
    | run key statement => cases statement <;> exact hdecided

/-! ## A stale close -/

section StaleClose

def codePointOrder : Collation where
  gt a b := decide (b < a)
  irrefl a := decide_eq_false (String.lt_irrefl a)
  trans _ _ _ hab hbc :=
    decide_eq_true (String.lt_trans (of_decide_eq_true hbc) (of_decide_eq_true hab))
  connected _ _ hab hba :=
    String.le_antisymm (String.not_lt.1 (of_decide_eq_false hab))
      (String.not_lt.1 (of_decide_eq_false hba))

/-- Ten milliseconds of membership for any disposition. -/
def shortLeases : RoomParticipationLeaseSettings where
  enabled := true
  leaseTtlMs := 10
  silenceTimeoutMs := 1000
  continuationCooldownMs := 0
  maxContinuationCandidates := 6
  maxConsecutiveMachineContinuations := 2
  maxConsecutiveIgnores := 3
  minContentChars := 1
  openOn := ⟨true, true, true, true, true⟩

def aCompanion : String := "00000000-0000-1000-8000-000000000000"

def aRoom : LeaseKey := ⟨aCompanion, "room"⟩

theorem requireKey_aRoom : requireKey aCompanion "room" = .ok aRoom := by
  have hcompanion : isRfc4122Uuid aCompanion = true := by decide +kernel
  have hchannel : JsString.utf16Length "room" = 4 := by decide +kernel
  simp [requireKey, requireCompanionId, requireIdentifier, hcompanion, hchannel, bind, Except.bind,
    pure, Except.pure, aRoom]

/-- The companion's reply to a human. -/
def aReply (messageId : String) (timestampMs : JsNumber) : Coordinator.DispositionInput where
  channelId := "room"
  channelType := "discord"
  disposition := .reply
  sourceMessageId := messageId
  sourceTimestampMs := timestampMs
  authorIsMachine := false
  isDirectMessage := false
  scope := "group"

def anOpening (source : RoomMessage) (nowMs : Nat) : OpenRoomParticipationLease where
  disposition := .reply
  source := source
  authorIsMachine := false
  nowMs := nowMs
  expiresAtMs := nowMs + 10

/-- What is left of the call after its refresh was answered. -/
def afterRefresh (source : RoomMessage) (nowMs : Nat)
    (refreshed : Option RoomParticipationLease) : LeaseCall :=
  if refreshed.isSome then .done
  else .await (.run aRoom (.openLease (anOpening source nowMs))) fun _ => .done

def replyCall (source : RoomMessage) (nowMs : Nat) : LeaseCall :=
  .await (.run aRoom (.refresh
    { source, authorIsMachine := false, nowMs, expiresAtMs := nowMs + 10 }))
    (afterRefresh source nowMs)

theorem recordDisposition_aReply {messageId : String} {timestampMs : JsNumber}
    {source : RoomMessage} (htrim : JsString.trim messageId = messageId) (hempty : messageId ≠ "")
    (hfinite : timestampMs.isFinite = true)
    (hsource : requireSource aCompanion "room" messageId timestampMs = .ok (aRoom, source))
    (nowMs : Nat) :
    Coordinator.recordDisposition ⟨aCompanion, shortLeases⟩ (aReply messageId timestampMs) nowMs =
      replyCall source nowMs := by
  unfold Coordinator.recordDisposition
  simp [aReply, shortLeases, Coordinator.isGroupCapableChannelType, htrim, hempty, hfinite, hsource,
    orThrow, Coordinator.opensOn, replyCall]
  funext refreshed
  simp [afterRefresh, anOpening]

theorem requireSource_aRoom {messageId : String} {timestampMs : JsNumber} {at_ : Nat}
    (hlength : 1 ≤ JsString.utf16Length messageId ∧ JsString.utf16Length messageId ≤ 512)
    (htime : requireTimestamp timestampMs "roomParticipationLease.watermarkTimestampMs" =
      .ok at_) :
    requireSource aCompanion "room" messageId timestampMs = .ok (aRoom, ⟨at_, messageId⟩) := by
  simp [requireSource, requireKey_aRoom, requireIdentifier, hlength.1, hlength.2, htime, bind,
    Except.bind, pure, Except.pure]

/-- The lease of a first reply. -/
def firstLease : RoomParticipationLease := insertedLease (anOpening ⟨0, "m0"⟩ 0)

/-- The lease of a second one. -/
def secondLease : RoomParticipationLease :=
  reopenedLease codePointOrder firstLease (anOpening ⟨20, "m3"⟩ 20)

def anObservation : RoomParticipationObservation where
  messageId := "m2"
  timestampMs := .finite 15
  authorIsMachine := false
  contentLength := 20

def staleClose : LeaseCall := .await (.run aRoom (.close .expiry 20)) fun _ => .done

/-- What is left of the admission after its read was answered. -/
def afterRead (lease : Option RoomParticipationLease) : LeaseCall :=
  match evaluateRoomParticipationContinuation lease anObservation shortLeases 20 with
  | .absent => .done
  | .suppressed _ => .done
  | .close reason _ => .await (.run aRoom (.close reason 20)) fun _ => .done
  | .admitted =>
    orThrow (requireClaim aCompanion "room" anObservation.messageId anObservation.timestampMs)
      fun (key, message) =>
        .await (.run key (.claimContinuation
          { message, authorIsMachine := false, nowMs := 20
            maxContinuationCandidates := 6, maxConsecutiveMachineContinuations := 2 }))
          fun _ => .done

theorem admitContinuation_anObservation :
    Coordinator.admitContinuation ⟨aCompanion, shortLeases⟩ "room" anObservation 20 =
      .await (.read aRoom) afterRead := by
  unfold Coordinator.admitContinuation
  rw [requireKey_aRoom]
  rfl

theorem afterRead_firstLease : afterRead (some firstLease) = staleClose := rfl

/-- The room after the first reply, with its statement in the log. -/
def repliedState (clock : Nat) : LeaseState where
  leases := fun k => if k = aRoom then some firstLease else none
  clock := clock
  log := [(aRoom, .openLease (anOpening ⟨0, "m0"⟩ 0))]

/-- The room after the second reply. -/
def reopenedState : LeaseState :=
  (repliedState 20).put aRoom (.openLease (anOpening ⟨20, "m3"⟩ 20)) secondLease

/-- The system under a guard that lets every step pass while no close is awaited. -/
structure PassesOpenSteps (guard : RoomPool → Option LeaseOp → LeaseState → Prop) : Prop where
  passes : ∀ pool label s,
    (∀ key reason nowMs next, .await (.run key (.close reason nowMs)) next ∉ pool.running) →
    guard pool label s

/-- A step of the first call in the list. -/
theorem next_of_exec {guard : RoomPool → Option LeaseOp → LeaseState → Prop}
    {s : LeaseState} {op : LeaseOp} {next : Option RoomParticipationLease → LeaseCall}
    {rest : List LeaseCall} (answer : Option RoomParticipationLease) (s' : LeaseState)
    (h : ((roomParticipation codePointOrder shortLeases true).system guard {}).Reachable
      ⟨s, .await op next :: rest⟩)
    (hexec : op.exec codePointOrder s = (answer, s')) (hguard : guard ⟨s, .await op next :: rest⟩
      (some op) s') :
    ((roomParticipation codePointOrder shortLeases true).system guard {}).Reachable
      ⟨s', next answer :: rest⟩ :=
  h.next ⟨some op, Interleaving.Step.first (.await hexec), hguard⟩

/-- A call that starts at the time of the clock. -/
theorem next_of_start {guard : RoomPool → Option LeaseOp → LeaseState → Prop}
    {s : LeaseState} {running : List LeaseCall} {call : LeaseCall}
    (h : ((roomParticipation codePointOrder shortLeases true).system guard {}).Reachable
      ⟨s, running⟩)
    (hcall : Coordinator.Calls shortLeases s.clock call) (hguard : guard ⟨s, running⟩ none s) :
    ((roomParticipation codePointOrder shortLeases true).system guard {}).Reachable
      ⟨s, call :: running⟩ :=
  h.next ⟨none, Interleaving.Step.start ⟨s.clock, fun _ => rfl, hcall⟩, hguard⟩

theorem calls_firstReply : Coordinator.Calls shortLeases 0 (replyCall ⟨0, "m0"⟩ 0) := by
  have hsource : requireSource aCompanion "room" "m0" (.finite 0) = .ok (aRoom, ⟨0, "m0"⟩) :=
    requireSource_aRoom (by decide +kernel) rfl
  rw [← recordDisposition_aReply (by decide +kernel) (by decide) rfl hsource]
  exact .recordDisposition _ _

theorem calls_secondReply : Coordinator.Calls shortLeases 20 (replyCall ⟨20, "m3"⟩ 20) := by
  have hsource : requireSource aCompanion "room" "m3" (.finite 20) = .ok (aRoom, ⟨20, "m3"⟩) :=
    requireSource_aRoom (by decide +kernel) rfl
  rw [← recordDisposition_aReply (by decide +kernel) (by decide) rfl hsource]
  exact .recordDisposition _ _

theorem calls_admission : Coordinator.Calls shortLeases 20 (.await (.read aRoom) afterRead) := by
  rw [← admitContinuation_anObservation]
  exact .admitContinuation _ _ _

/-- A lease opened at 0 until 10 was read at 20, and its close is awaited. -/
theorem decided_reachable {guard : RoomPool → Option LeaseOp → LeaseState → Prop}
    (hguard : PassesOpenSteps guard) :
    ((roomParticipation codePointOrder shortLeases true).system guard {}).Reachable
      ⟨repliedState 20, [staleClose, .done]⟩ := by
  have hinit : ((roomParticipation codePointOrder shortLeases true).system guard {}).Reachable
      ⟨{}, []⟩ := Relation.ReflTransGen.refl
  have hstarted := next_of_start hinit calls_firstReply (hguard.passes _ _ _ (by simp))
  have hrefreshed := next_of_exec none {} hstarted rfl (hguard.passes _ _ _ (by simp))
  have hopened := next_of_exec (some firstLease) (repliedState 0) hrefreshed rfl
    (hguard.passes _ _ _ (by simp))
  have htick : (roomParticipation codePointOrder shortLeases true).Step
      ⟨repliedState 0, [.done]⟩ none ⟨repliedState 20, [.done]⟩ :=
    .environment ⟨fun _ => Nat.zero_le _, rfl⟩
  have hticked := hopened.next ⟨none, htick, hguard.passes _ _ _ (by simp)⟩
  have hadmitting := next_of_start hticked calls_admission (hguard.passes _ _ _ (by simp))
  have hread := next_of_exec (some firstLease) (repliedState 20) hadmitting rfl
    (hguard.passes _ _ _ (by simp))
  rw [afterRead_firstLease] at hread
  exact hread

/-- In between, a human is replied to and the lease is open until 30. -/
theorem reopened_reachable :
    (roomRuns codePointOrder shortLeases true).Reachable
      ⟨reopenedState, [.done, staleClose, .done]⟩ := by
  have hstarted := next_of_start (decided_reachable ⟨fun _ _ _ _ => trivial⟩) calls_secondReply
    trivial
  have hrefreshed := next_of_exec none (repliedState 20) hstarted rfl trivial
  exact next_of_exec (some secondLease) reopenedState hrefreshed rfl trivial

/-- **A lease that a human re-opened after the read is closed as expired**, ten milliseconds
before it expires, on one clock that never goes back. -/
theorem stale_close :
    ¬ ∀ (collation : Collation) (settings : RoomParticipationLeaseSettings) (pool pool' : RoomPool)
      (label : Option LeaseOp), (roomRuns collation settings true).Reachable pool →
      (roomParticipation collation settings true).Step pool label pool' →
      ClosesTruly settings pool label := by
  intro h
  have hstep : (roomParticipation codePointOrder shortLeases true).Step
      ⟨reopenedState, [.done, staleClose, .done]⟩ (some (.run aRoom (.close .expiry 20)))
      ⟨reopenedState.put aRoom (.close .expiry 20)
        { secondLease with status := .closed, closedAtMs := some 20, closeReason := some .expiry
                           revision := 3 }, [.done, .done, .done]⟩ := by
    show (roomParticipation codePointOrder shortLeases true).Step
      ⟨reopenedState, [Program.done] ++ staleClose :: [.done]⟩ _
      ⟨_, [Program.done] ++ .done :: [.done]⟩
    exact .advance (.await rfl)
  have hlease : reopenedState.leases aRoom = some secondLease := rfl
  have hexpired : secondLease.expiresAtMs ≤ 20 :=
    h codePointOrder shortLeases _ _ _ reopened_reachable hstep aRoom .expiry 20 secondLease rfl
      hlease rfl
  exact absurd hexpired (by decide)

/-- The close that nothing came before. -/
theorem closes_truly_unless_reopened :
    ClosesTruly shortLeases ⟨repliedState 20, [staleClose, .done]⟩
      (some (.run aRoom (.close .expiry 20))) := by
  have hstep : (roomParticipation codePointOrder shortLeases true).Step
      ⟨repliedState 20, [staleClose, .done]⟩ (some (.run aRoom (.close .expiry 20)))
      ⟨(repliedState 20).put aRoom (.close .expiry 20)
        { firstLease with status := .closed, closedAtMs := some 20, closeReason := some .expiry
                          revision := 2 }, [.done, .done]⟩ := .first (.await rfl)
  exact closes_truly codePointOrder shortLeases true
    (decided_reachable ⟨fun pool label s hnone key statement _ _ reason nowMs next hmem =>
      absurd hmem (hnone key reason nowMs next)⟩) hstep

end StaleClose

end Psfn.Room
