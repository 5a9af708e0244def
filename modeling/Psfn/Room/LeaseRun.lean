import Psfn.Room.Lease

/-!
# Room participation leases — runs

Every statement that takes effect keeps the watermark or advances it, and a claim advances it
strictly; the counters of a row are the tallies of the statements that took effect on it.

* `room_messages_considered_once` — watermark, claims and message budget over every
  interleaving of coordinators;
* `machine_claims_bounded` — the bot-loop budget.
-/

namespace Psfn.Room

open Psfn.Lib

/-! ## The order of room messages -/

namespace RoomMessage

variable {collation : Collation} {a b c : RoomMessage}

theorem after_iff : a.after collation b = true ↔
    b.timestampMs < a.timestampMs ∨
      (a.timestampMs = b.timestampMs ∧ collation.gt a.messageId b.messageId = true) := by
  simp [after]

theorem after_irrefl : a.after collation a = false := by
  simp [after, collation.irrefl]

theorem after_trans (hab : a.after collation b = true) (hbc : b.after collation c = true) :
    a.after collation c = true := by
  rw [after_iff] at hab hbc ⊢
  rcases hab with hab | ⟨hab, hidab⟩ <;> rcases hbc with hbc | ⟨hbc, hidbc⟩
  · exact .inl (by omega)
  · exact .inl (by omega)
  · exact .inl (by omega)
  · exact .inr ⟨by omega, collation.trans _ _ _ hidab hidbc⟩

theorem eq_of_not_after (hab : a.after collation b = false) (hba : b.after collation a = false) :
    a = b := by
  have hnab : ¬ (a.after collation b = true) := by simp [hab]
  have hnba : ¬ (b.after collation a = true) := by simp [hba]
  rw [after_iff] at hnab hnba
  have htime : a.timestampMs = b.timestampMs := by omega
  have hid : a.messageId = b.messageId := by
    refine collation.connected _ _ ?_ ?_
    · exact Bool.eq_false_iff.2 fun h => hnab (.inr ⟨htime, h⟩)
    · exact Bool.eq_false_iff.2 fun h => hnba (.inr ⟨htime.symm, h⟩)
  cases a
  cases b
  simp_all

/-- "Not after" is transitive. -/
theorem not_after_trans (hab : a.after collation b = false) (hbc : b.after collation c = false) :
    a.after collation c = false := by
  by_contra hac
  rw [Bool.not_eq_false] at hac
  rcases hcb : c.after collation b with _ | _
  · -- `b` and `c` are the same message
    rw [eq_of_not_after hbc hcb, hac] at hab
    exact Bool.noConfusion hab
  · rw [after_trans hac hcb] at hab
    exact Bool.noConfusion hab

theorem not_after_of_after (hab : a.after collation b = true) : b.after collation a = false := by
  by_contra hba
  rw [Bool.not_eq_false] at hba
  have hself := after_trans hab hba
  rw [after_irrefl] at hself
  exact Bool.noConfusion hself

end RoomMessage

/-! ## What a statement does to a row -/

/-- The room message that the statement considers. -/
def LeaseStatement.message : LeaseStatement → Option RoomMessage
  | .openLease input => some input.source
  | .refresh input => some input.source
  | .claimContinuation input => some input.message
  | .recordAppraisal _ _ => none
  | .close _ _ => none

variable {collation : Collation}

/-- `CASE WHEN … >` and `GREATEST` give the later of the two messages. -/
theorem advanceWatermark_watermark (lease : RoomParticipationLease) (source : RoomMessage) :
    (advanceWatermark collation lease source).watermark =
      if source.after collation lease.watermark then source else lease.watermark := by
  obtain ⟨sourceMs, sourceId⟩ := source
  by_cases hafter :
      RoomMessage.after collation ⟨sourceMs, sourceId⟩ lease.watermark = true
  · have htime : lease.watermarkTimestampMs ≤ sourceMs := by
      rcases RoomMessage.after_iff.1 hafter with h | ⟨h, -⟩
      · exact Nat.le_of_lt h
      · exact Nat.le_of_eq h.symm
    simp only [RoomParticipationLease.watermark] at hafter
    simp [advanceWatermark, RoomParticipationLease.watermark, hafter, htime]
  · have htime : sourceMs ≤ lease.watermarkTimestampMs := by
      by_contra hlt
      exact hafter (RoomMessage.after_iff.2 (.inl (Nat.lt_of_not_le hlt)))
    simp only [RoomParticipationLease.watermark] at hafter
    simp [advanceWatermark, RoomParticipationLease.watermark, hafter, htime]

theorem not_after_advanceWatermark (lease : RoomParticipationLease) (source : RoomMessage) :
    lease.watermark.after collation (advanceWatermark collation lease source).watermark = false ∧
      source.after collation (advanceWatermark collation lease source).watermark = false := by
  rw [advanceWatermark_watermark]
  by_cases hafter : source.after collation lease.watermark = true
  · rw [if_pos hafter]
    exact ⟨RoomMessage.not_after_of_after hafter, RoomMessage.after_irrefl⟩
  · rw [if_neg hafter]
    exact ⟨RoomMessage.after_irrefl, Bool.not_eq_true _ ▸ hafter⟩

variable {statement : LeaseStatement} {lease lease' : RoomParticipationLease}

/-- The row's watermark does not go back. -/
theorem returning_watermark (h : statement.returning collation (some lease) = some lease') :
    lease.watermark.after collation lease'.watermark = false := by
  cases statement with
  | openLease input =>
    simp only [LeaseStatement.returning, openLease, Option.ite_none_left_eq_some,
      Option.some.injEq] at h
    rw [← h.2]
    exact (not_after_advanceWatermark lease input.source).1
  | refresh input =>
    simp only [LeaseStatement.returning, refreshLease, Option.ite_none_right_eq_some,
      Option.some.injEq] at h
    rw [← h.2]
    exact (not_after_advanceWatermark lease input.source).1
  | claimContinuation input =>
    simp only [LeaseStatement.returning, claimContinuation, Option.ite_none_right_eq_some,
      Option.some.injEq, Bool.and_eq_true] at h
    rw [← h.2]
    exact RoomMessage.not_after_of_after h.1.1.1.2
  | recordAppraisal ignored nowMs =>
    simp only [LeaseStatement.returning, recordAppraisalRow, Option.ite_none_right_eq_some,
      Option.some.injEq] at h
    rw [← h.2]
    exact RoomMessage.after_irrefl
  | close reason nowMs =>
    simp only [LeaseStatement.returning, closeLease, Option.ite_none_right_eq_some,
      Option.some.injEq] at h
    rw [← h.2]
    exact RoomMessage.after_irrefl

variable {row : Option RoomParticipationLease}

/-- A message that was considered is not after the watermark. -/
theorem returning_message {message : RoomMessage}
    (h : statement.returning collation row = some lease')
    (hmessage : statement.message = some message) :
    message.after collation lease'.watermark = false := by
  cases statement with
  | openLease input =>
    obtain rfl := Option.some.inj hmessage
    cases row with
    | none =>
      obtain rfl := Option.some.inj h
      exact RoomMessage.after_irrefl
    | some lease =>
      simp only [LeaseStatement.returning, openLease, Option.ite_none_left_eq_some,
        Option.some.injEq] at h
      rw [← h.2]
      exact (not_after_advanceWatermark lease input.source).2
  | refresh input =>
    obtain rfl := Option.some.inj hmessage
    cases row with
    | none => exact absurd h (by simp [LeaseStatement.returning, refreshLease])
    | some lease =>
      simp only [LeaseStatement.returning, refreshLease, Option.ite_none_right_eq_some,
        Option.some.injEq] at h
      rw [← h.2]
      exact (not_after_advanceWatermark lease input.source).2
  | claimContinuation input =>
    obtain rfl := Option.some.inj hmessage
    cases row with
    | none => exact absurd h (by simp [LeaseStatement.returning, claimContinuation])
    | some lease =>
      simp only [LeaseStatement.returning, claimContinuation, Option.ite_none_right_eq_some,
        Option.some.injEq] at h
      rw [← h.2]
      exact RoomMessage.after_irrefl
  | recordAppraisal ignored nowMs => exact absurd hmessage (by simp [LeaseStatement.message])
  | close reason nowMs => exact absurd hmessage (by simp [LeaseStatement.message])

/-- Only an opening makes a row. -/
theorem opens_of_returning_none (h : statement.returning collation none = some lease') :
    ∃ input, statement = .openLease input ∧ lease' = insertedLease input := by
  cases statement with
  | openLease input => exact ⟨input, rfl, (Option.some.inj h).symm⟩
  | refresh input => exact absurd h (by simp [LeaseStatement.returning, refreshLease])
  | claimContinuation input =>
    exact absurd h (by simp [LeaseStatement.returning, claimContinuation])
  | recordAppraisal ignored nowMs =>
    exact absurd h (by simp [LeaseStatement.returning, recordAppraisalRow])
  | close reason nowMs => exact absurd h (by simp [LeaseStatement.returning, closeLease])

theorem claim_cases {input : ClaimRoomParticipationContinuation}
    (h : claimContinuation collation input (some lease) = some lease') :
    input.message.after collation lease.watermark = true ∧
      lease.consideredCount < input.maxContinuationCandidates ∧
      (input.authorIsMachine = true →
        lease.machineStreak < input.maxConsecutiveMachineContinuations) ∧
      lease'.consideredCount = lease.consideredCount + 1 ∧
      lease'.machineStreak = if input.authorIsMachine then lease.machineStreak + 1 else 0 := by
  simp only [claimContinuation, Option.ite_none_right_eq_some, Option.some.injEq,
    Bool.and_eq_true, decide_eq_true_eq, Bool.or_eq_true, Bool.not_eq_true'] at h
  obtain ⟨⟨⟨⟨-, hafter⟩, hcount⟩, hmachine⟩, rfl⟩ := h
  refine ⟨hafter, hcount, fun hauthor => ?_, rfl, rfl⟩
  rcases hmachine with hhuman | hstreak
  · rw [hauthor] at hhuman
    exact Bool.noConfusion hhuman
  · exact hstreak

/-! ## Tallies -/

/-- How many entries count since the last one that resets, the newest entry first. -/
def sinceLast {α : Type} (resets counts : α → Bool) : List α → Nat
  | [] => 0
  | entry :: older =>
    if resets entry then 0 else (if counts entry then 1 else 0) + sinceLast resets counts older

variable {α : Type}

theorem countP_le_sinceLast {resets counts : α → Bool} {between log : List α}
    (hfront : between <+: log) (hnone : ∀ entry ∈ between, resets entry = false) :
    between.countP counts ≤ sinceLast resets counts log := by
  induction between generalizing log with
  | nil => exact Nat.zero_le _
  | cons entry rest ih =>
    obtain ⟨older, rfl⟩ := hfront
    have hrest := ih (List.prefix_append rest older) fun e he => hnone e (List.mem_cons_of_mem _ he)
    have hentry := hnone entry List.mem_cons_self
    rw [List.cons_append, sinceLast, hentry, List.countP_cons]
    simp only [Bool.false_eq_true, if_false]
    omega

/-- If the tally never passed the bound, no stretch without a reset has more entries. -/
theorem countP_le_of_sinceLast_le {resets counts : α → Bool} {bound : Nat} {between log : List α}
    (htally : ∀ earlier, earlier <:+ log → sinceLast resets counts earlier ≤ bound)
    (hbetween : between <:+: log) (hnone : ∀ entry ∈ between, resets entry = false) :
    between.countP counts ≤ bound := by
  obtain ⟨earlier, hfront, hsuffix⟩ := List.infix_iff_prefix_suffix.1 hbetween
  exact (countP_le_sinceLast hfront hnone).trans (htally earlier hsuffix)

/-- A statement that took effect on a row. -/
abbrev LeaseEvent := LeaseKey × LeaseStatement

def opensAt (key : LeaseKey) (event : LeaseEvent) : Bool :=
  event.1 = key && match event.2 with
    | .openLease _ => true
    | _ => false

def claimsAt (key : LeaseKey) (event : LeaseEvent) : Bool :=
  event.1 = key && match event.2 with
    | .claimContinuation _ => true
    | _ => false

/-- A human opened the lease or was claimed. -/
def humanAt (key : LeaseKey) (event : LeaseEvent) : Bool :=
  event.1 = key && match event.2 with
    | .openLease input => !input.authorIsMachine
    | .claimContinuation input => !input.authorIsMachine
    | _ => false

def machineClaimsAt (key : LeaseKey) (event : LeaseEvent) : Bool :=
  event.1 = key && match event.2 with
    | .claimContinuation input => input.authorIsMachine
    | _ => false

variable {key : LeaseKey} {log : List LeaseEvent}

/-- The counters of a row after a statement, as tallies. -/
theorem returning_tallies (h : statement.returning collation (some lease) = some lease')
    (hconsidered : lease.consideredCount = sinceLast (opensAt key) (claimsAt key) log)
    (hmachine : lease.machineStreak = sinceLast (humanAt key) (machineClaimsAt key) log) :
    lease'.consideredCount =
        sinceLast (opensAt key) (claimsAt key) ((key, statement) :: log) ∧
      lease'.machineStreak =
        sinceLast (humanAt key) (machineClaimsAt key) ((key, statement) :: log) := by
  cases statement with
  | openLease input =>
    simp only [LeaseStatement.returning, openLease, Option.ite_none_left_eq_some,
      Option.some.injEq] at h
    rw [← h.2]
    cases hauthor : input.authorIsMachine <;>
      simp [reopenedLease, sinceLast, opensAt, humanAt, machineClaimsAt, hauthor, hmachine]
  | refresh input =>
    simp only [LeaseStatement.returning, refreshLease, Option.ite_none_right_eq_some,
      Option.some.injEq] at h
    rw [← h.2]
    simp [advanceWatermark, sinceLast, opensAt, claimsAt, humanAt, machineClaimsAt, hconsidered,
      hmachine]
  | claimContinuation input =>
    obtain ⟨-, -, -, hcount, hstreak⟩ := claim_cases h
    rw [hcount, hstreak]
    cases hauthor : input.authorIsMachine <;>
      simp [sinceLast, opensAt, claimsAt, humanAt, machineClaimsAt, hauthor, hconsidered,
        hmachine, Nat.add_comm]
  | recordAppraisal ignored nowMs =>
    simp only [LeaseStatement.returning, recordAppraisalRow, Option.ite_none_right_eq_some,
      Option.some.injEq] at h
    rw [← h.2]
    simp [sinceLast, opensAt, claimsAt, humanAt, machineClaimsAt, hconsidered, hmachine]
  | close reason nowMs =>
    simp only [LeaseStatement.returning, closeLease, Option.ite_none_right_eq_some,
      Option.some.injEq] at h
    rw [← h.2]
    simp [sinceLast, opensAt, claimsAt, humanAt, machineClaimsAt, hconsidered, hmachine]

/-- An event of another row is not counted. -/
theorem sinceLast_other {other : LeaseKey} (hne : other ≠ key) :
    sinceLast (opensAt key) (claimsAt key) ((other, statement) :: log) =
        sinceLast (opensAt key) (claimsAt key) log ∧
      sinceLast (humanAt key) (machineClaimsAt key) ((other, statement) :: log) =
        sinceLast (humanAt key) (machineClaimsAt key) log := by
  simp [sinceLast, opensAt, claimsAt, humanAt, machineClaimsAt, hne]

/-! ## Steps -/

variable {s : LeaseState}

/-- An operation leaves the state alone, or a statement takes effect on its row. -/
theorem exec_cases {op : LeaseOp} {s' : LeaseState} {answer : Option RoomParticipationLease}
    (h : op.exec collation s = (answer, s')) :
    (s' = s ∧ ∀ key statement, op = .run key statement → answer = none) ∨
      ∃ key statement lease, op = .run key statement ∧
        statement.returning collation (s.leases key) = some lease ∧
        answer = some lease ∧ s' = s.put key statement lease := by
  cases op with
  | read key =>
    obtain ⟨rfl, rfl⟩ := Prod.mk.inj h
    exact .inl ⟨rfl, fun k statement hk => LeaseOp.noConfusion hk⟩
  | run key statement =>
    rw [LeaseOp.exec] at h
    rcases hreturning : statement.returning collation (s.leases key) with _ | lease
    · rw [hreturning] at h
      obtain ⟨rfl, rfl⟩ := Prod.mk.inj h
      exact .inl ⟨rfl, fun k statement hk => rfl⟩
    · rw [hreturning] at h
      obtain ⟨rfl, rfl⟩ := Prod.mk.inj h
      exact .inr ⟨key, statement, lease, rfl, hreturning, rfl, rfl⟩

@[simp] theorem LeaseState.put_leases_self (s : LeaseState) (key : LeaseKey)
    (statement : LeaseStatement) (lease : RoomParticipationLease) :
    (s.put key statement lease).leases key = some lease := by
  simp [LeaseState.put]

theorem LeaseState.put_leases_of_ne (s : LeaseState) {other : LeaseKey} (statement : LeaseStatement)
    (lease : RoomParticipationLease) (h : other ≠ key) :
    (s.put key statement lease).leases other = s.leases other := by
  simp [LeaseState.put, h]

@[simp] theorem LeaseState.put_log (s : LeaseState) (key : LeaseKey) (statement : LeaseStatement)
    (lease : RoomParticipationLease) :
    (s.put key statement lease).log = (key, statement) :: s.log := rfl

/-- A claim carries the budgets of the owner. -/
def LeaseOp.Budgeted (settings : RoomParticipationLeaseSettings) : LeaseOp → Prop
  | .run _ (.claimContinuation input) =>
    input.maxContinuationCandidates = settings.maxContinuationCandidates ∧
      input.maxConsecutiveMachineContinuations = settings.maxConsecutiveMachineContinuations
  | _ => True

theorem issues_orThrow {P : LeaseOp → Prop} {checked : Except String α} {next : α → LeaseCall}
    (h : ∀ a, (next a).Issues P) : (orThrow checked next).Issues P := by
  cases checked with
  | ok a => exact h a
  | error message => trivial

variable {settings : RoomParticipationLeaseSettings}

theorem Coordinator.Calls.budgeted {nowMs : Nat} {call : LeaseCall}
    (h : Coordinator.Calls settings nowMs call) :
    call.Issues (LeaseOp.Budgeted settings) := by
  cases h with
  | admitContinuation companionId channelId observation =>
    refine issues_orThrow fun key => ⟨trivial, fun lease => ?_⟩
    dsimp only
    split
    · trivial
    · trivial
    · exact ⟨trivial, fun _ => trivial⟩
    · exact issues_orThrow fun claim => ⟨⟨rfl, rfl⟩, fun _ => trivial⟩
  | recordDisposition companionId input =>
    unfold Coordinator.recordDisposition
    dsimp only
    split
    · trivial
    · refine issues_orThrow fun source => ⟨trivial, fun refreshed => ?_⟩
      dsimp only
      split
      · trivial
      · exact ⟨trivial, fun _ => trivial⟩
  | recordAppraisal companionId channelId action =>
    unfold Coordinator.recordAppraisal
    dsimp only
    split
    · trivial
    · refine issues_orThrow fun key => ⟨trivial, fun updated => ?_⟩
      cases updated with
      | none => trivial
      | some lease =>
        dsimp only
        split
        · trivial
        · exact ⟨trivial, fun _ => trivial⟩
  | closeForReservationGate companionId channelId blockedBy =>
    unfold Coordinator.closeForReservationGate
    cases Coordinator.reservationGateCloseReason blockedBy with
    | none => trivial
    | some reason => exact issues_orThrow fun key => ⟨trivial, fun _ => trivial⟩

/-! ## The invariant -/

/-- A later claim is of a message that was not considered before. -/
def ClaimsNew (later earlier : LeaseEvent) : Prop :=
  ∀ input, later.2 = .claimContinuation input → earlier.1 = later.1 →
    earlier.2.message ≠ some input.message

/-- What the rows say about the statements that took effect. -/
structure LeaseState.Recorded (collation : Collation) (settings : RoomParticipationLeaseSettings)
    (s : LeaseState) : Prop where
  seen       : ∀ event ∈ s.log, ∃ lease, s.leases event.1 = some lease ∧
    ∀ message, event.2.message = some message →
      message.after collation lease.watermark = false
  once       : s.log.Pairwise ClaimsNew
  considered : ∀ key lease, s.leases key = some lease →
    lease.consideredCount = sinceLast (opensAt key) (claimsAt key) s.log
  machine    : ∀ key lease, s.leases key = some lease →
    lease.machineStreak = sinceLast (humanAt key) (machineClaimsAt key) s.log
  budget     : ∀ key earlier, earlier <:+ s.log →
    sinceLast (opensAt key) (claimsAt key) earlier ≤ settings.maxContinuationCandidates
  botLoop    : ∀ key earlier, earlier <:+ s.log →
    sinceLast (humanAt key) (machineClaimsAt key) earlier ≤
      settings.maxConsecutiveMachineContinuations

/-- Nothing happened to a row that does not exist. -/
theorem LeaseState.Recorded.sinceLast_of_none (h : s.Recorded collation settings)
    (hnone : s.leases key = none) (resets counts : LeaseEvent → Bool)
    (hcounts : ∀ event, counts event = true → event.1 = key) :
    sinceLast resets counts s.log = 0 := by
  have hnever : ∀ event ∈ s.log, counts event = false := by
    intro event hevent
    obtain ⟨lease, hlease, -⟩ := h.seen event hevent
    refine Bool.eq_false_iff.2 fun hcount => ?_
    rw [hcounts event hcount, hnone] at hlease
    cases hlease
  generalize s.log = log at hnever
  induction log with
  | nil => rfl
  | cons event older ih =>
    have hevent := hnever event List.mem_cons_self
    rw [sinceLast, ih fun e he => hnever e (List.mem_cons_of_mem _ he), hevent]
    simp

/-- The tallies stay within the budgets: a statement that is no claim adds nothing to them. -/
theorem returning_within (hbudgeted : (LeaseOp.run key statement).Budgeted settings)
    (h : statement.returning collation row = some lease')
    (hconsidered : ∀ lease, row = some lease →
      lease.consideredCount = sinceLast (opensAt key) (claimsAt key) log)
    (hmachine : ∀ lease, row = some lease →
      lease.machineStreak = sinceLast (humanAt key) (machineClaimsAt key) log)
    (hbudget : sinceLast (opensAt key) (claimsAt key) log ≤ settings.maxContinuationCandidates)
    (hbotLoop : sinceLast (humanAt key) (machineClaimsAt key) log ≤
      settings.maxConsecutiveMachineContinuations) :
    sinceLast (opensAt key) (claimsAt key) ((key, statement) :: log) ≤
        settings.maxContinuationCandidates ∧
      sinceLast (humanAt key) (machineClaimsAt key) ((key, statement) :: log) ≤
        settings.maxConsecutiveMachineContinuations := by
  cases statement with
  | claimContinuation input =>
    cases row with
    | none => exact absurd h (by simp [LeaseStatement.returning, claimContinuation])
    | some lease =>
      obtain ⟨hcap, hmachineCap⟩ := hbudgeted
      obtain ⟨-, hcount, hstreak, -, -⟩ := claim_cases h
      rw [hconsidered lease rfl] at hcount
      rw [hmachine lease rfl] at hstreak
      cases hauthor : input.authorIsMachine with
      | false =>
        simp only [sinceLast, opensAt, claimsAt, humanAt, hauthor, decide_true, Bool.and_false,
          Bool.and_true, Bool.not_false, Bool.false_eq_true, if_true, if_false, Nat.zero_le,
          and_true]
        omega
      | true =>
        have hlt := hstreak hauthor
        simp only [sinceLast, opensAt, claimsAt, humanAt, machineClaimsAt, hauthor, decide_true,
          Bool.and_false, Bool.and_true, Bool.not_true, Bool.false_eq_true, if_true, if_false]
        omega
  | openLease input =>
    cases hauthor : input.authorIsMachine with
    | false => simp [sinceLast, opensAt, humanAt, hauthor]
    | true => simpa [sinceLast, opensAt, humanAt, machineClaimsAt, hauthor] using hbotLoop
  | refresh input =>
    simpa [sinceLast, opensAt, claimsAt, humanAt, machineClaimsAt] using And.intro hbudget hbotLoop
  | recordAppraisal ignored nowMs =>
    simpa [sinceLast, opensAt, claimsAt, humanAt, machineClaimsAt] using And.intro hbudget hbotLoop
  | close reason nowMs =>
    simpa [sinceLast, opensAt, claimsAt, humanAt, machineClaimsAt] using And.intro hbudget hbotLoop

/-- The counters that an insert starts from are the tallies of a row without events. -/
theorem inserted_tallies (hrec : s.Recorded collation settings) (hnone : s.leases key = none)
    (h : statement.returning collation none = some lease') :
    lease'.consideredCount =
        sinceLast (opensAt key) (claimsAt key) ((key, statement) :: s.log) ∧
      lease'.machineStreak =
        sinceLast (humanAt key) (machineClaimsAt key) ((key, statement) :: s.log) := by
  obtain ⟨input, rfl, rfl⟩ := opens_of_returning_none h
  have hmachine := hrec.sinceLast_of_none hnone (humanAt key) (machineClaimsAt key)
    fun event hevent => by
      rw [machineClaimsAt, Bool.and_eq_true, decide_eq_true_eq] at hevent
      exact hevent.1
  cases hauthor : input.authorIsMachine <;>
    simp [insertedLease, sinceLast, opensAt, humanAt, machineClaimsAt, hauthor, ← hmachine]

/-- A claim is after everything that was considered. -/
theorem claim_after {input : ClaimRoomParticipationContinuation}
    (h : statement.returning collation row = some lease')
    (hclaim : statement = .claimContinuation input) :
    ∃ lease, row = some lease ∧ input.message.after collation lease.watermark = true := by
  subst hclaim
  cases row with
  | none => exact absurd h (by simp [LeaseStatement.returning, claimContinuation])
  | some lease => exact ⟨lease, rfl, (claim_cases h).1⟩

theorem LeaseState.Recorded.put (h : s.Recorded collation settings)
    (hbudgeted : (LeaseOp.run key statement).Budgeted settings)
    (hreturning : statement.returning collation (s.leases key) = some lease') :
    (s.put key statement lease').Recorded collation settings := by
  have htallies : lease'.consideredCount =
        sinceLast (opensAt key) (claimsAt key) ((key, statement) :: s.log) ∧
      lease'.machineStreak =
        sinceLast (humanAt key) (machineClaimsAt key) ((key, statement) :: s.log) := by
    rcases hrow : s.leases key with _ | lease
    · rw [hrow] at hreturning
      exact inserted_tallies h hrow hreturning
    · rw [hrow] at hreturning
      exact returning_tallies hreturning (h.considered key lease hrow) (h.machine key lease hrow)
  have hwithin : sinceLast (opensAt key) (claimsAt key) ((key, statement) :: s.log) ≤
        settings.maxContinuationCandidates ∧
      sinceLast (humanAt key) (machineClaimsAt key) ((key, statement) :: s.log) ≤
        settings.maxConsecutiveMachineContinuations :=
    returning_within hbudgeted hreturning (h.considered key) (h.machine key)
      (h.budget key _ List.suffix_rfl) (h.botLoop key _ List.suffix_rfl)
  refine ⟨?_, ?_, ?_, ?_, ?_, ?_⟩
  · -- what was considered stays at or below the watermark
    intro event hevent
    rcases List.mem_cons.1 hevent with rfl | hevent
    · exact ⟨lease', s.put_leases_self .., fun m hm => returning_message hreturning hm⟩
    · obtain ⟨lease, hlease, hbelow⟩ := h.seen event hevent
      by_cases hkey : event.1 = key
      · rw [hkey] at hlease ⊢
        rw [hlease] at hreturning
        refine ⟨lease', s.put_leases_self .., fun m hm => ?_⟩
        exact RoomMessage.not_after_trans (hbelow m hm) (returning_watermark hreturning)
      · exact ⟨lease, by rw [s.put_leases_of_ne _ _ hkey, hlease], hbelow⟩
  · refine List.pairwise_cons.2 ⟨fun earlier hearlier input hclaim hkey hmessage => ?_, h.once⟩
    obtain ⟨lease, hlease, hafter⟩ := claim_after hreturning hclaim
    obtain ⟨seenLease, hseenLease, hbelow⟩ := h.seen earlier hearlier
    rw [hkey, hlease] at hseenLease
    obtain rfl := Option.some.inj hseenLease
    rw [hbelow _ hmessage] at hafter
    exact Bool.noConfusion hafter
  · intro other lease hlease
    by_cases hother : other = key
    · subst hother
      rw [s.put_leases_self] at hlease
      exact Option.some.inj hlease ▸ htallies.1
    · rw [s.put_leases_of_ne _ _ hother] at hlease
      rw [s.put_log, (sinceLast_other (Ne.symm hother)).1]
      exact h.considered other lease hlease
  · intro other lease hlease
    by_cases hother : other = key
    · subst hother
      rw [s.put_leases_self] at hlease
      exact Option.some.inj hlease ▸ htallies.2
    · rw [s.put_leases_of_ne _ _ hother] at hlease
      rw [s.put_log, (sinceLast_other (Ne.symm hother)).2]
      exact h.machine other lease hlease
  · intro other earlier hsuffix
    rcases List.suffix_cons_iff.1 hsuffix with rfl | hsuffix
    · by_cases hother : other = key
      · exact hother ▸ hwithin.1
      · rw [(sinceLast_other (Ne.symm hother)).1]
        exact h.budget other _ List.suffix_rfl
    · exact h.budget other earlier hsuffix
  · intro other earlier hsuffix
    rcases List.suffix_cons_iff.1 hsuffix with rfl | hsuffix
    · by_cases hother : other = key
      · exact hother ▸ hwithin.2
      · rw [(sinceLast_other (Ne.symm hother)).2]
        exact h.botLoop other _ List.suffix_rfl
    · exact h.botLoop other earlier hsuffix

theorem recorded_initial (settings : RoomParticipationLeaseSettings) :
    ({} : LeaseState).Recorded collation settings where
  seen := fun _ h => absurd h List.not_mem_nil
  once := List.Pairwise.nil
  considered := fun _ _ h => absurd h (by simp)
  machine := fun _ _ h => absurd h (by simp)
  budget := fun _ earlier h => by
    rw [List.suffix_nil.1 h]
    exact Nat.zero_le _
  botLoop := fun _ earlier h => by
    rw [List.suffix_nil.1 h]
    exact Nat.zero_le _

/-- The clock is not part of what is recorded. -/
theorem LeaseState.Recorded.tick (h : s.Recorded collation settings) (clock : Nat) :
    ({ s with clock := clock } : LeaseState).Recorded collation settings :=
  ⟨h.seen, h.once, h.considered, h.machine, h.budget, h.botLoop⟩

/-! ## Runs -/

/-- The runs of a room from an empty table, with nothing left out. -/
abbrev roomRuns (collation : Collation) (settings : RoomParticipationLeaseSettings)
    (sharedClock : Bool) : System RoomPool :=
  (roomParticipation collation settings sharedClock).system (fun _ _ _ => True) {}

variable {sharedClock : Bool} {pool pool' : RoomPool}

/-- Every operation of a step carries the owner's budgets. -/
theorem step_budgeted {guard : RoomPool → Option LeaseOp → LeaseState → Prop} {op : LeaseOp}
    (hreach : ((roomParticipation collation settings sharedClock).system guard {}).Reachable pool)
    (hstep : (roomParticipation collation settings sharedClock).Step pool (some op) pool') :
    op.Budgeted settings := by
  obtain ⟨_, _, hmem, ⟨hexec⟩⟩ := hstep.running
  exact (Interleaving.issues_of_reachable (fun s call hstarts => by
    obtain ⟨nowMs, -, hcall⟩ := hstarts
    exact hcall.budgeted) hreach _ hmem).1

/-- The table and the log of a step: unchanged, or one statement took effect. -/
theorem step_cases {label : Option LeaseOp}
    (hstep : (roomParticipation collation settings sharedClock).Step pool label pool') :
    (∃ clock, pool'.shared = { pool.shared with clock := clock }) ∨
      ∃ key statement lease, label = some (.run key statement) ∧
        statement.returning collation (pool.shared.leases key) = some lease ∧
        pool'.shared = pool.shared.put key statement lease := by
  rcases hstep.cases_shared with hsame | ⟨-, -, hclock⟩ | ⟨op, _, _, rfl, -, ⟨hexec⟩⟩
  · exact .inl ⟨pool.shared.clock, hsame⟩
  · exact .inl ⟨_, hclock⟩
  · rcases exec_cases hexec with ⟨hsame, -⟩ | ⟨key, statement, lease, rfl, hreturning, -, hput⟩
    · exact .inl ⟨pool.shared.clock, hsame⟩
    · exact .inr ⟨key, statement, lease, rfl, hreturning, hput⟩

/-- **What the rows say holds in every reachable state.** -/
theorem recorded_of_reachable (h : (roomRuns collation settings sharedClock).Reachable pool) :
    pool.shared.Recorded collation settings := by
  induction h with
  | refl => exact recorded_initial settings
  | tail hrun hstep ih =>
    obtain ⟨label, hstep, -⟩ := hstep
    rcases step_cases hstep with ⟨clock, hshared⟩ | ⟨key, statement, lease, rfl, hreturning, hput⟩
    · rw [hshared]
      exact ih.tick clock
    · rw [hput]
      exact ih.put (step_budgeted hrun hstep) hreturning

/-- The watermark of a row does not go back along a run. -/
theorem watermark_of_runs (h : (roomRuns collation settings sharedClock).Runs pool pool')
    (hlease : pool.shared.leases key = some lease) :
    ∃ lease', pool'.shared.leases key = some lease' ∧
      lease.watermark.after collation lease'.watermark = false := by
  induction h with
  | refl => exact ⟨lease, hlease, RoomMessage.after_irrefl⟩
  | tail hrun hstep ih =>
    obtain ⟨middle, hmiddle, hnotAfter⟩ := ih
    obtain ⟨label, hstep, -⟩ := hstep
    rcases step_cases hstep with ⟨clock, hshared⟩ | ⟨other, statement, lease', -, hreturning, hput⟩
    · exact ⟨middle, by rw [hshared]; exact hmiddle, hnotAfter⟩
    · rw [hput]
      by_cases hkey : key = other
      · subst hkey
        rw [hmiddle] at hreturning
        exact ⟨lease', LeaseState.put_leases_self .., RoomMessage.not_after_trans hnotAfter
          (returning_watermark hreturning)⟩
      · exact ⟨middle, by rw [LeaseState.put_leases_of_ne _ _ _ hkey, hmiddle], hnotAfter⟩

/--
**Room messages are considered at most once and within the message budget**: in every
interleaving of coordinators, with any clocks, the watermark of a row never goes back; a claim
is of a message that no claim and no disposition of that room considered before; and between
two openings there are at most `maxContinuationCandidates` claims.
-/
theorem room_messages_considered_once (collation : Collation)
    (settings : RoomParticipationLeaseSettings) (sharedClock : Bool) :
    (∀ pool pool' key lease, (roomRuns collation settings sharedClock).Reachable pool →
        (roomRuns collation settings sharedClock).Runs pool pool' →
        pool.shared.leases key = some lease →
        ∃ lease', pool'.shared.leases key = some lease' ∧
          lease.watermark.after collation lease'.watermark = false) ∧
      (∀ pool, (roomRuns collation settings sharedClock).Reachable pool →
        pool.shared.log.Pairwise ClaimsNew) ∧
      (∀ pool key between, (roomRuns collation settings sharedClock).Reachable pool →
        between <:+: pool.shared.log → (∀ event ∈ between, opensAt key event = false) →
        between.countP (claimsAt key) ≤ settings.maxContinuationCandidates) := by
  refine ⟨?_, ?_, ?_⟩
  · intro pool pool' key lease _ hruns hlease
    exact watermark_of_runs hruns hlease
  · intro pool hreach
    exact (recorded_of_reachable hreach).once
  · intro pool key between hreach hbetween hnone
    exact countP_le_of_sinceLast_le ((recorded_of_reachable hreach).budget key) hbetween hnone

/--
**The bot-loop budget**: without a human opening or a human claim in between, at most
`maxConsecutiveMachineContinuations` machine-authored messages are claimed.
-/
theorem machine_claims_bounded (h : (roomRuns collation settings sharedClock).Reachable pool)
    (key : LeaseKey) {between : List LeaseEvent} (hbetween : between <:+: pool.shared.log)
    (hnone : ∀ event ∈ between, humanAt key event = false) :
    between.countP (machineClaimsAt key) ≤ settings.maxConsecutiveMachineContinuations :=
  countP_le_of_sinceLast_le ((recorded_of_reachable h).botLoop key) hbetween hnone

end Psfn.Room
