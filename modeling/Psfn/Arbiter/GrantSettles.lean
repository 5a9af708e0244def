import Psfn.Arbiter.OneSpeaker
import Psfn.Lib.SumOf

/-!
# A grant settles its charges

One `grantReply` from its first await to its end, against any answers and with the database as it
may have become by each call. What the social pot really moved is kept beside what it answered: a
draw or a refund that throws may have been carried out.

* `played_length` — a grant makes ten calls at most;
* `settles_iff` — it resolves with its books in order exactly when the calls that it makes on its
  way out do not fail in the ways that `Clean` names;
* `refunded_twice` — a release that fails after the lease was declined, and two refunds.
-/

namespace Psfn.Arbiter

open Psfn.Lib

/-! ## Calls -/

/-- A call of a run: the stage that waits for it, the database it finds, the answer, and the units
that the pot moved. -/
structure CallRecord where
  stage  : Stage
  db     : Database
  answer : Answer
  moved  : Rat

/-- The pot moves what it answers, and when it throws nothing or all of it. -/
def CallRecord.Honest (record : CallRecord) : Prop :=
  match record.stage, record.answer with
  | .drawPot _, .draw (some (.drawn, units)) => 0 < units ∧ record.moved = units
  | .drawPot _, .draw none => 0 ≤ record.moved
  | .refundDraw _ drawnUnits _, .refund true => record.moved = drawnUnits
  | .refundDraw _ drawnUnits _, .refund false => record.moved = 0 ∨ record.moved = drawnUnits
  | _, _ => record.moved = 0

instance (record : CallRecord) : Decidable record.Honest := by
  unfold CallRecord.Honest
  split <;> infer_instance

def CallRecord.debit (record : CallRecord) : Rat :=
  match record.stage with
  | .drawPot _ => record.moved
  | _ => 0

def CallRecord.credit (record : CallRecord) : Rat :=
  match record.stage with
  | .refundDraw .. => record.moved
  | _ => 0

def CallRecord.isRefund (record : CallRecord) : Bool :=
  match record.stage with
  | .refundDraw .. => true
  | _ => false

/-- The lease that the call acquired. -/
def CallRecord.acquired (call : GrantCall) (record : CallRecord) : Option LeaseRow :=
  match record.stage, record.answer with
  | .acquire _ drawnUnits, .acquired leaseId =>
    match (acquireEgressLease (acquireInput call leaseId drawnUnits) record.db).2 with
    | .ok (.acquired lease) => some lease
    | _ => none
  | _, _ => none

/-- The lease that `sender.deliver` is called with. -/
def CallRecord.delivers (record : CallRecord) : Option LeaseRow :=
  match record.stage with
  | .deliver _ lease => some lease
  | _ => none

/-- The release throws what `releaseSilently` does not tolerate. -/
def CallRecord.releaseThrows (call : GrantCall) (record : CallRecord) : Bool :=
  match record.answer with
  | .store =>
    match (releaseReservation (releaseInput call) record.db).2 with
    | .ok _ => false
    | .error message => !isBenignReservationTerminalError message
  | _ => true

def CallRecord.completeThrows (call : GrantCall) (lease : LeaseRow)
    (completion : SpeakingEgressLeaseCompletion) (record : CallRecord) : Bool :=
  match record.answer with
  | .store => !(completeEgressLease (completeInput call lease completion) record.db).2.isOk
  | _ => true

def Stage.ended : Stage → Bool
  | .returned _ | .rejected => true
  | _ => false

/-- The calls of a run from a stage to its end. -/
inductive Played (call : GrantCall) : Stage → List CallRecord → Stage → Prop
  | ended {stage : Stage} (hended : stage.ended = true) : Played call stage [] stage
  | called {stage stage' final : Stage} {record : CallRecord} {rest : List CallRecord}
      {db' : Database} {event : Option PhaseEvent} (hstage : record.stage = stage)
      (hadvance : advance call record.db stage record.answer = some (db', stage', event))
      (hhonest : record.Honest) (hrest : Played call stage' rest final) :
      Played call stage (record :: rest) final

/-! ## What should hold, and when it does -/

/-- Every delivery is made with the lease that a call before it acquired. -/
def Fenced (call : GrantCall) : Option LeaseRow → List CallRecord → Prop
  | _, [] => True
  | held, record :: rest =>
    (∀ lease, record.delivers = some lease → held = some lease) ∧
      Fenced call ((record.acquired call).or held) rest

/-- The run resolves, sends only under a lease, and leaves the pot with what it owes: the units
that were drawn if a lease was acquired and nothing otherwise, unless it reports that the refund
failed. -/
structure Settles (call : GrantCall) (records : List CallRecord) (final : Stage) : Prop where
  resolves : ∃ decision, final = .returned decision
  fenced   : Fenced call none records
  net      : ∀ decision, final = .returned decision →
    decision.refundOutcome ≠ some .refundFailed →
      sumOf (·.debit) records - sumOf (·.credit) records =
        if records.any fun record => (record.acquired call).isSome then sumOf (·.debit) records
        else 0
  once     : records.countP (fun record => record.isRefund && record.moved ≠ 0) ≤ 1

/-- No release throws, but for the one after a declined lease, where one of the two refunds must
take no effect; no completion throws after the sender has; and a draw that throws takes nothing. -/
structure Clean (call : GrantCall) (records : List CallRecord) : Prop where
  release  : ∀ record ∈ records, ∀ decision, record.stage = .releaseSilently decision →
    record.releaseThrows call = false
  complete : ∀ record ∈ records, ∀ breakerState lease completion detail,
    record.stage = .complete breakerState lease completion detail true →
      record.completeThrows call lease completion = false
  draw     : ∀ record ∈ records, ∀ breakerState, record.stage = .drawPot breakerState →
    record.answer = .draw none → record.moved = 0
  refunds  : ∀ record ∈ records, ∀ decision drawnUnits,
    record.stage = .releaseDeclined decision drawnUnits → record.releaseThrows call = true →
      ∃ refund ∈ records, refund.isRefund = true ∧ refund.moved = 0

/-! ## A grant ends -/

/-- How many calls a stage still makes at most. -/
def Stage.remaining : Stage → Nat
  | .resolvePressure => 10
  | .readBreaker .. => 9
  | .persistBreaker .. => 8
  | .fairness _ reservers participants =>
    5 + (if reservers.isNone then 1 else 0) + if participants.isNone then 1 else 0
  | .drawPot _ => 5
  | .acquire .. => 4
  | .refundDraw _ _ declined => if declined then 3 else 1
  | .releaseDeclined .. => 2
  | .deliver .. => 2
  | .releaseSilently _ | .complete .. => 1
  | .returned _ | .rejected | .stopped => 0

theorem remaining_refundUnits (decision : EgressLeaseDecision) (drawnUnits : Rat)
    (declined : Bool) : (refundUnits decision drawnUnits declined).remaining ≤ 3 ∧
      (refundUnits decision drawnUnits false).remaining ≤ 1 := by
  unfold refundUnits
  constructor
  · split
    · cases declined with
      | true => exact Nat.le_refl _
      | false => exact Nat.le_add_left 1 2
    · split
      · exact Nat.le_succ 2
      · exact Nat.zero_le _
  · split
    · exact Nat.le_refl _
    · exact Nat.zero_le _

theorem remaining_afterFairness (call : GrantCall) (breakerState : RoomEpisodeBreakerState)
    (reservers : Option (List Uuid)) (participants : Option (List ParticipationRow)) :
    (afterFairness call breakerState reservers participants).remaining ≤
      (Stage.fairness breakerState reservers participants).remaining := by
  unfold afterFairness
  split
  · dsimp only
    generalize selectSpeakLeastWinner _ _ = winner
    split
    · exact Nat.le_add_left 1 4
    · split
      · exact Nat.le_add_left 1 4
      · exact Nat.le_refl _
  · exact Nat.le_refl _

/-- Every answer brings the end nearer. -/
theorem remaining_advance {call : GrantCall} {db db' : Database} {stage stage' : Stage}
    {answer : Answer} {event : Option PhaseEvent}
    (h : advance call db stage answer = some (db', stage', event)) :
    stage'.remaining < stage.remaining := by
  unfold advance at h
  split at h
  · split at h
    · cases h
      exact Nat.lt_succ_self 9
    · cases h
      exact Nat.succ_pos _
  · cases h
    unfold afterBreakerRead
    dsimp only
    split
    · exact Nat.lt_succ_self 8
    · exact Nat.succ_pos _
  · cases h
    exact Nat.succ_pos _
  · dsimp only at h
    split at h
    · cases h
      unfold afterBreaker
      split
      · exact Nat.le_add_left 2 6
      · split
        · exact Nat.le_add_left 2 6
        · exact Nat.lt_succ_self 7
    · cases h
      exact Nat.succ_pos _
  · cases h
    exact Nat.succ_pos _
  · cases h
    unfold afterRelease
    split
    · exact Nat.succ_pos _
    · split <;> exact Nat.succ_pos _
  · cases h
    exact Nat.succ_pos _
  · cases h
    unfold afterReleaseDeclined
    split
    · exact Nat.succ_pos _
    · split
      · exact Nat.succ_pos _
      · exact Nat.lt_succ_of_le (remaining_refundUnits _ _ true).2
  · cases h
    exact Nat.lt_succ_of_le (remaining_refundUnits _ _ true).2
  · split at h
    · cases h
      refine Nat.lt_of_le_of_lt (remaining_afterFairness _ _ _ _) ?_
      simp [Stage.remaining]
    · cases h
      simp [Stage.remaining]
  · split at h
    · cases h
      refine Nat.lt_of_le_of_lt (remaining_afterFairness _ _ _ _) ?_
      simp [Stage.remaining]
    · cases h
      simp [Stage.remaining]
  · cases h
    simp only [Stage.remaining]
    omega
  · rename_i decision
    cases h
    unfold afterDraw
    split
    · exact Nat.succ_pos _
    · exact Nat.lt_succ_self 4
    · exact Nat.le_add_left 2 3
  · cases h
    unfold afterAcquire
    split
    · exact Nat.le_add_left 3 1
    · exact Nat.lt_succ_of_le (remaining_refundUnits _ _ true).1
    · exact Nat.lt_succ_of_le (remaining_refundUnits _ _ false).1
  · cases h
    exact Nat.lt_succ_of_le (remaining_refundUnits _ _ false).1
  · rename_i declined _
    cases h
    cases declined with
    | true => exact Nat.lt_succ_self 2
    | false => exact Nat.succ_pos _
  · rename_i outcome
    cases h
    unfold afterDelivery
    split <;> exact Nat.lt_succ_self 1
  · cases h
    unfold afterComplete
    split
    · exact Nat.succ_pos _
    · split <;> exact Nat.succ_pos _
  · cases h
    unfold afterComplete
    split
    · exact Nat.succ_pos _
    · split <;> exact Nat.succ_pos _
  · cases h

/-- Nothing answers a run that has ended. -/
theorem advance_ended {call : GrantCall} {db : Database} {stage : Stage} {answer : Answer}
    (h : stage.ended = true) : advance call db stage answer = none := by
  unfold Stage.ended at h
  split at h
  · cases answer <;> rfl
  · cases answer <;> rfl
  · cases h

section Played

variable {call : GrantCall} {stage final : Stage} {records : List CallRecord}

theorem Played.length_le (h : Played call stage records final) :
    records.length ≤ stage.remaining := by
  induction h with
  | ended => exact Nat.zero_le _
  | called hstage hadvance _ _ ih =>
    have hless := remaining_advance hadvance
    rw [List.length_cons]
    omega

/-- **A grant makes ten calls at most**, and then it has ended. -/
theorem played_length (h : Played call (beginGrant call) records final) : records.length ≤ 10 := by
  refine Nat.le_trans h.length_le ?_
  unfold beginGrant
  split
  · exact Nat.zero_le _
  · split
    · exact Nat.zero_le _
    · split
      · exact Nat.zero_le _
      · exact Nat.le_refl _

theorem Played.next (h : Played call stage records final) (hwaits : stage.ended = false) :
    ∃ record rest db' stage' event, records = record :: rest ∧ record.stage = stage ∧
      advance call record.db stage record.answer = some (db', stage', event) ∧ record.Honest ∧
        Played call stage' rest final := by
  cases h with
  | ended hended =>
    rw [hended] at hwaits
    cases hwaits
  | called hstage hadvance hhonest hrest =>
    exact ⟨_, _, _, _, _, rfl, hstage, hadvance, hhonest, hrest⟩

theorem Played.over (h : Played call stage records final) (hended : stage.ended = true) :
    records = [] ∧ final = stage := by
  cases h with
  | ended => exact ⟨rfl, rfl⟩
  | called hstage hadvance =>
    rw [advance_ended hended] at hadvance
    cases hadvance

/-! ## From the lease on -/

theorem complete_next {breakerState : RoomEpisodeBreakerState} {lease : LeaseRow}
    {completion : SpeakingEgressLeaseCompletion} {detail : Option String} {threw : Bool}
    (h : Played call (.complete breakerState lease completion detail threw) records final) :
    ∃ record, records = [record] ∧
      record.stage = .complete breakerState lease completion detail threw ∧ record.moved = 0 ∧
        final = afterComplete breakerState lease completion detail threw
          !record.completeThrows call lease completion := by
  obtain ⟨record, rest, db', stage', event, rfl, hstage, hadvance, hhonest, hrest⟩ := h.next rfl
  have hmoved : record.moved = 0 := by
    unfold CallRecord.Honest at hhonest
    rw [hstage] at hhonest
    exact hhonest
  have hafter : stage' = afterComplete breakerState lease completion detail threw
      !record.completeThrows call lease completion := by
    unfold CallRecord.completeThrows
    cases hanswer : record.answer <;> rw [hanswer] at hadvance <;> cases hadvance
    · rw [Bool.not_not]
    · rfl
  have hended : stage'.ended = true := by
    rw [hafter]
    unfold afterComplete
    split
    · rfl
    · split <;> rfl
  obtain ⟨rfl, rfl⟩ := hrest.over hended
  exact ⟨record, rfl, hstage, hmoved, hafter⟩

/-- With a lease the run delivers and completes it. -/
theorem deliver_next {breakerState : RoomEpisodeBreakerState} {lease : LeaseRow}
    (h : Played call (.deliver breakerState lease) records final) :
    ∃ record completed completion detail threw, records = [record, completed] ∧
      record.stage = .deliver breakerState lease ∧ record.moved = 0 ∧
      completed.stage = .complete breakerState lease completion detail threw ∧
      completed.moved = 0 ∧
        final = afterComplete breakerState lease completion detail threw
          !completed.completeThrows call lease completion := by
  obtain ⟨record, rest, db', stage', event, rfl, hstage, hadvance, hhonest, hrest⟩ := h.next rfl
  have hmoved : record.moved = 0 := by
    unfold CallRecord.Honest at hhonest
    rw [hstage] at hhonest
    exact hhonest
  have hafter : ∃ completion detail threw,
      stage' = .complete breakerState lease completion detail threw := by
    cases hanswer : record.answer <;> rw [hanswer] at hadvance <;> cases hadvance
    unfold afterDelivery
    split
    · exact ⟨_, _, _, rfl⟩
    · exact ⟨_, _, _, rfl⟩
    · exact ⟨_, _, _, rfl⟩
  obtain ⟨completion, detail, threw, rfl⟩ := hafter
  obtain ⟨completed, rfl, hcompleted, hmoved', hfinal⟩ := complete_next hrest
  exact ⟨record, completed, completion, detail, threw, rfl, hstage, hmoved, hcompleted, hmoved',
    hfinal⟩

/-- A refund, and what it is answered. -/
theorem refundDraw_next {decision : EgressLeaseDecision} {drawnUnits : Rat} {declined : Bool}
    (h : Played call (.refundDraw decision drawnUnits declined) records final) :
    ∃ record rest outcome, records = record :: rest ∧
      record.stage = .refundDraw decision drawnUnits declined ∧
      (record.moved = 0 ∨ record.moved = drawnUnits) ∧
      (outcome = .refunded → record.moved = drawnUnits) ∧
      Played call (if declined then .releaseDeclined { decision with refundOutcome := some outcome }
        drawnUnits else .returned { decision with refundOutcome := some outcome }) rest final := by
  obtain ⟨record, rest, db', stage', event, rfl, hstage, hadvance, hhonest, hrest⟩ := h.next rfl
  unfold CallRecord.Honest at hhonest
  rw [hstage] at hhonest
  cases hanswer : record.answer <;> rw [hanswer] at hadvance hhonest <;> cases hadvance
  rename_i credited
  cases credited with
  | true => exact ⟨record, rest, .refunded, rfl, hstage, .inr hhonest, fun _ => hhonest, hrest⟩
  | false => exact ⟨record, rest, .refundFailed, rfl, hstage, hhonest, nofun, hrest⟩

theorem releaseDeclined_next {decision : EgressLeaseDecision} {drawnUnits : Rat}
    (h : Played call (.releaseDeclined decision drawnUnits) records final) :
    ∃ record rest, records = record :: rest ∧ record.stage = .releaseDeclined decision drawnUnits ∧
      record.moved = 0 ∧ Played call (if record.releaseThrows call then
        refundUnits (gateError .acquire) drawnUnits false else .returned decision) rest final := by
  obtain ⟨record, rest, db', stage', event, rfl, hstage, hadvance, hhonest, hrest⟩ := h.next rfl
  have hmoved : record.moved = 0 := by
    unfold CallRecord.Honest at hhonest
    rw [hstage] at hhonest
    exact hhonest
  refine ⟨record, rest, rfl, hstage, hmoved, ?_⟩
  unfold CallRecord.releaseThrows
  cases hanswer : record.answer <;> rw [hanswer] at hadvance <;> cases hadvance
  · unfold afterReleaseDeclined at hrest
    cases hreleased : (releaseReservation (releaseInput call) record.db).2 with
    | ok row =>
      rw [hreleased] at hrest
      exact hrest
    | error message =>
      rw [hreleased] at hrest
      dsimp only at hrest ⊢
      by_cases hbenign : isBenignReservationTerminalError message = true
      · rw [if_pos hbenign] at hrest
        rw [if_neg (by rw [hbenign]; exact Bool.false_ne_true)]
        exact hrest
      · rw [if_neg hbenign] at hrest
        rw [if_pos (Bool.not_eq_true' _ ▸ Bool.eq_false_iff.2 hbenign)]
        exact hrest
  · exact hrest

theorem releaseSilently_next {decision : EgressLeaseDecision}
    (h : Played call (.releaseSilently decision) records final) :
    ∃ record, records = [record] ∧ record.stage = .releaseSilently decision ∧ record.moved = 0 ∧
      final = if record.releaseThrows call then .rejected else .returned decision := by
  obtain ⟨record, rest, db', stage', event, rfl, hstage, hadvance, hhonest, hrest⟩ := h.next rfl
  have hmoved : record.moved = 0 := by
    unfold CallRecord.Honest at hhonest
    rw [hstage] at hhonest
    exact hhonest
  have hafter : stage' =
      if record.releaseThrows call then Stage.rejected else .returned decision := by
    unfold CallRecord.releaseThrows
    cases hanswer : record.answer <;> rw [hanswer] at hadvance <;> cases hadvance
    · unfold afterRelease
      cases (releaseReservation (releaseInput call) record.db).2 with
      | ok row => rfl
      | error message =>
        dsimp only
        by_cases hbenign : isBenignReservationTerminalError message = true
        · rw [if_pos hbenign, if_neg (by rw [hbenign]; exact Bool.false_ne_true)]
        · rw [if_neg hbenign, if_pos (Bool.not_eq_true' _ ▸ Bool.eq_false_iff.2 hbenign)]
    · rfl
  have hended : stage'.ended = true := by
    rw [hafter]
    split <;> rfl
  obtain ⟨rfl, rfl⟩ := hrest.over hended
  exact ⟨record, rfl, hstage, hmoved, hafter⟩

/-! ## The books -/

/-- `Clean` asks nothing of the call. -/
structure Exempt (record : CallRecord) : Prop where
  refund   : record.isRefund = false
  release  : ∀ decision, record.stage ≠ .releaseSilently decision
  complete : ∀ breakerState lease completion detail,
    record.stage ≠ .complete breakerState lease completion detail true
  draw     : ∀ breakerState, record.stage = .drawPot breakerState →
    record.answer = .draw none → record.moved = 0
  declined : ∀ decision drawnUnits, record.stage ≠ .releaseDeclined decision drawnUnits

/-- The call moves nothing, binds nothing and sends nothing. -/
structure Quiet (call : GrantCall) (record : CallRecord) : Prop extends Exempt record where
  debit    : record.debit = 0
  credit   : record.credit = 0
  acquired : record.acquired call = none
  delivers : record.delivers = none

theorem settles_cons {record : CallRecord} (h : Quiet call record) :
    Settles call (record :: records) final ↔ Settles call records final := by
  have hnet : ∀ f : CallRecord → Rat, f record = 0 →
      sumOf f (record :: records) = sumOf f records := by
    intro f hzero
    rw [sumOf, hzero, zero_add]
  have hany : (record :: records).any (fun record => (record.acquired call).isSome) =
      records.any fun record => (record.acquired call).isSome := by
    rw [List.any_cons, h.acquired]
    rfl
  have hcount : (record :: records).countP (fun record => record.isRefund && record.moved ≠ 0) =
      records.countP fun record => record.isRefund && record.moved ≠ 0 := by
    rw [List.countP_cons, h.refund]
    rfl
  have hfenced : Fenced call none (record :: records) ↔ Fenced call none records := by
    rw [Fenced, h.acquired, h.delivers]
    exact ⟨fun hboth => hboth.2, fun hrest => ⟨(fun _ h => by cases h), hrest⟩⟩
  constructor
  · rintro ⟨hresolves, hsent, hbooks, honce⟩
    rw [hnet _ h.debit, hnet _ h.credit, hany] at hbooks
    rw [hcount] at honce
    exact ⟨hresolves, hfenced.1 hsent, hbooks, honce⟩
  · rintro ⟨hresolves, hsent, hbooks, honce⟩
    refine ⟨hresolves, hfenced.2 hsent, ?_, ?_⟩
    · rw [hnet _ h.debit, hnet _ h.credit, hany]
      exact hbooks
    · rw [hcount]
      exact honce

theorem clean_cons {record : CallRecord} (h : Exempt record) :
    Clean call (record :: records) ↔ Clean call records := by
  have hrest : ∀ {other : CallRecord}, other ∈ records → other ∈ record :: records :=
    fun hmem => List.mem_cons_of_mem _ hmem
  constructor
  · rintro ⟨hrelease, hcomplete, hdraw, hrefunds⟩
    refine ⟨fun other hmem => hrelease other (hrest hmem),
      fun other hmem => hcomplete other (hrest hmem), fun other hmem => hdraw other (hrest hmem),
      fun other hmem decision drawnUnits hstage hthrows => ?_⟩
    obtain ⟨refund, hin, hrefund, hzero⟩ :=
      hrefunds other (hrest hmem) decision drawnUnits hstage hthrows
    rcases List.mem_cons.1 hin with rfl | hin
    · rw [h.refund] at hrefund
      cases hrefund
    · exact ⟨refund, hin, hrefund, hzero⟩
  · rintro ⟨hrelease, hcomplete, hdraw, hrefunds⟩
    refine ⟨fun other hmem decision hstage => ?_, fun other hmem b l c d hstage => ?_,
      fun other hmem b hstage hanswer => ?_,
      fun other hmem decision drawnUnits hstage hthrows => ?_⟩
    · rcases List.mem_cons.1 hmem with rfl | hmem
      · exact absurd hstage (h.release decision)
      · exact hrelease other hmem decision hstage
    · rcases List.mem_cons.1 hmem with rfl | hmem
      · exact absurd hstage (h.complete b l c d)
      · exact hcomplete other hmem b l c d hstage
    · rcases List.mem_cons.1 hmem with rfl | hmem
      · exact h.draw b hstage hanswer
      · exact hdraw other hmem b hstage hanswer
    · rcases List.mem_cons.1 hmem with rfl | hmem
      · exact absurd hstage (h.declined decision drawnUnits)
      · obtain ⟨refund, hin, hboth⟩ := hrefunds other hmem decision drawnUnits hstage hthrows
        exact ⟨refund, hrest hin, hboth⟩

/-- A run that returns without a call. -/
theorem settles_nil {decision : EgressLeaseDecision} : Settles call [] (.returned decision) :=
  ⟨⟨decision, rfl⟩, trivial, fun _ _ _ => sub_self 0, Nat.zero_le 1⟩

theorem clean_nil : Clean call [] := by
  refine ⟨?_, ?_, ?_, ?_⟩ <;> exact fun record hmem => absurd hmem List.not_mem_nil

/-- The release at the end of a run without a draw. -/
theorem settles_releaseSilently {decision : EgressLeaseDecision}
    (h : Played call (.releaseSilently decision) records final) :
    Settles call records final ↔ Clean call records := by
  obtain ⟨record, rfl, hstage, hmoved, rfl⟩ := releaseSilently_next h
  constructor
  · rintro ⟨⟨decision', hresolves⟩, -, -, -⟩
    have hkept : record.releaseThrows call = false := by
      cases hthrows : record.releaseThrows call with
      | false => rfl
      | true =>
        rw [hthrows] at hresolves
        cases hresolves
    refine ⟨fun other hmem decision hother => ?_, fun other hmem b l c d hother => ?_,
      fun other hmem b hother => ?_, fun other hmem decision u hother => ?_⟩ <;>
      rw [List.mem_singleton] at hmem <;> subst hmem
    · exact hkept
    · rw [hstage] at hother
      cases hother
    · rw [hstage] at hother
      cases hother
    · rw [hstage] at hother
      cases hother
  · intro hclean
    rw [hclean.release record List.mem_cons_self decision hstage]
    refine ⟨⟨decision, rfl⟩, ?_, fun _ _ _ => ?_, ?_⟩
    · simp [Fenced, CallRecord.delivers, hstage]
    · simp [sumOf, CallRecord.debit, CallRecord.credit, CallRecord.acquired, hstage]
    · simp [CallRecord.isRefund, hstage]

theorem exempt_of_stage {record : CallRecord} {stage : Stage} (hstage : record.stage = stage)
    (hexempt : match stage with
      | .releaseSilently _ | .complete .. | .releaseDeclined .. | .refundDraw .. => False
      | .drawPot _ => record.answer = .draw none → record.moved = 0
      | _ => True) : Exempt record := by
  refine ⟨?_, ?_, ?_, ?_, ?_⟩
  · unfold CallRecord.isRefund
    rw [hstage]
    split
    · exact hexempt.elim
    · rfl
  · rintro decision heq
    rw [hstage] at heq
    subst heq
    exact hexempt
  · rintro b l c d heq
    rw [hstage] at heq
    subst heq
    exact hexempt
  · rintro b heq hanswer
    rw [hstage] at heq
    subst heq
    exact hexempt hanswer
  · rintro decision drawnUnits heq
    rw [hstage] at heq
    subst heq
    exact hexempt

/-- A draw, then a lease that is delivered under and completed. -/
theorem settles_leased {draw acquire : CallRecord} {drawn breakerState : RoomEpisodeBreakerState}
    {drawnUnits : Rat} {lease : LeaseRow} (hdraw : draw.stage = .drawPot drawn)
    (hpaid : draw.answer ≠ .draw none) (hacquire : acquire.stage = .acquire drawn drawnUnits)
    (hacquired : acquire.acquired call = some lease)
    (h : Played call (.deliver breakerState lease) records final) :
    Settles call (draw :: acquire :: records) final ↔ Clean call (draw :: acquire :: records) := by
  obtain ⟨deliver, completed, completion, detail, threw, rfl, hdeliver, hmoved, hcomplete, hmoved',
    rfl⟩ := deliver_next h
  have hdrawn : draw.acquired call = none := by simp only [CallRecord.acquired, hdraw]
  rw [clean_cons (exempt_of_stage hdraw fun hnone => absurd hnone hpaid),
    clean_cons (exempt_of_stage hacquire trivial), clean_cons (exempt_of_stage hdeliver trivial)]
  constructor
  · rintro ⟨⟨decision, hresolves⟩, -, -, -⟩
    refine ⟨?_, ?_, ?_, ?_⟩
    · intro record hmem decision hstage
      rw [List.mem_singleton.1 hmem, hcomplete] at hstage
      cases hstage
    · intro record hmem b l c d hstage
      rw [List.mem_singleton.1 hmem] at hstage ⊢
      rw [hcomplete] at hstage
      cases hstage
      cases hthrows : completed.completeThrows call lease completion with
      | false => rfl
      | true =>
        rw [hthrows] at hresolves
        cases hresolves
    · intro record hmem b hstage
      rw [List.mem_singleton.1 hmem, hcomplete] at hstage
      cases hstage
    · intro record hmem d u hstage
      rw [List.mem_singleton.1 hmem, hcomplete] at hstage
      cases hstage
  · intro hclean
    refine ⟨?_, ?_, fun decision _ _ => ?_, ?_⟩
    · unfold afterComplete
      cases hthrows : completed.completeThrows call lease completion with
      | false => exact ⟨_, rfl⟩
      | true =>
        cases threw with
        | false => exact ⟨_, rfl⟩
        | true =>
          have hkept := hclean.complete completed List.mem_cons_self breakerState lease completion
            detail hcomplete
          rw [hthrows] at hkept
          cases hkept
    · simp [Fenced, CallRecord.delivers, hdraw, hacquire, hacquired, hdrawn, hdeliver, hcomplete]
    · have hany : [draw, acquire, deliver, completed].any
          (fun record => (record.acquired call).isSome) = true := by
        simp [hacquired]
      rw [hany]
      simp [sumOf, CallRecord.debit, CallRecord.credit, hdraw, hacquire, hdeliver, hcomplete]
    · simp [CallRecord.isRefund, hdraw, hacquire, hdeliver, hcomplete]

/-- The books of a run that refunds once. -/
theorem settles_once {draw acquire refund : CallRecord} {rest : List CallRecord}
    {drawn : RoomEpisodeBreakerState} {drawnUnits : Rat} {decision decision' : EgressLeaseDecision}
    {declined : Bool} {outcome : RefundOutcome} (hdraw : draw.stage = .drawPot drawn)
    (hmoved : draw.moved = drawnUnits) (hacquire : acquire.stage = .acquire drawn drawnUnits)
    (hacquired : acquire.acquired call = none)
    (hrefund : refund.stage = .refundDraw decision drawnUnits declined)
    (hcredited : outcome = .refunded → refund.moved = drawnUnits)
    (hreported : decision'.refundOutcome = some outcome)
    (hrest : rest = [] ∨ ∃ released, rest = [released] ∧
      ∃ decision, released.stage = .releaseDeclined decision drawnUnits) :
    Settles call (draw :: acquire :: refund :: rest) (.returned decision') := by
  have hdrawn : draw.acquired call = none := by simp only [CallRecord.acquired, hdraw]
  have hbound : refund.acquired call = none := by simp only [CallRecord.acquired, hrefund]
  have hnet : ∀ final : EgressLeaseDecision, Stage.returned decision' = .returned final →
      final.refundOutcome ≠ some .refundFailed → drawnUnits - refund.moved = 0 := by
    rintro final hfinal hok
    cases hfinal
    cases outcome with
    | refunded => rw [hcredited rfl, sub_self]
    | refundFailed => exact absurd hreported hok
  rcases hrest with rfl | ⟨released, rfl, decision₂, hreleased⟩
  · refine ⟨⟨_, rfl⟩, ?_, fun final hfinal hok => ?_, ?_⟩
    · simp [Fenced, CallRecord.delivers, hdraw, hacquire, hrefund]
    · simpa [sumOf, CallRecord.debit, CallRecord.credit, hdraw, hacquire, hrefund, hdrawn,
        hacquired, hbound, hmoved] using hnet final hfinal hok
    · simp [List.countP_cons, CallRecord.isRefund, hdraw, hacquire, hrefund]
      split <;> decide
  · have hunbound : released.acquired call = none := by simp only [CallRecord.acquired, hreleased]
    refine ⟨⟨_, rfl⟩, ?_, fun final hfinal hok => ?_, ?_⟩
    · simp [Fenced, CallRecord.delivers, hdraw, hacquire, hrefund, hreleased]
    · simpa [sumOf, CallRecord.debit, CallRecord.credit, hdraw, hacquire, hrefund, hdrawn,
        hacquired, hbound, hmoved, hreleased, hunbound] using hnet final hfinal hok
    · simp [List.countP_cons, CallRecord.isRefund, hdraw, hacquire, hrefund, hreleased]
      split <;> decide

/-- A run that refunds twice: its books are in order just where one refund took no effect. -/
theorem settles_twice {draw acquire refund released again : CallRecord}
    {drawn : RoomEpisodeBreakerState} {drawnUnits : Rat}
    {decision decision₁ decision₂ final : EgressLeaseDecision} {declined declined' : Bool}
    {outcome : RefundOutcome} (hdraw : draw.stage = .drawPot drawn)
    (hmoved : draw.moved = drawnUnits) (hacquire : acquire.stage = .acquire drawn drawnUnits)
    (hacquired : acquire.acquired call = none)
    (hrefund : refund.stage = .refundDraw decision drawnUnits declined)
    (hreleased : released.stage = .releaseDeclined decision₁ drawnUnits)
    (hagain : again.stage = .refundDraw decision₂ drawnUnits declined') (hpos : 0 < drawnUnits)
    (hcredited : outcome = .refunded → again.moved = drawnUnits)
    (hreported : final.refundOutcome = some outcome) :
    Settles call [draw, acquire, refund, released, again] (.returned final) ↔
      refund.moved = 0 ∨ again.moved = 0 := by
  have hdrawn : draw.acquired call = none := by simp only [CallRecord.acquired, hdraw]
  have hbound : refund.acquired call = none := by simp only [CallRecord.acquired, hrefund]
  have hunbound : released.acquired call = none := by simp only [CallRecord.acquired, hreleased]
  have hbound' : again.acquired call = none := by simp only [CallRecord.acquired, hagain]
  have hcount : [draw, acquire, refund, released, again].countP
      (fun record => record.isRefund && record.moved ≠ 0) ≤ 1 ↔
        refund.moved = 0 ∨ again.moved = 0 := by
    by_cases hfirst : refund.moved = 0 <;> by_cases hsecond : again.moved = 0 <;>
      simp [CallRecord.isRefund, hdraw, hacquire, hrefund, hreleased, hagain, hfirst, hsecond]
  constructor
  · exact fun h => hcount.1 h.once
  · intro hone
    refine ⟨⟨_, rfl⟩, ?_, fun decision' hfinal hok => ?_, hcount.2 hone⟩
    · simp [Fenced, CallRecord.delivers, hdraw, hacquire, hrefund, hreleased, hagain]
    · have hnet : drawnUnits - (refund.moved + again.moved) = 0 := by
        cases hfinal
        cases outcome with
        | refunded =>
          have hsecond := hcredited rfl
          rcases hone with hzero | hzero
          · rw [hzero, hsecond, zero_add, sub_self]
          · rw [hsecond] at hzero
            exact absurd hzero (ne_of_gt hpos)
        | refundFailed => exact absurd hreported hok
      simpa [sumOf, CallRecord.debit, CallRecord.credit, hdraw, hacquire, hrefund, hdrawn,
        hacquired, hbound, hmoved, hreleased, hunbound, hagain, hbound'] using hnet

/-- A refund, or a release after a declined lease. -/
def CallRecord.paysBack (record : CallRecord) : Bool :=
  match record.stage with
  | .refundDraw .. | .releaseDeclined .. => true
  | _ => false

/-- What `Clean` asks of these. -/
theorem clean_paysBack (h : ∀ record ∈ records, record.paysBack = true) :
    Clean call records ↔ ∀ record ∈ records, ∀ decision drawnUnits,
      record.stage = .releaseDeclined decision drawnUnits → record.releaseThrows call = true →
        ∃ refund ∈ records, refund.isRefund = true ∧ refund.moved = 0 := by
  refine ⟨fun hclean => hclean.refunds, fun hrefunds => ⟨?_, ?_, ?_, hrefunds⟩⟩
  · intro record hmem decision hstage
    have hpays := h record hmem
    simp only [CallRecord.paysBack, hstage, Bool.false_eq_true] at hpays
  · intro record hmem b l c d hstage
    have hpays := h record hmem
    simp only [CallRecord.paysBack, hstage, Bool.false_eq_true] at hpays
  · intro record hmem b hstage
    have hpays := h record hmem
    simp only [CallRecord.paysBack, hstage, Bool.false_eq_true] at hpays

/-- A draw without a lease: what was drawn is refunded, once unless the release throws. -/
theorem settles_refunded {draw acquire : CallRecord} {drawn : RoomEpisodeBreakerState}
    {drawnUnits : Rat} (hpos : 0 < drawnUnits) (hdraw : draw.stage = .drawPot drawn)
    (hpaid : draw.answer ≠ .draw none) (hmoved : draw.moved = drawnUnits)
    (hacquire : acquire.stage = .acquire drawn drawnUnits)
    (hacquired : acquire.acquired call = none) {decision : EgressLeaseDecision} {declined : Bool}
    (h : Played call (.refundDraw decision drawnUnits declined) records final) :
    Settles call (draw :: acquire :: records) final ↔ Clean call (draw :: acquire :: records) := by
  rw [clean_cons (exempt_of_stage hdraw fun hnone => absurd hnone hpaid),
    clean_cons (exempt_of_stage hacquire trivial)]
  obtain ⟨refund, rest, outcome, rfl, hrefund, -, hcredited, hrest⟩ := refundDraw_next h
  have hpays : refund.paysBack = true := by simp only [CallRecord.paysBack, hrefund]
  cases declined with
  | false =>
    obtain ⟨rfl, rfl⟩ := hrest.over rfl
    have hclean : Clean call [refund] := by
      refine (clean_paysBack fun record hmem => ?_).2 fun record hmem d u hstage => ?_
      · rw [List.mem_singleton.1 hmem]
        exact hpays
      · rw [List.mem_singleton.1 hmem, hrefund] at hstage
        cases hstage
    exact ⟨fun _ => hclean,
      fun _ => settles_once hdraw hmoved hacquire hacquired hrefund hcredited rfl (.inl rfl)⟩
  | true =>
    obtain ⟨released, rest', rfl, hreleased, -, hrest'⟩ := releaseDeclined_next hrest
    have hpays' : released.paysBack = true := by simp only [CallRecord.paysBack, hreleased]
    cases hthrows : released.releaseThrows call with
    | false =>
      rw [hthrows] at hrest'
      obtain ⟨rfl, rfl⟩ := hrest'.over rfl
      have hclean : Clean call [refund, released] := by
        refine (clean_paysBack fun record hmem => ?_).2 fun record hmem d u hstage hfails => ?_
        · rcases List.mem_cons.1 hmem with rfl | hmem
          · exact hpays
          · rw [List.mem_singleton.1 hmem]
            exact hpays'
        · rcases List.mem_cons.1 hmem with rfl | hmem
          · rw [hrefund] at hstage
            cases hstage
          · rw [List.mem_singleton.1 hmem, hthrows] at hfails
            cases hfails
      exact ⟨fun _ => hclean, fun _ => settles_once hdraw hmoved hacquire hacquired hrefund
        hcredited rfl (.inr ⟨released, rfl, _, hreleased⟩)⟩
    | true =>
      -- the release throws inside the `try`, and the handler refunds again
      rw [hthrows, if_pos rfl, refundUnits, if_pos hpos] at hrest'
      obtain ⟨again, rest'', outcome', rfl, hagain, -, hcredited', hrest''⟩ :=
        refundDraw_next hrest'
      rw [if_neg Bool.false_ne_true] at hrest''
      obtain ⟨rfl, rfl⟩ := hrest''.over rfl
      have hpays'' : again.paysBack = true := by simp only [CallRecord.paysBack, hagain]
      rw [settles_twice hdraw hmoved hacquire hacquired hrefund hreleased hagain hpos hcredited'
        rfl, clean_paysBack]
      · constructor
        · intro hone record hmem d u hstage hfails
          rcases hone with hzero | hzero
          · exact ⟨refund, by simp, by simp only [CallRecord.isRefund, hrefund], hzero⟩
          · exact ⟨again, by simp, by simp only [CallRecord.isRefund, hagain], hzero⟩
        · intro hclean
          obtain ⟨none', hmem, hrefunds, hzero⟩ :=
            hclean released (by simp) _ _ hreleased hthrows
          simp only [List.mem_cons, List.not_mem_nil, or_false] at hmem
          rcases hmem with rfl | rfl | rfl
          · exact .inl hzero
          · simp only [CallRecord.isRefund, hreleased, Bool.false_eq_true] at hrefunds
          · exact .inr hzero
      · intro record hmem
        simp only [List.mem_cons, List.not_mem_nil, or_false] at hmem
        rcases hmem with rfl | rfl | rfl
        · exact hpays
        · exact hpays'
        · exact hpays''

/-- Before the draw nothing is moved, bound or sent. -/
def Stage.early : Stage → Bool
  | .resolvePressure | .readBreaker .. | .persistBreaker .. | .fairness .. => true
  | _ => false

/-- The stages up to the draw, and those that a run ends in before it. -/
def Stage.unfunded : Stage → Bool
  | .resolvePressure | .readBreaker .. | .persistBreaker .. | .fairness .. | .drawPot _ => true
  | .releaseSilently decision | .returned decision => decision.refundOutcome.isNone
  | _ => false

theorem unfunded_beginGrant : (beginGrant call).unfunded = true := by
  unfold beginGrant
  split
  · rfl
  · split
    · rfl
    · split <;> rfl

theorem unfunded_advance {db db' : Database} {stage' : Stage} {answer : Answer}
    {event : Option PhaseEvent} (hearly : stage.early = true)
    (h : advance call db stage answer = some (db', stage', event)) : stage'.unfunded = true := by
  have hfair : ∀ {b : RoomEpisodeBreakerState} {reservers : Option (List Uuid)}
      {participants : Option (List ParticipationRow)},
      (afterFairness call b reservers participants).unfunded = true := by
    intro b reservers participants
    unfold afterFairness
    split
    · dsimp only
      generalize selectSpeakLeastWinner _ _ = winner
      split
      · rfl
      · split <;> rfl
    · rfl
  unfold advance at h
  split at h <;> first | cases hearly | skip
  · split at h
    · cases h
      rfl
    · cases h
      rfl
  · cases h
    unfold afterBreakerRead
    dsimp only
    split
    · rfl
    · rfl
  · cases h
    rfl
  · dsimp only at h
    split at h
    · cases h
      unfold afterBreaker
      split
      · rfl
      · split <;> rfl
    · cases h
      rfl
  · cases h
    rfl
  · split at h
    · cases h
      exact hfair
    · cases h
      rfl
  · split at h
    · cases h
      exact hfair
    · cases h
      rfl
  · cases h
    rfl
  · cases h

theorem quiet_early {record : CallRecord} (hearly : record.stage.early = true) :
    Quiet call record := by
  cases hstage : record.stage <;> rw [hstage] at hearly <;> first | cases hearly; done | skip
  all_goals
    refine ⟨exempt_of_stage hstage trivial, ?_, ?_, ?_, ?_⟩
    · simp only [CallRecord.debit, hstage]
    · simp only [CallRecord.credit, hstage]
    · simp only [CallRecord.acquired, hstage]
    · simp only [CallRecord.delivers, hstage]

/-- A draw that throws: the books are in order if it took nothing. -/
theorem settles_drawThrew {draw : CallRecord} {breakerState : RoomEpisodeBreakerState}
    (hdraw : draw.stage = .drawPot breakerState) (hanswer : draw.answer = .draw none) :
    Settles call [draw] (.returned (gateError .socialPot)) ↔ Clean call [draw] := by
  have hunbound : draw.acquired call = none := by simp only [CallRecord.acquired, hdraw]
  have hnet : sumOf (·.debit) [draw] - sumOf (·.credit) [draw] = draw.moved := by
    simp [sumOf, CallRecord.debit, CallRecord.credit, hdraw]
  have hany : [draw].any (fun record => (record.acquired call).isSome) = false := by
    simp [hunbound]
  constructor
  · intro hsettles
    have hzero := hsettles.net _ rfl fun h => by cases h
    rw [hnet, hany, if_neg Bool.false_ne_true] at hzero
    exact (clean_cons (exempt_of_stage hdraw fun _ => hzero)).2 clean_nil
  · intro hclean
    have hzero := hclean.draw draw List.mem_cons_self breakerState hdraw hanswer
    refine ⟨⟨_, rfl⟩, ?_, fun _ _ _ => ?_, ?_⟩
    · simp [Fenced, CallRecord.delivers, hdraw]
    · rw [hnet, hany, if_neg Bool.false_ne_true]
      exact hzero
    · simp [CallRecord.isRefund, hdraw]

/-- A draw that took its units, and what becomes of them. -/
theorem settles_drawn {draw : CallRecord} {breakerState : RoomEpisodeBreakerState}
    {drawnUnits : Rat} (hpos : 0 < drawnUnits) (hdraw : draw.stage = .drawPot breakerState)
    (hpaid : draw.answer ≠ .draw none) (hmoved : draw.moved = drawnUnits)
    (h : Played call (.acquire breakerState drawnUnits) records final) :
    Settles call (draw :: records) final ↔ Clean call (draw :: records) := by
  obtain ⟨acquire, rest, db', stage', event, rfl, hacquire, hadvance, -, hrest⟩ := h.next rfl
  have hrefunds : ∀ {decision : EgressLeaseDecision} {declined : Bool},
      acquire.acquired call = none →
      Played call (refundUnits decision drawnUnits declined) rest final →
        (Settles call (draw :: acquire :: rest) final ↔ Clean call (draw :: acquire :: rest)) := by
    intro decision declined hacquired hplayed
    rw [refundUnits, if_pos hpos] at hplayed
    exact settles_refunded hpos hdraw hpaid hmoved hacquire hacquired hplayed
  cases hanswer : acquire.answer <;> rw [hanswer] at hadvance <;> cases hadvance
  · rename_i leaseId
    cases hresult : (acquireEgressLease (acquireInput call leaseId drawnUnits) acquire.db).2 with
    | error message =>
      rw [hresult] at hrest
      refine hrefunds ?_ hrest
      simp only [CallRecord.acquired, hacquire, hanswer, hresult]
    | ok result =>
      rw [hresult] at hrest
      cases result with
      | declined holder reason =>
        refine hrefunds ?_ hrest
        simp only [CallRecord.acquired, hacquire, hanswer, hresult]
      | acquired lease =>
        refine settles_leased hdraw hpaid hacquire ?_ hrest
        simp only [CallRecord.acquired, hacquire, hanswer, hresult]
  · refine hrefunds ?_ hrest
    simp only [CallRecord.acquired, hacquire, hanswer]

/-- Of every run up to the draw. -/
theorem settles_unfunded (h : Played call stage records final) (hunfunded : stage.unfunded = true) :
    Settles call records final ↔ Clean call records := by
  induction h with
  | @ended stage hended =>
    cases stage <;> first | cases hunfunded; done | cases hended; done | skip
    exact ⟨fun _ => clean_nil, fun _ => settles_nil⟩
  | @called stage stage' final record rest db' event hstage hadvance hhonest hrest ih =>
    cases hearly : stage.early with
    | true =>
      have hquiet : Quiet call record := quiet_early (hstage ▸ hearly)
      rw [settles_cons hquiet, clean_cons hquiet.toExempt]
      exact ih (unfunded_advance hearly hadvance)
    | false =>
      cases stage <;> first | cases hunfunded; done | cases hearly; done | skip
      · exact settles_releaseSilently (.called hstage hadvance hhonest hrest)
      · rename_i breakerState
        cases hanswer : record.answer <;> rw [hanswer] at hadvance <;> cases hadvance
        rename_i decision
        unfold CallRecord.Honest at hhonest
        rw [hstage, hanswer] at hhonest
        have hrefused : ∀ {outcome : SocialPotEnforcementOutcome} {units : Rat},
            decision = some (outcome, units) → outcome ≠ .drawn → record.moved = 0 →
              (Settles call (record :: rest) final ↔ Clean call (record :: rest)) := by
          rintro outcome units rfl hother hzero
          have hquiet : Quiet call record := by
            refine ⟨exempt_of_stage hstage fun _ => hzero, ?_, ?_, ?_, ?_⟩
            · simp only [CallRecord.debit, hstage, hzero]
            · simp only [CallRecord.credit, hstage]
            · simp only [CallRecord.acquired, hstage]
            · simp only [CallRecord.delivers, hstage]
          rw [settles_cons hquiet, clean_cons hquiet.toExempt]
          refine ih ?_
          cases outcome <;> first | exact absurd rfl hother | rfl
        cases decision with
        | none =>
          obtain ⟨rfl, rfl⟩ := hrest.over rfl
          exact settles_drawThrew hstage hanswer
        | some decision =>
          obtain ⟨outcome, units⟩ := decision
          cases outcome with
          | drawn =>
            have hpaid : record.answer ≠ .draw none := by
              rw [hanswer]
              nofun
            exact settles_drawn hhonest.1 hstage hpaid hhonest.2 hrest
          | capped => exact hrefused rfl nofun hhonest
          | insufficient => exact hrefused rfl nofun hhonest
          | uncharged => exact hrefused rfl nofun hhonest
      · rw [advance_ended rfl] at hadvance
        cases hadvance

end Played

/-- **A grant settles its charges**, against any pattern of answers and failures and whatever the
store holds by each call: it ends after ten calls at most, and it resolves, sends only under a lease
that it acquired, and leaves the pot with what it owes, exactly when its calls are `Clean`. -/
theorem settles_iff {call : GrantCall} {records : List CallRecord} {final : Stage}
    (h : Played call (beginGrant call) records final) :
    records.length ≤ 10 ∧ (Settles call records final ↔ Clean call records) :=
  ⟨played_length h, settles_unfunded h unfunded_beginGrant⟩


/-! ## A run that refunds once, and one that refunds twice -/

/-- The run against databases, answers and what the pot moves. -/
def play (call : GrantCall) : Stage → List (Database × Answer × Rat) → List CallRecord × Stage
  | stage, [] => ([], stage)
  | stage, asked :: rest =>
    match advance call asked.1 stage asked.2.1 with
    | none => ([], .stopped)
    | some next =>
      (⟨stage, asked.1, asked.2.1, asked.2.2⟩ :: (play call next.2.1 rest).1,
        (play call next.2.1 rest).2)

theorem played_play {call : GrantCall} (script : List (Database × Answer × Rat)) (stage : Stage)
    (hended : (play call stage script).2.ended = true)
    (hhonest : ∀ record ∈ (play call stage script).1, record.Honest) :
    Played call stage (play call stage script).1 (play call stage script).2 := by
  induction script generalizing stage with
  | nil => exact .ended hended
  | cons asked rest ih =>
    cases hadvance : advance call asked.1 stage asked.2.1 with
    | none =>
      rw [play, hadvance] at hended
      cases hended
    | some next =>
      rw [play, hadvance] at hended hhonest ⊢
      exact .called rfl hadvance (hhonest _ List.mem_cons_self)
        (ih next.2.1 hended fun record hmem => hhonest record (List.mem_cons_of_mem _ hmem))

/-- Bea has reserved the event. -/
def beaReserved : List Action := [.store beaReserves]

/-- Then Ari has, and acquires the lease. -/
def ariLeased : List Action :=
  beaReserved ++ [.store (reserveFor ari hello ari)] ++ admittedRun 0 (demoCall ari hello ari) ++
    [.advance 0 (.acquired ari)]

def beaAlone : Database := (beaReserved.foldl World.act {}).db

def ariHolds : Database := (ariLeased.foldl World.act {}).db

/-- Bea's call up to the decline, and the refund. -/
def beaDeclined : List (Database × Answer × Rat) :=
  [(beaAlone, demoPressure 0, 0), (beaAlone, .store, 0), (beaAlone, .store, 0),
    (beaAlone, .readReservers, 0), (beaAlone, .readEpisode, 0),
    (ariHolds, .draw (some (.drawn, 1)), 1), (ariHolds, .acquired cyd, 0),
    (ariHolds, .refund true, 1)]

def beaRuns (rest : List (Database × Answer × Rat)) : List CallRecord × Stage :=
  play (demoCall bea hello bea) (beginGrant (demoCall bea hello bea)) (beaDeclined ++ rest)

theorem settles_iff_beaReleases :
    (beaRuns [(ariHolds, .store, 0)]).1.length ≤ 10 ∧
      (Settles (demoCall bea hello bea) (beaRuns [(ariHolds, .store, 0)]).1
          (beaRuns [(ariHolds, .store, 0)]).2 ↔
        Clean (demoCall bea hello bea) (beaRuns [(ariHolds, .store, 0)]).1) :=
  settles_iff (played_play _ _ (by decide +kernel) (by decide +kernel))

/-- **The drawn units are refunded twice**, when the release after a declined lease is lost. -/
theorem refunded_twice : ¬ ∀ call records final, Played call (beginGrant call) records final →
    Settles call records final := by
  intro h
  have honce := (h _ _ _ (@played_play (demoCall bea hello bea)
    (beaDeclined ++ [(ariHolds, .lost false, 0), (ariHolds, .refund true, 1)]) _
    (by decide +kernel) (by decide +kernel))).once
  revert honce
  decide +kernel

end Psfn.Arbiter
