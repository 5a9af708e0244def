import Psfn.Arbiter.OneProbe

/-!
# The speaking arbiter — one speaker per trigger

A run that has acquired its lease delivers, and the lease is completed only afterwards. The
sender does not ask whether the lease is still held: when the delivery takes longer than the
lease lasts, another companion reclaims it, delivers too, and only the completion of the first is
refused.

* `one_speaker_per_trigger` — as long as no lease is taken away while a delivery under it is
  running or after one has been reported, at most one delivery of an event is reported.
* `slow_delivery_speaks_twice` — a delivery that outlasts its lease.
-/

namespace Psfn.Arbiter

open Psfn.Lib

/-! ## What should hold, and when -/

def DeliveryReport.ofEvent (channelId triggerEventId : Identifier) (r : DeliveryReport) : Bool :=
  r.channelId = channelId && r.triggerEventId = triggerEventId

/-- At most one `deliver` for the event reported a delivered reply. -/
def OneSpeaker (w : World) : Prop :=
  ∀ channelId triggerEventId, w.reports.countP (·.ofEvent channelId triggerEventId) ≤ 1

/-- The lease under which the sender is delivering. -/
def Stage.delivering : Stage → Option Uuid
  | .deliver _ lease => some lease.leaseId
  | _ => none

/-- The lease was held, and the step has expired it: an acquire took it over, or a sweep. -/
def reclaimed (db' : Database) (row : LeaseRow) : Bool :=
  row.held && db'.leases.any fun l => l.leaseId = row.leaseId && l.status = .expired

/-- Nobody is delivering under a lease that the step reclaims, and nothing has been reported
under it. -/
def HolderDone (w : World) (action : Action) : Prop :=
  ∀ row ∈ w.db.leases, reclaimed (w.act action).db row = true →
    (∀ run ∈ w.runs, run.stage.delivering ≠ some row.leaseId) ∧
      ∀ r ∈ w.reports, r.leaseId ≠ row.leaseId

instance (w : World) (action : Action) : Decidable (HolderDone w action) :=
  inferInstanceAs (Decidable (∀ row ∈ w.db.leases, reclaimed (w.act action).db row = true →
    (∀ run ∈ w.runs, run.stage.delivering ≠ some row.leaseId) ∧
      ∀ r ∈ w.reports, r.leaseId ≠ row.leaseId))

/-! ## Reservations keep their event -/

def ReservationRow.sameTrigger (row other : ReservationRow) : Prop :=
  row.reservationId = other.reservationId ∧ row.channelId = other.channelId ∧
    row.triggerEventId = other.triggerEventId

def KeepsReservations (db db' : Database) : Prop :=
  ∀ r ∈ db.reservations, ∃ r' ∈ db'.reservations, r'.sameTrigger r

variable {db db' : Database}

theorem KeepsReservations.of_eq (h : db'.reservations = db.reservations) :
    KeepsReservations db db' := fun r hr => ⟨r, h ▸ hr, rfl, rfl, rfl⟩

theorem KeepsReservations.trans {db db' db'' : Database} (h : KeepsReservations db db')
    (h' : KeepsReservations db' db'') : KeepsReservations db db'' := by
  intro r hr
  obtain ⟨r', hr', hsame⟩ := h r hr
  obtain ⟨r'', hr'', hsame'⟩ := h' r' hr'
  exact ⟨r'', hr'', hsame'.1.trans hsame.1, hsame'.2.1.trans hsame.2.1, hsame'.2.2.trans hsame.2.2⟩

theorem finalizeReservations_keeps (cond : ReservationRow → Bool)
    (status : SpeakingReservationStatus) (reason : SpeakingArbiterReason) (nowMs : Nat)
    (db : Database) : KeepsReservations db (finalizeReservations cond status reason nowMs db) := by
  intro r hr
  refine ⟨_, List.mem_map_of_mem hr, ?_⟩
  split <;> exact ⟨rfl, rfl, rfl⟩

theorem ensureOpenEpisode_reservations (db : Database) (channelId : Identifier) (nowMs : Nat)
    (uuid : Uuid) :
    (ensureOpenEpisode db channelId nowMs uuid).1.reservations = db.reservations := by
  unfold ensureOpenEpisode
  split <;> rfl

theorem ensureParticipant_reservations (db : Database) (episodeId companionId : Uuid) :
    (ensureParticipant db episodeId companionId).reservations = db.reservations := by
  unfold ensureParticipant
  split <;> rfl

theorem recordSpeech_reservations (db : Database) (episodeId companionId : Uuid) (nowMs : Nat) :
    (recordSpeech db episodeId companionId nowMs).reservations = db.reservations := by
  unfold recordSpeech
  split <;> rfl

theorem enterEpisode_reservations (call : ReserveCall) (db : Database) :
    (enterEpisode call db).1.reservations = db.reservations := by
  unfold enterEpisode
  dsimp only
  rw [ensureParticipant_reservations]
  split
  · exact ensureOpenEpisode_reservations _ _ _ _
  · exact ensureOpenEpisode_reservations _ _ _ _

theorem speak_keeps (call : CompleteCall) (lease : LeaseRow) (db : Database) :
    KeepsReservations db (speak call lease db) := by
  intro r hr
  obtain ⟨r', hr', hsame⟩ := finalizeReservations_keeps (fun r => r.channelId = lease.channelId
    && r.triggerEventId = lease.triggerEventId && r.reservationId ≠ lease.reservationId)
    .released .superseded call.nowMs db r hr
  refine ⟨r', ?_, hsame⟩
  show r' ∈ (recordSpeech _ _ _ _).reservations
  rw [recordSpeech_reservations]
  exact hr'

theorem reserveBody_keeps {call : ReserveCall} {result : ReserveResult}
    (h : reserveBody call db = .ok (db', result)) : KeepsReservations db db' := by
  have hentered : KeepsReservations db (enterEpisode call db).1 :=
    .of_eq (enterEpisode_reservations call db)
  unfold reserveBody at h
  dsimp only at h
  split at h
  · obtain ⟨_, _, hresult⟩ := bind_eq_ok.1 h
    cases hresult
    exact hentered.trans fun r hr => ⟨r, List.mem_append_left _ hr, rfl, rfl, rfl⟩
  · obtain ⟨_, _, hresult⟩ := bind_eq_ok.1 h
    cases hresult
    exact hentered

theorem releaseReservationBody_keeps {input : ReleaseReservationInput} {nowMs : Nat}
    {row : ReservationRow} (h : releaseReservationBody input nowMs db = .ok (db', row)) :
    KeepsReservations db db' := by
  unfold releaseReservationBody at h
  split at h
  · cases h
  · split at h
    · cases h
    · split at h
      · split at h
        · cases h
          exact .of_eq rfl
        · cases h
      · cases h
        exact finalizeReservations_keeps _ _ _ _ db

theorem acquireEgressLeaseBody_keeps {call : AcquireCall} {result : AcquireEgressLeaseResult}
    (h : acquireEgressLeaseBody call db = .ok (db', result)) : KeepsReservations db db' := by
  rcases acquireEgressLeaseBody_cases h with
    ⟨rfl, _⟩ | ⟨rfl, _⟩ | ⟨reservation, base, hpromotes, hgrant⟩
  · exact .of_eq rfl
  · exact .of_eq rfl
  · cases hgrant
    rcases hpromotes.free with ⟨_, rfl⟩ | ⟨_, _, _, rfl⟩
    · exact .of_eq rfl
    · exact .of_eq rfl

theorem completeEgressLeaseBody_keeps {call : CompleteCall} {updated : LeaseRow}
    (h : completeEgressLeaseBody call db = .ok (db', updated)) :
    KeepsReservations db db' := by
  unfold completeEgressLeaseBody at h
  dsimp only at h
  split at h
  · cases h
  · split at h
    · cases h
    · split at h
      · cases h
      · split at h
        · split at h
          · cases h
            exact .of_eq rfl
          · cases h
        · cases h
          have hresolved := fun cond reason =>
            finalizeReservations_keeps cond .released reason call.nowMs
              (finalizeLeases (fun l => l.leaseId = call.leaseId
                && (l.fencingToken : Int) = call.fencingToken) call.completion.status
                (speakingCompletionReason call.completion) call.nowMs db)
          split
          · exact KeepsReservations.trans (hresolved _ _) (speak_keeps _ _ _)
          · exact hresolved _ _

theorem checked_keeps {α β : Type} {input : Except String α}
    {body : α → Database → Except String (Database × β)}
    (h : ∀ call db' b, body call db = .ok (db', b) → KeepsReservations db db') :
    KeepsReservations db (checked input body db).1 := by
  rcases checked_cases input body db with ⟨_, hfailed⟩ | ⟨call, db', b, _, hbody, _, hresult⟩
  · rw [hfailed]
    exact .of_eq rfl
  · rw [hresult]
    exact h call db' b hbody

theorem StoreOp.run_keeps (op : StoreOp) (db : Database) : KeepsReservations db (op.run db) := by
  cases op with
  | ensureRoomEpisode channelId nowMs uuid =>
    refine checked_keeps fun _ _ _ h => ?_
    obtain ⟨_, _, hresult⟩ := bind_eq_ok.1 h
    cases hresult
    exact .of_eq (ensureOpenEpisode_reservations _ _ _ _)
  | recordHumanActivity channelId nowMs uuid =>
    refine checked_keeps fun _ _ _ h => ?_
    obtain ⟨_, _, hresult⟩ := bind_eq_ok.1 h
    cases hresult
    exact .of_eq (ensureOpenEpisode_reservations _ _ _ _)
  | closeRoomEpisode channelId nowMs uuid =>
    refine checked_keeps fun call db' b h => ?_
    unfold closeRoomEpisodeBody at h
    split at h
    · cases h
      exact .of_eq rfl
    · obtain ⟨_, _, hresult⟩ := bind_eq_ok.1 h
      cases hresult
      exact .of_eq rfl
  | persistRoomEpisodeBreakerState channelId state nowMs =>
    refine checked_keeps fun call db' b h => ?_
    cases h
    exact .of_eq rfl
  | reserve input => exact checked_keeps fun _ _ _ h => reserveBody_keeps h
  | releaseReservation input => exact checked_keeps fun _ _ _ h => releaseReservationBody_keeps h
  | acquireEgressLease input => exact checked_keeps fun _ _ _ h => acquireEgressLeaseBody_keeps h
  | completeEgressLease input => exact checked_keeps fun _ _ _ h => completeEgressLeaseBody_keeps h
  | sweepExpired channelId nowMs =>
    refine checked_keeps fun call db' b h => ?_
    cases h
    exact finalizeReservations_keeps _ _ _ _ _

theorem reservationId_keyed (h : db.constraints = true) :
    Table.Keyed (·.reservationId) db.reservations := by
  simp only [Database.constraints, Bool.and_eq_true, decide_eq_true_eq] at h
  exact h.1.1.1.1.1.2

/-- An operation leaves the database as it was, or in a state the constraints hold in. -/
theorem StoreOp.run_constraints (op : StoreOp) (db : Database) :
    op.run db = db ∨ (op.run db).constraints = true := by
  have hchecked : ∀ {α β : Type} (input : Except String α)
      (body : α → Database → Except String (Database × β)),
      (checked input body db).1 = db ∨ (checked input body db).1.constraints = true := by
    intro α β input body
    rcases checked_cases input body db with ⟨_, hfailed⟩ | ⟨_, _, _, _, _, hconstraints, hresult⟩
    · exact .inl (by rw [hfailed])
    · exact .inr (by rw [hresult]; exact hconstraints)
  cases op <;> exact hchecked _ _

theorem StoreOp.run_keyed (op : StoreOp) (h : Table.Keyed (·.reservationId) db.reservations) :
    Table.Keyed (·.reservationId) (op.run db).reservations := by
  rcases op.run_constraints db with hsame | hconstraints
  · rw [hsame]
    exact h
  · exact reservationId_keyed hconstraints

/-! ## Claims -/

/-- The lease claims the event. -/
def Claimed (db : Database) (leaseId : Uuid) (channelId triggerEventId : Identifier) : Prop :=
  ∃ row ∈ db.leases, row.leaseId = leaseId ∧ row.channelId = channelId ∧
    row.triggerEventId = triggerEventId ∧ row.claims = true

variable {leaseId : Uuid}

theorem LeaseEffect.claimed (h : LeaseEffect db db') {channelId triggerEventId : Identifier}
    (hclaimed : Claimed db leaseId channelId triggerEventId)
    (hkept : ∀ row ∈ db.leases, row.leaseId = leaseId → reclaimed db' row = false) :
    Claimed db' leaseId channelId triggerEventId := by
  obtain ⟨row, hrow, hid, hchannel, hevent, hclaims⟩ := hclaimed
  -- a row that the step does not reclaim is not among those it expires
  have hrows : ∀ cond nowMs, (∀ l ∈ finalizeRows cond .expired .expiry nowMs db.leases,
      l ∈ db'.leases) → row ∈ db'.leases := by
    intro cond nowMs hsub
    by_cases hexpired : row.held = true ∧ cond row = true
    · have hmem := hsub _ (mem_finalizeRows.2 ⟨row, hrow, .inl ⟨hexpired.1, hexpired.2, rfl⟩⟩)
      have hreclaimed : reclaimed db' row = true := by
        rw [reclaimed, Bool.and_eq_true, List.any_eq_true]
        exact ⟨hexpired.1, _, hmem, by simp [LeaseRow.finalize]⟩
      rw [hkept row hrow hid] at hreclaimed
      cases hreclaimed
    · refine hsub row (mem_finalizeRows.2 ⟨row, hrow, .inr ⟨fun hheld => ?_, rfl⟩⟩)
      exact Bool.eq_false_iff.2 fun hcond => hexpired ⟨hheld, hcond⟩
  refine ⟨row, ?_, hid, hchannel, hevent, hclaims⟩
  cases h with
  | idle hleases hjoin => rw [hleases]; exact hrow
  | expire cond nowMs hleases hparticipation => exact hrows cond nowMs fun l hl => hleases ▸ hl
  | grant cond nowMs lease hleases =>
    exact hrows cond nowMs fun l hl => hleases ▸ List.mem_append_left _ hl

variable {row : LeaseRow}

/-- A completion drops no claim but that of its own lease, and that only if it is no speech. -/
theorem CompletesLease.claimed {call : CompleteCall} (h : CompletesLease db db' call row)
    {channelId triggerEventId : Identifier} (hclaimed : Claimed db leaseId channelId triggerEventId)
    (hother : speakingCompletionIsSpeech call.completion = false → leaseId ≠ call.leaseId) :
    Claimed db' leaseId channelId triggerEventId := by
  obtain ⟨l, hl, hid, hchannel, hevent, hclaims⟩ := hclaimed
  rw [Claimed, h.leases]
  by_cases hcompleted : l.held = true ∧
      (decide (l.leaseId = call.leaseId) && decide ((l.fencingToken : Int) = call.fencingToken)) = true
  · refine ⟨_, mem_finalizeRows.2 ⟨l, hl, .inl ⟨hcompleted.1, hcompleted.2, rfl⟩⟩, hid, hchannel,
      hevent, ?_⟩
    have hcond := hcompleted.2
    simp only [Bool.and_eq_true, decide_eq_true_eq] at hcond
    have hspeech : speakingCompletionIsSpeech call.completion = true := by
      rw [← Bool.not_eq_false]
      exact fun hno => hother hno (hid.symm.trans hcond.1)
    exact claims_iff.2 (.inr (speech_status.trans hspeech))
  · refine ⟨l, mem_finalizeRows.2 ⟨l, hl, .inr ⟨fun hheld => ?_, rfl⟩⟩, hid, hchannel, hevent, hclaims⟩
    exact Bool.eq_false_iff.2 fun hcond => hcompleted ⟨hheld, hcond⟩

/-- No lease disappears. -/
theorem finalizeRows_leaseId {cond : LeaseRow → Bool} {status : SpeakingEgressLeaseStatus}
    {reason : SpeakingArbiterReason} {nowMs : Nat} {leases : List LeaseRow} (h : row ∈ leases) :
    ∃ row' ∈ finalizeRows cond status reason nowMs leases, row'.leaseId = row.leaseId := by
  refine ⟨_, List.mem_map_of_mem h, ?_⟩
  split <;> rfl

theorem StoreOp.run_known (op : StoreOp) (hsound : LeasesSound db) (h : row ∈ db.leases) :
    ∃ row' ∈ (op.run db).leases, row'.leaseId = row.leaseId := by
  rcases op.run_cases hsound with heffect | ⟨call, found, hcompletes⟩
  · cases heffect with
    | idle hleases hjoin => exact ⟨row, hleases ▸ h, rfl⟩
    | expire cond nowMs hleases hparticipation =>
      rw [hleases]
      exact finalizeRows_leaseId h
    | grant cond nowMs lease hleases =>
      rw [hleases]
      obtain ⟨row', hrow', hid⟩ := finalizeRows_leaseId h
      exact ⟨row', List.mem_append_left _ hrow', hid⟩
  · rw [hcompletes.leases]
    exact finalizeRows_leaseId h

/-! ## The invariant -/

/-- The lease a run has in hand without having reported a delivery under it. -/
def Stage.unreported : Stage → Option Uuid
  | .deliver _ lease => some lease.leaseId
  | .complete _ lease completion _ _ =>
    if completion = .delivered then none else some lease.leaseId
  | _ => none

/-- The leases of runs that have not reported, and those that were reported. -/
def inHand (runs : List Run) (reports : List DeliveryReport) : List Uuid :=
  runs.filterMap (·.stage.unreported) ++ reports.map (·.leaseId)

def BoundTo (db : Database) (reservation : ReservationRow) : Prop :=
  ∃ row ∈ db.reservations, row.sameTrigger reservation

structure SpeakersSound (db : Database) (runs : List Run) (reports : List DeliveryReport) :
    Prop where
  leases   : LeasesSound db
  keyed    : Table.Keyed (·.reservationId) db.reservations
  bound    : ∀ run ∈ runs, BoundTo db run.call.reservation
  claimed  : ∀ run ∈ runs, ∀ leaseId ∈ run.stage.delivering,
    Claimed db leaseId run.call.reservation.channelId run.call.reservation.triggerEventId
  reported : ∀ r ∈ reports, Claimed db r.leaseId r.channelId r.triggerEventId
  known    : ∀ leaseId ∈ inHand runs reports, ∃ row ∈ db.leases, row.leaseId = leaseId
  distinct : (inHand runs reports).Nodup

theorem SpeakersSound.init : SpeakersSound {} [] [] where
  leases := LeasesSound.init
  keyed := Table.keyed_nil _
  bound := fun _ h => absurd h List.not_mem_nil
  claimed := fun _ h => absurd h List.not_mem_nil
  reported := fun _ h => absurd h List.not_mem_nil
  known := fun _ h => absurd h List.not_mem_nil
  distinct := List.nodup_nil

variable {runs : List Run}

theorem inHand_perm {runs' : List Run} (h : runs.Perm runs') (reports : List DeliveryReport) :
    (inHand runs reports).Perm (inHand runs' reports) :=
  (h.filterMap _).append_right _

variable {reports : List DeliveryReport}

/-- The order of the runs does not matter. -/
theorem SpeakersSound.perm {runs' : List Run} (h : SpeakersSound db runs reports)
    (hperm : runs.Perm runs') :
    SpeakersSound db runs' reports where
  leases := h.leases
  keyed := h.keyed
  bound := fun run hrun => h.bound run (hperm.mem_iff.2 hrun)
  claimed := fun run hrun => h.claimed run (hperm.mem_iff.2 hrun)
  reported := h.reported
  known := fun leaseId hid => h.known leaseId ((inHand_perm hperm reports).mem_iff.2 hid)
  distinct := (inHand_perm hperm reports).nodup_iff.1 h.distinct

theorem SpeakersSound.oneSpeaker {w : World} (h : SpeakersSound w.db w.runs w.reports) :
    OneSpeaker w := by
  intro channelId triggerEventId
  have hkeyed : Table.Keyed (·.leaseId) w.reports := (List.nodup_append.1 h.distinct).2.1
  refine hkeyed.countP_le_one fun r hr r' hr' hevent hevent' => ?_
  simp only [DeliveryReport.ofEvent, Bool.and_eq_true, decide_eq_true_eq] at hevent hevent'
  obtain ⟨row, hrow, hid, hchannel, htrigger, hclaims⟩ := h.reported r hr
  obtain ⟨row', hrow', hid', hchannel', htrigger', hclaims'⟩ := h.reported r' hr'
  have hsame : row.sameEvent row' :=
    ⟨(hchannel.trans hevent.1).trans (hchannel'.trans hevent'.1).symm,
      (htrigger.trans hevent.2).trans (htrigger'.trans hevent'.2).symm⟩
  rw [← hid, ← hid']
  exact h.leases.unique row hrow row' hrow' hsame hclaims hclaims'

/-! ## The database changes -/

theorem BoundTo.run {reservation : ReservationRow} (h : BoundTo db reservation) (op : StoreOp) :
    BoundTo (op.run db) reservation := by
  obtain ⟨row, hrow, hsame⟩ := h
  obtain ⟨row', hrow', hsame'⟩ := op.run_keeps db row hrow
  exact ⟨row', hrow', hsame'.1.trans hsame.1, hsame'.2.1.trans hsame.2.1,
    hsame'.2.2.trans hsame.2.2⟩

/-- An operation that drops no claim of a lease in delivery or reported. -/
theorem SpeakersSound.run (h : SpeakersSound db runs reports) (op : StoreOp)
    (hclaimed : ∀ leaseId channelId triggerEventId, Claimed db leaseId channelId triggerEventId →
      (∃ run ∈ runs, run.stage.delivering = some leaseId) ∨ (∃ r ∈ reports, r.leaseId = leaseId) →
      Claimed (op.run db) leaseId channelId triggerEventId) :
    SpeakersSound (op.run db) runs reports where
  leases := leasesSound_run h.leases op
  keyed := op.run_keyed h.keyed
  bound := fun run hrun => (h.bound run hrun).run op
  claimed := fun run hrun leaseId hid =>
    hclaimed _ _ _ (h.claimed run hrun leaseId hid) (.inl ⟨run, hrun, hid⟩)
  reported := fun r hr => hclaimed _ _ _ (h.reported r hr) (.inr ⟨r, hr, rfl⟩)
  known := by
    intro leaseId hid
    obtain ⟨row, hrow, rfl⟩ := h.known leaseId hid
    exact op.run_known h.leases hrow
  distinct := h.distinct

/-- Nothing in delivery or reported is reclaimed on the way to `db'`. -/
def NothingReclaimed (db db' : Database) (runs : List Run) (reports : List DeliveryReport) : Prop :=
  ∀ row ∈ db.leases, reclaimed db' row = true →
    (∀ run ∈ runs, run.stage.delivering ≠ some row.leaseId) ∧ ∀ r ∈ reports, r.leaseId ≠ row.leaseId

theorem SpeakersSound.run_effect (h : SpeakersSound db runs reports) {op : StoreOp}
    (hop : ∀ input, op ≠ .completeEgressLease input)
    (hdone : NothingReclaimed db (op.run db) runs reports) :
    SpeakersSound (op.run db) runs reports := by
  refine h.run op fun leaseId channelId triggerEventId hclaimed hin => ?_
  refine (op.run_effect hop h.leases).claimed hclaimed fun row hrow hid => ?_
  rw [Bool.eq_false_iff]
  intro hreclaimed
  obtain ⟨hruns, hreports⟩ := hdone row hrow hreclaimed
  rcases hin with ⟨run, hrun, hdelivering⟩ | ⟨r, hr, hreport⟩
  · exact hruns run hrun (hid ▸ hdelivering)
  · exact hreports r hr (hreport.trans hid.symm)

/-! ## A run moves -/

variable {run : Run} {others : List Run} {stage : Stage}

/-- The run in front moves on, and holds at most the lease it held. -/
theorem SpeakersSound.move (h : SpeakersSound db (run :: others) reports)
    (hdelivering : stage.delivering = none)
    (hunreported : stage.unreported = none ∨ stage.unreported = run.stage.unreported) :
    SpeakersSound db ({ run with stage } :: others) reports := by
  have hsub : (inHand ({ run with stage } :: others) reports).Sublist
      (inHand (run :: others) reports) := by
    refine List.Sublist.append_right ?_ _
    rw [List.filterMap_cons, List.filterMap_cons]
    rcases hunreported with hnone | hsame
    · rw [hnone]
      cases run.stage.unreported with
      | none => exact List.Sublist.refl _
      | some leaseId => exact List.sublist_cons_self _ _
    · rw [hsame]
  refine { h with bound := ?_, claimed := ?_, known := ?_, distinct := ?_ }
  · intro r hr
    rcases List.mem_cons.1 hr with rfl | hr
    · exact h.bound run List.mem_cons_self
    · exact h.bound r (List.mem_cons_of_mem _ hr)
  · intro r hr leaseId hid
    rcases List.mem_cons.1 hr with rfl | hr
    · have hnone : stage.delivering = some leaseId := hid
      rw [hdelivering] at hnone
      cases hnone
    · exact h.claimed r (List.mem_cons_of_mem _ hr) leaseId hid
  · exact fun leaseId hid => h.known leaseId (hsub.subset hid)
  · exact h.distinct.sublist hsub

theorem unreported_of_delivering (h : stage.delivering = some leaseId) :
    stage.unreported = some leaseId := by
  cases stage with
  | deliver breakerState lease => exact h
  | _ => cases h

theorem mem_inHand_of_delivering
    (h : (∃ run ∈ runs, run.stage.delivering = some leaseId) ∨ ∃ r ∈ reports, r.leaseId = leaseId) :
    leaseId ∈ inHand runs reports := by
  rcases h with ⟨run, hrun, hdelivering⟩ | ⟨r, hr, rfl⟩
  · exact List.mem_append_left _
      (List.mem_filterMap.2 ⟨run, hrun, unreported_of_delivering hdelivering⟩)
  · exact List.mem_append_right _ (List.mem_map_of_mem hr)

variable {lease : LeaseRow}

/-- The run in front gets a lease that nobody has in hand. -/
theorem SpeakersSound.acquired (h : SpeakersSound db (run :: others) reports)
    (breakerState : RoomEpisodeBreakerState)
    (hclaimed : Claimed db lease.leaseId run.call.reservation.channelId
      run.call.reservation.triggerEventId)
    (hfresh : lease.leaseId ∉ inHand (run :: others) reports) :
    SpeakersSound db ({ run with stage := .deliver breakerState lease } :: others) reports := by
  have hrest : (inHand others reports).Sublist (inHand (run :: others) reports) := by
    refine List.Sublist.append_right ?_ _
    exact (List.sublist_cons_self run others).filterMap _
  have hhand : inHand ({ run with stage := .deliver breakerState lease } :: others) reports =
      lease.leaseId :: inHand others reports := rfl
  refine { h with bound := ?_, claimed := ?_, known := ?_, distinct := ?_ }
  · intro r hr
    rcases List.mem_cons.1 hr with rfl | hr
    · exact h.bound run List.mem_cons_self
    · exact h.bound r (List.mem_cons_of_mem _ hr)
  · intro r hr leaseId hid
    rcases List.mem_cons.1 hr with rfl | hr
    · cases hid
      exact hclaimed
    · exact h.claimed r (List.mem_cons_of_mem _ hr) leaseId hid
  · intro leaseId hid
    rw [hhand] at hid
    rcases List.mem_cons.1 hid with rfl | hid
    · obtain ⟨row, hrow, hrowId, _⟩ := hclaimed
      exact ⟨row, hrow, hrowId⟩
    · exact h.known leaseId (hrest.subset hid)
  · rw [hhand, List.nodup_cons]
    exact ⟨fun hmem => hfresh (hrest.subset hmem), h.distinct.sublist hrest⟩

/-- The sender reports a delivered reply to the run in front. -/
theorem SpeakersSound.report (h : SpeakersSound db (run :: others) reports) {r : DeliveryReport}
    (hdelivering : run.stage.delivering = some r.leaseId)
    (hchannel : r.channelId = run.call.reservation.channelId)
    (hevent : r.triggerEventId = run.call.reservation.triggerEventId)
    (hafter : stage.delivering = none) (hdone : stage.unreported = none) :
    SpeakersSound db ({ run with stage } :: others) (reports ++ [r]) := by
  have hperm : (inHand ({ run with stage } :: others) (reports ++ [r])).Perm
      (inHand (run :: others) reports) := by
    have hbefore : inHand (run :: others) reports = r.leaseId :: inHand others reports := by
      simp only [inHand, List.filterMap_cons, unreported_of_delivering hdelivering, List.cons_append]
    have hnow : inHand ({ run with stage } :: others) (reports ++ [r]) =
        inHand others reports ++ [r.leaseId] := by
      simp only [inHand, List.filterMap_cons, hdone, List.map_append, List.map_cons, List.map_nil,
        List.append_assoc]
    rw [hbefore, hnow]
    exact List.perm_append_singleton _ _
  refine { h with bound := ?_, claimed := ?_, reported := ?_, known := ?_, distinct := ?_ }
  · intro r' hr'
    rcases List.mem_cons.1 hr' with rfl | hr'
    · exact h.bound run List.mem_cons_self
    · exact h.bound r' (List.mem_cons_of_mem _ hr')
  · intro r' hr' leaseId hid
    rcases List.mem_cons.1 hr' with rfl | hr'
    · have hnone : stage.delivering = some leaseId := hid
      rw [hafter] at hnone
      cases hnone
    · exact h.claimed r' (List.mem_cons_of_mem _ hr') leaseId hid
  · intro r' hr'
    rcases List.mem_append.1 hr' with hold | hnew
    · exact h.reported r' hold
    · rw [List.mem_singleton.1 hnew, hchannel, hevent]
      exact h.claimed run List.mem_cons_self _ hdelivering
  · exact fun leaseId hid => h.known leaseId (hperm.mem_iff.1 hid)
  · exact hperm.nodup_iff.2 h.distinct

/-- The run in front completes its lease. -/
theorem SpeakersSound.completed (h : SpeakersSound db (run :: others) reports)
    {breakerState : RoomEpisodeBreakerState} {completion : SpeakingEgressLeaseCompletion}
    {detail : Option String} {threw : Bool}
    (hbefore : run.stage = .complete breakerState lease completion detail threw)
    (hdelivering : stage.delivering = none) (hunreported : stage.unreported = none) :
    SpeakersSound (completeEgressLease (completeInput run.call lease completion) db).1
      ({ run with stage } :: others) reports := by
  have hmoved : SpeakersSound db ({ run with stage } :: others) reports :=
    h.move hdelivering (.inl hunreported)
  refine hmoved.run (.completeEgressLease (completeInput run.call lease completion)) ?_
  intro leaseId channelId triggerEventId hclaimed hin
  rcases completeEgressLease_cases (completeInput run.call lease completion) db with
    hsame | ⟨call, row, hcall, hcompletes⟩
  · have hrun : (StoreOp.completeEgressLease (completeInput run.call lease completion)).run db = db :=
      hsame
    rw [hrun]
    exact hclaimed
  · obtain ⟨_, _, hrest⟩ := bind_eq_ok.1 hcall
    obtain ⟨_, _, hrest⟩ := bind_eq_ok.1 hrest
    obtain ⟨_, _, hrest⟩ := bind_eq_ok.1 hrest
    cases hrest
    refine CompletesLease.claimed hcompletes hclaimed fun hsilent => ?_
    -- a completion that is no speech is of a lease nobody else has in hand
    have hnot : completion ≠ .delivered := fun heq => by
      have hspeech : speakingCompletionIsSpeech completion = false := hsilent
      rw [heq] at hspeech
      cases hspeech
    have hunrep : run.stage.unreported = some lease.leaseId := by
      rw [hbefore]
      exact if_neg hnot
    have hhand : inHand (run :: others) reports = lease.leaseId :: inHand others reports := by
      simp only [inHand, List.filterMap_cons, hunrep, List.cons_append]
    have hnow : inHand ({ run with stage } :: others) reports = inHand others reports := by
      simp only [inHand, List.filterMap_cons, hunreported]
    have hdistinct := h.distinct
    rw [hhand, List.nodup_cons] at hdistinct
    have hmem := mem_inHand_of_delivering hin
    rw [hnow] at hmem
    intro heq
    have hown : leaseId = lease.leaseId := heq
    exact hdistinct.1 (hown ▸ hmem)

/-! ## Steps -/

/-- A grant under a fresh id claims the event of the reservation. -/
theorem acquire_claims {input : AcquireEgressLeaseInput} {reservation : ReservationRow}
    (hkeyed : Table.Keyed (·.reservationId) db.reservations) (hbound : BoundTo db reservation)
    (hid : input.reservationId = reservation.reservationId)
    (hchannel : input.channelId = reservation.channelId)
    (hfresh : ∀ l ∈ db.leases, l.leaseId ≠ input.leaseId)
    (hresult : (acquireEgressLease input db).2 = .ok (.acquired lease)) :
    lease.leaseId = input.leaseId ∧ Claimed (acquireEgressLease input db).1 lease.leaseId
      reservation.channelId reservation.triggerEventId := by
  rcases checked_cases (acquireCall input) acquireEgressLeaseBody db with
    ⟨message, hfailed⟩ | ⟨call, db', result, hcall, hbody, _, hdone⟩
  · rw [acquireEgressLease, hfailed] at hresult
    cases hresult
  · obtain ⟨_, _, hrest⟩ := bind_eq_ok.1 hcall
    obtain ⟨_, _, hrest⟩ := bind_eq_ok.1 hrest
    obtain ⟨_, _, hrest⟩ := bind_eq_ok.1 hrest
    cases hrest
    rw [acquireEgressLease, hdone] at hresult
    rw [acquireEgressLease, hdone]
    cases hresult
    rcases acquireEgressLeaseBody_cases hbody with
      ⟨_, row, hrow, hrowId, _⟩ | ⟨_, heldBy, reason, hdeclined⟩ |
        ⟨found, base, hpromotes, hgrant⟩
    · exact absurd hrowId (hfresh row hrow)
    · cases hdeclined
    · cases hgrant
      obtain ⟨row, hrow, hsame⟩ := hbound
      have hfoundId : found.reservationId = input.reservationId := by
        simpa using List.find?_some hpromotes.found
      have hrowFound : found = row := hkeyed.unique (List.mem_of_find?_eq_some hpromotes.found) hrow
        (hfoundId.trans (hid.trans hsame.1.symm))
      refine ⟨rfl, _, List.mem_append_right _ (List.mem_singleton.2 rfl), rfl, hchannel, ?_, rfl⟩
      exact (congrArg _ hrowFound).trans hsame.2.2

theorem idle_delivering (h : stage.idle = true) :
    stage.delivering = none ∧ stage.unreported = none := by
  cases stage with
  | deliver breakerState lease => cases h
  | complete breakerState lease completion detail threw => cases h
  | _ => exact ⟨rfl, rfl⟩

/-- The answer to the run in front, when nothing in hand is reclaimed. -/
theorem SpeakersSound.advance {w : World} {run : Run} {others : List Run} {answer : Answer}
    {db' : Database} {stage : Stage} {event : Option PhaseEvent}
    (h : SpeakersSound w.db (run :: others) w.reports)
    (heffect : AdvanceEffect run.call w.db run.stage answer db' stage event)
    (hfresh : ∀ leaseId ∈ answer.generated, ∀ lease ∈ w.db.leases, lease.leaseId ≠ leaseId)
    (hdone : NothingReclaimed w.db db' (run :: others) w.reports) :
    SpeakersSound db' ({ run with stage } :: others) (w.observe run.call db' event).reports := by
  cases heffect with
  | quiet hdb hstage hevent =>
    obtain ⟨hdelivering, hunreported⟩ := idle_delivering hstage
    rw [hevent]
    rcases hdb with rfl | ⟨op, rfl, hop⟩
    · exact h.move hdelivering (.inl hunreported)
    · exact (h.run_effect hop hdone).move hdelivering (.inl hunreported)
  | assess assessed pressure prior hdb hstage hevent =>
    rw [hevent, hdb]
    have hstages : stage.delivering = none ∧ stage.unreported = none := by
      rw [hstage]
      unfold afterBreakerRead
      dsimp only
      split <;> exact ⟨rfl, rfl⟩
    exact h.move hstages.1 (.inl hstages.2)
  | admitted assessed pressure assessment hbefore hanswer hpersist hstage hevent =>
    obtain ⟨hdelivering, hunreported⟩ :=
      idle_delivering (hstage ▸ afterBreaker_idle run.call assessed assessment)
    have hrun : db' = (StoreOp.persistRoomEpisodeBreakerState run.call.reservation.channelId
        assessment.state run.call.nowMs).run w.db := (congrArg Prod.fst hpersist).symm
    have hreports : (w.observe run.call db' event).reports = w.reports := by
      rw [hevent]
      unfold admission
      split <;> rfl
    rw [hreports]
    rw [hrun] at hdone ⊢
    refine SpeakersSound.move (h.run_effect ?_ hdone) hdelivering (.inl hunreported)
    exact fun _ => nofun
  | acquire breakerState drawnUnits leaseId hanswer hdb hstage hevent =>
    rw [hevent]
    have hfreshId : ∀ lease ∈ w.db.leases, lease.leaseId ≠ leaseId :=
      hfresh leaseId (by rw [hanswer]; rfl)
    have hnotInHand : leaseId ∉ inHand (run :: others) w.reports := by
      intro hmem
      obtain ⟨row, hrow, hid⟩ := h.known leaseId hmem
      exact hfreshId row hrow hid
    have hrun : db' = (StoreOp.acquireEgressLease
        (acquireInput run.call leaseId drawnUnits)).run w.db := hdb
    have hafter : SpeakersSound db' (run :: others) w.reports := by
      rw [hrun] at hdone ⊢
      refine h.run_effect ?_ hdone
      exact fun _ => nofun
    rw [hstage]
    cases hresult : (acquireEgressLease (acquireInput run.call leaseId drawnUnits) w.db).2 with
    | error message =>
      obtain ⟨hdelivering, hunreported⟩ :=
        idle_delivering (refundUnits_idle (gateError .acquire) drawnUnits false)
      exact hafter.move hdelivering (.inl hunreported)
    | ok result =>
      cases result with
      | declined heldBy reason =>
        obtain ⟨hdelivering, hunreported⟩ := idle_delivering (refundUnits_idle
          { outcome := .leaseDeclined, breakerState := some breakerState
            declineReason := some reason } drawnUnits true)
        exact hafter.move hdelivering (.inl hunreported)
      | acquired lease =>
        obtain ⟨hid, hclaimed⟩ := acquire_claims h.keyed (h.bound run List.mem_cons_self) rfl rfl
          hfreshId hresult
        have hid' : lease.leaseId = leaseId := hid
        rw [← hdb] at hclaimed
        exact hafter.acquired breakerState hclaimed (hid' ▸ hnotInHand)
  | deliver breakerState lease outcome hbefore hdb hstage hevent =>
    rw [hevent, hdb]
    have hdelivering : run.stage.delivering = some lease.leaseId := by rw [hbefore]; rfl
    rcases outcome with name | ⟨delivered, detail⟩
    · rw [hstage]
      refine h.move rfl (.inr ?_)
      rw [hbefore]
      rfl
    · cases delivered with
      | false =>
        rw [hstage]
        refine h.move rfl (.inr ?_)
        rw [hbefore]
        rfl
      | true =>
        rw [hstage]
        exact h.report hdelivering rfl rfl rfl rfl
  | complete breakerState lease completion detail threw hbefore hdb hstage hevent =>
    obtain ⟨hdelivering, hunreported⟩ := idle_delivering hstage
    rw [hevent]
    rcases hdb with rfl | rfl
    · exact h.move hdelivering (.inl hunreported)
    · exact h.completed hbefore hdelivering hunreported

theorem perm_of_getElem? {α : Type} {l : List α} {i : Nat} {a : α} (h : l[i]? = some a) (b : α) :
    l.Perm (a :: l.eraseIdx i) ∧ (l.set i b).Perm (b :: l.eraseIdx i) := by
  obtain ⟨hi, rfl⟩ := List.getElem?_eq_some_iff.1 h
  exact ⟨(List.getElem_cons_eraseIdx_perm hi).symm, List.set_perm_cons_eraseIdx hi b⟩

theorem speakersSound_act {w : World} (h : SpeakersSound w.db w.runs w.reports) {action : Action}
    (henabled : action.Enabled w) (hdone : HolderDone w action) :
    SpeakersSound (w.act action).db (w.act action).runs (w.act action).reports := by
  cases action with
  | start call =>
    have hperm : (w.runs ++ [({ call, stage := beginGrant call } : Run)]).Perm
        ({ call, stage := beginGrant call } :: w.runs) := List.perm_append_singleton _ _
    refine SpeakersSound.perm ?_ hperm.symm
    show SpeakersSound w.db ({ call, stage := beginGrant call } :: w.runs) w.reports
    obtain ⟨hdelivering, hunreported⟩ := idle_delivering (beginGrant_idle call)
    have hhand : inHand ({ call, stage := beginGrant call } :: w.runs) w.reports =
        inHand w.runs w.reports := by
      simp only [inHand, List.filterMap_cons, hunreported]
    refine { h with bound := ?_, claimed := ?_, known := ?_, distinct := ?_ }
    · intro run hrun
      rcases List.mem_cons.1 hrun with rfl | hrun
      · exact henabled
      · exact h.bound run hrun
    · intro run hrun leaseId hid
      rcases List.mem_cons.1 hrun with rfl | hrun
      · have hnone : (beginGrant call).delivering = some leaseId := hid
        rw [hdelivering] at hnone
        cases hnone
      · exact h.claimed run hrun leaseId hid
    · rw [hhand]
      exact h.known
    · rw [hhand]
      exact h.distinct
  | stop i =>
    cases hrun : w.runs[i]? with
    | none =>
      have hsame : w.act (.stop i) = w := by simp only [World.act, hrun]
      rw [hsame]
      exact h
    | some run =>
      have hact : w.act (.stop i) = { w with runs := w.runs.set i { run with stage := .stopped } } := by
        simp only [World.act, hrun]
      rw [hact]
      obtain ⟨hbefore, hafter⟩ := perm_of_getElem? hrun ({ run with stage := .stopped } : Run)
      exact ((h.perm hbefore).move rfl (.inl rfl)).perm hafter.symm
  | store op =>
    refine h.run_effect (fun input heq => ?_) hdone
    have hout : op.outsideGrant = true := henabled
    rw [heq] at hout
    cases hout
  | advance i answer =>
    rcases act_advance w i answer with hsame | ⟨run, db', stage, event, hrun, heffect, hact⟩
    · rw [hsame]
      exact h
    · obtain ⟨hbefore, hafter⟩ := perm_of_getElem? hrun ({ run with stage } : Run)
      have hdb : (w.act (.advance i answer)).db = db' := by rw [hact]
      have hnothing : NothingReclaimed w.db db' (run :: w.runs.eraseIdx i) w.reports := by
        intro row hrow hreclaimed
        obtain ⟨hruns, hreports⟩ := hdone row hrow (hdb ▸ hreclaimed)
        exact ⟨fun r hr => hruns r (hbefore.mem_iff.2 hr), hreports⟩
      have hnext := (h.perm hbefore).advance heffect henabled hnothing
      rw [hact]
      exact hnext.perm hafter.symm

/-- **One speaker per trigger**, in every run in which no lease is reclaimed while a delivery under
it is running or after one has been reported. -/
theorem one_speaker_per_trigger {w : World} (h : (arbiterSystem HolderDone).Reachable w) :
    OneSpeaker w := by
  have hsound : SpeakersSound w.db w.runs w.reports := by
    refine System.invariant (I := fun w => SpeakersSound w.db w.runs w.reports)
      SpeakersSound.init ?_ h
    rintro s t hs ⟨action, henabled, hdone, rfl⟩
    exact speakersSound_act hs henabled hdone
  exact hsound.oneSpeaker

/-! ## A delivery in time, and one that is not -/

/-- Bea's reservation of the event lasts longer than Ari's. -/
def beaReserves : StoreOp :=
  .reserve { reservationId := bea, channelId := room, triggerEventId := hello, companionId := bea
             nowMs := .finite 0, expiresAtMs := .finite 1000, uuid := ari }

/-- Bea's `grantReply`, when Ari's reservation and a lease acquired by then have lapsed. -/
def beaCall : GrantCall := { demoCall bea hello bea with nowMs := .finite 500 }

/-- A run from its call to the answer of the pot, with a quiet room. -/
def admittedRun (i : Nat) (call : GrantCall) : List Action :=
  [.start call, .advance i (demoPressure 0), .advance i .store, .advance i .store,
    .advance i .readReservers, .advance i .readEpisode, .advance i (.draw (some (.drawn, 1)))]

/-- Ari acquires the lease and is delivering. -/
def ariDelivers : List Action :=
  [.store (reserveFor ari hello ari), .store beaReserves] ++ admittedRun 0 (demoCall ari hello ari) ++
    [.advance 0 (.acquired ari)]

/-- Ari's delivery is reported and completed before Bea asks for the lease. -/
def ariInTime : List Action :=
  ariDelivers ++ [.advance 0 (.delivery (.ok (true, none))), .advance 0 .store] ++
    admittedRun 1 beaCall ++ [.advance 1 (.acquired bea)]

theorem one_speaker_per_trigger_ariInTime :
    (ariInTime.foldl World.act {}).reports.map (·.companionId) = [ari] ∧
      OneSpeaker (ariInTime.foldl World.act {}) :=
  ⟨by decide +kernel, one_speaker_per_trigger (reachable_of_legal (by decide +kernel))⟩

/-- Bea acquires the lapsed lease while Ari is still delivering; then both deliver. -/
def ariTooSlow : List Action :=
  ariDelivers ++ admittedRun 1 beaCall ++
    [.advance 1 (.acquired bea), .advance 0 (.delivery (.ok (true, none))),
      .advance 1 (.delivery (.ok (true, none)))]

/-- **A slow delivery speaks twice.** Two companions report a delivered reply to one event. -/
theorem slow_delivery_speaks_twice :
    (arbiterSystem fun _ _ => True).Reachable (ariTooSlow.foldl World.act {}) ∧
      (ariTooSlow.foldl World.act {}).reports.map (·.companionId) = [ari, bea] ∧
      ¬ OneSpeaker (ariTooSlow.foldl World.act {}) := by
  refine ⟨reachable_of_legal (by decide +kernel), by decide +kernel, fun h => ?_⟩
  exact absurd (h room hello) (by decide +kernel)

end Psfn.Arbiter
