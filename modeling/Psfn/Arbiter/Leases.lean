import Psfn.Arbiter.Store
import Psfn.Lib.Transition

/-!
# The speaking arbiter — the egress leases

A lease claims its event while it is held and after it has spoken. Acquiring grants only when
nothing claims the event, or after it has taken the claim of a lapsed lease away; completing
turns one claim into another or drops it; sweeping drops claims. So an event has at most one.

`LeaseEffect` and `CompletesLease` say once what an operation can do to the leases and to the
participants, and every fact below is a split on them.

* `egress_lease_safety` — one claim an event, tokens in the order of acquisition, stale
  completions without effect, and the speak counts, in every reachable state.
* `channel_repeats_token` — two events of one channel both start at token one.
-/

namespace Psfn.Arbiter

open Psfn.Lib

/-! ## What should hold -/

/-- The store, and any calls of it in any order. -/
def store : System Database where
  init := {}
  step db db' := ∃ op : StoreOp, db' = op.run db

/-- The lease spoke for this companion in this episode. -/
def LeaseRow.spokeFor (episodeId companionId : Uuid) (row : LeaseRow) : Bool :=
  row.episodeId = episodeId && row.companionId = companionId && row.status.speech

structure EgressLeaseSafety (db : Database) : Prop where
  oneLive : ∀ channelId triggerEventId nowMs, db.leases.countP (fun l =>
    l.ofEvent channelId triggerEventId && isEgressLeaseLive l nowMs) ≤ 1
  oneSpeech : ∀ channelId triggerEventId, db.leases.countP (fun l =>
    l.ofEvent channelId triggerEventId && l.status.speech) ≤ 1
  /-- For an event that has been spoken, an acquire gives back at most the lease it was granted
  before under the same id, and changes nothing. -/
  spent : ∀ input granted, ∀ spoken ∈ db.leases, spoken.status.speech = true →
    (acquireEgressLease input db).2 = .ok (.acquired granted) →
    granted.ofEvent spoken.channelId spoken.triggerEventId = true →
    granted ∈ db.leases ∧ granted.leaseId = input.leaseId ∧ (acquireEgressLease input db).1 = db
  tokens : ∀ channelId triggerEventId,
    ((db.leases.filter (·.ofEvent channelId triggerEventId)).map (·.fencingToken)).Pairwise (· < ·)
  stale : ∀ input, ∀ row ∈ db.leases, row.leaseId = input.leaseId →
    input.fencingToken ≠ .finite row.fencingToken ∨ row.status ≠ .held →
    (completeEgressLease input db).1 = db
  counts : ∀ p ∈ db.participation,
    p.speakCount = db.leases.countP (·.spokeFor p.episodeId p.companionId)

/-! ## The invariant -/

/-- The lease is held, or has spoken. -/
def LeaseRow.claims (row : LeaseRow) : Bool := row.held || row.status.speech

def LeaseRow.sameEvent (row other : LeaseRow) : Prop :=
  row.channelId = other.channelId ∧ row.triggerEventId = other.triggerEventId

structure LeasesSound (db : Database) : Prop where
  keyed   : Table.Keyed (·.leaseId) db.leases
  unique  : ∀ l ∈ db.leases, ∀ l' ∈ db.leases, l.sameEvent l' → l.claims = true →
    l'.claims = true → l.leaseId = l'.leaseId
  tokens  : db.leases.Pairwise fun l l' => l.sameEvent l' → l.fencingToken < l'.fencingToken
  counts  : ∀ p ∈ db.participation,
    p.speakCount = db.leases.countP (·.spokeFor p.episodeId p.companionId)
  counted : ∀ l ∈ db.leases, l.status.speech = true →
    ∃ p ∈ db.participation, p.episodeId = l.episodeId ∧ p.companionId = l.companionId

theorem LeasesSound.init : LeasesSound {} where
  keyed := Table.keyed_nil _
  unique := fun _ hl => absurd hl List.not_mem_nil
  tokens := List.Pairwise.nil
  counts := fun _ hp => absurd hp List.not_mem_nil
  counted := fun _ hl => absurd hl List.not_mem_nil

variable {channelId triggerEventId : Identifier} {row : LeaseRow}

theorem ofEvent_iff :
    row.ofEvent channelId triggerEventId = true ↔
      row.channelId = channelId ∧ row.triggerEventId = triggerEventId := by
  simp [LeaseRow.ofEvent]

theorem held_iff : row.held = true ↔ row.status = .held := by
  simp [LeaseRow.held]

theorem claims_iff :
    row.claims = true ↔ row.status = .held ∨ row.status.speech = true := by
  simp [LeaseRow.claims, held_iff]

/-! ## What an operation does to leases and participants -/

/-- Participants are kept; a new one has not spoken. -/
structure ParticipantsJoin (db db' : Database) : Prop where
  kept   : ∀ p ∈ db.participation, p ∈ db'.participation
  joined : ∀ p' ∈ db'.participation, p' ∈ db.participation ∨ p'.speakCount = 0 ∧
    ∀ p ∈ db.participation, ¬ (p.episodeId = p'.episodeId ∧ p.companionId = p'.companionId)

variable {db db' : Database}

theorem ParticipantsJoin.of_eq (h : db'.participation = db.participation) :
    ParticipantsJoin db db' where
  kept := fun _ hp => h ▸ hp
  joined := fun _ hp => .inl (h ▸ hp)

/-- The leases that are held and meet the condition become `status`. -/
def finalizeRows (cond : LeaseRow → Bool) (status : SpeakingEgressLeaseStatus)
    (reason : SpeakingArbiterReason) (nowMs : Nat) (leases : List LeaseRow) : List LeaseRow :=
  Table.update (fun l => l.held && cond l) (·.finalize status reason nowMs) leases

/-- What an operation other than a completion does. -/
inductive LeaseEffect (db db' : Database) : Prop
  | idle (hleases : db'.leases = db.leases) (hjoin : ParticipantsJoin db db')
  | expire (cond : LeaseRow → Bool) (nowMs : Nat)
      (hleases : db'.leases = finalizeRows cond .expired .expiry nowMs db.leases)
      (hparticipation : db'.participation = db.participation)
  | grant (cond : LeaseRow → Bool) (nowMs : Nat) (lease : LeaseRow)
      (hleases : db'.leases = finalizeRows cond .expired .expiry nowMs db.leases ++ [lease])
      (hparticipation : db'.participation = db.participation)
      (hheld : lease.status = .held)
      (hfresh : ∀ l ∈ db.leases, l.leaseId ≠ lease.leaseId)
      (hfree : ∀ l ∈ db.leases, l.sameEvent lease → l.claims = true →
        l.held = true ∧ cond l = true)
      (htoken : ∀ l ∈ db.leases, l.sameEvent lease → l.fencingToken < lease.fencingToken)

/-- What a completion that finds its lease held does. -/
structure CompletesLease (db db' : Database) (call : CompleteCall) (row : LeaseRow) : Prop where
  found         : row ∈ db.leases
  leaseId       : row.leaseId = call.leaseId
  held          : row.held = true
  token         : (row.fencingToken : Int) = call.fencingToken
  leases        : db'.leases = finalizeRows (fun l => l.leaseId = call.leaseId
    && (l.fencingToken : Int) = call.fencingToken) call.completion.status
    (speakingCompletionReason call.completion) call.nowMs db.leases
  participation : db'.participation =
    if speakingCompletionIsSpeech call.completion
    then (recordSpeech db row.episodeId row.companionId call.nowMs).participation
    else db.participation

-- Every transaction that fails leaves the database as it was.

theorem checked_cases {α β : Type} (input : Except String α)
    (body : α → Database → Except String (Database × β)) (db : Database) :
    (∃ message, checked input body db = (db, .error message)) ∨
      ∃ call db' b, input = .ok call ∧ body call db = .ok (db', b) ∧
        db'.constraints = true ∧ checked input body db = (db', .ok b) := by
  cases input with
  | error message => exact .inl ⟨message, rfl⟩
  | ok call =>
    rcases Table.transaction_cases Database.constraints (body call) db with
      hfailed | ⟨db', b, hbody, hconstraints, hresult⟩
    · exact .inl hfailed
    · exact .inr ⟨call, db', b, rfl, hbody, hconstraints, hresult⟩

/-- An operation has an effect that every way its body comes through has. -/
theorem checked_effect {α β : Type} {input : Except String α}
    {body : α → Database → Except String (Database × β)}
    (h : ∀ call db' b, body call db = .ok (db', b) → LeaseEffect db db') :
    LeaseEffect db (checked input body db).1 := by
  rcases checked_cases input body db with ⟨_, hfailed⟩ | ⟨call, db', b, _, hbody, _, hresult⟩
  · rw [hfailed]
    exact .idle rfl (.of_eq rfl)
  · rw [hresult]
    exact h call db' b hbody

/-! ## Episodes and reservations -/

@[simp] theorem ensureOpenEpisode_leases (db : Database) (channelId : Identifier) (nowMs : Nat)
    (uuid : Uuid) : (ensureOpenEpisode db channelId nowMs uuid).1.leases = db.leases := by
  unfold ensureOpenEpisode
  split <;> rfl

@[simp] theorem ensureOpenEpisode_participation (db : Database) (channelId : Identifier)
    (nowMs : Nat) (uuid : Uuid) :
    (ensureOpenEpisode db channelId nowMs uuid).1.participation = db.participation := by
  unfold ensureOpenEpisode
  split <;> rfl

@[simp] theorem updateEpisode_leases (episodeId : Uuid) (set : EpisodeRow → EpisodeRow)
    (db : Database) : (updateEpisode episodeId set db).leases = db.leases := rfl

@[simp] theorem updateEpisode_participation (episodeId : Uuid) (set : EpisodeRow → EpisodeRow)
    (db : Database) : (updateEpisode episodeId set db).participation = db.participation := rfl

@[simp] theorem finalizeReservations_leases (cond : ReservationRow → Bool)
    (status : SpeakingReservationStatus) (reason : SpeakingArbiterReason) (nowMs : Nat)
    (db : Database) : (finalizeReservations cond status reason nowMs db).leases = db.leases := rfl

@[simp] theorem finalizeReservations_participation (cond : ReservationRow → Bool)
    (status : SpeakingReservationStatus) (reason : SpeakingArbiterReason) (nowMs : Nat)
    (db : Database) :
    (finalizeReservations cond status reason nowMs db).participation = db.participation := rfl

@[simp] theorem ensureParticipant_leases (db : Database) (episodeId companionId : Uuid) :
    (ensureParticipant db episodeId companionId).leases = db.leases := by
  unfold ensureParticipant
  split <;> rfl

theorem ensureParticipant_join (db : Database) (episodeId companionId : Uuid) :
    ParticipantsJoin db (ensureParticipant db episodeId companionId) := by
  unfold ensureParticipant
  split
  · exact .of_eq rfl
  · rename_i hnone
    refine ⟨fun p hp => List.mem_append_left _ hp, fun p' hp' => ?_⟩
    rcases List.mem_append.1 hp' with hold | hnew
    · exact .inl hold
    · refine .inr ?_
      rw [List.mem_singleton.1 hnew]
      refine ⟨rfl, fun p hp hpair => hnone (List.any_eq_true.2 ⟨p, hp, ?_⟩)⟩
      simp [hpair.1, hpair.2]

theorem enterEpisode_leases (call : ReserveCall) (db : Database) :
    (enterEpisode call db).1.leases = db.leases := by
  unfold enterEpisode
  dsimp only
  split <;> simp

theorem enterEpisode_join (call : ReserveCall) (db : Database) :
    ParticipantsJoin db (enterEpisode call db).1 := by
  have hbefore : ∀ mid : Database, mid.participation = db.participation →
      ∀ episodeId, ParticipantsJoin db (ensureParticipant mid episodeId call.companionId) := by
    intro mid hmid episodeId
    have hjoin := ensureParticipant_join mid episodeId call.companionId
    exact ⟨fun p hp => hjoin.kept p (hmid ▸ hp), fun p' hp' => hmid ▸ hjoin.joined p' hp'⟩
  unfold enterEpisode
  dsimp only
  split
  · exact hbefore _ (by simp) _
  · exact hbefore _ (by simp) _

theorem reserveBody_effect {call : ReserveCall} {result : ReserveResult}
    (h : reserveBody call db = .ok (db', result)) : LeaseEffect db db' := by
  have hleases := enterEpisode_leases call db
  have hjoin := enterEpisode_join call db
  unfold reserveBody at h
  dsimp only at h
  split at h
  · obtain ⟨_, _, hresult⟩ := bind_eq_ok.1 h
    simp only [pure, Except.pure, Except.ok.injEq, Prod.mk.injEq] at hresult
    rw [← hresult.1]
    exact .idle hleases ⟨hjoin.kept, hjoin.joined⟩
  · obtain ⟨_, _, hresult⟩ := bind_eq_ok.1 h
    simp only [pure, Except.pure, Except.ok.injEq, Prod.mk.injEq] at hresult
    rw [← hresult.1]
    exact .idle hleases hjoin

variable {nowMs : Nat}

theorem releaseReservationBody_effect {input : ReleaseReservationInput} {row : ReservationRow}
    (h : releaseReservationBody input nowMs db = .ok (db', row)) : LeaseEffect db db' := by
  unfold releaseReservationBody at h
  split at h
  · cases h
  · split at h
    · cases h
    · split at h
      · split at h
        · cases h
          exact .idle rfl (.of_eq rfl)
        · cases h
      · cases h
        exact .idle rfl (.of_eq rfl)

theorem ensureRoomEpisodeBody_effect {call : EpisodeCall} {snapshot : RoomEpisodeSnapshot}
    (h : ensureRoomEpisodeBody call db = .ok (db', snapshot)) :
    LeaseEffect db db' := by
  obtain ⟨_, _, hresult⟩ := bind_eq_ok.1 h
  simp only [pure, Except.pure, Except.ok.injEq, Prod.mk.injEq] at hresult
  rw [← hresult.1]
  exact .idle (by simp) (.of_eq (by simp))

theorem recordHumanActivityBody_effect {call : EpisodeCall} {snapshot : RoomEpisodeSnapshot}
    (h : recordHumanActivityBody call db = .ok (db', snapshot)) :
    LeaseEffect db db' := by
  obtain ⟨_, _, hresult⟩ := bind_eq_ok.1 h
  simp only [pure, Except.pure, Except.ok.injEq, Prod.mk.injEq] at hresult
  rw [← hresult.1]
  exact .idle (by simp) (.of_eq (by simp))

theorem closeRoomEpisodeBody_effect {call : EpisodeCall} {snapshot : Option RoomEpisodeSnapshot}
    (h : closeRoomEpisodeBody call db = .ok (db', snapshot)) : LeaseEffect db db' := by
  unfold closeRoomEpisodeBody at h
  split at h
  · cases h
    exact .idle rfl (.of_eq rfl)
  · obtain ⟨_, _, hresult⟩ := bind_eq_ok.1 h
    simp only [pure, Except.pure, Except.ok.injEq, Prod.mk.injEq] at hresult
    rw [← hresult.1]
    exact .idle (by simp) (.of_eq (by simp))

/-! ## Acquiring -/

/-- A grant: what was checked, and the database with the claim of a lapsed lease taken away. -/
structure Promotes (call : AcquireCall) (db : Database) (reservation : ReservationRow)
    (base : Database) : Prop where
  fresh    : db.leases.find? (·.leaseId = call.leaseId) = none
  found    : db.reservations.find? (·.reservationId = call.reservationId) = some reservation
  channel  : reservation.channelId = call.channelId
  unspent  : spentLease db call.channelId reservation.triggerEventId = none
  reserved : reservation.status = .reserved
  lasting  : call.nowMs < reservation.expiresAtMs
  free     : heldLease db call.channelId reservation.triggerEventId = none ∧ base = db ∨
    ∃ heldRow, heldLease db call.channelId reservation.triggerEventId = some heldRow ∧
      isEgressLeaseLive heldRow call.nowMs = false ∧
      base = finalizeLeases (·.leaseId = heldRow.leaseId) .expired .expiry call.nowMs db

variable {call : AcquireCall}

/-- An acquire that comes through is a replay, a decline or a grant. -/
theorem acquireEgressLeaseBody_cases {result : AcquireEgressLeaseResult}
    (h : acquireEgressLeaseBody call db = .ok (db', result)) :
    (db' = db ∧ ∃ row ∈ db.leases, row.leaseId = call.leaseId ∧ result = .acquired row) ∨
    (db' = db ∧ ∃ heldBy reason, result = .declined heldBy reason) ∨
    ∃ reservation base, Promotes call db reservation base ∧
      (db', result) = grantLease call reservation base := by
  unfold acquireEgressLeaseBody at h
  split at h
  · rename_i row hfind
    split at h
    · cases h
    · cases h
      refine .inl ⟨rfl, row, List.mem_of_find?_eq_some hfind, ?_, rfl⟩
      simpa using List.find?_some hfind
  · rename_i hfresh
    split at h
    · cases h
    · rename_i reservation hfound
      split at h
      · cases h
      · rename_i hchannel
        split at h
        · cases h
          exact .inr (.inl ⟨rfl, _, _, rfl⟩)
        · rename_i hunspent
          unfold promoteReservation at h
          split at h
          · cases h
          · rename_i hreserved
            split at h
            · cases h
            · rename_i hlasting
              have hchecks : ∀ base, (heldLease db call.channelId reservation.triggerEventId = none
                    ∧ base = db ∨
                  ∃ heldRow, heldLease db call.channelId reservation.triggerEventId = some heldRow ∧
                    isEgressLeaseLive heldRow call.nowMs = false ∧ base = finalizeLeases
                      (·.leaseId = heldRow.leaseId) .expired .expiry call.nowMs db) →
                  Promotes call db reservation base := fun base hfree =>
                { fresh := hfresh, found := hfound, channel := not_not.1 hchannel
                  unspent := hunspent, reserved := not_not.1 hreserved
                  lasting := Nat.lt_of_not_le hlasting, free := hfree }
              split at h
              · rename_i hheld
                cases h
                exact .inr (.inr ⟨reservation, db, hchecks db (.inl ⟨hheld, rfl⟩), rfl⟩)
              · rename_i heldRow hheld
                split at h
                · cases h
                  exact .inr (.inl ⟨rfl, _, _, rfl⟩)
                · rename_i hlapsed
                  cases h
                  refine .inr (.inr ⟨reservation, _, hchecks _ (.inr ⟨heldRow, hheld, ?_, rfl⟩), rfl⟩)
                  exact Bool.eq_false_iff.2 hlapsed

variable {status : SpeakingEgressLeaseStatus} {reason : SpeakingArbiterReason}
  {leases : List LeaseRow} {l' : LeaseRow}

theorem mem_finalizeRows {cond : LeaseRow → Bool} :
    l' ∈ finalizeRows cond status reason nowMs leases ↔
      ∃ l ∈ leases, (l.held = true ∧ cond l = true ∧ l' = l.finalize status reason nowMs) ∨
        ((l.held = true → cond l = false) ∧ l' = l) := by
  rw [finalizeRows, Table.mem_update]
  refine exists_congr fun l => and_congr_right fun _ => ?_
  cases hheld : l.held <;> simp

variable {l : LeaseRow}

theorem lt_nextFencingToken (hl : l ∈ db.leases)
    (hevent : l.ofEvent channelId triggerEventId = true) :
    l.fencingToken < nextFencingToken db channelId triggerEventId :=
  Nat.lt_succ_of_le (List.le_max_of_le
    (List.mem_map_of_mem (List.mem_filter.2 ⟨hl, hevent⟩)) (le_refl _))

theorem spentLease_eq_none (h : spentLease db channelId triggerEventId = none) (hl : l ∈ db.leases)
    (hevent : l.ofEvent channelId triggerEventId = true) : l.status.speech = false := by
  rw [spentLease, List.argmax_eq_none, List.filter_eq_nil_iff] at h
  simpa [hevent] using h l hl

theorem heldLease_eq_none (h : heldLease db channelId triggerEventId = none) (hl : l ∈ db.leases)
    (hevent : l.ofEvent channelId triggerEventId = true) : l.held = false := by
  rw [heldLease, List.find?_eq_none] at h
  simpa [hevent] using h l hl

theorem heldLease_eq_some (h : heldLease db channelId triggerEventId = some row) :
    row ∈ db.leases ∧ row.ofEvent channelId triggerEventId = true ∧ row.held = true := by
  have hfound := List.find?_some h
  rw [Bool.and_eq_true] at hfound
  exact ⟨List.mem_of_find?_eq_some h, hfound⟩

/-- The rows a grant starts from: at most the lapsed holder has changed. -/
theorem Promotes.base_leases {base : Database} {reservation : ReservationRow}
    (h : Promotes call db reservation base) (hsound : LeasesSound db) :
    ∃ cond, base.leases = finalizeRows cond .expired .expiry call.nowMs db.leases ∧
      base.participation = db.participation ∧
      ∀ l ∈ db.leases, l.ofEvent call.channelId reservation.triggerEventId = true →
        l.held = true → cond l = true := by
  rcases h.free with ⟨hnone, rfl⟩ | ⟨heldRow, hheld, _, rfl⟩
  · refine ⟨fun _ => false, ?_, rfl, ?_⟩
    · exact (Table.update_eq_self fun _ _ => by simp).symm
    · intro l hl hevent hheld
      rw [heldLease_eq_none hnone hl hevent] at hheld
      cases hheld
  · refine ⟨fun l => l.leaseId = heldRow.leaseId, rfl, rfl, ?_⟩
    intro l hl hevent hlheld
    obtain ⟨hrow, hrowEvent, hrowHeld⟩ := heldLease_eq_some hheld
    rw [ofEvent_iff] at hevent hrowEvent
    have hsame : l.sameEvent heldRow :=
      ⟨hevent.1.trans hrowEvent.1.symm, hevent.2.trans hrowEvent.2.symm⟩
    have hid := hsound.unique l hl heldRow hrow hsame
      (claims_iff.2 (.inl (held_iff.1 hlheld))) (claims_iff.2 (.inl (held_iff.1 hrowHeld)))
    exact decide_eq_true hid

theorem Promotes.effect {base : Database} {reservation : ReservationRow}
    (h : Promotes call db reservation base) (hsound : LeasesSound db) :
    LeaseEffect db (grantLease call reservation base).1 := by
  obtain ⟨cond, hleases, hparticipation, hcond⟩ := h.base_leases hsound
  refine .grant cond call.nowMs (newLease call reservation base) ?_ hparticipation rfl ?_ ?_ ?_
  · show base.leases ++ [_] = _
    rw [hleases]
  · intro l hl hid
    have hnone := List.find?_eq_none.1 h.fresh l hl
    exact hnone (decide_eq_true hid)
  · intro l hl hsame hclaims
    have hevent : l.ofEvent call.channelId reservation.triggerEventId = true :=
      ofEvent_iff.2 hsame
    rcases claims_iff.1 hclaims with hheld | hspeech
    · exact ⟨held_iff.2 hheld, hcond l hl hevent (held_iff.2 hheld)⟩
    · rw [spentLease_eq_none h.unspent hl hevent] at hspeech
      cases hspeech
  · -- the token is above those of the rows as they are after the reclaim
    intro l hl hsame
    have hevent : l.ofEvent call.channelId reservation.triggerEventId = true :=
      ofEvent_iff.2 hsame
    have hbase : ∃ l' ∈ base.leases, l'.ofEvent call.channelId reservation.triggerEventId = true ∧
        l'.fencingToken = l.fencingToken := by
      by_cases hexpired : l.held = true ∧ cond l = true
      · refine ⟨l.finalize .expired .expiry call.nowMs, ?_, hevent, rfl⟩
        rw [hleases]
        exact mem_finalizeRows.2 ⟨l, hl, .inl ⟨hexpired.1, hexpired.2, rfl⟩⟩
      · refine ⟨l, ?_, hevent, rfl⟩
        rw [hleases]
        refine mem_finalizeRows.2 ⟨l, hl, .inr ⟨fun hheld => ?_, rfl⟩⟩
        exact Bool.eq_false_iff.2 fun hcond' => hexpired ⟨hheld, hcond'⟩
    obtain ⟨l', hl', hevent', htoken⟩ := hbase
    rw [← htoken]
    exact lt_nextFencingToken hl' hevent'

theorem acquireEgressLeaseBody_effect {result : AcquireEgressLeaseResult} (hsound : LeasesSound db)
    (h : acquireEgressLeaseBody call db = .ok (db', result)) : LeaseEffect db db' := by
  rcases acquireEgressLeaseBody_cases h with
    ⟨rfl, _⟩ | ⟨rfl, _⟩ | ⟨reservation, base, hpromotes, hgrant⟩
  · exact .idle rfl (.of_eq rfl)
  · exact .idle rfl (.of_eq rfl)
  · have heffect := hpromotes.effect hsound
    rw [← hgrant] at heffect
    exact heffect

/-! ## Completing and sweeping -/

theorem recordSpeech_leases (db : Database) (episodeId companionId : Uuid) (nowMs : Nat) :
    (recordSpeech db episodeId companionId nowMs).leases = db.leases := by
  unfold recordSpeech
  split <;> rfl

/-- Counting a speaker reads the participants only. -/
theorem recordSpeech_participation (h : db'.participation = db.participation)
    (episodeId companionId : Uuid) (nowMs : Nat) :
    (recordSpeech db' episodeId companionId nowMs).participation =
      (recordSpeech db episodeId companionId nowMs).participation := by
  simp only [recordSpeech, h]
  split <;> rfl

/-- A completion that comes through is a replay, or it finds its lease held. -/
theorem completeEgressLeaseBody_cases {call : CompleteCall} {updated : LeaseRow}
    (h : completeEgressLeaseBody call db = .ok (db', updated)) :
    db' = db ∨ ∃ row, CompletesLease db db' call row := by
  unfold completeEgressLeaseBody at h
  dsimp only at h
  split at h
  · cases h
  · rename_i row hfind
    split at h
    · cases h
    · split at h
      · cases h
      · rename_i htoken
        split at h
        · split at h
          · cases h
            exact .inl rfl
          · cases h
        · rename_i hstatus
          have hid : row.leaseId = call.leaseId := by simpa using List.find?_some hfind
          cases h
          refine .inr ⟨row, List.mem_of_find?_eq_some hfind, hid, ?_, not_not.1 htoken, ?_, ?_⟩
          · exact held_iff.2 (not_not.1 hstatus)
          · split
            · exact recordSpeech_leases _ _ _ _
            · rfl
          · split
            · show (recordSpeech _ row.episodeId row.companionId call.nowMs).participation = _
              rw [recordSpeech_participation (_ : _ = db.participation)]
              rfl
            · rfl

theorem completeEgressLease_cases (input : CompleteEgressLeaseInput) (db : Database) :
    (completeEgressLease input db).1 = db ∨
      ∃ call row, completeCall input = .ok call ∧
        CompletesLease db (completeEgressLease input db).1 call row := by
  rcases checked_cases (completeCall input) completeEgressLeaseBody db with
    ⟨_, hfailed⟩ | ⟨call, db', updated, hcall, hbody, _, hdone⟩
  · rw [completeEgressLease, hfailed]
    exact .inl rfl
  · rw [completeEgressLease, hdone]
    rcases completeEgressLeaseBody_cases hbody with hsame | ⟨row, hcompletes⟩
    · exact .inl hsame
    · exact .inr ⟨call, row, hcall, hcompletes⟩

theorem StoreOp.run_effect (op : StoreOp) (hop : ∀ input, op ≠ .completeEgressLease input)
    (hsound : LeasesSound db) : LeaseEffect db (op.run db) := by
  cases op with
  | ensureRoomEpisode channelId nowMs uuid =>
    exact checked_effect fun _ _ _ h => ensureRoomEpisodeBody_effect h
  | recordHumanActivity channelId nowMs uuid =>
    exact checked_effect fun _ _ _ h => recordHumanActivityBody_effect h
  | closeRoomEpisode channelId nowMs uuid =>
    exact checked_effect fun _ _ _ h => closeRoomEpisodeBody_effect h
  | persistRoomEpisodeBreakerState channelId state nowMs =>
    refine checked_effect fun call db' b h => ?_
    cases h
    exact .idle rfl (.of_eq rfl)
  | reserve input => exact checked_effect fun _ _ _ h => reserveBody_effect h
  | releaseReservation input => exact checked_effect fun _ _ _ h => releaseReservationBody_effect h
  | acquireEgressLease input =>
    exact checked_effect fun _ _ _ h => acquireEgressLeaseBody_effect hsound h
  | completeEgressLease input => exact absurd rfl (hop input)
  | sweepExpired channelId nowMs =>
    refine checked_effect fun call db' b h => ?_
    cases h
    exact .expire _ call rfl rfl

/-! ## Keeping the invariant -/

@[simp] theorem finalize_leaseId (l : LeaseRow) (status : SpeakingEgressLeaseStatus)
    (reason : SpeakingArbiterReason) (nowMs : Nat) :
    (l.finalize status reason nowMs).leaseId = l.leaseId := rfl

/-- After a finalization every row is a row before with the same id and event, and claims only
what that row claimed. -/
theorem finalizeRows_origin {cond : LeaseRow → Bool}
    (h : l' ∈ finalizeRows cond status reason nowMs leases) :
    ∃ l ∈ leases, l'.leaseId = l.leaseId ∧ l'.sameEvent l ∧
      (l'.claims = true → l.claims = true) ∧
      (l'.claims = true → l.held = true → cond l = true → status.speech = true ∨ status = .held) := by
  obtain ⟨l, hl, ⟨hheld, hcond, rfl⟩ | ⟨hnot, rfl⟩⟩ := mem_finalizeRows.1 h
  · refine ⟨l, hl, rfl, ⟨rfl, rfl⟩, fun _ => claims_iff.2 (.inl (held_iff.1 hheld)), ?_⟩
    intro hclaims _ _
    exact (claims_iff.1 hclaims).symm
  · refine ⟨l', hl, rfl, ⟨rfl, rfl⟩, id, fun _ hheld hcond => ?_⟩
    rw [hnot hheld] at hcond
    cases hcond

theorem LeasesSound.unique_finalize (h : LeasesSound db) (cond : LeaseRow → Bool)
    (status : SpeakingEgressLeaseStatus) (reason : SpeakingArbiterReason) (nowMs : Nat) :
    ∀ l ∈ finalizeRows cond status reason nowMs db.leases,
      ∀ l' ∈ finalizeRows cond status reason nowMs db.leases, l.sameEvent l' →
        l.claims = true → l'.claims = true → l.leaseId = l'.leaseId := by
  intro l hl l' hl' hsame hclaims hclaims'
  obtain ⟨o, ho, hid, hevent, hclaim, _⟩ := finalizeRows_origin hl
  obtain ⟨o', ho', hid', hevent', hclaim', _⟩ := finalizeRows_origin hl'
  have horigins : o.sameEvent o' :=
    ⟨hevent.1.symm.trans (hsame.1.trans hevent'.1), hevent.2.symm.trans (hsame.2.trans hevent'.2)⟩
  rw [hid, hid']
  exact h.unique o ho o' ho' horigins (hclaim hclaims) (hclaim' hclaims')

theorem LeasesSound.keyed_finalize (h : LeasesSound db) (cond : LeaseRow → Bool)
    (status : SpeakingEgressLeaseStatus) (reason : SpeakingArbiterReason) (nowMs : Nat) :
    Table.Keyed (·.leaseId) (finalizeRows cond status reason nowMs db.leases) :=
  h.keyed.update fun _ => rfl

theorem LeasesSound.tokens_finalize (h : LeasesSound db) (cond : LeaseRow → Bool)
    (status : SpeakingEgressLeaseStatus) (reason : SpeakingArbiterReason) (nowMs : Nat) :
    (finalizeRows cond status reason nowMs db.leases).Pairwise fun l l' =>
      l.sameEvent l' → l.fencingToken < l'.fencingToken := by
  refine List.pairwise_map.2 (h.tokens.imp fun {l l'} hlt hsame => ?_)
  -- an update changes neither the event nor the token of a row
  have hkeep : ∀ o : LeaseRow, ∀ o', o' = (if (o.held && cond o) = true
      then o.finalize status reason nowMs else o) →
      o'.channelId = o.channelId ∧ o'.triggerEventId = o.triggerEventId ∧
        o'.fencingToken = o.fencingToken := by
    intro o o' ho'
    rw [ho']
    split
    · exact ⟨rfl, rfl, rfl⟩
    · exact ⟨rfl, rfl, rfl⟩
  obtain ⟨hchannel, hevent, htoken⟩ := hkeep l _ rfl
  obtain ⟨hchannel', hevent', htoken'⟩ := hkeep l' _ rfl
  rw [htoken, htoken']
  exact hlt ⟨hchannel.symm.trans (hsame.1.trans hchannel'),
    hevent.symm.trans (hsame.2.trans hevent')⟩

/-- A finalization to a status that is no speech leaves the counts alone. -/
theorem countP_spokeFor_finalize (cond : LeaseRow → Bool) (hstatus : status.speech = false)
    (reason : SpeakingArbiterReason) (nowMs : Nat) (leases : List LeaseRow)
    (episodeId companionId : Uuid) :
    (finalizeRows cond status reason nowMs leases).countP (·.spokeFor episodeId companionId) =
      leases.countP (·.spokeFor episodeId companionId) := by
  refine Table.countP_update fun l _ hcond => ?_
  have hheld : l.status = .held := held_iff.1 (Bool.and_eq_true _ _ ▸ hcond).1
  have hbefore : l.status.speech = false := by rw [hheld]; rfl
  have hafter : (l.finalize status reason nowMs).status.speech = false := hstatus
  simp [LeaseRow.spokeFor, hbefore, hafter]

theorem speech_of_mem_finalizeRows {cond : LeaseRow → Bool} (hstatus : status.speech = false)
    (h : l' ∈ finalizeRows cond status reason nowMs leases) (hspeech : l'.status.speech = true) :
    l' ∈ leases := by
  obtain ⟨l, hl, ⟨_, _, rfl⟩ | ⟨_, rfl⟩⟩ := mem_finalizeRows.1 h
  · have hafter : (l.finalize status reason nowMs).status.speech = false := hstatus
    rw [hafter] at hspeech
    cases hspeech
  · exact hl

theorem LeasesSound.idle (h : LeasesSound db) (hleases : db'.leases = db.leases)
    (hjoin : ParticipantsJoin db db') : LeasesSound db' where
  keyed := by rw [hleases]; exact h.keyed
  unique := by rw [hleases]; exact h.unique
  tokens := by rw [hleases]; exact h.tokens
  counts := by
    intro p' hp'
    rw [hleases]
    rcases hjoin.joined p' hp' with hold | ⟨hzero, hnone⟩
    · exact h.counts p' hold
    · -- a lease that spoke for a new participant would have been counted
      rw [hzero, eq_comm, List.countP_eq_zero]
      intro l hl hspoke
      simp only [LeaseRow.spokeFor, Bool.and_eq_true, decide_eq_true_eq] at hspoke
      obtain ⟨p, hp, hepisode, hcompanion⟩ := h.counted l hl hspoke.2
      exact hnone p hp ⟨hepisode.trans hspoke.1.1, hcompanion.trans hspoke.1.2⟩
  counted := by
    intro l hl hspeech
    obtain ⟨p, hp, hpair⟩ := h.counted l (hleases ▸ hl) hspeech
    exact ⟨p, hjoin.kept p hp, hpair⟩

theorem LeasesSound.expire (h : LeasesSound db) {cond : LeaseRow → Bool}
    (hleases : db'.leases = finalizeRows cond .expired .expiry nowMs db.leases)
    (hparticipation : db'.participation = db.participation) : LeasesSound db' where
  keyed := by rw [hleases]; exact h.keyed_finalize _ _ _ _
  unique := by rw [hleases]; exact h.unique_finalize _ _ _ _
  tokens := by rw [hleases]; exact h.tokens_finalize _ _ _ _
  counts := by
    intro p hp
    rw [hleases, countP_spokeFor_finalize cond rfl]
    exact h.counts p (hparticipation ▸ hp)
  counted := by
    intro l hl hspeech
    rw [hleases] at hl
    rw [hparticipation]
    exact h.counted l (speech_of_mem_finalizeRows rfl hl hspeech) hspeech

/-- A lease whose event nothing claims any more. -/
theorem LeasesSound.append {db : Database} (h : LeasesSound db) {db' : Database} {lease : LeaseRow}
    (hleases : db'.leases = db.leases ++ [lease])
    (hparticipation : db'.participation = db.participation) (hheld : lease.status = .held)
    (hfresh : ∀ l ∈ db.leases, l.leaseId ≠ lease.leaseId)
    (hfree : ∀ l ∈ db.leases, l.sameEvent lease → l.claims = false)
    (htoken : ∀ l ∈ db.leases, l.sameEvent lease → l.fencingToken < lease.fencingToken) :
    LeasesSound db' where
  keyed := by rw [hleases]; exact h.keyed.insert hfresh
  unique := by
    rw [hleases]
    intro l hl l' hl' hsame hclaims hclaims'
    rw [List.mem_append, List.mem_singleton] at hl hl'
    rcases hl with hl | rfl <;> rcases hl' with hl' | rfl
    · exact h.unique l hl l' hl' hsame hclaims hclaims'
    · rw [hfree l hl hsame] at hclaims
      cases hclaims
    · rw [hfree l' hl' ⟨hsame.1.symm, hsame.2.symm⟩] at hclaims'
      cases hclaims'
    · rfl
  tokens := by
    rw [hleases]
    refine List.pairwise_append.2 ⟨h.tokens, List.pairwise_singleton _ _, ?_⟩
    intro l hl l' hl' hsame
    rw [List.mem_singleton.1 hl'] at hsame ⊢
    exact htoken l hl hsame
  counts := by
    intro p hp
    have hnew : lease.spokeFor p.episodeId p.companionId = false := by
      simp [LeaseRow.spokeFor, hheld, SpeakingEgressLeaseStatus.speech]
    rw [hleases, List.countP_append, List.countP_singleton, hnew]
    exact h.counts p (hparticipation ▸ hp)
  counted := by
    intro l hl hspeech
    rw [hleases, List.mem_append, List.mem_singleton] at hl
    rw [hparticipation]
    rcases hl with hl | rfl
    · exact h.counted l hl hspeech
    · rw [hheld] at hspeech
      cases hspeech

theorem LeasesSound.grant (h : LeasesSound db) {cond : LeaseRow → Bool} {lease : LeaseRow}
    (hleases : db'.leases = finalizeRows cond .expired .expiry nowMs db.leases ++ [lease])
    (hparticipation : db'.participation = db.participation) (hheld : lease.status = .held)
    (hfresh : ∀ l ∈ db.leases, l.leaseId ≠ lease.leaseId)
    (hfree : ∀ l ∈ db.leases, l.sameEvent lease → l.claims = true → l.held = true ∧ cond l = true)
    (htoken : ∀ l ∈ db.leases, l.sameEvent lease → l.fencingToken < lease.fencingToken) :
    LeasesSound db' := by
  -- first the lapsed claim is taken away, then the lease is added
  let mid : Database :=
    { db with leases := finalizeRows cond .expired .expiry nowMs db.leases }
  have hmid : LeasesSound mid := h.expire rfl rfl
  refine hmid.append hleases hparticipation hheld ?_ ?_ ?_
  · intro l' hl'
    obtain ⟨l, hl, hid, _⟩ := finalizeRows_origin hl'
    rw [hid]
    exact hfresh l hl
  · intro l' hl' hsame
    obtain ⟨l, hl, _, hevent, hclaim, hnot⟩ := finalizeRows_origin hl'
    rw [Bool.eq_false_iff]
    intro hclaims
    have hsame' : l.sameEvent lease :=
      ⟨hevent.1.symm.trans hsame.1, hevent.2.symm.trans hsame.2⟩
    obtain ⟨hlheld, hcond⟩ := hfree l hl hsame' (hclaim hclaims)
    rcases hnot hclaims hlheld hcond with hspeech | hexpired
    · cases hspeech
    · cases hexpired
  · intro l' hl' hsame
    obtain ⟨l, hl, ⟨_, _, rfl⟩ | ⟨_, rfl⟩⟩ := mem_finalizeRows.1 hl'
    · exact htoken l hl hsame
    · exact htoken l' hl hsame

/-! ## A completion counts its speaker -/

theorem speech_status {completion : SpeakingEgressLeaseCompletion} :
    completion.status.speech = speakingCompletionIsSpeech completion := by
  cases completion <;> rfl

/-- The row a completion changes is the row it found. -/
theorem LeasesSound.completed_row (h : LeasesSound db) {call : CompleteCall}
    (hcompletes : CompletesLease db db' call row) (hl : l ∈ db.leases)
    (hcond : (l.held && (l.leaseId = call.leaseId && (l.fencingToken : Int) =
      call.fencingToken : Bool)) = true) :
    l = row := by
  simp only [Bool.and_eq_true, decide_eq_true_eq] at hcond
  exact h.keyed.unique hl hcompletes.found (hcond.2.1.trans hcompletes.leaseId.symm)

theorem LeasesSound.countP_complete (h : LeasesSound db) {call : CompleteCall}
    (hcompletes : CompletesLease db db' call row) (hspeech : call.completion.status.speech = true)
    (episodeId companionId : Uuid) :
    db'.leases.countP (·.spokeFor episodeId companionId) =
      db.leases.countP (·.spokeFor episodeId companionId) +
        (if row.episodeId = episodeId ∧ row.companionId = companionId then 1 else 0) := by
  have hbefore : row.status.speech = false := by rw [held_iff.1 hcompletes.held]; rfl
  have hafter : ∀ reason nowMs,
      (row.finalize call.completion.status reason nowMs).status.speech = true :=
    fun _ _ => hspeech
  rw [hcompletes.leases]
  split
  · rename_i hpair
    refine h.keyed.countP_update_succ hcompletes.found ?_ ?_ ?_
    · intro other hother
      constructor
      · intro hcond
        rw [h.completed_row hcompletes hother hcond]
      · intro hid
        rw [h.keyed.unique hother hcompletes.found hid]
        simp [hcompletes.held, hcompletes.token, hcompletes.leaseId]
    · simp [LeaseRow.spokeFor, hbefore]
    · simp only [LeaseRow.spokeFor, hafter]
      simp [LeaseRow.finalize, hpair.1, hpair.2]
  · rename_i hpair
    refine Table.countP_update fun l hl hcond => ?_
    rw [h.completed_row hcompletes hl hcond]
    have hother : (decide (row.episodeId = episodeId) && decide (row.companionId = companionId)) =
        false := by
      simpa using hpair
    show (decide (row.episodeId = episodeId) && decide (row.companionId = companionId)
        && call.completion.status.speech) =
      (decide (row.episodeId = episodeId) && decide (row.companionId = companionId)
        && row.status.speech)
    rw [hother, Bool.false_and, Bool.false_and]

/-- The participants after a speaker has been counted. -/
theorem mem_recordSpeech {episodeId companionId : Uuid} {p' : ParticipationRow}
    (h : p' ∈ (recordSpeech db episodeId companionId nowMs).participation) :
    (∃ p ∈ db.participation, p'.episodeId = p.episodeId ∧ p'.companionId = p.companionId ∧
        p'.speakCount =
          p.speakCount + (if episodeId = p.episodeId ∧ companionId = p.companionId then 1 else 0)) ∨
      (∀ p ∈ db.participation, ¬ (p.episodeId = episodeId ∧ p.companionId = companionId)) ∧
        p'.episodeId = episodeId ∧ p'.companionId = companionId ∧ p'.speakCount = 1 := by
  unfold recordSpeech at h
  split at h
  · obtain ⟨p, hp, ⟨hcond, rfl⟩ | ⟨hcond, rfl⟩⟩ := Table.mem_update.1 h
    · simp only [Bool.and_eq_true, decide_eq_true_eq] at hcond
      exact .inl ⟨p, hp, rfl, rfl, by simp [hcond.1, hcond.2]⟩
    · refine .inl ⟨p', hp, rfl, rfl, ?_⟩
      rw [if_neg]
      · rfl
      · rintro ⟨hepisode, hcompanion⟩
        simp [hepisode, hcompanion] at hcond
  · rename_i hnone
    have habsent : ∀ p ∈ db.participation,
        ¬ (p.episodeId = episodeId ∧ p.companionId = companionId) := fun p hp hpair =>
      hnone (List.any_eq_true.2 ⟨p, hp, by simp [hpair.1, hpair.2]⟩)
    rcases List.mem_append.1 h with hold | hnew
    · refine .inl ⟨p', hold, rfl, rfl, ?_⟩
      rw [if_neg fun hpair => habsent p' hold ⟨hpair.1.symm, hpair.2.symm⟩]
      rfl
    · rw [List.mem_singleton.1 hnew]
      exact .inr ⟨habsent, rfl, rfl, rfl⟩

/-- Every participant stays one, and so does the speaker. -/
theorem recordSpeech_kept (db : Database) (episodeId companionId : Uuid) (nowMs : Nat) :
    (∀ p ∈ db.participation, ∃ p' ∈ (recordSpeech db episodeId companionId nowMs).participation,
      p'.episodeId = p.episodeId ∧ p'.companionId = p.companionId) ∧
    ∃ p' ∈ (recordSpeech db episodeId companionId nowMs).participation,
      p'.episodeId = episodeId ∧ p'.companionId = companionId := by
  unfold recordSpeech
  split
  · rename_i hany
    have hkept : ∀ p ∈ db.participation, ∃ p' ∈ Table.update
        (fun p => decide (p.episodeId = episodeId) && decide (p.companionId = companionId))
        (fun p => { p with speakCount := p.speakCount + 1, lastSpokeAtMs := some nowMs })
        db.participation, p'.episodeId = p.episodeId ∧ p'.companionId = p.companionId := by
      intro p hp
      refine ⟨_, List.mem_map_of_mem hp, ?_⟩
      split
      · exact ⟨rfl, rfl⟩
      · exact ⟨rfl, rfl⟩
    refine ⟨hkept, ?_⟩
    obtain ⟨p, hp, hpair⟩ := List.any_eq_true.1 hany
    simp only [Bool.and_eq_true, decide_eq_true_eq] at hpair
    obtain ⟨p', hp', hepisode, hcompanion⟩ := hkept p hp
    exact ⟨p', hp', hepisode.trans hpair.1, hcompanion.trans hpair.2⟩
  · exact ⟨fun p hp => ⟨p, List.mem_append_left _ hp, rfl, rfl⟩,
      _, List.mem_append_right _ (List.mem_singleton.2 rfl), rfl, rfl⟩

theorem LeasesSound.complete (h : LeasesSound db) {call : CompleteCall}
    (hcompletes : CompletesLease db db' call row) : LeasesSound db' := by
  have hleases := hcompletes.leases
  have hparticipation := hcompletes.participation
  have hkeyed : Table.Keyed (·.leaseId) db'.leases := by
    rw [hleases]
    exact h.keyed_finalize _ _ _ _
  have hunique : ∀ l ∈ db'.leases, ∀ l' ∈ db'.leases, l.sameEvent l' → l.claims = true →
      l'.claims = true → l.leaseId = l'.leaseId := by
    rw [hleases]
    exact h.unique_finalize _ _ _ _
  have htokens : db'.leases.Pairwise fun l l' =>
      l.sameEvent l' → l.fencingToken < l'.fencingToken := by
    rw [hleases]
    exact h.tokens_finalize _ _ _ _
  cases hspeech : speakingCompletionIsSpeech call.completion with
  | false =>
    have hstatus : call.completion.status.speech = false := speech_status.trans hspeech
    rw [hspeech, if_neg Bool.false_ne_true] at hparticipation
    refine ⟨hkeyed, hunique, htokens, ?_, ?_⟩
    · intro p hp
      rw [hleases, countP_spokeFor_finalize _ hstatus]
      exact h.counts p (hparticipation ▸ hp)
    · intro l hl hlspeech
      rw [hleases] at hl
      rw [hparticipation]
      exact h.counted l (speech_of_mem_finalizeRows hstatus hl hlspeech) hlspeech
  | true =>
    have hstatus : call.completion.status.speech = true := speech_status.trans hspeech
    rw [hspeech, if_pos rfl] at hparticipation
    refine ⟨hkeyed, hunique, htokens, ?_, ?_⟩
    · intro p' hp'
      rw [hparticipation] at hp'
      rw [h.countP_complete hcompletes hstatus]
      rcases mem_recordSpeech hp' with
        ⟨p, hp, hepisode, hcompanion, hcount⟩ | ⟨habsent, hepisode, hcompanion, hcount⟩
      · rw [hcount, hepisode, hcompanion, h.counts p hp]
      · -- nobody was counted before, so nothing had spoken
        have hzero : db.leases.countP (·.spokeFor row.episodeId row.companionId) = 0 := by
          rw [List.countP_eq_zero]
          intro l hl hspoke
          simp only [LeaseRow.spokeFor, Bool.and_eq_true, decide_eq_true_eq] at hspoke
          obtain ⟨p, hp, hpepisode, hpcompanion⟩ := h.counted l hl hspoke.2
          exact habsent p hp ⟨hpepisode.trans hspoke.1.1, hpcompanion.trans hspoke.1.2⟩
        rw [hcount, hepisode, hcompanion, hzero, if_pos ⟨rfl, rfl⟩]
    · intro l' hl' hlspeech
      rw [hleases] at hl'
      rw [hparticipation]
      obtain ⟨hkept, hspeaker⟩ := recordSpeech_kept db row.episodeId row.companionId call.nowMs
      obtain ⟨l, hl, ⟨hlheld, hcond, rfl⟩ | ⟨_, rfl⟩⟩ := mem_finalizeRows.1 hl'
      · have hsame : l = row := h.completed_row hcompletes hl (by rw [hlheld]; exact hcond)
        rw [hsame]
        exact hspeaker
      · obtain ⟨p, hp, hepisode, hcompanion⟩ := h.counted l' hl hlspeech
        obtain ⟨p', hp', hepisode', hcompanion'⟩ := hkept p hp
        exact ⟨p', hp', hepisode'.trans hepisode, hcompanion'.trans hcompanion⟩

theorem LeasesSound.effect (h : LeasesSound db) (heffect : LeaseEffect db db') :
    LeasesSound db' := by
  cases heffect with
  | idle hleases hjoin => exact h.idle hleases hjoin
  | expire cond nowMs hleases hparticipation => exact h.expire hleases hparticipation
  | grant cond nowMs lease hleases hparticipation hheld hfresh hfree htoken =>
    exact h.grant hleases hparticipation hheld hfresh hfree htoken

/-- A step is an effect on the leases or a completion. -/
theorem StoreOp.run_cases (op : StoreOp) (hsound : LeasesSound db) :
    LeaseEffect db (op.run db) ∨ ∃ call row, CompletesLease db (op.run db) call row := by
  by_cases hop : ∃ input, op = .completeEgressLease input
  · obtain ⟨input, rfl⟩ := hop
    rcases completeEgressLease_cases input db with hsame | ⟨call, row, _, hcompletes⟩
    · have hrun : (StoreOp.completeEgressLease input).run db = db := hsame
      rw [hrun]
      exact .inl (.idle rfl (.of_eq rfl))
    · exact .inr ⟨call, row, hcompletes⟩
  · exact .inl (op.run_effect (fun input heq => hop ⟨input, heq⟩) hsound)

/-- The step lemma. -/
theorem leasesSound_run (h : LeasesSound db) (op : StoreOp) :
    LeasesSound (op.run db) := by
  rcases op.run_cases h with heffect | ⟨call, row, hcompletes⟩
  · exact h.effect heffect
  · exact h.complete hcompletes

theorem leasesSound_step (db db' : Database) (h : LeasesSound db) (hstep : store.step db db') :
    LeasesSound db' := by
  obtain ⟨op, rfl⟩ := hstep
  exact leasesSound_run h op

/-- The run lemma. -/
theorem leasesSound_of_reachable (h : store.Reachable db) : LeasesSound db :=
  System.invariant LeasesSound.init leasesSound_step h

/-! ## The egress leases -/

theorem LeasesSound.countP_claims (h : LeasesSound db) (channelId triggerEventId : Identifier)
    {p : LeaseRow → Bool} (hp : ∀ l, p l = true → l.claims = true) :
    db.leases.countP (fun l => l.ofEvent channelId triggerEventId && p l) ≤ 1 := by
  refine h.keyed.countP_le_one fun l hl l' hl' hrow hrow' => ?_
  rw [Bool.and_eq_true, ofEvent_iff] at hrow hrow'
  refine h.unique l hl l' hl' ⟨?_, ?_⟩ (hp l hrow.2) (hp l' hrow'.2)
  · exact hrow.1.1.trans hrow'.1.1.symm
  · exact hrow.1.2.trans hrow'.1.2.symm

/-- An acquire gives a new lease only for an event that nobody has spoken for. -/
theorem acquire_spent {input : AcquireEgressLeaseInput} {granted spoken : LeaseRow}
    (hspoken : spoken ∈ db.leases) (hspeech : spoken.status.speech = true)
    (hresult : (acquireEgressLease input db).2 = .ok (.acquired granted))
    (hevent : granted.ofEvent spoken.channelId spoken.triggerEventId = true) :
    granted ∈ db.leases ∧ granted.leaseId = input.leaseId ∧
      (acquireEgressLease input db).1 = db := by
  rcases checked_cases (acquireCall input) acquireEgressLeaseBody db with
    ⟨message, hfailed⟩ | ⟨call, db', result, hcall, hbody, _, hdone⟩
  · rw [acquireEgressLease, hfailed] at hresult
    cases hresult
  · have hid : call.leaseId = input.leaseId := by
      obtain ⟨_, _, hrest⟩ := bind_eq_ok.1 hcall
      obtain ⟨_, _, hrest⟩ := bind_eq_ok.1 hrest
      obtain ⟨_, _, hrest⟩ := bind_eq_ok.1 hrest
      cases hrest
      rfl
    rw [acquireEgressLease, hdone] at hresult
    rw [acquireEgressLease, hdone]
    cases hresult
    rcases acquireEgressLeaseBody_cases hbody with
      ⟨rfl, row, hrow, hrowId, hacquired⟩ | ⟨_, heldBy, reason, hdeclined⟩ |
        ⟨reservation, base, hpromotes, hgrant⟩
    · cases hacquired
      exact ⟨hrow, hrowId.trans hid, rfl⟩
    · cases hdeclined
    · -- a grant has found no lease of the event that spoke
      cases hgrant
      have hsame : spoken.ofEvent call.channelId reservation.triggerEventId = true := by
        rw [ofEvent_iff] at hevent ⊢
        exact ⟨hevent.1.symm, hevent.2.symm⟩
      rw [spentLease_eq_none hpromotes.unspent hspoken hsame] at hspeech
      cases hspeech

/-- A token that passes is the number it was given as. -/
theorem safeInteger_eq_ok {value : JsNumber} {field : String} {n : Int}
    (h : safeInteger value field = .ok n) : value = .finite n := by
  unfold safeInteger at h
  split at h
  · rename_i q
    split at h
    · rename_i hint
      simp only [Bool.and_eq_true, decide_eq_true_eq] at hint
      cases h
      rw [(Rat.den_eq_one_iff q).1 hint.1]
    · cases h
  · cases h

/-- A completion whose token is stale or whose lease is no longer held writes nothing. -/
theorem complete_stale (h : LeasesSound db) {input : CompleteEgressLeaseInput}
    (hrow : row ∈ db.leases) (hid : row.leaseId = input.leaseId)
    (hstale : input.fencingToken ≠ .finite row.fencingToken ∨ row.status ≠ .held) :
    (completeEgressLease input db).1 = db := by
  rcases completeEgressLease_cases input db with hsame | ⟨call, found, hcall, hcompletes⟩
  · exact hsame
  · obtain ⟨token, htoken, hrest⟩ := bind_eq_ok.1 hcall
    obtain ⟨_, _, hrest⟩ := bind_eq_ok.1 hrest
    obtain ⟨_, _, hrest⟩ := bind_eq_ok.1 hrest
    cases hrest
    have hsame : found = row :=
      h.keyed.unique hcompletes.found hrow (hcompletes.leaseId.trans hid.symm)
    rcases hstale with hother | hterminal
    · refine absurd ?_ hother
      have heq : (row.fencingToken : Int) = token := hsame ▸ hcompletes.token
      rw [safeInteger_eq_ok htoken, ← heq]
      rfl
    · exact absurd (held_iff.1 (hsame ▸ hcompletes.held)) hterminal

theorem LeasesSound.safety (h : LeasesSound db) : EgressLeaseSafety db where
  oneLive := by
    intro channelId triggerEventId nowMs
    refine h.countP_claims channelId triggerEventId fun l hlive => ?_
    simp only [isEgressLeaseLive, Bool.and_eq_true, decide_eq_true_eq] at hlive
    exact claims_iff.2 (.inl hlive.1)
  oneSpeech := fun channelId triggerEventId =>
    h.countP_claims channelId triggerEventId fun _ hspeech => claims_iff.2 (.inr hspeech)
  spent := fun _ _ _ hspoken hspeech hresult hevent => acquire_spent hspoken hspeech hresult hevent
  tokens := by
    intro channelId triggerEventId
    rw [List.pairwise_map, List.pairwise_filter]
    refine h.tokens.imp fun hlt hevent hevent' => hlt ?_
    rw [ofEvent_iff] at hevent hevent'
    exact ⟨hevent.1.trans hevent'.1.symm, hevent.2.trans hevent'.2.symm⟩
  stale := fun _ _ hrow hid hstale => complete_stale h hrow hid hstale
  counts := h.counts

/-- A lease that is no longer held stays as it is. -/
theorem terminal_kept (h : LeasesSound db) (op : StoreOp) {lease : LeaseRow}
    (hlease : lease ∈ db.leases) (hterminal : lease.status ≠ .held) :
    lease ∈ (op.run db).leases := by
  have hfinalize : ∀ cond status reason nowMs,
      lease ∈ finalizeRows cond status reason nowMs db.leases := fun cond status reason nowMs =>
    mem_finalizeRows.2 ⟨lease, hlease, .inr ⟨fun hheld => absurd (held_iff.1 hheld) hterminal, rfl⟩⟩
  rcases op.run_cases h with heffect | ⟨call, row, hcompletes⟩
  · cases heffect with
    | idle hleases hjoin => rw [hleases]; exact hlease
    | expire cond nowMs hleases hparticipation => rw [hleases]; exact hfinalize _ _ _ _
    | grant cond nowMs new hleases =>
      rw [hleases]
      exact List.mem_append_left _ (hfinalize _ _ _ _)
  · rw [hcompletes.leases]
    exact hfinalize _ _ _ _

/-- **The egress leases are safe.** Whatever calls are made of the store, in any order, by any
companions and with any clocks: an event has at most one live lease and at most one that spoke,
which stays as it is; a spoken event is granted to nobody; the fencing tokens of an event increase
in the order of acquisition; a stale completion changes nothing; and the speak counts are right. -/
theorem egress_lease_safety {db : Database} (h : store.Reachable db) :
    EgressLeaseSafety db ∧
      ∀ later, store.Runs db later → ∀ lease ∈ db.leases, lease.status ≠ .held →
        lease ∈ later.leases := by
  have hsound := leasesSound_of_reachable h
  refine ⟨hsound.safety, fun later hrun lease hlease hterminal => ?_⟩
  refine System.stable (P := fun d => lease ∈ d.leases) leasesSound_step ?_ hsound hlease hrun
  intro s t hs hmem hst
  obtain ⟨op, rfl⟩ := hst
  exact terminal_kept hs op hmem hterminal

/-! ## Two runs -/

def runOps (ops : List StoreOp) : Database := ops.foldl (fun db op => op.run db) {}

theorem reachable_runOps (ops : List StoreOp) : store.Reachable (runOps ops) := by
  suffices h : ∀ db, store.Reachable db →
      store.Reachable (ops.foldl (fun db op => op.run db) db) from h {} .refl
  induction ops with
  | nil => exact fun _ h => h
  | cons op rest ih => exact fun db h => ih (op.run db) (h.next ⟨op, rfl⟩)

def ari : Uuid := ⟨"aaaaaaaa-0000-4000-8000-000000000001", by decide +kernel⟩
def bea : Uuid := ⟨"bbbbbbbb-0000-4000-8000-000000000002", by decide +kernel⟩
def cyd : Uuid := ⟨"cccccccc-0000-4000-8000-000000000003", by decide +kernel⟩
def room : Identifier := ⟨"room", by decide +kernel, by decide +kernel⟩
def hello : Identifier := ⟨"hello", by decide +kernel, by decide +kernel⟩
def bye : Identifier := ⟨"bye", by decide +kernel, by decide +kernel⟩

/-- The companion's reservation of the event, under its own id as reservation id. -/
def reserveFor (companionId : Uuid) (event : Identifier) (reservationId : Uuid) : StoreOp :=
  .reserve { reservationId, channelId := room, triggerEventId := event, companionId
             nowMs := .finite 0, expiresAtMs := .finite 100, uuid := ari }

def acquireWith (leaseId reservationId : Uuid) (nowMs : Nat) : AcquireEgressLeaseInput :=
  { leaseId, reservationId, channelId := room, nowMs := .finite nowMs
    expiresAtMs := .finite (nowMs + 10 : Nat), chargedUnits := none }

/-- Ari and Bea reserve one event; Ari acquires and speaks. -/
def ariSpeaks : List StoreOp :=
  [reserveFor ari hello ari, reserveFor bea hello bea,
    .acquireEgressLease (acquireWith ari ari 1),
    .completeEgressLease { leaseId := ari, channelId := room, fencingToken := .finite 1
                           completion := .delivered, nowMs := .finite 2, pressureDelta := none }]

theorem egress_lease_safety_ariSpeaks :
    (runOps ariSpeaks).leases.map (·.status) = [.delivered] ∧
      (runOps ariSpeaks).participation.map (·.speakCount) = [1, 0] ∧
      EgressLeaseSafety (runOps ariSpeaks) :=
  ⟨by decide +kernel, by decide +kernel, (egress_lease_safety (reachable_runOps ariSpeaks)).1⟩

/-- Ari acquires one event of the room and Bea another. -/
def twoEvents : List StoreOp :=
  [reserveFor ari hello ari, reserveFor bea bye bea,
    .acquireEgressLease (acquireWith ari ari 1), .acquireEgressLease (acquireWith bea bea 1)]

/-- **Tokens are counted per event.** Two leases of one channel have the same token; and after the
event has been spoken, an acquire under the id of the lease that spoke still answers `acquired`. -/
theorem channel_repeats_token :
    (store.Reachable (runOps twoEvents) ∧
      ((runOps twoEvents).leases.filter (·.channelId = room)).map (·.fencingToken) = [1, 1]) ∧
    store.Reachable (runOps ariSpeaks) ∧
      ∃ lease ∈ (runOps ariSpeaks).leases, lease.status = .delivered ∧
        (acquireEgressLease (acquireWith ari ari 3) (runOps ariSpeaks)).2 =
          .ok (.acquired lease) := by
  refine ⟨⟨reachable_runOps _, by decide +kernel⟩, reachable_runOps _, ?_⟩
  decide +kernel

end Psfn.Arbiter
