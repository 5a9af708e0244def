import Psfn.Escalation.Raise

/-!
# In-flight pages

A raise inserts its attempt row before it calls the sink and settles the row afterwards. In
between the row can be deleted in two ways. The attempt ring leaves rows alone whose lease has
not lapsed; the two evictions of answered escalations do not look at leases, and delete the
attempts of an escalation with it.

* `in_flight_attempts_kept` — while the evictions select no escalation that a page is out for,
  and the lease has not lapsed before the settlement, no attempt in flight is deleted and every
  settlement finds its row;
* `sink_called_once` — in every run at most one sink call is made for an attempt row;
* `answered_page_forgotten` — an answer during the delivery lets the row be evicted.
-/

namespace Psfn.Escalation

open Psfn.Lib

/-! ## Flights -/

/-- An attempt between its claim and its settlement. -/
structure Flight where
  idempotencyKey : String
  escalationId   : Uuid
  outcome        : HumanEscalationDeliveryOutcome
  serial         : Nat
  /-- The sink was called. -/
  called         : Bool

def RaiseCall.flight (call : RaiseCall) : Option Flight :=
  let flightOf := fun (claim : ProvisionalAttempt) (serial : Nat) (called : Bool) =>
    { idempotencyKey := call.idempotencyKey, escalationId := claim.record.escalationId
      outcome := claim.outcome, serial, called : Flight }
  match call.stage with
  | .pruneAttempts claim serial =>
    if claim.awaitingSettlement then some (flightOf claim serial false) else none
  | .deliver claim serial => some (flightOf claim serial true)
  | .settleAttempt claim serial _ => some (flightOf claim serial true)
  | _ => none

def Call.flight : Call → Option Flight
  | .raise call => call.flight
  | .resolve _ => none

/-- The escalations that the step of the call deletes. -/
def Call.evicts (oracle : Oracle) (ledger : Ledger) : Call → EscalationRow → Bool
  | .raise call => match call.stage with
    | .expireAnswered _ => expired call.store oracle.nowMs
    | .evictAnswered record => ledger.inRing call.store record.kind
    | _ => fun _ => false
  | .resolve call => match call.stage with
    | .expireAnswered _ => expired call.store oracle.nowMs
    | .evictAnswered kind => ledger.inRing call.store kind
    | _ => fun _ => false

/-- The escalation whose attempt ring the step of the call takes. -/
def Call.prunes : Call → Option Uuid
  | .raise call => match call.stage with
    | .pruneAttempts claim _ => some claim.record.escalationId
    | _ => none
  | .resolve _ => none

/-! ## What a step does to the attempts -/

/-- The attempts, the sink calls and the flight of a call, before and after its step. -/
inductive AttemptChange (ledger : Ledger) (call : Call) (oracle : Oracle) :
    Option Flight → Ledger → Option Flight → Prop
  | same {ledger' : Ledger} {before after : Option Flight}
    (hattempts : ledger'.attempts = ledger.attempts) (hclaims : ledger'.claims = ledger.claims)
    (hcalls : ledger'.sinkCalls = ledger.sinkCalls) (hafter : after = before ∨ after = none) :
    AttemptChange ledger call oracle before ledger' after
  | evict : AttemptChange ledger call oracle none
      (ledger.deleteEscalations (call.evicts oracle ledger)) none
  | claim (row : AttemptRow) {after : Option Flight} (hserial : row.serial = ledger.claims)
    (hfresh : ∀ old ∈ ledger.attempts, old.idempotencyKey ≠ row.idempotencyKey)
    (hafter : ∀ flight, after = some flight → flight =
      { idempotencyKey := row.idempotencyKey, escalationId := row.escalationId
        outcome := row.outcome, serial := ledger.claims, called := false }) :
    AttemptChange ledger call oracle none
      { ledger with attempts := ledger.attempts ++ [row], claims := ledger.claims + 1 } after
  | prune (store : HumanEscalationStore) (escalationId : Uuid)
    (hprunes : call.prunes = some escalationId) :
    AttemptChange ledger call oracle none
      (ledger.pruneAttempts store escalationId oracle.nowMs) none
  | call (store : HumanEscalationStore) (flight : Flight)
    (hprunes : call.prunes = some flight.escalationId) (hcalled : flight.called = false) :
    AttemptChange ledger call oracle (some flight)
      { ledger.pruneAttempts store flight.escalationId oracle.nowMs with
        sinkCalls := flight.serial :: ledger.sinkCalls }
      (some { flight with called := true })
  | settle (flight : Flight) (outcome : HumanEscalationDeliveryOutcome) :
    AttemptChange ledger call oracle (some flight)
      (ledger.settleAttempt flight.idempotencyKey flight.outcome outcome).1 none

theorem flight_afterOutcome (call : RaiseCall) (claim : ProvisionalAttempt)
    (outcome : HumanEscalationDeliveryOutcome) :
    ({ call with stage := afterOutcome claim outcome } : RaiseCall).flight = none := by
  cases outcome <;> rfl

/-- **Every step of a raise is one of the changes.** -/
theorem RaiseCall.advance_change (oracle : Oracle) (call : RaiseCall) (ledger : Ledger) :
    AttemptChange ledger (.raise call) oracle call.flight (call.advance oracle ledger).1
      ({ call with stage := (call.advance oracle ledger).2 } : RaiseCall).flight := by
  obtain ⟨store, route, facts, key, stage⟩ := call
  cases stage with
  | findAttempt =>
    simp only [RaiseCall.advance]
    split <;> exact .same rfl rfl rfl (.inr rfl)
  | openOrReopen =>
    simp only [RaiseCall.advance]
    split
    · rename_i ledger' record hopened
      unfold Ledger.openOrReopen at hopened
      split at hopened
      · obtain ⟨rfl, -⟩ := Prod.mk.inj (Except.ok.inj hopened)
        exact .same rfl rfl rfl (.inr rfl)
      · split at hopened
        · cases hopened
        · obtain ⟨rfl, -⟩ := Prod.mk.inj (Except.ok.inj hopened)
          exact .same rfl rfl rfl (.inr rfl)
    · exact .same rfl rfl rfl (.inr rfl)
  | expireAnswered record => exact .evict
  | evictAnswered record => exact .evict
  | readClock record => exact .same rfl rfl rfl (.inr rfl)
  | claimAttempt claim =>
    simp only [RaiseCall.advance]
    split
    · rename_i ledger' serial hclaimed
      unfold Ledger.claimAttempt at hclaimed
      dsimp only at hclaimed
      split at hclaimed
      · cases hclaimed
      · rename_i hfresh
        split at hclaimed
        · obtain ⟨rfl, hserial⟩ := Prod.mk.inj (Except.ok.inj hclaimed)
          obtain rfl := Option.some.inj hserial
          refine .claim _ rfl (fun old hold hkey => hfresh ?_) ?_
          · exact List.any_eq_true.2 ⟨old, hold, by simpa using hkey⟩
          · intro flight hflight
            simp only [RaiseCall.flight] at hflight
            split at hflight
            · exact (Option.some.inj hflight).symm
            · cases hflight
        · cases hclaimed
    · rename_i ledger' hclaimed
      unfold Ledger.claimAttempt at hclaimed
      dsimp only at hclaimed
      split at hclaimed
      · obtain ⟨rfl, -⟩ := Prod.mk.inj (Except.ok.inj hclaimed)
        exact .same rfl rfl rfl (.inr rfl)
      · split at hclaimed
        · cases (Prod.mk.inj (Except.ok.inj hclaimed)).2
        · cases hclaimed
    · exact .same rfl rfl rfl (.inr rfl)
  | readBack =>
    simp only [RaiseCall.advance]
    split <;> exact .same rfl rfl rfl (.inr rfl)
  | pruneAttempts claim serial =>
    cases hawaiting : claim.awaitingSettlement with
    | true =>
      simp only [RaiseCall.advance, RaiseCall.flight, afterClaim, hawaiting, if_true]
      exact .call store _ rfl rfl
    | false =>
      have hflight : ({ store, route, facts, idempotencyKey := key
                        stage := afterClaim claim serial } : RaiseCall).flight = none := by
        unfold afterClaim
        rw [hawaiting, if_neg Bool.false_ne_true]
        split
        · rfl
        · exact flight_afterOutcome ⟨store, route, facts, key, .findAttempt⟩ claim claim.outcome
      simp only [RaiseCall.advance, hawaiting, Bool.false_eq_true, if_false, hflight]
      simp only [RaiseCall.flight, hawaiting, Bool.false_eq_true, if_false]
      exact .prune store _ rfl
  | deliver claim serial => exact .same rfl rfl rfl (.inl rfl)
  | settleAttempt claim serial outcome =>
    have hflight : ({ store, route, facts, idempotencyKey := key
                      stage := (RaiseCall.advance oracle
                        ⟨store, route, facts, key, .settleAttempt claim serial outcome⟩ ledger).2 } :
                      RaiseCall).flight = none := by
      simp only [RaiseCall.advance]
      split
      · exact flight_afterOutcome ⟨store, route, facts, key, .findAttempt⟩ claim outcome
      · rfl
    rw [hflight]
    exact .settle ⟨key, claim.record.escalationId, claim.outcome, serial, true⟩ outcome
  | markNotified claim =>
    simp only [RaiseCall.advance]
    split <;> exact .same rfl rfl rfl (.inr rfl)
  | ended result => exact .same rfl rfl rfl (.inr rfl)

theorem ResolveCall.advance_change (oracle : Oracle) (call : ResolveCall) (ledger : Ledger) :
    AttemptChange ledger (.resolve call) oracle none (call.advance oracle ledger).1 none := by
  obtain ⟨store, escalationId, state, resolvedAtMs, stage⟩ := call
  cases stage with
  | getById =>
    simp only [ResolveCall.advance]
    split
    · exact .same rfl rfl rfl (.inr rfl)
    · split <;> exact .same rfl rfl rfl (.inr rfl)
  | applyResolution expectedState => exact .same rfl rfl rfl (.inr rfl)
  | expireAnswered kind => exact .evict
  | evictAnswered kind => exact .evict
  | ended => exact .same rfl rfl rfl (.inr rfl)

variable {oracle : Oracle} {call : Call} {ledger ledger' : Ledger}

/-- **Every step is one of the changes.** -/
theorem Call.advance_change {call' : Call} (h : call.advance oracle ledger = (ledger', call')) :
    AttemptChange ledger call oracle call.flight ledger' call'.flight := by
  cases call with
  | raise raise =>
    obtain ⟨rfl, rfl⟩ := Prod.mk.inj h
    exact raise.advance_change oracle ledger
  | resolve resolve =>
    obtain ⟨rfl, rfl⟩ := Prod.mk.inj h
    exact resolve.advance_change oracle ledger

/-! ## The invariant -/

structure Ledger.Sound (ledger : Ledger) : Prop where
  keys     : Table.Keyed AttemptRow.idempotencyKey ledger.attempts
  serials  : ∀ row ∈ ledger.attempts, row.serial < ledger.claims
  calls    : ledger.sinkCalls.Nodup
  calledLt : ∀ serial ∈ ledger.sinkCalls, serial < ledger.claims

/-- The flight is of a claim that was made, and its sink was not called unless it says so. -/
structure Flight.Fresh (ledger : Ledger) (flight : Flight) : Prop where
  claimed   : flight.serial < ledger.claims
  notCalled : flight.called = false → flight.serial ∉ ledger.sinkCalls

/-- The attempt row of the flight is in the ledger with the outcome it was claimed with. -/
def Flight.Held (ledger : Ledger) (flight : Flight) : Prop :=
  ∃ row ∈ ledger.attempts, row.serial = flight.serial ∧
    row.idempotencyKey = flight.idempotencyKey ∧ row.escalationId = flight.escalationId ∧
    row.outcome = flight.outcome

/-- Two calls in flight do not share an attempt row. -/
def Apart (p q : Call) : Prop :=
  ∀ flight flight', p.flight = some flight → q.flight = some flight' →
    flight.serial ≠ flight'.serial

/-- The lease of an attempt in flight has not lapsed when a step takes the attempt ring of its
escalation: the sink answered, and the raise settled, in time. -/
def LeasesHold (pool : LedgerPool) (move : Move) : Prop :=
  ∀ call ∈ pool.running, ∀ flight, call.flight = some flight →
    move.call.prunes = some flight.escalationId →
    ∀ row ∈ pool.shared.attempts, row.serial = flight.serial →
      row.settlementLeaseUntilMs.any (move.oracle.nowMs < ·) = true

/-- The step evicts no escalation that a page is out for, and the leases hold. -/
structure Spares (pool : LedgerPool) (move : Move) : Prop where
  evictions : ∀ call ∈ pool.running, ∀ flight, call.flight = some flight →
    ∀ row ∈ pool.shared.escalations,
      move.call.evicts move.oracle pool.shared row = true →
      row.escalationId ≠ flight.escalationId
  leases    : LeasesHold pool move

variable {store : HumanEscalationStore}

/-- A row with an unlapsed lease is not past the `OFFSET`. -/
theorem not_beyondAttemptRing {escalationId : Uuid} {nowMs : Nat}
    (hkeys : Table.Keyed AttemptRow.idempotencyKey ledger.attempts) {row : AttemptRow}
    (hrow : row ∈ ledger.attempts)
    (hlease : row.escalationId = escalationId → row.settlementLeaseUntilMs.any (nowMs < ·) = true) :
    row ∈ (ledger.pruneAttempts store escalationId nowMs).attempts := by
  refine Table.mem_delete.2 ⟨hrow, Bool.eq_false_iff.2 fun hdeleted => ?_⟩
  obtain ⟨other, hother, hkey⟩ := List.any_eq_true.1 hdeleted
  have hranked := List.mem_mergeSort.1 (List.mem_of_mem_drop hother)
  obtain ⟨hotherRow, hunleased⟩ := List.mem_filter.1 hranked
  obtain rfl := hkeys.unique hotherRow hrow (by simpa using hkey)
  rw [unleased, Bool.and_eq_true, decide_eq_true_eq] at hunleased
  obtain ⟨hescalation, hlapsed⟩ := hunleased
  have hlive := hlease hescalation
  rcases hcases : other.settlementLeaseUntilMs with _ | until_
  · rw [hcases] at hlive
    exact Bool.noConfusion hlive
  · rw [hcases] at hlapsed hlive
    simp only [Option.all_some, Option.any_some, decide_eq_true_eq] at hlapsed hlive
    omega

theorem mem_attempts_deleteEscalations {cond : EscalationRow → Bool} {row : AttemptRow}
    (hrow : row ∈ ledger.attempts)
    (hspared : ∀ escalation ∈ ledger.escalations, cond escalation = true →
      escalation.escalationId ≠ row.escalationId) :
    row ∈ (ledger.deleteEscalations cond).attempts := by
  refine Table.mem_delete.2 ⟨hrow, Bool.eq_false_iff.2 fun hdeleted => ?_⟩
  obtain ⟨escalation, hmem, hcond⟩ := List.any_eq_true.1 hdeleted
  rw [Bool.and_eq_true, decide_eq_true_eq] at hcond
  exact hspared escalation hmem hcond.1 hcond.2

theorem Ledger.Sound.step {ledger ledger' : Ledger} {call : Call} {oracle : Oracle}
    {before after : Option Flight} (h : ledger.Sound)
    (hfresh : ∀ flight, before = some flight → flight.Fresh ledger)
    (hchange : AttemptChange ledger call oracle before ledger' after) : ledger'.Sound := by
  cases hchange with
  | same hattempts hclaims hcalls _ =>
    exact ⟨hattempts ▸ h.keys, fun row hrow => hclaims ▸ h.serials row (hattempts ▸ hrow),
      hcalls ▸ h.calls, fun serial hserial => hclaims ▸ h.calledLt serial (hcalls ▸ hserial)⟩
  | evict =>
    exact ⟨h.keys.delete _, fun row hrow => h.serials row (Table.mem_delete.1 hrow).1, h.calls,
      h.calledLt⟩
  | claim row hserial hnew _ =>
    refine ⟨h.keys.insert hnew, fun other hother => ?_, h.calls,
      fun serial hcalled => Nat.lt_succ_of_lt (h.calledLt serial hcalled)⟩
    rcases List.mem_append.1 hother with hother | hother
    · exact Nat.lt_succ_of_lt (h.serials other hother)
    · rw [List.mem_singleton.1 hother, hserial]
      exact Nat.lt_succ_self _
  | prune store escalationId _ =>
    exact ⟨h.keys.delete _, fun row hrow => h.serials row (Table.mem_delete.1 hrow).1, h.calls,
      h.calledLt⟩
  | call store flight _ hcalled =>
    obtain ⟨hclaimed, hnotCalled⟩ := hfresh flight rfl
    refine ⟨h.keys.delete _, fun row hrow => h.serials row (Table.mem_delete.1 hrow).1,
      List.nodup_cons.2 ⟨hnotCalled hcalled, h.calls⟩, fun serial hserial => ?_⟩
    rcases List.mem_cons.1 hserial with rfl | hserial
    · exact hclaimed
    · exact h.calledLt serial hserial
  | settle flight outcome =>
    refine ⟨h.keys.update fun row => rfl, fun row hrow => ?_, h.calls, h.calledLt⟩
    obtain ⟨old, hold, ⟨-, rfl⟩ | ⟨-, rfl⟩⟩ := Table.mem_update.1 hrow
    · exact h.serials old hold
    · exact h.serials _ hold

/-- The call's own flight after its step. -/
theorem Flight.Fresh.step {ledger ledger' : Ledger} {call : Call} {oracle : Oracle}
    {before after : Option Flight} (hsound : ledger.Sound)
    (hfresh : ∀ flight, before = some flight → flight.Fresh ledger)
    (hchange : AttemptChange ledger call oracle before ledger' after) :
    ∀ flight, after = some flight → flight.Fresh ledger' := by
  intro flight hflight
  cases hchange with
  | same hattempts hclaims hcalls hafter =>
    rcases hafter with rfl | rfl
    · obtain ⟨hclaimed, hnotCalled⟩ := hfresh flight hflight
      exact ⟨hclaims ▸ hclaimed, hcalls ▸ hnotCalled⟩
    · cases hflight
  | evict => cases hflight
  | claim row hserial _ hafter =>
    rw [hafter flight hflight]
    refine ⟨Nat.lt_succ_self _, fun _ hcalled => ?_⟩
    exact absurd (hsound.calledLt _ hcalled) (Nat.lt_irrefl _)
  | prune store escalationId _ => cases hflight
  | call store old _ _ =>
    obtain rfl := Option.some.inj hflight
    exact ⟨(hfresh old rfl).claimed, fun hcalled => Bool.noConfusion hcalled⟩
  | settle old outcome => cases hflight

/-- The flight of another call after the step. -/
theorem Flight.Fresh.other {before after : Option Flight} {flight : Flight}
    (hfresh : flight.Fresh ledger)
    (hapart : ∀ mine, before = some mine → mine.serial ≠ flight.serial)
    (hchange : AttemptChange ledger call oracle before ledger' after) :
    flight.Fresh ledger' ∧ ∀ mine, after = some mine → mine.serial ≠ flight.serial := by
  cases hchange with
  | same hattempts hclaims hcalls hafter =>
    refine ⟨⟨hclaims ▸ hfresh.claimed, hcalls ▸ hfresh.notCalled⟩, fun mine hmine => ?_⟩
    rcases hafter with rfl | rfl
    · exact hapart mine hmine
    · cases hmine
  | evict => exact ⟨⟨hfresh.claimed, hfresh.notCalled⟩, fun mine hmine => by cases hmine⟩
  | claim row hserial _ hafter =>
    refine ⟨⟨Nat.lt_succ_of_lt hfresh.claimed, hfresh.notCalled⟩, fun mine hmine => ?_⟩
    rw [hafter mine hmine]
    exact Ne.symm (Nat.ne_of_lt hfresh.claimed)
  | prune store escalationId _ =>
    exact ⟨⟨hfresh.claimed, hfresh.notCalled⟩, fun mine hmine => by cases hmine⟩
  | call store old _ _ =>
    have hne := hapart old rfl
    refine ⟨⟨hfresh.claimed, fun hcalled hmem => ?_⟩, fun mine hmine => ?_⟩
    · rcases List.mem_cons.1 hmem with heq | hmem
      · exact hne heq.symm
      · exact hfresh.notCalled hcalled hmem
    · obtain rfl := Option.some.inj hmine
      exact hne
  | settle old outcome => exact ⟨⟨hfresh.claimed, hfresh.notCalled⟩, fun mine hmine => by cases hmine⟩

/-- A step that spares the flight keeps its row, unless it settles it. -/
theorem Flight.Held.other {before after : Option Flight} {flight : Flight} (hsound : ledger.Sound)
    (hheld : flight.Held ledger) (hapart : ∀ mine, before = some mine → mine.serial ≠ flight.serial)
    (hmine : ∀ mine, before = some mine → mine.Held ledger)
    (hevictions : ∀ row ∈ ledger.escalations, call.evicts oracle ledger row = true →
      row.escalationId ≠ flight.escalationId)
    (hleases : call.prunes = some flight.escalationId →
      ∀ row ∈ ledger.attempts, row.serial = flight.serial →
      row.settlementLeaseUntilMs.any (oracle.nowMs < ·) = true)
    (hchange : AttemptChange ledger call oracle before ledger' after) : flight.Held ledger' := by
  obtain ⟨row, hrow, hserial, hkey, hescalation, houtcome⟩ := hheld
  cases hchange with
  | same hattempts _ _ _ =>
    exact ⟨row, hattempts ▸ hrow, hserial, hkey, hescalation, houtcome⟩
  | evict =>
    refine ⟨row, mem_attempts_deleteEscalations hrow fun escalation hmem hcond => ?_, hserial, hkey,
      hescalation, houtcome⟩
    rw [hescalation]
    exact hevictions escalation hmem hcond
  | claim new _ _ _ =>
    exact ⟨row, List.mem_append_left _ hrow, hserial, hkey, hescalation, houtcome⟩
  | prune store escalationId hprunes =>
    refine ⟨row, not_beyondAttemptRing hsound.keys hrow fun hsame => ?_, hserial, hkey, hescalation,
      houtcome⟩
    exact hleases (by rw [hprunes, ← hsame, hescalation]) row hrow hserial
  | call store mine hprunes _ =>
    refine ⟨row, not_beyondAttemptRing hsound.keys hrow fun hsame => ?_, hserial, hkey, hescalation,
      houtcome⟩
    exact hleases (by rw [hprunes, ← hsame, hescalation]) row hrow hserial
  | settle mine outcome =>
    -- the settled row has another serial, so another key
    obtain ⟨settled, hsettledRow, hsettledSerial, hsettledKey, -, -⟩ := hmine mine rfl
    have hother : settles mine.idempotencyKey mine.outcome row = false := by
      refine Bool.eq_false_iff.2 fun hsettles => hapart mine rfl ?_
      rw [settles, Bool.and_eq_true, decide_eq_true_eq] at hsettles
      have hsame := hsound.keys.unique hsettledRow hrow (hsettledKey.trans hsettles.1.symm)
      rw [← hsettledSerial, hsame, hserial]
    exact ⟨row, Table.mem_update.2 ⟨row, hrow, .inr ⟨hother, rfl⟩⟩, hserial, hkey, hescalation,
      houtcome⟩

/-- The call's own row after its step. -/
theorem Flight.Held.step {ledger ledger' : Ledger} {call : Call} {oracle : Oracle}
    {before after : Option Flight} (hsound : ledger.Sound)
    (hheld : ∀ flight, before = some flight → flight.Held ledger)
    (hleases : ∀ flight, before = some flight → call.prunes = some flight.escalationId →
      ∀ row ∈ ledger.attempts, row.serial = flight.serial →
      row.settlementLeaseUntilMs.any (oracle.nowMs < ·) = true)
    (hchange : AttemptChange ledger call oracle before ledger' after) :
    ∀ flight, after = some flight → flight.Held ledger' := by
  intro flight hflight
  cases hchange with
  | same hattempts _ _ hafter =>
    rcases hafter with rfl | rfl
    · obtain ⟨row, hrow, hrest⟩ := hheld flight hflight
      exact ⟨row, hattempts ▸ hrow, hrest⟩
    · cases hflight
  | evict => cases hflight
  | claim row hserial _ hafter =>
    rw [hafter flight hflight]
    exact ⟨row, List.mem_append_right _ List.mem_cons_self, hserial, rfl, rfl, rfl⟩
  | prune store escalationId _ => cases hflight
  | call store old hprunes _ =>
    obtain rfl := Option.some.inj hflight
    obtain ⟨row, hrow, hserial, hkey, hescalation, houtcome⟩ := hheld old rfl
    refine ⟨row, not_beyondAttemptRing hsound.keys hrow fun _ => ?_, hserial, hkey, hescalation,
      houtcome⟩
    exact hleases old rfl hprunes row hrow hserial
  | settle old outcome => cases hflight

/-! ## Runs -/

variable {routing : HumanEscalationKind → HumanEscalationRoute} {sharedClock : Bool}

variable {pool : LedgerPool}

/-- The proof outline. `spared` says whether the guard spares the attempts in flight. -/
theorem flight_outline {guard : LedgerPool → Option Move → Ledger → Prop} (spared : Prop)
    (hguard : spared → ∀ pool move s, guard pool (some move) s → Spares pool move)
    (h : ((escalations routing sharedClock).system guard {}).Reachable pool) :
    pool.shared.Sound ∧
      (∀ call ∈ pool.running, ∀ flight, call.flight = some flight →
        flight.Fresh pool.shared ∧ (spared → flight.Held pool.shared)) ∧
      pool.running.Pairwise Apart := by
  refine Interleaving.outline Ledger.Sound
    (fun ledger call => ∀ flight, call.flight = some flight →
      flight.Fresh ledger ∧ (spared → flight.Held ledger)) Apart ?_ ?_ ?_ ?_ ?_ ?_ h
  · exact fun p q hpq flight flight' hflight hflight' =>
      (hpq flight' flight hflight' hflight).symm
  · exact ⟨List.nodup_nil, fun row hrow => absurd hrow List.not_mem_nil, List.nodup_nil,
      fun serial hserial => absurd hserial List.not_mem_nil⟩
  · -- a call that starts has claimed nothing
    rintro ledger call - (⟨store, facts, key, rfl⟩ | ⟨store, id, state, at_, rfl⟩) <;>
      exact ⟨fun flight hflight => Option.noConfusion rfl (heq_of_eq hflight),
        fun other _ flight flight' hflight _ => Option.noConfusion rfl (heq_of_eq hflight)⟩
  · rintro pool call move ledger' call' hsound hmem hcall ⟨rfl, -, hadvance⟩ hmove
    have hchange := Call.advance_change hadvance
    have hfresh := fun flight hflight => (hcall flight hflight).1
    refine ⟨hsound.step hfresh hchange, fun flight hflight =>
      ⟨Flight.Fresh.step hsound hfresh hchange flight hflight, fun hspared => ?_⟩⟩
    exact Flight.Held.step hsound (fun mine hmine => (hcall mine hmine).2 hspared)
      (fun mine hmine => (hguard hspared _ _ _ hmove).leases _ hmem mine hmine) hchange flight
      hflight
  · rintro pool call move ledger' call' other hsound hmem hcall ⟨rfl, -, hadvance⟩ hmove hother
      hflights hapart
    have hchange := Call.advance_change hadvance
    refine ⟨fun flight hflight => ⟨?_, fun hspared => ?_⟩, fun mine flight hmine hflight => ?_⟩
    · exact ((hflights flight hflight).1.other
        (fun mine hmine => hapart mine flight hmine hflight) hchange).1
    · have hspares := hguard hspared _ _ _ hmove
      exact ((hflights flight hflight).2 hspared).other hsound
        (fun mine hmine => hapart mine flight hmine hflight)
        (fun mine hmine => (hcall mine hmine).2 hspared)
        (hspares.evictions other hother flight hflight)
        (hspares.leases other hother flight hflight) hchange
    · exact ((hflights flight hflight).1.other
        (fun mine hmine => hapart mine flight hmine hflight) hchange).2 mine hmine
  · -- the clock is read by nothing here
    rintro pool ledger' hsound ⟨-, hclock⟩ -
    rw [hclock]
    refine ⟨⟨hsound.keys, hsound.serials, hsound.calls, hsound.calledLt⟩,
      fun call _ hcall flight hflight => ?_⟩
    obtain ⟨hfresh, hheld⟩ := hcall flight hflight
    exact ⟨⟨hfresh.claimed, hfresh.notCalled⟩, hheld⟩

/-- **At most one sink call is made for an attempt row**, in every run. -/
theorem sink_called_once {guard : LedgerPool → Option Move → Ledger → Prop}
    (h : ((escalations routing sharedClock).system guard {}).Reachable pool) :
    pool.shared.sinkCalls.Nodup :=
  (flight_outline False False.elim h).1.calls

/-- The step settles its attempt: the row is there, with the outcome that the sink gave. -/
def SettlesWithOutcome (pool : LedgerPool) (call : RaiseCall) : Prop :=
  ∀ claim serial outcome, call.stage = .settleAttempt claim serial outcome →
    ∀ oracle, (call.advance oracle pool.shared).2 = afterOutcome claim outcome ∧
      ∃ row ∈ (call.advance oracle pool.shared).1.attempts,
        row.serial = serial ∧ row.outcome = outcome ∧ row.settlementLeaseUntilMs = none

theorem settlesWithOutcome_of_held {call : RaiseCall}
    (hheld : ∀ flight, call.flight = some flight → flight.Held pool.shared) :
    SettlesWithOutcome pool call := by
  intro claim serial outcome hstage oracle
  obtain ⟨row, hrow, hserial, hkey, -, houtcome⟩ :=
    hheld ⟨call.idempotencyKey, claim.record.escalationId, claim.outcome, serial, true⟩
      (by rw [RaiseCall.flight, hstage])
  have hsettles : settles call.idempotencyKey claim.outcome row = true := by
    simpa [settles] using And.intro hkey houtcome
  have hfound : (pool.shared.settleAttempt call.idempotencyKey claim.outcome outcome).2 = true :=
    List.any_eq_true.2 ⟨row, hrow, hsettles⟩
  simp only [RaiseCall.advance, hstage, hfound, if_true, true_and]
  exact ⟨_, Table.mem_update.2 ⟨row, hrow, .inl ⟨hsettles, rfl⟩⟩, hserial, rfl, rfl⟩

/--
**An in-flight page is never forgotten** in a run whose steps spare the attempts in flight: the
row of every attempt between its claim and its settlement is in the ledger, every settlement
finds it and records what the sink said, and no attempt row has two sink calls.
-/
theorem in_flight_attempts_kept (routing : HumanEscalationKind → HumanEscalationRoute)
    (sharedClock : Bool) {pool : LedgerPool}
    (h : ((escalations routing sharedClock).system
      (fun pool label _ => ∀ move, label = some move → Spares pool move) {}).Reachable pool) :
    (∀ call ∈ pool.running, ∀ flight, call.flight = some flight → flight.Held pool.shared) ∧
      (∀ call, .raise call ∈ pool.running → SettlesWithOutcome pool call) ∧
      pool.shared.sinkCalls.Nodup := by
  have houtline := flight_outline True (fun _ pool move s hguard =>
    hguard move rfl) h
  have hheld := fun call hcall flight hflight => (houtline.2.1 call hcall flight hflight).2 trivial
  exact ⟨hheld, fun call hcall => settlesWithOutcome_of_held (hheld (.raise call) hcall),
    houtline.1.calls⟩

/-! ## An answer during the delivery -/

theorem deleteEscalations_none {cond : EscalationRow → Bool}
    (h : ∀ row ∈ ledger.escalations, cond row = false) :
    ledger.deleteEscalations cond = ledger := by
  have hescalations : Table.delete cond ledger.escalations = ledger.escalations :=
    List.filter_eq_self.2 fun row hrow => by rw [h row hrow]; rfl
  have hattempts : Table.delete (fun attempt => ledger.escalations.any fun row =>
      cond row && row.escalationId = attempt.escalationId) ledger.attempts = ledger.attempts := by
    refine List.filter_eq_self.2 fun attempt _ => ?_
    rw [Bool.not_eq_true', List.any_eq_false]
    intro row hrow
    simp [h row hrow]
  rw [Ledger.deleteEscalations, hescalations, hattempts]

/-- A ring that is not full evicts nothing. -/
theorem evictAnswered_of_le {kind : HumanEscalationKind}
    (h : (ledger.escalations.filter (answeredOf store kind)).length ≤
      store.bounds.maxResolvedRowsPerKind) :
    ledger.evictAnswered store kind = ledger := by
  refine deleteEscalations_none fun row _ => ?_
  have hnone : ledger.beyondRing store kind = [] := by
    refine List.drop_eq_nil_of_le ?_
    rw [List.length_mergeSort]
    exact h
  rw [Ledger.inRing, hnone]
  rfl

theorem pruneAttempts_of_le {escalationId : Uuid} {nowMs : Nat}
    (h : (ledger.attempts.filter (unleased escalationId nowMs)).length ≤
      store.bounds.maxAttemptsPerEscalation - ledger.attempts.countP (leased escalationId nowMs)) :
    ledger.pruneAttempts store escalationId nowMs = ledger := by
  have hnone : ledger.beyondAttemptRing store escalationId nowMs = [] := by
    refine List.drop_eq_nil_of_le ?_
    rw [List.length_mergeSort]
    exact h
  have hattempts : Table.delete (fun attempt =>
      (ledger.beyondAttemptRing store escalationId nowMs).any
        (·.idempotencyKey = attempt.idempotencyKey)) ledger.attempts = ledger.attempts := by
    rw [hnone]
    exact List.filter_eq_self.2 fun attempt _ => rfl
  rw [Ledger.pruneAttempts, hattempts]

section Forgotten

def aStore : HumanEscalationStore where
  bounds :=
    { resolvedRetentionMs := 1000000
      maxResolvedRowsPerKind := 1
      maxAttemptsPerEscalation := 5
      settlementLeaseMs := 1000
      resolvedRetentionMs_pos := by decide
      maxResolvedRowsPerKind_pos := by decide
      maxAttemptsPerEscalation_pos := by decide
      settlementLeaseMs_pos := by decide }
  retentionCompanionId := none

def alertRouting : HumanEscalationKind → HumanEscalationRoute := fun _ =>
  { sink := .operatorAlert, cooldownMs := 1000 }

def firstId : Uuid := ⟨"00000000-0000-1000-8000-000000000001", by decide +kernel⟩

def secondId : Uuid := ⟨"00000000-0000-1000-8000-000000000002", by decide +kernel⟩

def incident (dedupeKey : String) : HumanEscalationFacts where
  kind := .runtimeIncident
  ownerCompanionId := none
  dedupeKey := dedupeKey
  raisedAtMs := 0

def raiseOf (dedupeKey idempotencyKey : String) (stage : RaiseStage) : Call :=
  .raise { store := aStore, route := alertRouting .runtimeIncident, facts := incident dedupeKey
           idempotencyKey, stage }

def answerOf (escalationId : Uuid) (resolvedAtMs : Nat) (stage : ResolveStage) : Call :=
  .resolve { store := aStore, escalationId, state := .resolved, resolvedAtMs, stage }

def firstRow : EscalationRow := newEscalationRow (incident "a") firstId

def secondRow : EscalationRow := newEscalationRow (incident "b") secondId

def answered (row : EscalationRow) (atMs : Nat) : EscalationRow :=
  { row with state := .resolved, resolvedAtMs := some atMs }

def firstClaim : ProvisionalAttempt where
  record := firstRow
  nowMs := 0
  outcome := .deliveryFailed
  awaitingSettlement := true

def firstAttempt : AttemptRow where
  idempotencyKey := "k1"
  escalationId := firstId
  sink := .operatorAlert
  outcome := .deliveryFailed
  attemptedAtMs := 0
  settlementLeaseUntilMs := some 1000
  serial := 0

/-- The ledger while the first page is out. -/
def pagedLedger (escalations : List EscalationRow) : Ledger where
  escalations := escalations
  attempts := [firstAttempt]
  claims := 1
  sinkCalls := [0]

def anOracle (newId : Uuid) : Oracle where
  nowMs := 0
  newId := newId
  answer := none

abbrev InTime (pool : LedgerPool) (label : Option Move) (_ : Ledger) : Prop :=
  ∀ move, label = some move → LeasesHold pool move

abbrev Reached (guard : LedgerPool → Option Move → Ledger → Prop) (ledger : Ledger)
    (running : List Call) : Prop :=
  ((escalations alertRouting true).system guard {}).Reachable ⟨ledger, running⟩

theorem spares_of_no_flight (h : ∀ call ∈ pool.running, call.flight = none) (move : Move) :
    Spares pool move where
  evictions := fun call hcall flight hflight => by
    rw [h call hcall] at hflight
    cases hflight
  leases := fun call hcall flight hflight => by
    rw [h call hcall] at hflight
    cases hflight

/-- A step of the first call in the list. -/
theorem next_of_advance {guard : LedgerPool → Option Move → Ledger → Prop} {call' : Call}
    {rest : List Call} (oracle : Oracle) (h : Reached guard ledger (call :: rest))
    (hclock : oracle.nowMs = ledger.clock)
    (hadvance : call.advance oracle ledger = (ledger', call'))
    (hguard : guard ⟨ledger, call :: rest⟩ (some ⟨call, oracle⟩) ledger') :
    Reached guard ledger' (call' :: rest) :=
  h.next ⟨some ⟨call, oracle⟩, Interleaving.Step.first ⟨rfl, fun _ => hclock, hadvance⟩, hguard⟩

theorem next_of_raise {guard : LedgerPool → Option Move → Ledger → Prop} {running : List Call}
    (dedupeKey idempotencyKey : String) (h : Reached guard ledger running)
    (hguard : guard ⟨ledger, running⟩ none ledger) :
    Reached guard ledger (raiseOf dedupeKey idempotencyKey .findAttempt :: running) :=
  h.next ⟨none, Interleaving.Step.start (.inl ⟨_, _, _, rfl⟩), hguard⟩

theorem next_of_answer {guard : LedgerPool → Option Move → Ledger → Prop} {running : List Call}
    (escalationId : Uuid) (resolvedAtMs : Nat) (h : Reached guard ledger running)
    (hguard : guard ⟨ledger, running⟩ none ledger) :
    Reached guard ledger (answerOf escalationId resolvedAtMs .getById :: running) :=
  h.next ⟨none, Interleaving.Step.start (.inr ⟨_, _, _, _, rfl⟩), hguard⟩

/-- A raise pages, and its sink call is out. -/
theorem paged_reachable {guard : LedgerPool → Option Move → Ledger → Prop}
    (hguard : ∀ pool label s, pool.shared.notices = [] →
      (∀ move, label = some move → Spares pool move ∧ move.oracle.answer = none) →
      guard pool label s) :
    Reached guard (pagedLedger [firstRow]) [raiseOf "a" "k1" (.deliver firstClaim 0)] := by
  have hidle : ∀ ledger stage s, ledger.notices = [] → (raiseOf "a" "k1" stage).flight = none →
      guard ⟨ledger, [raiseOf "a" "k1" stage]⟩
        (some ⟨raiseOf "a" "k1" stage, anOracle firstId⟩) s := by
    intro ledger stage s hnotices hflight
    refine hguard _ _ _ hnotices fun move hmove => ⟨spares_of_no_flight (fun call hcall => ?_) move,
      ?_⟩
    · rw [List.mem_singleton.1 hcall, hflight]
    · rw [← Option.some.inj hmove]
      rfl
  have hinit : Reached guard {} [] := Relation.ReflTransGen.refl
  have hstarted := next_of_raise "a" "k1" hinit
    (hguard _ _ _ rfl fun move hmove => Option.noConfusion rfl (heq_of_eq hmove))
  have hlooked : Reached guard {} [raiseOf "a" "k1" .openOrReopen] :=
    next_of_advance (anOracle firstId) hstarted rfl rfl (hidle _ _ _ rfl rfl)
  have hopened : Reached guard { escalations := [firstRow] }
      [raiseOf "a" "k1" (.expireAnswered firstRow)] :=
    next_of_advance (anOracle firstId) hlooked rfl rfl (hidle _ _ _ rfl rfl)
  have hexpired : Reached guard { escalations := [firstRow] }
      [raiseOf "a" "k1" (.evictAnswered firstRow)] :=
    next_of_advance (anOracle firstId) hopened rfl rfl (hidle _ _ _ rfl rfl)
  have hevicted : Reached guard { escalations := [firstRow] }
      [raiseOf "a" "k1" (.readClock firstRow)] := by
    refine next_of_advance (anOracle firstId) hexpired rfl ?_ (hidle _ _ _ rfl rfl)
    simp only [Call.advance, raiseOf, RaiseCall.advance]
    rw [evictAnswered_of_le (by decide)]
  have htimed : Reached guard { escalations := [firstRow] }
      [raiseOf "a" "k1" (.claimAttempt firstClaim)] :=
    next_of_advance (anOracle firstId) hevicted rfl rfl (hidle _ _ _ rfl rfl)
  have hclaimed : Reached guard { pagedLedger [firstRow] with sinkCalls := [] }
      [raiseOf "a" "k1" (.pruneAttempts firstClaim 0)] :=
    next_of_advance (anOracle firstId) htimed rfl rfl (hidle _ _ _ rfl rfl)
  refine next_of_advance (anOracle firstId) hclaimed rfl ?_ (hguard _ _ _ rfl ?_)
  · simp only [Call.advance, raiseOf, RaiseCall.advance]
    rw [pruneAttempts_of_le (by decide)]
    rfl
  · rintro move hmove
    obtain rfl := Option.some.inj hmove
    refine ⟨⟨fun call _ flight _ row _ hevicts => Bool.noConfusion hevicts, ?_⟩, rfl⟩
    intro call _ flight _ _ row hrow _
    rw [List.mem_singleton.1 hrow]
    rfl

theorem newest_second : ([answered firstRow 1, answered secondRow 2]).mergeSort newestAnswerFirst =
    [answered secondRow 2, answered firstRow 1] := by
  have horder : newestAnswerFirst (answered firstRow 1) (answered secondRow 2) = false := by
    decide +kernel
  simp [List.mergeSort, horder, List.MergeSort.Internal.splitInTwo]

/-- With both conditions answered, the ring of one row keeps the second. -/
theorem evict_first : (pagedLedger [answered firstRow 1, answered secondRow 2]).evictAnswered aStore
    .runtimeIncident = { pagedLedger [answered secondRow 2] with attempts := [] } := by
  have hranked : ([answered firstRow 1, answered secondRow 2]).filter
      (answeredOf aStore .runtimeIncident) = [answered firstRow 1, answered secondRow 2] := rfl
  have hring : (pagedLedger [answered firstRow 1, answered secondRow 2]).beyondRing aStore
      .runtimeIncident = [answered firstRow 1] := by
    show (List.mergeSort (List.filter _ [answered firstRow 1, answered secondRow 2]) _).drop 1 = _
    rw [hranked, newest_second]
    rfl
  have hfirst : (pagedLedger [answered firstRow 1, answered secondRow 2]).inRing aStore
      .runtimeIncident (answered firstRow 1) = true := by
    rw [Ledger.inRing, hring]
    decide +kernel
  have hsecond : (pagedLedger [answered firstRow 1, answered secondRow 2]).inRing aStore
      .runtimeIncident (answered secondRow 2) = false := by
    rw [Ledger.inRing, hring]
    decide +kernel
  have hescalations : Table.delete ((pagedLedger [answered firstRow 1, answered secondRow 2]).inRing
      aStore .runtimeIncident) [answered firstRow 1, answered secondRow 2] =
        [answered secondRow 2] := by
    simp [Table.delete, hfirst, hsecond]
  have hattempts : Table.delete (fun attempt => [answered firstRow 1, answered secondRow 2].any
      fun row => (pagedLedger [answered firstRow 1, answered secondRow 2]).inRing aStore
        .runtimeIncident row && row.escalationId = attempt.escalationId) [firstAttempt] = [] := by
    have hid : (answered firstRow 1).escalationId = firstAttempt.escalationId := rfl
    simp [Table.delete, hfirst, hid]
  show Ledger.deleteEscalations _ _ = _
  rw [Ledger.deleteEscalations]
  show Ledger.mk (Table.delete _ [answered firstRow 1, answered secondRow 2])
    (Table.delete _ [firstAttempt]) 1 [0] [] 0 = _
  rw [hescalations]
  exact congrArg (fun attempts => Ledger.mk [answered secondRow 2] attempts 1 [0] [] 0) hattempts

/-- While the page is out, a human answers its escalation, another condition of the kind is raised
and answered, and the ring evicts the first escalation with its attempt. -/
theorem forgotten_reachable :
    Reached InTime { pagedLedger [answered secondRow 2] with attempts := [] }
      [answerOf secondId 2 .ended, raiseOf "b" "k2" (.expireAnswered secondRow),
        answerOf firstId 1 .ended, raiseOf "a" "k1" (.deliver firstClaim 0)] := by
  -- no step after the claim takes the attempt ring
  have hleases : ∀ ledger running call oracle s, call.prunes = none →
      InTime ⟨ledger, running⟩ (some ⟨call, oracle⟩) s := by
    intro ledger running call oracle s hprunes move hmove other _ flight _ hring
    obtain rfl := Option.some.inj hmove
    rw [hprunes] at hring
    cases hring
  have hstart : ∀ ledger running s, InTime ⟨ledger, running⟩ none s :=
    fun _ _ _ move hmove => Option.noConfusion rfl (heq_of_eq hmove)
  have hpaged : Reached InTime (pagedLedger [firstRow])
      [raiseOf "a" "k1" (.deliver firstClaim 0)] :=
    paged_reachable fun pool label s _ h move hmove => (h move hmove).1.leases
  have hanswering := next_of_answer firstId 1 hpaged (hstart _ _ _)
  have hread : Reached InTime (pagedLedger [firstRow])
      [answerOf firstId 1 (.applyResolution .opened), raiseOf "a" "k1" (.deliver firstClaim 0)] :=
    next_of_advance (anOracle firstId) hanswering rfl rfl (hleases _ _ _ _ _ rfl)
  have happlied : Reached InTime (pagedLedger [answered firstRow 1])
      [answerOf firstId 1 (.expireAnswered .runtimeIncident),
        raiseOf "a" "k1" (.deliver firstClaim 0)] :=
    next_of_advance (anOracle firstId) hread rfl rfl (hleases _ _ _ _ _ rfl)
  have hexpired : Reached InTime (pagedLedger [answered firstRow 1])
      [answerOf firstId 1 (.evictAnswered .runtimeIncident),
        raiseOf "a" "k1" (.deliver firstClaim 0)] :=
    next_of_advance (anOracle firstId) happlied rfl rfl (hleases _ _ _ _ _ rfl)
  have hanswered : Reached InTime (pagedLedger [answered firstRow 1])
      [answerOf firstId 1 .ended, raiseOf "a" "k1" (.deliver firstClaim 0)] := by
    refine next_of_advance (anOracle firstId) hexpired rfl ?_ (hleases _ _ _ _ _ rfl)
    simp only [Call.advance, answerOf, ResolveCall.advance]
    rw [evictAnswered_of_le (by decide)]
  have hraising := next_of_raise "b" "k2" hanswered (hstart _ _ _)
  have hlooked : Reached InTime (pagedLedger [answered firstRow 1])
      [raiseOf "b" "k2" .openOrReopen, answerOf firstId 1 .ended,
        raiseOf "a" "k1" (.deliver firstClaim 0)] :=
    next_of_advance (anOracle secondId) hraising rfl rfl (hleases _ _ _ _ _ rfl)
  have hopened : Reached InTime (pagedLedger [answered firstRow 1, secondRow])
      [raiseOf "b" "k2" (.expireAnswered secondRow), answerOf firstId 1 .ended,
        raiseOf "a" "k1" (.deliver firstClaim 0)] :=
    next_of_advance (anOracle secondId) hlooked rfl rfl (hleases _ _ _ _ _ rfl)
  have hanswering' := next_of_answer secondId 2 hopened (hstart _ _ _)
  have hread' : Reached InTime (pagedLedger [answered firstRow 1, secondRow])
      [answerOf secondId 2 (.applyResolution .opened), raiseOf "b" "k2" (.expireAnswered secondRow),
        answerOf firstId 1 .ended, raiseOf "a" "k1" (.deliver firstClaim 0)] :=
    next_of_advance (anOracle firstId) hanswering' rfl rfl (hleases _ _ _ _ _ rfl)
  have happlied' : Reached InTime (pagedLedger [answered firstRow 1, answered secondRow 2])
      [answerOf secondId 2 (.expireAnswered .runtimeIncident),
        raiseOf "b" "k2" (.expireAnswered secondRow), answerOf firstId 1 .ended,
        raiseOf "a" "k1" (.deliver firstClaim 0)] :=
    next_of_advance (anOracle firstId) hread' rfl rfl (hleases _ _ _ _ _ rfl)
  have hexpired' : Reached InTime (pagedLedger [answered firstRow 1, answered secondRow 2])
      [answerOf secondId 2 (.evictAnswered .runtimeIncident),
        raiseOf "b" "k2" (.expireAnswered secondRow), answerOf firstId 1 .ended,
        raiseOf "a" "k1" (.deliver firstClaim 0)] :=
    next_of_advance (anOracle firstId) happlied' rfl rfl (hleases _ _ _ _ _ rfl)
  refine next_of_advance (anOracle firstId) hexpired' rfl ?_ (hleases _ _ _ _ _ rfl)
  simp only [Call.advance, answerOf, ResolveCall.advance]
  rw [evict_first]

/-- **A page that a human answers while it is out can be forgotten**: its attempt row is deleted
with the escalation although the lease holds. -/
theorem answered_page_forgotten :
    ¬ ∀ (routing : HumanEscalationKind → HumanEscalationRoute) (pool : LedgerPool),
      ((escalations routing true).system InTime {}).Reachable pool →
      ∀ call ∈ pool.running, ∀ flight, call.flight = some flight → flight.Held pool.shared := by
  intro h
  obtain ⟨row, hrow, -⟩ := h alertRouting _ forgotten_reachable
    (raiseOf "a" "k1" (.deliver firstClaim 0)) (by simp) _ rfl
  exact absurd hrow List.not_mem_nil

/-- A page that is out keeps its attempt row. -/
theorem in_flight_attempts_kept_paged :
    ∃ flight, (raiseOf "a" "k1" (.deliver firstClaim 0)).flight = some flight ∧
      flight.Held (pagedLedger [firstRow]) :=
  ⟨_, rfl, (in_flight_attempts_kept alertRouting true
    (paged_reachable fun _ _ _ _ h move hmove => (h move hmove).1)).1 _
      (List.mem_singleton_self _) _ rfl⟩

end Forgotten

end Psfn.Escalation
