import Psfn.Escalation.InFlight

/-!
# The cooldown of a condition

A raise decides on the stamp of the row that `openOrReopen` returned, and stamps the row after
the sink has answered. Two raises that overlap decide on the same stamp; a stamp that is not
made, or that goes with an evicted row, is not seen by the next raise.

* `cooldown_of_current` — while every raise decides on the stamps of the notices within its
  cooldown, and no notice is delivered while another raise is about to page within it, delivered
  notices are a cooldown apart; an open escalation stays until a human moves it;
* `overlapping_raises_page_twice` — two overlapping raises page twice.
-/

namespace Psfn.Escalation

open Psfn.Lib

/-! ## Decisions -/

/-- The claim of a raise that decided to page, until the sink has answered. -/
def RaiseCall.decided (call : RaiseCall) : Option ProvisionalAttempt :=
  match call.stage with
  | .claimAttempt claim => if claim.awaitingSettlement then some claim else none
  | .pruneAttempts claim _ => if claim.awaitingSettlement then some claim else none
  | .deliver claim _ => some claim
  | _ => none

/-- The notice reached a human, about this condition. -/
def Notice.reached (facts : HumanEscalationFacts) (notice : Notice) : Bool :=
  notice.outcome = .delivered && notice.kind = facts.kind && notice.dedupeKey = facts.dedupeKey

/-- The stamp of the row is not before the notice. -/
def EscalationRow.stamps (row : EscalationRow) (notice : Notice) : Prop :=
  ∃ last, row.lastNotifiedAtMs = some last ∧ notice.atMs ≤ last

theorem provisionalAttempt_spec (route : HumanEscalationRoute) (record : EscalationRow)
    (nowMs : Nat) : (provisionalAttempt route record nowMs).record = record ∧
      (provisionalAttempt route record nowMs).nowMs = nowMs ∧
      ((provisionalAttempt route record nowMs).awaitingSettlement = true →
        withinCooldown route record nowMs = false) := by
  unfold provisionalAttempt
  split
  · exact ⟨rfl, rfl, fun h => Bool.noConfusion h⟩
  · rename_i houtside
    cases route.sink with
    | gardenOnly => exact ⟨rfl, rfl, fun h => Bool.noConfusion h⟩
    | operatorAlert => exact ⟨rfl, rfl, fun _ => Bool.eq_false_iff.2 houtside⟩

variable {oracle : Oracle} {call : RaiseCall} {ledger : Ledger}

/-- A raise decides to page when it reads the clock, outside the cooldown of the row it opened. -/
theorem decided_advance {claim : ProvisionalAttempt}
    (h : ({ call with stage := (call.advance oracle ledger).2 } : RaiseCall).decided =
      some claim) :
    call.decided = some claim ∨ ∃ record, call.stage = .readClock record ∧
      claim.nowMs = oracle.nowMs ∧ withinCooldown call.route record oracle.nowMs = false := by
  obtain ⟨store, route, facts, key, stage⟩ := call
  have hended : ∀ old outcome,
      ({ store, route, facts, idempotencyKey := key, stage := afterOutcome old outcome } :
        RaiseCall).decided = none := fun old outcome => by cases outcome <;> rfl
  cases stage with
  | findAttempt =>
    simp only [RaiseCall.advance] at h
    split at h <;> cases h
  | openOrReopen =>
    simp only [RaiseCall.advance] at h
    split at h <;> cases h
  | expireAnswered record => cases h
  | evictAnswered record => cases h
  | readClock opened =>
    obtain ⟨-, hnow, houtside⟩ := provisionalAttempt_spec route opened oracle.nowMs
    simp only [RaiseCall.advance, RaiseCall.decided, Option.ite_none_right_eq_some,
      Option.some.injEq] at h
    obtain ⟨hawaiting, rfl⟩ := h
    exact .inr ⟨opened, rfl, hnow, houtside hawaiting⟩
  | claimAttempt old =>
    simp only [RaiseCall.advance] at h
    split at h
    · exact .inl h
    · cases h
    · cases h
  | readBack =>
    simp only [RaiseCall.advance] at h
    split at h <;> cases h
  | pruneAttempts old serial =>
    simp only [RaiseCall.advance, afterClaim] at h
    split at h
    · rename_i hawaiting
      refine .inl ?_
      simp only [RaiseCall.decided, hawaiting, if_true] at h ⊢
      exact h
    · split at h
      · cases h
      · rw [hended] at h
        cases h
  | deliver old serial => cases h
  | settleAttempt old serial outcome =>
    simp only [RaiseCall.advance] at h
    split at h
    · rw [hended] at h
      cases h
    · cases h
  | markNotified old =>
    simp only [RaiseCall.advance] at h
    split at h <;> cases h
  | ended result => cases h

/-- Only the answer of a sink adds a notice. -/
theorem notices_advance (oracle : Oracle) (call : RaiseCall) (ledger : Ledger) :
    (call.advance oracle ledger).1.notices = ledger.notices ∨
      ∃ claim serial, call.stage = .deliver claim serial ∧
        (call.advance oracle ledger).1.notices =
          { serial, kind := call.facts.kind, dedupeKey := call.facts.dedupeKey
            atMs := claim.nowMs, outcome := oracle.answer.getD .deliveryFailed } ::
            ledger.notices := by
  obtain ⟨store, route, facts, key, stage⟩ := call
  cases stage with
  | findAttempt =>
    simp only [RaiseCall.advance]
    split <;> exact .inl rfl
  | openOrReopen =>
    simp only [RaiseCall.advance]
    split
    · rename_i ledger' record hopened
      unfold Ledger.openOrReopen at hopened
      split at hopened
      · obtain ⟨rfl, -⟩ := Prod.mk.inj (Except.ok.inj hopened)
        exact .inl rfl
      · split at hopened
        · cases hopened
        · obtain ⟨rfl, -⟩ := Prod.mk.inj (Except.ok.inj hopened)
          exact .inl rfl
    · exact .inl rfl
  | expireAnswered record => exact .inl rfl
  | evictAnswered record => exact .inl rfl
  | readClock record => exact .inl rfl
  | claimAttempt claim =>
    simp only [RaiseCall.advance, Ledger.claimAttempt]
    split
    · rename_i hclaimed
      split at hclaimed
      · cases hclaimed
      · split at hclaimed
        · obtain ⟨rfl, -⟩ := Prod.mk.inj (Except.ok.inj hclaimed)
          exact .inl rfl
        · cases hclaimed
    · rename_i hclaimed
      split at hclaimed
      · obtain ⟨rfl, -⟩ := Prod.mk.inj (Except.ok.inj hclaimed)
        exact .inl rfl
      · split at hclaimed
        · cases (Prod.mk.inj (Except.ok.inj hclaimed)).2
        · cases hclaimed
    · exact .inl rfl
  | readBack =>
    simp only [RaiseCall.advance]
    split <;> exact .inl rfl
  | pruneAttempts claim serial =>
    simp only [RaiseCall.advance]
    split <;> exact .inl rfl
  | deliver claim serial => exact .inr ⟨claim, serial, rfl, rfl⟩
  | settleAttempt claim serial outcome => exact .inl rfl
  | markNotified claim => exact .inl rfl
  | ended result => exact .inl rfl

theorem notices_resolve (oracle : Oracle) (call : ResolveCall) (ledger : Ledger) :
    (call.advance oracle ledger).1.notices = ledger.notices := by
  obtain ⟨store, escalationId, state, resolvedAtMs, stage⟩ := call
  cases stage with
  | getById =>
    simp only [ResolveCall.advance]
    split
    · rfl
    · split <;> rfl
  | applyResolution expectedState => rfl
  | expireAnswered kind => rfl
  | evictAnswered kind => rfl
  | ended => rfl

/-! ## Delivered notices are a cooldown apart -/

/-- The two times differ by a cooldown. -/
def Spaced (cooldownMs a b : Nat) : Prop := a + cooldownMs ≤ b ∨ b + cooldownMs ≤ a

/-- **The step respects the cooldown of the condition**: a raise decides on a row that carries
the stamp of every notice that was delivered within the cooldown, and no notice is delivered
while another raise has decided to page within it. -/
structure DecidesOnStamps (pool : LedgerPool) (move : Move) : Prop where
  current : ∀ raise record, move.call = .raise raise → raise.stage = .readClock record →
    ∀ notice ∈ pool.shared.notices, notice.reached raise.facts = true →
    move.oracle.nowMs < notice.atMs + raise.route.cooldownMs → record.stamps notice
  alone   : ∀ raise claim serial, move.call = .raise raise → raise.stage = .deliver claim serial →
    move.oracle.answer = some .delivered →
    ∀ other decided, .raise other ∈ pool.running → other ≠ raise →
      other.facts.kind = raise.facts.kind → other.facts.dedupeKey = raise.facts.dedupeKey →
      other.decided = some decided →
      Spaced raise.route.cooldownMs claim.nowMs decided.nowMs

/-- A raise that decided to page did so a cooldown apart from every notice that reached a human. -/
structure RaiseCall.Informed (routing : HumanEscalationKind → HumanEscalationRoute)
    (ledger : Ledger) (call : RaiseCall) : Prop where
  route  : call.route = routing call.facts.kind
  spaced : 0 < call.route.cooldownMs → ∀ claim, call.decided = some claim →
    ∀ notice ∈ ledger.notices, notice.reached call.facts = true →
    Spaced call.route.cooldownMs notice.atMs claim.nowMs

/-- Two notices that reached a human about one condition are a cooldown apart. -/
def CooldownApart (routing : HumanEscalationKind → HumanEscalationRoute) (a b : Notice) : Prop :=
  a.outcome = .delivered → b.outcome = .delivered → b.kind = a.kind → b.dedupeKey = a.dedupeKey →
    0 < (routing a.kind).cooldownMs → Spaced (routing a.kind).cooldownMs b.atMs a.atMs

/-- Outside the cooldown, the raise is a cooldown after every stamped notice. -/
theorem cooldown_of_stamps {route : HumanEscalationRoute} {record : EscalationRow} {nowMs : Nat}
    {notice : Notice} (houtside : withinCooldown route record nowMs = false)
    (hstamps : record.stamps notice) (hpositive : 0 < route.cooldownMs) :
    notice.atMs + route.cooldownMs ≤ nowMs := by
  obtain ⟨last, hlast, hnotice⟩ := hstamps
  unfold withinCooldown at houtside
  rw [hlast, decide_eq_true hpositive, Bool.true_and, Option.any_some] at houtside
  have hafter := of_decide_eq_false houtside
  omega

variable {routing : HumanEscalationKind → HumanEscalationRoute}

/-- What a raise knows after its own step. -/
theorem RaiseCall.Informed.step {pool : LedgerPool} {oracle : Oracle} {call : RaiseCall}
    (h : call.Informed routing pool.shared)
    (hstamps : DecidesOnStamps pool ⟨.raise call, oracle⟩) :
    ({ call with stage := (call.advance oracle pool.shared).2 } : RaiseCall).Informed routing
      (call.advance oracle pool.shared).1 := by
  refine ⟨h.route, fun hpositive claim hdecided notice hnotice hreached => ?_⟩
  rcases notices_advance oracle call pool.shared with hsame | ⟨old, serial, hstage, -⟩
  · rw [hsame] at hnotice
    rcases decided_advance hdecided with hbefore | ⟨record, hstage, hnow, houtside⟩
    · exact h.spaced hpositive claim hbefore notice hnotice hreached
    · -- a notice is stamped, or older than the cooldown
      rw [hnow]
      by_cases hwithin : oracle.nowMs < notice.atMs + call.route.cooldownMs
      · exact .inl (cooldown_of_stamps houtside
          (hstamps.current call record rfl hstage notice hnotice hreached hwithin) hpositive)
      · exact .inl (Nat.le_of_not_lt hwithin)
  · -- once the sink has answered, the page is decided no more
    rw [RaiseCall.advance, hstage] at hdecided
    cases hdecided

variable {pool : LedgerPool}

/-- What another raise knows after the step. -/
theorem RaiseCall.Informed.other {other : RaiseCall} (h : other.Informed routing pool.shared)
    (hcall : call.route = routing call.facts.kind) (hother : .raise other ∈ pool.running)
    (hserials : Apart (.raise call) (.raise other))
    (hstamps : DecidesOnStamps pool ⟨.raise call, oracle⟩) :
    other.Informed routing (call.advance oracle pool.shared).1 := by
  refine ⟨h.route, fun hpositive decided hdecided notice hnotice hreached => ?_⟩
  rcases notices_advance oracle call pool.shared with hsame | ⟨claim, serial, hstage, hadded⟩
  · exact h.spaced hpositive decided hdecided notice (hsame ▸ hnotice) hreached
  · rw [hadded] at hnotice
    rcases List.mem_cons.1 hnotice with rfl | hnotice
    · simp only [Notice.reached, Bool.and_eq_true, decide_eq_true_eq] at hreached
      obtain ⟨⟨hdelivered, hkind⟩, hkey⟩ := hreached
      have hanswer : oracle.answer = some .delivered := by
        cases hcases : oracle.answer with
        | none => simp [hcases] at hdelivered
        | some answer => simpa [hcases] using hdelivered
      -- a raise shares no attempt row with itself
      have hne : other ≠ call := by
        rintro rfl
        have hflight : (Call.raise other).flight = some ⟨other.idempotencyKey,
            claim.record.escalationId, claim.outcome, serial, true⟩ := by
          rw [Call.flight, RaiseCall.flight, hstage]
        exact hserials _ _ hflight hflight rfl
      have hspaced := hstamps.alone call claim serial rfl hstage hanswer other decided hother hne
        hkind.symm hkey.symm hdecided
      rw [hcall, show call.facts.kind = other.facts.kind from hkind, ← h.route] at hspaced
      exact hspaced
    · exact h.spaced hpositive decided hdecided notice hnotice hreached

/-- The notices after a step are a cooldown apart. -/
theorem cooldownApart_step (hspaced : pool.shared.notices.Pairwise (CooldownApart routing))
    (h : call.Informed routing pool.shared) :
    (call.advance oracle pool.shared).1.notices.Pairwise (CooldownApart routing) := by
  rcases notices_advance oracle call pool.shared with hsame | ⟨claim, serial, hstage, hadded⟩
  · rw [hsame]
    exact hspaced
  · rw [hadded]
    refine List.pairwise_cons.2 ⟨fun earlier hearlier _ hdelivered hkind hkey hpositive => ?_,
      hspaced⟩
    have hdecided : call.decided = some claim := by rw [RaiseCall.decided, hstage]
    have hapart := h.spaced (by rw [h.route]; exact hpositive) claim hdecided earlier hearlier
      (by simp [Notice.reached, hdelivered, hkind, hkey])
    rw [h.route] at hapart
    exact hapart

/-! ## Open escalations -/

/-- What a step does to the escalations. -/
inductive EscalationChange (ledger : Ledger) (call : Call) (oracle : Oracle) :
    List EscalationRow → Prop
  | same : EscalationChange ledger call oracle ledger.escalations
  | insert (row : EscalationRow)
    (hfresh : ∀ old ∈ ledger.escalations, old.escalationId ≠ row.escalationId) :
    EscalationChange ledger call oracle (ledger.escalations ++ [row])
  /-- A raise reopens or stamps a row. -/
  | raised (cond : EscalationRow → Bool) (set : EscalationRow → EscalationRow)
    (hid : ∀ row, (set row).escalationId = row.escalationId)
    (hopen : ∀ row, row.state = .opened → (set row).state = .opened) :
    EscalationChange ledger call oracle (Table.update cond set ledger.escalations)
  | evict : EscalationChange ledger call oracle
      (Table.delete (call.evicts oracle ledger) ledger.escalations)
  | answer (resolve : ResolveCall) (expectedState : HumanEscalationState)
    (hcall : call = .resolve resolve) (hstage : resolve.stage = .applyResolution expectedState) :
    EscalationChange ledger call oracle
      (ledger.applyResolution resolve.escalationId expectedState resolve.state
        resolve.resolvedAtMs).1.escalations

theorem RaiseCall.advance_escalations (oracle : Oracle) (call : RaiseCall) (ledger : Ledger) :
    EscalationChange ledger (.raise call) oracle (call.advance oracle ledger).1.escalations := by
  obtain ⟨store, route, facts, key, stage⟩ := call
  cases stage with
  | findAttempt =>
    simp only [RaiseCall.advance]
    split <;> exact .same
  | openOrReopen =>
    simp only [RaiseCall.advance]
    split
    · rename_i ledger' record hopened
      unfold Ledger.openOrReopen at hopened
      split at hopened
      · obtain ⟨rfl, -⟩ := Prod.mk.inj (Except.ok.inj hopened)
        exact .raised _ _ (fun _ => rfl) fun _ _ => rfl
      · split at hopened
        · cases hopened
        · rename_i hfresh
          obtain ⟨rfl, -⟩ := Prod.mk.inj (Except.ok.inj hopened)
          refine .insert _ fun old hold hid => hfresh (List.any_eq_true.2 ⟨old, hold, ?_⟩)
          exact decide_eq_true hid
    · exact .same
  | expireAnswered record => exact .evict
  | evictAnswered record => exact .evict
  | readClock record => exact .same
  | claimAttempt claim =>
    simp only [RaiseCall.advance, Ledger.claimAttempt]
    split
    · rename_i hclaimed
      split at hclaimed
      · cases hclaimed
      · split at hclaimed
        · obtain ⟨rfl, -⟩ := Prod.mk.inj (Except.ok.inj hclaimed)
          exact .same
        · cases hclaimed
    · rename_i hclaimed
      split at hclaimed
      · obtain ⟨rfl, -⟩ := Prod.mk.inj (Except.ok.inj hclaimed)
        exact .same
      · split at hclaimed
        · cases (Prod.mk.inj (Except.ok.inj hclaimed)).2
        · cases hclaimed
    · exact .same
  | readBack =>
    simp only [RaiseCall.advance]
    split <;> exact .same
  | pruneAttempts claim serial =>
    simp only [RaiseCall.advance]
    split <;> exact .same
  | deliver claim serial => exact .same
  | settleAttempt claim serial outcome => exact .same
  | markNotified claim => exact .raised _ _ (fun _ => rfl) fun _ hopen => hopen
  | ended result => exact .same

theorem ResolveCall.advance_escalations (oracle : Oracle) (call : ResolveCall)
    (ledger : Ledger) :
    EscalationChange ledger (.resolve call) oracle (call.advance oracle ledger).1.escalations := by
  obtain ⟨store, escalationId, state, resolvedAtMs, stage⟩ := call
  cases stage with
  | getById =>
    simp only [ResolveCall.advance]
    split
    · exact .same
    · split <;> exact .same
  | applyResolution expectedState => exact .answer _ expectedState rfl rfl
  | expireAnswered kind => exact .evict
  | evictAnswered kind => exact .evict
  | ended => exact .same

/-- **Every step does one of the changes to the escalations.** -/
theorem Call.advance_escalations {call call' : Call} {ledger' : Ledger}
    (h : call.advance oracle ledger = (ledger', call')) :
    EscalationChange ledger call oracle ledger'.escalations := by
  cases call with
  | raise raise =>
    obtain ⟨rfl, -⟩ := Prod.mk.inj h
    exact raise.advance_escalations oracle ledger
  | resolve resolve =>
    obtain ⟨rfl, -⟩ := Prod.mk.inj h
    exact resolve.advance_escalations oracle ledger

theorem EscalationChange.keyed {call : Call} {escalations : List EscalationRow}
    (h : EscalationChange ledger call oracle escalations)
    (hkeys : Table.Keyed EscalationRow.escalationId ledger.escalations) :
    Table.Keyed EscalationRow.escalationId escalations := by
  cases h with
  | same => exact hkeys
  | insert row hfresh => exact hkeys.insert hfresh
  | raised cond set hid _ => exact hkeys.update hid
  | evict => exact hkeys.delete _
  | answer resolve expectedState _ _ => exact hkeys.update fun _ => rfl

variable {row : EscalationRow}

/-- The ring ranks answered rows only. -/
theorem inRing_answered {store : HumanEscalationStore} {kind : HumanEscalationKind}
    (hkeys : Table.Keyed EscalationRow.escalationId ledger.escalations)
    (hrow : row ∈ ledger.escalations) (h : ledger.inRing store kind row = true) :
    row.state ≠ .opened := by
  obtain ⟨other, hother, hid⟩ := List.any_eq_true.1 h
  have hranked := List.mem_mergeSort.1 (List.mem_of_mem_drop hother)
  obtain ⟨hotherRow, hanswered⟩ := List.mem_filter.1 hranked
  obtain rfl := hkeys.unique hotherRow hrow (of_decide_eq_true hid)
  simp only [answeredOf, Bool.and_eq_true, decide_eq_true_eq] at hanswered
  exact hanswered.1.2

theorem expired_answered {store : HumanEscalationStore} {nowMs : Nat}
    (h : expired store nowMs row = true) : row.state ≠ .opened := by
  simp only [expired, Bool.and_eq_true, decide_eq_true_eq] at h
  exact h.1.1.2

/-- The evictions select answered rows only. -/
theorem evicts_answered {call : Call}
    (hkeys : Table.Keyed EscalationRow.escalationId ledger.escalations)
    (hrow : row ∈ ledger.escalations) (h : call.evicts oracle ledger row = true) :
    row.state ≠ .opened := by
  cases call with
  | raise call =>
    obtain ⟨store, route, facts, key, stage⟩ := call
    cases stage with
    | expireAnswered record => exact expired_answered h
    | evictAnswered record => exact inRing_answered hkeys hrow h
    | _ => exact Bool.noConfusion (show false = true from h)
  | resolve call =>
    obtain ⟨store, escalationId, state, resolvedAtMs, stage⟩ := call
    cases stage with
    | expireAnswered kind => exact expired_answered h
    | evictAnswered kind => exact inRing_answered hkeys hrow h
    | _ => exact Bool.noConfusion (show false = true from h)

/-- The call is a human's, and its transition of the row is admitted. -/
def AdmitsHuman (row : EscalationRow) : Call → Prop
  | .raise _ => False
  | .resolve call => call.escalationId = row.escalationId ∧
      call.stage = .applyResolution row.state ∧ allowedHumanTransition row.state call.state = true

/-- The open row is still there, and open unless a human was admitted to move it. -/
def StaysOpen (label : Option Move) (escalations : List EscalationRow) (row : EscalationRow) :
    Prop :=
  ∃ row' ∈ escalations, row'.escalationId = row.escalationId ∧
    (row'.state = .opened ∨ ∃ move, label = some move ∧ AdmitsHuman row move.call)

theorem EscalationChange.staysOpen {move : Move} {escalations : List EscalationRow}
    (h : EscalationChange ledger move.call move.oracle escalations)
    (hkeys : Table.Keyed EscalationRow.escalationId ledger.escalations)
    (hrow : row ∈ ledger.escalations) (hopen : row.state = .opened) :
    StaysOpen (some move) escalations row := by
  cases h with
  | same => exact ⟨row, hrow, rfl, .inl hopen⟩
  | insert new _ => exact ⟨row, List.mem_append_left _ hrow, rfl, .inl hopen⟩
  | raised cond set hid hkept =>
    by_cases hcond : cond row = true
    · exact ⟨set row, Table.mem_update.2 ⟨row, hrow, .inl ⟨hcond, rfl⟩⟩, hid row,
        .inl (hkept row hopen)⟩
    · exact ⟨row, Table.mem_update.2 ⟨row, hrow, .inr ⟨Bool.eq_false_iff.2 hcond, rfl⟩⟩, rfl,
        .inl hopen⟩
  | evict =>
    refine ⟨row, Table.mem_delete.2 ⟨hrow, Bool.eq_false_iff.2 fun hevicted => ?_⟩, rfl, .inl hopen⟩
    exact evicts_answered hkeys hrow hevicted hopen
  | answer resolve expectedState hcall hstage =>
    by_cases hresolves : resolves resolve.escalationId expectedState row = true
    · refine ⟨_, Table.mem_update.2 ⟨row, hrow, .inl ⟨hresolves, rfl⟩⟩, rfl, .inr ⟨move, rfl, ?_⟩⟩
      simp only [resolves, Bool.and_eq_true, decide_eq_true_eq] at hresolves
      obtain ⟨hid, rfl⟩ := hresolves
      rw [hcall]
      refine ⟨hid.symm, hstage, ?_⟩
      rw [hopen]
      rfl
    · exact ⟨row, Table.mem_update.2 ⟨row, hrow, .inr ⟨Bool.eq_false_iff.2 hresolves, rfl⟩⟩, rfl,
        .inl hopen⟩

/-! ## Runs -/

variable {sharedClock : Bool}

theorem ids_of_reachable {guard : LedgerPool → Option Move → Ledger → Prop}
    (h : ((escalations routing sharedClock).system guard {}).Reachable pool) :
    Table.Keyed EscalationRow.escalationId pool.shared.escalations := by
  refine @System.invariant _ ((escalations routing sharedClock).system guard {})
    (fun pool => Table.Keyed EscalationRow.escalationId pool.shared.escalations)
    (Table.keyed_nil _) ?_ pool h
  rintro pool pool' hkeys ⟨label, hstep, -⟩
  rcases hstep.cases_shared with hsame | ⟨-, -, hclock⟩ | ⟨move, call, call', -, -, rfl, -, hadvance⟩
  · exact hsame ▸ hkeys
  · rw [hclock]
    exact hkeys
  · exact (Call.advance_escalations hadvance).keyed hkeys

/-- **An open escalation stays open until a human is admitted to move it**, in every run. -/
theorem open_escalation_stays {guard : LedgerPool → Option Move → Ledger → Prop}
    {pool' : LedgerPool} {label : Option Move}
    (h : ((escalations routing sharedClock).system guard {}).Reachable pool)
    (hstep : (escalations routing sharedClock).Step pool label pool')
    (hrow : row ∈ pool.shared.escalations) (hopen : row.state = .opened) :
    StaysOpen label pool'.shared.escalations row := by
  rcases hstep.cases_shared with hsame | ⟨-, -, hclock⟩ |
      ⟨move, call, call', rfl, -, rfl, -, hadvance⟩
  · exact ⟨row, hsame ▸ hrow, rfl, .inl hopen⟩
  · rw [hclock]
    exact ⟨row, hrow, rfl, .inl hopen⟩
  · exact (Call.advance_escalations hadvance).staysOpen (ids_of_reachable h) hrow hopen

/-- The invariant of the runs that respect the cooldown. -/
structure Ledger.Spaced (routing : HumanEscalationKind → HumanEscalationRoute)
    (ledger : Ledger) : Prop where
  sound   : ledger.Sound
  notices : ledger.notices.Pairwise (CooldownApart routing)

/-- What holds of a running call: its flight is its own, and a decision is a cooldown apart. -/
def Call.Informed (routing : HumanEscalationKind → HumanEscalationRoute) (ledger : Ledger)
    (call : Call) : Prop :=
  (∀ flight, call.flight = some flight → flight.Fresh ledger) ∧
    ∀ raise, call = .raise raise → raise.Informed routing ledger

theorem Ledger.Spaced.step {pool : LedgerPool} {move : Move} {ledger' : Ledger} {call' : Call}
    (h : pool.shared.Spaced routing) (hcall : move.call.Informed routing pool.shared)
    (hadvance : move.call.advance move.oracle pool.shared = (ledger', call')) :
    ledger'.Spaced routing := by
  refine ⟨h.sound.step hcall.1 (Call.advance_change hadvance), ?_⟩
  obtain ⟨call, oracle⟩ := move
  cases call with
  | raise raise =>
    obtain ⟨rfl, -⟩ := Prod.mk.inj hadvance
    exact cooldownApart_step h.notices (hcall.2 raise rfl)
  | resolve resolve =>
    obtain ⟨rfl, -⟩ := Prod.mk.inj hadvance
    rw [notices_resolve]
    exact h.notices

theorem Call.Informed.step {pool : LedgerPool} {move : Move} {ledger' : Ledger} {call' : Call}
    (hsound : pool.shared.Sound) (h : move.call.Informed routing pool.shared)
    (hstamps : DecidesOnStamps pool move)
    (hadvance : move.call.advance move.oracle pool.shared = (ledger', call')) :
    call'.Informed routing ledger' := by
  refine ⟨Flight.Fresh.step hsound h.1 (Call.advance_change hadvance), fun raise' hraise' => ?_⟩
  obtain ⟨call, oracle⟩ := move
  cases call with
  | raise raise =>
    obtain ⟨rfl, rfl⟩ := Prod.mk.inj hadvance
    obtain rfl := Call.raise.inj hraise'
    exact (h.2 raise rfl).step hstamps
  | resolve resolve =>
    obtain ⟨-, rfl⟩ := Prod.mk.inj hadvance
    cases hraise'

theorem Call.Informed.other {move : Move} {ledger' : Ledger} {call' other : Call}
    (hmine : move.call.Informed routing pool.shared) (h : other.Informed routing pool.shared)
    (hother : other ∈ pool.running) (hserials : Apart move.call other)
    (hstamps : DecidesOnStamps pool move)
    (hadvance : move.call.advance move.oracle pool.shared = (ledger', call')) :
    other.Informed routing ledger' ∧ Apart call' other := by
  have hchange := Call.advance_change hadvance
  refine ⟨⟨fun flight hflight => ((h.1 flight hflight).other
    (fun mine hmine => hserials mine flight hmine hflight) hchange).1, fun raise hraise => ?_⟩,
    fun mine flight hmine hflight => ((h.1 flight hflight).other
      (fun mine hmine => hserials mine flight hmine hflight) hchange).2 mine hmine⟩
  subst hraise
  obtain ⟨call, oracle⟩ := move
  cases call with
  | raise mine =>
    obtain ⟨rfl, -⟩ := Prod.mk.inj hadvance
    exact (h.2 raise rfl).other (hmine.2 mine rfl).route hother hserials hstamps
  | resolve resolve =>
    obtain ⟨rfl, -⟩ := Prod.mk.inj hadvance
    refine ⟨(h.2 raise rfl).route, ?_⟩
    rw [notices_resolve]
    exact (h.2 raise rfl).spaced

/-- The runs whose steps all respect the cooldown. -/
def onStamps (routing : HumanEscalationKind → HumanEscalationRoute) (sharedClock : Bool) :
    System LedgerPool :=
  (escalations routing sharedClock).system
    (fun pool label _ => ∀ move, label = some move → DecidesOnStamps pool move) {}

theorem spaced_of_reachable (h : (onStamps routing sharedClock).Reachable pool) :
    pool.shared.Spaced routing := by
  refine (Interleaving.outline (Ledger.Spaced routing) (Call.Informed routing) Apart ?_ ?_ ?_ ?_ ?_
    ?_ h).1
  · exact fun p q hpq flight flight' hflight hflight' =>
      (hpq flight' flight hflight' hflight).symm
  · exact ⟨⟨List.nodup_nil, fun row hrow => absurd hrow List.not_mem_nil, List.nodup_nil,
      fun serial hserial => absurd hserial List.not_mem_nil⟩, List.Pairwise.nil⟩
  · -- a call that starts has claimed and decided nothing
    rintro ledger call - (⟨store, facts, key, rfl⟩ | ⟨store, id, state, at_, rfl⟩)
    · refine ⟨⟨fun flight hflight => Option.noConfusion rfl (heq_of_eq hflight),
        fun raise hraise => ?_⟩,
        fun other _ flight flight' hflight _ => Option.noConfusion rfl (heq_of_eq hflight)⟩
      obtain rfl := Call.raise.inj hraise
      exact ⟨rfl, fun _ claim hclaim => Option.noConfusion rfl (heq_of_eq hclaim)⟩
    · exact ⟨⟨fun flight hflight => Option.noConfusion rfl (heq_of_eq hflight),
        fun raise hraise => by cases hraise⟩,
        fun other _ flight flight' hflight _ => Option.noConfusion rfl (heq_of_eq hflight)⟩
  · rintro pool call move ledger' call' hspaced - hcall ⟨rfl, -, hadvance⟩ hguard
    exact ⟨hspaced.step hcall hadvance, hcall.step hspaced.sound (hguard move rfl) hadvance⟩
  · rintro pool call move ledger' call' other - - hcall ⟨rfl, -, hadvance⟩ hguard hother hinformed
      hserials
    exact hcall.other hinformed hother hserials (hguard move rfl) hadvance
  · -- the clock is read by nothing here
    rintro pool ledger' hspaced ⟨-, hclock⟩ -
    rw [hclock]
    obtain ⟨hkeys, hserials, hcalls, hcalled⟩ := hspaced.sound
    refine ⟨⟨⟨hkeys, hserials, hcalls, hcalled⟩, hspaced.notices⟩,
      fun call _ hcall => ⟨fun flight hflight => ?_, fun raise hraise => ?_⟩⟩
    · obtain ⟨hclaimed, hnotCalled⟩ := hcall.1 flight hflight
      exact ⟨hclaimed, hnotCalled⟩
    · obtain ⟨hroute, hapart⟩ := hcall.2 raise hraise
      exact ⟨hroute, hapart⟩

/--
**The cooldown holds per condition** in a run whose raises all decide on the stamps of the
notices within their cooldown: any two notices that reached a human about one condition are for
raises a cooldown apart. And an open escalation is never deleted, and leaves `opened` only by a
transition that a human was admitted to.
-/
theorem cooldown_of_current (routing : HumanEscalationKind → HumanEscalationRoute)
    (sharedClock : Bool) {pool : LedgerPool} (h : (onStamps routing sharedClock).Reachable pool) :
    pool.shared.notices.Pairwise (CooldownApart routing) ∧
      ∀ label pool', (escalations routing sharedClock).Step pool label pool' →
        ∀ row ∈ pool.shared.escalations, row.state = .opened →
          StaysOpen label pool'.shared.escalations row :=
  ⟨(spaced_of_reachable h).notices, fun _ _ hstep _ hrow hopen =>
    open_escalation_stays h hstep hrow hopen⟩

/-! ## Two overlapping raises -/

section Overlap

def delivering : Oracle := { anOracle firstId with answer := some .delivered }

def noticeOf (serial : Nat) : Notice where
  serial := serial
  kind := .runtimeIncident
  dedupeKey := "a"
  atMs := 0
  outcome := .delivered

/-- The first page reached a human, and its raise has not settled. -/
def deliveredLedger : Ledger := { pagedLedger [firstRow] with notices := [noticeOf 0] }

def deliveredRaise : Call := raiseOf "a" "k1" (.settleAttempt firstClaim 0 .delivered)

theorem delivered_reachable {guard : LedgerPool → Option Move → Ledger → Prop}
    (hpaged : Reached guard (pagedLedger [firstRow]) [raiseOf "a" "k1" (.deliver firstClaim 0)])
    (hguard : guard ⟨pagedLedger [firstRow], [raiseOf "a" "k1" (.deliver firstClaim 0)]⟩
      (some ⟨raiseOf "a" "k1" (.deliver firstClaim 0), delivering⟩) deliveredLedger) :
    Reached guard deliveredLedger [deliveredRaise] :=
  next_of_advance delivering hpaged rfl rfl hguard

/-- The row of the second raise: it was opened again, and has no stamp. -/
def reopenedRow : EscalationRow := firstRow.reopened (incident "a")

def reopenedLedger : Ledger := { deliveredLedger with escalations := [reopenedRow] }

def secondClaim : ProvisionalAttempt where
  record := reopenedRow
  nowMs := 0
  outcome := .deliveryFailed
  awaitingSettlement := true

def secondAttempt : AttemptRow := { firstAttempt with idempotencyKey := "k2", serial := 1 }

def twicePagedLedger : Ledger :=
  { reopenedLedger with attempts := [firstAttempt, secondAttempt], claims := 2 }

abbrev AnyRun (_ : LedgerPool) (_ : Option Move) (_ : Ledger) : Prop := True

/-- The second raise opens the row before the first has stamped it. -/
theorem twice_reachable :
    Reached AnyRun { twicePagedLedger with sinkCalls := [1, 0], notices := [noticeOf 1, noticeOf 0] }
      [raiseOf "a" "k2" (.settleAttempt secondClaim 1 .delivered), deliveredRaise] := by
  have hdelivered : Reached AnyRun deliveredLedger [deliveredRaise] :=
    delivered_reachable (paged_reachable fun _ _ _ _ _ => trivial) trivial
  have hraising := next_of_raise "a" "k2" hdelivered trivial
  have hlooked : Reached AnyRun deliveredLedger [raiseOf "a" "k2" .openOrReopen, deliveredRaise] :=
    next_of_advance (anOracle secondId) hraising rfl rfl trivial
  have hopened : Reached AnyRun reopenedLedger
      [raiseOf "a" "k2" (.expireAnswered reopenedRow), deliveredRaise] :=
    next_of_advance (anOracle secondId) hlooked rfl rfl trivial
  have hexpired : Reached AnyRun reopenedLedger
      [raiseOf "a" "k2" (.evictAnswered reopenedRow), deliveredRaise] :=
    next_of_advance (anOracle secondId) hopened rfl rfl trivial
  have hevicted : Reached AnyRun reopenedLedger
      [raiseOf "a" "k2" (.readClock reopenedRow), deliveredRaise] := by
    refine next_of_advance (anOracle secondId) hexpired rfl ?_ trivial
    simp only [Call.advance, raiseOf, RaiseCall.advance]
    rw [evictAnswered_of_le (by decide)]
  have htimed : Reached AnyRun reopenedLedger
      [raiseOf "a" "k2" (.claimAttempt secondClaim), deliveredRaise] :=
    next_of_advance (anOracle secondId) hevicted rfl rfl trivial
  have hclaimed : Reached AnyRun twicePagedLedger
      [raiseOf "a" "k2" (.pruneAttempts secondClaim 1), deliveredRaise] :=
    next_of_advance (anOracle secondId) htimed rfl rfl trivial
  have hpaged : Reached AnyRun { twicePagedLedger with sinkCalls := [1, 0] }
      [raiseOf "a" "k2" (.deliver secondClaim 1), deliveredRaise] := by
    refine next_of_advance (anOracle secondId) hclaimed rfl ?_ trivial
    simp only [Call.advance, raiseOf, RaiseCall.advance]
    rw [pruneAttempts_of_le (by decide)]
    rfl
  exact next_of_advance delivering hpaged rfl rfl trivial

/-- The running raises have distinct idempotency keys. -/
def DistinctKeys (running : List Call) : Prop :=
  running.Pairwise fun p q => ∀ a b, p = .raise a → q = .raise b →
    a.idempotencyKey ≠ b.idempotencyKey

/-- **Two overlapping raises about one condition page twice within its cooldown.** -/
theorem overlapping_raises_page_twice :
    ¬ ∀ (routing : HumanEscalationKind → HumanEscalationRoute) (pool : LedgerPool),
      ((escalations routing true).system AnyRun {}).Reachable pool → DistinctKeys pool.running →
      pool.shared.notices.Pairwise (CooldownApart routing) := by
  intro h
  have hkeys : DistinctKeys [raiseOf "a" "k2" (.settleAttempt secondClaim 1 .delivered),
      deliveredRaise] := by
    refine List.pairwise_pair.2 fun a b ha hb => ?_
    rw [← Call.raise.inj ha, ← Call.raise.inj hb]
    decide
  have hapart := List.pairwise_pair.1 (h alertRouting _ twice_reachable hkeys)
  rcases hapart rfl rfl rfl rfl (by decide) with hspaced | hspaced <;>
    exact absurd hspaced (by decide)

/-- While the first page is being settled, its escalation stays open. -/
theorem cooldown_of_current_delivered :
    firstRow ∈ deliveredLedger.escalations ∧
      ∀ label pool', (escalations alertRouting true).Step ⟨deliveredLedger, [deliveredRaise]⟩ label
        pool' → StaysOpen label pool'.shared.escalations firstRow := by
  have hpaged : Reached (fun pool label _ => ∀ move, label = some move → DecidesOnStamps pool move)
      (pagedLedger [firstRow]) [raiseOf "a" "k1" (.deliver firstClaim 0)] := by
    refine paged_reachable fun pool label s hnotices h move hmove => ⟨?_, ?_⟩
    · intro raise record _ _ notice hnotice
      rw [hnotices] at hnotice
      exact absurd hnotice List.not_mem_nil
    · intro raise claim serial _ _ hanswer
      rw [(h move hmove).2] at hanswer
      cases hanswer
  have hdelivered := delivered_reachable hpaged fun move hmove => by
    obtain rfl := Option.some.inj hmove
    refine ⟨fun raise record _ _ notice hnotice => absurd hnotice List.not_mem_nil, ?_⟩
    intro raise claim serial hraise _ _ other decided hother hne
    obtain rfl := Call.raise.inj hraise
    exact absurd (Call.raise.inj (List.mem_singleton.1 hother)) hne
  exact ⟨List.mem_cons_self, fun label pool' hstep =>
    (cooldown_of_current alertRouting true hdelivered).2 label pool' hstep firstRow
      List.mem_cons_self rfl⟩

end Overlap

end Psfn.Escalation
