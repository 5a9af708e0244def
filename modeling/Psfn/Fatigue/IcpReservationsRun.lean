import Psfn.Fatigue.IcpReservations

/-!
# ICP fatigue reservations — runs

Every committed transaction is one of six changes of the rows (`RowChange`), and a change moves
each row along one arrow (`Goes`). A slot is only added by a reserve, after the sum over the
counted rows of the root was read below the limit under the lock of the pair; all other changes
keep the slots or give them back.

* `icp_never_oversubscribes` — over any interleaving of calls, lost sessions and crashes.
-/

namespace Psfn.Fatigue

open Psfn.Lib

/-! ## Slots -/

/-- The row takes a slot of the root. -/
def TurnReservation.takesSlot (decision : ReservationDecision) (localId peerId rootId : Uuid)
    (row : TurnReservation) : Bool :=
  row.ofRoot localId peerId rootId && row.outcome.counted && row.decision = decision

/-- The slots taken of a (local companion, peer, root initiation). -/
def slots (rows : List TurnReservation) (decision : ReservationDecision)
    (localId peerId rootId : Uuid) : Nat :=
  rows.countP (TurnReservation.takesSlot decision localId peerId rootId)

/-- The limit of a decision. -/
def ReservationLimits.of (limits : ReservationLimits) : ReservationDecision → Nat
  | .charged => limits.hardLimit
  | .overcharge => limits.overchargeLimit

variable {db : ReservationDb}

/-- When every row is of one unit, the sum of the query is the number of slots. -/
theorem rootSpend_eq_slots (h : ∀ row ∈ db.rows, row.amount = 1) (decision : ReservationDecision)
    (localId peerId rootId : Uuid) :
    rootSpend db decision localId peerId rootId none = slots db.rows decision localId peerId rootId := by
  obtain ⟨rows, episodes⟩ := db
  unfold rootSpend slots
  induction rows with
  | nil => rfl
  | cons row rest ih =>
    have hrest := ih fun r hr => h r (List.mem_cons_of_mem _ hr)
    have hrow : row.amount = 1 := h row List.mem_cons_self
    have hsame : (row.ofRoot localId peerId rootId && row.outcome.counted
        && (none : Option Uuid).all (row.turnId ≠ ·) && decide (row.decision = decision)) =
        row.takesSlot decision localId peerId rootId := by
      simp [TurnReservation.takesSlot]
    simp only at hrest ⊢
    rw [List.countP_cons, ← hrest, List.filter_cons, hsame]
    by_cases htakes : row.takesSlot decision localId peerId rootId = true
    · rw [if_pos htakes, if_pos htakes, List.map_cons, List.foldr_cons, hrow, Nat.add_comm]
    · rw [if_neg htakes, if_neg htakes, Nat.add_zero]

/-! ## What a transaction can do -/

/-- A reserve of one unit under the fixed limits. -/
structure ReserveCall.Fits (limits : ReservationLimits) (call : ReserveCall) : Prop where
  amount     : call.amount = 1
  hard       : call.hardLimit = limits.hardLimit
  overcharge : call.overchargeLimit = limits.overchargeLimit

/-- The slots of the root the call is about. -/
def ReserveCall.slotsIn (call : ReserveCall) (rows : List TurnReservation) : Nat :=
  slots rows call.decision call.correlation.localCompanionId call.correlation.peerCompanionId
    call.correlation.rootInitiationId

/-- The rows of a committed transaction. `leased` are the turns some session holds the lock of,
`fails` the turns that are being finalized as failed. -/
inductive RowChange (limits : ReservationLimits) (leased : Uuid → Bool) (fails : Uuid → Prop)
    (db : ReservationDb) : List TurnReservation → Prop
  | same : RowChange limits leased fails db db.rows
  | reclaim (call : ReserveCall) :
    RowChange limits leased fails db (reclaimOrphans call leased db).rows
  | insert (call : ReserveCall) (hfits : call.Fits limits)
    (hnew : ∀ row ∈ db.rows, row.turnId ≠ call.correlation.turnId)
    (hfree : call.slotsIn (reclaimOrphans call leased db).rows < limits.of call.decision) :
    RowChange limits leased fails db ((reclaimOrphans call leased db).rows ++ [newReservationRow call])
  | reopen (call : ReserveCall) (row : TurnReservation) (hrow : row ∈ db.rows)
    (hturn : row.turnId = call.correlation.turnId) (hfailed : row.outcome = .failed)
    (hroot : ∀ decision localId peerId rootId,
      (Fatigue.reopen call row).takesSlot decision localId peerId rootId =
        (newReservationRow call).takesSlot decision localId peerId rootId)
    (hfree : call.slotsIn (reclaimOrphans call leased db).rows < limits.of call.decision) :
    RowChange limits leased fails db
      (Table.update (fun r => r.turnId = row.turnId && r.outcome = .failed) (Fatigue.reopen call)
        (reclaimOrphans call leased db).rows)
  | promote (turnId : Uuid) :
    RowChange limits leased fails db
      (Table.update (fun r => r.turnId = turnId && r.outcome = .pending)
        (fun r => { r with outcome := .delivering }) db.rows)
  | finalize (turnId : Uuid) (outcome : FinalOutcome) (finalizedAtMs : Nat)
    (hfails : outcome = .failed → fails turnId) :
    RowChange limits leased fails db
      (Table.update (fun r => r.turnId = turnId && r.outcome = outcome.source)
        (fun r => { r with outcome := outcome.outcome, finalizedAtMs := some finalizedAtMs })
        db.rows)

variable {query : PressureQuery} {call : ReserveCall}

/-- A snapshot read of a database of unit rows shows at least the slots. -/
theorem snapshotResult_spent {outcome : ReserveResultOutcome} {snapshot : ReservationResult}
    (hunits : ∀ row ∈ db.rows, row.amount = 1)
    (h : snapshotResult query db call outcome none = .ok snapshot) :
    (call.decision = .charged → (call.slotsIn db.rows : Int) ≤ snapshot.normalSpentBefore) ∧
      (call.decision = .overcharge → call.slotsIn db.rows = snapshot.overchargeSpentBefore) := by
  unfold snapshotResult at h
  obtain ⟨pressure, -, hresult⟩ := bind_eq_ok.1 h
  have hsnapshot := Except.ok.inj hresult
  constructor
  · intro hcharged
    rw [← hsnapshot]
    show _ ≤ max ((rootSpend db .charged _ _ _ none : Nat) : Int) _
    rw [rootSpend_eq_slots hunits, ReserveCall.slotsIn, hcharged]
    exact le_max_left _ _
  · intro hovercharge
    rw [← hsnapshot]
    show _ = rootSpend db .overcharge _ _ _ none
    rw [rootSpend_eq_slots hunits, ReserveCall.slotsIn, hovercharge]

variable {limits : ReservationLimits} {rows : List TurnReservation}

theorem slotsIn_lt_limit {snapshot : ReservationResult} (hfits : call.Fits limits)
    (hspent : (call.decision = .charged → (call.slotsIn rows : Int) ≤
      snapshot.normalSpentBefore) ∧ (call.decision = .overcharge →
      call.slotsIn rows = snapshot.overchargeSpentBefore))
    (h : ¬ exhausted call snapshot = true) : call.slotsIn rows < limits.of call.decision := by
  unfold exhausted at h
  rcases hdecision : call.decision with _ | _
  · simp only [hdecision, decide_eq_true_eq, not_le] at h
    have hcharged := hspent.1 hdecision
    have hlimit := hfits.hard
    show _ < limits.hardLimit
    omega
  · simp only [hdecision, decide_eq_true_eq, not_le] at h
    have hovercharge := hspent.2 hdecision
    have hlimit := hfits.overcharge
    show _ < limits.overchargeLimit
    omega

theorem reclaimOrphans_rows (call : ReserveCall) (leased : Uuid → Bool) (db : ReservationDb) :
    (reclaimOrphans call leased db).rows =
      Table.update (orphaned call leased)
        (fun row => { row with outcome := .failed, finalizedAtMs := some call.timestampMs })
        db.rows := rfl

theorem reclaimOrphans_units {leased : Uuid → Bool} (hunits : ∀ row ∈ db.rows, row.amount = 1) :
    ∀ row ∈ (reclaimOrphans call leased db).rows, row.amount = 1 := by
  intro row' hrow'
  obtain ⟨row, hrow, ⟨-, rfl⟩ | ⟨-, rfl⟩⟩ := Table.mem_update.1 hrow'
  · exact hunits row hrow
  · exact hunits row' hrow

variable {u : Unit}

theorem assertReplayMatches_ok {row : TurnReservation} (h : assertReplayMatches row call = .ok u) :
    row.correlation.rootInitiationId = call.correlation.rootInitiationId ∧
      row.correlation.localCompanionId = call.correlation.localCompanionId ∧
      row.correlation.peerCompanionId = call.correlation.peerCompanionId ∧
      row.decision = call.decision := by
  have hfalse := throwIf_eq_ok.1 h
  simp only [Bool.or_eq_false_iff, decide_eq_false_iff_not, not_not] at hfalse
  obtain ⟨⟨⟨⟨⟨⟨⟨-, hroot⟩, hlocal⟩, hpeer⟩, -⟩, -⟩, hdecision⟩, -⟩ := hfalse
  exact ⟨hroot, hlocal, hpeer, hdecision⟩

/-- The turn of the call has a row that counts. -/
def ReserveCall.Replays (call : ReserveCall) (db : ReservationDb) : Prop :=
  ∃ row ∈ db.rows, row.turnId = call.correlation.turnId ∧ row.outcome.counted = true

/-- The insert of a turn whose rows have all failed. -/
theorem insertReservation_change {leased : Uuid → Bool} {fails : Uuid → Prop}
    {inserted : ReservationDb × TurnReservation} (hfits : call.Fits limits)
    (hfailed : ∀ row ∈ db.rows, row.turnId = call.correlation.turnId →
      row.outcome = .failed ∧ db.rows.find? (·.turnId = call.correlation.turnId) = some row)
    (hfree : call.slotsIn (reclaimOrphans call leased db).rows < limits.of call.decision)
    (hinsert : insertReservation call (db.rows.find? (·.turnId =
      call.correlation.turnId)) (reclaimOrphans call leased db) = .ok inserted)
    (hmatches : assertReplayMatches inserted.2 call = .ok u) :
    RowChange limits leased fails db inserted.1.rows := by
  unfold insertReservation at hinsert
  split at hinsert
  · cases hinsert
  · split at hinsert
    · rename_i hexisting
      obtain rfl := Except.ok.inj hinsert
      refine .insert call hfits (fun row hrow hturn => ?_) hfree
      rw [(hfailed row hrow hturn).2] at hexisting
      cases hexisting
    · rename_i row hexisting
      obtain rfl := Except.ok.inj hinsert
      have hrow := List.mem_of_find?_eq_some hexisting
      have hturn := List.find?_some hexisting
      rw [decide_eq_true_eq] at hturn
      -- the statement returns the row of before, so a row of another root is refused here
      obtain ⟨hroot, hlocal, hpeer, hdecision⟩ := assertReplayMatches_ok hmatches
      refine .reopen call row hrow hturn (hfailed row hrow hturn).1 ?_ hfree
      intro decision localId peerId rootId
      simp only [TurnReservation.takesSlot, TurnReservation.ofRoot, newReservationRow]
      rw [hroot, hlocal, hpeer, hdecision]
      rfl

variable {db' : ReservationDb}

/-- **What a reserve commits**: nothing for a turn that has a slot, and otherwise the orphans of
the pair reclaimed and, below the limit, one slot. -/
theorem reserveBody_change {leased : Uuid → Bool} {fails : Uuid → Prop}
    {result : ReservationResult × Bool} (hfits : call.Fits limits)
    (hkeyed : Table.Keyed TurnReservation.turnId db.rows) (hunits : ∀ row ∈ db.rows, row.amount = 1)
    (h : reserveBody query leased call db = .ok (db', result)) :
    (call.Replays db → db' = db) ∧ RowChange limits leased fails db db'.rows := by
  unfold reserveBody at h
  simp only at h
  split at h
  · -- the turn has a row that is not failed
    obtain ⟨-, -, hrest⟩ := bind_eq_ok.1 h
    obtain ⟨snapshot, -, hresult⟩ := bind_eq_ok.1 hrest
    have hdb : db = db' := congrArg Prod.fst (Except.ok.inj hresult)
    exact ⟨fun _ => hdb.symm, hdb ▸ .same⟩
  · rename_i hnone
    have hfailed : ∀ row ∈ db.rows, row.turnId = call.correlation.turnId →
        row.outcome = .failed ∧ db.rows.find? (·.turnId = call.correlation.turnId) = some row := by
      intro row hrow hturn
      have hfind := hkeyed.find?_eq_some hrow hturn
      rw [hfind, Option.filter_some] at hnone
      refine ⟨?_, hfind⟩
      by_contra hne
      simp [hne] at hnone
    have hreplays : ¬ call.Replays db := by
      rintro ⟨row, hrow, hturn, hcounted⟩
      rw [(hfailed row hrow hturn).1] at hcounted
      exact absurd hcounted (by decide)
    refine ⟨fun hr => absurd hr hreplays, ?_⟩
    obtain ⟨snapshot, hsnapshot, hrest⟩ := bind_eq_ok.1 h
    split at hrest
    · have hdb : reclaimOrphans call leased db = db' := congrArg Prod.fst (Except.ok.inj hrest)
      exact hdb ▸ .reclaim call
    · rename_i hexhausted
      have hfree := slotsIn_lt_limit hfits (snapshotResult_spent (reclaimOrphans_units hunits)
        hsnapshot) hexhausted
      obtain ⟨inserted, hinsert, hrest⟩ := bind_eq_ok.1 hrest
      obtain ⟨u, hmatches, hresult⟩ := bind_eq_ok.1 hrest
      have hdb : inserted.1 = db' := congrArg Prod.fst (Except.ok.inj hresult)
      rw [← hdb]
      exact insertReservation_change hfits hfailed hfree hinsert hmatches

theorem prepareDeliveryBody_change {leased : Uuid → Bool} {fails : Uuid → Prop} {lease : Bool}
    {input : PrepareInput} (h : prepareDeliveryBody lease input db = .ok (db', u)) :
    RowChange limits leased fails db db'.rows := by
  unfold prepareDeliveryBody at h
  simp only at h
  have hsame : ∀ {x : Except String Unit},
      (x >>= fun _ => Except.ok (db, ())) = .ok (db', u) → db = db' := by
    intro x hx
    obtain ⟨-, -, hresult⟩ := bind_eq_ok.1 hx
    exact congrArg Prod.fst (Except.ok.inj hresult)
  split at h
  · cases h
  · split at h
    · split at h
      · split at h
        · cases h
        · exact hsame h ▸ .same
      · cases h
    · split at h
      · split at h
        · cases h
        · exact hsame h ▸ .same
      · cases h
    · cases h
    · exact hsame h ▸ .same
    · split at h
      · cases h
      · obtain ⟨-, -, hresult⟩ := bind_eq_ok.1 h
        have hdb := congrArg Prod.fst (Except.ok.inj hresult)
        simp only at hdb
        rw [← hdb]
        exact .promote input.correlation.turnId

theorem finalizeBody_change {leased : Uuid → Bool} {fails : Uuid → Prop} {input : FinalizeInput}
    {finalizedAtMs : Nat} (hfails : input.outcome = .failed → fails input.correlation.turnId)
    (h : finalizeBody input finalizedAtMs db = .ok (db', u)) :
    RowChange limits leased fails db db'.rows := by
  unfold finalizeBody at h
  simp only at h
  split at h
  · obtain ⟨-, -, hresult⟩ := bind_eq_ok.1 h
    have hdb := congrArg Prod.fst (Except.ok.inj hresult)
    simp only at hdb
    rw [← hdb]
    exact .finalize input.correlation.turnId input.outcome finalizedAtMs hfails
  · obtain ⟨-, -, hrest⟩ := bind_eq_ok.1 h
    obtain ⟨-, -, hresult⟩ := bind_eq_ok.1 hrest
    have hdb : db = db' := congrArg Prod.fst (Except.ok.inj hresult)
    exact hdb ▸ .same

/-! ## What a change does to a row -/

/-- The arrows of a row. -/
inductive Goes (leased : Uuid → Bool) (fails : Uuid → Prop) (row : TurnReservation) :
    ReservationOutcome → Prop
  | stays : Goes leased fails row row.outcome
  | reclaimed (hpending : row.outcome = .pending) (hlost : leased row.turnId = false) :
    Goes leased fails row .failed
  | reopened (hfailed : row.outcome = .failed) : Goes leased fails row .pending
  | promoted (hpending : row.outcome = .pending) : Goes leased fails row .delivering
  | finalized (hdelivering : row.outcome = .delivering) {outcome : ReservationOutcome}
    (hfinal : outcome = .delivered ∨ outcome = .noReply) : Goes leased fails row outcome
  | failed (hpending : row.outcome = .pending) (hfails : fails row.turnId) :
    Goes leased fails row .failed

variable {limits : ReservationLimits} {leased : Uuid → Bool} {fails : Uuid → Prop}
  {db : ReservationDb} {rows' : List TurnReservation}

/-- A row of the change is a row of before that went along an arrow, or the turn is new. -/
theorem RowChange.before (h : RowChange limits leased fails db rows') :
    ∀ row' ∈ rows',
      (∃ row ∈ db.rows, row.turnId = row'.turnId ∧ row.decision = row'.decision ∧
        row.amount = row'.amount ∧
        (∀ localId peerId rootId, row.ofRoot localId peerId rootId =
          row'.ofRoot localId peerId rootId) ∧ Goes leased fails row row'.outcome) ∨
      (row'.outcome = .pending ∧ row'.amount = 1 ∧ ∀ row ∈ db.rows, row.turnId ≠ row'.turnId) := by
  have hreclaim : ∀ call, ∀ row' ∈ (reclaimOrphans call leased db).rows, ∃ row ∈ db.rows,
      row.turnId = row'.turnId ∧ row.decision = row'.decision ∧ row.amount = row'.amount ∧
        (∀ localId peerId rootId, row.ofRoot localId peerId rootId =
          row'.ofRoot localId peerId rootId) ∧ Goes leased fails row row'.outcome := by
    intro call row' hrow'
    obtain ⟨row, hrow, ⟨hcond, rfl⟩ | ⟨-, rfl⟩⟩ := Table.mem_update.1 hrow'
    · simp only [orphaned, Bool.and_eq_true, decide_eq_true_eq, Bool.not_eq_true'] at hcond
      exact ⟨row, hrow, rfl, rfl, rfl, fun _ _ _ => rfl, .reclaimed hcond.1.1.2 hcond.2⟩
    · exact ⟨row', hrow, rfl, rfl, rfl, fun _ _ _ => rfl, .stays⟩
  cases h with
  | same => exact fun row' hrow' => .inl ⟨row', hrow', rfl, rfl, rfl, fun _ _ _ => rfl, .stays⟩
  | reclaim call => exact fun row' hrow' => .inl (hreclaim call row' hrow')
  | insert call hfits hnew hfree =>
    intro row' hrow'
    rcases List.mem_append.1 hrow' with hold | hadded
    · exact .inl (hreclaim call row' hold)
    · obtain rfl := List.mem_singleton.1 hadded
      exact .inr ⟨rfl, hfits.amount, hnew⟩
  | reopen call row hrow hturn hfailed hroot hfree =>
    intro row' hrow'
    obtain ⟨mid, hmid, ⟨hcond, rfl⟩ | ⟨-, rfl⟩⟩ := Table.mem_update.1 hrow'
    · obtain ⟨old, hold, ⟨hcond', rfl⟩ | ⟨-, rfl⟩⟩ := Table.mem_update.1 hmid
      · -- an orphan is of another turn than the call
        simp only [orphaned, Bool.and_eq_true, decide_eq_true_eq] at hcond hcond'
        exact absurd (hcond.1.trans hturn) hcond'.1.2
      · simp only [Bool.and_eq_true, decide_eq_true_eq] at hcond
        exact .inl ⟨mid, hold, rfl, rfl, rfl, fun _ _ _ => rfl, .reopened hcond.2⟩
    · exact .inl (hreclaim call row' hmid)
  | promote turnId =>
    intro row' hrow'
    obtain ⟨row, hrow, ⟨hcond, rfl⟩ | ⟨-, rfl⟩⟩ := Table.mem_update.1 hrow'
    · simp only [Bool.and_eq_true, decide_eq_true_eq] at hcond
      exact .inl ⟨row, hrow, rfl, rfl, rfl, fun _ _ _ => rfl, .promoted hcond.2⟩
    · exact .inl ⟨row', hrow, rfl, rfl, rfl, fun _ _ _ => rfl, .stays⟩
  | finalize turnId outcome finalizedAtMs hfails =>
    intro row' hrow'
    obtain ⟨row, hrow, ⟨hcond, rfl⟩ | ⟨-, rfl⟩⟩ := Table.mem_update.1 hrow'
    · simp only [Bool.and_eq_true, decide_eq_true_eq] at hcond
      refine .inl ⟨row, hrow, rfl, rfl, rfl, fun _ _ _ => rfl, ?_⟩
      cases outcome with
      | delivered => exact .finalized hcond.2 (.inl rfl)
      | noReply => exact .finalized hcond.2 (.inr rfl)
      | failed => exact .failed hcond.2 (hcond.1 ▸ hfails rfl)
    · exact .inl ⟨row', hrow, rfl, rfl, rfl, fun _ _ _ => rfl, .stays⟩

theorem reclaimOrphans_turnIds (call : ReserveCall) (leased : Uuid → Bool) (db : ReservationDb) :
    (reclaimOrphans call leased db).rows.map TurnReservation.turnId =
      db.rows.map TurnReservation.turnId :=
  Table.map_update fun _ _ _ => rfl

/-- No turn is dropped, and a turn that is added is new. -/
theorem RowChange.turnIds (h : RowChange limits leased fails db rows') :
    rows'.map TurnReservation.turnId = db.rows.map TurnReservation.turnId ∨
      ∃ turnId, (∀ row ∈ db.rows, row.turnId ≠ turnId) ∧
        rows'.map TurnReservation.turnId = db.rows.map TurnReservation.turnId ++ [turnId] := by
  cases h with
  | same => exact .inl rfl
  | reclaim call => exact .inl (reclaimOrphans_turnIds call leased db)
  | insert call hfits hnew hfree =>
    refine .inr ⟨call.correlation.turnId, hnew, ?_⟩
    rw [List.map_append, reclaimOrphans_turnIds]
    rfl
  | reopen call row hrow hturn hfailed hroot hfree =>
    refine .inl (Eq.trans (Table.map_update ?_) (reclaimOrphans_turnIds call leased db))
    exact fun _ _ _ => rfl
  | promote turnId => exact .inl (Table.map_update fun _ _ _ => rfl)
  | finalize turnId outcome finalizedAtMs hfails => exact .inl (Table.map_update fun _ _ _ => rfl)

theorem RowChange.keyed (h : RowChange limits leased fails db rows')
    (hkeyed : Table.Keyed TurnReservation.turnId db.rows) :
    Table.Keyed TurnReservation.turnId rows' := by
  rw [Table.Keyed] at hkeyed ⊢
  rcases h.turnIds with hsame | ⟨turnId, hnew, hadded⟩
  · rw [hsame]
    exact hkeyed
  · rw [hadded, List.nodup_append]
    refine ⟨hkeyed, by simp, ?_⟩
    intro k hk k' hk'
    obtain ⟨row, hrow, rfl⟩ := List.mem_map.mp hk
    rw [List.mem_singleton.1 hk']
    exact hnew row hrow

/-- Every row of before is still there, along one arrow. -/
theorem RowChange.after (h : RowChange limits leased fails db rows')
    (hkeyed : Table.Keyed TurnReservation.turnId db.rows) {row : TurnReservation}
    (hrow : row ∈ db.rows) :
    ∃ row' ∈ rows', row'.turnId = row.turnId ∧ Goes leased fails row row'.outcome := by
  have hmem : row.turnId ∈ rows'.map TurnReservation.turnId := by
    rcases h.turnIds with hsame | ⟨turnId, -, hadded⟩
    · rw [hsame]
      exact List.mem_map_of_mem hrow
    · rw [hadded]
      exact List.mem_append_left _ (List.mem_map_of_mem hrow)
  obtain ⟨row', hrow', hturn⟩ := List.mem_map.mp hmem
  rcases h.before row' hrow' with ⟨old, hold, hsame, -, -, -, hgoes⟩ | ⟨-, -, hnew⟩
  · obtain rfl := hkeyed.unique hold hrow (hsame.trans hturn)
    exact ⟨row', hrow', hturn, hgoes⟩
  · exact absurd hturn.symm (hnew row hrow)

/-! ## What a change does to the slots -/

/-- An update that makes no row count does not take a slot. -/
theorem slots_update_le {cond : TurnReservation → Bool} {set : TurnReservation → TurnReservation}
    (hset : ∀ row, (set row).correlation = row.correlation ∧ (set row).decision = row.decision)
    (hcounted : ∀ row ∈ rows, cond row = true → (set row).outcome.counted = true →
      row.outcome.counted = true)
    (decision : ReservationDecision) (localId peerId rootId : Uuid) :
    slots (Table.update cond set rows) decision localId peerId rootId ≤
      slots rows decision localId peerId rootId := by
  refine Table.countP_update_le fun row hrow hcond htakes => ?_
  simp only [TurnReservation.takesSlot, TurnReservation.ofRoot, (hset row).1, (hset row).2,
    Bool.and_eq_true] at htakes ⊢
  exact ⟨⟨htakes.1.1, hcounted row hrow hcond htakes.1.2⟩, htakes.2⟩

theorem reclaimOrphans_slots_le (call : ReserveCall) (leased : Uuid → Bool) (db : ReservationDb)
    (decision : ReservationDecision) (localId peerId rootId : Uuid) :
    slots (reclaimOrphans call leased db).rows decision localId peerId rootId ≤
      slots db.rows decision localId peerId rootId := by
  refine slots_update_le ?_ ?_ decision localId peerId rootId
  · exact fun _ => ⟨rfl, rfl⟩
  · exact fun _ _ _ hcounted => absurd hcounted Bool.false_ne_true

/-- One more slot where the call takes one, and it was free. -/
theorem slots_admit_le {decision : ReservationDecision} {localId peerId rootId : Uuid}
    (hfree : call.slotsIn rows < limits.of call.decision)
    (hwithin : slots rows decision localId peerId rootId ≤ limits.of decision) :
    slots rows decision localId peerId rootId +
        (if (newReservationRow call).takesSlot decision localId peerId rootId then 1 else 0) ≤
      limits.of decision := by
  by_cases htakes : (newReservationRow call).takesSlot decision localId peerId rootId = true
  · rw [if_pos htakes]
    simp only [TurnReservation.takesSlot, TurnReservation.ofRoot, Bool.and_eq_true,
      decide_eq_true_eq] at htakes
    obtain ⟨⟨⟨⟨rfl, rfl⟩, rfl⟩, -⟩, rfl⟩ := htakes
    exact hfree
  · rw [if_neg htakes]
    exact hwithin

/-- **No change takes a slot beyond the limit.** -/
theorem RowChange.slots_le (h : RowChange limits leased fails db rows')
    (hkeyed : Table.Keyed TurnReservation.turnId db.rows)
    {decision : ReservationDecision} {localId peerId rootId : Uuid}
    (hwithin : slots db.rows decision localId peerId rootId ≤ limits.of decision) :
    slots rows' decision localId peerId rootId ≤ limits.of decision := by
  have hreclaim : ∀ call, slots (reclaimOrphans call leased db).rows decision localId peerId rootId ≤
      limits.of decision := fun call =>
    (reclaimOrphans_slots_le call leased db decision localId peerId rootId).trans hwithin
  cases h with
  | same => exact hwithin
  | reclaim call => exact hreclaim call
  | insert call hfits hnew hfree =>
    have hadmit := slots_admit_le hfree (hreclaim call)
    rw [slots, List.countP_append, List.countP_singleton]
    exact hadmit
  | reopen call row hrow hturn hfailed hroot hfree =>
    have hadmit := slots_admit_le hfree (hreclaim call)
    rw [← hroot] at hadmit
    have hkeyed' : Table.Keyed TurnReservation.turnId (reclaimOrphans call leased db).rows :=
      hkeyed.update fun _ => rfl
    -- the row itself is no orphan
    have hrow' : row ∈ (reclaimOrphans call leased db).rows :=
      Table.mem_update.2 ⟨row, hrow, .inr ⟨by simp [orphaned, hturn], rfl⟩⟩
    have hreplace : Table.update (fun r => r.turnId = row.turnId && r.outcome = .failed)
          (Fatigue.reopen call) (reclaimOrphans call leased db).rows =
        Table.update (fun r => r.turnId = (Fatigue.reopen call row).turnId)
          (fun _ => Fatigue.reopen call row) (reclaimOrphans call leased db).rows := by
      refine List.map_congr_left fun r hr => ?_
      by_cases hsame : r.turnId = row.turnId
      · obtain rfl := hkeyed'.unique hr hrow' hsame
        have hkey : (Fatigue.reopen call r).turnId = r.turnId := rfl
        simp [hfailed, hkey]
      · have hkey : (Fatigue.reopen call row).turnId = row.turnId := rfl
        simp [hsame, hkey]
    rw [hreplace]
    exact (hkeyed'.countP_replace _ _).trans hadmit
  | promote turnId =>
    refine le_trans (slots_update_le ?_ ?_ _ _ _ _) hwithin
    · exact fun _ => ⟨rfl, rfl⟩
    · intro row _ hcond _
      simp only [Bool.and_eq_true, decide_eq_true_eq] at hcond
      rw [hcond.2]
      rfl
  | finalize turnId outcome finalizedAtMs hfails =>
    refine le_trans (slots_update_le ?_ ?_ _ _ _ _) hwithin
    · exact fun _ => ⟨rfl, rfl⟩
    · intro row _ hcond _
      simp only [Bool.and_eq_true, decide_eq_true_eq] at hcond
      rw [hcond.2]
      cases outcome <;> rfl

/-! ## Steps -/

/-- The reserve a call has still to make. -/
def CallStage.reserves : CallStage → Option ReserveCall
  | .pingOwn call | .connect call | .reserve call _ => some call
  | _ => none

variable {w : IcpWorld} {process : Nat}

namespace IcpWorld

/-- The invariant: one row a turn, of one unit, no root above its limits, and every reserve that
is under way has those limits. -/
structure Sound (limits : ReservationLimits) (w : IcpWorld) : Prop where
  keyed  : Table.Keyed TurnReservation.turnId w.db.rows
  units  : ∀ row ∈ w.db.rows, row.amount = 1
  within : ∀ decision localId peerId rootId,
    slots w.db.rows decision localId peerId rootId ≤ limits.of decision
  calls  : ∀ pending ∈ w.calls, ∀ call, pending.stage.reserves = some call → call.Fits limits

/-- The action carries out a `finalize` of the turn as failed. -/
def Fails (w : IcpWorld) (action : IcpAction) (turnId : Uuid) : Prop :=
  ∃ i answer process input finalizedAtMs, action = .advance i answer ∧
    w.calls[i]? = some { process, stage := .finalize input finalizedAtMs } ∧
    input.correlation.turnId = turnId ∧ input.outcome = .failed

@[simp] theorem releaseLease_db (w : IcpWorld) (process : Nat) (turnId : Uuid) (unlocked : Bool) :
    (w.releaseLease process turnId unlocked).db = w.db := by
  unfold releaseLease
  split
  · rfl
  · split <;> rfl

@[simp] theorem takeLease_db (w : IcpWorld) (process : Nat) (turnId : Uuid) :
    (w.takeLease process turnId).db = w.db := rfl

theorem transact_change {β : Type} {body : ReservationDb → Except String (ReservationDb × β)}
    (h : ∀ db' b, body w.db = .ok (db', b) → RowChange limits leased fails w.db db'.rows) :
    RowChange limits leased fails w.db (w.transact body).1.db.rows := by
  rcases Table.transaction_cases ReservationDb.constraints body w.db with
    ⟨message, hrolled⟩ | ⟨db', b, hbody, -, hcommitted⟩
  · have hdb : (w.transact body).1.db = w.db := congrArg Prod.fst hrolled
    rw [hdb]
    exact .same
  · have hdb : (w.transact body).1.db = db' := congrArg Prod.fst hcommitted
    rw [hdb]
    exact h db' b hbody

/-- **An answer commits one change**, whether or not the process hears of it. -/
theorem advanceStage_change (hw : w.Sound limits) (query : PressureQuery) (process : Nat)
    {stage : CallStage} (answer : StoreAnswer)
    (hfits : ∀ call, stage.reserves = some call → call.Fits limits)
    (hfails : ∀ input finalizedAtMs, stage = .finalize input finalizedAtMs →
      input.outcome = .failed → fails input.correlation.turnId) :
    RowChange limits w.leased fails w.db (advanceStage query w process stage answer).1.db.rows := by
  cases stage with
  | pingOwn call =>
    simp only [advanceStage]
    split
    · exact .same
    · simp only [releaseLease_db]
      exact .same
  | connect call =>
    cases answer with
    | done =>
      simp only [advanceStage]
      split
      · exact .same
      · exact .same
    | lost committed => exact .same
  | reserve call created =>
    have hchange : RowChange limits w.leased fails w.db
        (w.transact (reserveBody query w.leased call)).1.db.rows :=
      transact_change fun db' b hbody =>
        (reserveBody_change (hfits call rfl) hw.keyed hw.units hbody).2
    cases answer with
    | done => exact hchange
    | lost committed =>
      cases committed with
      | true => exact hchange
      | false => exact .same
  | pingPrepare input =>
    cases answer with
    | done =>
      simp only [advanceStage]
      split
      · exact .same
      · exact .same
    | lost committed => exact .same
  | prepare input lease =>
    have hchange : RowChange limits w.leased fails w.db
        (w.transact (prepareDeliveryBody lease input)).1.db.rows :=
      transact_change fun db' b hbody => prepareDeliveryBody_change hbody
    cases answer with
    | done => exact hchange
    | lost committed =>
      cases committed with
      | true => exact hchange
      | false => exact .same
  | pingFinalize input finalizedAtMs =>
    cases answer with
    | done =>
      simp only [advanceStage]
      split
      · exact .same
      · exact .same
    | lost committed => exact .same
  | finalize input finalizedAtMs =>
    have hchange : RowChange limits w.leased fails w.db
        (w.transact (finalizeBody input finalizedAtMs)).1.db.rows :=
      transact_change fun db' b hbody => finalizeBody_change (hfails input finalizedAtMs rfl) hbody
    cases answer with
    | done => exact hchange
    | lost committed =>
      cases committed with
      | true => exact hchange
      | false => exact .same
  | release turnId result =>
    cases answer with
    | done =>
      simp only [advanceStage, releaseLease_db]
      exact .same
    | lost committed =>
      simp only [advanceStage, releaseLease_db]
      exact .same
  | returned result => exact .same

theorem act_change (hw : w.Sound limits) (query : PressureQuery) (action : IcpAction) :
    RowChange limits w.leased (w.Fails action) w.db (w.act query action).db.rows := by
  cases action with
  | start process call => exact .same
  | advance i answer =>
    unfold act
    simp only
    split
    · exact .same
    · rename_i pending hpending
      refine advanceStage_change hw query pending.process answer
        (hw.calls pending (List.mem_of_getElem? hpending)) ?_
      intro input finalizedAtMs hstage houtcome
      refine ⟨i, answer, pending.process, input, finalizedAtMs, rfl, ?_, rfl, houtcome⟩
      rw [hpending, ← hstage]
  | sessionLost session => exact .same
  | crash process => exact .same
  | setEpisodes episodes => exact .same

/-- A call keeps the reserve it began with. -/
theorem advanceStage_reserves {stage : CallStage} {answer : StoreAnswer}
    (h : (advanceStage query w process stage answer).2.reserves = some call) :
    stage.reserves = some call := by
  cases stage with
  | pingOwn own =>
    simp only [advanceStage] at h
    split at h
    · exact h
    · split at h
      · exact h
      · cases h
  | connect own =>
    cases answer with
    | done =>
      simp only [advanceStage] at h
      split at h
      · cases h
      · exact h
    | lost committed => cases h
  | reserve own created =>
    exfalso
    cases answer <;>
    · simp only [advanceStage] at h
      unfold afterReserve at h
      split at h <;> first | cases h | (split at h <;> cases h)
  | pingPrepare input =>
    cases answer with
    | done =>
      simp only [advanceStage] at h
      split at h <;> cases h
    | lost committed => cases h
  | prepare input lease =>
    cases answer with
    | done =>
      simp only [advanceStage] at h
      unfold afterTransaction at h
      split at h <;> cases h
    | lost committed => cases h
  | pingFinalize input finalizedAtMs =>
    cases answer with
    | done =>
      simp only [advanceStage] at h
      split at h <;> cases h
    | lost committed => cases h
  | finalize input finalizedAtMs =>
    cases answer with
    | done =>
      simp only [advanceStage] at h
      unfold afterTransaction at h
      split at h <;> cases h
    | lost committed => cases h
  | release turnId result => cases answer <;> cases h
  | returned result => cases h

end IcpWorld

theorem requirePositiveInteger_natCast {n m : Nat} {field : String}
    (h : requirePositiveInteger (.finite n) field = .ok m) : m = n := by
  unfold requirePositiveInteger at h
  simp only at h
  split at h
  · rw [← Except.ok.inj h, Rat.num_natCast, Int.toNat_natCast]
  · cases h

theorem reserveCall_fits {input : ReserveInput} (hamount : input.amount = .finite 1)
    (hhard : input.hardLimit = .finite limits.hardLimit)
    (hovercharge : input.overchargeLimit = .finite limits.overchargeLimit)
    (h : reserveCall input = .ok call) : call.Fits limits := by
  unfold reserveCall at h
  obtain ⟨timestampMs, -, h⟩ := bind_eq_ok.1 h
  obtain ⟨amount, hone, h⟩ := bind_eq_ok.1 h
  obtain ⟨hard, hhard', h⟩ := bind_eq_ok.1 h
  obtain ⟨overcharge, hovercharge', h⟩ := bind_eq_ok.1 h
  obtain ⟨halfLifeMs, -, h⟩ := bind_eq_ok.1 h
  obtain ⟨windowMs, -, h⟩ := bind_eq_ok.1 h
  obtain ⟨unansweredMs, -, h⟩ := bind_eq_ok.1 h
  obtain ⟨declinedUnits, -, h⟩ := bind_eq_ok.1 h
  obtain ⟨deferredUnits, -, h⟩ := bind_eq_ok.1 h
  obtain ⟨unansweredUnits, -, h⟩ := bind_eq_ok.1 h
  obtain ⟨-, -, h⟩ := bind_eq_ok.1 h
  rw [hamount, ← Nat.cast_one] at hone
  rw [hhard] at hhard'
  rw [hovercharge] at hovercharge'
  rw [← Except.ok.inj h]
  exact ⟨requirePositiveInteger_natCast hone, requirePositiveInteger_natCast hhard',
    requirePositiveInteger_natCast hovercharge'⟩

namespace IcpWorld

theorem beginCall_fits {begun : ReservationCall}
    (henabled : (IcpAction.start process begun).Enabled limits)
    (h : (w.beginCall process begun).reserves = some call) : call.Fits limits := by
  cases begun with
  | reserve input =>
    obtain ⟨hamount, hhard, hovercharge⟩ := henabled
    simp only [beginCall] at h
    split at h
    · cases h
    · rename_i own hown
      have hfits := reserveCall_fits hamount hhard hovercharge hown
      split at h
      · obtain rfl := Option.some.inj h
        exact hfits
      · obtain rfl := Option.some.inj h
        exact hfits
  | prepareDelivery input =>
    simp only [beginCall] at h
    split at h <;> cases h
  | handoff correlation => cases h
  | finalize input =>
    simp only [beginCall] at h
    split at h
    · cases h
    · split at h
      · cases h
      · split at h <;> cases h

theorem Sound.act (hw : w.Sound limits) (query : PressureQuery) {action : IcpAction}
    (henabled : action.Enabled limits) : (w.act query action).Sound limits := by
  have hchange := act_change hw query action
  refine ⟨hchange.keyed hw.keyed, ?_, ?_, ?_⟩
  · intro row' hrow'
    rcases hchange.before row' hrow' with ⟨row, hrow, -, -, hamount, -, -⟩ | ⟨-, hamount, -⟩
    · rw [← hamount]
      exact hw.units row hrow
    · exact hamount
  · exact fun decision localId peerId rootId =>
      hchange.slots_le hw.keyed (hw.within decision localId peerId rootId)
  · cases action with
    | start process begun =>
      intro pending hpending call hcall
      rcases List.mem_append.1 hpending with hold | hnew
      · exact hw.calls pending hold call hcall
      · obtain rfl := List.mem_singleton.1 hnew
        exact beginCall_fits henabled hcall
    | advance i answer =>
      unfold IcpWorld.act
      simp only
      split
      · exact hw.calls
      · rename_i own hown
        intro pending hpending call hcall
        rcases List.mem_or_eq_of_mem_set hpending with hold | rfl
        · exact hw.calls pending hold call hcall
        · exact hw.calls own (List.mem_of_getElem? hown) call (advanceStage_reserves hcall)
    | sessionLost session => exact hw.calls
    | crash process =>
      exact fun pending hpending => hw.calls pending (List.mem_of_mem_filter hpending)
    | setEpisodes episodes => exact hw.calls

theorem sound_of_reachable (h : (icpSystem query limits).Reachable w) : w.Sound limits := by
  refine System.invariant (I := Sound limits) ?_ ?_ h
  · refine ⟨Table.keyed_nil _, ?_, fun _ _ _ _ => Nat.zero_le _, ?_⟩
    · exact fun row hrow => absurd hrow List.not_mem_nil
    · exact fun pending hpending => absurd hpending List.not_mem_nil
  · rintro w _ hw ⟨action, henabled, rfl⟩
    exact hw.act query henabled

end IcpWorld

/-! ## The result -/

/-- What holds of a world, and of whatever happens in it next. -/
structure NeverOversubscribed (query : PressureQuery) (limits : ReservationLimits) (w : IcpWorld) :
    Prop where
  charged    : ∀ localId peerId rootId,
    slots w.db.rows .charged localId peerId rootId ≤ limits.hardLimit
  overcharge : ∀ localId peerId rootId,
    slots w.db.rows .overcharge localId peerId rootId ≤ limits.overchargeLimit
  /-- Rows are found by their turn. -/
  keyed      : Table.Keyed TurnReservation.turnId w.db.rows
  /-- Delivering, delivered and without a reply do not go back to pending or failed. -/
  kept       : ∀ action : IcpAction, action.Enabled limits → ∀ row ∈ w.db.rows,
    row.outcome.settled = true → ∃ row' ∈ (w.act query action).db.rows,
      row'.turnId = row.turnId ∧ row'.outcome.settled = true
  /-- What fails was pending, and nobody holds its lease unless its own finalization failed it. -/
  reclaimed  : ∀ action : IcpAction, action.Enabled limits → ∀ row ∈ w.db.rows,
    row.outcome ≠ .failed → ∀ row' ∈ (w.act query action).db.rows, row'.turnId = row.turnId →
      row'.outcome = .failed →
        row.outcome = .pending ∧ (w.leased row.turnId = false ∨ w.Fails action row.turnId)
  /-- A turn has at most one slot. -/
  once       : ∀ turnId,
    w.db.rows.countP (fun row => row.turnId = turnId && row.outcome.counted) ≤ 1
  /-- Reserving a turn that has one changes nothing. -/
  again      : ∀ i answer process call created,
    w.calls[i]? = some { process, stage := .reserve call created } → call.Replays w.db →
      (w.act query (.advance i answer)).db = w.db

namespace IcpWorld

/-- A reserve of a turn that has a slot leaves the database as it is. -/
theorem act_reserve_again (hw : w.Sound limits) {i : Nat} {answer : StoreAnswer} {created : Bool}
    (hcall : w.calls[i]? = some { process, stage := .reserve call created })
    (hreplays : call.Replays w.db) : (w.act query (.advance i answer)).db = w.db := by
  have hfits : call.Fits limits := hw.calls _ (List.mem_of_getElem? hcall) call rfl
  have hsame : (w.transact (reserveBody query w.leased call)).1.db = w.db := by
    rcases Table.transaction_cases ReservationDb.constraints (reserveBody query w.leased call)
      w.db with ⟨message, hrolled⟩ | ⟨db', b, hbody, -, hcommitted⟩
    · exact congrArg Prod.fst hrolled
    · have hchange : (call.Replays w.db → db' = w.db) ∧
          RowChange limits w.leased (fun _ => False) w.db db'.rows :=
        reserveBody_change hfits hw.keyed hw.units hbody
      exact (congrArg Prod.fst hcommitted).trans (hchange.1 hreplays)
  unfold act
  simp only [hcall]
  cases answer with
  | done => exact hsame
  | lost committed =>
    cases committed with
    | true => exact hsame
    | false => rfl

end IcpWorld

/-- **ICP fatigue reservations never oversubscribe**, over any interleaving of the calls of any
number of processes, with sessions lost and processes crashing in between. -/
theorem icp_never_oversubscribes {query : PressureQuery} {limits : ReservationLimits}
    {w : IcpWorld} (h : (icpSystem query limits).Reachable w) :
    NeverOversubscribed query limits w := by
  have hw := IcpWorld.sound_of_reachable h
  refine ⟨fun localId peerId rootId => hw.within .charged localId peerId rootId,
    fun localId peerId rootId => hw.within .overcharge localId peerId rootId, hw.keyed,
    ?_, ?_, ?_, fun _ _ _ _ _ hcall hreplays => IcpWorld.act_reserve_again hw hcall hreplays⟩
  · intro action _ row hrow hsettled
    obtain ⟨row', hrow', hturn, hgoes⟩ := (IcpWorld.act_change hw query action).after hw.keyed hrow
    refine ⟨row', hrow', hturn, ?_⟩
    generalize row'.outcome = outcome at hgoes
    cases hgoes with
    | stays => exact hsettled
    | promoted => rfl
    | finalized _ hfinal => rcases hfinal with rfl | rfl <;> rfl
    | reclaimed hpending => simp [hpending, ReservationOutcome.settled] at hsettled
    | reopened hfailed => simp [hfailed, ReservationOutcome.settled] at hsettled
    | failed hpending => simp [hpending, ReservationOutcome.settled] at hsettled
  · intro action _ row hrow hne row' hrow' hturn hfailed
    rcases (IcpWorld.act_change hw query action).before row' hrow' with
      ⟨old, hold, hsame, -, -, -, hgoes⟩ | ⟨hpending, -, -⟩
    · obtain rfl := hw.keyed.unique hold hrow (hsame.trans hturn)
      rw [hfailed] at hgoes
      generalize houtcome : ReservationOutcome.failed = outcome at hgoes
      cases hgoes with
      | stays => exact absurd houtcome.symm hne
      | reclaimed hpending hlost => exact ⟨hpending, .inl hlost⟩
      | failed hpending hfails => exact ⟨hpending, .inr hfails⟩
      | reopened => cases houtcome
      | promoted => cases houtcome
      | finalized _ hfinal => rcases hfinal with rfl | rfl <;> cases houtcome
    · rw [hpending] at hfailed
      cases hfailed
  · intro turnId
    refine hw.keyed.countP_le_one fun row _ row' _ hp hp' => ?_
    simp only [Bool.and_eq_true, decide_eq_true_eq] at hp hp'
    exact hp.1.trans hp'.1.symm

/-! ## A crash, and a second turn -/

instance (limits : ReservationLimits) :
    (action : IcpAction) → Decidable (action.Enabled limits)
  | .start _ (.reserve input) =>
    inferInstanceAs (Decidable (input.amount = .finite 1 ∧
      input.hardLimit = .finite limits.hardLimit ∧
      input.overchargeLimit = .finite limits.overchargeLimit))
  | .start _ (.prepareDelivery _) | .start _ (.handoff _) | .start _ (.finalize _)
  | .advance _ _ | .sessionLost _ | .crash _ | .setEpisodes _ => inferInstanceAs (Decidable True)

theorem reachable_of_enabled {actions : List IcpAction}
    (h : ∀ action ∈ actions, action.Enabled limits) :
    (icpSystem query limits).Reachable (actions.foldl (IcpWorld.act query) {}) := by
  have hruns : ∀ (rest : List IcpAction) (w : IcpWorld), (∀ action ∈ rest, action.Enabled limits) →
      (icpSystem query limits).Reachable w →
      (icpSystem query limits).Reachable (rest.foldl (IcpWorld.act query) w) := by
    intro rest
    induction rest with
    | nil => exact fun _ _ hw => hw
    | cons action rest ih =>
      intro w hrest hw
      refine ih _ (fun a ha => hrest a (List.mem_cons_of_mem _ ha)) (hw.next ?_)
      exact ⟨action, hrest action List.mem_cons_self, rfl⟩
  exact hruns actions {} h Relation.ReflTransGen.refl

def fay : Uuid := ⟨"aaaaaaaa-0000-4000-8000-00000000000a", by decide +kernel⟩
def gus : Uuid := ⟨"bbbbbbbb-0000-4000-8000-00000000000b", by decide +kernel⟩

/-- A turn of Fay with Gus, of the conversation and root that Fay's own id names. -/
def fayTurn (turnId : Uuid) : IcpConversationCorrelation where
  turnId := turnId
  conversationId := fay
  rootInitiationId := fay
  localCompanionId := fay
  peerCompanionId := gus
  peerContactId := "gus"
  channelId := "room"

def fayEpisode : ConversationEpisode where
  conversationId := fay
  rootInitiationId := fay
  channelId := "room"
  participantCompanionIds := [fay, gus]
  isLive := true

def fayReserves (turnId : Uuid) : ReserveInput where
  correlation := fayTurn turnId
  timestampMs := .finite 0
  decision := .charged
  amount := .finite 1
  hardLimit := .finite 1
  overchargeLimit := .finite 1
  relationshipPressureHalfLifeMs := .finite 1
  relationshipPressureWindowMs := .finite 1
  unansweredInitiationAfterMs := .finite 1
  declinedPressureUnits := .finite 0
  deferredPressureUnits := .finite 0
  unansweredPressureUnits := .finite 0

/-- Process 0 reserves a turn and crashes; process 1 reserves another of the same root. -/
def crashThenReserve : List IcpAction :=
  [.setEpisodes [fayEpisode], .start 0 (.reserve (fayReserves fay)), .advance 0 .done,
    .advance 0 .done, .crash 0, .start 1 (.reserve (fayReserves gus)), .advance 0 .done,
    .advance 0 .done]

/-- No pressure but the slots themselves. -/
def noPressure : PressureQuery := fun _ _ _ => .ok { directionalChargedPressure := 0
                                                     contributingReservationCount := 0 }

theorem icp_never_oversubscribes_crashThenReserve :
    (crashThenReserve.foldl (IcpWorld.act noPressure) {}).db.rows.map (fun row =>
        (row.turnId, row.outcome)) = [(fay, .failed), (gus, .pending)] ∧
      NeverOversubscribed noPressure { hardLimit := 1, overchargeLimit := 1 }
        (crashThenReserve.foldl (IcpWorld.act noPressure) {}) :=
  ⟨by decide +kernel, icp_never_oversubscribes (reachable_of_enabled (by decide +kernel))⟩

end Psfn.Fatigue
