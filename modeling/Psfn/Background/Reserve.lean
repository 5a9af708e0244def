import Psfn.Background.Invariant

/-!
# Background work — the welfare reserve

`claimNext` one statement at a time. A transaction reads what is committed, with its own
writes on top; of another transaction it sees nothing but the advisory locks of the
sessions. The welfare `UPDATE` counts the running welfare jobs it can see, so two
transactions that claim for different sessions both count the same free slot
(`reserve_overrun`).

* `ClaimTransaction.statement` — the loop of `claimNext`, one statement per step;
* `Supervisors` — the database and the open transactions;
* `WithinReserve` — the invariant: committed and uncommitted welfare claims together;
* `welfareReserve_bounded` — the bound, when a welfare `UPDATE` that claims leaves room for
  the uncommitted welfare claims of the others.
-/

namespace Psfn.Background

open Psfn.Lib

/-! ## One transaction -/

/-- The statement a claim transaction sends next. -/
inductive ClaimPhase where
  | lock | dropLeases | update | commit | rollback
deriving DecidableEq, Repr

structure ClaimTransaction where
  input      : ClaimInput
  /-- The candidates left, the one at hand first. -/
  candidates : List ClaimCandidate
  phase      : ClaimPhase := .lock
  /-- Sessions whose advisory lock it holds. -/
  locks      : List Text := []
  /-- Sessions whose expired foreground leases it has deleted. -/
  dropped    : List Text := []
  /-- The row it has updated. -/
  written    : Option BackgroundWorkRow := none

/-- What the transaction reads: the committed rows and its own writes. -/
def ClaimTransaction.view (tx : ClaimTransaction) (db : Database) : Database :=
  let expired (lease : ForegroundLeaseRow) : Bool :=
    tx.dropped.contains lease.logicalSessionId && lease.expiresAtMs ≤ tx.input.nowMs.value
  let jobs := tx.written.elim db.jobs fun row =>
    Table.update (fun job => job.jobId = row.jobId) (fun _ => row) db.jobs
  { db with jobs, foregroundLeases := Table.delete expired db.foregroundLeases }

/-- `BEGIN` and the query for candidates. -/
def beginClaim (input : ClaimInput) (db : Database) : ClaimTransaction :=
  { input, candidates := claimCandidates db input }

/-- One statement of the loop; `acquired` is the answer of `pg_try_advisory_xact_lock`. -/
def ClaimTransaction.statement (tx : ClaimTransaction) (acquired : Bool) (db : Database) :
    ClaimTransaction :=
  match tx.candidates with
  | [] => { tx with phase := .commit }
  | candidate :: candidates =>
    match tx.phase with
    | .lock =>
      if acquired then
        { tx with locks := candidate.logicalSessionId :: tx.locks, phase := .dropLeases }
      else { tx with candidates }
    | .dropLeases =>
      { tx with dropped := candidate.logicalSessionId :: tx.dropped, phase := .update }
    | .update =>
      match (tx.view db).jobs.find? (claimable (tx.view db) tx.input candidate) with
      | none => { tx with candidates, phase := .lock }
      | some job =>
        let row := claimedRow tx.input candidate.viaWelfare job
        match mapClaimedRow row with
        | .ok _ => { tx with written := some row, phase := .commit }
        | .error _ => { tx with phase := .rollback }
    | .commit => tx
    | .rollback => tx

/-- The next statement is a welfare `UPDATE`, and its condition holds of a row. -/
def ClaimTransaction.claimsWelfare (tx : ClaimTransaction) (db : Database) : Bool :=
  tx.phase = .update && tx.candidates.head?.any fun candidate => candidate.viaWelfare
    && (tx.view db).jobs.any (claimable (tx.view db) tx.input candidate)

/-- An uncommitted welfare claim. -/
def ClaimTransaction.holdsWelfare (tx : ClaimTransaction) : Bool :=
  tx.written.any (·.welfareClaimed)

/-! ## Any number of them -/

structure Supervisors where
  store : World := {}
  /-- The open claim transactions. -/
  txs   : List ClaimTransaction := []

def Supervisors.db (s : Supervisors) : Database := s.store.db

def openWelfare (txs : List ClaimTransaction) : Nat := txs.countP (·.holdsWelfare)

/-- When `guarded`, a welfare `UPDATE` that claims finds a slot that no other open
transaction has taken either. -/
inductive ClaimStep (rt : HandoffRuntime) (policy : WelfarePolicy) (guarded : Bool) :
    Supervisors → Supervisors → Prop
  | begin (s : Supervisors) (input : ClaimInput) (hpolicy : input.welfare = policy) :
      ClaimStep rt policy guarded s { s with txs := s.txs ++ [beginClaim input s.db] }
  | statement (store : World) (before after : List ClaimTransaction) (tx : ClaimTransaction)
      (acquired : Bool)
      (hlock : acquired = true → ∀ candidate ∈ tx.candidates.head?,
        ∀ other ∈ before ++ after, candidate.logicalSessionId ∉ other.locks)
      (hroom : guarded = true → tx.claimsWelfare store.db = true →
        welfareRunning store.db.jobs + openWelfare (before ++ after) < policy.reserveSlots) :
      ClaimStep rt policy guarded ⟨store, before ++ tx :: after⟩
        ⟨store, before ++ tx.statement acquired store.db :: after⟩
  | commit (store : World) (before after : List ClaimTransaction) (tx : ClaimTransaction)
      (hphase : tx.phase = .commit) :
      ClaimStep rt policy guarded ⟨store, before ++ tx :: after⟩
        ⟨store.commit (withPostgresClient (fun db => .ok (tx.view db, ())) store.db).1,
          before ++ after⟩
  | rollback (store : World) (before after : List ClaimTransaction) (tx : ClaimTransaction) :
      ClaimStep rt policy guarded ⟨store, before ++ tx :: after⟩ ⟨store, before ++ after⟩
  -- a row lock of an open claim would only take some of these away
  | other (s : Supervisors) (action : Action) (hother : ¬ action.updates .claim) :
      ClaimStep rt policy guarded s { s with store := perform rt action s.store }

/-- Supervisors with one welfare policy, their statements in any order. -/
def claimers (rt : HandoffRuntime) (policy : WelfarePolicy) (guarded : Bool) :
    System Supervisors where
  init := {}
  step := ClaimStep rt policy guarded

/-! ## Other transactions start no welfare claim -/

def welfareHeld (job : BackgroundWorkRow) : Bool := job.running && job.welfareClaimed

theorem RowStep.welfareHeld {update : Update} {job job' : BackgroundWorkRow}
    (h : RowStep update job job') (hclaim : update ≠ .claim) (hheld : welfareHeld job' = true) :
    welfareHeld job = true := by
  cases h with
  | claimed input viaWelfare hrunnable hlease => exact absurd rfl hclaim
  | renewed nowMs leaseDurationMs hrunning hlease => exact hheld
  | overran nowMs leaseDurationMs hrunning => exact hheld
  | superseded atMs hrunnable =>
    simp [Background.welfareHeld, Background.superseded, BackgroundWorkRow.running] at hheld
  -- every other update clears the flag
  | settled state reasonCode atMs hrunning hterminal =>
    simp [Background.welfareHeld, settledRow, releasedRow] at hheld
  | deferred reason availableAtMs nowMs hrunning =>
    simp [Background.welfareHeld, deferredRow, releasedRow] at hheld
  | retried terminal reasonCode nowMs retryAtMs hrunning hattempts =>
    simp [Background.welfareHeld, retriedRow, releasedRow] at hheld
  | requeued nowMs hrunning =>
    simp [Background.welfareHeld, requeuedRow, releasedRow] at hheld
  | expired nowMs claim hopen hbudget =>
    simp [Background.welfareHeld, expiredRow, releasedRow] at hheld

theorem RowSteps.welfareHeld {job job' : BackgroundWorkRow} (h : RowSteps (· ≠ .claim) job job')
    (hheld : welfareHeld job' = true) : welfareHeld job = true := by
  induction h with
  | refl => exact hheld
  | tail _ hstep ih =>
    obtain ⟨update, hclaim, hstep⟩ := hstep
    exact ih (hstep.welfareHeld hclaim hheld)

/-- Every welfare claim of the second database is one of the first. -/
def Calms (db db' : Database) : Prop :=
  ∀ job' ∈ db'.jobs, welfareHeld job' = true →
    ∃ job ∈ db.jobs, job.jobId = job'.jobId ∧ welfareHeld job = true

theorem Calms.refl (db : Database) : Calms db db := fun job hjob hheld => ⟨job, hjob, rfl, hheld⟩

theorem Advances.calms {db db' : Database} (h : Advances (· ≠ .claim) db db') : Calms db db' := by
  intro job' hjob' hheld
  rcases h.rows job' hjob' with ⟨job, hjob, hsteps⟩ | ⟨-, input, hsteps⟩
  · exact ⟨job, hjob, hsteps.follows.jobId.symm, hsteps.welfareHeld hheld⟩
  · -- a row is inserted without the flag
    have hinserted := hsteps.welfareHeld hheld
    simp [welfareHeld, insertedRow] at hinserted

theorem renewClaims_calms (leaseOwner : Text) (jobIds : List Text)
    (nowMs leaseDurationMs : SafeInteger) (db : Database) :
    Calms db (renewClaims leaseOwner jobIds nowMs leaseDurationMs db).1 := by
  unfold renewClaims
  rw [autocommit_fst]
  split
  · intro job' hjob' hheld
    obtain ⟨job, hjob, ⟨-, rfl⟩ | ⟨-, rfl⟩⟩ := Table.mem_update.mp hjob'
    · exact ⟨job, hjob, rfl, hheld⟩
    · exact ⟨job', hjob, rfl, hheld⟩
  · exact Calms.refl db

/-- A sweep clears the flag of every row it changes, disturbed or not. -/
theorem recoverExpired_calms (nowMs : SafeInteger) (atDelete atUpdate db : Database) :
    Calms db (recoverExpired nowMs atDelete atUpdate db).1 := by
  rcases withPostgresClient_cases (fun db => applyExpired nowMs (findExpired nowMs.value atUpdate)
      (dropPendingReceipts nowMs.value atDelete db)) db with
    hsame | ⟨db', count, hbody, -, hresult⟩
  · rw [recoverExpired, hsame]
    exact Calms.refl db
  · rw [recoverExpired, hresult]
    obtain ⟨settled, hsettled, hbody⟩ := bind_eq_ok.mp hbody
    cases hbody
    intro job' hjob' hheld
    -- what follows the update leaves the jobs, up to steps that clear the flag too
    have hframe : Extends (· ≠ .claim) _ db' := foldlM_extends settleSwept_extends hsettled
    obtain ⟨swept, hswept, hid, hheld'⟩ := hframe.toAdvances.calms job' hjob' hheld
    obtain ⟨job, hjob, rfl⟩ := List.mem_map.mp hswept
    refine ⟨job, hjob, ?_, ?_⟩
    · rw [← hid]
      unfold sweptRow
      split <;> rfl
    · unfold sweptRow at hheld'
      split at hheld'
      · simp [welfareHeld, expiredRow, releasedRow] at hheld'
      · exact hheld'

theorem perform_calms (rt : HandoffRuntime) {action : Action} (hother : ¬ action.updates .claim)
    {w : World} (hdb : w.db.constraints = true) : Calms w.db (perform rt action w).db := by
  have hadvances : action.Meets w → Calms w.db (perform rt action w).db := by
    intro hmeets
    refine Advances.calms (perform_advances hdb hmeets fun update hupdate => ?_)
    rintro rfl
    exact hother hupdate
  cases action with
  | renewClaims leaseOwner jobIds nowMs leaseDurationMs =>
    exact renewClaims_calms leaseOwner jobIds nowMs leaseDurationMs w.db
  | recoverExpired nowMs deleteAge updateAge => exact recoverExpired_calms nowMs _ _ w.db
  | claimNext input busy age => exact absurd rfl hother
  | enqueueBatch inputs => exact hadvances trivial
  | recoverBatch jobs original => exact hadvances trivial
  | settle token settlement => exact hadvances trivial
  | requeuePreBoundaryClaims leaseOwner nowMs age => exact hadvances trivial
  | purgeTerminal completedBeforeMs limit => exact hadvances trivial
  | elsewhere receipts foregroundLeases outputStatus => exact hadvances trivial

/-! ## The invariant -/

/-- A transaction has written only when it is about to commit. -/
def WritesLast (tx : ClaimTransaction) : Prop := tx.written.isSome = true → tx.phase = .commit

structure WithinReserve (policy : WelfarePolicy) (s : Supervisors) : Prop where
  constraints : s.db.constraints = true
  writesLast  : ∀ tx ∈ s.txs, WritesLast tx
  bound       : welfareRunning s.db.jobs + openWelfare s.txs ≤ policy.reserveSlots

theorem openWelfare_append (txs txs' : List ClaimTransaction) :
    openWelfare (txs ++ txs') = openWelfare txs + openWelfare txs' := List.countP_append

theorem openWelfare_cons (tx : ClaimTransaction) (txs : List ClaimTransaction) :
    openWelfare (tx :: txs) = openWelfare txs + (if tx.holdsWelfare then 1 else 0) :=
  List.countP_cons

/-- A statement keeps what was written, or is the welfare `UPDATE` that claims. -/
theorem holdsWelfare_statement {tx : ClaimTransaction} {acquired : Bool} {db : Database}
    (hholds : (tx.statement acquired db).holdsWelfare = true) :
    tx.holdsWelfare = true ∨ tx.claimsWelfare db = true := by
  unfold ClaimTransaction.statement at hholds
  split at hholds
  · exact Or.inl hholds
  · rename_i candidate candidates hcandidates
    split at hholds
    · split at hholds <;> exact Or.inl hholds
    · exact Or.inl hholds
    · rename_i hphase
      split at hholds
      · exact Or.inl hholds
      · rename_i job hfind
        dsimp only at hholds
        split at hholds
        · -- the row it writes has the flag only on the welfare path
          right
          have hwelfare : candidate.viaWelfare = true := hholds
          have hany : (tx.view db).jobs.any (claimable (tx.view db) tx.input candidate) = true :=
            List.any_eq_true.mpr ⟨job, List.mem_of_find?_eq_some hfind, List.find?_some hfind⟩
          simp [ClaimTransaction.claimsWelfare, hphase, hcandidates, hwelfare, hany]
        · exact Or.inl hholds
    · exact Or.inl hholds
    · exact Or.inl hholds

theorem writesLast_statement {tx : ClaimTransaction} (hlast : WritesLast tx) (acquired : Bool)
    (db : Database) : WritesLast (tx.statement acquired db) := by
  intro hwritten
  unfold ClaimTransaction.statement at hwritten ⊢
  split
  · rfl
  · rename_i candidate candidates hcandidates
    simp only [hcandidates] at hwritten
    split
    · -- before the update nothing is written
      rename_i hphase
      simp only [hphase] at hwritten
      have hnone : tx.written.isSome = true := by
        cases acquired <;> simpa using hwritten
      exact absurd (hphase.symm.trans (hlast hnone)) (by decide)
    · rename_i hphase
      simp only [hphase] at hwritten
      exact absurd (hphase.symm.trans (hlast hwritten)) (by decide)
    · rename_i hphase
      simp only [hphase] at hwritten
      split
      · rename_i hnone
        simp only [hnone] at hwritten
        exact absurd (hphase.symm.trans (hlast hwritten)) (by decide)
      · rename_i job hfind
        simp only [hfind] at hwritten
        dsimp only
        split
        · rfl
        · rename_i message herror
          simp only [herror] at hwritten
          exact absurd (hphase.symm.trans (hlast hwritten)) (by decide)
    · assumption
    · rename_i hphase
      simp only [hphase] at hwritten
      exact hlast hwritten

/-- The claim a commit publishes is the one that was counted as open. -/
theorem welfareRunning_view {db : Database} (hdb : db.constraints = true) (tx : ClaimTransaction) :
    welfareRunning (tx.view db).jobs ≤
      welfareRunning db.jobs + (if tx.holdsWelfare then 1 else 0) := by
  unfold ClaimTransaction.view ClaimTransaction.holdsWelfare
  cases tx.written with
  | none => exact Nat.le_add_right _ _
  | some row =>
    have hcount := (jobs_keyed hdb).countP_replace
      (fun job => job.running && job.welfareClaimed) row
    refine Nat.le_trans hcount (Nat.add_le_add_left ?_ _)
    by_cases hflag : row.welfareClaimed = true
    · simp only [Option.any_some, hflag, if_true]
      split <;> omega
    · simp [hflag]

theorem welfareRunning_of_calms {db db' : Database} (h : Calms db db')
    (hdb' : db'.constraints = true) : welfareRunning db'.jobs ≤ welfareRunning db.jobs :=
  (jobs_keyed hdb').countP_le h

theorem WithinReserve.step {rt : HandoffRuntime} {policy : WelfarePolicy} {s s' : Supervisors}
    (h : WithinReserve policy s) (hstep : ClaimStep rt policy true s s') :
    WithinReserve policy s' := by
  obtain ⟨hdb, hlast, hbound⟩ := h
  cases hstep with
  | begin _ input hpolicy =>
    refine ⟨hdb, ?_, ?_⟩
    · intro tx htx
      rcases List.mem_append.mp htx with hold | hnew
      · exact hlast tx hold
      · rw [List.mem_singleton.mp hnew]
        intro hwritten
        cases hwritten
    · -- a transaction that has only read holds nothing
      have hnothing : openWelfare [beginClaim input s.db] = 0 := rfl
      show welfareRunning s.db.jobs + openWelfare (s.txs ++ [beginClaim input s.db]) ≤ _
      rw [openWelfare_append, hnothing]
      exact hbound
  | statement store before after tx acquired hlock hroom =>
    have htx := hlast tx (by simp)
    refine ⟨hdb, ?_, ?_⟩
    · intro other hother
      rcases List.mem_append.mp hother with hbefore | hrest
      · exact hlast other (List.mem_append_left _ hbefore)
      · rcases List.mem_cons.mp hrest with rfl | hafter
        · exact writesLast_statement htx acquired store.db
        · exact hlast other (List.mem_append_right _ (List.mem_cons_of_mem _ hafter))
    · show welfareRunning store.db.jobs +
        openWelfare (before ++ tx.statement acquired store.db :: after) ≤ policy.reserveSlots
      have hbefore : welfareRunning store.db.jobs + openWelfare (before ++ tx :: after) ≤
        policy.reserveSlots := hbound
      rw [openWelfare_append, openWelfare_cons] at hbefore ⊢
      by_cases hholds : (tx.statement acquired store.db).holdsWelfare = true
      · rcases holdsWelfare_statement hholds with hheld | hclaims
        · rw [if_pos hholds]
          rw [if_pos hheld] at hbefore
          exact hbefore
        · -- the statement claims: the room was there
          have hslots := hroom rfl hclaims
          rw [openWelfare_append] at hslots
          rw [if_pos hholds]
          omega
      · rw [if_neg hholds]
        omega
  | commit store before after tx hphase =>
    refine ⟨withPostgresClient_constraints _ hdb, ?_, ?_⟩
    · intro other hother
      refine hlast other ?_
      rcases List.mem_append.mp hother with hbefore | hafter
      · exact List.mem_append_left _ hbefore
      · exact List.mem_append_right _ (List.mem_cons_of_mem _ hafter)
    · show welfareRunning (withPostgresClient (fun db => .ok (tx.view db, ())) store.db).1.jobs +
        openWelfare (before ++ after) ≤ policy.reserveSlots
      have hbefore : welfareRunning store.db.jobs + openWelfare (before ++ tx :: after) ≤
        policy.reserveSlots := hbound
      rw [openWelfare_append, openWelfare_cons] at hbefore
      rw [openWelfare_append]
      rcases withPostgresClient_cases (fun db => .ok (tx.view db, ())) store.db with
        hsame | ⟨db', u, hbody, -, hresult⟩
      · rw [hsame]
        omega
      · rw [hresult]
        cases hbody
        have hview := welfareRunning_view hdb tx
        have hview' : welfareRunning (tx.view store.db).jobs ≤
          welfareRunning store.db.jobs + (if tx.holdsWelfare then 1 else 0) := hview
        show welfareRunning (tx.view store.db).jobs + _ ≤ _
        omega
  | rollback store before after tx =>
    refine ⟨hdb, ?_, ?_⟩
    · intro other hother
      refine hlast other ?_
      rcases List.mem_append.mp hother with hbefore | hafter
      · exact List.mem_append_left _ hbefore
      · exact List.mem_append_right _ (List.mem_cons_of_mem _ hafter)
    · show welfareRunning store.db.jobs + openWelfare (before ++ after) ≤ policy.reserveSlots
      have hbefore : welfareRunning store.db.jobs + openWelfare (before ++ tx :: after) ≤
        policy.reserveSlots := hbound
      rw [openWelfare_append, openWelfare_cons] at hbefore
      rw [openWelfare_append]
      omega
  | other _ action hother =>
    have hvalid : (perform rt action s.store).db.constraints = true :=
      perform_constraints rt action hdb
    refine ⟨hvalid, hlast, ?_⟩
    have hfewer := welfareRunning_of_calms (perform_calms rt hother hdb) hvalid
    have hbefore : welfareRunning s.store.db.jobs + openWelfare s.txs ≤ policy.reserveSlots :=
      hbound
    show welfareRunning (perform rt action s.store).db.jobs + openWelfare s.txs ≤ _
    omega

/-- **The welfare reserve is bounded**, in every state of every run in which a welfare
`UPDATE` that claims leaves room for the uncommitted welfare claims of the others. -/
theorem welfareReserve_bounded (rt : HandoffRuntime) (policy : WelfarePolicy) {s : Supervisors}
    (h : (claimers rt policy true).Reachable s) :
    welfareRunning s.db.jobs ≤ policy.reserveSlots := by
  have hreserve : WithinReserve policy s := by
    refine System.invariant ⟨rfl, ?_, Nat.zero_le _⟩ (fun _ _ hs hstep => hs.step hstep) h
    intro tx htx
    cases htx
  have hbound := hreserve.bound
  omega

/-! ## Claims that overlap -/

/-- While no other transaction has an uncommitted welfare claim, the code's own count is
enough. -/
theorem room_of_none_open {tx : ClaimTransaction} {db : Database} {others : List ClaimTransaction}
    (hwritten : tx.written = none) (hothers : openWelfare others = 0)
    (hclaims : tx.claimsWelfare db = true) :
    welfareRunning db.jobs + openWelfare others < tx.input.welfare.reserveSlots := by
  unfold ClaimTransaction.claimsWelfare at hclaims
  cases hcandidates : tx.candidates with
  | nil => simp [hcandidates] at hclaims
  | cons candidate candidates =>
    simp only [hcandidates, List.head?_cons, Option.any_some, Bool.and_eq_true,
      List.any_eq_true] at hclaims
    obtain ⟨-, hwelfare, job, -, hclaimable⟩ := hclaims
    simp only [claimable, hwelfare, if_true, Bool.and_eq_true, decide_eq_true_eq] at hclaimable
    have hcount : welfareRunning (tx.view db).jobs < tx.input.welfare.reserveSlots :=
      hclaimable.1.2.2
    have hjobs : (tx.view db).jobs = db.jobs := by simp [ClaimTransaction.view, hwritten]
    rw [hjobs] at hcount
    omega

/-- A transaction that claims its first candidate. -/
def soloTransaction (input : ClaimInput) (db : Database) : ClaimTransaction :=
  (((beginClaim input db).statement true db).statement true db).statement true db

/-- … with nothing beside it. -/
def soloClaim (input : ClaimInput) (w : World) : World :=
  w.commit (withPostgresClient (fun db => .ok ((soloTransaction input w.db).view db, ())) w.db).1

theorem reachable_soloClaim {rt : HandoffRuntime} {policy : WelfarePolicy} {guarded : Bool}
    {w : World} (h : (claimers rt policy guarded).Reachable ⟨w, []⟩) {input : ClaimInput}
    (hpolicy : input.welfare = policy) (candidate : ClaimCandidate)
    (candidates : List ClaimCandidate)
    (hcandidates : claimCandidates w.db input = candidate :: candidates)
    (hphase : (soloTransaction input w.db).phase = .commit) :
    (claimers rt policy guarded).Reachable ⟨soloClaim input w, []⟩ := by
  -- the three statements, none of which has anything else beside it
  have hstatement : ∀ tx : ClaimTransaction, tx.input.welfare = policy → tx.written = none →
      (claimers rt policy guarded).Reachable ⟨w, [tx]⟩ →
        (claimers rt policy guarded).Reachable ⟨w, [tx.statement true w.db]⟩ := by
    intro tx hwelfare hwritten htx
    refine htx.next (ClaimStep.statement w [] [] tx true (fun _ _ _ other hother => ?_)
      fun _ hclaims => ?_)
    · cases hother
    · rw [← hwelfare]
      exact room_of_none_open hwritten rfl hclaims
  have hbegin : (claimers rt policy guarded).Reachable ⟨w, [beginClaim input w.db]⟩ :=
    h.next (ClaimStep.begin ⟨w, []⟩ input hpolicy)
  have hlocked := hstatement _ hpolicy rfl hbegin
  have hfirst : (beginClaim input w.db).statement true w.db =
      { beginClaim input w.db with
        locks := [candidate.logicalSessionId], phase := .dropLeases } := by
    simp [ClaimTransaction.statement, beginClaim, hcandidates]
  have hsecond : ((beginClaim input w.db).statement true w.db).statement true w.db =
      { beginClaim input w.db with
        locks := [candidate.logicalSessionId], dropped := [candidate.logicalSessionId]
        phase := .update } := by
    rw [hfirst]
    simp [ClaimTransaction.statement, beginClaim, hcandidates]
  have hdropped := hstatement _ (by rw [hfirst]; exact hpolicy) (by rw [hfirst]; rfl) hlocked
  have hupdated := hstatement _ (by rw [hsecond]; exact hpolicy) (by rw [hsecond]; rfl) hdropped
  exact hupdated.next (ClaimStep.commit w [] [] _ hphase)

def firstText : Text := ⟨"first", by decide +kernel, by decide, by decide +kernel⟩

def secondText : Text := ⟨"second", by decide +kernel, by decide, by decide +kernel⟩

def onePolicy : WelfarePolicy := { deferThreshold := 1, ageThresholdMs := 1, reserveSlots := 1 }

def acceptJob (id : Text) : Action :=
  .enqueueBatch [{ sampleInput with jobId := id, idempotencyKey := id, logicalSessionId := id }]

/-- The claim is given back to a foreground turn, to be tried again much later. -/
def deferJob (id : Text) : Action :=
  .settle ⟨id, sampleText, 2⟩ (.defer .foregroundActive ⟨100, sampleDelay_safe⟩ .zero)

def claimBeside (excluded : List Text) : ClaimInput :=
  { sampleClaim with welfare := onePolicy, excludedLogicalSessionIds := excluded }

/-- Two jobs of two sessions, the first claimed. -/
def firstClaimed : World :=
  soloClaim (claimBeside []) (perform plainRuntime (acceptJob secondText)
    (perform plainRuntime (acceptJob firstText) {}))

/-- … the first deferred and the second claimed. -/
def secondClaimed : World :=
  soloClaim (claimBeside [firstText]) (perform plainRuntime (deferJob firstText) firstClaimed)

/-- … both deferred, so that only the welfare path admits them. -/
def bothDeferred : World := perform plainRuntime (deferJob secondText) secondClaimed

theorem bothDeferred_reachable (guarded : Bool) :
    (claimers plainRuntime onePolicy guarded).Reachable ⟨bothDeferred, []⟩ := by
  have hinit : (claimers plainRuntime onePolicy guarded).Reachable ⟨{}, []⟩ :=
    Relation.ReflTransGen.refl
  have haccepted := (hinit.next (ClaimStep.other _ (acceptJob firstText) (by rintro ⟨⟩))).next
    (ClaimStep.other _ (acceptJob secondText) (by rintro ⟨⟩))
  have hfirst : (claimers plainRuntime onePolicy guarded).Reachable ⟨firstClaimed, []⟩ :=
    reachable_soloClaim haccepted rfl ⟨firstText, firstText, false⟩
      [⟨secondText, secondText, false⟩] (by decide +kernel) (by decide +kernel)
  have hdeferred := hfirst.next (ClaimStep.other _ (deferJob firstText) (by rintro ⟨⟩))
  have hsecond : (claimers plainRuntime onePolicy guarded).Reachable ⟨secondClaimed, []⟩ :=
    reachable_soloClaim hdeferred rfl ⟨secondText, secondText, false⟩ []
      (by decide +kernel) (by decide +kernel)
  exact hsecond.next (ClaimStep.other _ (deferJob secondText) (by rintro ⟨⟩))

/-- Two supervisors, each past its welfare `UPDATE`, commit one after the other. -/
def overrun : World :=
  let first := soloTransaction (claimBeside []) bothDeferred.db
  let second := soloTransaction (claimBeside [firstText]) bothDeferred.db
  let w := bothDeferred.commit
    (withPostgresClient (fun db => .ok (first.view db, ())) bothDeferred.db).1
  w.commit (withPostgresClient (fun db => .ok (second.view db, ())) w.db).1

theorem overrun_reachable : (claimers plainRuntime onePolicy false).Reachable ⟨overrun, []⟩ := by
  -- a statement of either, the other open beside it
  have hstatement : ∀ (before after : List ClaimTransaction) (tx : ClaimTransaction),
      (∀ candidate ∈ tx.candidates.head?, ∀ other ∈ before ++ after,
        candidate.logicalSessionId ∉ other.locks) →
      (claimers plainRuntime onePolicy false).Reachable ⟨bothDeferred, before ++ tx :: after⟩ →
        (claimers plainRuntime onePolicy false).Reachable
          ⟨bothDeferred, before ++ tx.statement true bothDeferred.db :: after⟩ :=
    fun before after tx hlock htx => htx.next
      (ClaimStep.statement bothDeferred before after tx true (fun _ => hlock) fun h => by cases h)
  have hopen := ((bothDeferred_reachable false).next
    (ClaimStep.begin ⟨bothDeferred, []⟩ (claimBeside []) rfl)).next
      (ClaimStep.begin ⟨bothDeferred, [beginClaim (claimBeside []) bothDeferred.db]⟩
        (claimBeside [firstText]) rfl)
  have hnolocks : ∀ tx : ClaimTransaction, ∀ candidate ∈ tx.candidates.head?,
      ∀ other ∈ ([] ++ [beginClaim (claimBeside [firstText]) bothDeferred.db]),
        candidate.logicalSessionId ∉ other.locks := by
    intro tx candidate _ other hother
    rw [List.mem_singleton.mp hother]
    exact List.not_mem_nil
  have hfirst := hstatement [] _ _ (hnolocks _) (hstatement [] _ _ (hnolocks _)
    (hstatement [] _ _ (hnolocks _) hopen))
  have hlocks : ∀ tx : ClaimTransaction,
      tx.candidates.head?.map (·.logicalSessionId) = some secondText →
      ∀ candidate ∈ tx.candidates.head?,
        ∀ other ∈ ([soloTransaction (claimBeside []) bothDeferred.db] ++ []),
          candidate.logicalSessionId ∉ other.locks := by
    intro tx hhead candidate hcandidate other hother
    rw [List.mem_singleton.mp hother]
    have hsession : candidate.logicalSessionId = secondText := by
      rw [Option.mem_def.mp hcandidate] at hhead
      exact Option.some.inj hhead
    rw [hsession]
    decide +kernel
  have hsecond := hstatement [_] [] _ (hlocks _ (by decide +kernel))
    (hstatement [_] [] _ (hlocks _ (by decide +kernel))
      (hstatement [_] [] _ (hlocks _ (by decide +kernel)) hfirst))
  have hcommitted := hsecond.next (ClaimStep.commit bothDeferred [] _
    (soloTransaction (claimBeside []) bothDeferred.db) (by decide +kernel))
  exact hcommitted.next (ClaimStep.commit _ [] []
    (soloTransaction (claimBeside [firstText]) bothDeferred.db) (by decide +kernel))

/-- Both claims were counted into the one slot. -/
theorem reserve_overrun : ¬ ∀ (rt : HandoffRuntime) (policy : WelfarePolicy) (s : Supervisors),
    (claimers rt policy false).Reachable s → welfareRunning s.db.jobs ≤ policy.reserveSlots := by
  intro hall
  have hbound : welfareRunning overrun.db.jobs ≤ onePolicy.reserveSlots :=
    hall plainRuntime onePolicy ⟨overrun, []⟩ overrun_reachable
  exact absurd hbound (by decide +kernel)

/-- One supervisor alone takes the slot and no more. -/
theorem welfareReserve_bounded_solo :
    let w := soloClaim (claimBeside []) bothDeferred
    welfareRunning w.db.jobs = 1 ∧ welfareRunning w.db.jobs ≤ onePolicy.reserveSlots := by
  intro w
  refine ⟨by decide +kernel, ?_⟩
  have hreach : (claimers plainRuntime onePolicy true).Reachable ⟨w, []⟩ :=
    reachable_soloClaim (bothDeferred_reachable true) rfl ⟨firstText, firstText, true⟩
      [⟨secondText, secondText, true⟩] (by decide +kernel) (by decide +kernel)
  exact welfareReserve_bounded plainRuntime onePolicy hreach

end Psfn.Background
