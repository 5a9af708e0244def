import Psfn.Background.Receipts

/-!
# Background work — one write per effect

The receipt of a key holds the revision of the claim that crossed its boundary. No other
claim of the job has that revision, and that claim runs the effect once. So one run at most
gets to its sink.

* `WorkersSound` — the invariant;
* `not_written_of_crossed` — a run over its boundary that has not written is the first to;
* `WorkersSound.act`, `workersSound_of_reachable`, `continues_of_runs`.
-/

namespace Psfn.Background

open Psfn.Lib

/-! ## The invariant -/

structure WorkersSound (w : Workers) : Prop where
  constraints : w.db.constraints = true
  /-- A row has at least the revision of every claim that was taken on it. -/
  claimed     : ∀ token ∈ w.claims, ∃ job ∈ w.db.jobs, job.jobId = token.jobId ∧
    token.expectedRevision ≤ job.revision
  distinct    : Table.Keyed (fun token => (token.jobId, token.expectedRevision)) w.claims
  active      : ∀ token effectKey, w.phase token effectKey ≠ .idle → token ∈ w.claims
  crossed     : ∀ token effectKey, w.phase token effectKey = .crossed →
    CrossedBy w.db token effectKey
  /-- A write's run is over its boundary, and past its write. -/
  written     : ∀ write ∈ w.writes, CrossedBy w.db write.token write.effectKey ∧
    (w.phase write.token write.effectKey = .wrote ∨ w.phase write.token write.effectKey = .ended)
  once        : Table.Keyed (fun write => (write.token.jobId, write.effectKey)) w.writes

variable {w : Workers}

theorem WorkersSound.move (h : WorkersSound w) {db : Database} (hmoves : Moves w.db db) :
    WorkersSound { w with db } where
  constraints := hmoves.constraints
  distinct := h.distinct
  active := h.active
  once := h.once
  crossed := fun token effectKey hphase => (h.crossed token effectKey hphase).moves hmoves
  written := fun write hwrite =>
    ⟨(h.written write hwrite).1.moves hmoves, (h.written write hwrite).2⟩
  claimed := by
    intro token htoken
    obtain ⟨job, hjob, hid, hrevision⟩ := h.claimed token htoken
    obtain ⟨job', hjob', hid', hrevision'⟩ := hmoves.rows job hjob
    exact ⟨job', hjob', hid'.trans hid, Nat.le_trans hrevision hrevision'⟩

theorem WorkersSound.lose (h : WorkersSound w) (token : ClaimToken) :
    WorkersSound (w.lose token) :=
  ⟨h.constraints, h.claimed, h.distinct, h.active, h.crossed, h.written, h.once⟩

@[simp] theorem setPhase_self (w : Workers) (token : ClaimToken) (effectKey : Text)
    (phase : RunPhase) : (w.setPhase token effectKey phase).phase token effectKey = phase := by
  simp [Workers.setPhase]

variable {token : ClaimToken} {effectKey : Text}

theorem setPhase_other (w : Workers) {token' : ClaimToken} {effectKey' : Text} (phase : RunPhase)
    (h : ¬ (token' = token ∧ effectKey' = effectKey)) :
    (w.setPhase token effectKey phase).phase token' effectKey' = w.phase token' effectKey' :=
  if_neg h

/-- A run moves on: only a write takes it past its write, and only a crossing over the
boundary. -/
theorem WorkersSound.setPhase (h : WorkersSound w) {phase : RunPhase} (hclaimed : token ∈ w.claims)
    (hcrossed : phase = .crossed → CrossedBy w.db token effectKey)
    (hpast : w.phase token effectKey = .wrote ∨ w.phase token effectKey = .ended →
      phase = .wrote ∨ phase = .ended) :
    WorkersSound (w.setPhase token effectKey phase) where
  constraints := h.constraints
  claimed := h.claimed
  distinct := h.distinct
  once := h.once
  active := by
    intro token' effectKey' hactive
    by_cases hsame : token' = token ∧ effectKey' = effectKey
    · rw [hsame.1]
      exact hclaimed
    · rw [setPhase_other w phase hsame] at hactive
      exact h.active token' effectKey' hactive
  crossed := by
    intro token' effectKey' hphase
    by_cases hsame : token' = token ∧ effectKey' = effectKey
    · obtain ⟨rfl, rfl⟩ := hsame
      rw [setPhase_self] at hphase
      exact hcrossed hphase
    · rw [setPhase_other w phase hsame] at hphase
      exact h.crossed token' effectKey' hphase
  written := by
    intro write hwrite
    obtain ⟨hboundary, hphase⟩ := h.written write hwrite
    refine ⟨hboundary, ?_⟩
    by_cases hsame : write.token = token ∧ write.effectKey = effectKey
    · obtain ⟨rfl, rfl⟩ := hsame
      rw [setPhase_self]
      exact hpast hphase
    · rw [setPhase_other w phase hsame]
      exact hphase

/-- A run that has ended, however. -/
theorem WorkersSound.endPhase (h : WorkersSound w) (hactive : w.phase token effectKey ≠ .idle) :
    WorkersSound (w.setPhase token effectKey .ended) :=
  h.setPhase (h.active token effectKey hactive) (fun hphase => by cases hphase)
    fun _ => Or.inr rfl

/-- The key lemma: a run that is over its boundary and has not written is the first to. -/
theorem not_written_of_crossed (h : WorkersSound w) (hphase : w.phase token effectKey = .crossed)
    {write : SinkWrite} (hwrite : write ∈ w.writes) : ¬ (write.token.jobId = token.jobId ∧
      write.effectKey = effectKey) := by
  rintro ⟨hjob, hkey⟩
  obtain ⟨receipt, hmem, hid, hkey₁, hrevision, -⟩ := h.crossed token effectKey hphase
  obtain ⟨⟨receipt', hmem', hid', hkey', hrevision', -⟩, hpast⟩ := h.written write hwrite
  -- one receipt per key, so both runs belong to claims of one revision
  have hreceipts : Table.Keyed (fun receipt => (receipt.jobId, receipt.effectKey)) w.db.receipts := by
    have hvalid := h.constraints
    simp only [Database.constraints, Bool.and_eq_true, decide_eq_true_eq] at hvalid
    exact hvalid.1.2
  have hsame : receipt' = receipt := hreceipts.unique hmem' hmem (by
    show (receipt'.jobId, receipt'.effectKey) = (receipt.jobId, receipt.effectKey)
    rw [hid', hkey', hid, hkey₁, hjob, hkey])
  -- and a revision belongs to one claim
  have htoken : write.token = token := by
    refine h.distinct.unique (h.active _ write.effectKey ?_) (h.active _ effectKey ?_) ?_
    · rcases hpast with hpast | hpast <;> rw [hpast] <;> decide
    · rw [hphase]
      decide
    · show (write.token.jobId, write.token.expectedRevision) = (token.jobId, token.expectedRevision)
      rw [hjob, ← hrevision', hsame, hrevision]
  rw [htoken, hkey, hphase] at hpast
  rcases hpast with hpast | hpast <;> cases hpast

/-! ## One action -/

/-- A claim's revision is above that of every claim before it. -/
theorem WorkersSound.claim (h : WorkersSound w) {input : ClaimInput} {busy : List Text}
    {db : Database} {job : BackgroundWorkRow}
    (hclaim : claimNext input busy w.db w.db = (db, .ok (some job))) :
    WorkersSound { w with db, claims := claimedToken input job :: w.claims } := by
  have hextends : Extends (fun _ => True) w.db (claimNext input busy w.db w.db).1 :=
    claimNext_extends trivial w.db
  have hvalid : (claimNext input busy w.db w.db).1.constraints = true :=
    withPostgresClient_constraints _ h.constraints
  rw [hclaim] at hextends hvalid
  have hmoved := h.move (hextends.moves h.constraints hvalid)
  obtain ⟨hmem, old, hold, hid, hrevision⟩ := claimNext_claimed hclaim
  refine ⟨hvalid, ?_, ?_, fun token effectKey hactive =>
    List.mem_cons_of_mem _ (h.active token effectKey hactive), hmoved.crossed, hmoved.written,
    h.once⟩
  · intro token htoken
    rcases List.mem_cons.mp htoken with rfl | hbefore
    · exact ⟨job, hmem, rfl, Nat.le_refl _⟩
    · exact hmoved.claimed token hbefore
  · refine List.nodup_cons.mpr ⟨fun hdouble => ?_, h.distinct⟩
    -- an earlier claim of the job has at most the revision the row had
    obtain ⟨token, htoken, hsame⟩ := List.mem_map.mp hdouble
    obtain ⟨hjobId, hrev⟩ := Prod.mk.inj hsame
    obtain ⟨row, hrow, hrowId, hbound⟩ := h.claimed token htoken
    have hrowId' : row.jobId = old.jobId := (hrowId.trans hjobId).trans hid
    have hrowSame : row = old := (jobs_keyed h.constraints).unique hrow hold hrowId'
    have hrev' : token.expectedRevision = job.revision := hrev
    rw [hrowSame] at hbound
    omega

theorem WorkersSound.write (h : WorkersSound w) (hphase : w.phase token effectKey = .crossed) :
    WorkersSound { w.setPhase token effectKey .wrote with
      writes := ⟨token, effectKey⟩ :: w.writes } := by
  have hactive : w.phase token effectKey ≠ .idle := by rw [hphase]; decide
  have hset : WorkersSound (w.setPhase token effectKey .wrote) :=
    h.setPhase (h.active token effectKey hactive) (fun hwrote => by cases hwrote)
      fun _ => Or.inl rfl
  refine ⟨hset.constraints, hset.claimed, hset.distinct, hset.active, hset.crossed, ?_, ?_⟩
  · intro write hwrite
    rcases List.mem_cons.mp hwrite with rfl | hbefore
    · exact ⟨h.crossed token effectKey hphase, Or.inl (setPhase_self w token effectKey .wrote)⟩
    · exact hset.written write hbefore
  · refine List.nodup_cons.mpr ⟨fun hdouble => ?_, h.once⟩
    obtain ⟨write, hwrite, hsame⟩ := List.mem_map.mp hdouble
    exact not_written_of_crossed h hphase hwrite (Prod.mk.inj hsame)

theorem WorkersSound.afterFence (h : WorkersSound w) (hphase : w.phase token effectKey = .entered)
    (fence : ClaimFence) :
    WorkersSound (w.afterFence token effectKey fence) := by
  have hactive : w.phase token effectKey ≠ .idle := by rw [hphase]; decide
  cases fence with
  | owned =>
    refine h.setPhase (h.active token effectKey hactive) (fun hcrossed => by cases hcrossed) ?_
    rw [hphase]
    rintro (hpast | hpast) <;> cases hpast
  | foregroundActive => exact h.endPhase hactive
  | leaseLost => exact (h.lose token).endPhase hactive

theorem WorkersSound.afterBegin (h : WorkersSound w) (hphase : w.phase token effectKey = .fenced)
    (result : Except String BeginEffectResult) :
    WorkersSound (w.afterBegin token effectKey result) := by
  have hactive : w.phase token effectKey ≠ .idle := by rw [hphase]; decide
  unfold Workers.afterBegin
  split
  · refine h.setPhase (h.active token effectKey hactive) (fun hcrossed => by cases hcrossed) ?_
    rw [hphase]
    rintro (hpast | hpast) <;> cases hpast
  · exact (h.lose token).endPhase hactive
  · exact h.endPhase hactive

theorem WorkersSound.afterBoundary (h : WorkersSound w) (hphase : w.phase token effectKey = .opened)
    {result : Except String BoundaryResult}
    (hresult : ∀ answer, result = .ok answer → answer = .crossed ∨ answer = .applied →
      CrossedBy w.db token effectKey) :
    WorkersSound (w.afterBoundary token effectKey result) := by
  have hactive : w.phase token effectKey ≠ .idle := by rw [hphase]; decide
  have hcross : CrossedBy w.db token effectKey →
      WorkersSound (w.setPhase token effectKey .crossed) := by
    intro hcrossed
    refine h.setPhase (h.active token effectKey hactive) (fun _ => hcrossed) ?_
    rw [hphase]
    rintro (hpast | hpast) <;> cases hpast
  unfold Workers.afterBoundary
  split
  · exact hcross (hresult .crossed rfl (Or.inl rfl))
  · exact hcross (hresult .applied rfl (Or.inr rfl))
  · exact h.lose token
  · exact h

@[simp] theorem afterFence_db (w : Workers) (token : ClaimToken) (effectKey : Text)
    (fence : ClaimFence) : (w.afterFence token effectKey fence).db = w.db := by
  cases fence <;> rfl

@[simp] theorem afterBegin_db (w : Workers) (token : ClaimToken) (effectKey : Text)
    (result : Except String BeginEffectResult) :
    (w.afterBegin token effectKey result).db = w.db := by
  unfold Workers.afterBegin
  split <;> rfl

@[simp] theorem afterBoundary_db (w : Workers) (token : ClaimToken) (effectKey : Text)
    (result : Except String BoundaryResult) :
    (w.afterBoundary token effectKey result).db = w.db := by
  unfold Workers.afterBoundary
  split <;> rfl

theorem act_claimNext_db (rt : HandoffRuntime) (input : ClaimInput) (busy : List Text)
    (w : Workers) : (act rt (.claimNext input busy) w).db = (claimNext input busy w.db w.db).1 := by
  simp only [act]
  split <;> rfl

theorem act_moves (rt : HandoffRuntime) (hdb : w.db.constraints = true) (action : WorkerAction) :
    Moves w.db (act rt action w).db := by
  -- most actions are one transaction or leave the database alone
  have hsame : Moves w.db w.db := (ReceiptsMove.refl hdb).moves
  have hextends : ∀ {db : Database}, Extends (fun _ => True) w.db db → db.constraints = true →
      Moves w.db db := fun h hvalid => h.moves hdb hvalid
  cases action with
  | enqueueBatch inputs =>
    exact hextends (enqueueBatchWithReceipt_extends trivial rt inputs none w.db)
      (enqueueBatchWithReceipt_constraints rt inputs none hdb)
  | recoverBatch jobs original =>
    show Moves w.db (recoverBatch rt jobs original w.db).1
    rcases recoverBatch_fst rt jobs original w.db with heq | heq
    · rw [heq]
      exact hsame
    · rw [heq]
      exact hextends (enqueueBatchWithReceipt_extends trivial rt jobs original w.db)
        (enqueueBatchWithReceipt_constraints rt jobs original hdb)
  | claimNext input busy =>
    rw [act_claimNext_db]
    exact hextends (claimNext_extends trivial w.db) (withPostgresClient_constraints _ hdb)
  | renewClaims leaseOwner jobIds nowMs leaseDurationMs =>
    exact hextends (renewClaims_extends trivial w.db) (autocommit_constraints _ _ hdb)
  | requeuePreBoundaryClaims leaseOwner nowMs =>
    exact hextends (requeuePreBoundaryClaims_extends trivial w.db)
      (withPostgresClient_constraints _ hdb)
  | recoverExpired nowMs =>
    exact hextends (recoverExpired_extends trivial (undisturbed_of_current hdb nowMs.value))
      (withPostgresClient_constraints _ hdb)
  | foreground foregroundLeases =>
    exact ReceiptsMove.moves ⟨hdb, rfl, fun receipt hmem hcrossed =>
      ⟨receipt, hmem, Continues.refl hcrossed⟩⟩
  | enterRun token effectKey stopping =>
    simp only [act]
    split <;> exact hsame
  | checkFence token effectKey nowMs =>
    simp only [act]
    split
    · rw [afterFence_db]
      exact hsame
    · exact hsame
  | beginEffect token effectKey nowMs projectsSubsystemOutputs =>
    simp only [act]
    split
    · rw [afterBegin_db]
      exact (beginEffect_moves hdb).moves
    · exact hsame
  | crossBoundary token effectKey nowMs stopping =>
    simp only [act]
    split
    · rw [afterBoundary_db]
      exact (commitEffectBoundary_moves hdb).moves
    · exact hsame
  | sinkWrite token effectKey =>
    simp only [act]
    split <;> exact hsame
  | assertLeaseOwned token nowMs =>
    simp only [act]
    split <;> exact hsame
  | completeEffect token effectKey nowMs outputRefs =>
    simp only [act]
    split
    · exact (completeEffect_moves hdb).moves
    · exact hsame
  | abandonEffect token effectKey nowMs =>
    simp only [act]
    split
    · exact (abandonEffect_moves hdb).moves
    · exact hsame
  | endRun token effectKey =>
    simp only [act]
    split <;> exact hsame
  | settle token createdAtMs nowMs atMs outcome =>
    simp only [act]
    split
    · split
      · rename_i settlement _
        exact hextends (settleClaim_extends settlement trivial hdb)
          (settleClaim_constraints settlement hdb)
      · exact hsame
    · exact hsame

theorem WorkersSound.act (h : WorkersSound w) (rt : HandoffRuntime) (action : WorkerAction) :
    WorkersSound (act rt action w) := by
  have hmoves := act_moves rt h.constraints action
  cases action with
  -- the transactions after which every run is where it was
  | enqueueBatch inputs => exact h.move hmoves
  | recoverBatch jobs original => exact h.move hmoves
  | renewClaims leaseOwner jobIds nowMs leaseDurationMs => exact h.move hmoves
  | requeuePreBoundaryClaims leaseOwner nowMs => exact h.move hmoves
  | recoverExpired nowMs => exact h.move hmoves
  | foreground foregroundLeases => exact h.move hmoves
  | claimNext input busy =>
    rw [act_claimNext_db] at hmoves
    simp only [Background.act]
    split
    · rename_i job hclaimed
      exact h.claim (Prod.ext rfl hclaimed)
    · exact h.move hmoves
  | enterRun token effectKey stopping =>
    simp only [Background.act]
    split
    · rename_i henter
      refine h.setPhase henter.1 (fun hcrossed => ?_) ?_
      · split at hcrossed <;> cases hcrossed
      · rw [henter.2]
        rintro (hpast | hpast) <;> cases hpast
    · exact h
  | checkFence token effectKey nowMs =>
    simp only [Background.act]
    split
    · exact h.afterFence ‹_› _
    · exact h
  | beginEffect token effectKey nowMs projectsSubsystemOutputs =>
    simp only [Background.act]
    split
    · rename_i hphase
      exact (h.move (beginEffect_moves h.constraints).moves).afterBegin hphase _
    · exact h
  | crossBoundary token effectKey nowMs stopping =>
    simp only [Background.act]
    split
    · rename_i hopen
      refine (h.move (commitEffectBoundary_moves h.constraints).moves).afterBoundary hopen.1 ?_
      intro answer hanswer hcrossed
      exact commitEffectBoundary_crossed (Prod.ext rfl hanswer) hcrossed
    · exact h
  | sinkWrite token effectKey =>
    simp only [Background.act]
    split
    · exact h.write ‹_›
    · exact h
  | assertLeaseOwned token nowMs =>
    simp only [Background.act]
    split
    · exact h
    · exact h.lose token
  | completeEffect token effectKey nowMs outputRefs =>
    simp only [Background.act]
    split
    · rename_i hdone
      refine (h.move (completeEffect_moves h.constraints).moves).endPhase ?_
      rcases hdone.1 with hphase | hphase | hphase <;> simp [hphase]
    · exact h
  | abandonEffect token effectKey nowMs =>
    simp only [Background.act]
    split
    · rename_i hphase
      exact (h.move (abandonEffect_moves h.constraints).moves).endPhase (by simp [hphase])
    · exact h
  | endRun token effectKey =>
    simp only [Background.act]
    split
    · exact h
    · exact h.endPhase ‹_›
  | settle token createdAtMs nowMs atMs outcome =>
    simp only [Background.act] at hmoves ⊢
    split
    · rename_i hclaimed
      rw [if_pos hclaimed] at hmoves
      split
      · rename_i settlement hsettlement
        simp only [hsettlement] at hmoves
        exact h.move hmoves
      · exact h
    · exact h

theorem workersSound_of_reachable {rt : HandoffRuntime} (h : (workers rt).Reachable w) :
    WorkersSound w := by
  refine System.invariant ?_ (fun w w' hw hstep => ?_) h
  · refine ⟨rfl, ?_, Table.keyed_nil _, ?_, ?_, ?_, Table.keyed_nil _⟩
    · exact fun token htoken => by cases htoken
    · exact fun token effectKey hactive => absurd rfl hactive
    · exact fun token effectKey hphase => by cases hphase
    · exact fun write hwrite => by cases hwrite
  · obtain ⟨action, rfl⟩ := hstep
    exact hw.act rt action

/-- By induction on the run: no transaction takes a crossed receipt back. -/
theorem continues_of_runs {rt : HandoffRuntime} {w' : Workers} (hw : WorkersSound w)
    (hrun : (workers rt).Runs w w') {receipt : EffectReceiptRow} (hmem : receipt ∈ w.db.receipts)
    (hcrossed : receipt.state ≠ .pending) :
    WorkersSound w' ∧ ∃ receipt' ∈ w'.db.receipts, Continues receipt receipt' := by
  induction hrun with
  | refl => exact ⟨hw, receipt, hmem, Continues.refl hcrossed⟩
  | tail _ hstep ih =>
    obtain ⟨hsound, receipt₁, hmem₁, hcontinues⟩ := ih
    obtain ⟨action, rfl⟩ := hstep
    obtain ⟨receipt₂, hmem₂, hcontinues'⟩ :=
      (act_moves rt hsound.constraints action).receipts receipt₁ hmem₁ hcontinues.crossed
    exact ⟨hsound.act rt action, receipt₂, hmem₂, hcontinues.trans hcontinues'⟩

end Psfn.Background
