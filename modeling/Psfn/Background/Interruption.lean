import Psfn.Background.AtMostOnce

/-!
# Background work — interruptions, and the guarantee for effects

An attempt is spent by `failOrRetry` and by the recovery of a claim that had crossed its
boundary. A shutdown leads to neither: `executeClaim` asks for no settlement, and the
requeue and the lease recovery of a claim before its boundary leave the count.

* `KeepsAttempts` — one transaction; `keepsAttempts_of_interruptions` — a whole run;
* `effects_at_most_once` — the writes, the receipts and the attempts.
-/

namespace Psfn.Background

open Psfn.Lib

/-! ## Attempts -/

variable {job : BackgroundWorkRow}

theorem RowStep.attemptCount {update : Update} {job' : BackgroundWorkRow}
    (h : RowStep update job job') (hretry : update ≠ .retry) (hexpiry : update ≠ .expiry) :
    job'.attemptCount = job.attemptCount := by
  cases h with
  | retried => exact absurd rfl hretry
  | expired => exact absurd rfl hexpiry
  | _ => rfl

theorem RowSteps.attemptCount {job' : BackgroundWorkRow}
    (h : RowSteps (fun update => update ≠ .retry ∧ update ≠ .expiry) job job') :
    job'.attemptCount = job.attemptCount := by
  induction h with
  | refl => rfl
  | tail _ hstep ih =>
    obtain ⟨update, ⟨hretry, hexpiry⟩, hstep⟩ := hstep
    exact (hstep.attemptCount hretry hexpiry).trans ih

/-- The rows of a job on the two sides of a transaction have one attempt count. -/
def KeepsAttempts (jobId : Text) (db db' : Database) : Prop :=
  ∀ job ∈ db.jobs, job.jobId = jobId → ∀ job' ∈ db'.jobs, job'.jobId = jobId →
    job'.attemptCount = job.attemptCount

variable {db db' : Database}

theorem Extends.keepsAttempts
    (h : Extends (fun update => update ≠ .retry ∧ update ≠ .expiry) db db')
    (hdb : db.constraints = true) (jobId : Text) : KeepsAttempts jobId db db' := by
  intro job hjob hid job' hjob' hid'
  exact (h.toAdvances.steps hdb hjob hjob' (hid'.trans hid.symm)).attemptCount

variable {jobId : Text}

/-- Each row of the job afterwards is one of before, up to what leaves the count. -/
theorem KeepsAttempts.of_rows (hdb : db.constraints = true)
    (h : ∀ job' ∈ db'.jobs, job'.jobId = jobId →
      ∃ job ∈ db.jobs, job.jobId = jobId ∧ job'.attemptCount = job.attemptCount) :
    KeepsAttempts jobId db db' := by
  intro job hjob hid job' hjob' hid'
  obtain ⟨old, hold, holdId, hcount⟩ := h job' hjob' hid'
  have hsame : old = job := (jobs_keyed hdb).unique hold hjob (holdId.trans hid.symm)
  rw [hcount, hsame]

theorem recordTerminalSubsystemProjection_jobs {status : SubsystemOutputStatus}
    (h : recordTerminalSubsystemProjection job status db = .ok db') : db'.jobs = db.jobs := by
  unfold recordTerminalSubsystemProjection at h
  split at h
  · cases h
    rfl
  · split at h
    · cases h
      rfl
    · cases h

theorem projectTerminal_jobs {ends : Bool} {status : SubsystemOutputStatus}
    (h : projectTerminal ends job status db = .ok db') : db'.jobs = db.jobs := by
  unfold projectTerminal at h
  split at h
  · exact recordTerminalSubsystemProjection_jobs h
  · cases h
    rfl

theorem settleSwept_jobs {rows : List BackgroundWorkRow} :
    ∀ {db db' : Database}, rows.foldlM settleSwept db = .ok db' → db'.jobs = db.jobs := by
  induction rows with
  | nil =>
    intro db db' h
    cases h
    rfl
  | cons row rows ih =>
    intro db db' h
    rw [List.foldlM_cons] at h
    obtain ⟨db₁, hfirst, hrest⟩ := bind_eq_ok.mp h
    rw [ih hrest]
    unfold settleSwept at hfirst
    split at hfirst
    · obtain ⟨db₂, hproject, hfirst⟩ := bind_eq_ok.mp hfirst
      obtain ⟨_, _, hfirst⟩ := bind_eq_ok.mp hfirst
      cases hfirst
      exact projectTerminal_jobs hproject
    · cases hfirst
      rfl

/-- A row after a transaction was there before, when this is so of its body. -/
theorem mem_of_withPostgresClient {α : Type} {body : Database → Except String (Database × α)}
    (hbody : ∀ db' a, body db = .ok (db', a) → job ∈ db'.jobs → job ∈ db.jobs)
    (hjob : job ∈ (withPostgresClient body db).1.jobs) : job ∈ db.jobs := by
  rcases withPostgresClient_cases body db with hsame | ⟨db', a, hok, -, hresult⟩
  · rw [hsame] at hjob
    exact hjob
  · rw [hresult] at hjob
    exact hbody db' a hok hjob

theorem mem_of_autocommit {α β : Type} {statement : Database → Database × β}
    {read : β → Except String α} (hstatement : job ∈ (statement db).1.jobs → job ∈ db.jobs)
    (hjob : job ∈ (autocommit statement read db).1.jobs) : job ∈ db.jobs := by
  rw [autocommit_fst] at hjob
  split at hjob
  · exact hstatement hjob
  · exact hjob

/-- A settlement changes the rows of its own job. -/
theorem settleClaim_other {token : ClaimToken} {settlement : Settlement}
    (hid : job.jobId ≠ token.jobId) (hjob : job ∈ (settleClaim token settlement db).jobs) :
    job ∈ db.jobs := by
  -- the rows a guarded update leaves
  have hupdate : ∀ {set : BackgroundWorkRow → BackgroundWorkRow},
      job ∈ Table.update token.owns set db.jobs → (∀ job, (set job).jobId = job.jobId) →
        job ∈ db.jobs := by
    intro set hmem hset
    obtain ⟨old, hold, ⟨howns, rfl⟩ | ⟨-, rfl⟩⟩ := Table.mem_update.mp hmem
    · simp only [ClaimToken.owns, Bool.and_eq_true, decide_eq_true_eq] at howns
      exact absurd ((hset old).trans howns.1.1.1) hid
    · exact hold
  cases settlement with
  | complete nowMs =>
    refine mem_of_autocommit (fun hmem => ?_) hjob
    have hset : job ∈ Table.update token.owns (settledRow .succeeded .completed nowMs) db.jobs :=
      hmem
    exact hupdate hset fun _ => rfl
  | defer reason availableAtMs nowMs =>
    refine mem_of_autocommit (fun hmem => ?_) hjob
    have hset : job ∈ Table.update token.owns (deferredRow reason availableAtMs nowMs) db.jobs :=
      hmem
    exact hupdate hset fun _ => rfl
  | failOrRetry nowMs retryAtMs retryHandlerFailed terminalHandlerFailed =>
    refine mem_of_withPostgresClient (fun db' row hbody hmem => ?_) hjob
    obtain ⟨current, _, hbody⟩ := bind_eq_ok.mp hbody
    obtain ⟨db₁, hproject, hbody⟩ := bind_eq_ok.mp hbody
    obtain ⟨_, _, hbody⟩ := bind_eq_ok.mp hbody
    cases hbody
    rw [projectTerminal_jobs hproject] at hmem
    exact hupdate hmem fun _ => rfl
  | markClaim mark nowMs =>
    refine mem_of_withPostgresClient (fun db' row hbody hmem => ?_) hjob
    obtain ⟨current, _, hbody⟩ := bind_eq_ok.mp hbody
    obtain ⟨db₁, hproject, hbody⟩ := bind_eq_ok.mp hbody
    obtain ⟨_, _, hbody⟩ := bind_eq_ok.mp hbody
    cases hbody
    rw [projectTerminal_jobs hproject] at hmem
    exact hupdate hmem fun _ => rfl

/-- The job's receipts have not crossed their boundary. -/
def BeforeBoundary (jobId : Text) (db : Database) : Prop :=
  ∀ receipt ∈ db.receipts, receipt.jobId = jobId → receipt.state = .pending

/-- Lease recovery of a job before its boundary spends no attempt. -/
theorem recoverExpired_keepsAttempts {nowMs : SafeInteger} (hdb : db.constraints = true)
    (hbefore : BeforeBoundary jobId db) :
    KeepsAttempts jobId db (recoverExpired nowMs db db db).1 := by
  refine KeepsAttempts.of_rows hdb fun job' hjob' hid' => ?_
  unfold recoverExpired at hjob'
  rcases withPostgresClient_cases (fun seen => applyExpired nowMs (findExpired nowMs.value db)
      (dropPendingReceipts nowMs.value db seen)) db with hsame | ⟨db', count, hbody, -, hresult⟩
  · rw [hsame] at hjob'
    exact ⟨job', hjob', hid', rfl⟩
  · rw [hresult] at hjob'
    obtain ⟨settled, hsettled, hbody⟩ := bind_eq_ok.mp hbody
    cases hbody
    rw [settleSwept_jobs hsettled] at hjob'
    obtain ⟨job, hjob, rfl⟩ := List.mem_map.mp hjob'
    refine ⟨job, hjob, ?_, ?_⟩
    · rw [← hid']
      unfold sweptRow
      split <;> rfl
    · unfold sweptRow
      split
      · -- the claim it was found as has no started receipt
        rename_i claim hclaim
        obtain ⟨row, hrow, rfl⟩ := List.mem_map.mp (List.mem_of_find?_eq_some hclaim)
        have hrowId : row.jobId = job.jobId := by simpa using List.find?_some hclaim
        have hjobId : job.jobId = jobId := by
          rw [← hid']
          unfold sweptRow
          split <;> rfl
        have hnone : (db.receipts.any fun receipt =>
            receipt.jobId = row.jobId && receipt.state = .started) = false := by
          rw [List.any_eq_false]
          intro receipt hmem hstarted
          simp only [Bool.and_eq_true, decide_eq_true_eq] at hstarted
          have hpending := hbefore receipt hmem (hstarted.1.trans (hrowId.trans hjobId))
          rw [hstarted.2] at hpending
          cases hpending
        simp only [expiredRow, hnone]
        rfl
      · rfl

/-! ## Runs that a shutdown interrupts -/

/-- The executions of the job that end do so by an interruption. -/
def OnlyInterrupts (jobId : Text) : WorkerAction → Prop
  | .settle token _ _ _ outcome => token.jobId = jobId → outcome.Interrupted
  | _ => True

theorem executeClaim_interrupted {createdAtMs nowMs atMs : SafeInteger} {outcome : ClaimOutcome}
    (h : outcome.Interrupted) : executeClaim createdAtMs nowMs atMs outcome = none := by
  cases outcome with
  | threw error aborted lost stopping =>
    rcases h with herror | ⟨haborted, hstopping⟩
    · simp [executeClaim, herror]
    · by_cases herror : error = .shutdownRequeue
      · simp [executeClaim, herror]
      · simp [executeClaim, herror, haborted, hstopping]
  | foregroundBusy => cases h
  | malformed => cases h
  | completed => cases h

theorem act_keepsAttempts (rt : HandoffRuntime) {w : Workers} (hdb : w.db.constraints = true)
    (hbefore : BeforeBoundary jobId w.db) {action : WorkerAction}
    (honly : OnlyInterrupts jobId action) : KeepsAttempts jobId w.db (act rt action w).db := by
  have hextends : ∀ {db : Database},
      Extends (fun update => update ≠ .retry ∧ update ≠ .expiry) w.db db →
        KeepsAttempts jobId w.db db := fun h => h.keepsAttempts hdb jobId
  have hjobs : ∀ {db : Database}, db.jobs = w.db.jobs → KeepsAttempts jobId w.db db := by
    intro db hsame
    refine KeepsAttempts.of_rows hdb fun job hjob hid => ⟨job, hsame ▸ hjob, hid, rfl⟩
  cases action with
  | enqueueBatch inputs =>
    exact hextends (enqueueBatchWithReceipt_extends (by decide) rt inputs none w.db)
  | recoverBatch jobs original =>
    show KeepsAttempts jobId w.db (recoverBatch rt jobs original w.db).1
    rcases recoverBatch_fst rt jobs original w.db with heq | heq
    · rw [heq]
      exact hjobs rfl
    · rw [heq]
      exact hextends (enqueueBatchWithReceipt_extends (by decide) rt jobs original w.db)
  | claimNext input busy =>
    rw [act_claimNext_db]
    exact hextends (claimNext_extends (by decide) w.db)
  | renewClaims leaseOwner jobIds nowMs leaseDurationMs =>
    refine hextends (renewClaims_extends ?_ w.db)
    unfold renewalUpdate
    split <;> decide
  | requeuePreBoundaryClaims leaseOwner nowMs =>
    exact hextends (requeuePreBoundaryClaims_extends (by decide) w.db)
  | recoverExpired nowMs => exact recoverExpired_keepsAttempts hdb hbefore
  | foreground foregroundLeases => exact hjobs rfl
  | enterRun token effectKey stopping =>
    simp only [act]
    split <;> exact hjobs rfl
  | checkFence token effectKey nowMs =>
    simp only [act]
    split
    · exact hjobs (by rw [afterFence_db])
    · exact hjobs rfl
  | beginEffect token effectKey nowMs projectsSubsystemOutputs =>
    simp only [act]
    split
    · exact hjobs (by rw [afterBegin_db]; exact (beginEffect_moves hdb).jobs)
    · exact hjobs rfl
  | crossBoundary token effectKey nowMs stopping =>
    simp only [act]
    split
    · exact hjobs (by rw [afterBoundary_db]; exact (commitEffectBoundary_moves hdb).jobs)
    · exact hjobs rfl
  | sinkWrite token effectKey =>
    simp only [act]
    split <;> exact hjobs rfl
  | assertLeaseOwned token nowMs =>
    simp only [act]
    split <;> exact hjobs rfl
  | completeEffect token effectKey nowMs outputRefs =>
    simp only [act]
    split
    · exact hjobs (completeEffect_moves hdb).jobs
    · exact hjobs rfl
  | abandonEffect token effectKey nowMs =>
    simp only [act]
    split
    · exact hjobs (abandonEffect_moves hdb).jobs
    · exact hjobs rfl
  | endRun token effectKey =>
    simp only [act]
    split <;> exact hjobs rfl
  | settle token createdAtMs nowMs atMs outcome =>
    simp only [act]
    split
    · by_cases hid : token.jobId = jobId
      · -- an interruption asks for no settlement
        rw [executeClaim_interrupted (honly hid)]
        exact hjobs rfl
      · split
        · refine KeepsAttempts.of_rows hdb fun job hjob hjobId => ⟨job, ?_, hjobId, rfl⟩
          exact settleClaim_other (fun heq => hid (heq.symm.trans hjobId)) hjob
        · exact hjobs rfl
    · exact hjobs rfl

/-- The runs in which the job does not cross its boundary and its executions are only ever
interrupted. -/
def InterruptedRun (rt : HandoffRuntime) (jobId : Text) : Workers → Workers → Prop :=
  Relation.ReflTransGen fun w w' => ∃ action : WorkerAction, BeforeBoundary jobId w.db ∧
    OnlyInterrupts jobId action ∧ w' = act rt action w

/-- By induction on the run: the row is still there, with the count it had. -/
theorem keepsAttempts_of_interruptions {rt : HandoffRuntime} {w w' : Workers} (hw : WorkersSound w)
    (hjob : job ∈ w.db.jobs) (hrun : InterruptedRun rt job.jobId w w') : WorkersSound w' ∧
      ∃ job' ∈ w'.db.jobs, job'.jobId = job.jobId ∧ job'.attemptCount = job.attemptCount := by
  induction hrun with
  | refl => exact ⟨hw, job, hjob, rfl, rfl⟩
  | tail _ hstep ih =>
    obtain ⟨hsound, job₁, hjob₁, hid₁, hcount₁⟩ := ih
    obtain ⟨action, hbefore, honly, rfl⟩ := hstep
    obtain ⟨job₂, hjob₂, hid₂, -⟩ :=
      (act_moves rt hsound.constraints action).rows job₁ hjob₁
    refine ⟨hsound.act rt action, job₂, hjob₂, hid₂.trans hid₁, ?_⟩
    have hkept := act_keepsAttempts rt hsound.constraints hbefore honly job₁ hjob₁ hid₁ job₂ hjob₂
      (hid₂.trans hid₁)
    exact hkept.trans hcount₁

/-- **Background effects happen at most once.** In every state of every interleaving: no
(job, key) has been written twice; from there on no receipt past its boundary is deleted or
pending again; and a job whose executions a shutdown interrupts before its boundary keeps
its attempt count. -/
theorem effects_at_most_once (rt : HandoffRuntime) {w : Workers} (h : (workers rt).Reachable w) :
    (w.writes.map fun write => (write.token.jobId, write.effectKey)).Nodup ∧
      (∀ w', (workers rt).Runs w w' → ∀ receipt ∈ w.db.receipts, receipt.state ≠ .pending →
        ∃ receipt' ∈ w'.db.receipts, Continues receipt receipt') ∧
      ∀ job ∈ w.db.jobs, ∀ w', InterruptedRun rt job.jobId w w' →
        ∀ job' ∈ w'.db.jobs, job'.jobId = job.jobId → job'.attemptCount = job.attemptCount := by
  have hsound := workersSound_of_reachable h
  refine ⟨hsound.once, fun w' hrun receipt hmem hcrossed =>
    (continues_of_runs hsound hrun hmem hcrossed).2, ?_⟩
  intro job hjob w' hrun job' hjob' hid
  obtain ⟨hsound', kept, hkept, hkeptId, hcount⟩ := keepsAttempts_of_interruptions hsound hjob hrun
  have hsame : job' = kept := (jobs_keyed hsound'.constraints).unique hjob' hkept
    (hid.trans hkeptId.symm)
  rw [hsame]
  exact hcount

/-- One job, claimed; its effect is opened, crossed and written. -/
def writtenOnce : Workers :=
  let token : ClaimToken := ⟨sampleText, sampleText, 2⟩
  [WorkerAction.enqueueBatch [sampleInput], .claimNext sampleClaim [],
    .enterRun token sampleText false, .checkFence token sampleText .zero,
    .beginEffect token sampleText .zero false, .crossBoundary token sampleText .zero false,
    .sinkWrite token sampleText].foldl (fun w action => act plainRuntime action w) {}

theorem workers_reachable_foldl {rt : HandoffRuntime} {actions : List WorkerAction} :
    ∀ {w : Workers}, (workers rt).Reachable w →
      (workers rt).Reachable (actions.foldl (fun w action => act rt action w) w) := by
  induction actions with
  | nil => exact fun hw => hw
  | cons action actions ih => exact fun hw => ih (hw.next ⟨action, rfl⟩)

/-- The run gets to its write, and a sweep after its lease leaves the receipt. -/
theorem effects_at_most_once_written :
    let w := act plainRuntime (.recoverExpired ⟨10, by decide⟩) writtenOnce
    writtenOnce.writes.length = 1 ∧
      writtenOnce.db.receipts.map (·.state) = [.started] ∧
      w.db.jobs.map (·.reasonCode) = [.effectOutcomeUnknown] ∧
      ∀ receipt ∈ writtenOnce.db.receipts, receipt.state ≠ .pending →
        ∃ receipt' ∈ w.db.receipts, Continues receipt receipt' := by
  intro w
  refine ⟨by decide +kernel, by decide +kernel, by decide +kernel, ?_⟩
  have hreach : (workers plainRuntime).Reachable writtenOnce :=
    workers_reachable_foldl Relation.ReflTransGen.refl
  exact (effects_at_most_once plainRuntime hreach).2.1 w
    (Relation.ReflTransGen.single ⟨_, rfl⟩)

end Psfn.Background
