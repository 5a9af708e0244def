import Mathlib.Logic.Relation
import Psfn.Background.Store

/-!
# Background work — what a transaction does to the rows

Every statement of the store that changes a job is one of a few updates. `RowStep` lists
them with the condition each has on the row it finds; `Extends` says what a transaction
makes of the whole table, given the updates it is allowed.

* `Extends` — every row afterwards is a row before, some steps on, or a new one; no row is
  missing; accepted handoffs and crossed receipts stay.
* `Follows` — what any number of steps keeps: the revision never falls, it rises when the
  state changes, and a terminal row stays as it is.
* one `*_extends` lemma per operation.
-/

namespace Psfn.Background

open Psfn.Lib

/-! ## One row -/

inductive Update where
  | claim | renewal | overrun | settlement | deferral | retry | requeue | expiry | supersession
deriving DecidableEq, Repr

/-- The updates of the store, each with what its `WHERE` clause asked of the row. -/
inductive RowStep : Update → BackgroundWorkRow → BackgroundWorkRow → Prop
  | claimed {job : BackgroundWorkRow} (input : ClaimInput) (viaWelfare : Bool)
      (hrunnable : job.state.runnable = true)
      (hlease : input.nowMs.value + input.leaseDurationMs.value ≤ maxSafeInteger) :
      RowStep .claim job (claimedRow input viaWelfare job)
  | renewed {job : BackgroundWorkRow} (nowMs leaseDurationMs : SafeInteger)
      (hrunning : job.state = .running)
      (hlease : nowMs.value + leaseDurationMs.value ≤ maxSafeInteger) :
      RowStep .renewal job (renewedRow nowMs leaseDurationMs job)
  -- a renewal that nothing bounds
  | overran {job : BackgroundWorkRow} (nowMs leaseDurationMs : SafeInteger)
      (hrunning : job.state = .running) :
      RowStep .overrun job (renewedRow nowMs leaseDurationMs job)
  | settled {job : BackgroundWorkRow} (state : BackgroundWorkState)
      (reasonCode : BackgroundWorkReasonCode) (atMs : SafeInteger)
      (hrunning : job.state = .running) (hterminal : state.terminal = true) :
      RowStep .settlement job (settledRow state reasonCode atMs job)
  | deferred {job : BackgroundWorkRow} (reason : DeferReason) (availableAtMs nowMs : SafeInteger)
      (hrunning : job.state = .running) :
      RowStep .deferral job (deferredRow reason availableAtMs nowMs job)
  | retried {job : BackgroundWorkRow} (terminal : Bool) (reasonCode : BackgroundWorkReasonCode)
      (nowMs retryAtMs : SafeInteger) (hrunning : job.state = .running)
      (hattempts : terminal = false → job.attemptCount + 1 < job.maxAttempts) :
      RowStep .retry job (retriedRow terminal reasonCode nowMs retryAtMs job)
  | requeued {job : BackgroundWorkRow} (nowMs : SafeInteger) (hrunning : job.state = .running) :
      RowStep .requeue job (requeuedRow nowMs job)
  | expired {job : BackgroundWorkRow} (nowMs : SafeInteger) (claim : ExpiredClaim)
      (hopen : job.state.terminal = false)
      (hbudget : claim.expiryBudgetExhausted = false →
        job.leaseExpiryCount + 1 < leaseExpiryLimit) :
      RowStep .expiry job (expiredRow nowMs claim job)
  | superseded {job : BackgroundWorkRow} (atMs : SafeInteger)
      (hrunnable : job.state.runnable = true) :
      RowStep .supersession job (superseded atMs job)

/-- Some of the allowed updates, one after the other. -/
def RowSteps (allowed : Update → Prop) : BackgroundWorkRow → BackgroundWorkRow → Prop :=
  Relation.ReflTransGen fun job job' => ∃ update, allowed update ∧ RowStep update job job'

variable {allowed : Update → Prop}

theorem terminal_of_runnable {state : BackgroundWorkState} (h : state.runnable = true) :
    state.terminal = false := by
  cases state <;> simp_all [BackgroundWorkState.runnable, BackgroundWorkState.terminal]

theorem running_of_runningRow {job : BackgroundWorkRow} (h : job.running = true) :
    job.state = .running := by
  simpa [BackgroundWorkRow.running] using h

/-- A later version of a row. -/
structure Follows (job job' : BackgroundWorkRow) : Prop where
  jobId            : job'.jobId = job.jobId
  logicalSessionId : job'.logicalSessionId = job.logicalSessionId
  maxAttempts      : job'.maxAttempts = job.maxAttempts
  revision_le      : job.revision ≤ job'.revision
  revision_lt      : job'.state ≠ job.state → job.revision < job'.revision
  terminal         : job.state.terminal = true → job' = job

theorem Follows.refl (job : BackgroundWorkRow) : Follows job job :=
  ⟨rfl, rfl, rfl, Nat.le_refl _, fun h => absurd rfl h, fun _ => rfl⟩

theorem Follows.trans {job job' job'' : BackgroundWorkRow} (h : Follows job job')
    (h' : Follows job' job'') : Follows job job'' where
  jobId := h'.jobId.trans h.jobId
  logicalSessionId := h'.logicalSessionId.trans h.logicalSessionId
  maxAttempts := h'.maxAttempts.trans h.maxAttempts
  revision_le := Nat.le_trans h.revision_le h'.revision_le
  revision_lt := by
    intro hne
    -- the state changed in one of the two halves, and the revision rose there
    by_cases hfirst : job'.state = job.state
    · have hsecond : job''.state ≠ job'.state := fun heq => hne (heq.trans hfirst)
      exact Nat.lt_of_le_of_lt h.revision_le (h'.revision_lt hsecond)
    · exact Nat.lt_of_lt_of_le (h.revision_lt hfirst) h'.revision_le
  terminal := by
    intro hterminal
    have hsame : job' = job := h.terminal hterminal
    have hsame' : job'' = job' := h'.terminal (by rw [hsame]; exact hterminal)
    rw [hsame', hsame]

/-- Each update but the renewal raises the revision, and none finds a terminal row. -/
theorem RowStep.follows {update : Update} {job job' : BackgroundWorkRow}
    (h : RowStep update job job') :
    Follows job job' := by
  cases h with
  | claimed input viaWelfare hrunnable hlease =>
    exact ⟨rfl, rfl, rfl, Nat.le_succ _, fun _ => Nat.lt_succ_self _,
      fun hterminal => by simp [terminal_of_runnable hrunnable] at hterminal⟩
  | superseded atMs hrunnable =>
    exact ⟨rfl, rfl, rfl, Nat.le_succ _, fun _ => Nat.lt_succ_self _,
      fun hterminal => by simp [terminal_of_runnable hrunnable] at hterminal⟩
  | renewed nowMs leaseDurationMs hrunning hlease =>
    -- the lease moves; state and revision stay
    exact ⟨rfl, rfl, rfl, Nat.le_refl _, fun hne => absurd rfl hne,
      fun hterminal => by simp [hrunning, BackgroundWorkState.terminal] at hterminal⟩
  | overran nowMs leaseDurationMs hrunning =>
    exact ⟨rfl, rfl, rfl, Nat.le_refl _, fun hne => absurd rfl hne,
      fun hterminal => by simp [hrunning, BackgroundWorkState.terminal] at hterminal⟩
  | settled state reasonCode atMs hrunning hterminal =>
    exact ⟨rfl, rfl, rfl, Nat.le_succ _, fun _ => Nat.lt_succ_self _,
      fun hterminal => by simp [hrunning, BackgroundWorkState.terminal] at hterminal⟩
  | deferred reason availableAtMs nowMs hrunning =>
    exact ⟨rfl, rfl, rfl, Nat.le_succ _, fun _ => Nat.lt_succ_self _,
      fun hterminal => by simp [hrunning, BackgroundWorkState.terminal] at hterminal⟩
  | retried terminal reasonCode nowMs retryAtMs hrunning hattempts =>
    exact ⟨rfl, rfl, rfl, Nat.le_succ _, fun _ => Nat.lt_succ_self _,
      fun hterminal => by simp [hrunning, BackgroundWorkState.terminal] at hterminal⟩
  | requeued nowMs hrunning =>
    exact ⟨rfl, rfl, rfl, Nat.le_succ _, fun _ => Nat.lt_succ_self _,
      fun hterminal => by simp [hrunning, BackgroundWorkState.terminal] at hterminal⟩
  | expired nowMs claim hopen hbudget =>
    exact ⟨rfl, rfl, rfl, Nat.le_succ _, fun _ => Nat.lt_succ_self _,
      fun hterminal => by simp [hopen] at hterminal⟩

theorem RowSteps.follows {job job' : BackgroundWorkRow} (h : RowSteps allowed job job') :
    Follows job job' := by
  induction h with
  | refl => exact Follows.refl job
  | tail _ hstep ih =>
    obtain ⟨update, -, hstep⟩ := hstep
    exact ih.trans hstep.follows

theorem RowSteps.single {update : Update} {job job' : BackgroundWorkRow} (h : allowed update)
    (hstep : RowStep update job job') : RowSteps allowed job job' :=
  Relation.ReflTransGen.single ⟨update, h, hstep⟩

/-! ## The whole table -/

/-- What a commit may do: rows move on, rows come and go, accepted handoffs stay. -/
structure Advances (allowed : Update → Prop) (db db' : Database) : Prop where
  rows : ∀ job' ∈ db'.jobs, (∃ job ∈ db.jobs, RowSteps allowed job job') ∨
    ((∀ job ∈ db.jobs, job.jobId ≠ job'.jobId) ∧ ∃ input, RowSteps allowed (insertedRow input) job')
  handoffs : ∀ handoff ∈ db.handoffs, handoff ∈ db'.handoffs

/-- Every receipt that is past its boundary is still there. -/
def KeepsCrossed (db db' : Database) : Prop :=
  ∀ receipt ∈ db.receipts, receipt.state ≠ .pending → receipt ∈ db'.receipts

theorem KeepsCrossed.of_eq {db db' : Database} (h : db'.receipts = db.receipts) :
    KeepsCrossed db db' := fun _ hmem _ => h ▸ hmem

/-- Deleting pending receipts, whatever else the condition says. -/
theorem KeepsCrossed.of_delete {db db' : Database} {cond : EffectReceiptRow → Bool}
    (h : db'.receipts = Table.delete cond db.receipts)
    (hcond : ∀ receipt, cond receipt = true → receipt.state = .pending) : KeepsCrossed db db' := by
  intro receipt hmem hcrossed
  rw [h]
  refine Table.mem_delete.mpr ⟨hmem, ?_⟩
  by_contra hdeleted
  exact hcrossed (hcond receipt (by simpa using hdeleted))

/-- … and no row goes, nor a receipt past its boundary. -/
structure Extends (allowed : Update → Prop) (db db' : Database) : Prop
    extends Advances allowed db db' where
  kept     : ∀ job ∈ db.jobs, ∃ job' ∈ db'.jobs, job'.jobId = job.jobId
  receipts : KeepsCrossed db db'

theorem Advances.of_rows {db db' : Database} (hjobs : db'.jobs = db.jobs)
    (hhandoffs : ∀ handoff ∈ db.handoffs, handoff ∈ db'.handoffs) : Advances allowed db db' where
  rows := fun job' hjob' => Or.inl ⟨job', hjobs ▸ hjob', Relation.ReflTransGen.refl⟩
  handoffs := hhandoffs

theorem Extends.of_rows {db db' : Database} (hjobs : db'.jobs = db.jobs)
    (hhandoffs : ∀ handoff ∈ db.handoffs, handoff ∈ db'.handoffs)
    (hreceipts : KeepsCrossed db db') : Extends allowed db db' where
  toAdvances := Advances.of_rows hjobs hhandoffs
  kept := fun job hjob => ⟨job, hjobs ▸ hjob, rfl⟩
  receipts := hreceipts

theorem Extends.refl (db : Database) : Extends allowed db db :=
  Extends.of_rows rfl (fun _ h => h) (KeepsCrossed.of_eq rfl)

theorem Extends.trans {db db' db'' : Database} (h : Extends allowed db db')
    (h' : Extends allowed db' db'') : Extends allowed db db'' where
  handoffs := fun handoff hmem => h'.handoffs handoff (h.handoffs handoff hmem)
  receipts := fun receipt hmem hcrossed =>
    h'.receipts receipt (h.receipts receipt hmem hcrossed) hcrossed
  kept := by
    intro job hjob
    obtain ⟨job', hjob', hid⟩ := h.kept job hjob
    obtain ⟨job'', hjob'', hid'⟩ := h'.kept job' hjob'
    exact ⟨job'', hjob'', hid'.trans hid⟩
  rows := by
    intro job'' hjob''
    rcases h'.rows job'' hjob'' with ⟨job', hjob', hsteps'⟩ | ⟨hnew', hinput'⟩
    · rcases h.rows job' hjob' with ⟨job, hjob, hsteps⟩ | ⟨hnew, input, hsteps⟩
      · exact Or.inl ⟨job, hjob, hsteps.trans hsteps'⟩
      · refine Or.inr ⟨fun job hjob => ?_, input, hsteps.trans hsteps'⟩
        rw [hsteps'.follows.jobId]
        exact hnew job hjob
    · -- new in the second half: its id was not taken, so it was not taken before either
      refine Or.inr ⟨fun job hjob hid => ?_, hinput'⟩
      obtain ⟨job', hjob', hid'⟩ := h.kept job hjob
      exact hnew' job' hjob' (hid'.trans hid)

/-- A mapped table, when each row is left or makes one step. -/
theorem Extends.of_map {db db' : Database} {set : BackgroundWorkRow → BackgroundWorkRow}
    {update : Update} (hallowed : allowed update) (hjobs : db'.jobs = db.jobs.map set)
    (hset : ∀ job ∈ db.jobs, set job = job ∨ RowStep update job (set job))
    (hhandoffs : ∀ handoff ∈ db.handoffs, handoff ∈ db'.handoffs)
    (hreceipts : KeepsCrossed db db') : Extends allowed db db' where
  handoffs := hhandoffs
  receipts := hreceipts
  rows := by
    intro job' hjob'
    rw [hjobs] at hjob'
    obtain ⟨job, hjob, rfl⟩ := List.mem_map.mp hjob'
    refine Or.inl ⟨job, hjob, ?_⟩
    rcases hset job hjob with hsame | hstep
    · rw [hsame]
      exact Relation.ReflTransGen.refl
    · exact RowSteps.single hallowed hstep
  kept := by
    intro job hjob
    refine ⟨set job, hjobs ▸ List.mem_map_of_mem hjob, ?_⟩
    rcases hset job hjob with hsame | hstep
    · rw [hsame]
    · exact hstep.follows.jobId

/-- `UPDATE … WHERE cond`, when the condition makes the update a step. -/
theorem Extends.of_update {db db' : Database} {cond : BackgroundWorkRow → Bool}
    {set : BackgroundWorkRow → BackgroundWorkRow} {update : Update} (hallowed : allowed update)
    (hjobs : db'.jobs = Table.update cond set db.jobs)
    (hset : ∀ job ∈ db.jobs, cond job = true → RowStep update job (set job))
    (hhandoffs : db'.handoffs = db.handoffs) (hreceipts : KeepsCrossed db db') :
    Extends allowed db db' := by
  refine Extends.of_map hallowed hjobs (fun job hjob => ?_) (fun _ hmem => hhandoffs ▸ hmem)
    hreceipts
  by_cases hcond : cond job = true
  · right
    rw [if_pos hcond]
    exact hset job hjob hcond
  · left
    rw [if_neg hcond]

theorem Extends.insert {db : Database} (input : EnqueueBackgroundWorkInput)
    (hnew : ∀ job ∈ db.jobs, job.jobId ≠ input.jobId) :
    Extends allowed db { db with jobs := db.jobs ++ [insertedRow input] } where
  handoffs := fun _ hmem => hmem
  receipts := KeepsCrossed.of_eq rfl
  kept := fun job hjob => ⟨job, List.mem_append_left _ hjob, rfl⟩
  rows := by
    intro job' hjob'
    rcases List.mem_append.mp hjob' with hold | hinserted
    · exact Or.inl ⟨job', hold, Relation.ReflTransGen.refl⟩
    · rw [List.mem_singleton.mp hinserted]
      exact Or.inr ⟨hnew, input, Relation.ReflTransGen.refl⟩

/-! ## Transactions -/

/-- The two ways a transaction ends: nothing happened, or its body's database is there. -/
theorem withPostgresClient_cases {α : Type} (body : Database → Except String (Database × α))
    (db : Database) : (withPostgresClient body db).1 = db ∨
      ∃ db' a, body db = .ok (db', a) ∧ db'.constraints = true ∧
        withPostgresClient body db = (db', .ok a) := by
  unfold withPostgresClient
  cases hbody : body db with
  | error message => exact Or.inl rfl
  | ok result =>
    obtain ⟨db', a⟩ := result
    by_cases hvalid : db'.constraints = true
    · exact Or.inr ⟨db', a, rfl, hvalid, if_pos hvalid⟩
    · exact Or.inl (by simp [hvalid])

theorem withPostgresClient_extends {α : Type} {body : Database → Except String (Database × α)}
    {db : Database} (h : ∀ db' a, body db = .ok (db', a) → Extends allowed db db') :
    Extends allowed db (withPostgresClient body db).1 := by
  rcases withPostgresClient_cases body db with hsame | ⟨db', a, hbody, -, hresult⟩
  · rw [hsame]
    exact Extends.refl db
  · rw [hresult]
    exact h db' a hbody

theorem withPostgresClient_constraints {α : Type}
    (body : Database → Except String (Database × α)) {db : Database}
    (hdb : db.constraints = true) : (withPostgresClient body db).1.constraints = true := by
  rcases withPostgresClient_cases body db with hsame | ⟨db', a, -, hvalid, hresult⟩
  · rw [hsame]
    exact hdb
  · rw [hresult]
    exact hvalid

theorem autocommit_fst {α β : Type} (statement : Database → Database × β)
    (read : β → Except String α) (db : Database) :
    (autocommit statement read db).1 =
      if (statement db).1.constraints then (statement db).1 else db := by
  unfold autocommit
  cases statement db with
  | mk db' rows => by_cases hvalid : db'.constraints = true <;> simp [hvalid]

theorem autocommit_extends {α β : Type} {statement : Database → Database × β}
    {read : β → Except String α} {db : Database} (h : Extends allowed db (statement db).1) :
    Extends allowed db (autocommit statement read db).1 := by
  rw [autocommit_fst]
  split
  · exact h
  · exact Extends.refl db

theorem autocommit_constraints {α β : Type} (statement : Database → Database × β)
    (read : β → Except String α) {db : Database} (hdb : db.constraints = true) :
    (autocommit statement read db).1.constraints = true := by
  rw [autocommit_fst]
  split
  · assumption
  · exact hdb

/-! ## Accepting work -/

theorem enqueueValidated_extends (hallowed : allowed .supersession) {db db' : Database}
    {input : EnqueueBackgroundWorkInput} {result : EnqueueResult}
    (h : enqueueValidated db input = .ok (db', result)) :
    Extends allowed db db' := by
  unfold enqueueValidated at h
  split at h
  · -- the idempotency key is there: rows are read only
    obtain ⟨incumbent, -, h⟩ := bind_eq_ok.mp h
    obtain ⟨_, -, h⟩ := bind_eq_ok.mp h
    cases h
    exact Extends.refl db
  · obtain ⟨_, hthrow, h⟩ := bind_eq_ok.mp h
    have hnew : ∀ job ∈ db.jobs, job.jobId ≠ input.jobId := by
      simpa using throwIf_eq_ok.mp hthrow
    have hinsert : Extends allowed db { db with jobs := db.jobs ++ [insertedRow input] } :=
      Extends.insert input hnew
    dsimp only at h
    split at h
    · split at h
      · -- a newer compaction is there already: the inserted row is stale from the start
        obtain ⟨_, _, h⟩ := bind_eq_ok.mp h
        cases h
        refine hinsert.trans (Extends.of_update hallowed rfl (fun job hjob hid => ?_) rfl
          (KeepsCrossed.of_eq rfl))
        rcases List.mem_append.mp hjob with hold | hinserted
        · exact absurd (by simpa using hid) (hnew job hold)
        · rw [List.mem_singleton.mp hinserted]
          exact RowStep.superseded _ rfl
      · -- the older compactions of the session become stale
        obtain ⟨_, _, h⟩ := bind_eq_ok.mp h
        cases h
        refine hinsert.trans (Extends.of_update hallowed rfl (fun job _ hstale => ?_) rfl
          (KeepsCrossed.of_eq rfl))
        simp only [supersedes, Bool.and_eq_true] at hstale
        exact RowStep.superseded _ hstale.1.2
    · obtain ⟨_, _, h⟩ := bind_eq_ok.mp h
      cases h
      exact hinsert

/-- By induction on the inputs: each extends what the ones before it left. -/
theorem enqueueAll_extends (hallowed : allowed .supersession)
    {inputs : List EnqueueBackgroundWorkInput} :
    ∀ {db db' : Database} {results : List EnqueueResult},
      enqueueAll db inputs = .ok (db', results) → Extends allowed db db' := by
  induction inputs with
  | nil =>
    intro db db' results h
    cases h
    exact Extends.refl db
  | cons input inputs ih =>
    intro db db' results h
    obtain ⟨⟨db₁, result⟩, hfirst, h⟩ := bind_eq_ok.mp h
    obtain ⟨⟨db₂, rest⟩, hrest, h⟩ := bind_eq_ok.mp h
    cases h
    exact (enqueueValidated_extends hallowed hfirst).trans (ih hrest)

theorem acceptHandoff_extends (hallowed : allowed .supersession) {rt : HandoffRuntime} {first : EnqueueBackgroundWorkInput}
    {inputs : List EnqueueBackgroundWorkInput} {original : Option String} {db db' : Database}
    {results : List EnqueueResult}
    (h : acceptHandoff rt first inputs original db = .ok (db', results)) : Extends allowed db db' := by
  unfold acceptHandoff at h
  split at h
  · obtain ⟨_, _, h⟩ := bind_eq_ok.mp h
    obtain ⟨_, _, h⟩ := bind_eq_ok.mp h
    cases h
    exact Extends.refl db
  · refine Extends.trans ?_ (enqueueAll_extends hallowed h)
    exact Extends.of_rows rfl (fun handoff hmem => List.mem_append_left _ hmem)
      (KeepsCrossed.of_eq rfl)

/-- What a handoff comes to: nothing, or the transaction for its first input. -/
theorem enqueueBatchWithReceipt_cases (rt : HandoffRuntime)
    (inputValues : List EnqueueBackgroundWorkInput) (original : Option String) (db : Database) :
    (enqueueBatchWithReceipt rt inputValues original db).1 = db ∨
      ∃ first rest, inputValues.mapM rt.validateEnqueueInput = .ok (first :: rest) ∧
        enqueueBatchWithReceipt rt inputValues original db =
          withPostgresClient (acceptHandoff rt first (first :: rest) original) db := by
  unfold enqueueBatchWithReceipt
  split_ifs
  · exact Or.inl rfl
  · exact Or.inl rfl
  · split
    · exact Or.inl rfl
    · exact Or.inl rfl
    · rename_i first rest hvalid
      split
      · exact Or.inl rfl
      · split
        · exact Or.inl rfl
        · exact Or.inr ⟨first, rest, hvalid, rfl⟩

theorem enqueueBatchWithReceipt_extends (hallowed : allowed .supersession) (rt : HandoffRuntime)
    (inputValues : List EnqueueBackgroundWorkInput) (original : Option String) (db : Database) :
    Extends allowed db (enqueueBatchWithReceipt rt inputValues original db).1 := by
  rcases enqueueBatchWithReceipt_cases rt inputValues original db with
    hsame | ⟨first, rest, -, hrun⟩
  · rw [hsame]
    exact Extends.refl db
  · rw [hrun]
    exact withPostgresClient_extends fun db' a hbody => acceptHandoff_extends hallowed hbody

theorem enqueueBatchWithReceipt_constraints (rt : HandoffRuntime)
    (inputValues : List EnqueueBackgroundWorkInput) (original : Option String) {db : Database}
    (hdb : db.constraints = true) :
    (enqueueBatchWithReceipt rt inputValues original db).1.constraints = true := by
  rcases enqueueBatchWithReceipt_cases rt inputValues original db with
    hsame | ⟨first, rest, -, hrun⟩
  · rw [hsame]
    exact hdb
  · rw [hrun]
    exact withPostgresClient_constraints _ hdb

/-- `recoverBatch` is the handoff, or refuses before it reads anything. -/
theorem recoverBatch_fst (rt : HandoffRuntime) (jobs : List EnqueueBackgroundWorkInput)
    (original : Option String) (db : Database) : (recoverBatch rt jobs original db).1 = db ∨
      (recoverBatch rt jobs original db).1 =
        (enqueueBatchWithReceipt rt jobs original db).1 := by
  unfold recoverBatch
  split_ifs
  · exact Or.inl rfl
  · exact Or.inl rfl
  · exact Or.inr rfl

/-! ## Claiming and renewing -/

/-- A row that maps has a lease that ends at a safe integer. -/
theorem mapRow_lease {row mapped : BackgroundWorkRow} {expires : Nat}
    (h : mapRow row = .ok mapped) (hlease : row.leaseExpiresAtMs = some expires) :
    expires ≤ maxSafeInteger := by
  unfold mapRow at h
  obtain ⟨_, hsafe, _⟩ := bind_eq_ok.mp h
  rw [hlease] at hsafe
  obtain ⟨_, hsafe⟩ := discard_eq_ok.mp hsafe
  exact (safeInteger_eq_ok.mp hsafe).1

theorem mapClaimedRow_lease {row mapped : BackgroundWorkRow} {expires : Nat}
    (h : mapClaimedRow row = .ok mapped) (hlease : row.leaseExpiresAtMs = some expires) :
    expires ≤ maxSafeInteger := by
  unfold mapClaimedRow at h
  obtain ⟨_, hmapped, -⟩ := bind_eq_ok.mp h
  exact mapRow_lease hmapped hlease

theorem claimable_runnable {db : Database} {input : ClaimInput} {candidate : ClaimCandidate}
    {job : BackgroundWorkRow} (h : claimable db input candidate job = true) :
    job.state.runnable = true := by
  simp only [claimable, Bool.and_eq_true] at h
  exact h.1.1.2

/-- By induction on the candidates; the loop stops at the first one it can claim. -/
theorem claimLoop_extends (hallowed : allowed .claim) {input : ClaimInput} {busy : List Text} {candidates : List ClaimCandidate} :
    ∀ {db db' : Database} {claimed : Option BackgroundWorkRow},
      claimLoop input busy db candidates = .ok (db', claimed) → Extends allowed db db' := by
  induction candidates with
  | nil =>
    intro db db' claimed h
    cases h
    exact Extends.refl db
  | cons candidate candidates ih =>
    intro db db' claimed h
    simp only [claimLoop] at h
    split at h
    · exact ih h
    · have hdropped : Extends allowed db
          (dropExpiredForeground candidate.logicalSessionId input.nowMs.value db) :=
        Extends.of_rows rfl (fun _ hmem => hmem) (KeepsCrossed.of_eq rfl)
      split at h
      · exact hdropped.trans (ih h)
      · -- the lease the returned row carries is the one every changed row gets
        obtain ⟨row, hmapped, h⟩ := bind_eq_ok.mp h
        cases h
        have hlease := mapClaimedRow_lease hmapped rfl
        refine hdropped.trans (Extends.of_update hallowed rfl (fun job _ hcond => ?_) rfl
          (KeepsCrossed.of_eq rfl))
        exact RowStep.claimed input _ (claimable_runnable hcond) hlease

theorem claimNext_extends (hallowed : allowed .claim) {input : ClaimInput} {busy : List Text}
    {seen : Database} (db : Database) : Extends allowed db (claimNext input busy seen db).1 :=
  withPostgresClient_extends fun _ _ hbody => claimLoop_extends hallowed hbody

/-- What a renewal is, by where the lease ends. -/
def renewalUpdate (nowMs leaseDurationMs : SafeInteger) : Update :=
  if nowMs.value + leaseDurationMs.value ≤ maxSafeInteger then .renewal else .overrun

theorem renewClaims_extends {leaseOwner : Text} {jobIds : List Text}
    {nowMs leaseDurationMs : SafeInteger} (hallowed : allowed (renewalUpdate nowMs leaseDurationMs))
    (db : Database) : Extends allowed db (renewClaims leaseOwner jobIds nowMs leaseDurationMs db).1 := by
  refine autocommit_extends (Extends.of_update hallowed rfl (fun job _ hcond => ?_) rfl
    (KeepsCrossed.of_eq rfl))
  simp only [renewable, Bool.and_eq_true] at hcond
  have hrunning := running_of_runningRow hcond.2
  unfold renewalUpdate
  split
  · exact RowStep.renewed nowMs leaseDurationMs hrunning ‹_›
  · exact RowStep.overran nowMs leaseDurationMs hrunning

/-! ## Settling a claim -/

theorem owns_running {token : ClaimToken} {job : BackgroundWorkRow} (h : token.owns job = true) :
    job.state = .running := by
  simp only [ClaimToken.owns, Bool.and_eq_true] at h
  exact running_of_runningRow h.1.1.2

theorem transitionClaim_extends {token : ClaimToken} {set : BackgroundWorkRow → BackgroundWorkRow}
    {update : Update} (hallowed : allowed update) (db : Database)
    (hset : ∀ job, job.state = .running → RowStep update job (set job)) :
    Extends allowed db (transitionClaim token set db).1 :=
  Extends.of_update hallowed rfl (fun job _ howns => hset job (owns_running howns)) rfl
    (KeepsCrossed.of_eq rfl)

theorem recordTerminalSubsystemProjection_extends {job : BackgroundWorkRow}
    {status : SubsystemOutputStatus} {db db' : Database}
    (h : recordTerminalSubsystemProjection job status db = .ok db') : Extends allowed db db' := by
  unfold recordTerminalSubsystemProjection at h
  split at h
  · cases h
    exact Extends.of_rows rfl (fun _ hmem => hmem) (KeepsCrossed.of_eq rfl)
  · split at h
    · cases h
      exact Extends.refl db
    · cases h

/-- The ids of a database's rows are distinct. -/
theorem jobs_keyed {db : Database} (h : db.constraints = true) :
    Table.Keyed (·.jobId) db.jobs := by
  simp only [Database.constraints, Bool.and_eq_true, decide_eq_true_eq] at h
  exact h.1.1.1.1.1.2

/-- The row a token names is the one it finds. -/
theorem eq_of_owns {db : Database} (hdb : db.constraints = true) {token : ClaimToken}
    {current job : BackgroundWorkRow} (hfind : db.jobs.find? token.owns = some current)
    (hjob : job ∈ db.jobs) (howns : token.owns job = true) : job = current := by
  have hcurrent := List.find?_some hfind
  simp only [ClaimToken.owns, Bool.and_eq_true, decide_eq_true_eq] at howns hcurrent
  have hid : job.jobId = current.jobId := howns.1.1.1.trans hcurrent.1.1.1.symm
  exact (jobs_keyed hdb).unique hjob (List.mem_of_find?_eq_some hfind) hid

theorem projectTerminal_extends {ends : Bool} {job : BackgroundWorkRow}
    {status : SubsystemOutputStatus} {db db' : Database}
    (h : projectTerminal ends job status db = .ok db') : Extends allowed db db' := by
  unfold projectTerminal at h
  split at h
  · exact recordTerminalSubsystemProjection_extends h
  · cases h
    exact Extends.refl db

theorem requireClaim_eq_ok {token : ClaimToken} {db : Database} {current : BackgroundWorkRow}
    (h : requireClaim token db = .ok current) : db.jobs.find? token.owns = some current := by
  unfold requireClaim at h
  split at h
  · rename_i found hfind
    rw [hfind, Except.ok.inj h]
  · cases h

theorem failOrRetry_extends (hallowed : allowed .retry) {token : ClaimToken} {nowMs retryAtMs : SafeInteger}
    {retryHandlerFailed terminalHandlerFailed : Bool} {db : Database}
    (hdb : db.constraints = true) :
    Extends allowed db (failOrRetry token nowMs retryAtMs retryHandlerFailed terminalHandlerFailed db).1 := by
  refine withPostgresClient_extends fun db' row hbody => ?_
  obtain ⟨current, hcurrent, hbody⟩ := bind_eq_ok.mp hbody
  obtain ⟨db₂, hproject, hbody⟩ := bind_eq_ok.mp hbody
  obtain ⟨_, _, hbody⟩ := bind_eq_ok.mp hbody
  cases hbody
  refine Extends.trans ?_ (projectTerminal_extends hproject)
  refine Extends.of_update hallowed rfl (fun job hjob howns => ?_) rfl (KeepsCrossed.of_eq rfl)
  -- the flag was computed from the row that is updated, so a retry leaves an attempt
  have hsame : job = current := eq_of_owns hdb (requireClaim_eq_ok hcurrent) hjob howns
  subst hsame
  refine RowStep.retried _ _ nowMs retryAtMs (owns_running howns) fun hterminal => ?_
  simp only [Bool.or_eq_false_iff, decide_eq_false_iff_not] at hterminal
  omega

theorem markClaimTerminal_extends (hallowed : allowed .settlement) {token : ClaimToken} {state : BackgroundWorkState}
    {reasonCode : BackgroundWorkReasonCode} {nowMs : SafeInteger} (db : Database)
    (hterminal : state.terminal = true) :
    Extends allowed db (markClaimTerminal token state reasonCode nowMs db).1 := by
  refine withPostgresClient_extends fun db' row hbody => ?_
  obtain ⟨current, _, hbody⟩ := bind_eq_ok.mp hbody
  obtain ⟨db₂, hproject, hbody⟩ := bind_eq_ok.mp hbody
  obtain ⟨_, _, hbody⟩ := bind_eq_ok.mp hbody
  cases hbody
  refine Extends.trans ?_ (projectTerminal_extends hproject)
  refine Extends.of_update hallowed rfl (fun job _ howns => ?_) rfl (KeepsCrossed.of_eq rfl)
  exact RowStep.settled state reasonCode nowMs (owns_running howns) hterminal

theorem terminalMark_terminal (mark : TerminalMark) : mark.state.terminal = true := by
  cases mark <;> rfl

/-! ## Sweeps -/

theorem requeueOne_extends (hallowed : allowed .requeue) {leaseOwner : Text} {nowMs : SafeInteger} {db db' : Database}
    {jobId : Text} (h : requeueOne leaseOwner nowMs db jobId = .ok db') : Extends allowed db db' := by
  unfold requeueOne at h
  split at h
  · cases h
    exact Extends.refl db
  · obtain ⟨_, _, h⟩ := bind_eq_ok.mp h
    cases h
    refine Extends.of_update hallowed rfl (fun job _ hcond => ?_) rfl
      (KeepsCrossed.of_delete rfl fun receipt hcond => ?_)
    · simp only [requeuable, Bool.and_eq_true] at hcond
      exact RowStep.requeued nowMs (running_of_runningRow hcond.2.1.1)
    · simp only [Bool.and_eq_true, decide_eq_true_eq] at hcond
      exact hcond.2

/-- A loop over the tables, each turn of which extends them. -/
theorem foldlM_extends {α : Type} {body : Database → α → Except String Database}
    (hbody : ∀ {db db' : Database} {a : α}, body db a = .ok db' → Extends allowed db db') {items : List α} :
    ∀ {db db' : Database}, items.foldlM body db = .ok db' → Extends allowed db db' := by
  induction items with
  | nil =>
    intro db db' h
    cases h
    exact Extends.refl db
  | cons item items ih =>
    intro db db' h
    rw [List.foldlM_cons] at h
    obtain ⟨db₁, hfirst, hrest⟩ := bind_eq_ok.mp h
    exact (hbody hfirst).trans (ih hrest)

theorem settleSwept_extends {row : BackgroundWorkRow} {db db' : Database}
    (h : settleSwept db row = .ok db') : Extends allowed db db' := by
  unfold settleSwept at h
  split at h
  · obtain ⟨db₁, hproject, h⟩ := bind_eq_ok.mp h
    obtain ⟨_, _, h⟩ := bind_eq_ok.mp h
    cases h
    exact projectTerminal_extends hproject
  · cases h
    exact Extends.refl db

/-- Recording unknown outcomes touches neither handoffs nor receipts. -/
theorem recordUnknownProjections_frame (expired : List ExpiredClaim) :
    ∀ db : Database, (recordUnknownProjections expired db).handoffs = db.handoffs ∧
      (recordUnknownProjections expired db).receipts = db.receipts := by
  induction expired with
  | nil => exact fun db => ⟨rfl, rfl⟩
  | cons claim expired ih =>
    intro db
    rw [recordUnknownProjections, List.foldl_cons]
    split
    · exact ih _
    · exact ih db

theorem requeuePreBoundaryClaims_extends (hallowed : allowed .requeue) {leaseOwner : Text}
    {nowMs : SafeInteger} {seen : Database} (db : Database) :
    Extends allowed db (requeuePreBoundaryClaims leaseOwner nowMs seen db).1 := by
  refine withPostgresClient_extends fun db' a hbody => ?_
  obtain ⟨db₁, hloop, hbody⟩ := bind_eq_ok.mp hbody
  cases hbody
  exact foldlM_extends (requeueOne_extends hallowed) hloop

/-- The claims a sweep has found, against the rows it then changes: none of them is settled
for good, and what the sweep thought of their budget is still so. -/
def Undisturbed (expired : List ExpiredClaim) (db : Database) : Prop :=
  ∀ claim ∈ expired, ∀ job ∈ db.jobs, job.jobId = claim.job.jobId →
    job.state.terminal = false ∧ (claim.expiryBudgetExhausted = false →
      job.leaseExpiryCount + 1 < leaseExpiryLimit)

theorem mem_findExpired {nowMs : Nat} {db : Database} {claim : ExpiredClaim}
    (h : claim ∈ findExpired nowMs db) : claim.job ∈ db.jobs ∧ claim.job.state = .running ∧
      (claim.expiryBudgetExhausted = false →
        claim.job.leaseExpiryCount + 1 < leaseExpiryLimit) := by
  obtain ⟨job, hjob, rfl⟩ := List.mem_map.mp h
  obtain ⟨hmem, hexpired⟩ := List.mem_filter.mp hjob
  simp only [leaseExpired, Bool.and_eq_true] at hexpired
  refine ⟨hmem, running_of_runningRow hexpired.1, fun hbudget => ?_⟩
  simp only [decide_eq_false_iff_not] at hbudget
  show job.leaseExpiryCount + 1 < leaseExpiryLimit
  omega

/-- The second statement of a sweep, over the claims it has found. -/
theorem applyExpired_extends (hallowed : allowed .expiry) {nowMs : SafeInteger} {db db' : Database} {count : Nat}
    {expired : List ExpiredClaim} (hundisturbed : Undisturbed expired db)
    (h : applyExpired nowMs expired db = .ok (db', count)) : Extends allowed db db' := by
  unfold applyExpired at h
  obtain ⟨db₁, hsettled, h⟩ := bind_eq_ok.mp h
  cases h
  obtain ⟨hhandoffs, hreceipts⟩ := recordUnknownProjections_frame expired db
  refine Extends.trans (Extends.of_map hallowed rfl (fun job hjob => ?_)
    (fun handoff hmem => ?_) (KeepsCrossed.of_eq ?_)) (foldlM_extends settleSwept_extends hsettled)
  · unfold sweptRow
    split
    · rename_i claim hclaim
      have hmem : claim ∈ expired := List.mem_of_find?_eq_some hclaim
      have hid : claim.job.jobId = job.jobId := by simpa using List.find?_some hclaim
      obtain ⟨hopen, hbudget⟩ := hundisturbed claim hmem job hjob hid.symm
      exact Or.inr (RowStep.expired nowMs claim hopen hbudget)
    · exact Or.inl rfl
  · show handoff ∈ (recordUnknownProjections expired db).handoffs
    rw [hhandoffs]
    exact hmem
  · exact hreceipts

theorem recoverExpired_extends (hallowed : allowed .expiry) {nowMs : SafeInteger}
    {atDelete atUpdate db : Database}
    (hundisturbed : Undisturbed (findExpired nowMs.value atUpdate) db) :
    Extends allowed db (recoverExpired nowMs atDelete atUpdate db).1 := by
  refine withPostgresClient_extends fun db' a hbody => ?_
  -- dropping receipts leaves the jobs, so the sweep's rows are undisturbed there as well
  have hdropped : Extends allowed db (dropPendingReceipts nowMs.value atDelete db) := by
    refine Extends.of_rows rfl (fun _ hmem => hmem)
      (KeepsCrossed.of_delete rfl fun receipt hcond => ?_)
    simp only [Bool.and_eq_true, decide_eq_true_eq] at hcond
    exact hcond.1.1
  exact hdropped.trans (applyExpired_extends hallowed hundisturbed hbody)

theorem purgeTerminal_advances (completedBeforeMs : SafeInteger) (limit : Nat) (db : Database) :
    Advances allowed db (purgeTerminal completedBeforeMs limit db).1 := by
  unfold purgeTerminal
  split
  · exact (Extends.refl db).toAdvances
  · split
    · exact (Extends.refl db).toAdvances
    · rw [autocommit_fst]
      split
      · -- the rows that stay are as they were
        refine ⟨fun job hjob => Or.inl ⟨job, ?_, Relation.ReflTransGen.refl⟩, fun _ hmem => hmem⟩
        exact (Table.mem_delete.mp hjob).1
      · exact (Extends.refl db).toAdvances

end Psfn.Background
