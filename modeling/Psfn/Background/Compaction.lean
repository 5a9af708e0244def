import Psfn.Background.Interruption

/-!
# Background work — the newest compaction

A handoff that brings an `auto_compaction` job makes the older runnable ones of its session stale,
or is stale itself when a newer one is stored. A job that is running is neither: it may come
back to a runnable state afterwards, and nothing looks for a newer one then.

* `newest_compaction_wins` — as long as no compaction is given back while a newer one of its
  session is stored, at most one is runnable, and it is the newest.
* `deferral_revives_older` — a deferral leaves two of them runnable.
-/

namespace Psfn.Background

open Psfn.Lib

/-! ## The order of two jobs -/

/-- `other` has the greater `(created_at_ms, job_id)`. -/
def Newer (other job : BackgroundWorkRow) : Prop :=
  newerThan other job.createdAtMs job.jobId = true

variable {job : BackgroundWorkRow}

theorem newer_iff {other : BackgroundWorkRow} :
    Newer other job ↔ job.createdAtMs.value < other.createdAtMs.value ∨
      other.createdAtMs.value = job.createdAtMs.value ∧ job.jobId.value < other.jobId.value := by
  have hsame : other.createdAtMs = job.createdAtMs ↔
      other.createdAtMs.value = job.createdAtMs.value := by
    constructor
    · intro h
      rw [h]
    · intro h
      cases hother : other.createdAtMs
      cases hjob : job.createdAtMs
      rw [hother, hjob] at h
      simpa using h
  simp only [Newer, newerThan, Bool.or_eq_true, Bool.and_eq_true, decide_eq_true_eq, hsame]

theorem Newer.trans {a b c : BackgroundWorkRow} (hab : Newer a b) (hbc : Newer b c) : Newer a c := by
  rw [newer_iff] at *
  rcases hab with hab | ⟨hab, hid⟩ <;> rcases hbc with hbc | ⟨hbc, hid'⟩
  · exact .inl (hbc.trans hab)
  · exact .inl (hbc ▸ hab)
  · exact .inl (hab.symm ▸ hbc)
  · exact .inr ⟨hab.trans hbc, String.lt_trans hid' hid⟩

theorem not_newer_self (job : BackgroundWorkRow) : ¬ Newer job job := by
  rw [newer_iff]
  rintro (h | ⟨-, h⟩)
  · exact absurd h (Nat.lt_irrefl _)
  · exact String.lt_irrefl _ h

theorem newer_total {other : BackgroundWorkRow} (h : job.jobId ≠ other.jobId) :
    Newer job other ∨ Newer other job := by
  rw [newer_iff, newer_iff]
  rcases Nat.lt_trichotomy job.createdAtMs.value other.createdAtMs.value with hlt | heq | hgt
  · exact .inr (.inl hlt)
  · have hne : job.jobId.value ≠ other.jobId.value := by
      intro hvalue
      refine h ?_
      cases hjob : job.jobId
      cases hother : other.jobId
      rw [hjob, hother] at hvalue
      simpa using hvalue
    by_cases hid : job.jobId.value < other.jobId.value
    · exact .inr (.inr ⟨heq.symm, hid⟩)
    · have hle := String.not_lt.1 hid
      by_cases hid' : other.jobId.value < job.jobId.value
      · exact .inl (.inr ⟨heq, hid'⟩)
      · exact absurd (String.le_antisymm (String.not_lt.1 hid') hle) hne
  · exact .inl (.inl hgt)

/-! ## What should hold -/

/-- A newer compaction of the job's session is stored. -/
def Outdated (db : Database) (job : BackgroundWorkRow) : Prop :=
  ∃ other ∈ db.jobs, other.logicalSessionId = job.logicalSessionId ∧
    other.kind = .autoCompaction ∧ Newer other job

/-- The runnable compactions are the newest of their sessions. -/
def Newest (db : Database) : Prop :=
  ∀ job ∈ db.jobs, job.kind = .autoCompaction → job.state.runnable = true → ¬ Outdated db job

structure NewestCompactionWins (db : Database) : Prop where
  oneRunnable : ∀ job ∈ db.jobs, ∀ other ∈ db.jobs, job.kind = .autoCompaction →
    other.kind = .autoCompaction → job.logicalSessionId = other.logicalSessionId →
      job.state.runnable = true → other.state.runnable = true → job = other
  newest      : ∀ job ∈ db.jobs, ∀ other ∈ db.jobs, job.kind = .autoCompaction →
    other.kind = .autoCompaction → other.logicalSessionId = job.logicalSessionId →
      job.state.runnable = true → other ≠ job → Newer job other

variable {db : Database}

theorem Newest.wins (h : Newest db) (hdb : db.constraints = true) :
    NewestCompactionWins db := by
  have hnewest : ∀ job ∈ db.jobs, ∀ other ∈ db.jobs, job.kind = .autoCompaction →
      other.kind = .autoCompaction → other.logicalSessionId = job.logicalSessionId →
        job.state.runnable = true → other ≠ job → Newer job other := by
    intro job hjob other hother hkind hkind' hsession hrunnable hne
    have hid : job.jobId ≠ other.jobId :=
      fun heq => hne ((jobs_keyed hdb).unique hjob hother heq).symm
    rcases newer_total hid with hnewer | hnewer
    · exact hnewer
    · exact absurd ⟨other, hother, hsession, hkind', hnewer⟩ (h job hjob hkind hrunnable)
  refine ⟨?_, hnewest⟩
  intro job hjob other hother hkind hkind' hsession hrunnable hrunnable'
  by_contra hne
  have hfirst := hnewest job hjob other hother hkind hkind' hsession.symm hrunnable (Ne.symm hne)
  have hsecond := hnewest other hother job hjob hkind' hkind hsession hrunnable' hne
  exact not_newer_self job (hfirst.trans hsecond)

/-- The condition: a transaction that gives compactions back finds none of them outdated. Which
jobs it gives back is what its own `WHERE` clause says of them. -/
def Action.ReturnsNewest : Action → World → Prop
  | .settle token (.defer _ _ _), w => ∀ job ∈ w.db.jobs, token.owns job = true →
    job.kind = .autoCompaction → ¬ Outdated w.db job
  | .settle token (.failOrRetry _ _ _ _), w => ∀ job ∈ w.db.jobs, token.owns job = true →
    job.kind = .autoCompaction → startedProjection w.db token.jobId = false →
      job.attemptCount + 1 < job.maxAttempts → ¬ Outdated w.db job
  | .requeuePreBoundaryClaims leaseOwner _ age, w => ∀ job ∈ w.db.jobs,
    requeuable w.db leaseOwner job = true → job.kind = .autoCompaction →
      (∃ found ∈ (w.seen age).jobs, found.jobId = job.jobId ∧
        requeuable (w.seen age) leaseOwner found = true) → ¬ Outdated w.db job
  | .recoverExpired nowMs _ updateAge, w => ∀ claim ∈ findExpired nowMs.value (w.seen updateAge),
    claim.boundaryCrossed = false → claim.expiryBudgetExhausted = false → ∀ job ∈ w.db.jobs,
      job.jobId = claim.job.jobId → job.kind = .autoCompaction → ¬ Outdated w.db job
  | _, _ => True

/-- The runs in which no outdated compaction is given back. -/
def newestReturns (rt : HandoffRuntime) : System World where
  init := {}
  step := fun w w' => ∃ action : Action, action.ReturnsNewest w ∧ w' = perform rt action w

/-! ## Transactions that insert nothing -/

/-- What the order of two jobs reads is as before. -/
structure SameKeys (job job' : BackgroundWorkRow) : Prop where
  logicalSessionId : job'.logicalSessionId = job.logicalSessionId
  kind             : job'.kind = job.kind
  createdAtMs      : job'.createdAtMs = job.createdAtMs
  jobId            : job'.jobId = job.jobId

theorem SameKeys.refl (job : BackgroundWorkRow) : SameKeys job job := ⟨rfl, rfl, rfl, rfl⟩

theorem SameKeys.newer {a a' b b' : BackgroundWorkRow} (ha : SameKeys a a') (hb : SameKeys b b')
    (h : Newer a' b') : Newer a b := by
  rw [newer_iff] at *
  rwa [ha.createdAtMs, ha.jobId, hb.createdAtMs, hb.jobId] at h

/-- Every row afterwards is a row before; if it is runnable, it was so before, or it is one that
may be given back. -/
def Rewrites (mayReturn : BackgroundWorkRow → Prop) (db db' : Database) : Prop :=
  ∀ job' ∈ db'.jobs, ∃ job ∈ db.jobs, SameKeys job job' ∧
    (job'.state.runnable = true → job.state.runnable = true ∨ mayReturn job)

variable {mayReturn : BackgroundWorkRow → Prop}

variable {db' : Database}

theorem Rewrites.of_jobs (h : ∀ job ∈ db'.jobs, job ∈ db.jobs) :
    Rewrites mayReturn db db' :=
  fun job' hjob' => ⟨job', h job' hjob', SameKeys.refl job', .inl⟩

/-- A guarded `UPDATE`. -/
theorem Rewrites.of_update {cond : BackgroundWorkRow → Bool}
    {set : BackgroundWorkRow → BackgroundWorkRow} (hjobs : db'.jobs = Table.update cond set db.jobs)
    (hkeys : ∀ job, SameKeys job (set job))
    (hreturn : ∀ job ∈ db.jobs, cond job = true → (set job).state.runnable = true → mayReturn job) :
    Rewrites mayReturn db db' := by
  intro job' hjob'
  rw [hjobs] at hjob'
  obtain ⟨job, hjob, ⟨hcond, rfl⟩ | ⟨-, rfl⟩⟩ := Table.mem_update.mp hjob'
  · exact ⟨job, hjob, hkeys job, fun hrunnable => .inr (hreturn job hjob hcond hrunnable)⟩
  · exact ⟨job', hjob, SameKeys.refl job', .inl⟩

theorem Rewrites.newest (h : Rewrites mayReturn db db') (hnewest : Newest db)
    (hreturn : ∀ job ∈ db.jobs, mayReturn job → job.kind = .autoCompaction → ¬ Outdated db job) :
    Newest db' := by
  intro job' hjob' hkind hrunnable
  rintro ⟨other', hother', hsession, hother, hnewer⟩
  obtain ⟨job, hjob, hkeys, hback⟩ := h job' hjob'
  obtain ⟨other, hmem, hkeys', -⟩ := h other' hother'
  have hkind' : job.kind = .autoCompaction := hkeys.kind.symm.trans hkind
  -- the newer row was there before, under the same keys
  have houtdated : Outdated db job :=
    ⟨other, hmem, hkeys'.logicalSessionId.symm.trans (hsession.trans hkeys.logicalSessionId),
      hkeys'.kind.symm.trans hother, hkeys'.newer hkeys hnewer⟩
  rcases hback hrunnable with hbefore | hmay
  · exact hnewest job hjob hkind' hbefore houtdated
  · exact hreturn job hjob hmay hkind' houtdated

theorem withPostgresClient_rewrites {α : Type} {body : Database → Except String (Database × α)}
    (h : ∀ db' a, body db = .ok (db', a) → Rewrites mayReturn db db') :
    Rewrites mayReturn db (withPostgresClient body db).1 := by
  rcases withPostgresClient_cases body db with hsame | ⟨db', a, hbody, -, hresult⟩
  · rw [hsame]
    exact Rewrites.of_jobs fun _ hmem => hmem
  · rw [hresult]
    exact h db' a hbody

theorem autocommit_rewrites {α β : Type} {statement : Database → Database × β}
    {read : β → Except String α} (h : Rewrites mayReturn db (statement db).1) :
    Rewrites mayReturn db (autocommit statement read db).1 := by
  rw [autocommit_fst]
  split
  · exact h
  · exact Rewrites.of_jobs fun _ hmem => hmem

/-- A claimed row is running; the loop changes no other. -/
theorem claimLoop_rewrites {input : ClaimInput} {busy : List Text}
    {candidates : List ClaimCandidate} :
    ∀ {db db' : Database} {claimed : Option BackgroundWorkRow},
      claimLoop input busy db candidates = .ok (db', claimed) → Rewrites mayReturn db db' := by
  induction candidates with
  | nil =>
    intro db db' claimed h
    cases h
    exact Rewrites.of_jobs fun _ hmem => hmem
  | cons candidate candidates ih =>
    intro db db' claimed h
    simp only [claimLoop] at h
    split at h
    · exact ih h
    · split at h
      · -- dropping foreground leases leaves the jobs
        have hrest : Rewrites mayReturn
            (dropExpiredForeground candidate.logicalSessionId input.nowMs.value db) db' := ih h
        exact hrest
      · obtain ⟨row, -, h⟩ := bind_eq_ok.mp h
        cases h
        show Rewrites mayReturn
          (dropExpiredForeground candidate.logicalSessionId input.nowMs.value db) _
        refine Rewrites.of_update rfl (fun job => ⟨rfl, rfl, rfl, rfl⟩) fun job _ _ hrunnable => ?_
        exact absurd hrunnable (by simp [claimedRow, BackgroundWorkState.runnable])

theorem renewClaims_rewrites (leaseOwner : Text) (jobIds : List Text)
    (nowMs leaseDurationMs : SafeInteger) (db : Database) :
    Rewrites mayReturn db (renewClaims leaseOwner jobIds nowMs leaseDurationMs db).1 := by
  refine autocommit_rewrites (Rewrites.of_update rfl (fun job => ⟨rfl, rfl, rfl, rfl⟩)
    fun job _ hcond hrunnable => ?_)
  simp only [renewable, Bool.and_eq_true] at hcond
  have hrunning : (renewedRow nowMs leaseDurationMs job).state = .running :=
    running_of_runningRow hcond.2
  exact absurd hrunnable (by simp [hrunning, BackgroundWorkState.runnable])

theorem not_runnable_of_terminal {state : BackgroundWorkState} (h : state.terminal = true) :
    state.runnable = false := by
  cases state <;> simp_all [BackgroundWorkState.terminal, BackgroundWorkState.runnable]

/-- The rows a settlement may give back. -/
def Settlement.Returns (token : ClaimToken) (db : Database) (job : BackgroundWorkRow) :
    Settlement → Prop
  | .defer _ _ _ => token.owns job = true
  | .failOrRetry _ _ _ _ => token.owns job = true ∧ startedProjection db token.jobId = false ∧
    job.attemptCount + 1 < job.maxAttempts
  | _ => False

theorem settleClaim_rewrites (token : ClaimToken) (settlement : Settlement)
    (hdb : db.constraints = true) :
    Rewrites (fun job => settlement.Returns token db job) db (settleClaim token settlement db) := by
  cases settlement with
  | complete nowMs =>
    refine autocommit_rewrites (Rewrites.of_update rfl (fun job => ⟨rfl, rfl, rfl, rfl⟩)
      fun job _ _ hrunnable => ?_)
    exact absurd hrunnable (by simp [settledRow, releasedRow, BackgroundWorkState.runnable])
  | defer reason availableAtMs nowMs =>
    exact autocommit_rewrites (Rewrites.of_update rfl (fun job => ⟨rfl, rfl, rfl, rfl⟩)
      fun job _ howns _ => howns)
  | failOrRetry nowMs retryAtMs retryHandlerFailed terminalHandlerFailed =>
    refine withPostgresClient_rewrites fun db' row hbody => ?_
    obtain ⟨current, hcurrent, hbody⟩ := bind_eq_ok.mp hbody
    obtain ⟨db₁, hproject, hbody⟩ := bind_eq_ok.mp hbody
    obtain ⟨_, -, hbody⟩ := bind_eq_ok.mp hbody
    cases hbody
    have hfind := requireClaim_eq_ok hcurrent
    refine Rewrites.of_update (projectTerminal_jobs hproject) (fun job => ⟨rfl, rfl, rfl, rfl⟩)
      fun job hjob howns hrunnable => ?_
    -- the row is the one that was locked, and it is runnable only if the retry is not the last
    obtain rfl : job = current := eq_of_owns hdb hfind hjob howns
    cases hprojection : startedProjection db token.jobId with
    | true =>
      simp [retriedRow, releasedRow, hprojection, BackgroundWorkState.runnable] at hrunnable
    | false =>
      by_cases hattempts : job.attemptCount + 1 < job.maxAttempts
      · exact ⟨howns, hprojection, hattempts⟩
      · have hexhausted : job.maxAttempts ≤ job.attemptCount + 1 := Nat.not_lt.mp hattempts
        simp [retriedRow, releasedRow, hprojection, hexhausted,
          BackgroundWorkState.runnable] at hrunnable
  | markClaim mark nowMs =>
    refine withPostgresClient_rewrites fun db' row hbody => ?_
    obtain ⟨current, hcurrent, hbody⟩ := bind_eq_ok.mp hbody
    obtain ⟨db₁, hproject, hbody⟩ := bind_eq_ok.mp hbody
    obtain ⟨_, -, hbody⟩ := bind_eq_ok.mp hbody
    cases hbody
    refine Rewrites.of_update (projectTerminal_jobs hproject) (fun job => ⟨rfl, rfl, rfl, rfl⟩)
      fun job _ _ hrunnable => ?_
    have hterminal := not_runnable_of_terminal (terminalMark_terminal mark)
    exact absurd hrunnable (by simp [settledRow, releasedRow, hterminal])

/-! ## Sweeps -/

theorem boundaryCrossed_of_delete {receipts : List EffectReceiptRow} {jobId : Text}
    (h : receipts = Table.delete (fun receipt => receipt.jobId = jobId && receipt.state =
      .pending) db.receipts)
    (id : Text) :
    (receipts.any fun receipt => receipt.jobId = id && receipt.state ≠ .pending) =
      boundaryCrossed db id := by
  rw [h, boundaryCrossed, Bool.eq_iff_iff, List.any_eq_true, List.any_eq_true]
  constructor
  · rintro ⟨receipt, hmem, hcrossed⟩
    exact ⟨receipt, (Table.mem_delete.mp hmem).1, hcrossed⟩
  · rintro ⟨receipt, hmem, hcrossed⟩
    refine ⟨receipt, Table.mem_delete.mpr ⟨hmem, ?_⟩, hcrossed⟩
    simp only [Bool.and_eq_true, decide_eq_true_eq] at hcrossed
    simp [hcrossed.2]

/-- Half way through the requeue of some candidates: rows are as they were or requeued, and the
same jobs are past their boundary. -/
structure Requeued (leaseOwner : Text) (nowMs : SafeInteger) (candidates : List Text)
    (db db' : Database) : Prop where
  jobs    : ∀ job' ∈ db'.jobs, ∃ job ∈ db.jobs, job' = job ∨ (requeuable db leaseOwner job = true ∧
    job.jobId ∈ candidates ∧ job' = requeuedRow nowMs job)
  crossed : ∀ id, boundaryCrossed db' id = boundaryCrossed db id

theorem Requeued.step {leaseOwner : Text} {nowMs : SafeInteger} {candidates : List Text}
    {db db₁ db₂ : Database} (h : Requeued leaseOwner nowMs candidates db db₁) {jobId : Text}
    (hcandidate : jobId ∈ candidates) (hstep : requeueOne leaseOwner nowMs db₁ jobId = .ok db₂) :
    Requeued leaseOwner nowMs candidates db db₂ := by
  unfold requeueOne at hstep
  split at hstep
  · cases hstep
    exact h
  · obtain ⟨_, -, hstep⟩ := bind_eq_ok.mp hstep
    cases hstep
    refine ⟨?_, fun id => (boundaryCrossed_of_delete rfl id).trans (h.crossed id)⟩
    intro job' hjob'
    obtain ⟨job₁, hjob₁, ⟨hcond, rfl⟩ | ⟨-, rfl⟩⟩ := Table.mem_update.mp hjob'
    · obtain ⟨job, hjob, rfl | ⟨-, -, rfl⟩⟩ := h.jobs job₁ hjob₁
      · simp only [requeuable, Bool.and_eq_true, decide_eq_true_eq, h.crossed] at hcond
        refine ⟨job₁, hjob, .inr ⟨?_, hcond.1 ▸ hcandidate, rfl⟩⟩
        simp only [requeuable, Bool.and_eq_true, decide_eq_true_eq]
        exact hcond.2
      · -- a row that was requeued is not running any more
        simp [requeuable, BackgroundWorkRow.running, requeuedRow, releasedRow] at hcond
    · exact h.jobs job' hjob₁

theorem requeued_foldlM {leaseOwner : Text} {nowMs : SafeInteger} {candidates todo : List Text}
    (htodo : ∀ id ∈ todo, id ∈ candidates) :
    ∀ {db₁ db₂ : Database}, Requeued leaseOwner nowMs candidates db db₁ →
      todo.foldlM (requeueOne leaseOwner nowMs) db₁ = .ok db₂ →
        Requeued leaseOwner nowMs candidates db db₂ := by
  induction todo with
  | nil =>
    intro db₁ db₂ h hloop
    cases hloop
    exact h
  | cons id rest ih =>
    intro db₁ db₂ h hloop
    rw [List.foldlM_cons] at hloop
    obtain ⟨db₃, hfirst, hrest⟩ := bind_eq_ok.mp hloop
    exact ih (fun id hid => htodo id (List.mem_cons_of_mem _ hid))
      (h.step (htodo id List.mem_cons_self) hfirst) hrest

theorem requeuePreBoundaryClaims_rewrites (leaseOwner : Text) (nowMs : SafeInteger)
    (seen db : Database) :
    Rewrites (fun job => requeuable db leaseOwner job = true ∧ ∃ found ∈ seen.jobs,
        found.jobId = job.jobId ∧ requeuable seen leaseOwner found = true)
      db (requeuePreBoundaryClaims leaseOwner nowMs seen db).1 := by
  refine withPostgresClient_rewrites fun db' a hbody => ?_
  obtain ⟨db₁, hloop, hbody⟩ := bind_eq_ok.mp hbody
  cases hbody
  have hstart : Requeued leaseOwner nowMs
      ((seen.jobs.filter (requeuable seen leaseOwner)).map (·.jobId)) db db :=
    ⟨fun job' hjob' => ⟨job', hjob', .inl rfl⟩, fun _ => rfl⟩
  have hend := requeued_foldlM (fun _ hid => hid) hstart hloop
  intro job' hjob'
  obtain ⟨job, hjob, rfl | ⟨hrequeuable, hcandidate, rfl⟩⟩ := hend.jobs job' hjob'
  · exact ⟨job', hjob, SameKeys.refl job', .inl⟩
  · refine ⟨job, hjob, ⟨rfl, rfl, rfl, rfl⟩, fun _ => .inr ⟨hrequeuable, ?_⟩⟩
    obtain ⟨found, hfound, hid⟩ := List.mem_map.mp hcandidate
    obtain ⟨hmem, hrequeuable'⟩ := List.mem_filter.mp hfound
    exact ⟨found, hmem, hid, hrequeuable'⟩

theorem recoverExpired_rewrites (nowMs : SafeInteger) (atDelete atUpdate db : Database) :
    Rewrites (fun job => ∃ claim ∈ findExpired nowMs.value atUpdate, claim.boundaryCrossed = false ∧
        claim.expiryBudgetExhausted = false ∧ job.jobId = claim.job.jobId)
      db (recoverExpired nowMs atDelete atUpdate db).1 := by
  refine withPostgresClient_rewrites fun db' count hbody => ?_
  unfold applyExpired at hbody
  obtain ⟨db₁, hsettled, hbody⟩ := bind_eq_ok.mp hbody
  cases hbody
  intro job' hjob'
  rw [settleSwept_jobs hsettled] at hjob'
  obtain ⟨job, hjob, rfl⟩ := List.mem_map.mp hjob'
  refine ⟨job, hjob, ?_⟩
  unfold sweptRow
  split
  · rename_i claim hclaim
    have hmem : claim ∈ findExpired nowMs.value atUpdate := List.mem_of_find?_eq_some hclaim
    have hid : claim.job.jobId = job.jobId := by simpa using List.find?_some hclaim
    refine ⟨⟨rfl, rfl, rfl, rfl⟩, fun hrunnable => .inr ⟨claim, hmem, ?_, ?_, hid.symm⟩⟩
    · cases hcrossed : claim.boundaryCrossed with
      | false => rfl
      | true => simp [expiredRow, releasedRow, hcrossed, BackgroundWorkState.runnable] at hrunnable
    · cases hexhausted : claim.expiryBudgetExhausted with
      | false => rfl
      | true => simp [expiredRow, releasedRow, hexhausted, BackgroundWorkState.runnable] at hrunnable
  · exact ⟨SameKeys.refl job, .inl⟩

theorem purgeTerminal_rewrites (completedBeforeMs : SafeInteger) (limit : Nat) (db : Database) :
    Rewrites mayReturn db (purgeTerminal completedBeforeMs limit db).1 := by
  unfold purgeTerminal
  split
  · exact Rewrites.of_jobs fun _ hmem => hmem
  · split
    · exact Rewrites.of_jobs fun _ hmem => hmem
    · exact autocommit_rewrites (Rewrites.of_jobs fun job hjob => (Table.mem_delete.mp hjob).1)

/-! ## Handoffs -/

variable {input : EnqueueBackgroundWorkInput}

theorem olderThan_eq_true (h : Newer (insertedRow input) job) :
    olderThan job input.createdAtMs input.jobId = true := by
  rw [newer_iff] at h
  simp only [olderThan, Bool.or_eq_true, Bool.and_eq_true, decide_eq_true_eq]
  rcases h with h | ⟨htime, hid⟩
  · exact .inl h
  · refine .inr ⟨?_, hid⟩
    cases hinput : input.createdAtMs
    cases hjob : job.createdAtMs
    rw [hjob] at htime
    simp only [insertedRow, hinput] at htime
    simp [htime]

/-- A row that is stale from the start changes nothing for the others: whatever is newer than it
decides already. -/
theorem newest_insertStale (h : Newest db) (hnew : ∀ job ∈ db.jobs, job.jobId ≠ input.jobId)
    (hstale : Outdated db (insertedRow input)) :
    Newest { db with
      jobs := Table.update (fun job => job.jobId = input.jobId) (superseded input.createdAtMs)
        (db.jobs ++ [insertedRow input]) } := by
  -- the rows are those of before and the stale one
  have hrows : ∀ row ∈ Table.update (fun job => job.jobId = input.jobId)
      (superseded input.createdAtMs) (db.jobs ++ [insertedRow input]),
      row ∈ db.jobs ∨ row = superseded input.createdAtMs (insertedRow input) := by
    intro row hrow
    obtain ⟨job, hjob, hset⟩ := Table.mem_update.mp hrow
    rcases List.mem_append.mp hjob with hold | hinserted
    · obtain ⟨hid, -⟩ | ⟨-, rfl⟩ := hset
      · exact absurd (of_decide_eq_true hid) (hnew job hold)
      · exact .inl hold
    · obtain rfl := List.mem_singleton.mp hinserted
      obtain ⟨-, rfl⟩ | ⟨hid, -⟩ := hset
      · exact .inr rfl
      · exact absurd rfl (of_decide_eq_false hid)
  intro job hjob hkind hrunnable
  rintro ⟨other, hother, hsession, hother_kind, hnewer⟩
  rcases hrows job hjob with hjob | rfl
  · rcases hrows other hother with hother | rfl
    · exact h job hjob hkind hrunnable ⟨other, hother, hsession, hother_kind, hnewer⟩
    · obtain ⟨newest, hnewest, hsession', hkind', hnewer'⟩ := hstale
      have hbefore : Newer newest job := hnewer'.trans hnewer
      exact h job hjob hkind hrunnable
        ⟨newest, hnewest, hsession'.trans hsession, hkind', hbefore⟩
  · exact absurd hrunnable (by simp [superseded, BackgroundWorkState.runnable])

/-- The newest of all makes the other runnable ones stale. -/
theorem newest_insertNewest (h : Newest db) (hnew : ∀ job ∈ db.jobs, job.jobId ≠ input.jobId)
    (hnewest : ¬ Outdated db (insertedRow input)) :
    Newest { db with
      jobs := Table.update (supersedes input) (superseded input.createdAtMs)
        (db.jobs ++ [insertedRow input]) } := by
  have hself : supersedes input (insertedRow input) = false := by
    simp [supersedes, insertedRow]
  -- every row has the keys of one before, or is the inserted one
  have hrows : ∀ row ∈ Table.update (supersedes input) (superseded input.createdAtMs)
      (db.jobs ++ [insertedRow input]),
      (∃ job ∈ db.jobs, SameKeys job row ∧ (row.state.runnable = true →
        row = job ∧ supersedes input job = false)) ∨ row = insertedRow input := by
    intro row hrow
    obtain ⟨job, hjob, hset⟩ := Table.mem_update.mp hrow
    rcases List.mem_append.mp hjob with hold | hinserted
    · refine .inl ⟨job, hold, ?_⟩
      obtain ⟨-, rfl⟩ | ⟨hkept, rfl⟩ := hset
      · exact ⟨⟨rfl, rfl, rfl, rfl⟩, fun hrunnable => absurd hrunnable (by simp [superseded,
          BackgroundWorkState.runnable])⟩
      · exact ⟨SameKeys.refl row, fun _ => ⟨rfl, hkept⟩⟩
    · obtain rfl := List.mem_singleton.mp hinserted
      obtain ⟨hsupersedes, -⟩ | ⟨-, rfl⟩ := hset
      · exact absurd (hself.symm.trans hsupersedes) (by decide)
      · exact .inr rfl
  intro job hjob hjob_kind hrunnable
  rintro ⟨other, hother, hsession, hother_kind, hnewer⟩
  rcases hrows job hjob with ⟨before, hbefore, -, hkept⟩ | rfl
  · obtain ⟨rfl, hnot⟩ := hkept hrunnable
    rcases hrows other hother with ⟨before', hbefore', hkeys, -⟩ | rfl
    · exact h job hbefore hjob_kind hrunnable
        ⟨before', hbefore', hkeys.logicalSessionId.symm.trans hsession,
          hkeys.kind.symm.trans hother_kind, hkeys.newer (SameKeys.refl job) hnewer⟩
    · -- an older runnable compaction of the session was made stale
      have hsupersedes : supersedes input job = true := by
        have hsession' : job.logicalSessionId = input.logicalSessionId := hsession.symm
        simp [supersedes, hsession', hjob_kind, hnew job hbefore, hrunnable,
          olderThan_eq_true hnewer]
      exact absurd (hnot.symm.trans hsupersedes) (by decide)
  · rcases hrows other hother with ⟨before', hbefore', hkeys, -⟩ | rfl
    · exact hnewest ⟨before', hbefore', hkeys.logicalSessionId.symm.trans hsession,
        hkeys.kind.symm.trans hother_kind, hkeys.newer (SameKeys.refl _) hnewer⟩
    · exact not_newer_self _ hnewer

/-- Jobs of the other kinds do not matter. -/
theorem newest_insertOther (h : Newest db) (hkind : input.kind ≠ .autoCompaction) :
    Newest { db with jobs := db.jobs ++ [insertedRow input] } := by
  intro job hjob hjob_kind hrunnable
  rintro ⟨other, hother, hsession, hother_kind, hnewer⟩
  rcases List.mem_append.mp hjob with hjob | hjob
  · rcases List.mem_append.mp hother with hother | hother
    · exact h job hjob hjob_kind hrunnable ⟨other, hother, hsession, hother_kind, hnewer⟩
    · rw [List.mem_singleton.mp hother] at hother_kind
      exact hkind hother_kind
  · rw [List.mem_singleton.mp hjob] at hjob_kind
    exact hkind hjob_kind

theorem enqueueValidated_newest {result : EnqueueResult} (h : Newest db)
    (henqueue : enqueueValidated db input = .ok (db', result)) : Newest db' := by
  unfold enqueueValidated at henqueue
  split at henqueue
  · obtain ⟨incumbent, -, henqueue⟩ := bind_eq_ok.mp henqueue
    obtain ⟨_, -, henqueue⟩ := bind_eq_ok.mp henqueue
    cases henqueue
    exact h
  · obtain ⟨_, hthrow, henqueue⟩ := bind_eq_ok.mp henqueue
    have hnew : ∀ job ∈ db.jobs, job.jobId ≠ input.jobId := by
      simpa using throwIf_eq_ok.mp hthrow
    dsimp only at henqueue
    split at henqueue
    · -- the query for a newer one finds exactly what makes the inserted row outdated
      have hquery : ((db.jobs ++ [insertedRow input]).any fun job =>
          job.logicalSessionId = input.logicalSessionId && job.kind = .autoCompaction
            && job.jobId ≠ input.jobId && newerThan job input.createdAtMs input.jobId) = true ↔
          Outdated db (insertedRow input) := by
        rw [List.any_eq_true]
        constructor
        · rintro ⟨job, hjob, hfound⟩
          simp only [Bool.and_eq_true, decide_eq_true_eq] at hfound
          rcases List.mem_append.mp hjob with hjob | hjob
          · exact ⟨job, hjob, hfound.1.1.1, hfound.1.1.2, hfound.2⟩
          · rw [List.mem_singleton.mp hjob] at hfound
            exact absurd rfl hfound.1.2
        · rintro ⟨job, hjob, hsession, hkind', hnewer⟩
          have hsession' : job.logicalSessionId = input.logicalSessionId := hsession
          have hnewer' : newerThan job input.createdAtMs input.jobId = true := hnewer
          refine ⟨job, List.mem_append_left _ hjob, ?_⟩
          simp [hsession', hkind', hnew job hjob, hnewer']
      split at henqueue
      · rename_i hfound
        obtain ⟨_, -, henqueue⟩ := bind_eq_ok.mp henqueue
        cases henqueue
        exact newest_insertStale h hnew (hquery.mp hfound)
      · rename_i hfound
        obtain ⟨_, -, henqueue⟩ := bind_eq_ok.mp henqueue
        cases henqueue
        exact newest_insertNewest h hnew (mt hquery.mpr hfound)
    · rename_i hkind
      obtain ⟨_, -, henqueue⟩ := bind_eq_ok.mp henqueue
      cases henqueue
      exact newest_insertOther h hkind

theorem enqueueAll_newest {inputs : List EnqueueBackgroundWorkInput} :
    ∀ {db db' : Database} {results : List EnqueueResult}, Newest db →
      enqueueAll db inputs = .ok (db', results) → Newest db' := by
  induction inputs with
  | nil =>
    intro db db' results h henqueue
    cases henqueue
    exact h
  | cons input inputs ih =>
    intro db db' results h henqueue
    obtain ⟨⟨db₁, result⟩, hfirst, henqueue⟩ := bind_eq_ok.mp henqueue
    obtain ⟨⟨db₂, rest⟩, hrest, henqueue⟩ := bind_eq_ok.mp henqueue
    cases henqueue
    exact ih (enqueueValidated_newest h hfirst) hrest

theorem enqueueBatchWithReceipt_newest (rt : HandoffRuntime)
    (inputs : List EnqueueBackgroundWorkInput) (original : Option String) (h : Newest db) :
    Newest (enqueueBatchWithReceipt rt inputs original db).1 := by
  rcases enqueueBatchWithReceipt_cases rt inputs original db with hsame | ⟨first, rest, -, hrun⟩
  · rw [hsame]
    exact h
  · rw [hrun]
    rcases withPostgresClient_cases (acceptHandoff rt first (first :: rest) original) db with
      hsame | ⟨db', results, hbody, -, hresult⟩
    · rw [hsame]
      exact h
    · rw [hresult]
      unfold acceptHandoff at hbody
      split at hbody
      · -- the replay of an accepted handoff reads only
        obtain ⟨_, -, hbody⟩ := bind_eq_ok.mp hbody
        obtain ⟨_, -, hbody⟩ := bind_eq_ok.mp hbody
        cases hbody
        exact h
      · have hhandoffs : ∀ handoffs, Newest { db with handoffs := handoffs } := fun _ => h
        exact enqueueAll_newest (hhandoffs _) hbody

/-! ## Runs -/

theorem perform_newest (rt : HandoffRuntime) {action : Action} {w : World}
    (hdb : w.db.constraints = true) (h : Newest w.db) (hreturns : action.ReturnsNewest w) :
    Newest (perform rt action w).db := by
  cases action with
  | enqueueBatch inputs => exact enqueueBatchWithReceipt_newest rt inputs none h
  | recoverBatch jobs original =>
    show Newest (recoverBatch rt jobs original w.db).1
    rcases recoverBatch_fst rt jobs original w.db with hsame | hrun
    · rw [hsame]
      exact h
    · rw [hrun]
      exact enqueueBatchWithReceipt_newest rt jobs original h
  | claimNext input busy age =>
    have hrewrites : Rewrites (fun _ => False) w.db (claimNext input busy (w.seen age) w.db).1 :=
      withPostgresClient_rewrites fun _ _ hbody => claimLoop_rewrites hbody
    exact hrewrites.newest h fun _ _ hmay => hmay.elim
  | renewClaims leaseOwner jobIds nowMs leaseDurationMs =>
    have hrewrites : Rewrites (fun _ => False) w.db _ :=
      renewClaims_rewrites leaseOwner jobIds nowMs leaseDurationMs w.db
    exact hrewrites.newest h fun _ _ hmay => hmay.elim
  | settle token settlement =>
    refine (settleClaim_rewrites token settlement hdb).newest h fun job hjob hmay hkind => ?_
    cases settlement with
    | complete nowMs => exact hmay.elim
    | defer reason availableAtMs nowMs => exact hreturns job hjob hmay hkind
    | failOrRetry nowMs retryAtMs retryHandlerFailed terminalHandlerFailed =>
      exact hreturns job hjob hmay.1 hkind hmay.2.1 hmay.2.2
    | markClaim mark nowMs => exact hmay.elim
  | requeuePreBoundaryClaims leaseOwner nowMs age =>
    refine (requeuePreBoundaryClaims_rewrites leaseOwner nowMs (w.seen age) w.db).newest h
      fun job hjob hmay hkind => hreturns job hjob hmay.1 hkind hmay.2
  | recoverExpired nowMs deleteAge updateAge =>
    refine (recoverExpired_rewrites nowMs (w.seen deleteAge) (w.seen updateAge) w.db).newest h
      fun job hjob hmay hkind => ?_
    obtain ⟨claim, hclaim, hcrossed, hbudget, hid⟩ := hmay
    exact hreturns claim hclaim hcrossed hbudget job hjob hid hkind
  | purgeTerminal completedBeforeMs limit =>
    have hrewrites : Rewrites (fun _ => False) w.db _ :=
      purgeTerminal_rewrites completedBeforeMs limit w.db
    exact hrewrites.newest h fun _ _ hmay => hmay.elim
  | elsewhere receipts foregroundLeases outputStatus =>
    have hrewrites : Rewrites (fun _ => False) w.db
        (changeElsewhere receipts foregroundLeases outputStatus w.db) :=
      autocommit_rewrites (Rewrites.of_jobs fun _ hmem => hmem)
    exact hrewrites.newest h fun _ _ hmay => hmay.elim

/-- **Newest compaction wins** in every run that gives no outdated compaction back. -/
theorem newest_compaction_wins (rt : HandoffRuntime) {w : World}
    (h : (newestReturns rt).Reachable w) : NewestCompactionWins w.db := by
  have hinv : w.db.constraints = true ∧ Newest w.db := by
    refine System.invariant (I := fun w => w.db.constraints = true ∧ Newest w.db) ⟨rfl, ?_⟩ ?_ h
    · intro job hjob
      cases hjob
    · rintro w₁ w₂ ⟨hdb, hnewest⟩ ⟨action, hreturns, rfl⟩
      exact ⟨perform_constraints rt action hdb, perform_newest rt hdb hnewest hreturns⟩
  exact hinv.2.wins hinv.1

/-! ## An older compaction that comes back -/

def laterText : Text := ⟨"turn-2", by decide +kernel, by decide, by decide +kernel⟩

def olderCompaction : EnqueueBackgroundWorkInput := { sampleInput with kind := .autoCompaction }

/-- The compaction of the session's next turn. -/
def newerCompaction : EnqueueBackgroundWorkInput :=
  { olderCompaction with
    jobId := laterText, idempotencyKey := laterText, sourceTurnId := laterText
    createdAtMs := ⟨1, by decide⟩ }

def deferOlder : Action :=
  .settle ⟨sampleText, sampleText, 2⟩ (.defer .foregroundActive ⟨100, sampleDelay_safe⟩ .zero)

/-- The older compaction is deferred before the newer one is accepted. -/
def deferredFirst : World :=
  [.enqueueBatch [olderCompaction], .claimNext sampleClaim [] 0, deferOlder,
    .enqueueBatch [newerCompaction]].foldl (fun w action => perform plainRuntime action w) {}

theorem newest_compaction_wins_deferredFirst :
    (newestReturns plainRuntime).Reachable deferredFirst ∧
      deferredFirst.db.jobs.map (fun job => (job.jobId, job.state)) =
        [(sampleText, .staleDiscarded), (laterText, .queued)] ∧
      NewestCompactionWins deferredFirst.db := by
  have hinit : (newestReturns plainRuntime).Reachable {} := Relation.ReflTransGen.refl
  have hclaimed := (hinit.next ⟨.enqueueBatch [olderCompaction], trivial, rfl⟩).next
    ⟨.claimNext sampleClaim [] 0, trivial, rfl⟩
  -- there is one compaction only when it is given back
  have hnone : ∀ job ∈ (perform plainRuntime (.claimNext sampleClaim [] 0)
      (perform plainRuntime (.enqueueBatch [olderCompaction]) {})).db.jobs,
      ∀ other ∈ (perform plainRuntime (.claimNext sampleClaim [] 0)
        (perform plainRuntime (.enqueueBatch [olderCompaction]) {})).db.jobs,
        newerThan other job.createdAtMs job.jobId = false := by
    decide +kernel
  have hdeferred := hclaimed.next ⟨deferOlder, ?_, rfl⟩
  · have hreach : (newestReturns plainRuntime).Reachable deferredFirst :=
      hdeferred.next ⟨.enqueueBatch [newerCompaction], trivial, rfl⟩
    exact ⟨hreach, by decide +kernel, newest_compaction_wins plainRuntime hreach⟩
  · rintro job hjob - - ⟨other, hother, -, -, hnewer⟩
    exact absurd ((hnone job hjob other hother).symm.trans hnewer) (by decide)

/-- The newer one is accepted while the older one runs; then the older one is deferred. -/
def deferredLast : World :=
  [.enqueueBatch [olderCompaction], .claimNext sampleClaim [] 0,
    .enqueueBatch [newerCompaction], deferOlder].foldl
      (fun w action => perform plainRuntime action w) {}

theorem deferral_revives_older : ¬ ∀ (rt : HandoffRuntime) (w : World),
    (backgroundStore rt).Reachable w → NewestCompactionWins w.db := by
  intro hall
  have hreach : (backgroundStore plainRuntime).Reachable deferredLast :=
    reachable_foldl Relation.ReflTransGen.refl
  have hwins := hall plainRuntime deferredLast hreach
  -- both are there, and both are runnable
  have htwo : deferredLast.db.jobs.map (fun job => (job.jobId, job.state, job.kind,
      job.logicalSessionId)) = [(sampleText, .deferred, .autoCompaction, sampleText),
        (laterText, .queued, .autoCompaction, sampleText)] := by
    decide +kernel
  generalize deferredLast.db = db at hwins htwo
  obtain ⟨older, rest, hjobs, holder, hrest⟩ := List.map_eq_cons_iff.mp htwo
  obtain ⟨newer, tail, rfl, hnewer, -⟩ := List.map_eq_cons_iff.mp hrest
  simp only [Prod.mk.injEq] at holder hnewer
  obtain ⟨hid, hstate, hkind, hsession⟩ := holder
  obtain ⟨hid', hstate', hkind', hsession'⟩ := hnewer
  have hsame := hwins.oneRunnable older (by simp [hjobs]) newer (by simp [hjobs]) hkind hkind'
    (hsession.trans hsession'.symm) (by rw [hstate]; rfl) (by rw [hstate']; rfl)
  rw [hsame, hid'] at hid
  exact absurd hid (by decide)

end Psfn.Background
