import Psfn.Background.Transitions
import Psfn.Lib.Transition

/-!
# Background work — the store over whole runs

Any number of processes send transactions to one database. A run is the list of the
databases that were committed; an action is one transaction, which may hold on to what it
read from an older one.

A sweep for expired claims changes its rows by id alone. When a claim that it has found is
settled for good before the sweep reaches the row, the sweep settles it a second time, and
a succeeded job is retried (`sweep_revives_succeeded`); when another sweep has counted the
expiry, the budget it read is too large. `Action.Meets` leaves these transactions out, and
a renewal that ends past the safe integers.

* `perform_advances` — what a transaction makes of the rows;
* `StoreSound` — the invariant; `storeSound_of_reachable`;
* `jobStore_sound` — what holds in every state and along every run.
-/

namespace Psfn.Background

open Psfn.Lib

variable {allowed : Update → Prop}

/-! ## Rows that are sound -/

/-- What the `CHECK`s do not say. An open job has an attempt and a lease left to lose. -/
structure BackgroundWorkRow.Sound (job : BackgroundWorkRow) : Prop where
  lease    : ∀ expires, job.leaseExpiresAtMs = some expires → expires ≤ maxSafeInteger
  expiries : job.leaseExpiryCount ≤ leaseExpiryLimit
  budget   : job.state.terminal = false → job.leaseExpiryCount < leaseExpiryLimit
  attempts : job.state.terminal = false → job.attemptCount < job.maxAttempts

theorem insertedRow_sound {input : EnqueueBackgroundWorkInput} (h : 0 < input.maxAttempts) :
    (insertedRow input).Sound where
  lease := fun expires hlease => by cases hlease
  expiries := Nat.zero_le _
  budget := fun _ => Nat.succ_pos 2
  attempts := fun _ => h

variable {job : BackgroundWorkRow}

/-- A released row has no lease; its counters are what the update says. -/
theorem sound_of_released (hlease : job.leaseExpiresAtMs = none)
    (hexpiries : job.leaseExpiryCount ≤ leaseExpiryLimit)
    (hbudget : job.state.terminal = false → job.leaseExpiryCount < leaseExpiryLimit)
    (hattempts : job.state.terminal = false → job.attemptCount < job.maxAttempts) :
    job.Sound := by
  refine ⟨fun expires hsome => ?_, hexpiries, hbudget, hattempts⟩
  rw [hlease] at hsome
  cases hsome

theorem terminal_running (h : job.state = .running) :
    job.state.terminal = false := by rw [h]; rfl

variable {job' : BackgroundWorkRow}

theorem RowStep.sound {update : Update} (h : RowStep update job job') (hbounded : update ≠ .overrun)
    (hjob : job.Sound) :
    job'.Sound := by
  cases h with
  | overran nowMs leaseDurationMs hrunning => exact absurd rfl hbounded
  | claimed input viaWelfare hrunnable hlease =>
    have hopen := terminal_of_runnable hrunnable
    refine ⟨fun expires hsome => ?_, hjob.expiries, fun _ => hjob.budget hopen,
      fun _ => hjob.attempts hopen⟩
    cases hsome
    exact hlease
  | renewed nowMs leaseDurationMs hrunning hlease =>
    refine ⟨fun expires hsome => ?_, hjob.expiries, hjob.budget, hjob.attempts⟩
    cases hsome
    exact hlease
  | settled state reasonCode atMs hrunning hterminal =>
    refine sound_of_released rfl hjob.expiries (fun hopen => ?_) (fun hopen => ?_)
    · exact absurd (hterminal.symm.trans hopen) (by decide)
    · exact absurd (hterminal.symm.trans hopen) (by decide)
  | deferred reason availableAtMs nowMs hrunning =>
    have hopen := terminal_running hrunning
    exact sound_of_released rfl hjob.expiries (fun _ => hjob.budget hopen)
      (fun _ => hjob.attempts hopen)
  | retried terminal reasonCode nowMs retryAtMs hrunning hattempts =>
    have hopen := terminal_running hrunning
    refine sound_of_released rfl hjob.expiries (fun _ => hjob.budget hopen) (fun hretry => ?_)
    -- the row is open only when the flag is not set, and then an attempt is left
    cases terminal with
    | false => exact hattempts rfl
    | true => cases hretry
  | requeued nowMs hrunning =>
    have hopen := terminal_running hrunning
    exact sound_of_released rfl hjob.expiries (fun _ => hjob.budget hopen)
      (fun _ => hjob.attempts hopen)
  | expired nowMs claim hopen hbudget =>
    have hleft : job.leaseExpiryCount < leaseExpiryLimit := hjob.budget hopen
    cases hcrossed : claim.boundaryCrossed with
    | true =>
      -- a crossed boundary fails the job whatever is left
      refine sound_of_released rfl hleft (fun hretry => ?_) (fun hretry => ?_)
      · simp [expiredRow, releasedRow, hcrossed, BackgroundWorkState.terminal] at hretry
      · simp [expiredRow, releasedRow, hcrossed, BackgroundWorkState.terminal] at hretry
    | false =>
      cases hexhausted : claim.expiryBudgetExhausted with
      | true =>
        refine sound_of_released rfl hleft (fun hretry => ?_) (fun hretry => ?_)
        · simp [expiredRow, releasedRow, hexhausted, BackgroundWorkState.terminal] at hretry
        · simp [expiredRow, releasedRow, hexhausted, BackgroundWorkState.terminal] at hretry
      | false =>
        refine sound_of_released rfl hleft (fun _ => hbudget hexhausted) (fun _ => ?_)
        simpa [expiredRow, releasedRow, hcrossed] using hjob.attempts hopen
  | superseded atMs hrunnable =>
    refine ⟨hjob.lease, hjob.expiries, fun hopen => ?_, fun hopen => ?_⟩
    · cases hopen
    · cases hopen

theorem RowSteps.sound (h : RowSteps (· ≠ .overrun) job job') (hjob : job.Sound) : job'.Sound := by
  induction h with
  | refl => exact hjob
  | tail _ hstep ih =>
    obtain ⟨update, hbounded, hstep⟩ := hstep
    exact hstep.sound hbounded ih

/-! ## Reading the constraints -/

variable {db : Database}

theorem checks_of_constraints (h : db.constraints = true) (hjob : job ∈ db.jobs) :
    job.checks = true := by
  simp only [Database.constraints, Bool.and_eq_true, List.all_eq_true] at h
  exact h.1.1.1.1.1.1 job hjob

/-- The columns of a stored row. -/
structure Checked (job : BackgroundWorkRow) : Prop where
  schemaVersion : job.payloadSchemaVersion = 1
  attempts      : job.attemptCount ≤ job.maxAttempts
  maxPositive   : 0 < job.maxAttempts
  maxSmall      : job.maxAttempts ≤ maxInt4
  revPositive   : 0 < job.revision
  revSmall      : job.revision ≤ maxInt4
  deferSmall    : job.deferCount ≤ maxInt4
  expirySmall   : job.leaseExpiryCount ≤ maxInt4
  leaseOwner    : job.leaseOwner.isSome = job.running
  leaseExpires  : job.leaseExpiresAtMs.isSome = job.running

theorem checked_of_checks (h : job.checks = true) : Checked job := by
  simp only [BackgroundWorkRow.checks, Bool.and_eq_true, beq_iff_eq, decide_eq_true_eq] at h
  obtain ⟨⟨⟨⟨⟨⟨⟨⟨⟨⟨⟨hschema, hattempts⟩, hmax⟩, hmaxSmall⟩, hrev⟩, hrevSmall⟩, hdefer⟩,
    hexpiry⟩, -⟩, hlease⟩, -⟩, -⟩ := h
  have hboth : job.leaseOwner.isSome = job.running ∧ job.leaseExpiresAtMs.isSome = job.running := by
    unfold BackgroundWorkRow.running
    by_cases hrunning : job.state = .running
    · simp only [hrunning, if_true, Bool.and_eq_true] at hlease
      simpa [hrunning] using hlease
    · simp only [hrunning, if_false, Bool.and_eq_true] at hlease
      simpa [hrunning] using hlease
  exact ⟨hschema, hattempts, hmax, hmaxSmall, hrev, hrevSmall, hdefer, hexpiry, hboth.1, hboth.2⟩

theorem running_unique (h : db.constraints = true) (hjob : job ∈ db.jobs) (hjob' : job' ∈ db.jobs)
    (hrunning : job.running = true) (hrunning' : job'.running = true)
    (hsession : job.logicalSessionId = job'.logicalSessionId) :
    job = job' := by
  simp only [Database.constraints, Bool.and_eq_true, decide_eq_true_eq] at h
  have hkeyed : Table.Keyed (·.logicalSessionId) (db.jobs.filter (·.running)) := h.1.1.1.2
  exact hkeyed.unique (List.mem_filter.mpr ⟨hjob, hrunning⟩)
    (List.mem_filter.mpr ⟨hjob', hrunning'⟩) hsession

theorem discard_safeInteger {n : Nat} {field : String} (h : n ≤ maxSafeInteger) :
    discard (safeInteger n field) = .ok () :=
  discard_eq_ok.mpr ⟨n, safeInteger_eq_ok.mpr ⟨h, rfl⟩⟩

theorem discard_positiveInteger {n : Nat} {field : String} (hpos : 0 < n)
    (h : n ≤ maxSafeInteger) : discard (positiveInteger n field) = .ok () := by
  refine discard_eq_ok.mpr ⟨n, ?_⟩
  rw [positiveInteger, safeInteger_eq_ok.mpr ⟨h, rfl⟩]
  have hone : throwIf (decide (n < 1)) s!"Background work {field} must be positive" = .ok () :=
    throwIf_eq_ok.mpr (by simpa using Nat.not_lt.mpr hpos)
  exact bind_eq_ok.mpr ⟨n, rfl, bind_eq_ok.mpr ⟨(), hone, rfl⟩⟩

/-- `mapRow` gives a sound stored row back. -/
theorem mapRow_eq_ok (hchecked : Checked job) (hsound : job.Sound) :
    mapRow job = .ok job := by
  have hint : maxInt4 ≤ maxSafeInteger := by decide
  have hlease : nullableSafeInteger job.leaseExpiresAtMs "leaseExpiresAtMs" = .ok () := by
    cases hexpires : job.leaseExpiresAtMs with
    | none => rfl
    | some expires => exact discard_safeInteger (hsound.lease expires hexpires)
  have hattempts := Nat.le_trans hchecked.attempts hchecked.maxSmall
  have hmissing : (job.running && (job.leaseOwner.isNone || job.leaseExpiresAtMs.isNone)) = false := by
    rw [← Option.not_isSome, ← Option.not_isSome, hchecked.leaseOwner, hchecked.leaseExpires]
    cases job.running <;> rfl
  have hcarries :
      (!job.running && (job.leaseOwner.isSome || job.leaseExpiresAtMs.isSome)) = false := by
    rw [hchecked.leaseOwner, hchecked.leaseExpires]
    cases job.running <;> rfl
  unfold mapRow
  rw [hlease, hmissing, hcarries, discard_safeInteger (Nat.le_trans hattempts hint),
    discard_positiveInteger hchecked.maxPositive (Nat.le_trans hchecked.maxSmall hint),
    discard_positiveInteger hchecked.revPositive (Nat.le_trans hchecked.revSmall hint),
    discard_safeInteger (Nat.le_trans hchecked.deferSmall hint),
    discard_safeInteger (Nat.le_trans hchecked.expirySmall hint), hchecked.schemaVersion,
    discard_positiveInteger (by decide) (by decide)]
  rfl

/-! ## Runs -/

/-- The database and the ones it was before, newest first. -/
structure World where
  db   : Database := {}
  past : List Database := []

/-- What a statement sent `age` commits ago has read. -/
def World.seen (w : World) (age : Nat) : Database := (w.db :: w.past).getD age {}

def World.commit (w : World) (db : Database) : World := ⟨db, w.db :: w.past⟩

/-- The operations that settle a claim for the process that holds it. -/
inductive Settlement where
  | complete (nowMs : SafeInteger)
  | defer (reason : DeferReason) (availableAtMs nowMs : SafeInteger)
  | failOrRetry (nowMs retryAtMs : SafeInteger) (retryHandlerFailed terminalHandlerFailed : Bool)
  | markClaim (mark : TerminalMark) (nowMs : SafeInteger)

def settleClaim (token : ClaimToken) : Settlement → Database → Database
  | .complete nowMs, db => (complete token nowMs db).1
  | .defer reason availableAtMs nowMs, db => (defer token reason availableAtMs nowMs db).1
  | .failOrRetry nowMs retryAtMs retryHandlerFailed terminalHandlerFailed, db =>
    (failOrRetry token nowMs retryAtMs retryHandlerFailed terminalHandlerFailed db).1
  | .markClaim mark nowMs, db => (markClaim token mark nowMs db).1

/-- The update each settlement makes. -/
def Settlement.update : Settlement → Update
  | .complete _ => .settlement
  | .defer _ _ _ => .deferral
  | .failOrRetry _ _ _ _ => .retry
  | .markClaim _ _ => .settlement

/-- One transaction of some process. `elsewhere` is any change of the other tables: effect
receipts, foreground leases, output markers. -/
inductive Action where
  | enqueueBatch (inputs : List EnqueueBackgroundWorkInput)
  | recoverBatch (jobs : List EnqueueBackgroundWorkInput) (original : Option String)
  | claimNext (input : ClaimInput) (busy : List Text) (age : Nat)
  | renewClaims (leaseOwner : Text) (jobIds : List Text) (nowMs leaseDurationMs : SafeInteger)
  | settle (token : ClaimToken) (settlement : Settlement)
  | requeuePreBoundaryClaims (leaseOwner : Text) (nowMs : SafeInteger) (age : Nat)
  | recoverExpired (nowMs : SafeInteger) (deleteAge updateAge : Nat)
  | purgeTerminal (completedBeforeMs : SafeInteger) (limit : Nat)
  | elsewhere (receipts : List EffectReceiptRow) (foregroundLeases : List ForegroundLeaseRow)
      (outputStatus : List OutputStatusRow)

def changeElsewhere (receipts : List EffectReceiptRow) (foregroundLeases : List ForegroundLeaseRow)
    (outputStatus : List OutputStatusRow) (db : Database) : Database :=
  (autocommit (fun db => ({ db with receipts, foregroundLeases, outputStatus }, ())) .ok db).1

def perform (rt : HandoffRuntime) : Action → World → World
  | .enqueueBatch inputs, w => w.commit (enqueueBatch rt inputs w.db).1
  | .recoverBatch jobs original, w => w.commit (recoverBatch rt jobs original w.db).1
  | .claimNext input busy age, w => w.commit (claimNext input busy (w.seen age) w.db).1
  | .renewClaims leaseOwner jobIds nowMs leaseDurationMs, w =>
    w.commit (renewClaims leaseOwner jobIds nowMs leaseDurationMs w.db).1
  | .settle token settlement, w => w.commit (settleClaim token settlement w.db)
  | .requeuePreBoundaryClaims leaseOwner nowMs age, w =>
    w.commit (requeuePreBoundaryClaims leaseOwner nowMs (w.seen age) w.db).1
  | .recoverExpired nowMs deleteAge updateAge, w =>
    w.commit (recoverExpired nowMs (w.seen deleteAge) (w.seen updateAge) w.db).1
  | .purgeTerminal completedBeforeMs limit, w =>
    w.commit (purgeTerminal completedBeforeMs limit w.db).1
  | .elsewhere receipts foregroundLeases outputStatus, w =>
    w.commit (changeElsewhere receipts foregroundLeases outputStatus w.db)

/-- The updates an action may make. -/
def Action.updates : Action → Update → Prop
  | .enqueueBatch _, update => update = .supersession
  | .recoverBatch _ _, update => update = .supersession
  | .claimNext _ _ _, update => update = .claim
  | .renewClaims _ _ nowMs leaseDurationMs, update => update = renewalUpdate nowMs leaseDurationMs
  | .settle _ settlement, update => update = settlement.update
  | .requeuePreBoundaryClaims _ _ _, update => update = .requeue
  | .recoverExpired _ _ _, update => update = .expiry
  | .purgeTerminal _ _, _ => False
  | .elsewhere _ _ _, _ => False

/-- A sweep's findings hold of the rows it changes; a renewed lease ends at a safe integer. -/
def Action.Meets : Action → World → Prop
  | .renewClaims _ _ nowMs leaseDurationMs, _ =>
    nowMs.value + leaseDurationMs.value ≤ maxSafeInteger
  | .recoverExpired nowMs _ updateAge, w =>
    Undisturbed (findExpired nowMs.value (w.seen updateAge)) w.db
  | _, _ => True

/-- The store under every interleaving of transactions. -/
def backgroundStore (rt : HandoffRuntime) : System World where
  init := {}
  step := fun w w' => ∃ action : Action, w' = perform rt action w

/-- The runs whose transactions all meet the condition. -/
def undisturbedStore (rt : HandoffRuntime) : System World where
  init := {}
  step := fun w w' => ∃ action : Action, action.Meets w ∧ w' = perform rt action w

/-! ## One transaction -/

variable {token : ClaimToken}

theorem settleClaim_extends (settlement : Settlement) (hallowed : allowed settlement.update)
    (hdb : db.constraints = true) :
    Extends allowed db (settleClaim token settlement db) := by
  cases settlement with
  | complete nowMs =>
    refine autocommit_extends (transitionClaim_extends hallowed db fun job hrunning => ?_)
    exact RowStep.settled _ _ nowMs hrunning rfl
  | defer reason availableAtMs nowMs =>
    refine autocommit_extends (transitionClaim_extends hallowed db fun job hrunning => ?_)
    exact RowStep.deferred reason availableAtMs nowMs hrunning
  | failOrRetry nowMs retryAtMs retryHandlerFailed terminalHandlerFailed =>
    exact failOrRetry_extends hallowed hdb
  | markClaim mark nowMs =>
    exact markClaimTerminal_extends hallowed db (terminalMark_terminal mark)

theorem settleClaim_constraints (settlement : Settlement) (hdb : db.constraints = true) :
    (settleClaim token settlement db).constraints = true := by
  cases settlement with
  | complete nowMs => exact autocommit_constraints _ _ hdb
  | defer reason availableAtMs nowMs => exact autocommit_constraints _ _ hdb
  | failOrRetry nowMs retryAtMs retryHandlerFailed terminalHandlerFailed =>
    exact withPostgresClient_constraints _ hdb
  | markClaim mark nowMs => exact withPostgresClient_constraints _ hdb

variable {rt : HandoffRuntime} {w : World}

theorem perform_advances {action : Action} (hdb : w.db.constraints = true) (hmeets : action.Meets w)
    (hallowed : ∀ update, action.updates update → allowed update) :
    Advances allowed w.db (perform rt action w).db := by
  cases action with
  | enqueueBatch inputs =>
    exact (enqueueBatchWithReceipt_extends (hallowed _ rfl) rt inputs none w.db).toAdvances
  | recoverBatch jobs original =>
    show Advances allowed w.db (recoverBatch rt jobs original w.db).1
    rcases recoverBatch_fst rt jobs original w.db with hsame | hrun
    · rw [hsame]
      exact (Extends.refl w.db).toAdvances
    · rw [hrun]
      exact (enqueueBatchWithReceipt_extends (hallowed _ rfl) rt jobs original w.db).toAdvances
  | claimNext input busy age => exact (claimNext_extends (hallowed _ rfl) w.db).toAdvances
  | renewClaims leaseOwner jobIds nowMs leaseDurationMs =>
    exact (renewClaims_extends (hallowed _ rfl) w.db).toAdvances
  | settle token settlement =>
    exact (settleClaim_extends settlement (hallowed _ rfl) hdb).toAdvances
  | requeuePreBoundaryClaims leaseOwner nowMs age =>
    exact (requeuePreBoundaryClaims_extends (hallowed _ rfl) w.db).toAdvances
  | recoverExpired nowMs deleteAge updateAge =>
    exact (recoverExpired_extends (hallowed _ rfl) hmeets).toAdvances
  | purgeTerminal completedBeforeMs limit =>
    exact purgeTerminal_advances completedBeforeMs limit w.db
  | elsewhere receipts foregroundLeases outputStatus =>
    show Advances allowed w.db (changeElsewhere receipts foregroundLeases outputStatus w.db)
    unfold changeElsewhere
    rw [autocommit_fst]
    split
    · exact Advances.of_rows rfl fun _ hmem => hmem
    · exact (Extends.refl w.db).toAdvances

theorem perform_constraints (rt : HandoffRuntime) (action : Action)
    (hdb : w.db.constraints = true) : (perform rt action w).db.constraints = true := by
  cases action with
  | enqueueBatch inputs => exact enqueueBatchWithReceipt_constraints rt inputs none hdb
  | recoverBatch jobs original =>
    show (recoverBatch rt jobs original w.db).1.constraints = true
    rcases recoverBatch_fst rt jobs original w.db with hsame | hrun
    · rw [hsame]
      exact hdb
    · rw [hrun]
      exact enqueueBatchWithReceipt_constraints rt jobs original hdb
  | claimNext input busy age => exact withPostgresClient_constraints _ hdb
  | renewClaims leaseOwner jobIds nowMs leaseDurationMs => exact autocommit_constraints _ _ hdb
  | settle token settlement => exact settleClaim_constraints settlement hdb
  | requeuePreBoundaryClaims leaseOwner nowMs age => exact withPostgresClient_constraints _ hdb
  | recoverExpired nowMs deleteAge updateAge => exact withPostgresClient_constraints _ hdb
  | purgeTerminal completedBeforeMs limit =>
    show (purgeTerminal completedBeforeMs limit w.db).1.constraints = true
    unfold purgeTerminal
    split
    · exact hdb
    · split
      · exact hdb
      · exact autocommit_constraints _ _ hdb
  | elsewhere receipts foregroundLeases outputStatus => exact autocommit_constraints _ _ hdb

/-! ## The invariant -/

structure StoreSound (w : World) : Prop where
  constraints : w.db.constraints = true
  rows        : ∀ job ∈ w.db.jobs, job.Sound

theorem Advances.sound {db' : Database} (h : Advances (· ≠ .overrun) db db')
    (hrows : ∀ job ∈ db.jobs, job.Sound) (hvalid : db'.constraints = true) :
    ∀ job ∈ db'.jobs, job.Sound := by
  intro job' hjob'
  rcases h.rows job' hjob' with ⟨job, hjob, hsteps⟩ | ⟨-, input, hsteps⟩
  · exact hsteps.sound (hrows job hjob)
  · -- a new row has an attempt left because the stored one has
    have hpositive := (checked_of_checks (checks_of_constraints hvalid hjob')).maxPositive
    have hmax : job'.maxAttempts = input.maxAttempts := hsteps.follows.maxAttempts
    exact hsteps.sound (insertedRow_sound (hmax ▸ hpositive))

theorem updates_bounded {action : Action} (hmeets : action.Meets w) :
    ∀ update, action.updates update → update ≠ .overrun := by
  intro update hupdate
  cases action with
  | renewClaims leaseOwner jobIds nowMs leaseDurationMs =>
    have hsafe : nowMs.value + leaseDurationMs.value ≤ maxSafeInteger := hmeets
    rw [hupdate, renewalUpdate, if_pos hsafe]
    decide
  | settle token settlement =>
    rw [hupdate]
    cases settlement <;> simp [Settlement.update]
  | purgeTerminal completedBeforeMs limit => cases hupdate
  | elsewhere receipts foregroundLeases outputStatus => cases hupdate
  | enqueueBatch inputs => rw [hupdate]; decide
  | recoverBatch jobs original => rw [hupdate]; decide
  | claimNext input busy age => rw [hupdate]; decide
  | requeuePreBoundaryClaims leaseOwner nowMs age => rw [hupdate]; decide
  | recoverExpired nowMs deleteAge updateAge => rw [hupdate]; decide

theorem StoreSound.step {rt : HandoffRuntime} {w w' : World} (h : StoreSound w)
    (hstep : (undisturbedStore rt).step w w') : StoreSound w' := by
  obtain ⟨action, hmeets, rfl⟩ := hstep
  have hvalid := perform_constraints rt action h.constraints
  have hadvances : Advances (· ≠ .overrun) w.db (perform rt action w).db :=
    perform_advances h.constraints hmeets (updates_bounded hmeets)
  exact ⟨hvalid, hadvances.sound h.rows hvalid⟩

theorem storeSound_of_reachable (h : (undisturbedStore rt).Reachable w) : StoreSound w := by
  refine System.invariant ⟨rfl, ?_⟩ (fun _ _ hs hstep => hs.step hstep) h
  intro job hjob
  cases hjob

/-- A sweep with nothing between its statements is undisturbed. -/
theorem undisturbed_of_current (h : db.constraints = true) (nowMs : Nat) :
    Undisturbed (findExpired nowMs db) db := by
  intro claim hclaim job hjob hid
  obtain ⟨hmem, hrunning, hbudget⟩ := mem_findExpired hclaim
  have hsame : job = claim.job := (jobs_keyed h).unique hjob hmem hid
  rw [hsame]
  exact ⟨terminal_running hrunning, hbudget⟩

/-! ## Tokens, runs and replays -/

theorem autocommit_eq_self {α β : Type} {statement : Database → Database × β}
    {read : β → Except String α} (h : (statement db).1 = db) :
    (autocommit statement read db).1 = db := by
  rw [autocommit_fst, h]
  split <;> rfl

theorem withPostgresClient_eq_self {α : Type} {body : Database → Except String (Database × α)}
    (h : ∀ db' a, body db = .ok (db', a) → db' = db) :
    (withPostgresClient body db).1 = db := by
  rcases withPostgresClient_cases body db with hsame | ⟨db', a, hbody, -, hresult⟩
  · exact hsame
  · rw [hresult]
    exact h db' a hbody

theorem transitionClaim_eq_self {set : BackgroundWorkRow → BackgroundWorkRow}
    (h : ∀ job ∈ db.jobs, token.owns job = false) :
    (transitionClaim token set db).1 = db := by
  show { db with jobs := Table.update token.owns set db.jobs } = db
  rw [Table.update_eq_self h]

theorem requireClaim_of_not_owned (h : ∀ job ∈ db.jobs, token.owns job = false) :
    requireClaim token db = .error (transitionConflict token.jobId) := by
  have hnone : db.jobs.find? token.owns = none :=
    List.find?_eq_none.mpr fun job hjob => by simp [h job hjob]
  rw [requireClaim, hnone]

/-- A settlement by a token that owns no row changes nothing. -/
theorem settleClaim_eq_self (h : ∀ job ∈ db.jobs, token.owns job = false)
    (settlement : Settlement) :
    settleClaim token settlement db = db := by
  cases settlement with
  | complete nowMs => exact autocommit_eq_self (transitionClaim_eq_self h)
  | defer reason availableAtMs nowMs => exact autocommit_eq_self (transitionClaim_eq_self h)
  | failOrRetry nowMs retryAtMs retryHandlerFailed terminalHandlerFailed =>
    refine withPostgresClient_eq_self fun db' row hbody => ?_
    obtain ⟨current, hcurrent, -⟩ := bind_eq_ok.mp hbody
    rw [requireClaim_of_not_owned h] at hcurrent
    cases hcurrent
  | markClaim mark nowMs =>
    refine withPostgresClient_eq_self fun db' row hbody => ?_
    obtain ⟨current, hcurrent, -⟩ := bind_eq_ok.mp hbody
    rw [requireClaim_of_not_owned h] at hcurrent
    cases hcurrent

theorem owns_of_old (h : job.jobId = token.jobId → job.revision ≠ token.expectedRevision) :
    token.owns job = false := by
  unfold ClaimToken.owns
  by_cases hid : job.jobId = token.jobId
  · simp [h hid]
  · simp [hid]

/-- Two versions of a row on the two sides of a transaction. -/
theorem Advances.steps {db' : Database} (h : Advances allowed db db') (hdb : db.constraints = true)
    (hjob : job ∈ db.jobs) (hjob' : job' ∈ db'.jobs) (hid : job'.jobId = job.jobId) :
    RowSteps allowed job job' := by
  rcases h.rows job' hjob' with ⟨old, hold, hsteps⟩ | ⟨hnew, -⟩
  · have hsame : old = job :=
      (jobs_keyed hdb).unique hold hjob (hsteps.follows.jobId.symm.trans hid)
    rw [← hsame]
    exact hsteps
  · exact absurd hid.symm (hnew job hjob)

/-- The runs in which the job is not purged. -/
def KeepsJob (S : System World) (jobId : Text) : World → World → Prop :=
  Relation.ReflTransGen fun w w' => S.step w w' ∧ ∃ job ∈ w'.db.jobs, job.jobId = jobId

/-- By induction on the run; each transaction leaves a later version of the row. -/
theorem follows_of_keepsJob {w' : World} (hw : StoreSound w) (hjob : job ∈ w.db.jobs)
    (hrun : KeepsJob (undisturbedStore rt) job.jobId w w') :
    StoreSound w' ∧ ∃ job' ∈ w'.db.jobs, Follows job job' := by
  induction hrun with
  | refl => exact ⟨hw, job, hjob, Follows.refl job⟩
  | tail _ hstep ih =>
    obtain ⟨hsound, job₁, hjob₁, hfollows⟩ := ih
    obtain ⟨hmove, job₂, hjob₂, hid⟩ := hstep
    refine ⟨hsound.step hmove, job₂, hjob₂, hfollows.trans ?_⟩
    obtain ⟨action, hmeets, rfl⟩ := hmove
    have hadvances : Advances (· ≠ .overrun) _ (perform rt action _).db :=
      perform_advances hsound.constraints hmeets (updates_bounded hmeets)
    exact (hadvances.steps hsound.constraints hjob₁ hjob₂
      (hid.trans hfollows.jobId.symm)).follows

/-- The inputs bind to the turn of an accepted handoff. -/
def Replays (rt : HandoffRuntime) (handoff : HandoffRow)
    (inputs : List EnqueueBackgroundWorkInput) : Prop :=
  ∀ first rest, inputs.mapM rt.validateEnqueueInput = .ok (first :: rest) →
    first.logicalSessionId = handoff.logicalSessionId ∧ first.sourceTurnId = handoff.sourceTurnId

/-- Whatever became of its jobs, the replay of an accepted handoff writes nothing. -/
theorem enqueueBatchWithReceipt_of_accepted {handoff : HandoffRow}
    {inputs : List EnqueueBackgroundWorkInput} {original : Option String}
    (hmem : handoff ∈ db.handoffs) (hreplays : Replays rt handoff inputs) :
    (enqueueBatchWithReceipt rt inputs original db).1 = db := by
  rcases enqueueBatchWithReceipt_cases rt inputs original db with
    hsame | ⟨first, rest, hvalid, hrun⟩
  · exact hsame
  · rw [hrun]
    refine withPostgresClient_eq_self fun db' results hbody => ?_
    obtain ⟨hsession, hturn⟩ := hreplays first rest hvalid
    unfold acceptHandoff at hbody
    split at hbody
    · obtain ⟨_, _, hbody⟩ := bind_eq_ok.mp hbody
      obtain ⟨_, _, hbody⟩ := bind_eq_ok.mp hbody
      cases hbody
      rfl
    · -- the handoff is there, so the lookup finds one
      rename_i hnone
      have hmissed := List.find?_eq_none.mp hnone handoff hmem
      simp [hsession, hturn] at hmissed

theorem handoffs_of_runs {w' : World} (hw : StoreSound w) (hrun : (undisturbedStore rt).Runs w w')
    {handoff : HandoffRow} (hmem : handoff ∈ w.db.handoffs) : handoff ∈ w'.db.handoffs := by
  refine System.stable (I := StoreSound) (P := fun w => handoff ∈ w.db.handoffs)
    (fun _ _ hs hstep => hs.step hstep) ?_ hw hmem hrun
  intro w₁ w₂ hsound hin hstep
  obtain ⟨action, hmeets, rfl⟩ := hstep
  have hadvances : Advances (· ≠ .overrun) w₁.db (perform rt action w₁).db :=
    perform_advances hsound.constraints hmeets (updates_bounded hmeets)
  exact hadvances.handoffs handoff hin

/-! ## The store's guarantee -/

/-- What the rest of the system takes from the store, at a moment `w` of a run of `S`. -/
structure JobStoreInvariant (rt : HandoffRuntime) (S : System World) (w : World) : Prop where
  /-- At most one running job per session. -/
  oneRunning  : ∀ job ∈ w.db.jobs, ∀ job' ∈ w.db.jobs, job.state = .running →
    job'.state = .running → job.logicalSessionId = job'.logicalSessionId → job = job'
  /-- A lease exactly on running rows. -/
  lease       : ∀ job ∈ w.db.jobs, (job.leaseOwner.isSome ↔ job.state = .running) ∧
    (job.leaseExpiresAtMs.isSome ↔ job.state = .running)
  maps        : ∀ job ∈ w.db.jobs, mapRow job = .ok job
  attempts    : ∀ job ∈ w.db.jobs, job.attemptCount ≤ job.maxAttempts
  expiries    : ∀ job ∈ w.db.jobs, job.leaseExpiryCount ≤ leaseExpiryLimit
  /-- Revisions rise with every state change, and a terminal row stays. -/
  later       : ∀ job ∈ w.db.jobs, ∀ w', KeepsJob S job.jobId w w' →
    ∀ job' ∈ w'.db.jobs, job'.jobId = job.jobId → Follows job job'
  /-- An old revision changes nothing. -/
  oldRevision : ∀ token : ClaimToken,
    (∀ job ∈ w.db.jobs, job.jobId = token.jobId → job.revision ≠ token.expectedRevision) →
      ∀ settlement, settleClaim token settlement w.db = w.db
  /-- An accepted handoff is never accepted again. -/
  accepted    : ∀ handoff ∈ w.db.handoffs, ∀ w', S.Runs w w' → ∀ inputs,
    Replays rt handoff inputs → (enqueueBatch rt inputs w'.db).1 = w'.db ∧
      ∀ original, (recoverBatch rt inputs original w'.db).1 = w'.db

/-- **The job store over any interleaving.** In every state of every run whose sweeps
are undisturbed and whose renewed leases end at a safe integer. -/
theorem jobStore_invariant (rt : HandoffRuntime) {w : World}
    (h : (undisturbedStore rt).Reachable w) : JobStoreInvariant rt (undisturbedStore rt) w := by
  have hsound := storeSound_of_reachable h
  have hchecked : ∀ job ∈ w.db.jobs, Checked job := fun job hjob =>
    checked_of_checks (checks_of_constraints hsound.constraints hjob)
  refine
    { oneRunning := ?_, lease := ?_, maps := ?_, attempts := ?_, expiries := ?_, later := ?_
      oldRevision := ?_, accepted := ?_ }
  · intro job hjob job' hjob' hrunning hrunning' hsession
    exact running_unique hsound.constraints hjob hjob' (by simpa [BackgroundWorkRow.running])
      (by simpa [BackgroundWorkRow.running]) hsession
  · intro job hjob
    have howner := (hchecked job hjob).leaseOwner
    have hexpires := (hchecked job hjob).leaseExpires
    rw [howner, hexpires]
    simp [BackgroundWorkRow.running]
  · exact fun job hjob => mapRow_eq_ok (hchecked job hjob) (hsound.rows job hjob)
  · exact fun job hjob => (hchecked job hjob).attempts
  · exact fun job hjob => (hsound.rows job hjob).expiries
  · intro job hjob w' hrun job' hjob' hid
    obtain ⟨hsound', latest, hlatest, hfollows⟩ := follows_of_keepsJob hsound hjob hrun
    have hsame : job' = latest := (jobs_keyed hsound'.constraints).unique hjob' hlatest
      (hid.trans hfollows.jobId.symm)
    rw [hsame]
    exact hfollows
  · intro token hold settlement
    exact settleClaim_eq_self (fun job hjob => owns_of_old (hold job hjob)) settlement
  · intro handoff hmem w' hrun inputs hreplays
    have hmem' := handoffs_of_runs hsound hrun hmem
    refine ⟨enqueueBatchWithReceipt_of_accepted hmem' hreplays, fun original => ?_⟩
    rcases recoverBatch_fst rt inputs original w'.db with hsame | hreceipt
    · exact hsame
    · rw [hreceipt]
      exact enqueueBatchWithReceipt_of_accepted hmem' hreplays

/-! ## A sweep that is disturbed -/

/-- Inputs that are valid as they are. -/
def plainRuntime : HandoffRuntime where
  validateEnqueueInput := .ok
  fingerprintBackgroundWorkHandoff := fun _ => "handoff"

def sampleText : Text :=
  ⟨"turn-1", by decide +kernel, by decide, by decide +kernel⟩

theorem sampleDelay_safe : 100 ≤ maxSafeInteger := by decide

def sampleInput : EnqueueBackgroundWorkInput where
  jobId := sampleText
  idempotencyKey := sampleText
  logicalSessionId := sampleText
  kind := .memoryExtraction
  schemaVersion := 1
  payload := .null
  payloadFingerprint := sampleText
  sourceTurnId := sampleText
  sourceRequestId := sampleText
  sourceChannelId := sampleText
  createdAtMs := .zero
  maxAttempts := 3

def sampleClaim : ClaimInput where
  leaseOwner := sampleText
  nowMs := .zero
  leaseDurationMs := ⟨10, by decide⟩
  excludedLogicalSessionIds := []
  foregroundExcludedLogicalSessionIds := []
  welfare := { deferThreshold := 3, ageThresholdMs := 60000, reserveSlots := 1 }

/-- One job is accepted, claimed and completed as its lease runs out. -/
def completedAtExpiry : World :=
  [.enqueueBatch [sampleInput], .claimNext sampleClaim [] 0,
    .settle ⟨sampleText, sampleText, 2⟩ (.complete ⟨10, by decide⟩)].foldl
      (fun w action => perform plainRuntime action w) {}

/-- A sweep that found the claim before it was completed. -/
def sweptTwice : World := perform plainRuntime (.recoverExpired ⟨10, by decide⟩ 1 1) completedAtExpiry

theorem reachable_foldl {actions : List Action} :
    ∀ {w : World}, (backgroundStore rt).Reachable w →
      (backgroundStore rt).Reachable (actions.foldl (fun w action => perform rt action w) w) := by
  induction actions with
  | nil => exact fun hw => hw
  | cons action actions ih => exact fun hw => ih (hw.next ⟨action, rfl⟩)

theorem sweep_revives_succeeded :
    completedAtExpiry.db.jobs.map (fun job => (job.jobId, job.state)) = [(sampleText, .succeeded)] ∧
      sweptTwice.db.jobs.map (fun job => (job.jobId, job.state)) = [(sampleText, .retryWait)] := by
  decide +kernel

/-- The completed job is to be run again: the store does not keep its guarantee on all runs. -/
theorem jobStore_invariant_fails : ¬ ∀ (rt : HandoffRuntime) (w : World),
    (backgroundStore rt).Reachable w → JobStoreInvariant rt (backgroundStore rt) w := by
  intro hall
  have hreach : (backgroundStore plainRuntime).Reachable completedAtExpiry :=
    reachable_foldl Relation.ReflTransGen.refl
  obtain ⟨hbefore, hafter⟩ := sweep_revives_succeeded
  obtain ⟨job, hjobs, hjob⟩ := List.map_eq_singleton_iff.mp hbefore
  obtain ⟨job', hjobs', hjob'⟩ := List.map_eq_singleton_iff.mp hafter
  obtain ⟨hid, hstate⟩ := Prod.mk.inj hjob
  obtain ⟨hid', hstate'⟩ := Prod.mk.inj hjob'
  have hmem : job ∈ completedAtExpiry.db.jobs := by rw [hjobs]; exact List.mem_singleton_self job
  have hmem' : job' ∈ sweptTwice.db.jobs := by rw [hjobs']; exact List.mem_singleton_self job'
  have hsameId : job'.jobId = job.jobId := hid'.trans hid.symm
  -- one step of the run, and the row is still there
  have hrun : KeepsJob (backgroundStore plainRuntime) job.jobId completedAtExpiry sweptTwice :=
    Relation.ReflTransGen.single ⟨⟨_, rfl⟩, job', hmem', hsameId⟩
  have hfollows := (hall plainRuntime completedAtExpiry hreach).later job hmem sweptTwice hrun
    job' hmem' hsameId
  have hsame : job' = job := hfollows.terminal (by rw [hstate]; rfl)
  rw [hsame, hstate] at hstate'
  cases hstate'

/-- The same job, its claim left to expire: a sweep that is not disturbed. -/
theorem jobStore_invariant_recovered :
    let w := [Action.enqueueBatch [sampleInput], .claimNext sampleClaim [] 0].foldl
      (fun w action => perform plainRuntime action w) {}
    let w' := perform plainRuntime (.recoverExpired ⟨10, by decide⟩ 0 0) w
    w'.db.jobs.map (·.state) = [.retryWait] ∧
      JobStoreInvariant plainRuntime (undisturbedStore plainRuntime) w' := by
  intro w w'
  refine ⟨by decide +kernel, jobStore_invariant plainRuntime ?_⟩
  have hinit : (undisturbedStore plainRuntime).Reachable {} := Relation.ReflTransGen.refl
  have hclaimed : (undisturbedStore plainRuntime).Reachable w :=
    (hinit.next ⟨.enqueueBatch [sampleInput], trivial, rfl⟩).next
      ⟨.claimNext sampleClaim [] 0, trivial, rfl⟩
  have hsound := storeSound_of_reachable hclaimed
  exact hclaimed.next ⟨.recoverExpired ⟨10, by decide⟩ 0 0,
    undisturbed_of_current hsound.constraints 10, rfl⟩

end Psfn.Background
