import Mathlib.Data.List.Sort
import Psfn.Background.Rows

/-!
# Background work — the store

The operations of `PostgresBackgroundWorkStore`. Each takes the database to the next one and
returns what the caller sees. `withPostgresClient` is a transaction: it commits what its
body wrote, or nothing when the body throws or a constraint refuses a row.
`autocommit` is a statement sent without one.

A transaction ends at one moment, and the rows it changes are locked from its statement to
that end, so it is taken there. What an earlier statement of it has read may be older: the
candidates of a claim or of a requeue, the expired claims of a sweep. Such a statement gets
the database it saw as an argument. The claim and the requeue ask again when they change a
row; the sweep's `UPDATE` names its rows only by id, and Postgres evaluates that condition
on the version it locks. `pg_try_advisory_xact_lock` may fail: `busy` lists the sessions
another transaction has locked.

Not read back by any operation and left out: acquisition and receipt times, output refs.
-/

namespace Psfn.Background

open Psfn.Lib

/-! ## Transactions -/

/-- `BEGIN … COMMIT`, and `ROLLBACK` when the body throws. -/
def withPostgresClient {α : Type} (body : Database → Except String (Database × α))
    (db : Database) : Database × Except String α :=
  match body db with
  | .ok (db', a) => if db'.constraints then (db', .ok a) else (db, .error "constraint violation")
  | .error message => (db, .error message)

/-- One statement on the pool; `read` is what the caller makes of the rows it returned. -/
def autocommit {α β : Type} (statement : Database → Database × β) (read : β → Except String α)
    (db : Database) : Database × Except String α :=
  let (db', rows) := statement db
  if db'.constraints then (db', read rows) else (db, .error "constraint violation")

/-! ## Accepting work -/

structure EnqueueBackgroundWorkInput where
  jobId              : Text
  idempotencyKey     : Text
  logicalSessionId   : Text
  kind               : BackgroundWorkKind
  schemaVersion      : Nat
  payload            : JsValue
  payloadFingerprint : Text
  sourceTurnId       : Text
  sourceRequestId    : Text
  sourceChannelId    : Text
  createdAtMs        : SafeInteger
  maxAttempts        : Nat

/-- What the store takes from elsewhere: `validateEnqueueInput` with the payload parser and
the digests behind it, and `fingerprintBackgroundWorkHandoff`. -/
structure HandoffRuntime where
  validateEnqueueInput             : EnqueueBackgroundWorkInput → Except String EnqueueBackgroundWorkInput
  fingerprintBackgroundWorkHandoff : List EnqueueBackgroundWorkInput → String

inductive EnqueueResult where
  | alreadyAccepted (jobId : Text)
  | deduplicated (job : BackgroundWorkRow)
  | enqueued (job : BackgroundWorkRow) (staleDiscardedJobIds : List Text)

def assertIdempotentReplay (incumbent : BackgroundWorkRow) (input : EnqueueBackgroundWorkInput) :
    Except String Unit :=
  throwIf (incumbent.jobId ≠ input.jobId || incumbent.logicalSessionId ≠ input.logicalSessionId
      || incumbent.kind ≠ input.kind || incumbent.payloadSchemaVersion ≠ input.schemaVersion
      || incumbent.payloadFingerprint ≠ input.payloadFingerprint
      || incumbent.sourceTurnId ≠ input.sourceTurnId
      || incumbent.sourceRequestId ≠ input.sourceRequestId
      || incumbent.sourceChannelId ≠ input.sourceChannelId
      || incumbent.createdAtMs ≠ input.createdAtMs || incumbent.maxAttempts ≠ input.maxAttempts)
    s!"Background work idempotency key reuse mismatch: {input.idempotencyKey.value}"

/-- The `VALUES` of the insert. -/
def insertedRow (input : EnqueueBackgroundWorkInput) : BackgroundWorkRow where
  jobId := input.jobId
  idempotencyKey := input.idempotencyKey
  logicalSessionId := input.logicalSessionId
  kind := input.kind
  payloadSchemaVersion := input.schemaVersion
  payload := input.payload
  payloadFingerprint := input.payloadFingerprint
  sourceTurnId := input.sourceTurnId
  sourceRequestId := input.sourceRequestId
  sourceChannelId := input.sourceChannelId
  state := .queued
  reasonCode := .enqueued
  attemptCount := 0
  maxAttempts := input.maxAttempts
  createdAtMs := input.createdAtMs
  availableAtMs := input.createdAtMs
  updatedAtMs := input.createdAtMs
  leaseOwner := none
  leaseExpiresAtMs := none
  completedAtMs := none
  revision := 1
  deferredFromState := none
  deferredFromAvailableAtMs := none
  deferCount := 0
  firstDeferredAtMs := none
  welfareClaimed := false
  leaseExpiryCount := 0

/-- The order of two compaction jobs of one session: by time, then by id. -/
def olderThan (job : BackgroundWorkRow) (createdAtMs : SafeInteger) (jobId : Text) : Bool :=
  job.createdAtMs.value < createdAtMs.value
    || (job.createdAtMs = createdAtMs && decide (job.jobId.value < jobId.value))

def newerThan (job : BackgroundWorkRow) (createdAtMs : SafeInteger) (jobId : Text) : Bool :=
  createdAtMs.value < job.createdAtMs.value
    || (job.createdAtMs = createdAtMs && decide (jobId.value < job.jobId.value))

/-- The `SET` of both supersession statements. -/
def superseded (atMs : SafeInteger) (job : BackgroundWorkRow) : BackgroundWorkRow :=
  { job with
    state := .staleDiscarded
    reasonCode := .superseded
    completedAtMs := some atMs
    updatedAtMs := atMs
    deferredFromState := none
    deferredFromAvailableAtMs := none
    revision := job.revision + 1 }

/-- The compactions a new one makes stale. -/
def supersedes (input : EnqueueBackgroundWorkInput) (job : BackgroundWorkRow) : Bool :=
  job.logicalSessionId = input.logicalSessionId && job.kind = .autoCompaction
    && job.jobId ≠ input.jobId && job.state.runnable
    && olderThan job input.createdAtMs input.jobId

def enqueueValidated (db : Database) (input : EnqueueBackgroundWorkInput) :
    Except String (Database × EnqueueResult) :=
  match db.jobs.find? (fun job => job.idempotencyKey = input.idempotencyKey) with
  | some incumbentRow => do
    -- `ON CONFLICT (idempotency_key) DO NOTHING`
    let incumbent ← mapRow incumbentRow
    assertIdempotentReplay incumbent input
    .ok (db, .deduplicated incumbent)
  | none => do
    throwIf (db.jobs.any fun job => job.jobId = input.jobId) "duplicate key value: job_id"
    let inserted := insertedRow input
    let jobs := db.jobs ++ [inserted]
    if input.kind = .autoCompaction then
      if jobs.any (fun job => job.logicalSessionId = input.logicalSessionId
          && job.kind = .autoCompaction && job.jobId ≠ input.jobId
          && newerThan job input.createdAtMs input.jobId) then
        let updated := Table.update (fun job => job.jobId = input.jobId)
          (superseded input.createdAtMs) jobs
        let job ← mapRow (superseded input.createdAtMs inserted)
        .ok ({ db with jobs := updated }, .enqueued job [])
      else
        let updated := Table.update (supersedes input) (superseded input.createdAtMs) jobs
        let job ← mapRow inserted
        .ok ({ db with jobs := updated },
          .enqueued job ((jobs.filter (supersedes input)).map (·.jobId)))
    else
      let job ← mapRow inserted
      .ok ({ db with jobs }, .enqueued job [])

/-- The replay of an accepted handoff reads rows and writes none. -/
def replayHandoff (db : Database) (inputs : List EnqueueBackgroundWorkInput) :
    Except String (List EnqueueResult) :=
  inputs.mapM fun input =>
    match db.jobs.find? (fun job => job.idempotencyKey = input.idempotencyKey) with
    | none => .ok (.alreadyAccepted input.jobId)
    | some jobRow => do
      let job ← mapRow jobRow
      assertIdempotentReplay job input
      .ok (.deduplicated job)

def enqueueAll : Database → List EnqueueBackgroundWorkInput →
    Except String (Database × List EnqueueResult)
  | db, [] => .ok (db, [])
  | db, input :: inputs => do
    let (db, result) ← enqueueValidated db input
    let (db, results) ← enqueueAll db inputs
    .ok (db, result :: results)

/-- The body of the handoff transaction, once its inputs bind to one turn. -/
def acceptHandoff (rt : HandoffRuntime) (first : EnqueueBackgroundWorkInput)
    (inputs : List EnqueueBackgroundWorkInput) (originalManifestFingerprint : Option String)
    (db : Database) : Except String (Database × List EnqueueResult) :=
  let manifestFingerprint := rt.fingerprintBackgroundWorkHandoff inputs
  match db.handoffs.find? (fun handoff => handoff.logicalSessionId = first.logicalSessionId
      && handoff.sourceTurnId = first.sourceTurnId) with
  | some incumbent => do
    throwIf (incumbent.manifestFingerprint ≠ manifestFingerprint
        && some incumbent.manifestFingerprint ≠ originalManifestFingerprint)
      "Background work handoff replay fingerprint mismatch"
    let results ← replayHandoff db inputs
    .ok (db, results)
  | none =>
    enqueueAll { db with handoffs := db.handoffs ++
      [⟨first.logicalSessionId, first.sourceTurnId, manifestFingerprint⟩] } inputs

def bindsToTurn (first input : EnqueueBackgroundWorkInput) : Bool :=
  input.logicalSessionId = first.logicalSessionId && input.sourceTurnId = first.sourceTurnId
    && input.sourceRequestId = first.sourceRequestId
    && input.sourceChannelId = first.sourceChannelId && input.createdAtMs = first.createdAtMs

def enqueueBatchWithReceipt (rt : HandoffRuntime) (inputValues : List EnqueueBackgroundWorkInput)
    (originalManifestFingerprint : Option String) (db : Database) :
    Database × Except String (List EnqueueResult) :=
  if inputValues.isEmpty then (db, .ok [])
  else if 4 < inputValues.length then
    (db, .error "Background work handoff supports at most four jobs")
  else
    match inputValues.mapM rt.validateEnqueueInput with
    | .error message => (db, .error message)
    | .ok [] => (db, .ok [])
    | .ok (first :: rest) =>
      if (first :: rest).any (fun input => !bindsToTurn first input) then
        (db, .error "Background work batch must bind to one canonical turn")
      else if ¬ ((first :: rest).map (·.kind)).Nodup then
        (db, .error "Duplicate background work kind in batch")
      else
        withPostgresClient (acceptHandoff rt first (first :: rest) originalManifestFingerprint) db

def enqueueBatch (rt : HandoffRuntime) (inputs : List EnqueueBackgroundWorkInput) (db : Database) :
    Database × Except String (List EnqueueResult) :=
  enqueueBatchWithReceipt rt inputs none db

/-- `/^[a-f0-9]{64}$/u`. -/
def isSha256Hex (s : String) : Bool :=
  s.toList.length = 64 && s.toList.all fun c => c.isDigit || ('a' ≤ c && c ≤ 'f')

def recoverBatch (rt : HandoffRuntime) (jobs : List EnqueueBackgroundWorkInput)
    (originalManifestFingerprint : Option String) (db : Database) :
    Database × Except String (List EnqueueResult) :=
  if originalManifestFingerprint.any (fun digest => !isSha256Hex digest) then
    (db, .error "Background work recovery manifest fingerprint must be a SHA-256 digest")
  else if originalManifestFingerprint.isSome && jobs.any (fun job => job.kind = .emotionAppraisal) then
    (db, .error "Legacy background work recovery must exclude the retired emotion appraisal")
  else enqueueBatchWithReceipt rt jobs originalManifestFingerprint db

/-! ## Claiming -/

structure WelfarePolicy where
  deferThreshold : Nat
  ageThresholdMs : Nat
  reserveSlots   : Nat

structure ClaimInput where
  leaseOwner                          : Text
  nowMs                               : SafeInteger
  leaseDurationMs                     : SafeInteger
  excludedLogicalSessionIds           : List Text
  foregroundExcludedLogicalSessionIds : List Text
  welfare                             : WelfarePolicy

def foregroundActive (db : Database) (logicalSessionId : Text) (nowMs : Nat) : Bool :=
  db.foregroundLeases.any fun lease =>
    lease.logicalSessionId = logicalSessionId && nowMs < lease.expiresAtMs

def sessionRunning (db : Database) (logicalSessionId : Text) : Bool :=
  db.jobs.any fun job => job.logicalSessionId = logicalSessionId && job.running

/-- Available, and for the exclusive kind free of turn contention. -/
def normalAdmission (db : Database) (input : ClaimInput) (job : BackgroundWorkRow) : Bool :=
  job.availableAtMs.value ≤ input.nowMs.value
    && (job.kind ≠ foregroundExclusiveKind
      || (!input.foregroundExcludedLogicalSessionIds.contains job.logicalSessionId
        && !foregroundActive db job.logicalSessionId input.nowMs.value))

/-- The aging condition of the welfare path. -/
def welfareAged (input : ClaimInput) (job : BackgroundWorkRow) : Bool :=
  input.welfare.deferThreshold ≤ job.deferCount
    || job.firstDeferredAtMs.any fun firstDeferredAtMs =>
      (input.welfare.ageThresholdMs : Int) ≤ (input.nowMs.value : Int) - firstDeferredAtMs.value

/-- How many welfare slots are taken. -/
def welfareRunning (jobs : List BackgroundWorkRow) : Nat :=
  jobs.countP fun job => job.running && job.welfareClaimed

def welfareAdmission (db : Database) (input : ClaimInput) (job : BackgroundWorkRow) : Bool :=
  0 < input.welfare.reserveSlots && job.kind ≠ foregroundExclusiveKind && welfareAged input job
    && welfareRunning db.jobs < input.welfare.reserveSlots

def admissible (db : Database) (input : ClaimInput) (job : BackgroundWorkRow) : Bool :=
  job.state.runnable && !input.excludedLogicalSessionIds.contains job.logicalSessionId
    && !sessionRunning db job.logicalSessionId
    && (normalAdmission db input job || welfareAdmission db input job)

/-- The `CASE` over kinds in both orders. -/
def kindRank : BackgroundWorkKind → Nat
  | .intentionPostTurnHooks => 0
  | .emotionAppraisal => 1
  | .memoryExtraction => 2
  | .autoCompaction => 3

/-- `ORDER BY created_at_ms, CASE kind …, job_id`. -/
def claimsBefore (a b : BackgroundWorkRow) : Bool :=
  a.createdAtMs.value < b.createdAtMs.value
    || (a.createdAtMs = b.createdAtMs && (kindRank a.kind < kindRank b.kind
      || (kindRank a.kind = kindRank b.kind && decide (a.jobId.value ≤ b.jobId.value))))

/-- `session_rank = 1`: no admissible job of the session comes first. -/
def firstInSession (jobs : List BackgroundWorkRow) (job : BackgroundWorkRow) : Bool :=
  jobs.all fun other => other.logicalSessionId ≠ job.logicalSessionId
    || job.updatedAtMs.value < other.updatedAtMs.value
    || (job.updatedAtMs = other.updatedAtMs && claimsBefore job other)

structure ClaimCandidate where
  jobId            : Text
  logicalSessionId : Text
  viaWelfare       : Bool
deriving DecidableEq

def claimCandidates (db : Database) (input : ClaimInput) : List ClaimCandidate :=
  let jobs := db.jobs.filter (admissible db input)
  ((jobs.filter (firstInSession jobs)).insertionSort fun a b => claimsBefore a b).map fun job =>
    ⟨job.jobId, job.logicalSessionId, !normalAdmission db input job⟩

/-- The condition of the `UPDATE` a candidate gets. -/
def claimable (db : Database) (input : ClaimInput) (candidate : ClaimCandidate)
    (job : BackgroundWorkRow) : Bool :=
  job.jobId = candidate.jobId && job.state.runnable
    && (if candidate.viaWelfare then
          job.kind ≠ foregroundExclusiveKind && 0 < input.welfare.reserveSlots
            && welfareAged input job && welfareRunning db.jobs < input.welfare.reserveSlots
        else
          job.availableAtMs.value ≤ input.nowMs.value
            && (job.kind ≠ foregroundExclusiveKind
              || !foregroundActive db job.logicalSessionId input.nowMs.value))
    && !sessionRunning db job.logicalSessionId

/-- The `SET` of the claim. -/
def claimedRow (input : ClaimInput) (viaWelfare : Bool) (job : BackgroundWorkRow) :
    BackgroundWorkRow :=
  { job with
    state := .running
    reasonCode := .started
    leaseOwner := some input.leaseOwner
    leaseExpiresAtMs := some (input.nowMs.value + input.leaseDurationMs.value)
    updatedAtMs := input.nowMs
    deferredFromState := none
    deferredFromAvailableAtMs := none
    welfareClaimed := viaWelfare
    revision := job.revision + 1 }

/-- `DELETE FROM agent_background_work_foreground_leases` of a session's expired leases. -/
def dropExpiredForeground (logicalSessionId : Text) (nowMs : Nat) (db : Database) : Database :=
  let expired (lease : ForegroundLeaseRow) : Bool :=
    lease.logicalSessionId = logicalSessionId && lease.expiresAtMs ≤ nowMs
  { db with foregroundLeases := Table.delete expired db.foregroundLeases }

/-- The loop over the candidates. -/
def claimLoop (input : ClaimInput) (busy : List Text) :
    Database → List ClaimCandidate → Except String (Database × Option BackgroundWorkRow)
  | db, [] => .ok (db, none)
  | db, candidate :: candidates =>
    if busy.contains candidate.logicalSessionId then claimLoop input busy db candidates
    else
      let db := dropExpiredForeground candidate.logicalSessionId input.nowMs.value db
      match db.jobs.find? (claimable db input candidate) with
      | none => claimLoop input busy db candidates
      | some job => do
        let updated := Table.update (claimable db input candidate)
          (claimedRow input candidate.viaWelfare) db.jobs
        let claimed ← mapClaimedRow (claimedRow input candidate.viaWelfare job)
        .ok ({ db with jobs := updated }, some claimed)

/-- `seen` is what the query for candidates has read. -/
def claimNext (input : ClaimInput) (busy : List Text) (seen db : Database) :
    Database × Except String (Option BackgroundWorkRow) :=
  withPostgresClient (fun db => claimLoop input busy db (claimCandidates seen input)) db

/-- The one statement that changes a running row and leaves its revision. -/
def renewedRow (nowMs leaseDurationMs : SafeInteger) (job : BackgroundWorkRow) :
    BackgroundWorkRow :=
  { job with
    leaseExpiresAtMs := some (nowMs.value + leaseDurationMs.value)
    updatedAtMs := nowMs }

def renewable (leaseOwner : Text) (jobIds : List Text) (job : BackgroundWorkRow) : Bool :=
  job.leaseOwner = some leaseOwner && jobIds.contains job.jobId && job.running

def renewClaims (leaseOwner : Text) (jobIds : List Text) (nowMs leaseDurationMs : SafeInteger)
    (db : Database) : Database × Except String (List Text) :=
  autocommit (fun db =>
    let updated := Table.update (renewable leaseOwner jobIds) (renewedRow nowMs leaseDurationMs) db.jobs
    ({ db with jobs := updated },
      (db.jobs.filter (renewable leaseOwner jobIds)).map (·.jobId))) .ok db

/-! ## Settling a claim -/

/-- What a transition of a claim presents. -/
structure ClaimToken where
  jobId            : Text
  leaseOwner       : Text
  expectedRevision : Nat
deriving DecidableEq

/-- `WHERE job_id = $1 AND state = 'running' AND lease_owner = $2 AND revision = $3`. -/
def ClaimToken.owns (token : ClaimToken) (job : BackgroundWorkRow) : Bool :=
  job.jobId = token.jobId && job.running && job.leaseOwner = some token.leaseOwner
    && job.revision = token.expectedRevision

def transitionConflict (jobId : Text) : String :=
  s!"Background work transition conflict for {jobId.value}"

/-- `requireTransitionRow`. -/
def requireTransitionRow (jobId : Text) : Option BackgroundWorkRow → Except String BackgroundWorkRow
  | none => .error (transitionConflict jobId)
  | some row => mapRow row

/-- A claim's row without its lease, one revision on. -/
def releasedRow (state : BackgroundWorkState) (reasonCode : BackgroundWorkReasonCode)
    (atMs : SafeInteger) (job : BackgroundWorkRow) : BackgroundWorkRow :=
  { job with
    state
    reasonCode
    updatedAtMs := atMs
    leaseOwner := none
    leaseExpiresAtMs := none
    deferredFromState := none
    deferredFromAvailableAtMs := none
    welfareClaimed := false
    revision := job.revision + 1 }

/-- `complete` and `markClaimTerminal` also clear the deferral pressure. -/
def settledRow (state : BackgroundWorkState) (reasonCode : BackgroundWorkReasonCode)
    (atMs : SafeInteger) (job : BackgroundWorkRow) : BackgroundWorkRow :=
  { releasedRow state reasonCode atMs job with
    completedAtMs := some atMs
    deferCount := 0
    firstDeferredAtMs := none }

/-- A guarded `UPDATE … RETURNING` of one claim. -/
def transitionClaim (token : ClaimToken) (set : BackgroundWorkRow → BackgroundWorkRow)
    (db : Database) : Database × Option BackgroundWorkRow :=
  ({ db with jobs := Table.update token.owns set db.jobs }, (db.jobs.find? token.owns).map set)

def complete (token : ClaimToken) (nowMs : SafeInteger) (db : Database) :
    Database × Except String BackgroundWorkRow :=
  autocommit (transitionClaim token (settledRow .succeeded .completed nowMs))
    (requireTransitionRow token.jobId) db

/-- The two reasons `defer` takes. -/
inductive DeferReason where
  | foregroundActive | sourceNotReady
deriving DecidableEq, Repr

def DeferReason.code : DeferReason → BackgroundWorkReasonCode
  | .foregroundActive => .foregroundActive
  | .sourceNotReady => .sourceNotReady

def deferredRow (reason : DeferReason) (availableAtMs nowMs : SafeInteger)
    (job : BackgroundWorkRow) : BackgroundWorkRow :=
  { releasedRow .deferred reason.code nowMs job with
    deferredFromState := some .queued
    availableAtMs
    deferCount := job.deferCount + (if reason = .foregroundActive then 1 else 0)
    firstDeferredAtMs := match reason with
      | .foregroundActive => job.firstDeferredAtMs.or (some nowMs)
      | .sourceNotReady => job.firstDeferredAtMs }

def defer (token : ClaimToken) (reason : DeferReason) (availableAtMs nowMs : SafeInteger)
    (db : Database) : Database × Except String BackgroundWorkRow :=
  autocommit (transitionClaim token (deferredRow reason availableAtMs nowMs))
    (requireTransitionRow token.jobId) db

/-- `recordTerminalSubsystemProjection`: insert the status, or accept what is there. -/
def recordTerminalSubsystemProjection (job : BackgroundWorkRow) (status : SubsystemOutputStatus)
    (db : Database) : Except String Database :=
  match db.outputStatus.find? (fun marker => marker.logicalSessionId = job.logicalSessionId
      && marker.sourceChannelId = job.sourceChannelId && marker.sourceTurnId = job.sourceTurnId
      && marker.sourceRequestId = job.sourceRequestId) with
  | none => .ok { db with outputStatus := db.outputStatus ++
      [⟨job.logicalSessionId, job.sourceChannelId, job.sourceTurnId, job.sourceRequestId, status⟩] }
  | some incumbent =>
    if incumbent.status = status || incumbent.status = .applied then .ok db
    else .error s!"Subsystem output terminal projection conflict for {job.jobId.value}"

/-- A `started` receipt of the job that projects subsystem outputs. -/
def startedProjection (db : Database) (jobId : Text) : Bool :=
  db.receipts.any fun receipt => receipt.jobId = jobId && receipt.state = .started
    && receipt.projectsSubsystemOutputs

/-- `SELECT … FOR UPDATE` of a claim. -/
def requireClaim (token : ClaimToken) (db : Database) : Except String BackgroundWorkRow :=
  match db.jobs.find? token.owns with
  | some current => .ok current
  | none => .error (transitionConflict token.jobId)

/-- The terminal projection of an extraction that ends. -/
def projectTerminal (ends : Bool) (job : BackgroundWorkRow) (status : SubsystemOutputStatus)
    (db : Database) : Except String Database :=
  if job.kind = .memoryExtraction && ends then recordTerminalSubsystemProjection job status db
  else .ok db

/-- The row `failOrRetry` writes. -/
def retriedRow (terminal : Bool) (reasonCode : BackgroundWorkReasonCode)
    (nowMs retryAtMs : SafeInteger) (job : BackgroundWorkRow) : BackgroundWorkRow :=
  { releasedRow (if terminal then .failed else .retryWait) reasonCode nowMs job with
    attemptCount := job.attemptCount + 1
    availableAtMs := retryAtMs
    completedAtMs := if terminal then some nowMs else none }

/-- The two optional reasons can only be `handler_failed`. -/
def failOrRetry (token : ClaimToken) (nowMs retryAtMs : SafeInteger)
    (retryHandlerFailed terminalHandlerFailed : Bool) (db : Database) :
    Database × Except String BackgroundWorkRow :=
  withPostgresClient (fun db => do
    let current ← requireClaim token db
    let unknownEffect := startedProjection db token.jobId
    let retryExhausted : Bool := current.maxAttempts ≤ current.attemptCount + 1
    let terminal := unknownEffect || retryExhausted
    let reasonCode : BackgroundWorkReasonCode :=
      if unknownEffect then .effectOutcomeUnknown
      else if retryExhausted then
        (if terminalHandlerFailed then .handlerFailed else .retryExhausted)
      else if retryHandlerFailed then .handlerFailed else .retryScheduled
    let set := retriedRow terminal reasonCode nowMs retryAtMs
    let db := { db with jobs := Table.update token.owns set db.jobs }
    let db ← projectTerminal terminal (set current)
      (if unknownEffect then .outcomeUnknown else .failed) db
    let row ← mapRow (set current)
    .ok (db, row)) db

def markClaimTerminal (token : ClaimToken) (state : BackgroundWorkState)
    (reasonCode : BackgroundWorkReasonCode) (nowMs : SafeInteger) (db : Database) :
    Database × Except String BackgroundWorkRow :=
  withPostgresClient (fun db => do
    let current ← requireClaim token db
    let set := settledRow state reasonCode nowMs
    let db := { db with jobs := Table.update token.owns set db.jobs }
    let db ← projectTerminal true (set current)
      (if reasonCode = .effectOutcomeUnknown then .outcomeUnknown else .failed) db
    let row ← mapRow (set current)
    .ok (db, row)) db

/-- The reasons each of the three callers of `markClaimTerminal` takes. -/
inductive TerminalMark where
  | malformedPayload | unknownKind
  | sourceNotReady | sourceMissing | sourceMismatch | effectOutcomeUnknown
  | staleSourceMissing | staleSourceMismatch | staleSuperseded
deriving DecidableEq, Repr

def TerminalMark.state : TerminalMark → BackgroundWorkState
  | .staleSourceMissing | .staleSourceMismatch | .staleSuperseded => .staleDiscarded
  | _ => .failed

def TerminalMark.reasonCode : TerminalMark → BackgroundWorkReasonCode
  | .malformedPayload => .malformedPayload
  | .unknownKind => .unknownKind
  | .sourceNotReady => .sourceNotReady
  | .sourceMissing | .staleSourceMissing => .sourceMissing
  | .sourceMismatch | .staleSourceMismatch => .sourceMismatch
  | .effectOutcomeUnknown => .effectOutcomeUnknown
  | .staleSuperseded => .superseded

/-- `markClaimMalformed`, `markClaimFailed` and `markClaimStale`. -/
def markClaim (token : ClaimToken) (mark : TerminalMark) (nowMs : SafeInteger) (db : Database) :
    Database × Except String BackgroundWorkRow :=
  markClaimTerminal token mark.state mark.reasonCode nowMs db

/-! ## Sweeps -/

/-- A `started` or `applied` receipt of the job. -/
def boundaryCrossed (db : Database) (jobId : Text) : Bool :=
  db.receipts.any fun receipt => receipt.jobId = jobId && receipt.state ≠ .pending

def requeuable (db : Database) (leaseOwner : Text) (job : BackgroundWorkRow) : Bool :=
  job.running && job.leaseOwner = some leaseOwner && !boundaryCrossed db job.jobId

def requeuedRow (nowMs : SafeInteger) (job : BackgroundWorkRow) : BackgroundWorkRow :=
  { releasedRow .queued .shutdown nowMs job with availableAtMs := nowMs }

/-- One candidate of the sweep: its row and its pending receipts. -/
def requeueOne (leaseOwner : Text) (nowMs : SafeInteger) (db : Database) (jobId : Text) :
    Except String Database :=
  match db.jobs.find? (fun job => job.jobId = jobId && requeuable db leaseOwner job) with
  | none => .ok db
  | some job => do
    discard (mapRow (requeuedRow nowMs job))
    .ok { db with
      jobs := Table.update (fun job => job.jobId = jobId && requeuable db leaseOwner job)
        (requeuedRow nowMs) db.jobs
      receipts := Table.delete (fun receipt => receipt.jobId = jobId && receipt.state = .pending)
        db.receipts }

/-- `seen` is what the query for candidates has read. -/
def requeuePreBoundaryClaims (leaseOwner : Text) (nowMs : SafeInteger) (seen db : Database) :
    Database × Except String Unit :=
  withPostgresClient (fun db => do
    let candidates := (seen.jobs.filter (requeuable seen leaseOwner)).map (·.jobId)
    let db ← candidates.foldlM (requeueOne leaseOwner nowMs) db
    .ok (db, ())) db

/-- `state = 'running' AND lease_expires_at_ms <= $1`. -/
def leaseExpired (nowMs : Nat) (job : BackgroundWorkRow) : Bool :=
  job.running && job.leaseExpiresAtMs.any fun expires => decide (expires ≤ nowMs)

/-- A row of the `expired` and `unknown_projection` subqueries, with the row it was computed
from. -/
structure ExpiredClaim where
  job                   : BackgroundWorkRow
  boundaryCrossed       : Bool
  expiryBudgetExhausted : Bool
  unknownProjection     : Bool

/-- The first statement of the sweep: the receipts of runs that never reached their write.
The claims are those of `seen`; a receipt has to be pending still. -/
def dropPendingReceipts (nowMs : Nat) (seen db : Database) : Database :=
  let dropped (receipt : EffectReceiptRow) : Bool := receipt.state = .pending
    && seen.receipts.any (fun found => found.jobId = receipt.jobId
      && found.effectKey = receipt.effectKey && found.state = .pending)
    && seen.jobs.any fun job => job.jobId = receipt.jobId && leaseExpired nowMs job
  { db with receipts := Table.delete dropped db.receipts }

def findExpired (nowMs : Nat) (seen : Database) : List ExpiredClaim :=
  (seen.jobs.filter (leaseExpired nowMs)).map fun job =>
    { job
      boundaryCrossed := seen.receipts.any fun receipt =>
        receipt.jobId = job.jobId && receipt.state = .started
      expiryBudgetExhausted := leaseExpiryLimit ≤ job.leaseExpiryCount + 1
      unknownProjection := startedProjection seen job.jobId }

/-- The `SET` of the sweep, on the version of the row it finds. -/
def expiredRow (nowMs : SafeInteger) (claim : ExpiredClaim) (job : BackgroundWorkRow) :
    BackgroundWorkRow :=
  let terminal := claim.boundaryCrossed || claim.expiryBudgetExhausted
  { releasedRow (if terminal then .failed else .retryWait)
      (if claim.boundaryCrossed then .effectOutcomeUnknown else .leaseExpired) nowMs job with
    attemptCount := if claim.boundaryCrossed then job.attemptCount + 1 else job.attemptCount
    leaseExpiryCount := job.leaseExpiryCount + 1
    availableAtMs := nowMs
    completedAtMs := if terminal then some nowMs else none }

/-- `WHERE job.job_id = expired.job_id`: the condition names the row only by its id. -/
def expiredClaimOf (expired : List ExpiredClaim) (job : BackgroundWorkRow) : Option ExpiredClaim :=
  expired.find? fun claim => claim.job.jobId = job.jobId

def sweptRow (nowMs : SafeInteger) (expired : List ExpiredClaim) (job : BackgroundWorkRow) :
    BackgroundWorkRow :=
  match expiredClaimOf expired job with
  | some claim => expiredRow nowMs claim job
  | none => job

/-- The unknown outcomes the sweep records for started projections. -/
def recordUnknownProjections (expired : List ExpiredClaim) (db : Database) : Database :=
  expired.foldl (fun db claim =>
    if claim.unknownProjection && !(db.outputStatus.any fun marker =>
        marker.logicalSessionId = claim.job.logicalSessionId
          && marker.sourceChannelId = claim.job.sourceChannelId
          && marker.sourceTurnId = claim.job.sourceTurnId
          && marker.sourceRequestId = claim.job.sourceRequestId) then
      { db with outputStatus := db.outputStatus ++ [⟨claim.job.logicalSessionId,
        claim.job.sourceChannelId, claim.job.sourceTurnId, claim.job.sourceRequestId,
        .outcomeUnknown⟩] }
    else db) db

/-- After the update: the projections of failed extractions, and `mapRow` on failed rows. -/
def settleSwept (db : Database) (row : BackgroundWorkRow) : Except String Database :=
  if row.state = .failed then do
    let db ← projectTerminal (row.reasonCode = .leaseExpired) row .failed db
    discard (mapRow row)
    .ok db
  else .ok db

/-- The second statement of the sweep and what follows it, for the claims it found. -/
def applyExpired (nowMs : SafeInteger) (expired : List ExpiredClaim) (db : Database) :
    Except String (Database × Nat) := do
  let swept := (db.jobs.filter fun job => (expiredClaimOf expired job).isSome).map
    (sweptRow nowMs expired)
  let db := { recordUnknownProjections expired db with
    jobs := db.jobs.map (sweptRow nowMs expired) }
  let db ← swept.foldlM settleSwept db
  .ok (db, swept.length)

/-- `atDelete` and `atUpdate` are what its two statements have read. -/
def recoverExpired (nowMs : SafeInteger) (atDelete atUpdate db : Database) :
    Database × Except String Nat :=
  withPostgresClient (fun db =>
    applyExpired nowMs (findExpired nowMs.value atUpdate)
      (dropPendingReceipts nowMs.value atDelete db)) db

/-- `MAX_PURGE_LIMIT`. -/
def maxPurgeLimit : Nat := 10000

def purgeable (completedBeforeMs : SafeInteger) (job : BackgroundWorkRow) : Bool :=
  job.state.terminal && job.completedAtMs.any fun completedAtMs =>
    decide (completedAtMs.value ≤ completedBeforeMs.value)

/-- `ORDER BY completed_at_ms ASC, job_id ASC`. -/
def purgedBefore (a b : BackgroundWorkRow) : Bool :=
  (a.completedAtMs.map (·.value)).getD 0 < (b.completedAtMs.map (·.value)).getD 0
    || (a.completedAtMs = b.completedAtMs && decide (a.jobId.value ≤ b.jobId.value))

def purgedJobs (completedBeforeMs : SafeInteger) (limit : Nat) (db : Database) : List Text :=
  (((db.jobs.filter (purgeable completedBeforeMs)).insertionSort fun a b => purgedBefore a b).take
    limit).map (·.jobId)

/-- Terminal rows go, and their receipts with them (`ON DELETE CASCADE`). -/
def purgeTerminal (completedBeforeMs : SafeInteger) (limit : Nat) (db : Database) :
    Database × Except String Nat :=
  if limit < 1 then (db, .error "Background work limit must be positive")
  else if maxPurgeLimit < limit then
    (db, .error s!"Background work purge limit exceeds {maxPurgeLimit}")
  else
    autocommit (fun db =>
      let purged := purgedJobs completedBeforeMs limit db
      ({ db with
          jobs := Table.delete (fun job => purged.contains job.jobId) db.jobs
          receipts := Table.delete (fun receipt => purged.contains receipt.jobId) db.receipts },
        purged.length)) .ok db

end Psfn.Background
