import Psfn.Background.Invariant

/-!
# Background work — effects

The receipts of `PostgresBackgroundWorkStore` and the two functions of the supervisor that
use them: the effect runner a claim's handler gets, and what `executeClaim` does with the
handler's outcome.

A run of an effect is a claim's call of `effects.run` for a key. It enters, checks the
fence, opens a receipt, crosses its boundary and writes; each of these is one action, and
anything may happen between two of them. A process that dies takes no further action.

The handler is only known by what it may do: it runs an effect once per key and claim, and
writes to the sink once, after `crossBoundary` has returned.
-/

namespace Psfn.Background

open Psfn.Lib

/-! ## Receipts -/

inductive ClaimFence where
  | owned | foregroundActive | leaseLost
deriving DecidableEq, Repr

/-- The row is the token's, and its lease has not run out at `nowMs`. -/
def ClaimToken.holds (token : ClaimToken) (nowMs : Nat) (job : BackgroundWorkRow) : Bool :=
  token.owns job && job.leaseExpiresAtMs.any fun expires => decide (nowMs < expires)

/-- `checkClaimFence`; the two transactions on a receipt ask the same of the row. -/
def checkClaimFence (token : ClaimToken) (nowMs : Nat) (db : Database) : ClaimFence :=
  match db.jobs.find? (fun job => job.jobId = token.jobId) with
  | none => .leaseLost
  | some job =>
    if !token.holds nowMs job then .leaseLost
    else if job.kind = foregroundExclusiveKind && foregroundActive db job.logicalSessionId nowMs then
      .foregroundActive
    else .owned

def assertClaimOwned (token : ClaimToken) (nowMs : Nat) (db : Database) : Bool :=
  db.jobs.any (token.holds nowMs)

def EffectReceiptRow.isFor (jobId effectKey : Text) (receipt : EffectReceiptRow) : Bool :=
  receipt.jobId = jobId && receipt.effectKey = effectKey

def EffectReceiptRow.ownedBy (token : ClaimToken) (receipt : EffectReceiptRow) : Bool :=
  receipt.leaseOwner = token.leaseOwner && receipt.leaseRevision = token.expectedRevision

inductive BeginEffectResult where
  | execute | applied | outcomeUnknown | foregroundActive | leaseLost
deriving DecidableEq, Repr

/-- The receipt of a key, once the claim is known to be owned. -/
def openReceipt (token : ClaimToken) (effectKey : Text) (projectsSubsystemOutputs : Bool)
    (db : Database) : Except String (Database × BeginEffectResult) :=
  match db.receipts.find? (EffectReceiptRow.isFor token.jobId effectKey) with
  | none => .ok ({ db with receipts := db.receipts ++ [⟨token.jobId, effectKey, .pending,
      token.leaseOwner, token.expectedRevision, projectsSubsystemOutputs⟩] }, .execute)
  | some receipt =>
    if receipt.projectsSubsystemOutputs ≠ projectsSubsystemOutputs then
      .error s!"Background work effect projection contract changed for {token.jobId.value}:{effectKey.value}"
    else
      match receipt.state with
      | .applied => .ok (db, .applied)
      | .started => .ok (db, if receipt.ownedBy token then .execute else .outcomeUnknown)
      | .pending =>
        if receipt.ownedBy token then .ok (db, .execute)
        else
          -- a pending receipt of an expired lease is taken over
          let retaken := Table.update
            (fun receipt => receipt.isFor token.jobId effectKey && receipt.state = .pending)
            (fun receipt => { receipt with
              leaseOwner := token.leaseOwner, leaseRevision := token.expectedRevision })
            db.receipts
          .ok ({ db with receipts := retaken }, .execute)

def beginEffect (token : ClaimToken) (effectKey : Text) (nowMs : SafeInteger)
    (projectsSubsystemOutputs : Bool) (db : Database) :
    Database × Except String BeginEffectResult :=
  withPostgresClient (fun db =>
    match checkClaimFence token nowMs.value db with
    | .leaseLost => .ok (db, .leaseLost)
    | .foregroundActive => .ok (db, .foregroundActive)
    | .owned => openReceipt token effectKey projectsSubsystemOutputs db) db

inductive BoundaryResult where
  | crossed | applied | foregroundActive | leaseLost
deriving DecidableEq, Repr

/-- `UPDATE … SET state = 'started'`: the claim's own pending receipt. -/
def promotable (token : ClaimToken) (effectKey : Text) (receipt : EffectReceiptRow) : Bool :=
  receipt.isFor token.jobId effectKey && receipt.state = .pending && receipt.ownedBy token

def promoteReceipt (token : ClaimToken) (effectKey : Text) (db : Database) :
    Database × BoundaryResult :=
  if db.receipts.any (promotable token effectKey) then
    let promoted := Table.update (promotable token effectKey)
      (fun receipt => { receipt with state := .started }) db.receipts
    ({ db with receipts := promoted }, .crossed)
  else
    match db.receipts.find? fun receipt =>
        receipt.isFor token.jobId effectKey && receipt.ownedBy token with
    | none => (db, .leaseLost)
    | some receipt =>
      match receipt.state with
      | .started => (db, .crossed)
      | .applied => (db, .applied)
      | .pending => (db, .leaseLost)

def commitEffectBoundary (token : ClaimToken) (effectKey : Text) (nowMs : SafeInteger)
    (db : Database) : Database × Except String BoundaryResult :=
  withPostgresClient (fun db =>
    match checkClaimFence token nowMs.value db with
    | .leaseLost => .ok (db, .leaseLost)
    | .foregroundActive => .ok (db, .foregroundActive)
    | .owned => .ok (promoteReceipt token effectKey db)) db

def completionConflict (token : ClaimToken) (effectKey : Text) : String :=
  s!"Background work effect completion conflict for {token.jobId.value}:{effectKey.value}"

/-- The `applied` marker of a projecting effect: inserted, or there already. -/
def recordAppliedProjection (projects : Bool) (job : BackgroundWorkRow) (effectKey : Text)
    (db : Database) : Except String Database :=
  if !projects then .ok db
  else match db.outputStatus.find? (fun marker => marker.logicalSessionId = job.logicalSessionId
      && marker.sourceChannelId = job.sourceChannelId && marker.sourceTurnId = job.sourceTurnId
      && marker.sourceRequestId = job.sourceRequestId) with
  | none => .ok { db with outputStatus := db.outputStatus ++
      [⟨job.logicalSessionId, job.sourceChannelId, job.sourceTurnId, job.sourceRequestId, .applied⟩] }
  | some incumbent =>
    if incumbent.status = .applied then .ok db
    else .error s!"Subsystem output projection conflict for {job.jobId.value}:{effectKey.value}"

/-- `UPDATE … SET state = 'applied'`. -/
def completable (token : ClaimToken) (effectKey : Text) (projectsSubsystemOutputs : Bool)
    (receipt : EffectReceiptRow) : Bool :=
  receipt.isFor token.jobId effectKey && receipt.state ≠ .applied && receipt.ownedBy token
    && receipt.projectsSubsystemOutputs = projectsSubsystemOutputs

/-- `SELECT … FOR UPDATE` of a claim whose lease has not run out. -/
def requireHeldClaim (token : ClaimToken) (effectKey : Text) (nowMs : Nat) (db : Database) :
    Except String BackgroundWorkRow :=
  match db.jobs.find? (token.holds nowMs) with
  | none => .error (completionConflict token effectKey)
  | some job => .ok job

/-- `outputRefs` is absent, or what checking the given refs came to. -/
def completeEffect (token : ClaimToken) (effectKey : Text) (nowMs : SafeInteger)
    (outputRefs : Option (Except String Unit)) (db : Database) : Database × Except String Unit :=
  match outputRefs.getD (.ok ()) with
  | .error message => (db, .error message)
  | .ok () =>
    withPostgresClient (fun db => do
      let job ← requireHeldClaim token effectKey nowMs.value db
      throwIf (!db.receipts.any (completable token effectKey outputRefs.isSome))
        (completionConflict token effectKey)
      let applied := Table.update (completable token effectKey outputRefs.isSome)
        (fun receipt => { receipt with state := .applied }) db.receipts
      let db := { db with receipts := applied }
      let db ← recordAppliedProjection outputRefs.isSome job effectKey db
      .ok (db, ())) db

/-- Only a pending receipt may be abandoned. -/
def abandonEffect (token : ClaimToken) (effectKey : Text) (nowMs : SafeInteger) (db : Database) :
    Database × Except String Unit :=
  autocommit (fun db =>
    let abandoned (receipt : EffectReceiptRow) : Bool := promotable token effectKey receipt
      && db.jobs.any (token.holds nowMs.value)
    ({ db with receipts := Table.delete abandoned db.receipts }, ())) .ok db

/-! ## What becomes of a claim -/

/-- `BackgroundWorkDeferredError.reasonCode`. -/
inductive DeferredReason where
  | foregroundActive | sourceNotReady | handlerFailed
deriving DecidableEq, Repr

/-- The errors `executeClaim` tells apart. -/
inductive ExecutionError where
  | shutdownRequeue
  | deferred (reason : DeferredReason) (terminallyMissing : Bool)
  | stale
  | permanent (mismatch : Bool)
  | effectOutcomeUnknown
  | leaseLost
  | other
deriving DecidableEq, Repr

/-- How the execution of a claim ended; the flags of a throw are the claim's own signal, its
fence and the supervisor's `stopping`. -/
inductive ClaimOutcome where
  | foregroundBusy
  | malformed
  | completed
  | threw (error : ExecutionError) (aborted lost stopping : Bool)
deriving DecidableEq, Repr

/-- `SOURCE_RECORD_GRACE_MS`. -/
def sourceRecordGraceMs : Nat := 60000

/-- `executeClaim`: the settlement it asks the store for. `atMs` is the time to try again. -/
def executeClaim (createdAtMs nowMs atMs : SafeInteger) : ClaimOutcome → Option Settlement
  | .foregroundBusy => some (.defer .foregroundActive atMs nowMs)
  | .malformed => some (.markClaim .malformedPayload nowMs)
  | .completed => some (.complete nowMs)
  | .threw error aborted lost stopping =>
    if error = .shutdownRequeue then none
    else if aborted && (lost || stopping) then none
    else
      match error with
      | .deferred .foregroundActive _ => some (.defer .foregroundActive atMs nowMs)
      | .deferred .sourceNotReady terminallyMissing =>
        if (nowMs.value : Int) - createdAtMs.value < sourceRecordGraceMs then
          some (.defer .sourceNotReady atMs nowMs)
        else some (.markClaim (if terminallyMissing then .sourceMissing else .sourceNotReady) nowMs)
      | .deferred .handlerFailed _ => some (.failOrRetry nowMs atMs true true)
      | .stale => some (.markClaim .staleSuperseded nowMs)
      | .permanent mismatch =>
        some (.markClaim (if mismatch then .sourceMismatch else .sourceMissing) nowMs)
      | .effectOutcomeUnknown => some (.markClaim .effectOutcomeUnknown nowMs)
      | .leaseLost => none
      | .shutdownRequeue | .other => some (.failOrRetry nowMs atMs false false)

/-- A handler that a shutdown has stopped: the typed requeue, or whatever its aborted signal
made of it. -/
def ClaimOutcome.Interrupted : ClaimOutcome → Prop
  | .threw error aborted _ stopping =>
    error = .shutdownRequeue ∨ (aborted = true ∧ stopping = true)
  | _ => False

/-! ## Workers -/

/-- Where a run of an effect is; `ended` also stands for one that threw. -/
inductive RunPhase where
  | idle | entered | fenced | opened | crossed | wrote | ended
deriving DecidableEq, Repr

structure SinkWrite where
  token     : ClaimToken
  effectKey : Text
deriving DecidableEq

/-- The database, every claim that was taken, the fence flag of each, where its runs are,
and the writes the sinks have seen. -/
structure Workers where
  db     : Database := {}
  claims : List ClaimToken := []
  lost   : ClaimToken → Bool := fun _ => false
  phase  : ClaimToken → Text → RunPhase := fun _ _ => .idle
  writes : List SinkWrite := []

def Workers.setPhase (w : Workers) (token : ClaimToken) (effectKey : Text) (phase : RunPhase) :
    Workers :=
  { w with phase := fun token' effectKey' =>
      if token' = token ∧ effectKey' = effectKey then phase else w.phase token' effectKey' }

def Workers.lose (w : Workers) (token : ClaimToken) : Workers :=
  { w with lost := fun token' => token' = token || w.lost token' }

/-- What the run does with the fence's answer. -/
def Workers.afterFence (w : Workers) (token : ClaimToken) (effectKey : Text) :
    ClaimFence → Workers
  | .owned => w.setPhase token effectKey .fenced
  | .foregroundActive => w.setPhase token effectKey .ended
  | .leaseLost => (w.lose token).setPhase token effectKey .ended

/-- … with the answer of `beginEffect`. -/
def Workers.afterBegin (w : Workers) (token : ClaimToken) (effectKey : Text) :
    Except String BeginEffectResult → Workers
  | .ok .execute => w.setPhase token effectKey .opened
  | .ok .leaseLost => (w.lose token).setPhase token effectKey .ended
  | _ => w.setPhase token effectKey .ended

/-- … with the answer of `commitEffectBoundary`; a call that throws leaves the run open. -/
def Workers.afterBoundary (w : Workers) (token : ClaimToken) (effectKey : Text) :
    Except String BoundaryResult → Workers
  | .ok .crossed | .ok .applied => w.setPhase token effectKey .crossed
  | .ok .leaseLost => w.lose token
  | _ => w

inductive WorkerAction where
  | enqueueBatch (inputs : List EnqueueBackgroundWorkInput)
  | recoverBatch (jobs : List EnqueueBackgroundWorkInput) (original : Option String)
  | claimNext (input : ClaimInput) (busy : List Text)
  | renewClaims (leaseOwner : Text) (jobIds : List Text) (nowMs leaseDurationMs : SafeInteger)
  | requeuePreBoundaryClaims (leaseOwner : Text) (nowMs : SafeInteger)
  | recoverExpired (nowMs : SafeInteger)
  | foreground (foregroundLeases : List ForegroundLeaseRow)
  | enterRun (token : ClaimToken) (effectKey : Text) (stopping : Bool)
  | checkFence (token : ClaimToken) (effectKey : Text) (nowMs : SafeInteger)
  | beginEffect (token : ClaimToken) (effectKey : Text) (nowMs : SafeInteger)
      (projectsSubsystemOutputs : Bool)
  | crossBoundary (token : ClaimToken) (effectKey : Text) (nowMs : SafeInteger) (stopping : Bool)
  | sinkWrite (token : ClaimToken) (effectKey : Text)
  | assertLeaseOwned (token : ClaimToken) (nowMs : SafeInteger)
  | completeEffect (token : ClaimToken) (effectKey : Text) (nowMs : SafeInteger)
      (outputRefs : Option (Except String Unit))
  | abandonEffect (token : ClaimToken) (effectKey : Text) (nowMs : SafeInteger)
  | endRun (token : ClaimToken) (effectKey : Text)
  | settle (token : ClaimToken) (createdAtMs nowMs atMs : SafeInteger) (outcome : ClaimOutcome)

/-- The token of a claim that `claimNext` has returned. -/
def claimedToken (input : ClaimInput) (job : BackgroundWorkRow) : ClaimToken :=
  ⟨job.jobId, input.leaseOwner, job.revision⟩

/-- One action of some process; one that is not its turn changes nothing. -/
def act (rt : HandoffRuntime) : WorkerAction → Workers → Workers
  | .enqueueBatch inputs, w => { w with db := (enqueueBatch rt inputs w.db).1 }
  | .recoverBatch jobs original, w => { w with db := (recoverBatch rt jobs original w.db).1 }
  | .claimNext input busy, w =>
    let (db, claimed) := claimNext input busy w.db w.db
    match claimed with
    | .ok (some job) => { w with db, claims := claimedToken input job :: w.claims }
    | _ => { w with db }
  | .renewClaims leaseOwner jobIds nowMs leaseDurationMs, w =>
    { w with db := (renewClaims leaseOwner jobIds nowMs leaseDurationMs w.db).1 }
  | .requeuePreBoundaryClaims leaseOwner nowMs, w =>
    { w with db := (requeuePreBoundaryClaims leaseOwner nowMs w.db w.db).1 }
  | .recoverExpired nowMs, w => { w with db := (recoverExpired nowMs w.db w.db w.db).1 }
  | .foreground foregroundLeases, w => { w with db := { w.db with foregroundLeases } }
  | .enterRun token effectKey stopping, w =>
    -- once per key and claim
    if token ∈ w.claims ∧ w.phase token effectKey = .idle then
      w.setPhase token effectKey (if stopping || w.lost token then .ended else .entered)
    else w
  | .checkFence token effectKey nowMs, w =>
    if w.phase token effectKey = .entered then
      w.afterFence token effectKey (checkClaimFence token nowMs.value w.db)
    else w
  | .beginEffect token effectKey nowMs projectsSubsystemOutputs, w =>
    if w.phase token effectKey = .fenced then
      let (db, result) := beginEffect token effectKey nowMs projectsSubsystemOutputs w.db
      { w with db }.afterBegin token effectKey result
    else w
  | .crossBoundary token effectKey nowMs stopping, w =>
    if w.phase token effectKey = .opened ∧ !w.lost token ∧ !stopping then
      let (db, result) := commitEffectBoundary token effectKey nowMs w.db
      { w with db }.afterBoundary token effectKey result
    else w
  | .sinkWrite token effectKey, w =>
    if w.phase token effectKey = .crossed then
      { w.setPhase token effectKey .wrote with writes := ⟨token, effectKey⟩ :: w.writes }
    else w
  | .assertLeaseOwned token nowMs, w =>
    if assertClaimOwned token nowMs.value w.db then w else w.lose token
  | .completeEffect token effectKey nowMs outputRefs, w =>
    -- the operation has returned, with or without a write
    if (w.phase token effectKey = .opened ∨ w.phase token effectKey = .crossed
        ∨ w.phase token effectKey = .wrote) ∧ !w.lost token then
      { w with db := (completeEffect token effectKey nowMs outputRefs w.db).1 }.setPhase
        token effectKey .ended
    else w
  | .abandonEffect token effectKey nowMs, w =>
    -- the operation has thrown, and the boundary was not crossed
    if w.phase token effectKey = .opened then
      { w with db := (abandonEffect token effectKey nowMs w.db).1 }.setPhase token effectKey .ended
    else w
  | .endRun token effectKey, w =>
    if w.phase token effectKey = .idle then w else w.setPhase token effectKey .ended
  | .settle token createdAtMs nowMs atMs outcome, w =>
    if token ∈ w.claims then
      match executeClaim createdAtMs nowMs atMs outcome with
      | some settlement => { w with db := settleClaim token settlement w.db }
      | none => w
    else w

/-- Any number of supervisors, over jobs that came in through a handoff. -/
def workers (rt : HandoffRuntime) : System Workers where
  init := {}
  step := fun w w' => ∃ action : WorkerAction, w' = act rt action w

end Psfn.Background
