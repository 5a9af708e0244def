import Psfn.FleetMaintenance.Store
import Psfn.Lib.Transition

/-!
# The baton is fenced

An operation leaves the baton's token and its holder as they were, clears the holder, or grants the
free baton under the next token. What follows for runs needs no more than this (`Kept`).

* `run_kept` — what every operation keeps of the baton;
* `run_dead` — an operation that presents a token the baton is not held under changes nothing;
* `run_checkpoints` — a checkpoint's token does not decrease unless it is deleted;
* `fenced_run` — the fence over runs of any number of coordinators, with any clocks.
-/

namespace Psfn.FleetMaintenance

open Lib (Uuid System bind_eq_ok throwIf_eq_ok)

/-! ## The baton over time -/

/-- The baton is held under the token. -/
def Database.heldUnder (db : Database) (token : Int) : Prop :=
  db.baton.holderCompanionId.isSome = true ∧ db.baton.fencingToken = token

/-- Tokens do not go back, and under one token there is one holder whose deadline does not either. -/
structure Kept (row row' : BatonRow) : Prop where
  token  : row.fencingToken ≤ row'.fencingToken
  holder : row'.holderCompanionId.isSome = true → row'.fencingToken = row.fencingToken →
    row'.holderCompanionId = row.holderCompanionId ∧ row'.holderInstanceId = row.holderInstanceId
  expiry : row'.holderCompanionId.isSome = true → row'.fencingToken = row.fencingToken →
    ∀ e, row.leaseExpiresAtMs = some e → ∃ e', row'.leaseExpiresAtMs = some e' ∧ e ≤ e'

theorem Kept.refl (row : BatonRow) : Kept row row :=
  ⟨Int.le_refl _, fun _ _ => ⟨rfl, rfl⟩, fun _ _ e he => ⟨e, he, Int.le_refl _⟩⟩

theorem Kept.trans {row row' row'' : BatonRow} (h : Kept row row') (h' : Kept row' row'') :
    Kept row row'' := by
  have hmiddle : row''.holderCompanionId.isSome = true → row''.fencingToken = row.fencingToken →
      row'.holderCompanionId.isSome = true ∧ row'.fencingToken = row.fencingToken ∧
        row''.fencingToken = row'.fencingToken := by
    intro hheld htoken
    have hle := h.token
    have hle' := h'.token
    have htoken' : row''.fencingToken = row'.fencingToken := by omega
    refine ⟨?_, by omega, htoken'⟩
    rw [← (h'.holder hheld htoken').1]
    exact hheld
  refine ⟨Int.le_trans h.token h'.token, ?_, ?_⟩
  · intro hheld htoken
    obtain ⟨hheld', htoken', htoken''⟩ := hmiddle hheld htoken
    obtain ⟨hcompanion, hinstance⟩ := h.holder hheld' htoken'
    obtain ⟨hcompanion', hinstance'⟩ := h'.holder hheld htoken''
    exact ⟨hcompanion'.trans hcompanion, hinstance'.trans hinstance⟩
  · intro hheld htoken e he
    obtain ⟨hheld', htoken', htoken''⟩ := hmiddle hheld htoken
    obtain ⟨e', he', hle⟩ := h.expiry hheld' htoken' e he
    obtain ⟨e'', he'', hle'⟩ := h'.expiry hheld htoken'' e' he'
    exact ⟨e'', he'', Int.le_trans hle hle'⟩

variable {row row' : BatonRow}

/-- Cleared, the baton keeps its token. -/
theorem Kept.of_free (htoken : row'.fencingToken = row.fencingToken)
    (hfree : row'.holderCompanionId = none) : Kept row row' := by
  have hnot : ¬ row'.holderCompanionId.isSome = true := by
    rw [hfree]
    exact Bool.false_ne_true
  exact ⟨Int.le_of_eq htoken.symm, fun hheld => absurd hheld hnot, fun hheld => absurd hheld hnot⟩

/-- Granted, it is held under the next. -/
theorem Kept.of_next (htoken : row'.fencingToken = row.fencingToken + 1) :
    Kept row row' :=
  ⟨by omega, fun _ hsame => by omega, fun _ hsame => by omega⟩

variable {db : Database} {token : Int}

theorem Kept.dead {db' : Database} (h : Kept db.baton db'.baton)
    (hle : token ≤ db.baton.fencingToken) (hdead : ¬ db.heldUnder token) :
    ¬ db'.heldUnder token := by
  rintro ⟨hheld, htoken⟩
  have hmono := h.token
  have hsame : db'.baton.fencingToken = db.baton.fencingToken := by omega
  refine hdead ⟨?_, by omega⟩
  rw [← (h.holder hheld hsame).1]
  exact hheld

/-! ## What the operations do -/

variable {operation : Operation}

section Operations

variable {input : StoreBinding} {db db' : Database}

/-- A transaction changes nothing, or does what its body did. -/
theorem committed {α : Type} {body : Database → Except String (Database × α)} {P : Database → Prop}
    (hsame : P db) (hbody : ∀ db' a, body db = .ok (db', a) → P db') :
    P (withPostgresClient body db).1 := by
  rcases Lib.Table.transaction_cases Database.constraints body db with
    ⟨message, heq⟩ | ⟨db', a, hok, -, heq⟩
  · rw [withPostgresClient, heq]
    exact hsame
  · rw [withPostgresClient, heq]
    exact hbody db' a hok

theorem nullableSafeInteger_eq {value safe : Option Int} {field : String}
    (h : nullableSafeInteger value field = .ok safe) : safe = value := by
  cases value with
  | none =>
    cases h
    rfl
  | some value =>
    obtain ⟨_, hsafe, h⟩ := bind_eq_ok.1 h
    obtain ⟨_, -, hvalue⟩ := bind_eq_ok.1 hsafe
    cases hvalue
    cases h
    rfl

variable {nowMs : Int}

/-- The manifest is the baton's, or the baton was free for a new one. -/
theorem reconciled (h : lockAndReconcileManifest input nowMs db = .ok db') :
    db' = db ∧ db.baton.manifestFingerprint = some input.manifestFingerprint ∨
      db'.checkpoints = db.checkpoints ∧ db'.baton.fencingToken = db.baton.fencingToken ∧
        db'.baton.holderCompanionId = none := by
  unfold lockAndReconcileManifest at h
  split at h
  · rename_i hsame
    obtain ⟨_, -, h⟩ := bind_eq_ok.1 h
    cases h
    exact .inl ⟨rfl, hsame⟩
  · obtain ⟨_, -, h⟩ := bind_eq_ok.1 h
    obtain ⟨_, -, h⟩ := bind_eq_ok.1 h
    cases h
    exact .inr ⟨rfl, rfl, rfl⟩

theorem reconciled_kept (h : lockAndReconcileManifest input nowMs db = .ok db') :
    Kept db.baton db'.baton ∧ db'.checkpoints = db.checkpoints := by
  rcases reconciled h with ⟨rfl, -⟩ | ⟨hcheckpoints, htoken, hfree⟩
  · exact ⟨Kept.refl _, rfl⟩
  · exact ⟨Kept.of_free htoken hfree, hcheckpoints⟩

variable {fencingToken : Int}

theorem owned_of_locked {expiry : Int}
    (h : lockOwnedLiveLease input fencingToken nowMs db = .ok expiry) :
    db.baton.ownedBy input fencingToken = true ∧ db.baton.leaseExpiresAtMs = some expiry ∧
      nowMs < expiry := by
  unfold lockOwnedLiveLease at h
  split at h
  · rename_i howned
    obtain ⟨safe, hsafe, h⟩ := bind_eq_ok.1 h
    have heq := nullableSafeInteger_eq hsafe
    split at h
    · cases h
    · split at h
      · cases h
      · rename_i hlive
        cases h
        exact ⟨howned, heq.symm, Int.not_le.1 hlive⟩
  · cases h

theorem ownedBy_iff :
    row.ownedBy input fencingToken = true ↔ row.holderCompanionId = some input.companionId ∧
      row.holderInstanceId = some input.holderInstanceId ∧ row.fencingToken = fencingToken := by
  simp only [BatonRow.ownedBy, Bool.and_eq_true, decide_eq_true_eq, and_assoc]

theorem heldUnder_of_owned (h : db.baton.ownedBy input fencingToken = true) :
    db.heldUnder fencingToken := by
  obtain ⟨hcompanion, -, htoken⟩ := ownedBy_iff.1 h
  refine ⟨?_, htoken⟩
  rw [hcompanion]
  rfl

/-- The deadline is set to a later one. -/
theorem Kept.extended {expiry expiry' : Int} (hexpiry : row.leaseExpiresAtMs = some expiry)
    (hexpiry' : row'.leaseExpiresAtMs = some expiry') (hle : expiry ≤ expiry')
    (htoken : row'.fencingToken = row.fencingToken)
    (hcompanion : row'.holderCompanionId = row.holderCompanionId)
    (hinstance : row'.holderInstanceId = row.holderInstanceId) : Kept row row' := by
  refine ⟨Int.le_of_eq htoken.symm, fun _ _ => ⟨hcompanion, hinstance⟩, ?_⟩
  intro _ _ e he
  rw [hexpiry] at he
  cases he
  exact ⟨expiry', hexpiry', hle⟩

theorem toLease_eq {checkpointRef : Option String} {lease : FleetMaintenanceLease}
    (h : toLease row checkpointRef = .ok lease) :
    lease.fencingToken = row.fencingToken ∧ row.leaseExpiresAtMs.isSome = true := by
  unfold toLease at h
  split at h
  · obtain ⟨_, -, h⟩ := bind_eq_ok.1 h
    obtain ⟨_, -, h⟩ := bind_eq_ok.1 h
    obtain ⟨expiresAt, hexpires, h⟩ := bind_eq_ok.1 h
    have heq := nullableSafeInteger_eq hexpires
    split at h
    · obtain ⟨token, htoken, h⟩ := bind_eq_ok.1 h
      obtain ⟨_, -, hvalue⟩ := bind_eq_ok.1 htoken
      cases hvalue
      cases h
      refine ⟨rfl, ?_⟩
      rw [← heq]
      rfl
    · cases h
  · cases h

variable {leaseExpiresAtMs : Int} {phase : String}

theorem grant_cases {result : AcquireResult}
    (h : grant input nowMs leaseExpiresAtMs phase db = .ok (db', result)) :
    db'.checkpoints = db.checkpoints ∧ db'.baton.fencingToken = db.baton.fencingToken + 1 ∧
      ∃ lease, result = .acquired lease ∧ lease.fencingToken = db.baton.fencingToken + 1 := by
  obtain ⟨lease, hlease, h⟩ := bind_eq_ok.1 h
  cases h
  exact ⟨rfl, rfl, lease, rfl, (toLease_eq hlease).1⟩

/-- What `tryAcquire` makes of the baton: nothing, or a grant when it is free. -/
theorem acquireBaton_cases {holderExpiry : Option Int} {result : AcquireResult}
    (h : acquireBaton input nowMs leaseExpiresAtMs phase holderExpiry db = .ok (db', result)) :
    db' = db ∧ (∀ lease, result = .acquired lease →
        db.baton.ownedBy input db.baton.fencingToken = true ∧
          db.baton.leaseExpiresAtMs.isSome = true) ∨
      db'.checkpoints = db.checkpoints ∧ db'.baton.fencingToken = db.baton.fencingToken + 1 ∧
        ∃ lease, result = .acquired lease ∧ lease.fencingToken = db.baton.fencingToken + 1 := by
  unfold acquireBaton at h
  split at h
  · rename_i holder hholder
    split at h
    · rename_i hmine
      obtain ⟨lease, hlease, h⟩ := bind_eq_ok.1 h
      cases h
      refine .inl ⟨rfl, fun _ _ => ⟨ownedBy_iff.2 ?_, (toLease_eq hlease).2⟩⟩
      simp only [Bool.and_eq_true, decide_eq_true_eq] at hmine
      rw [hholder, hmine.1]
      exact ⟨rfl, hmine.2, rfl⟩
    · cases h
      exact .inl ⟨rfl, nofun⟩
  · split at h
    · cases h
      exact .inl ⟨rfl, nofun⟩
    · split at h
      · cases h
        exact .inl ⟨rfl, nofun⟩
      · exact .inr (grant_cases h)

theorem clearExpired_kept (db : Database) (nowMs : Int) (holderExpiry : Option Int) :
    Kept db.baton (clearExpired nowMs holderExpiry db).baton ∧
      (clearExpired nowMs holderExpiry db).checkpoints = db.checkpoints ∧
      (clearExpired nowMs holderExpiry db).baton.fencingToken = db.baton.fencingToken := by
  unfold clearExpired
  split
  · exact ⟨Kept.of_free rfl rfl, rfl, rfl⟩
  · exact ⟨Kept.refl _, rfl, rfl⟩

theorem tryAcquire_kept :
    Kept db.baton (tryAcquire input nowMs leaseExpiresAtMs phase db).1.baton ∧
      (tryAcquire input nowMs leaseExpiresAtMs phase db).1.checkpoints = db.checkpoints := by
  refine committed (P := fun db' => Kept db.baton db'.baton ∧ db'.checkpoints = db.checkpoints)
    ⟨Kept.refl _, rfl⟩ ?_
  intro db' result hbody
  obtain ⟨db₁, hreconciled, hbody⟩ := bind_eq_ok.1 hbody
  obtain ⟨holderExpiry, -, hbody⟩ := bind_eq_ok.1 hbody
  obtain ⟨hkept₁, hcheckpoints₁⟩ := reconciled_kept hreconciled
  obtain ⟨hkept₂, hcheckpoints₂, -⟩ := clearExpired_kept db₁ nowMs holderExpiry
  rcases acquireBaton_cases hbody with ⟨rfl, -⟩ | ⟨hcheckpoints, htoken, -⟩
  · exact ⟨hkept₁.trans hkept₂, hcheckpoints₂.trans hcheckpoints₁⟩
  · exact ⟨(hkept₁.trans hkept₂).trans (Kept.of_next htoken),
      hcheckpoints.trans (hcheckpoints₂.trans hcheckpoints₁)⟩

/-- The caller's own lease is live. -/
def Database.holdsLive (db : Database) (input : StoreBinding) (nowMs : Int) : Bool :=
  db.baton.ownedBy input db.baton.fencingToken &&
    db.baton.leaseExpiresAtMs.any fun expiry => nowMs < expiry

/-- A lease that is acquired and was not held is under the next token. -/
theorem tryAcquire_fresh {lease : FleetMaintenanceLease}
    (h : (tryAcquire input nowMs leaseExpiresAtMs phase db).2 = .ok (.acquired lease))
    (hfresh : db.holdsLive input nowMs = false) :
    lease.fencingToken = db.baton.fencingToken + 1 ∧
      (tryAcquire input nowMs leaseExpiresAtMs phase db).1.baton.fencingToken =
        db.baton.fencingToken + 1 := by
  unfold tryAcquire withPostgresClient at h ⊢
  rcases Lib.Table.transaction_cases Database.constraints _ db with
    ⟨message, heq⟩ | ⟨db', result, hbody, -, heq⟩
  · rw [heq] at h
    cases h
  · rw [heq] at h ⊢
    cases h
    obtain ⟨db₁, hreconciled, hbody⟩ := bind_eq_ok.1 hbody
    obtain ⟨holderExpiry, hexpiry, hbody⟩ := bind_eq_ok.1 hbody
    have hholder := nullableSafeInteger_eq hexpiry
    obtain ⟨-, -, htoken₂⟩ := clearExpired_kept db₁ nowMs holderExpiry
    have htoken₁ : db₁.baton.fencingToken = db.baton.fencingToken := by
      rcases reconciled hreconciled with ⟨rfl, -⟩ | ⟨-, htoken, -⟩
      · rfl
      · exact htoken
    rcases acquireBaton_cases hbody with ⟨-, howned⟩ | ⟨-, htoken, lease', hlease, hleaseToken⟩
    · -- held by the caller, so neither reconciled nor cleared
      obtain ⟨howned, hsome⟩ := howned lease rfl
      have hheld := (heldUnder_of_owned howned).1
      exfalso
      unfold clearExpired at howned hsome hheld
      split at howned
      · rename_i hcleared
        rw [if_pos hcleared] at hheld
        cases hheld
      · rename_i hlive
        rw [if_neg hlive] at hheld hsome
        rcases reconciled hreconciled with ⟨rfl, -⟩ | ⟨-, -, hfree⟩
        · obtain ⟨expiry, hexpiry'⟩ := Option.isSome_iff_exists.1 hsome
          have hlate : nowMs < expiry := by
            rw [hheld, hholder, hexpiry'] at hlive
            simpa using hlive
          rw [Database.holdsLive, howned, hexpiry'] at hfresh
          have hfalse : decide (nowMs < expiry) = false := hfresh
          exact absurd hlate (of_decide_eq_false hfalse)
        · rw [hfree] at hheld
          cases hheld
    · cases hlease
      exact ⟨by omega, by dsimp only; omega⟩

/-- The token that an operation presents. -/
def Operation.presents : Operation → Option Int
  | .renew fencingToken _ _ => some fencingToken
  | .commitCheckpoint fencingToken _ _ _ _ => some fencingToken
  | .release fencingToken _ _ => some fencingToken
  | _ => none

theorem announceDemand_kept {demandExpiresAtMs : Int} :
    Kept db.baton (announceDemand input nowMs demandExpiresAtMs db).1.baton ∧
      (announceDemand input nowMs demandExpiresAtMs db).1.checkpoints = db.checkpoints := by
  refine committed (P := fun db' => Kept db.baton db'.baton ∧ db'.checkpoints = db.checkpoints)
    ⟨Kept.refl _, rfl⟩ ?_
  intro db' result hbody
  obtain ⟨db₁, hreconciled, hbody⟩ := bind_eq_ok.1 hbody
  cases hbody
  obtain ⟨hkept, hcheckpoints⟩ := reconciled_kept hreconciled
  exact ⟨hkept, hcheckpoints⟩

theorem renew_kept :
    Kept db.baton (renew input fencingToken nowMs leaseExpiresAtMs db).1.baton ∧
      (renew input fencingToken nowMs leaseExpiresAtMs db).1.checkpoints = db.checkpoints := by
  refine committed (P := fun db' => Kept db.baton db'.baton ∧ db'.checkpoints = db.checkpoints)
    ⟨Kept.refl _, rfl⟩ ?_
  intro db' result hbody
  obtain ⟨expiry, hlocked, hbody⟩ := bind_eq_ok.1 hbody
  obtain ⟨_, hextends, hbody⟩ := bind_eq_ok.1 hbody
  obtain ⟨_, -, hbody⟩ := bind_eq_ok.1 hbody
  cases hbody
  obtain ⟨-, hexpiry, -⟩ := owned_of_locked hlocked
  have hlt := of_decide_eq_false (throwIf_eq_ok.1 hextends)
  exact ⟨Kept.extended hexpiry rfl (by omega) rfl rfl rfl, rfl⟩

/-- A checkpoint is written under the token of the baton, which its caller holds. -/
theorem commitCheckpoint_kept (input : StoreBinding) (db : Database)
    (fencingToken nowMs leaseExpiresAtMs : Int) (phase : String) (checkpointRef : Option String) :
    Kept db.baton
        (commitCheckpoint input fencingToken nowMs leaseExpiresAtMs phase checkpointRef db).1.baton ∧
      ((commitCheckpoint input fencingToken nowMs leaseExpiresAtMs phase checkpointRef db).1 = db ∨
        db.baton.fencingToken = fencingToken ∧
          (commitCheckpoint input fencingToken nowMs leaseExpiresAtMs phase checkpointRef
              db).1.checkpoints =
            upsertCheckpoint ⟨input.companionId, phase, checkpointRef, fencingToken, nowMs⟩
              db.checkpoints) := by
  refine committed (P := fun db' => Kept db.baton db'.baton ∧ (db' = db ∨
    db.baton.fencingToken = fencingToken ∧ db'.checkpoints =
      upsertCheckpoint ⟨input.companionId, phase, checkpointRef, fencingToken, nowMs⟩
        db.checkpoints)) ⟨Kept.refl _, .inl rfl⟩ ?_
  intro db' result hbody
  obtain ⟨expiry, hlocked, hbody⟩ := bind_eq_ok.1 hbody
  obtain ⟨_, hextends, hbody⟩ := bind_eq_ok.1 hbody
  obtain ⟨_, -, hbody⟩ := bind_eq_ok.1 hbody
  cases hbody
  obtain ⟨howned, hexpiry, -⟩ := owned_of_locked hlocked
  have hle := of_decide_eq_false (throwIf_eq_ok.1 hextends)
  exact ⟨Kept.extended hexpiry rfl (by omega) rfl rfl rfl,
    .inr ⟨(ownedBy_iff.1 howned).2.2, rfl⟩⟩

theorem release_kept (input : StoreBinding) (db : Database) (fencingToken nowMs : Int)
    (outcome : ReleaseOutcome) :
    Kept db.baton (release input fencingToken nowMs outcome db).1.baton ∧
      ((release input fencingToken nowMs outcome db).1.checkpoints = db.checkpoints ∨
        outcome = .complete ∧ (release input fencingToken nowMs outcome db).2 = .ok () ∧
          (release input fencingToken nowMs outcome db).1.checkpoints =
            Lib.Table.delete (fun row => row.companionId = input.companionId) db.checkpoints) := by
  unfold release withPostgresClient
  rcases Lib.Table.transaction_cases Database.constraints _ db with
    ⟨message, heq⟩ | ⟨db', result, hbody, -, heq⟩
  · rw [heq]
    exact ⟨Kept.refl _, .inl rfl⟩
  · rw [heq]
    obtain ⟨_, -, hbody⟩ := bind_eq_ok.1 hbody
    cases hbody
    refine ⟨Kept.of_free rfl rfl, ?_⟩
    dsimp only
    split
    · exact .inr ⟨‹_›, rfl, rfl⟩
    · exact .inl rfl

theorem requestPreemption_kept :
    Kept db.baton (requestPreemption nowMs db).1.baton ∧
      (requestPreemption nowMs db).1.checkpoints = db.checkpoints := by
  refine committed (P := fun db' => Kept db.baton db'.baton ∧ db'.checkpoints = db.checkpoints)
    ⟨Kept.refl _, rfl⟩ ?_
  intro db' result hbody
  split at hbody
  · cases hbody
    exact ⟨⟨Int.le_refl _, fun _ _ => ⟨rfl, rfl⟩, fun _ _ e he => ⟨e, he, Int.le_refl _⟩⟩, rfl⟩
  · cases hbody
    exact ⟨Kept.refl _, rfl⟩

/-- What every operation keeps of the baton. -/
theorem run_kept (input : StoreBinding) (db : Database) (operation : Operation) :
    Kept db.baton (operation.run input db).1.baton := by
  cases operation with
  | announceDemand nowMs demandExpiresAtMs => exact announceDemand_kept.1
  | tryAcquire nowMs leaseExpiresAtMs phase => exact tryAcquire_kept.1
  | renew fencingToken nowMs leaseExpiresAtMs => exact renew_kept.1
  | commitCheckpoint fencingToken nowMs leaseExpiresAtMs phase checkpointRef =>
    exact (commitCheckpoint_kept input db _ _ _ _ _).1
  | release fencingToken nowMs outcome => exact (release_kept input db _ _ _).1
  | requestPreemption nowMs => exact requestPreemption_kept.1
  | withdrawDemand => exact Kept.refl _

/-! ## Tokens that are presented -/

theorem withPostgresClient_error {α : Type} {body : Database → Except String (Database × α)}
    {message : String} (h : body db = .error message) :
    withPostgresClient body db = (db, .error message) := by
  unfold withPostgresClient Lib.Table.transaction
  rw [h]

/-- Only the baton's holder presents its token with effect. -/
theorem run_unowned (hpresents : operation.presents = some token)
    (hnot : ¬ db.baton.ownedBy input token = true) :
    operation.run input db = (db, .error FENCE_LOST) := by
  have hlock : ∀ nowMs, lockOwnedLiveLease input token nowMs db = .error FENCE_LOST := by
    intro nowMs
    unfold lockOwnedLiveLease
    rw [if_neg hnot]
  cases operation with
  | renew fencingToken nowMs leaseExpiresAtMs =>
    cases hpresents
    have hrun : renew input token nowMs leaseExpiresAtMs db = (db, .error FENCE_LOST) := by
      refine withPostgresClient_error ?_
      rw [hlock]
      rfl
    unfold Operation.run
    dsimp only
    rw [hrun]
    rfl
  | commitCheckpoint fencingToken nowMs leaseExpiresAtMs phase checkpointRef =>
    cases hpresents
    have hrun : commitCheckpoint input token nowMs leaseExpiresAtMs phase checkpointRef db =
        (db, .error FENCE_LOST) := by
      refine withPostgresClient_error ?_
      rw [hlock]
      rfl
    unfold Operation.run
    dsimp only
    rw [hrun]
    rfl
  | release fencingToken nowMs outcome =>
    cases hpresents
    have hrun : release input token nowMs outcome db = (db, .error FENCE_LOST) := by
      refine withPostgresClient_error ?_
      rw [hlock]
      rfl
    unfold Operation.run
    dsimp only
    rw [hrun]
    rfl
  | announceDemand nowMs demandExpiresAtMs => cases hpresents
  | tryAcquire nowMs leaseExpiresAtMs phase => cases hpresents
  | requestPreemption nowMs => cases hpresents
  | withdrawDemand => cases hpresents

theorem run_dead (hpresents : operation.presents = some token) (hdead : ¬ db.heldUnder token) :
    operation.run input db = (db, .error FENCE_LOST) :=
  run_unowned hpresents fun howned => hdead (heldUnder_of_owned howned)

/-! ## Checkpoints -/

/-- No checkpoint is under a token that is yet to come. -/
def Database.bounded (db : Database) : Prop :=
  ∀ row ∈ db.checkpoints, row.fencingToken ≤ db.baton.fencingToken

theorem mem_upsertCheckpoint {fresh row : CheckpointRow} {rows : List CheckpointRow}
    (h : row ∈ upsertCheckpoint fresh rows) : row = fresh ∨ row ∈ rows := by
  unfold upsertCheckpoint at h
  split at h
  · obtain ⟨old, hold, ⟨-, heq⟩ | ⟨-, heq⟩⟩ := Lib.Table.mem_update.1 h
    · exact .inl heq
    · exact .inr (heq ▸ hold)
  · rcases List.mem_append.1 h with hold | hnew
    · exact .inr hold
    · exact .inl (List.mem_singleton.1 hnew)

/-- A checkpoint is replaced by the new one of its companion, or stays. -/
theorem upsertCheckpoint_keeps {fresh row : CheckpointRow} {rows : List CheckpointRow}
    (h : row ∈ rows) : row ∈ upsertCheckpoint fresh rows ∨
      row.companionId = fresh.companionId ∧ fresh ∈ upsertCheckpoint fresh rows := by
  unfold upsertCheckpoint
  split
  · by_cases hsame : row.companionId = fresh.companionId
    · exact .inr ⟨hsame, Lib.Table.mem_update.2 ⟨row, h, .inl ⟨decide_eq_true hsame, rfl⟩⟩⟩
    · exact .inl (Lib.Table.mem_update.2 ⟨row, h, .inr ⟨decide_eq_false hsame, rfl⟩⟩)
  · exact .inl (List.mem_append_left _ h)

/-- A companion's checkpoint is deleted: it released the baton as complete. -/
def Completes (input : StoreBinding) (db : Database) (companionId : Uuid) : Operation → Prop
  | .release fencingToken nowMs .complete =>
    input.companionId = companionId ∧ (release input fencingToken nowMs .complete db).2 = .ok ()
  | _ => False

theorem run_checkpoints (operation : Operation) (hbounded : db.bounded) {row : CheckpointRow}
    (hrow : row ∈ db.checkpoints) (hnot : ¬ Completes input db row.companionId operation) :
    ∃ row' ∈ (operation.run input db).1.checkpoints,
      row'.companionId = row.companionId ∧ row.fencingToken ≤ row'.fencingToken := by
  have hsame : ∀ {rows : List CheckpointRow}, rows = db.checkpoints → ∃ row' ∈ rows,
      row'.companionId = row.companionId ∧ row.fencingToken ≤ row'.fencingToken :=
    fun heq => ⟨row, heq ▸ hrow, rfl, Int.le_refl _⟩
  cases operation with
  | announceDemand nowMs demandExpiresAtMs => exact hsame announceDemand_kept.2
  | tryAcquire nowMs leaseExpiresAtMs phase => exact hsame tryAcquire_kept.2
  | renew fencingToken nowMs leaseExpiresAtMs => exact hsame renew_kept.2
  | requestPreemption nowMs => exact hsame requestPreemption_kept.2
  | withdrawDemand => exact hsame rfl
  | commitCheckpoint fencingToken nowMs leaseExpiresAtMs phase checkpointRef =>
    have hcommit :=
      commitCheckpoint_kept input db fencingToken nowMs leaseExpiresAtMs phase checkpointRef
    rcases hcommit.2 with heq | ⟨htoken, heq⟩
    · exact hsame (congrArg Database.checkpoints heq)
    · have hle := hbounded row hrow
      show ∃ row' ∈ (commitCheckpoint input fencingToken nowMs leaseExpiresAtMs phase checkpointRef
        db).1.checkpoints, _
      rw [heq]
      rcases upsertCheckpoint_keeps hrow with hkept | ⟨hcompanion, hfresh⟩
      · exact ⟨row, hkept, rfl, Int.le_refl _⟩
      · exact ⟨_, hfresh, hcompanion.symm, by dsimp only; omega⟩
  | release fencingToken nowMs outcome =>
    rcases (release_kept input db fencingToken nowMs outcome).2 with heq | ⟨rfl, hok, heq⟩
    · exact hsame heq
    · refine ⟨row, ?_, rfl, Int.le_refl _⟩
      show row ∈ (release input fencingToken nowMs .complete db).1.checkpoints
      rw [heq]
      refine Lib.Table.mem_delete.2 ⟨hrow, decide_eq_false fun hcompanion => ?_⟩
      exact hnot ⟨hcompanion.symm, hok⟩

theorem run_bounded (operation : Operation) (hbounded : db.bounded) :
    (operation.run input db).1.bounded := by
  have htoken := (run_kept input db operation).token
  have hsame : ∀ {db' : Database}, db.baton.fencingToken ≤ db'.baton.fencingToken →
      (∀ row ∈ db'.checkpoints, row ∈ db.checkpoints) → db'.bounded :=
    fun hle hsub row hrow => Int.le_trans (hbounded row (hsub row hrow)) hle
  cases operation with
  | announceDemand nowMs demandExpiresAtMs =>
    exact hsame htoken fun row hrow => announceDemand_kept.2 ▸ hrow
  | tryAcquire nowMs leaseExpiresAtMs phase =>
    exact hsame htoken fun row hrow => tryAcquire_kept.2 ▸ hrow
  | renew fencingToken nowMs leaseExpiresAtMs =>
    exact hsame htoken fun row hrow => renew_kept.2 ▸ hrow
  | requestPreemption nowMs => exact hsame htoken fun row hrow => requestPreemption_kept.2 ▸ hrow
  | withdrawDemand => exact hbounded
  | commitCheckpoint fencingToken nowMs leaseExpiresAtMs phase checkpointRef =>
    have hcommit :=
      commitCheckpoint_kept input db fencingToken nowMs leaseExpiresAtMs phase checkpointRef
    rcases hcommit.2 with heq | ⟨hsame', heq⟩
    · exact hsame htoken fun row hrow => by rw [← heq]; exact hrow
    · intro row hrow
      rcases mem_upsertCheckpoint (heq ▸ hrow) with rfl | hold
      · exact hsame' ▸ htoken
      · exact Int.le_trans (hbounded row hold) htoken
  | release fencingToken nowMs outcome =>
    rcases (release_kept input db fencingToken nowMs outcome).2 with heq | ⟨-, -, heq⟩
    · exact hsame htoken fun row hrow => heq ▸ hrow
    · exact hsame htoken fun row hrow => (Lib.Table.mem_delete.1 (heq ▸ hrow)).1

end Operations

/-! ## Runs -/

/-- The database, and the tokens that were granted, in order. -/
structure World where
  db     : Database
  grants : List Int

/-- The token of a grant: a lease was acquired that its holder did not have. -/
def freshGrant (input : StoreBinding) (db : Database) (operation : Operation)
    (answer : Except String Answer) : List Int :=
  match operation, answer with
  | .tryAcquire nowMs _ _, .ok (.acquire (.acquired lease)) =>
    if db.holdsLive input nowMs then [] else [lease.fencingToken]
  | _, _ => []

def Operation.act (input : StoreBinding) (operation : Operation) (w : World) : World where
  db := (operation.run input w.db).1
  grants := w.grants ++ freshGrant input w.db operation (operation.run input w.db).2

/-- A call of a coordinator; a refused argument reaches nothing. -/
def Coordinator.act (fingerprint : List Uuid → String) (c : Coordinator) (call : Call)
    (w : World) : World :=
  match c.operation call with
  | .error _ => w
  | .ok operation => operation.act (c.binding fingerprint) w

/-- Calls of any coordinators in any order, as far as they are allowed. -/
def fleetSystem (fingerprint : List Uuid → String) (allowed : World → Coordinator → Call → Prop) :
    System World where
  init := ⟨Database.migrated, []⟩
  step w w' := ∃ c call, allowed w c call ∧ w' = Coordinator.act fingerprint c call w

/-- The token that a call presents. -/
def Call.presents : Call → Option Int
  | .renew lease _ _ => some lease.fencingToken
  | .commitCheckpoint lease _ _ _ _ => some lease.fencingToken
  | .release lease _ _ => some lease.fencingToken
  | _ => none

/-- A call by which the companion's checkpoint is deleted. -/
def CompletesCall (fingerprint : List Uuid → String) (db : Database) (companionId : Uuid)
    (c : Coordinator) (call : Call) : Prop :=
  ∃ operation, c.operation call = .ok operation ∧
    Completes (c.binding fingerprint) db companionId operation

section Runs

variable {fingerprint : List Uuid → String} {w t : World}
  {allowed : World → Coordinator → Call → Prop}

variable {c : Coordinator} {call : Call}

theorem presents_of_operation (h : c.operation call = .ok operation) :
    operation.presents = call.presents := by
  have hlocal : ∀ {lease : FleetMaintenanceLease} {token : Int},
      requireLocalLease c lease = .ok token → token = lease.fencingToken := by
    intro lease token htoken
    obtain ⟨_, -, htoken⟩ := bind_eq_ok.1 htoken
    obtain ⟨_, -, htoken⟩ := bind_eq_ok.1 htoken
    cases htoken
    rfl
  cases call with
  | announceDemand nowMs demandExpiresAtMs =>
    obtain ⟨_, -, h⟩ := bind_eq_ok.1 h
    cases h
    rfl
  | tryAcquire nowMs leaseExpiresAtMs phase =>
    obtain ⟨_, -, h⟩ := bind_eq_ok.1 h
    obtain ⟨_, -, h⟩ := bind_eq_ok.1 h
    cases h
    rfl
  | renew lease nowMs leaseExpiresAtMs =>
    obtain ⟨_, -, h⟩ := bind_eq_ok.1 h
    obtain ⟨_, htoken, h⟩ := bind_eq_ok.1 h
    obtain ⟨_, -, h⟩ := bind_eq_ok.1 h
    cases h
    exact congrArg some (hlocal htoken)
  | commitCheckpoint lease nowMs leaseExpiresAtMs phase checkpointRef =>
    obtain ⟨_, -, h⟩ := bind_eq_ok.1 h
    obtain ⟨_, htoken, h⟩ := bind_eq_ok.1 h
    obtain ⟨_, -, h⟩ := bind_eq_ok.1 h
    obtain ⟨_, -, h⟩ := bind_eq_ok.1 h
    obtain ⟨_, -, h⟩ := bind_eq_ok.1 h
    cases h
    exact congrArg some (hlocal htoken)
  | release lease nowMs outcome =>
    obtain ⟨_, htoken, h⟩ := bind_eq_ok.1 h
    obtain ⟨_, -, h⟩ := bind_eq_ok.1 h
    cases h
    exact congrArg some (hlocal htoken)
  | requestPreemption nowMs =>
    obtain ⟨_, -, h⟩ := bind_eq_ok.1 h
    cases h
    rfl
  | withdrawDemand =>
    cases h
    rfl

theorem act_kept (c : Coordinator) (call : Call) :
    Kept w.db.baton (c.act fingerprint call w).db.baton := by
  unfold Coordinator.act
  split
  · exact Kept.refl _
  · exact run_kept _ _ _

theorem kept_of_runs (hrun : (fleetSystem fingerprint allowed).Runs w t) :
    Kept w.db.baton t.db.baton := by
  induction hrun with
  | refl => exact Kept.refl _
  | tail _ hstep ih =>
    obtain ⟨c, call, -, rfl⟩ := hstep
    exact ih.trans (act_kept c call)

/-- Grants follow each other with higher tokens. -/
structure Granted (w : World) : Prop where
  increasing : w.grants.Pairwise (· < ·)
  before     : ∀ token ∈ w.grants, token ≤ w.db.baton.fencingToken
  bounded    : w.db.bounded

theorem freshGrant_cases (input : StoreBinding) (db : Database) (operation : Operation) :
    freshGrant input db operation (operation.run input db).2 = [] ∨
      freshGrant input db operation (operation.run input db).2 = [db.baton.fencingToken + 1] ∧
        (operation.run input db).1.baton.fencingToken = db.baton.fencingToken + 1 := by
  cases operation with
  | tryAcquire nowMs leaseExpiresAtMs phase =>
    cases hanswer : (tryAcquire input nowMs leaseExpiresAtMs phase db).2 with
    | error message =>
      left
      unfold freshGrant Operation.run
      dsimp only [Prod.map_snd]
      rw [hanswer]
      rfl
    | ok result =>
      cases result with
      | waiting reason holder next retryAtMs =>
        left
        unfold freshGrant Operation.run
        dsimp only [Prod.map_snd]
        rw [hanswer]
        rfl
      | acquired lease =>
        have heq : freshGrant input db (.tryAcquire nowMs leaseExpiresAtMs phase)
            ((Operation.tryAcquire nowMs leaseExpiresAtMs phase).run input db).2 =
              if db.holdsLive input nowMs then [] else [lease.fencingToken] := by
          unfold freshGrant Operation.run
          dsimp only [Prod.map_snd]
          rw [hanswer]
          rfl
        rw [heq]
        cases hlive : db.holdsLive input nowMs with
        | true => exact .inl rfl
        | false =>
          obtain ⟨hlease, htoken⟩ := tryAcquire_fresh hanswer hlive
          rw [hlease]
          exact .inr ⟨rfl, htoken⟩
  | announceDemand nowMs demandExpiresAtMs => exact .inl rfl
  | renew fencingToken nowMs leaseExpiresAtMs => exact .inl rfl
  | commitCheckpoint fencingToken nowMs leaseExpiresAtMs phase checkpointRef => exact .inl rfl
  | release fencingToken nowMs outcome => exact .inl rfl
  | requestPreemption nowMs => exact .inl rfl
  | withdrawDemand => exact .inl rfl

theorem granted_act (h : Granted w) (c : Coordinator) (call : Call) :
    Granted (c.act fingerprint call w) := by
  unfold Coordinator.act
  split
  · exact h
  · rename_i operation _
    have hkept := run_kept (c.binding fingerprint) w.db operation
    have hbounded : ((operation.run (c.binding fingerprint) w.db).1).bounded :=
      run_bounded operation h.bounded
    unfold Operation.act
    rcases freshGrant_cases (c.binding fingerprint) w.db operation
      with hnone | ⟨hfresh, htoken⟩
    · rw [hnone, List.append_nil]
      exact ⟨h.increasing, fun token hmem => Int.le_trans (h.before token hmem) hkept.token,
        hbounded⟩
    · rw [hfresh]
      refine ⟨List.pairwise_append.2 ⟨h.increasing, List.pairwise_singleton _ _, ?_⟩, ?_, hbounded⟩
      · intro token hmem token' hmem'
        rw [List.mem_singleton.1 hmem']
        exact Int.lt_add_one_of_le (h.before token hmem)
      · intro token hmem
        rcases List.mem_append.1 hmem with hold | hnew
        · exact Int.le_trans (h.before token hold) hkept.token
        · rw [List.mem_singleton.1 hnew]
          exact Int.le_of_eq htoken.symm

theorem granted_of_reachable (h : (fleetSystem fingerprint allowed).Reachable w) : Granted w := by
  have hinit : Granted ⟨Database.migrated, []⟩ := by
    refine ⟨List.Pairwise.nil, ?_, ?_⟩
    · intro token hmem
      exact absurd hmem List.not_mem_nil
    · intro row hmem
      exact absurd hmem List.not_mem_nil
  refine System.invariant (I := Granted) hinit ?_ h
  rintro w w' hw ⟨c, call, -, rfl⟩
  exact granted_act hw c call

theorem perform_dead (hpresents : call.presents = some token) (hdead : ¬ db.heldUnder token) :
    (c.perform fingerprint call db).1 = db := by
  unfold Coordinator.perform
  split
  · rfl
  · rename_i operation hoperation
    rw [run_dead ((presents_of_operation hoperation).trans hpresents) hdead]

theorem perform_owned {answer : Answer} (hpresents : call.presents = some token)
    (hok : (c.perform fingerprint call db).2 = .ok answer) :
    db.baton.ownedBy (c.binding fingerprint) token = true := by
  by_contra hnot
  unfold Coordinator.perform at hok
  split at hok
  · cases hok
  · rename_i operation hoperation
    rw [run_unowned ((presents_of_operation hoperation).trans hpresents) hnot] at hok
    cases hok

theorem checkpoint_of_runs (hgranted : Granted w) {row : CheckpointRow}
    (hrow : row ∈ w.db.checkpoints)
    (hrun : (fleetSystem fingerprint fun w c call =>
      ¬ CompletesCall fingerprint w.db row.companionId c call).Runs w t) :
    ∃ row' ∈ t.db.checkpoints, row'.companionId = row.companionId ∧
      row.fencingToken ≤ row'.fencingToken := by
  have hboth : Granted t ∧ ∃ row' ∈ t.db.checkpoints, row'.companionId = row.companionId ∧
      row.fencingToken ≤ row'.fencingToken := by
    induction hrun with
    | refl => exact ⟨hgranted, row, hrow, rfl, Int.le_refl _⟩
    | tail _ hstep ih =>
      obtain ⟨hgranted', row', hrow', hcompanion, hle⟩ := ih
      obtain ⟨c, call, hnot, rfl⟩ := hstep
      refine ⟨granted_act hgranted' c call, ?_⟩
      unfold Coordinator.act
      split
      · exact ⟨row', hrow', hcompanion, hle⟩
      · rename_i operation hoperation
        have hnot' : ¬ Completes (c.binding fingerprint) _ row'.companionId operation :=
          fun hcompletes => hnot ⟨operation, hoperation, hcompanion ▸ hcompletes⟩
        obtain ⟨row'', hrow'', hcompanion', hle'⟩ :=
          run_checkpoints operation hgranted'.bounded hrow' hnot'
        exact ⟨row'', hrow'', hcompanion'.trans hcompanion, Int.le_trans hle hle'⟩
  exact hboth.2

/-- **The baton is fenced**, over any run of any coordinators with any clocks: grants have ever
higher tokens, one holder at a time renews, commits or releases, a token the baton is no longer
held under changes nothing, a checkpoint's token does not decrease before the companion completes,
and a lease's deadline does not move back. -/
theorem fenced_run (fingerprint : List Uuid → String) {w : World}
    (h : (fleetSystem fingerprint fun _ _ _ => True).Reachable w) :
    (w.grants.Pairwise (· < ·) ∧ ∀ token ∈ w.grants, token ≤ w.db.baton.fencingToken) ∧
    (∀ t, (fleetSystem fingerprint fun _ _ _ => True).Runs w t →
      w.db.baton.fencingToken ≤ t.db.baton.fencingToken) ∧
    (∀ (c c' : Coordinator) call call' token token' answer answer',
      Call.presents call = some token → Call.presents call' = some token' →
      (c.perform fingerprint call w.db).2 = .ok answer →
      (c'.perform fingerprint call' w.db).2 = .ok answer' →
      c.companionId = c'.companionId ∧ c.holderInstanceId = c'.holderInstanceId ∧
        token = token') ∧
    (∀ token ∈ w.grants, ¬ w.db.heldUnder token →
      ∀ t, (fleetSystem fingerprint fun _ _ _ => True).Runs w t →
        ∀ (c : Coordinator) call, Call.presents call = some token →
          (c.perform fingerprint call t.db).1 = t.db) ∧
    (∀ row ∈ w.db.checkpoints, ∀ t, (fleetSystem fingerprint fun w c call =>
        ¬ CompletesCall fingerprint w.db row.companionId c call).Runs w t →
      ∃ row' ∈ t.db.checkpoints, row'.companionId = row.companionId ∧
        row.fencingToken ≤ row'.fencingToken) ∧
    (∀ t, (fleetSystem fingerprint fun _ _ _ => True).Runs w t →
      ∀ token, w.db.heldUnder token → t.db.heldUnder token →
        ∀ e, w.db.baton.leaseExpiresAtMs = some e →
          ∃ e', t.db.baton.leaseExpiresAtMs = some e' ∧ e ≤ e') := by
  have hgranted := granted_of_reachable h
  refine ⟨⟨hgranted.increasing, hgranted.before⟩, ?_, ?_, ?_, ?_, ?_⟩
  · intro t hrun
    exact (kept_of_runs hrun).token
  · intro c c' call call' token token' answer answer' hpresents hpresents' hok hok'
    obtain ⟨hcompanion, hinstance, htoken⟩ := ownedBy_iff.1 (perform_owned hpresents hok)
    obtain ⟨hcompanion', hinstance', htoken'⟩ := ownedBy_iff.1 (perform_owned hpresents' hok')
    rw [hcompanion] at hcompanion'
    rw [hinstance] at hinstance'
    exact ⟨Option.some.inj hcompanion', Option.some.inj hinstance', htoken.symm.trans htoken'⟩
  · intro token hmem hdead t hrun c call hpresents
    exact perform_dead hpresents ((kept_of_runs hrun).dead (hgranted.before token hmem) hdead)
  · intro row hrow t hrun
    exact checkpoint_of_runs hgranted hrow hrun
  · rintro t hrun token ⟨-, htoken⟩ ⟨hheld', htoken'⟩ e he
    exact (kept_of_runs hrun).expiry hheld' (htoken'.trans htoken.symm) e he

end Runs

def onlyCompanion : Uuid := ⟨"0b0e7a3c-5f43-4d0a-9c52-3f6f7f0a1b2c", by decide +kernel⟩

/-- The one process of a fleet of one companion. -/
def onlyCoordinator : Coordinator where
  companionId := onlyCompanion
  fleetCompanionIds := [onlyCompanion]
  holderInstanceId := ⟨"7d9f2b1e-0c6a-4e5b-8a3d-2e4c6f8091ab", by decide +kernel⟩
  unique := List.nodup_singleton _
  present := List.mem_singleton.2 rfl

def sameFingerprint (_ : List Uuid) : String :=
  "0123456789abcdef0123456789abcdef0123456789abcdef0123456789abcdef"

def announced : World :=
  onlyCoordinator.act sameFingerprint (.announceDemand 10 100) ⟨Database.migrated, []⟩

def granted : World :=
  onlyCoordinator.act sameFingerprint (.tryAcquire 20 200 "backfill") announced

theorem granted_reachable :
    (fleetSystem sameFingerprint fun _ _ _ => True).Reachable granted :=
  (Relation.ReflTransGen.single ⟨onlyCoordinator, .announceDemand 10 100, trivial, rfl⟩).tail
    ⟨onlyCoordinator, .tryAcquire 20 200 "backfill", trivial, rfl⟩

theorem fenced_run_granted :
    granted.grants = [1] ∧ ∀ token ∈ granted.grants, token ≤ granted.db.baton.fencingToken :=
  ⟨by decide +kernel, (fenced_run sameFingerprint granted_reachable).1.2⟩

end Psfn.FleetMaintenance
