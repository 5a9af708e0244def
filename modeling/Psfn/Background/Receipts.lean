import Psfn.Background.Effects

/-!
# Background work — what becomes of a receipt

A receipt that has crossed its boundary names the claim that crossed it, and no transaction
takes it back.

* `Moves` — what every transaction does to rows and receipts;
* `commitEffectBoundary_crossed` — what the answer that lets a run write means;
* `claimNext_claimed` — a claim's revision is one above the row it was taken on.
-/

namespace Psfn.Background

open Psfn.Lib

/-! ## What a transaction does to a receipt -/

/-- A later version of a receipt past its boundary. -/
structure Continues (receipt receipt' : EffectReceiptRow) : Prop where
  jobId         : receipt'.jobId = receipt.jobId
  effectKey     : receipt'.effectKey = receipt.effectKey
  leaseOwner    : receipt'.leaseOwner = receipt.leaseOwner
  leaseRevision : receipt'.leaseRevision = receipt.leaseRevision
  crossed       : receipt'.state ≠ .pending
  applied       : receipt.state = .applied → receipt'.state = .applied

theorem Continues.refl {receipt : EffectReceiptRow} (h : receipt.state ≠ .pending) :
    Continues receipt receipt := ⟨rfl, rfl, rfl, rfl, h, id⟩

theorem Continues.trans {receipt receipt' receipt'' : EffectReceiptRow}
    (h : Continues receipt receipt') (h' : Continues receipt' receipt'') :
    Continues receipt receipt'' :=
  ⟨h'.jobId.trans h.jobId, h'.effectKey.trans h.effectKey, h'.leaseOwner.trans h.leaseOwner,
    h'.leaseRevision.trans h.leaseRevision, h'.crossed, fun ha => h'.applied (h.applied ha)⟩

/-- Rows stay and their revisions do not fall; crossed receipts stay. -/
structure Moves (db db' : Database) : Prop where
  constraints : db'.constraints = true
  rows        : ∀ job ∈ db.jobs, ∃ job' ∈ db'.jobs, job'.jobId = job.jobId ∧
    job.revision ≤ job'.revision
  receipts    : ∀ receipt ∈ db.receipts, receipt.state ≠ .pending →
    ∃ receipt' ∈ db'.receipts, Continues receipt receipt'

variable {db db' : Database}

theorem Extends.moves {allowed : Update → Prop} (h : Extends allowed db db')
    (hdb : db.constraints = true) (hdb' : db'.constraints = true) : Moves db db' where
  constraints := hdb'
  receipts := fun receipt hmem hcrossed =>
    ⟨receipt, h.receipts receipt hmem hcrossed, Continues.refl hcrossed⟩
  rows := by
    intro job hjob
    obtain ⟨job', hjob', hid⟩ := h.kept job hjob
    exact ⟨job', hjob', hid, (h.toAdvances.steps hdb hjob hjob' hid).follows.revision_le⟩

/-- The rows are left alone, and each crossed receipt is continued. -/
structure ReceiptsMove (db db' : Database) : Prop where
  constraints : db'.constraints = true
  jobs        : db'.jobs = db.jobs
  receipts    : ∀ receipt ∈ db.receipts, receipt.state ≠ .pending →
    ∃ receipt' ∈ db'.receipts, Continues receipt receipt'

theorem ReceiptsMove.moves (h : ReceiptsMove db db') : Moves db db' :=
  ⟨h.constraints, fun job hjob => ⟨job, h.jobs ▸ hjob, rfl, Nat.le_refl _⟩, h.receipts⟩

theorem ReceiptsMove.refl (hdb : db.constraints = true) : ReceiptsMove db db :=
  ⟨hdb, rfl, fun receipt hmem hcrossed => ⟨receipt, hmem, Continues.refl hcrossed⟩⟩

/-- A transaction whose body, when it comes through, moves the database. -/
theorem withPostgresClient_moves {α : Type} {body : Database → Except String (Database × α)}
    (hdb : db.constraints = true)
    (h : ∀ db' a, body db = .ok (db', a) → db'.constraints = true → ReceiptsMove db db') :
    ReceiptsMove db (withPostgresClient body db).1 := by
  rcases withPostgresClient_cases body db with hsame | ⟨db', a, hbody, hvalid, hresult⟩
  · rw [hsame]
    exact ReceiptsMove.refl hdb
  · rw [hresult]
    exact h db' a hbody hvalid

/-- An update of receipts that leaves crossed ones crossed, and whose they are. -/
theorem exists_continues_update {receipts : List EffectReceiptRow}
    {cond : EffectReceiptRow → Bool} {set : EffectReceiptRow → EffectReceiptRow}
    (hset : ∀ receipt, cond receipt = true → receipt.state ≠ .pending →
      Continues receipt (set receipt))
    {receipt : EffectReceiptRow} (hmem : receipt ∈ receipts) (hcrossed : receipt.state ≠ .pending) :
    ∃ receipt' ∈ Table.update cond set receipts, Continues receipt receipt' := by
  by_cases hcond : cond receipt = true
  · exact ⟨set receipt, Table.mem_update.mpr ⟨receipt, hmem, Or.inl ⟨hcond, rfl⟩⟩,
      hset receipt hcond hcrossed⟩
  · exact ⟨receipt, Table.mem_update.mpr ⟨receipt, hmem, Or.inr ⟨by simpa using hcond, rfl⟩⟩,
      Continues.refl hcrossed⟩

variable {token : ClaimToken} {effectKey : Text} {projects : Bool}

theorem openReceipt_moves {result : BeginEffectResult} (hdb' : db'.constraints = true)
    (h : openReceipt token effectKey projects db = .ok (db', result)) : ReceiptsMove db db' := by
  unfold openReceipt at h
  split at h
  · -- a new receipt
    cases h
    exact ReceiptsMove.mk hdb' rfl fun receipt hmem hcrossed =>
      ⟨receipt, List.mem_append_left _ hmem, Continues.refl hcrossed⟩
  · split at h
    · cases h
    · split at h
      · cases h
        exact ReceiptsMove.refl hdb'
      · cases h
        exact ReceiptsMove.refl hdb'
      · split at h
        · cases h
          exact ReceiptsMove.refl hdb'
        · -- the one it takes over is pending
          cases h
          refine ReceiptsMove.mk hdb' rfl fun receipt hmem hcrossed =>
            exists_continues_update (fun receipt hcond hnot => ?_) hmem hcrossed
          simp only [Bool.and_eq_true, decide_eq_true_eq] at hcond
          exact absurd hcond.2 hnot

variable {nowMs : SafeInteger}

theorem beginEffect_moves (hdb : db.constraints = true) :
    ReceiptsMove db (beginEffect token effectKey nowMs projects db).1 := by
  refine withPostgresClient_moves hdb fun db' result hbody hvalid => ?_
  split at hbody
  · cases hbody
    exact ReceiptsMove.refl hdb
  · cases hbody
    exact ReceiptsMove.refl hdb
  · exact openReceipt_moves hvalid hbody

theorem promoteReceipt_moves (hvalid : (promoteReceipt token effectKey db).1.constraints = true) :
    ReceiptsMove db (promoteReceipt token effectKey db).1 := by
  unfold promoteReceipt at hvalid ⊢
  split
  · rename_i hany
    rw [if_pos hany] at hvalid
    refine ReceiptsMove.mk hvalid rfl fun receipt hmem hcrossed =>
      exists_continues_update (fun receipt hcond hnot => ?_) hmem hcrossed
    simp only [promotable, Bool.and_eq_true, decide_eq_true_eq] at hcond
    exact absurd hcond.1.2 hnot
  · rename_i hnone
    rw [if_neg hnone] at hvalid
    split
    · rename_i hfind
      simp only [hfind] at hvalid
      exact ReceiptsMove.refl hvalid
    · rename_i receipt hfind
      simp only [hfind] at hvalid
      split
      · rename_i hstate
        simp only [hstate] at hvalid
        exact ReceiptsMove.refl hvalid
      · rename_i hstate
        simp only [hstate] at hvalid
        exact ReceiptsMove.refl hvalid
      · rename_i hstate
        simp only [hstate] at hvalid
        exact ReceiptsMove.refl hvalid

theorem commitEffectBoundary_moves (hdb : db.constraints = true) :
    ReceiptsMove db (commitEffectBoundary token effectKey nowMs db).1 := by
  refine withPostgresClient_moves hdb fun db' result hbody hvalid => ?_
  split at hbody
  · cases hbody
    exact ReceiptsMove.refl hdb
  · cases hbody
    exact ReceiptsMove.refl hdb
  · have hpromoted : promoteReceipt token effectKey db = (db', result) := Except.ok.inj hbody
    have hfst : (promoteReceipt token effectKey db).1 = db' := by rw [hpromoted]
    rw [← hfst] at hvalid ⊢
    exact promoteReceipt_moves hvalid

theorem recordAppliedProjection_frame {job : BackgroundWorkRow}
    (h : recordAppliedProjection projects job effectKey db = .ok db') :
    db'.jobs = db.jobs ∧ db'.receipts = db.receipts := by
  unfold recordAppliedProjection at h
  split at h
  · cases h
    exact ⟨rfl, rfl⟩
  · split at h
    · cases h
      exact ⟨rfl, rfl⟩
    · split at h
      · cases h
        exact ⟨rfl, rfl⟩
      · cases h

theorem completeEffect_moves {outputRefs : Option (Except String Unit)}
    (hdb : db.constraints = true) :
    ReceiptsMove db (completeEffect token effectKey nowMs outputRefs db).1 := by
  unfold completeEffect
  split
  · exact ReceiptsMove.refl hdb
  · refine withPostgresClient_moves hdb fun db' u hbody hvalid => ?_
    obtain ⟨job, _, hbody⟩ := bind_eq_ok.mp hbody
    obtain ⟨_, _, hbody⟩ := bind_eq_ok.mp hbody
    obtain ⟨db₁, hproject, hbody⟩ := bind_eq_ok.mp hbody
    cases hbody
    obtain ⟨hjobs, hreceipts⟩ := recordAppliedProjection_frame hproject
    refine ReceiptsMove.mk hvalid hjobs fun receipt hmem hcrossed => ?_
    rw [hreceipts]
    refine exists_continues_update (fun receipt _ _ => ?_) hmem hcrossed
    exact ⟨rfl, rfl, rfl, rfl, EffectReceiptState.noConfusion, fun _ => rfl⟩

theorem abandonEffect_moves (hdb : db.constraints = true) :
    ReceiptsMove db (abandonEffect token effectKey nowMs db).1 := by
  have hvalid : (abandonEffect token effectKey nowMs db).1.constraints = true :=
    autocommit_constraints _ _ hdb
  unfold abandonEffect at hvalid ⊢
  rw [autocommit_fst] at hvalid ⊢
  split
  · rename_i hkept
    refine ReceiptsMove.mk hkept rfl fun receipt hmem hcrossed => ⟨receipt, ?_, ?_⟩
    · refine Table.mem_delete.mpr ⟨hmem, ?_⟩
      simp [promotable, hcrossed]
    · exact Continues.refl hcrossed
  · exact ReceiptsMove.refl hdb

/-! ## What the answers mean -/

/-- The receipt of a key is past its boundary, and this claim is the one that crossed. -/
def CrossedBy (db : Database) (token : ClaimToken) (effectKey : Text) : Prop :=
  ∃ receipt ∈ db.receipts, receipt.jobId = token.jobId ∧ receipt.effectKey = effectKey ∧
    receipt.leaseRevision = token.expectedRevision ∧ receipt.state ≠ .pending

theorem CrossedBy.moves (h : CrossedBy db token effectKey) (hmoves : Moves db db') :
    CrossedBy db' token effectKey := by
  obtain ⟨receipt, hmem, hjob, hkey, hrevision, hcrossed⟩ := h
  obtain ⟨receipt', hmem', hcontinues⟩ := hmoves.receipts receipt hmem hcrossed
  exact ⟨receipt', hmem', hcontinues.jobId.trans hjob, hcontinues.effectKey.trans hkey,
    hcontinues.leaseRevision.trans hrevision, hcontinues.crossed⟩

theorem promoteReceipt_crossed {result : BoundaryResult}
    (h : promoteReceipt token effectKey db = (db', result))
    (hresult : result = .crossed ∨ result = .applied) : CrossedBy db' token effectKey := by
  unfold promoteReceipt at h
  split at h
  · rename_i hany
    obtain ⟨receipt, hmem, hcond⟩ := List.any_eq_true.mp hany
    cases h
    refine ⟨{ receipt with state := .started },
      Table.mem_update.mpr ⟨receipt, hmem, Or.inl ⟨hcond, rfl⟩⟩, ?_⟩
    simp only [promotable, EffectReceiptRow.isFor, EffectReceiptRow.ownedBy, Bool.and_eq_true,
      decide_eq_true_eq] at hcond
    exact ⟨hcond.1.1.1, hcond.1.1.2, hcond.2.2, EffectReceiptState.noConfusion⟩
  · split at h
    · cases h
      rcases hresult with hresult | hresult <;> cases hresult
    · rename_i receipt hfind
      have hmem := List.mem_of_find?_eq_some hfind
      have hcond := List.find?_some hfind
      simp only [EffectReceiptRow.isFor, EffectReceiptRow.ownedBy, Bool.and_eq_true,
        decide_eq_true_eq] at hcond
      split at h
      · rename_i hstate
        cases h
        exact ⟨receipt, hmem, hcond.1.1, hcond.1.2, hcond.2.2, by rw [hstate]; decide⟩
      · rename_i hstate
        cases h
        exact ⟨receipt, hmem, hcond.1.1, hcond.1.2, hcond.2.2, by rw [hstate]; decide⟩
      · cases h
        rcases hresult with hresult | hresult <;> cases hresult

theorem commitEffectBoundary_crossed {result : BoundaryResult}
    (h : commitEffectBoundary token effectKey nowMs db = (db', .ok result))
    (hresult : result = .crossed ∨ result = .applied) : CrossedBy db' token effectKey := by
  unfold commitEffectBoundary withPostgresClient at h
  split at h
  · rename_i db₁ answer hbody
    split at h
    · cases h
      dsimp only at hbody
      split at hbody
      · cases hbody
        rcases hresult with hresult | hresult <;> cases hresult
      · cases hbody
        rcases hresult with hresult | hresult <;> cases hresult
      · exact promoteReceipt_crossed (Except.ok.inj hbody) hresult
    · cases h
  · cases h

theorem mapRow_eq {row mapped : BackgroundWorkRow} (h : mapRow row = .ok mapped) :
    mapped = row := by
  unfold mapRow at h
  obtain ⟨_, _, h⟩ := bind_eq_ok.mp h
  obtain ⟨_, _, h⟩ := bind_eq_ok.mp h
  obtain ⟨_, _, h⟩ := bind_eq_ok.mp h
  obtain ⟨_, _, h⟩ := bind_eq_ok.mp h
  obtain ⟨_, _, h⟩ := bind_eq_ok.mp h
  obtain ⟨_, _, h⟩ := bind_eq_ok.mp h
  obtain ⟨_, _, h⟩ := bind_eq_ok.mp h
  obtain ⟨_, _, h⟩ := bind_eq_ok.mp h
  obtain ⟨_, _, h⟩ := bind_eq_ok.mp h
  exact (Except.ok.inj h).symm

theorem mapClaimedRow_eq {row mapped : BackgroundWorkRow} (h : mapClaimedRow row = .ok mapped) :
    mapped = row := by
  unfold mapClaimedRow at h
  obtain ⟨mapped', hmapped, h⟩ := bind_eq_ok.mp h
  obtain ⟨_, _, h⟩ := bind_eq_ok.mp h
  rw [← Except.ok.inj h]
  exact mapRow_eq hmapped

/-- A claim's revision is one above the row it was taken on. -/
theorem claimLoop_claimed {input : ClaimInput} {busy : List Text}
    {candidates : List ClaimCandidate} : ∀ {db db' : Database} {claimed : BackgroundWorkRow},
      claimLoop input busy db candidates = .ok (db', some claimed) →
        claimed ∈ db'.jobs ∧ ∃ job ∈ db.jobs, claimed.jobId = job.jobId ∧
          claimed.revision = job.revision + 1 := by
  induction candidates with
  | nil =>
    intro db db' claimed h
    cases h
  | cons candidate candidates ih =>
    intro db db' claimed h
    simp only [claimLoop] at h
    split at h
    · exact ih h
    · split at h
      · -- the expired foreground leases are gone; the jobs are the same
        have hrest := ih h
        exact hrest
      · rename_i job hfind
        obtain ⟨row, hmapped, h⟩ := bind_eq_ok.mp h
        cases h
        have hrow := mapClaimedRow_eq hmapped
        have hmem := List.mem_of_find?_eq_some hfind
        refine ⟨?_, job, hmem, by rw [hrow]; rfl, by rw [hrow]; rfl⟩
        rw [hrow]
        exact Table.mem_update.mpr ⟨job, hmem, Or.inl ⟨List.find?_some hfind, rfl⟩⟩

theorem claimNext_claimed {input : ClaimInput} {busy : List Text} {seen : Database}
    {claimed : BackgroundWorkRow} (h : claimNext input busy seen db = (db', .ok (some claimed))) :
    claimed ∈ db'.jobs ∧ ∃ job ∈ db.jobs, claimed.jobId = job.jobId ∧
      claimed.revision = job.revision + 1 := by
  unfold claimNext withPostgresClient at h
  split at h
  · rename_i db₁ answer hbody
    split at h
    · cases h
      exact claimLoop_claimed hbody
    · cases h
  · cases h

end Psfn.Background
