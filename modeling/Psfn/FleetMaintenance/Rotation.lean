import Psfn.FleetMaintenance.Fencing

/-!
# The baton rotates

Under one manifest the free baton goes to the live demand that comes next after the ordinal that was
served last, around the manifest. The ordinal moves on a complete release, to a companion that came
before every waiting one; so a waiting companion stays ahead of the one that was served before it.

* `nextDemand_spec` — the demand that is served is the nearest of the live ones;
* `run_moves` — what an operation does to the holder and to the ordinal;
* `waiting_run` — the run lemma: while a companion waits, it stays ahead;
* `rotation_run` — between two grants to one companion every waiting companion is granted.
-/

namespace Psfn.FleetMaintenance

open Lib (Uuid System bind_eq_ok throwIf_eq_ok)

/-! ## Distances -/

/-- How far an ordinal comes after the one that was served last. -/
def ordinalDistance (last : Int) (size : Nat) (ordinal : Nat) : Int :=
  if last < ordinal then ordinal - last else ordinal + size - last

theorem servingDistance_eq (last : Int) (size : Nat) (row : DemandRow) :
    servingDistance last size row = ordinalDistance last size row.manifestOrdinal := rfl

variable {size a b : Nat}

/-- **An ordinal that is served stays behind those that were ahead of others.** -/
theorem ordinalDistance_served {last : Int} {served : Nat} (hlast : -1 ≤ last)
    (hbound : last < size) (ha : a < size) (hb : b < size) (hserved : served < size)
    (hahead : ordinalDistance last size a < ordinalDistance last size b)
    (hfirst : ordinalDistance last size served < ordinalDistance last size a) :
    ordinalDistance served size a < ordinalDistance served size b := by
  unfold ordinalDistance at *
  split at hahead <;> split at hahead <;> split at hfirst <;> split <;> split <;> omega

/-- The ordinal that was just served is last. -/
theorem ordinalDistance_self (ha : a < size) (hb : b < size) (hne : a ≠ b) :
    ordinalDistance b size a < ordinalDistance b size b := by
  unfold ordinalDistance
  split <;> split <;> omega

theorem ordinalDistance_inj {last : Int} (hlast : -1 ≤ last) (hbound : last < size) (ha : a < size)
    (hb : b < size) (h : ordinalDistance last size a = ordinalDistance last size b) : a = b := by
  unfold ordinalDistance at h
  split at h <;> split at h <;> omega

/-- The first of the nearest. -/
theorem foldl_nearest {α : Type} (distance : α → Int) (rows : List α) (start : Option α) {row : α}
    (h : rows.foldl (fun first row =>
      if first.all fun first => distance row < distance first then some row else first) start =
        some row) :
    (row ∈ rows ∨ start = some row) ∧ (∀ other ∈ rows, distance row ≤ distance other) ∧
      ∀ other, start = some other → distance row ≤ distance other := by
  induction rows generalizing start with
  | nil =>
    refine ⟨.inr h, fun other hmem => absurd hmem List.not_mem_nil, fun other hother => ?_⟩
    rw [List.foldl_nil, hother] at h
    cases h
    exact Int.le_refl _
  | cons first rest ih =>
    rw [List.foldl_cons] at h
    obtain ⟨hfound, hnearest, hstart⟩ := ih _ h
    cases hnearer : start.all fun other => distance first < distance other with
    | true =>
      rw [hnearer, if_pos rfl] at hfound hstart
      have hfirst := hstart first rfl
      refine ⟨?_, fun other hmem => ?_, fun other hother => ?_⟩
      · rcases hfound with hrest | hsame
        · exact .inl (List.mem_cons_of_mem _ hrest)
        · cases hsame
          exact .inl List.mem_cons_self
      · rcases List.mem_cons.1 hmem with rfl | hmem
        · exact hfirst
        · exact hnearest other hmem
      · rw [hother] at hnearer
        exact Int.le_trans hfirst (Int.le_of_lt (of_decide_eq_true hnearer))
    | false =>
      rw [hnearer, if_neg Bool.false_ne_true] at hfound hstart
      cases start with
      | none => cases hnearer
      | some other =>
        have hother := hstart other rfl
        have hfarther : ¬ distance first < distance other := of_decide_eq_false hnearer
        refine ⟨?_, fun next hmem => ?_, fun next hnext => ?_⟩
        · exact hfound.imp_left (List.mem_cons_of_mem _)
        · rcases List.mem_cons.1 hmem with rfl | hmem
          · omega
          · exact hnearest next hmem
        · cases hnext
          exact hother

/-! ## One manifest -/

/-- Every caller names the manifest, or none has called yet. -/
structure Manifested (fingerprint : List Uuid → String) (manifest : List Uuid) (db : Database) :
    Prop where
  baton   : db.baton.manifestFingerprint = some (fingerprint manifest) ∨
    db.baton.holderCompanionId = none ∧ db.baton.lastServedOrdinal = -1 ∧ db.demands = []
  demands : ∀ row ∈ db.demands, row.manifestFingerprint = fingerprint manifest ∧
    row.manifestOrdinal = manifest.idxOf row.companionId ∧ row.companionId ∈ manifest
  served  : -1 ≤ db.baton.lastServedOrdinal ∧ db.baton.lastServedOrdinal < manifest.length

/-- The demand of the input's companion is the nearest of the live ones. -/
def GrantedBy (input : StoreBinding) (nowMs : Int) (db : Database) : Prop :=
  ∃ row ∈ db.demands, row.companionId = input.companionId ∧ nowMs < row.readyUntilMs ∧
    ∀ other ∈ db.demands, other.manifestFingerprint = input.manifestFingerprint →
      nowMs < other.readyUntilMs →
        servingDistance db.baton.lastServedOrdinal input.fleetSize row ≤
          servingDistance db.baton.lastServedOrdinal input.fleetSize other

/-- What an operation does to the token, the holder and the ordinal that was served last. -/
inductive Moves (input : StoreBinding) (operation : Operation) (db db' : Database) : Prop
  | stays (htoken : db'.baton.fencingToken = db.baton.fencingToken)
      (hholder : db'.baton.holderCompanionId = db.baton.holderCompanionId ∨
        db'.baton.holderCompanionId = none)
      (hserved : db'.baton.lastServedOrdinal = db.baton.lastServedOrdinal)
  | grants (nowMs leaseExpiresAtMs : Int) (phase : String)
      (hoperation : operation = .tryAcquire nowMs leaseExpiresAtMs phase)
      (hgranted : GrantedBy input nowMs db)
      (htoken : db'.baton.fencingToken = db.baton.fencingToken + 1)
      (hholder : db'.baton.holderCompanionId = some input.companionId)
      (hserved : db'.baton.lastServedOrdinal = db.baton.lastServedOrdinal)
  | completes (htoken : db'.baton.fencingToken = db.baton.fencingToken)
      (hholder : db.baton.holderCompanionId = some input.companionId)
      (hfree : db'.baton.holderCompanionId = none)
      (hserved : db'.baton.lastServedOrdinal = input.manifestOrdinal)

/-- An operation of a coordinator of the manifest. -/
def Turn (fingerprint : List Uuid → String) (manifest : List Uuid) (c : Coordinator)
    (operation : Operation) (db db' : Database) : Prop :=
  Manifested fingerprint manifest db' ∧ Moves (c.binding fingerprint) operation db db'

/-- The clock reading that an operation is given. -/
def Operation.nowMs : Operation → Option Int
  | .announceDemand nowMs _ => some nowMs
  | .tryAcquire nowMs _ _ => some nowMs
  | .renew _ nowMs _ => some nowMs
  | .commitCheckpoint _ nowMs _ _ _ => some nowMs
  | .release _ nowMs _ => some nowMs
  | .requestPreemption nowMs => some nowMs
  | .withdrawDemand => none

variable {input : StoreBinding} {leaseExpiresAtMs : Int} {phase : String} {operation : Operation}

section Operations

variable {fingerprint : List Uuid → String} {manifest : List Uuid} {c : Coordinator}
  {db db' : Database} {nowMs : Int}

theorem nextDemand_spec {row : DemandRow} (h : nextDemand input nowMs db = some row) :
    row ∈ db.demands ∧ nowMs < row.readyUntilMs ∧
      ∀ other ∈ db.demands, other.manifestFingerprint = input.manifestFingerprint →
        nowMs < other.readyUntilMs →
          servingDistance db.baton.lastServedOrdinal input.fleetSize row ≤
            servingDistance db.baton.lastServedOrdinal input.fleetSize other := by
  obtain ⟨hfound, hnearest, -⟩ := foldl_nearest _ _ none h
  obtain ⟨hmem, hready⟩ := List.mem_filter.1 (hfound.resolve_right nofun)
  rw [Bool.and_eq_true, decide_eq_true_eq, decide_eq_true_eq] at hready
  refine ⟨hmem, hready.2, fun other hother hsame hlive => hnearest other ?_⟩
  rw [List.mem_filter, Bool.and_eq_true, decide_eq_true_eq, decide_eq_true_eq]
  exact ⟨hother, hsame, hlive⟩

/-- Under the manifest nothing is reconciled but the first call. -/
theorem Manifested.reconciled (h : Manifested fingerprint manifest db)
    (hc : c.fleetCompanionIds = manifest)
    (hok : lockAndReconcileManifest (c.binding fingerprint) nowMs db = .ok db') :
    Manifested fingerprint manifest db' ∧
      db'.baton.manifestFingerprint = some (fingerprint manifest) ∧ db'.demands = db.demands ∧
      db'.baton.lastServedOrdinal = db.baton.lastServedOrdinal ∧
      db'.baton.holderCompanionId = db.baton.holderCompanionId ∧
      db'.baton.fencingToken = db.baton.fencingToken := by
  have hinput : (c.binding fingerprint).manifestFingerprint = fingerprint manifest := by
    rw [← hc]
    rfl
  unfold lockAndReconcileManifest at hok
  split at hok
  · rename_i hsame
    obtain ⟨_, -, hok⟩ := bind_eq_ok.1 hok
    cases hok
    rw [hinput] at hsame
    exact ⟨h, hsame, rfl, rfl, rfl, rfl⟩
  · rename_i hother
    rw [hinput] at hother
    obtain ⟨hfree, hfirst, hempty⟩ := h.baton.resolve_left hother
    obtain ⟨_, -, hok⟩ := bind_eq_ok.1 hok
    obtain ⟨_, -, hok⟩ := bind_eq_ok.1 hok
    cases hok
    have hfingerprint := congrArg some hinput
    have hserved := h.served
    rw [hfirst] at hserved
    exact ⟨⟨.inl hfingerprint, fun row hrow => absurd hrow List.not_mem_nil, hserved⟩, hfingerprint,
      hempty.symm, hfirst.symm, hfree.symm, rfl⟩

theorem clearExpired_demands (db : Database) (nowMs : Int) (holderExpiry : Option Int) :
    (clearExpired nowMs holderExpiry db).demands = db.demands ∧
      (clearExpired nowMs holderExpiry db).baton.manifestFingerprint =
        db.baton.manifestFingerprint ∧
      (clearExpired nowMs holderExpiry db).baton.lastServedOrdinal = db.baton.lastServedOrdinal ∧
      ((clearExpired nowMs holderExpiry db).baton.holderCompanionId =
        db.baton.holderCompanionId ∨
        (clearExpired nowMs holderExpiry db).baton.holderCompanionId = none) := by
  unfold clearExpired
  split
  · exact ⟨rfl, rfl, rfl, .inr rfl⟩
  · exact ⟨rfl, rfl, rfl, .inl rfl⟩

/-- What is done with the baton: nothing, or a grant to the nearest demand. -/
theorem acquireBaton_moves {holderExpiry : Option Int} {result : AcquireResult}
    (h : acquireBaton input nowMs leaseExpiresAtMs phase holderExpiry db = .ok (db', result)) :
    db' = db ∨ GrantedBy input nowMs db ∧ db'.demands = db.demands ∧
      db'.baton.manifestFingerprint = db.baton.manifestFingerprint ∧
      db'.baton.lastServedOrdinal = db.baton.lastServedOrdinal ∧
      db'.baton.holderCompanionId = some input.companionId ∧
      db'.baton.fencingToken = db.baton.fencingToken + 1 := by
  unfold acquireBaton at h
  split at h
  · split at h
    · obtain ⟨_, -, h⟩ := bind_eq_ok.1 h
      cases h
      exact .inl rfl
    · cases h
      exact .inl rfl
  · split at h
    · cases h
      exact .inl rfl
    · rename_i candidate hcandidate
      split at h
      · cases h
        exact .inl rfl
      · rename_i hmine
        obtain ⟨hmem, hlive, hnearest⟩ := nextDemand_spec hcandidate
        obtain ⟨_, -, h⟩ := bind_eq_ok.1 h
        cases h
        exact .inr ⟨⟨candidate, hmem, not_not.1 hmine, hlive, hnearest⟩, rfl, rfl, rfl, rfl, rfl⟩

/-- The manifest, with other demands of its companions. -/
theorem Manifested.demanded (h : Manifested fingerprint manifest db)
    (hfingerprint : db'.baton.manifestFingerprint = some (fingerprint manifest))
    (hdemands : ∀ row ∈ db'.demands, row ∈ db.demands ∨
      row.manifestFingerprint = fingerprint manifest ∧
        row.manifestOrdinal = manifest.idxOf row.companionId ∧ row.companionId ∈ manifest)
    (hserved : db'.baton.lastServedOrdinal = db.baton.lastServedOrdinal) :
    Manifested fingerprint manifest db' := by
  refine ⟨.inl hfingerprint, fun row hrow => ?_, ?_⟩
  · exact (hdemands row hrow).elim (h.demands row) id
  · rw [hserved]
    exact h.served

theorem tryAcquire_moves (h : Manifested fingerprint manifest db)
    (hc : c.fleetCompanionIds = manifest) (leaseExpiresAtMs : Int) (phase : String) :
    Turn fingerprint manifest c (.tryAcquire nowMs leaseExpiresAtMs phase) db
      (tryAcquire (c.binding fingerprint) nowMs leaseExpiresAtMs phase db).1 := by
  refine committed (P := Turn fingerprint manifest c (.tryAcquire nowMs leaseExpiresAtMs phase) db)
    ⟨h, .stays rfl (.inl rfl) rfl⟩ ?_
  intro db' result hbody
  obtain ⟨db₁, hreconciled, hbody⟩ := bind_eq_ok.1 hbody
  obtain ⟨holderExpiry, -, hbody⟩ := bind_eq_ok.1 hbody
  obtain ⟨-, hfingerprint, hdemands, hserved, hholder, htoken⟩ := h.reconciled hc hreconciled
  obtain ⟨hdemands', hfingerprint', hserved', hholder'⟩ :=
    clearExpired_demands db₁ nowMs holderExpiry
  have htoken' := (clearExpired_kept db₁ nowMs holderExpiry).2.2
  rw [hdemands] at hdemands'
  rw [hfingerprint] at hfingerprint'
  rw [hserved] at hserved'
  rw [hholder] at hholder'
  rw [htoken] at htoken'
  rcases acquireBaton_moves hbody with rfl |
    ⟨hgranted, hdemands₂, hfingerprint₂, hserved₂, hholder₂, htoken₂⟩
  · refine ⟨h.demanded hfingerprint' (fun row hrow => .inl ?_) hserved',
      .stays htoken' hholder' hserved'⟩
    rw [← hdemands']
    exact hrow
  · have hgranted' : GrantedBy (c.binding fingerprint) nowMs db := by
      unfold GrantedBy at hgranted ⊢
      rw [hdemands', hserved'] at hgranted
      exact hgranted
    rw [htoken'] at htoken₂
    refine ⟨h.demanded (hfingerprint₂.trans hfingerprint') (fun row hrow => .inl ?_)
      (hserved₂.trans hserved'),
      .grants nowMs leaseExpiresAtMs phase rfl hgranted' htoken₂ hholder₂ (hserved₂.trans hserved')⟩
    rw [← hdemands', ← hdemands₂]
    exact hrow

theorem mem_upsertDemand {demandExpiresAtMs : Int} {rows : List DemandRow} {row : DemandRow}
    (h : row ∈ upsertDemand input nowMs demandExpiresAtMs rows) :
    row ∈ rows ∨ row.companionId = input.companionId ∧
      row.manifestFingerprint = input.manifestFingerprint ∧
        row.manifestOrdinal = input.manifestOrdinal := by
  unfold upsertDemand at h
  dsimp only at h
  split at h
  · obtain ⟨old, hold, ⟨-, rfl⟩ | ⟨-, rfl⟩⟩ := Lib.Table.mem_update.1 h
    · exact .inr ⟨rfl, rfl, rfl⟩
    · exact .inl hold
  · rcases List.mem_append.1 h with hold | hnew
    · exact .inl hold
    · rw [List.mem_singleton.1 hnew]
      exact .inr ⟨rfl, rfl, rfl⟩

/-- The holder's manifest is the baton's. -/
theorem Manifested.held (h : Manifested fingerprint manifest db)
    (hheld : db.baton.holderCompanionId.isSome = true) :
    db.baton.manifestFingerprint = some (fingerprint manifest) := by
  refine h.baton.resolve_right fun hfree => ?_
  rw [hfree.1] at hheld
  cases hheld

/-- The demands of an announcement. -/
theorem announceDemand_moves (h : Manifested fingerprint manifest db)
    (hc : c.fleetCompanionIds = manifest) (demandExpiresAtMs : Int) :
    Turn fingerprint manifest c (.announceDemand nowMs demandExpiresAtMs) db
      (announceDemand (c.binding fingerprint) nowMs demandExpiresAtMs db).1 := by
  refine committed (P := Turn fingerprint manifest c (.announceDemand nowMs demandExpiresAtMs) db)
    ⟨h, .stays rfl (.inl rfl) rfl⟩ ?_
  intro db' result hbody
  obtain ⟨db₁, hreconciled, hbody⟩ := bind_eq_ok.1 hbody
  cases hbody
  obtain ⟨hmanifested, hfingerprint, -, hserved, hholder, htoken⟩ := h.reconciled hc hreconciled
  refine ⟨hmanifested.demanded hfingerprint (fun row hrow => ?_) rfl,
    .stays htoken (.inl hholder) hserved⟩
  refine (mem_upsertDemand hrow).imp_right fun hnew => ?_
  obtain ⟨hcompanion, hfingerprint, hordinal⟩ := hnew
  rw [hcompanion, hfingerprint, hordinal, ← hc]
  exact ⟨rfl, rfl, c.present⟩

/-- The owner of the lease writes what leaves the holder, the token and the demands. -/
theorem Manifested.owned {fencingToken expiry : Int} (h : Manifested fingerprint manifest db)
    (hlocked : lockOwnedLiveLease (c.binding fingerprint) fencingToken nowMs db = .ok expiry)
    (hfingerprint : db'.baton.manifestFingerprint = db.baton.manifestFingerprint)
    (hdemands : db'.demands = db.demands) (htoken : db'.baton.fencingToken = db.baton.fencingToken)
    (hholder : db'.baton.holderCompanionId = db.baton.holderCompanionId)
    (hserved : db'.baton.lastServedOrdinal = db.baton.lastServedOrdinal) :
    Turn fingerprint manifest c operation db db' := by
  have hheld := h.held (heldUnder_of_owned (owned_of_locked hlocked).1).1
  refine ⟨h.demanded (hfingerprint.trans hheld) (fun row hrow => .inl ?_) hserved,
    .stays htoken (.inl hholder) hserved⟩
  rw [← hdemands]
  exact hrow

theorem renew_moves (h : Manifested fingerprint manifest db) (fencingToken leaseExpiresAtMs : Int) :
    Turn fingerprint manifest c (.renew fencingToken nowMs leaseExpiresAtMs) db
      (renew (c.binding fingerprint) fencingToken nowMs leaseExpiresAtMs db).1 := by
  refine committed (P := Turn fingerprint manifest c
    (.renew fencingToken nowMs leaseExpiresAtMs) db)
    ⟨h, .stays rfl (.inl rfl) rfl⟩ ?_
  intro db' result hbody
  obtain ⟨expiry, hlocked, hbody⟩ := bind_eq_ok.1 hbody
  obtain ⟨_, -, hbody⟩ := bind_eq_ok.1 hbody
  obtain ⟨_, -, hbody⟩ := bind_eq_ok.1 hbody
  cases hbody
  exact h.owned hlocked rfl rfl rfl rfl rfl

theorem commitCheckpoint_moves (h : Manifested fingerprint manifest db)
    (fencingToken leaseExpiresAtMs : Int) (phase : String) (checkpointRef : Option String) :
    Turn fingerprint manifest c
      (.commitCheckpoint fencingToken nowMs leaseExpiresAtMs phase checkpointRef) db
      (commitCheckpoint (c.binding fingerprint) fencingToken nowMs leaseExpiresAtMs phase
        checkpointRef db).1 := by
  refine committed (P := Turn fingerprint manifest c
    (.commitCheckpoint fencingToken nowMs leaseExpiresAtMs phase checkpointRef) db)
    ⟨h, .stays rfl (.inl rfl) rfl⟩ ?_
  intro db' result hbody
  obtain ⟨expiry, hlocked, hbody⟩ := bind_eq_ok.1 hbody
  obtain ⟨_, -, hbody⟩ := bind_eq_ok.1 hbody
  obtain ⟨_, -, hbody⟩ := bind_eq_ok.1 hbody
  cases hbody
  exact h.owned hlocked rfl rfl rfl rfl rfl

/-- A release frees the baton; only a complete one moves the ordinal. -/
theorem release_moves (h : Manifested fingerprint manifest db)
    (hc : c.fleetCompanionIds = manifest) (fencingToken : Int) (outcome : ReleaseOutcome) :
    Turn fingerprint manifest c (.release fencingToken nowMs outcome) db
      (release (c.binding fingerprint) fencingToken nowMs outcome db).1 := by
  refine committed (P := Turn fingerprint manifest c (.release fencingToken nowMs outcome) db)
    ⟨h, .stays rfl (.inl rfl) rfl⟩ ?_
  intro db' result hbody
  obtain ⟨expiry, hlocked, hbody⟩ := bind_eq_ok.1 hbody
  cases hbody
  have howned := (owned_of_locked hlocked).1
  have hfingerprint := h.held (heldUnder_of_owned howned).1
  have hdemands : ∀ row ∈ Lib.Table.delete
      (fun row : DemandRow => row.companionId = (c.binding fingerprint).companionId) db.demands,
      row ∈ db.demands := fun row hrow => (Lib.Table.mem_delete.1 hrow).1
  cases outcome with
  | yield =>
    exact ⟨h.demanded hfingerprint (fun row hrow => .inl (hdemands row hrow)) rfl,
      .stays rfl (.inr rfl) rfl⟩
  | complete =>
    refine ⟨⟨.inl hfingerprint, fun row hrow => h.demands row (hdemands row hrow), ?_⟩,
      .completes rfl (ownedBy_iff.1 howned).1 rfl rfl⟩
    have hbound := List.idxOf_lt_length_of_mem c.present
    rw [hc] at hbound
    have hordinal : (c.binding fingerprint).manifestOrdinal = manifest.idxOf c.companionId := by
      rw [← hc]
      rfl
    dsimp only
    rw [if_pos rfl, hordinal]
    omega

theorem requestPreemption_moves (h : Manifested fingerprint manifest db) :
    Turn fingerprint manifest c (.requestPreemption nowMs) db (requestPreemption nowMs db).1 := by
  refine committed (P := Turn fingerprint manifest c (.requestPreemption nowMs) db)
    ⟨h, .stays rfl (.inl rfl) rfl⟩ ?_
  intro db' result hbody
  split at hbody
  · rename_i hheld
    cases hbody
    rw [Bool.and_eq_true, Bool.and_eq_true] at hheld
    exact ⟨h.demanded (h.held hheld.1.1) (fun row hrow => .inl hrow) rfl,
      .stays rfl (.inl rfl) rfl⟩
  · cases hbody
    exact ⟨h, .stays rfl (.inl rfl) rfl⟩

theorem withdrawDemand_moves (h : Manifested fingerprint manifest db) :
    Turn fingerprint manifest c .withdrawDemand db
      (withdrawDemand (c.binding fingerprint) db).1 := by
  refine ⟨⟨h.baton.imp_right fun hfree => ⟨hfree.1, hfree.2.1, ?_⟩, fun row hrow =>
    h.demands row (Lib.Table.mem_delete.1 hrow).1, h.served⟩, .stays rfl (.inl rfl) rfl⟩
  show Lib.Table.delete _ db.demands = []
  rw [hfree.2.2]
  rfl

/-- **What an operation does under the manifest.** -/
theorem run_moves (h : Manifested fingerprint manifest db) (hc : c.fleetCompanionIds = manifest)
    (operation : Operation) :
    Turn fingerprint manifest c operation db (operation.run (c.binding fingerprint) db).1 := by
  cases operation with
  | announceDemand nowMs demandExpiresAtMs => exact announceDemand_moves h hc demandExpiresAtMs
  | tryAcquire nowMs leaseExpiresAtMs phase => exact tryAcquire_moves h hc leaseExpiresAtMs phase
  | renew fencingToken nowMs leaseExpiresAtMs => exact renew_moves h fencingToken leaseExpiresAtMs
  | commitCheckpoint fencingToken nowMs leaseExpiresAtMs phase checkpointRef =>
    exact commitCheckpoint_moves h fencingToken leaseExpiresAtMs phase checkpointRef
  | release fencingToken nowMs outcome => exact release_moves h hc fencingToken outcome
  | requestPreemption nowMs => exact requestPreemption_moves h
  | withdrawDemand => exact withdrawDemand_moves h

end Operations

/-! ## Calls -/

/-- The clock reading that a call is given. -/
def Call.nowMs : Call → Option Int
  | .announceDemand nowMs _ => some nowMs
  | .tryAcquire nowMs _ _ => some nowMs
  | .renew _ nowMs _ => some nowMs
  | .commitCheckpoint _ nowMs _ _ _ => some nowMs
  | .release _ nowMs _ => some nowMs
  | .requestPreemption nowMs => some nowMs
  | .withdrawDemand => none

/-- The token of the lease that an answer says was acquired. -/
def acquiredToken : Except String Answer → Option Int
  | .ok (.acquire (.acquired lease)) => some lease.fencingToken
  | _ => none

/-- The call acquires a lease under the next token. -/
def Grants (fingerprint : List Uuid → String) (c : Coordinator) (call : Call) (db : Database) :
    Prop :=
  acquiredToken (c.perform fingerprint call db).2 = some (db.baton.fencingToken + 1)

/-- The companion has a demand that is live at the time. -/
def LiveAt (db : Database) (companionId : Uuid) (nowMs : Int) : Prop :=
  ∃ row ∈ db.demands, row.companionId = companionId ∧ nowMs < row.readyUntilMs

/-- The database after calls of coordinators. -/
def after (fingerprint : List Uuid → String) (events : List (Coordinator × Call)) (db : Database) :
    Database :=
  events.foldl (fun db event => (event.1.perform fingerprint event.2 db).1) db

/-- At every call the companion's demand is live, until the companion is granted the baton: the
release that follows deletes the demand. -/
def LiveUntilGranted (fingerprint : List Uuid → String) (companionId : Uuid) :
    List (Coordinator × Call) → Database → Prop
  | [], _ => True
  | event :: rest, db => (∀ now, event.2.nowMs = some now → LiveAt db companionId now) ∧
      (¬ (event.1.companionId = companionId ∧ Grants fingerprint event.1 event.2 db) →
        LiveUntilGranted fingerprint companionId rest (event.1.perform fingerprint event.2 db).1)

/-- By one of the calls the companion is granted the baton. -/
def GrantedIn (fingerprint : List Uuid → String) (companionId : Uuid) :
    List (Coordinator × Call) → Database → Prop
  | [], _ => False
  | event :: rest, db => event.1.companionId = companionId ∧ Grants fingerprint event.1 event.2 db ∨
      GrantedIn fingerprint companionId rest (event.1.perform fingerprint event.2 db).1

/-- The companion comes before the other one, and the holder before it. -/
structure Ahead (manifest : List Uuid) (waiting other : Uuid) (db : Database) : Prop where
  other  : ordinalDistance db.baton.lastServedOrdinal manifest.length (manifest.idxOf waiting) <
    ordinalDistance db.baton.lastServedOrdinal manifest.length (manifest.idxOf other)
  holder : ∀ holder, db.baton.holderCompanionId = some holder →
    holder ∈ manifest ∧
      ordinalDistance db.baton.lastServedOrdinal manifest.length (manifest.idxOf holder) <
        ordinalDistance db.baton.lastServedOrdinal manifest.length (manifest.idxOf waiting)

variable {nowMs : Int}

section Calls

variable {fingerprint : List Uuid → String} {manifest : List Uuid} {c : Coordinator}
  {db db' : Database} {call : Call}

theorem nowMs_of_operation (h : c.operation call = .ok operation) :
    operation.nowMs = call.nowMs := by
  have htimestamp : ∀ {value time : Int} {field : String},
      TaskScheduler.requireTimestamp value field = .ok time → time = value := by
    intro value time field htime
    obtain ⟨_, -, htime⟩ := bind_eq_ok.1 htime
    cases htime
    rfl
  have hwindow : ∀ {now deadline : Int} {window : Int × Int} {field : String},
      requireWindow now deadline field = .ok window → window.1 = now := by
    intro now deadline window field h
    obtain ⟨_, htime, h⟩ := bind_eq_ok.1 h
    obtain ⟨_, -, h⟩ := bind_eq_ok.1 h
    cases h
    exact htimestamp htime
  cases call with
  | announceDemand nowMs demandExpiresAtMs =>
    obtain ⟨_, htime, h⟩ := bind_eq_ok.1 h
    cases h
    exact congrArg some (hwindow htime)
  | tryAcquire nowMs leaseExpiresAtMs phase =>
    obtain ⟨_, htime, h⟩ := bind_eq_ok.1 h
    obtain ⟨_, -, h⟩ := bind_eq_ok.1 h
    cases h
    exact congrArg some (hwindow htime)
  | renew lease nowMs leaseExpiresAtMs =>
    obtain ⟨_, htime, h⟩ := bind_eq_ok.1 h
    obtain ⟨_, -, h⟩ := bind_eq_ok.1 h
    obtain ⟨_, -, h⟩ := bind_eq_ok.1 h
    cases h
    exact congrArg some (htimestamp htime)
  | commitCheckpoint lease nowMs leaseExpiresAtMs phase checkpointRef =>
    obtain ⟨_, htime, h⟩ := bind_eq_ok.1 h
    obtain ⟨_, -, h⟩ := bind_eq_ok.1 h
    obtain ⟨_, -, h⟩ := bind_eq_ok.1 h
    obtain ⟨_, -, h⟩ := bind_eq_ok.1 h
    obtain ⟨_, -, h⟩ := bind_eq_ok.1 h
    cases h
    exact congrArg some (htimestamp htime)
  | release lease nowMs outcome =>
    obtain ⟨_, -, h⟩ := bind_eq_ok.1 h
    obtain ⟨_, htime, h⟩ := bind_eq_ok.1 h
    cases h
    exact congrArg some (htimestamp htime)
  | requestPreemption nowMs =>
    obtain ⟨_, htime, h⟩ := bind_eq_ok.1 h
    cases h
    exact congrArg some (htimestamp htime)
  | withdrawDemand =>
    cases h
    rfl

theorem acquiredToken_eq_some {answer : Except String Answer} {token : Int} :
    acquiredToken answer = some token ↔
      ∃ lease, answer = .ok (.acquire (.acquired lease)) ∧ lease.fencingToken = token := by
  constructor
  · intro h
    unfold acquiredToken at h
    split at h
    · rename_i lease
      exact ⟨lease, rfl, Option.some.inj h⟩
    · cases h
  · rintro ⟨lease, rfl, rfl⟩
    rfl

/-- A lease under the next token is acquired exactly where the token moves. -/
theorem acquireBaton_token {holderExpiry : Option Int} {result : AcquireResult}
    (h : acquireBaton input nowMs leaseExpiresAtMs phase holderExpiry db = .ok (db', result)) :
    (∃ lease, result = .acquired lease ∧ lease.fencingToken = db.baton.fencingToken + 1) ↔
      db'.baton.fencingToken = db.baton.fencingToken + 1 := by
  have hnone : ∀ reason holder next retry,
      (∃ lease, AcquireResult.waiting reason holder next retry = .acquired lease ∧
        lease.fencingToken = db.baton.fencingToken + 1) ↔
        db.baton.fencingToken = db.baton.fencingToken + 1 := by
    intro reason holder next retry
    constructor
    · rintro ⟨lease, heq, -⟩
      cases heq
    · intro heq
      omega
  unfold acquireBaton at h
  split at h
  · split at h
    · obtain ⟨lease, hlease, h⟩ := bind_eq_ok.1 h
      cases h
      have htoken := (toLease_eq hlease).1
      constructor
      · rintro ⟨lease', heq, hnext⟩
        cases heq
        omega
      · intro heq
        omega
    · cases h
      exact hnone _ _ _ _
  · split at h
    · cases h
      exact hnone _ _ _ _
    · split at h
      · cases h
        exact hnone _ _ _ _
      · obtain ⟨-, htoken, lease, hlease, hnext⟩ := grant_cases h
        exact ⟨fun _ => htoken, fun _ => ⟨lease, hlease, hnext⟩⟩

theorem tryAcquire_token :
    (∃ lease, (tryAcquire input nowMs leaseExpiresAtMs phase db).2 = .ok (.acquired lease) ∧
        lease.fencingToken = db.baton.fencingToken + 1) ↔
      (tryAcquire input nowMs leaseExpiresAtMs phase db).1.baton.fencingToken =
        db.baton.fencingToken + 1 := by
  unfold tryAcquire withPostgresClient
  rcases Lib.Table.transaction_cases Database.constraints _ db with
    ⟨message, heq⟩ | ⟨db', result, hbody, -, heq⟩
  · rw [heq]
    constructor
    · rintro ⟨lease, herror, -⟩
      cases herror
    · intro htoken
      dsimp only at htoken
      omega
  · rw [heq]
    obtain ⟨db₁, hreconciled, hbody⟩ := bind_eq_ok.1 hbody
    obtain ⟨holderExpiry, -, hbody⟩ := bind_eq_ok.1 hbody
    have htoken₁ : db₁.baton.fencingToken = db.baton.fencingToken := by
      rcases reconciled hreconciled with ⟨rfl, -⟩ | ⟨-, htoken, -⟩
      · rfl
      · exact htoken
    have htoken := acquireBaton_token hbody
    rw [(clearExpired_kept db₁ nowMs holderExpiry).2.2, htoken₁] at htoken
    rw [← htoken]
    constructor
    · rintro ⟨lease, hok, hnext⟩
      cases hok
      exact ⟨lease, rfl, hnext⟩
    · rintro ⟨lease, rfl, hnext⟩
      exact ⟨lease, rfl, hnext⟩

theorem tryAcquire_answer {lease : FleetMaintenanceLease}
    (h : (operation.run input db).2 = .ok (.acquire (.acquired lease))) :
    ∃ nowMs leaseExpiresAtMs phase, operation = .tryAcquire nowMs leaseExpiresAtMs phase ∧
      (tryAcquire input nowMs leaseExpiresAtMs phase db).2 = .ok (.acquired lease) := by
  have hmap : ∀ {α : Type} {answer : Except String α} {f : α → Answer},
      answer.map f = .ok (.acquire (.acquired lease)) →
        ∃ a, answer = .ok a ∧ f a = .acquire (.acquired lease) := by
    intro α answer f hanswer
    cases answer with
    | error message => cases hanswer
    | ok a => exact ⟨a, rfl, Except.ok.inj hanswer⟩
  cases operation with
  | tryAcquire nowMs leaseExpiresAtMs phase =>
    obtain ⟨result, hresult, heq⟩ := hmap h
    cases heq
    exact ⟨nowMs, leaseExpiresAtMs, phase, rfl, hresult⟩
  | announceDemand =>
    obtain ⟨_, -, heq⟩ := hmap h
    cases heq
  | renew =>
    obtain ⟨_, -, heq⟩ := hmap h
    cases heq
  | commitCheckpoint =>
    obtain ⟨_, -, heq⟩ := hmap h
    cases heq
  | release =>
    obtain ⟨_, -, heq⟩ := hmap h
    cases heq
  | requestPreemption =>
    obtain ⟨_, -, heq⟩ := hmap h
    cases heq
  | withdrawDemand => cases h

/-- **A grant is to the nearest live demand**, and every grant moves the token. -/
theorem perform_moves (h : Manifested fingerprint manifest db)
    (hc : c.fleetCompanionIds = manifest) (call : Call) :
    Manifested fingerprint manifest (c.perform fingerprint call db).1 ∧
      ∃ operation, Moves (c.binding fingerprint) operation db (c.perform fingerprint call db).1 ∧
        (∀ nowMs leaseExpiresAtMs phase, operation = .tryAcquire nowMs leaseExpiresAtMs phase →
          call.nowMs = some nowMs) ∧
        (Grants fingerprint c call db ↔
          (c.perform fingerprint call db).1.baton.fencingToken = db.baton.fencingToken + 1) := by
  unfold Grants Coordinator.perform
  split
  · refine ⟨h, .withdrawDemand, .stays rfl (.inl rfl) rfl, nofun, ?_, fun htoken => ?_⟩
    · intro hnone
      cases hnone
    · dsimp only at htoken
      omega
  · rename_i operation hoperation
    obtain ⟨hmanifested, hmoves⟩ := run_moves h hc operation
    refine ⟨hmanifested, operation, hmoves, ?_, ?_, ?_⟩
    · rintro nowMs leaseExpiresAtMs phase rfl
      exact (nowMs_of_operation hoperation).symm
    · intro hanswer
      obtain ⟨lease, hanswer, hnext⟩ := acquiredToken_eq_some.1 hanswer
      obtain ⟨nowMs, leaseExpiresAtMs, phase, rfl, hacquired⟩ := tryAcquire_answer hanswer
      exact tryAcquire_token.1 ⟨lease, hacquired, hnext⟩
    · intro htoken
      cases hmoves with
      | stays hsame => omega
      | completes hsame => omega
      | grants nowMs leaseExpiresAtMs phase hacquire =>
        subst hacquire
        obtain ⟨lease, hacquired, hnext⟩ := tryAcquire_token.2 htoken
        refine acquiredToken_eq_some.2 ⟨lease, ?_, hnext⟩
        show ((tryAcquire _ _ _ _ _).2.map Answer.acquire) = _
        rw [hacquired]
        rfl

end Calls

/-! ## Runs -/

section Rotation

variable {fingerprint : List Uuid → String} {manifest : List Uuid} {c : Coordinator}
  {db : Database}

theorem manifested_migrated (fingerprint : List Uuid → String) {manifest : List Uuid}
    (hmanifest : manifest ≠ []) : Manifested fingerprint manifest Database.migrated := by
  have hlength := List.length_pos_iff.2 hmanifest
  refine ⟨.inr ⟨rfl, rfl, rfl⟩, fun row hrow => absurd hrow List.not_mem_nil, ?_⟩
  show (-1 : Int) ≤ -1 ∧ (-1 : Int) < manifest.length
  omega

variable {call : Call}

/-- A grant is made at a time, to the nearest of the demands that are live then. -/
theorem granted_by (h : Manifested fingerprint manifest db) (hc : c.fleetCompanionIds = manifest)
    (hgrants : Grants fingerprint c call db) :
    ∃ nowMs, call.nowMs = some nowMs ∧ GrantedBy (c.binding fingerprint) nowMs db := by
  obtain ⟨-, operation, hmoves, hnow, hiff⟩ := perform_moves h hc call
  have htoken := hiff.1 hgrants
  cases hmoves with
  | stays hsame => omega
  | completes hsame => omega
  | grants nowMs leaseExpiresAtMs phase hoperation hgranted =>
    exact ⟨nowMs, hnow nowMs leaseExpiresAtMs phase hoperation, hgranted⟩

/-- Nobody with a live demand is nearer than the companion that is granted the baton. -/
theorem granted_nearest (h : Manifested fingerprint manifest db)
    (hc : c.fleetCompanionIds = manifest) (hgranted : GrantedBy (c.binding fingerprint) nowMs db)
    {companionId : Uuid} (hlive : LiveAt db companionId nowMs) :
    companionId ∈ manifest ∧ c.companionId ∈ manifest ∧
      ordinalDistance db.baton.lastServedOrdinal manifest.length (manifest.idxOf c.companionId) ≤
        ordinalDistance db.baton.lastServedOrdinal manifest.length
          (manifest.idxOf companionId) := by
  obtain ⟨row, hrow, hmine, -, hnearest⟩ := hgranted
  obtain ⟨other, hother, rfl, hotherLive⟩ := hlive
  obtain ⟨-, hordinal, hmem⟩ := h.demands row hrow
  obtain ⟨hfingerprint, hotherOrdinal, hotherMem⟩ := h.demands other hother
  have hmine' : row.companionId = c.companionId := hmine
  have hle := hnearest other hother (by rw [hfingerprint, ← hc]; rfl) hotherLive
  have hsize : (c.binding fingerprint).fleetSize = manifest.length := by
    rw [← hc]
    rfl
  rw [servingDistance_eq, servingDistance_eq, hordinal, hotherOrdinal, hmine', hsize] at hle
  rw [hmine'] at hmem
  exact ⟨hotherMem, hmem, hle⟩

variable {waiting : Uuid}

/-- **The step of the rotation**: the companion that waits is granted the baton, or it stays ahead
of the other one, which is not granted it. -/
theorem ahead_step (h : Manifested fingerprint manifest db) (hc : c.fleetCompanionIds = manifest)
    {other : Uuid} (hother : other ∈ manifest) (hahead : Ahead manifest waiting other db)
    (hlive : ∀ now, call.nowMs = some now → LiveAt db waiting now) (hwaiting : waiting ∈ manifest) :
    c.companionId = waiting ∧ Grants fingerprint c call db ∨
      Ahead manifest waiting other (c.perform fingerprint call db).1 ∧
        ¬ (c.companionId = other ∧ Grants fingerprint c call db) := by
  obtain ⟨-, operation, hmoves, hnow, hiff⟩ := perform_moves h hc call
  have hbound := List.idxOf_lt_length_of_mem hwaiting
  have hbound' := List.idxOf_lt_length_of_mem hother
  cases hmoves with
  | stays htoken hholder hserved =>
    refine .inr ⟨⟨?_, fun holder hheld => ?_⟩, fun hgrants => ?_⟩
    · rw [hserved]
      exact hahead.other
    · rw [hserved]
      rcases hholder with hsame | hfree
      · exact hahead.holder holder (hsame ▸ hheld)
      · rw [hfree] at hheld
        cases hheld
    · have hnext := hiff.1 hgrants.2
      omega
  | grants nowMs leaseExpiresAtMs phase hoperation hgranted htoken hholder hserved =>
    obtain ⟨-, hmem, hle⟩ := granted_nearest h hc hgranted
      (hlive nowMs (hnow nowMs leaseExpiresAtMs phase hoperation))
    by_cases hsame : c.companionId = waiting
    · exact .inl ⟨hsame, hiff.2 htoken⟩
    · -- another companion is nearer, so it is not the one that comes after
      have hbound'' := List.idxOf_lt_length_of_mem hmem
      have hne : ordinalDistance db.baton.lastServedOrdinal manifest.length
            (manifest.idxOf c.companionId) ≠
          ordinalDistance db.baton.lastServedOrdinal manifest.length (manifest.idxOf waiting) := by
        intro heq
        have hidx := ordinalDistance_inj h.served.1 h.served.2 hbound'' hbound heq
        exact hsame ((List.idxOf_inj hmem).1 hidx)
      refine .inr ⟨⟨?_, fun holder hheld => ?_⟩, ?_⟩
      · rw [hserved]
        exact hahead.other
      · rw [hserved]
        rw [hholder] at hheld
        cases hheld
        exact ⟨hmem, by simp only [Coordinator.binding]; omega⟩
      · rintro ⟨rfl, -⟩
        have hfar := hahead.other
        omega
  | completes htoken hholder hfree hserved =>
    obtain ⟨hmem, hfirst⟩ := hahead.holder _ hholder
    have hordinal : ((c.binding fingerprint).manifestOrdinal : Int) =
        manifest.idxOf c.companionId := by
      rw [← hc]
      rfl
    refine .inr ⟨⟨?_, fun holder hheld => ?_⟩, fun hgrants => ?_⟩
    · rw [hserved, hordinal]
      exact ordinalDistance_served h.served.1 h.served.2 hbound hbound'
        (List.idxOf_lt_length_of_mem hmem) hahead.other hfirst
    · rw [hfree] at hheld
      cases hheld
    · have hnext := hiff.1 hgrants.2
      omega

/-- **The run of the rotation**: while the companion waits and is not granted the baton, the other
one is not either. -/
theorem ahead_run {other : Uuid} (hwaiting : waiting ∈ manifest) (hother : other ∈ manifest)
    (hc : c.fleetCompanionIds = manifest) (events : List (Coordinator × Call))
    (hevents : ∀ event ∈ events, event.1.fleetCompanionIds = manifest)
    (h : Manifested fingerprint manifest db) (hahead : Ahead manifest waiting other db)
    (hne : waiting ≠ other) (hcompanion : c.companionId = other)
    (hlive : LiveUntilGranted fingerprint waiting (events ++ [(c, call)]) db)
    (hgrants : Grants fingerprint c call (after fingerprint events db)) :
    GrantedIn fingerprint waiting events db := by
  induction events generalizing db with
  | nil =>
    rcases ahead_step h hc hother hahead hlive.1 hwaiting with ⟨hsame, -⟩ | ⟨-, hnot⟩
    · exact absurd (hsame.symm.trans hcompanion) hne
    · exact absurd ⟨hcompanion, hgrants⟩ hnot
  | cons event rest ih =>
    have hc' := hevents event List.mem_cons_self
    rcases ahead_step h hc' hother hahead hlive.1 hwaiting with hgranted | ⟨hahead', -⟩
    · exact .inl hgranted
    · by_cases hgranted : event.1.companionId = waiting ∧ Grants fingerprint event.1 event.2 db
      · exact .inl hgranted
      · exact .inr (ih (fun next hnext => hevents next (List.mem_cons_of_mem _ hnext))
          (perform_moves h hc' event.2).1 hahead' (hlive.2 hgranted) hgrants)

/-- Only companions of the manifest wait. -/
theorem mem_of_waits (events : List (Coordinator × Call))
    (hevents : ∀ event ∈ events, event.1.fleetCompanionIds = manifest)
    (h : Manifested fingerprint manifest db) (hc : c.fleetCompanionIds = manifest)
    (hlive : LiveUntilGranted fingerprint waiting (events ++ [(c, call)]) db)
    (hgrants : Grants fingerprint c call (after fingerprint events db)) : waiting ∈ manifest := by
  induction events generalizing db with
  | nil =>
    obtain ⟨now, hnow, -⟩ := granted_by h hc hgrants
    obtain ⟨row, hrow, rfl, -⟩ := hlive.1 now hnow
    exact (h.demands row hrow).2.2
  | cons event rest ih =>
    have hc' := hevents event List.mem_cons_self
    by_cases hgranted : event.1.companionId = waiting ∧ Grants fingerprint event.1 event.2 db
    · rw [← hgranted.1, ← hc']
      exact event.1.present
    · exact ih (fun next hnext => hevents next (List.mem_cons_of_mem _ hnext))
        (perform_moves h hc' event.2).1 (hlive.2 hgranted) hgrants

/-- A complete release frees the baton and moves the ordinal to the companion's. -/
theorem release_completed {token : Int} {answer : Unit}
    (h : (release input token nowMs .complete db).2 = .ok answer) :
    (release input token nowMs .complete db).1.baton.holderCompanionId = none ∧
      (release input token nowMs .complete db).1.baton.lastServedOrdinal =
        input.manifestOrdinal := by
  unfold release withPostgresClient at h ⊢
  rcases Lib.Table.transaction_cases Database.constraints _ db with
    ⟨message, heq⟩ | ⟨db', result, hbody, -, heq⟩
  · rw [heq] at h
    cases h
  · rw [heq]
    obtain ⟨expiry, -, hbody⟩ := bind_eq_ok.1 hbody
    cases hbody
    exact ⟨rfl, rfl⟩

/-- Then everybody else comes before the companion. -/
theorem ahead_completed (hc : c.fleetCompanionIds = manifest) {lease : FleetMaintenanceLease}
    {answer : Answer}
    (hok : (c.perform fingerprint (.release lease nowMs .complete) db).2 = .ok answer)
    (hwaiting : waiting ∈ manifest) (hne : waiting ≠ c.companionId) :
    Ahead manifest waiting c.companionId
      (c.perform fingerprint (.release lease nowMs .complete) db).1 := by
  have hmine : c.companionId ∈ manifest := hc ▸ c.present
  have hordinal : (c.binding fingerprint).manifestOrdinal = manifest.idxOf c.companionId := by
    rw [← hc]
    rfl
  have hfar := ordinalDistance_self (List.idxOf_lt_length_of_mem hwaiting)
    (List.idxOf_lt_length_of_mem hmine) fun heq => hne ((List.idxOf_inj hwaiting).1 heq)
  unfold Coordinator.perform at hok ⊢
  split at hok
  · cases hok
  · rename_i operation hoperation
    obtain ⟨token, -, hoperation⟩ := bind_eq_ok.1 hoperation
    obtain ⟨now, -, hoperation⟩ := bind_eq_ok.1 hoperation
    cases hoperation
    cases hanswer : (release (c.binding fingerprint) token now .complete db).2 with
    | error message =>
      have herror : (release (c.binding fingerprint) token now .complete db).2.map
          (fun _ => Answer.done) = .ok answer := hok
      rw [hanswer] at herror
      cases herror
    | ok done =>
      obtain ⟨hfree, hserved⟩ := release_completed hanswer
      refine ⟨?_, fun holder hheld => ?_⟩
      · show ordinalDistance (release (c.binding fingerprint) token now .complete
          db).1.baton.lastServedOrdinal _ _ < ordinalDistance (release (c.binding fingerprint)
            token now .complete db).1.baton.lastServedOrdinal _ _
        rw [hserved, hordinal]
        exact hfar
      · have hheld' : (release (c.binding fingerprint) token now .complete
            db).1.baton.holderCompanionId = some holder := hheld
        rw [hfree] at hheld'
        cases hheld'

/-- Coordinators of one manifest leave the database under it. -/
theorem manifested_of_reachable {w : World} (hmanifest : manifest ≠ [])
    (h : (fleetSystem fingerprint fun _ c _ => c.fleetCompanionIds = manifest).Reachable w) :
    Manifested fingerprint manifest w.db := by
  refine System.invariant (I := fun w => Manifested fingerprint manifest w.db)
    (manifested_migrated fingerprint hmanifest) ?_ h
  rintro w w' hw ⟨c, call, hc, rfl⟩
  have hstep := (perform_moves hw hc call).1
  unfold Coordinator.act
  unfold Coordinator.perform at hstep
  split
  · exact hw
  · rename_i operation hoperation
    rw [hoperation] at hstep
    exact hstep

/-- **The baton is granted in rotation**, after any run of any coordinators of one manifest, with
any clocks. A grant is to a companion with a live demand of its own. When a companion has completed
and is granted the baton again, every other companion whose demand was live at every call since,
until it was granted the baton, was granted it in between. -/
theorem rotation_run (fingerprint : List Uuid → String) {manifest : List Uuid} {w : World}
    (h : (fleetSystem fingerprint fun _ c _ => c.fleetCompanionIds = manifest).Reachable w) :
    (∀ c call, c.fleetCompanionIds = manifest → Grants fingerprint c call w.db →
      ∃ now, call.nowMs = some now ∧ LiveAt w.db c.companionId now) ∧
    (∀ (k c : Coordinator) lease now answer between call,
      k.fleetCompanionIds = manifest → c.fleetCompanionIds = manifest →
      (∀ event ∈ between, Coordinator.fleetCompanionIds (Prod.fst event) = manifest) →
      (k.perform fingerprint (.release lease now .complete) w.db).2 = .ok answer →
      c.companionId = k.companionId →
      Grants fingerprint c call (after fingerprint between
        (k.perform fingerprint (.release lease now .complete) w.db).1) →
      ∀ waiting, waiting ≠ k.companionId →
        LiveUntilGranted fingerprint waiting (between ++ [(c, call)])
          (k.perform fingerprint (.release lease now .complete) w.db).1 →
        GrantedIn fingerprint waiting between
          (k.perform fingerprint (.release lease now .complete) w.db).1) := by
  have hnonempty : ∀ {c : Coordinator}, c.fleetCompanionIds = manifest → manifest ≠ [] := by
    rintro c hc rfl
    have hmem := c.present
    rw [hc] at hmem
    exact absurd hmem List.not_mem_nil
  constructor
  · intro c call hc hgrants
    obtain ⟨now, hnow, row, hrow, hmine, hready, -⟩ :=
      granted_by (manifested_of_reachable (hnonempty hc) h) hc hgrants
    exact ⟨now, hnow, row, hrow, hmine, hready⟩
  · intro k c lease now answer between call hk hc hbetween hok hsame hgrants waiting hne hlive
    have hmanifested := (perform_moves (manifested_of_reachable (hnonempty hk) h) hk
      (.release lease now .complete)).1
    have hmem := mem_of_waits between hbetween hmanifested hc hlive hgrants
    have hother : k.companionId ∈ manifest := hk ▸ k.present
    exact ahead_run hmem hother hc between hbetween hmanifested
      (ahead_completed hk hok hmem hne) hne hsame hlive hgrants

end Rotation

def secondCompanion : Uuid := ⟨"4f9a1d27-6f0e-4d5c-8b1a-90c2d3e4f5a6", by decide +kernel⟩

/-- The two processes of a fleet of two companions. -/
def firstOfTwo : Coordinator where
  companionId := onlyCompanion
  fleetCompanionIds := [onlyCompanion, secondCompanion]
  holderInstanceId := onlyCoordinator.holderInstanceId
  unique := by decide +kernel
  present := List.mem_cons_self

def secondOfTwo : Coordinator where
  companionId := secondCompanion
  fleetCompanionIds := [onlyCompanion, secondCompanion]
  holderInstanceId := ⟨"c3b2a190-8f7e-4d6c-9b5a-40312f1e0d9c", by decide +kernel⟩
  unique := by decide +kernel
  present := List.mem_cons_of_mem _ List.mem_cons_self

def leaseOf (c : Coordinator) (token : Int) : FleetMaintenanceLease :=
  ⟨c.companionId, token, 0, 0, "backfill", none, false⟩

/-- Both wait, and the first is granted the baton. -/
def bothWaiting : World :=
  firstOfTwo.act sameFingerprint (.tryAcquire 30 500 "backfill")
    (secondOfTwo.act sameFingerprint (.announceDemand 20 500)
      (firstOfTwo.act sameFingerprint (.announceDemand 10 500) ⟨Database.migrated, []⟩))

/-- The second is served before the first is again. -/
def secondServed : List (Coordinator × Call) :=
  [(firstOfTwo, .announceDemand 50 500), (secondOfTwo, .tryAcquire 60 500 "backfill"),
    (secondOfTwo, .release (leaseOf secondOfTwo 2) 70 .complete)]

theorem rotation_run_second :
    GrantedIn sameFingerprint secondCompanion secondServed (firstOfTwo.perform sameFingerprint
      (.release (leaseOf firstOfTwo 1) 40 .complete) bothWaiting.db).1 := by
  have hreached : (fleetSystem sameFingerprint fun _ c _ =>
      c.fleetCompanionIds = [onlyCompanion, secondCompanion]).Reachable bothWaiting :=
    ((Relation.ReflTransGen.single ⟨firstOfTwo, .announceDemand 10 500, rfl, rfl⟩).tail
      ⟨secondOfTwo, .announceDemand 20 500, rfl, rfl⟩).tail
        ⟨firstOfTwo, .tryAcquire 30 500 "backfill", rfl, rfl⟩
  refine (rotation_run sameFingerprint hreached).2 firstOfTwo firstOfTwo (leaseOf firstOfTwo 1) 40
    .done secondServed (.tryAcquire 80 500 "backfill") rfl rfl (by decide +kernel) (by rfl) rfl
    (by unfold Grants; decide +kernel) secondCompanion (by decide +kernel)
    ⟨?_, fun _ => ⟨?_, fun hnot => ?_⟩⟩
  · rintro now ⟨⟩
    unfold LiveAt
    decide +kernel
  · rintro now ⟨⟩
    unfold LiveAt
    decide +kernel
  · exact absurd ⟨rfl, by unfold Grants; decide +kernel⟩ hnot

end Psfn.FleetMaintenance
