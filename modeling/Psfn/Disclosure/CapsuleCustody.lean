import Psfn.Lib.JsValue
import Psfn.Disclosure.Capsule

/-!
# Share capsules — custody

`core/cogsec/disclosure/capsule-custody.ts`: the store every process opens over one file,
and the service that authorizes replays against it. A mutation runs under the cross-process
lock and re-reads the file there; a replay is first judged on a lock-free read and then
consumes one use under the lock.

The file is the list of records it serialises; an absent file reads as an empty one. A
record read back is parsed again and may be refused.

* `putApprovedCapsule_spec`, `recordExactReplayUse_spec`, `revokeCapsule_spec` — what each
  locked mutation does to the file.
* `judgeReplay_spec`, `consumeReplay_spec` — the two halves of a replay.
-/

namespace Psfn.Disclosure

open Psfn.Lib

variable {η : Type} [DecidableEq η]

/-! ## The persisted record -/

structure ShareCapsuleCustodyRecord (η : Type) where
  capsuleId  : String
  capsule    : ApprovedShareCapsule η
  useCount   : Nat
  mintedAtMs : JsNumber
deriving DecidableEq

abbrev CustodyFile (η : Type) := List (ShareCapsuleCustodyRecord η)

structure ShareCapsuleCustodyState (η : Type) where
  capsule  : ApprovedShareCapsule η
  useCount : Nat
deriving DecidableEq

/-- One process's store: its options, checked when it was created. -/
structure ShareCapsuleCustodyStore where
  filePath          : String
  maxActiveCapsules : JsNumber

/-- `DEFAULT_MAX_ACTIVE_CAPSULES`. -/
def defaultMaxActiveCapsules : JsNumber := .finite 3

def createShareCapsuleCustodyStore (filePath : String) (maxActiveCapsules : Option JsNumber) :
    Except String ShareCapsuleCustodyStore := do
  let max := maxActiveCapsules.getD defaultMaxActiveCapsules
  throwIf (!max.isInteger || max.le (.finite 0))
    "Share capsule custody store requires a positive integer maxActiveCapsules"
  pure { filePath, maxActiveCapsules := max }

def invalidRecord (filePath detail : String) : String :=
  "Invalid share capsule custody record in " ++ filePath ++ ": " ++ detail

section Store

variable (platform : Platform η)

def assertRecordShape (filePath : String) (record : ShareCapsuleCustodyRecord η) :
    Except String (ShareCapsuleCustodyRecord η) := do
  let id := record.capsuleId
  throwIf (JsString.trim id = "") (invalidRecord filePath "missing capsuleId")
  match parseApprovedShareCapsule platform record.capsule with
  | none =>
    .error (invalidRecord filePath
      s!"capsule '{id}' failed the ApprovedShareCapsule contract (tampered at rest?)")
  | some capsule => do
    throwIf (capsule.capsuleId ≠ id) (invalidRecord filePath
      (s!"record capsuleId '{id}' does not match capsule.capsuleId '" ++ capsule.capsuleId ++ "'"))
    -- a persisted count above the capsule's own cap is corrupt state
    throwIf (capsule.expiry.maxUseCount.any fun cap => cap.lt (count record.useCount))
      (invalidRecord filePath (s!"useCount {record.useCount} for '{id}' exceeds its cap of " ++
        ((capsule.expiry.maxUseCount.map platform.numberText).getD "")))
    throwIf (!record.mintedAtMs.isFinite)
      (invalidRecord filePath s!"mintedAtMs for '{id}' must be a finite number")
    pure { record with capsule }

/-- One round of the loop of `load`. -/
def loadRecord (filePath : String) (entries : JsMap String (ShareCapsuleCustodyRecord η))
    (value : ShareCapsuleCustodyRecord η) :
    Except String (JsMap String (ShareCapsuleCustodyRecord η)) := do
  let record ← assertRecordShape platform filePath value
  let id := record.capsuleId
  throwIf (entries.has id) (invalidRecord filePath s!"duplicate capsuleId '{id}'")
  pure (entries.set id record)

def load (filePath : String) (file : CustodyFile η) :
    Except String (JsMap String (ShareCapsuleCustodyRecord η)) :=
  file.foldlM (loadRecord platform filePath) JsMap.empty

/-- A capsule is active while it can still authorize a use. -/
def capsuleIsActive (atMs : JsNumber) (record : ShareCapsuleCustodyRecord η) : Bool :=
  !record.capsule.revocation.revoked &&
  !(record.capsule.expiry.expiresAt.any fun expiresAt => (platform.dateParse expiresAt).le atMs) &&
  !(record.capsule.expiry.maxUseCount.any fun cap => cap.le (count record.useCount))

/-! ## The store's mutations, each under the lock -/

variable (store : ShareCapsuleCustodyStore) (file : CustodyFile η)

def putApprovedCapsule (capsule : ApprovedShareCapsule η) (mintedAtMs : JsNumber) :
    Except String (ShareCapsuleCustodyRecord η × CustodyFile η) :=
  match parseApprovedShareCapsule platform capsule with
  | none => .error "Cannot persist a capsule that fails the ApprovedShareCapsule contract"
  | some validated => do
    let id := validated.capsuleId
    let entries ← load platform store.filePath file
    throwIf (entries.has id) s!"Share capsule custody already holds capsule '{id}'"
    let activeCount := (entries.values.filter (capsuleIsActive platform mintedAtMs)).length
    throwIf (store.maxActiveCapsules.le (count activeCount))
      (s!"Active share-capsule cap reached ({activeCount}/" ++
        platform.numberText store.maxActiveCapsules ++
        "); revoke or let a capsule expire before minting another")
    let record := { capsuleId := id, capsule := validated, useCount := 0, mintedAtMs }
    pure (record, (entries.set id record).values)

def getCapsuleState (capsuleId : String) : Except String (Option (ShareCapsuleCustodyState η)) := do
  let entries ← load platform store.filePath file
  pure ((entries.get capsuleId).map fun record => ⟨record.capsule, record.useCount⟩)

def recordExactReplayUse (capsuleId : String) (expectedPriorUseCount : Nat) :
    Except String (ShareCapsuleCustodyState η × CustodyFile η) := do
  let entries ← load platform store.filePath file
  match entries.get capsuleId with
  | none => .error s!"Share capsule custody has no capsule '{capsuleId}'"
  | some record => do
    let useCount := record.useCount
    throwIf record.capsule.revocation.revoked
      s!"Capsule '{capsuleId}' is revoked; no further use may be recorded"
    -- compare-and-set on the count the caller was authorized against
    throwIf (useCount ≠ expectedPriorUseCount)
      (s!"Capsule '{capsuleId}' use-count moved to {useCount}, " ++
        s!"expected {expectedPriorUseCount} (concurrent use)")
    throwIf (record.capsule.expiry.maxUseCount.any fun cap => cap.le (count useCount))
      (s!"Capsule '{capsuleId}' use-count {useCount} already reached its cap of " ++
        ((record.capsule.expiry.maxUseCount.map platform.numberText).getD ""))
    let next := { record with useCount := useCount + 1 }
    pure (⟨record.capsule, useCount + 1⟩, (entries.set record.capsuleId next).values)

structure RevokeCapsuleInput where
  capsuleId : String
  revokedAt : String
  reason    : Option String := none

def revokeCapsule (input : RevokeCapsuleInput) :
    Except String (ApprovedShareCapsule η × CustodyFile η) := do
  let entries ← load platform store.filePath file
  let id := input.capsuleId
  match entries.get id with
  | none => .error s!"Share capsule custody has no capsule '{id}'"
  | some record => do
    let revoked ← (if record.capsule.revocation.revoked then .ok record.capsule
      else revokeShareCapsule platform record.capsule input.revokedAt input.reason)
    pure (revoked, (entries.set record.capsuleId { record with capsule := revoked }).values)

/-! ## `authorizeReplay` -/

structure AuthorizeReplayInput where
  capsuleId                   : String
  content                     : ShareContent
  destination                 : DisclosureDestination
  now                         : String
  currentEffectiveSensitivity : SensitivityLevel

inductive CapsuleCustodyDenyCode where
  | capsule (code : CapsuleDenyCode)
  | capsuleNotFound
  | sourceReclassified
deriving DecidableEq, Repr

inductive CapsuleReplayDecision where
  | authorized (reason : String) (useCount : Nat)
  | denied (code : CapsuleCustodyDenyCode) (reason : String)
deriving DecidableEq

/-- The first half of `authorizeReplay`, on a read without the lock: a denial, or the state the
use was authorized against and the reason it was. -/
def judgeReplay (input : AuthorizeReplayInput) :
    Except String (CapsuleReplayDecision ⊕ (ShareCapsuleCustodyState η × String)) := do
  let id := input.capsuleId
  match ← getCapsuleState platform store file id with
  | none => pure (.inl (.denied .capsuleNotFound s!"no capsule in custody for id '{id}'"))
  | some state =>
    let current := input.currentEffectiveSensitivity
    let approved := state.capsule.effectiveSensitivity
    if sensitivityOrd current > sensitivityOrd approved then
      pure (.inl (.denied .sourceReclassified ("capsule provenance reclassified to '" ++ current.text ++
        "', above the approved '" ++ approved.text ++ "'; replay requires fresh approval")))
    else
      match authorizeCapsuleUse platform state.capsule
          { intent := .exactReplay, content := input.content, destination := input.destination,
            now := input.now, priorUseCount := state.useCount } with
      | .denied code reason => pure (.inl (.denied (.capsule code) reason))
      | .authorized reason => pure (.inr (state, reason))

/-- The second half, under the lock: one use is consumed, or the replay is denied after all. -/
def consumeReplay (input : AuthorizeReplayInput) (state : ShareCapsuleCustodyState η)
    (reason : String) : CapsuleReplayDecision × CustodyFile η :=
  match recordExactReplayUse platform store file input.capsuleId state.useCount with
  | .ok (consumed, file') => (.authorized reason consumed.useCount, file')
  | .error message =>
    (.denied (.capsule .useCountExhausted) ("could not record capsule use: " ++ message), file)

end Store

/-! ## What each function does to the file -/

section Specs

variable (platform : Platform η)

/-- A record as custody writes it: its capsule parses to itself and carries its id. -/
structure Settled (r : ShareCapsuleCustodyRecord η) : Prop where
  parsed : parseApprovedShareCapsule platform r.capsule = some r.capsule
  id_eq  : r.capsule.capsuleId = r.capsuleId

variable {platform} {filePath : String} {store : ShareCapsuleCustodyStore} {file file' : CustodyFile η}

theorem assertRecordShape_settled {r r' : ShareCapsuleCustodyRecord η} (hr : Settled platform r)
    (h : assertRecordShape platform filePath r = .ok r') :
    r' = r ∧ (r.capsule.expiry.maxUseCount.any fun cap => cap.lt (count r.useCount)) = false := by
  simp only [assertRecordShape, bind_eq_ok, throwIf_eq_ok, hr.parsed] at h
  obtain ⟨_, -, _, -, _, hcap, _, -, h⟩ := h
  exact ⟨(Except.ok.inj h).symm, hcap⟩

theorem loadRecord_settled {entries entries' : JsMap String (ShareCapsuleCustodyRecord η)}
    {r : ShareCapsuleCustodyRecord η} (hr : Settled platform r)
    (h : loadRecord platform filePath entries r = .ok entries') :
    entries'.entries = entries.entries ++ [(r.capsuleId, r)] := by
  simp only [loadRecord, bind_eq_ok, throwIf_eq_ok] at h
  obtain ⟨r', hr', _, hhas, h⟩ := h
  obtain rfl := (assertRecordShape_settled hr hr').1
  obtain rfl := Except.ok.inj h
  exact JsMap.entries_set_of_not_has hhas r'

/-- A file that loads, loads as it stands. -/
theorem load_settled (hfile : ∀ r ∈ file, Settled platform r)
    {entries : JsMap String (ShareCapsuleCustodyRecord η)}
    (h : load platform filePath file = .ok entries) :
    entries.entries = file.map fun r => (r.capsuleId, r) := by
  suffices hacc : ∀ (file : CustodyFile η) (acc : JsMap String (ShareCapsuleCustodyRecord η)),
      (∀ r ∈ file, Settled platform r) →
      file.foldlM (loadRecord platform filePath) acc = .ok entries →
      entries.entries = acc.entries ++ file.map fun r => (r.capsuleId, r) from
    hacc file JsMap.empty hfile h
  intro file
  induction file with
  | nil =>
    intro acc _ h
    obtain rfl := Except.ok.inj h
    simp
  | cons r rest ih =>
    intro acc hfile h
    rw [List.foldlM_cons, bind_eq_ok] at h
    obtain ⟨acc', hr, hrest⟩ := h
    rw [ih acc' (fun r hr => hfile r (List.mem_cons_of_mem _ hr)) hrest,
      loadRecord_settled (hfile r (List.mem_cons_self ..)) hr]
    simp

theorem load_values (hfile : ∀ r ∈ file, Settled platform r)
    {entries : JsMap String (ShareCapsuleCustodyRecord η)}
    (h : load platform filePath file = .ok entries) : entries.values = file := by
  rw [JsMap.values, load_settled hfile h, List.map_map]
  exact List.map_id file

theorem load_get (hfile : ∀ r ∈ file, Settled platform r)
    {entries : JsMap String (ShareCapsuleCustodyRecord η)}
    (h : load platform filePath file = .ok entries) {id : String} {r : ShareCapsuleCustodyRecord η} :
    entries.get id = some r ↔ r ∈ file ∧ r.capsuleId = id := by
  rw [← JsMap.mem_entries_iff_get, load_settled hfile h, List.mem_map]
  constructor
  · rintro ⟨r', hr', heq⟩
    obtain ⟨rfl, rfl⟩ := Prod.mk.inj heq
    exact ⟨hr', rfl⟩
  · rintro ⟨hr, rfl⟩
    exact ⟨r, hr, rfl⟩

/-- The file with the record of `r`'s id replaced by `r`. -/
def replaceRecord (file : CustodyFile η) (r : ShareCapsuleCustodyRecord η) : CustodyFile η :=
  file.map fun old => if old.capsuleId = r.capsuleId then r else old

theorem load_set_values (hfile : ∀ r ∈ file, Settled platform r)
    {entries : JsMap String (ShareCapsuleCustodyRecord η)}
    (h : load platform filePath file = .ok entries) {old r : ShareCapsuleCustodyRecord η}
    (hold : entries.get r.capsuleId = some old) :
    (entries.set r.capsuleId r).values = replaceRecord file r := by
  rw [JsMap.values, JsMap.entries_set_of_get hold, load_settled hfile h, List.map_map, List.map_map,
    replaceRecord]
  refine List.map_congr_left fun old _ => ?_
  simp only [Function.comp_apply]
  split <;> rfl

/-- A mint appends one unused record, whose id is new, to a file with room for it. -/
theorem putApprovedCapsule_spec (hfile : ∀ r ∈ file, Settled platform r)
    {capsule : ApprovedShareCapsule η} {mintedAtMs : JsNumber} {record : ShareCapsuleCustodyRecord η}
    (h : putApprovedCapsule platform store file capsule mintedAtMs = .ok (record, file')) :
    file' = file ++ [record] ∧ Settled platform record ∧ record.useCount = 0 ∧
      record.mintedAtMs = mintedAtMs ∧ (∀ r ∈ file, r.capsuleId ≠ record.capsuleId) ∧
      store.maxActiveCapsules.le
        (count (file.filter (capsuleIsActive platform mintedAtMs)).length) = false := by
  unfold putApprovedCapsule at h
  split at h
  · cases h
  rename_i validated hvalidated
  simp only [bind_eq_ok, throwIf_eq_ok] at h
  obtain ⟨entries, hload, _, hhas, _, hroom, h⟩ := h
  obtain ⟨rfl, rfl⟩ := Prod.mk.inj (Except.ok.inj h)
  rw [load_values hfile hload] at hroom
  refine ⟨?_, ⟨parseApprovedShareCapsule_parsed platform hvalidated, rfl⟩, rfl, rfl, ?_, hroom⟩
  · rw [JsMap.values, JsMap.entries_set_of_not_has hhas, load_settled hfile hload, List.map_append,
      List.map_map]
    congr 1
    exact List.map_id file
  · intro r hr hid
    have hsome := (load_get hfile hload).2 ⟨hr, hid⟩
    simp [JsMap.has, hsome] at hhas

/-- A consumed use adds one to the count of a capsule that was not revoked, had the count the
caller expected and was below its cap. Nothing else changes. -/
theorem recordExactReplayUse_spec (hfile : ∀ r ∈ file, Settled platform r) {id : String}
    {expected : Nat} {state : ShareCapsuleCustodyState η}
    (h : recordExactReplayUse platform store file id expected = .ok (state, file')) :
    ∃ r ∈ file, r.capsuleId = id ∧ r.capsule.revocation.revoked = false ∧ r.useCount = expected ∧
      (r.capsule.expiry.maxUseCount.any fun cap => cap.le (count r.useCount)) = false ∧
      file' = replaceRecord file { r with useCount := r.useCount + 1 } := by
  simp only [recordExactReplayUse, bind_eq_ok] at h
  obtain ⟨entries, hload, h⟩ := h
  split at h
  · cases h
  rename_i r hget
  simp only [bind_eq_ok, throwIf_eq_ok] at h
  obtain ⟨_, hrevoked, _, hexpected, _, hcap, h⟩ := h
  obtain ⟨-, rfl⟩ := Prod.mk.inj (Except.ok.inj h)
  obtain ⟨hr, rfl⟩ := (load_get hfile hload).1 hget
  exact ⟨r, hr, rfl, hrevoked, by simpa using hexpected, hcap,
    load_set_values hfile hload (r := { r with useCount := r.useCount + 1 }) hget⟩

/-- A revocation marks one capsule, whatever its use count is by then. -/
theorem revokeCapsule_spec (hfile : ∀ r ∈ file, Settled platform r) {input : RevokeCapsuleInput}
    {capsule : ApprovedShareCapsule η}
    (h : revokeCapsule platform store file input = .ok (capsule, file')) :
    ∃ r ∈ file, r.capsuleId = input.capsuleId ∧ capsule.revocation.revoked = true ∧
      capsule = { r.capsule with revocation := capsule.revocation } ∧
      Settled platform { r with capsule := capsule } ∧
      file' = replaceRecord file { r with capsule := capsule } := by
  simp only [revokeCapsule, bind_eq_ok] at h
  obtain ⟨entries, hload, h⟩ := h
  split at h
  · cases h
  rename_i r hget
  simp only [bind_eq_ok] at h
  obtain ⟨revoked, hrevoked, h⟩ := h
  obtain ⟨rfl, rfl⟩ := Prod.mk.inj (Except.ok.inj h)
  obtain ⟨hr, hid⟩ := (load_get hfile hload).1 hget
  have hfile' := load_set_values hfile hload (r := { r with capsule := revoked })
    (by rw [hid]; exact hget)
  refine ⟨r, hr, hid, ?_⟩
  split at hrevoked
  · rename_i hwas
    obtain rfl := Except.ok.inj hrevoked
    exact ⟨hwas, rfl, hfile r hr, hfile'⟩
  · unfold revokeShareCapsule at hrevoked
    split at hrevoked
    · cases hrevoked
    · rename_i htime
      obtain rfl := Except.ok.inj hrevoked
      refine ⟨rfl, rfl, ⟨?_, (hfile r hr).id_eq⟩, hfile'⟩
      have hparsed := (hfile r hr).parsed
      rw [parseApprovedShareCapsule_eq_some] at hparsed ⊢
      obtain ⟨h1, h2, h3, h4, h5, h6, h7, h8, h9, h10, h11, h12, h13, -⟩ := hparsed
      exact ⟨h1, h2, h3, h4, h5, h6, h7, h8, h9, h10, h11, h12, h13,
        parseCapsuleRevocation_revoked platform (by simpa using htime) _⟩

/-- What an approval must say for a replay to be covered by it. -/
structure Covers (platform : Platform η) (capsule : ApprovedShareCapsule η)
    (input : AuthorizeReplayInput) : Prop where
  content     : hashShareContent platform input.content = capsule.contentHash
  destination : destinationPermitted capsule.permittedDestinations input.destination = true
  sensitivity : sensitivityOrd input.currentEffectiveSensitivity ≤
    sensitivityOrd capsule.effectiveSensitivity

/-- A replay that passes the lock-free half is covered by the record it read. -/
theorem judgeReplay_spec (hfile : ∀ r ∈ file, Settled platform r) {input : AuthorizeReplayInput}
    {state : ShareCapsuleCustodyState η} {reason : String}
    (h : judgeReplay platform store file input = .ok (.inr (state, reason))) :
    ∃ r ∈ file, r.capsuleId = input.capsuleId ∧ Covers platform r.capsule input := by
  simp only [judgeReplay, getCapsuleState, bind_eq_ok] at h
  obtain ⟨found, ⟨entries, hload, hfound⟩, h⟩ := h
  obtain rfl := Except.ok.inj hfound
  split at h
  · cases h
  rename_i state' hget
  obtain ⟨r, hr, rfl⟩ := Option.map_eq_some_iff.1 hget
  obtain ⟨hmem, hid⟩ := (load_get hfile hload).1 hr
  split at h
  · cases h
  rename_i hsensitivity
  split at h
  · cases h
  rename_i reason' huse
  rw [authorizeCapsuleUse, (hfile r hmem).parsed] at huse
  obtain ⟨hcontent, hdestination⟩ := evaluateCapsuleUse_authorized platform huse
  exact ⟨r, hmem, hid, hcontent, hdestination, Nat.le_of_not_lt hsensitivity⟩

/-- The locked half consumes a use, or changes nothing. -/
theorem consumeReplay_spec (hfile : ∀ r ∈ file, Settled platform r) {input : AuthorizeReplayInput}
    {state : ShareCapsuleCustodyState η} {reason : String} {decision : CapsuleReplayDecision}
    (h : consumeReplay platform store file input state reason = (decision, file')) :
    (∃ code message, decision = .denied code message ∧ file' = file) ∨
    (∃ text n, decision = .authorized text n) ∧
      ∃ r ∈ file, r.capsuleId = input.capsuleId ∧ r.capsule.revocation.revoked = false ∧
        (r.capsule.expiry.maxUseCount.any fun cap => cap.le (count r.useCount)) = false ∧
        file' = replaceRecord file { r with useCount := r.useCount + 1 } := by
  unfold consumeReplay at h
  split at h
  · rename_i consumed file'' huse
    obtain ⟨rfl, rfl⟩ := Prod.mk.inj h
    obtain ⟨r, hr, hid, hrevoked, -, hcap, hfile'⟩ := recordExactReplayUse_spec hfile huse
    exact .inr ⟨⟨_, _, rfl⟩, r, hr, hid, hrevoked, hcap, hfile'⟩
  · obtain ⟨rfl, rfl⟩ := Prod.mk.inj h
    exact .inl ⟨_, _, rfl, rfl⟩

end Specs

end Psfn.Disclosure
