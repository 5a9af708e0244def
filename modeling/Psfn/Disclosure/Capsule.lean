import Mathlib.Data.Option.Basic
import Psfn.Lib.JsString
import Psfn.Disclosure.Definitions

/-!
# Share capsules — the contract

The pure functions of `core/cogsec/disclosure/capsule.ts` that custody runs: the parse of
a capsule, its revocation and the evaluation of a use.

A capsule is a value of its declared type, so the checks that only a value of another type
can fail are not here: the schema version and the authority literal, an unknown intent or
sensitivity, a list that is no list. Use counts are natural numbers. `Date.parse`, the
digest and the printing of a number are the platform's; digests are only ever compared.
-/

namespace Psfn.Disclosure

open Psfn.Lib

/-! ## Content and hash binding -/

structure ShareContent where
  body      : String
  mediaRefs : List String
deriving DecidableEq

/-- The object `hashShareContent` serialises. -/
structure CanonicalContent where
  v         : Nat
  body      : String
  mediaRefs : List String
deriving DecidableEq

/-- What the runtime provides; `η` is the type of digests. -/
structure Platform (η : Type) where
  dateParse  : String → JsNumber
  sha256     : CanonicalContent → η
  numberText : JsNumber → String

variable {η : Type} [DecidableEq η] (platform : Platform η)

/-- `SHARE_CONTENT_HASH_VERSION`. -/
def shareContentHashVersion : Nat := 1

def hashShareContent (content : ShareContent) : η :=
  platform.sha256 ⟨shareContentHashVersion, content.body, content.mediaRefs⟩

def isParseableTimestamp (value : String) : Bool :=
  JsString.trim value ≠ "" && (platform.dateParse value).isFinite

/-- `isBoundedString`, with its default bounds. -/
def isBoundedString (value : String) : Bool :=
  decide (1 ≤ JsString.utf16Length value ∧ JsString.utf16Length value ≤ 65536)

/-- The loop of `parseRefList`: every item trimmed, none of them blank. -/
def parseRefList : List String → Option (List String)
  | [] => some []
  | item :: rest =>
    if JsString.trim item = "" then none
    else (parseRefList rest).map (JsString.trim item :: ·)

/-- The media refs go through the same loop as the other lists of refs. -/
def parseShareContent (content : ShareContent) : Option ShareContent :=
  (parseRefList content.mediaRefs).map fun mediaRefs => { content with mediaRefs }

/-! ## Expiry, revocation, approval -/

structure CapsuleExpiry where
  expiresAt   : Option String := none
  maxUseCount : Option JsNumber := none
deriving DecidableEq

def parseCapsuleExpiry (value : CapsuleExpiry) : Option CapsuleExpiry :=
  if value.expiresAt.any fun t => !isParseableTimestamp platform t then none
  else if value.maxUseCount.any fun n => !n.isInteger || n.lt (.finite 1) then none
  -- authority must be bounded by time and/or use-count
  else if value.expiresAt.isNone && value.maxUseCount.isNone then none
  else some value

structure CapsuleRevocation where
  revoked   : Bool
  revokedAt : Option String := none
  reason    : Option String := none
deriving DecidableEq

/-- `reason?.trim()`, kept when something is left of it. -/
def trimmedReason (reason : Option String) : Option String :=
  (reason.map JsString.trim).filter (· ≠ "")

def parseCapsuleRevocation (value : CapsuleRevocation) : Option CapsuleRevocation :=
  if !value.revoked then
    if value.revokedAt.isSome || value.reason.isSome then none else some { revoked := false }
  else match value.revokedAt with
    | none => none
    | some revokedAt =>
      if !isParseableTimestamp platform revokedAt then none
      else some { revoked := true, revokedAt := some revokedAt, reason := trimmedReason value.reason }

structure ShareApproval where
  actor      : String
  approvedAt : String
deriving DecidableEq

def parseShareApproval (value : ShareApproval) : Option ShareApproval :=
  if !isBoundedString value.actor then none
  else if !isParseableTimestamp platform value.approvedAt then none
  else some value

/-! ## Destination constraints -/

/-- The id list of a constraint: absent, or parsed and not empty. -/
def parseScopedIds : Option (List String) → Option (Option (List String))
  | none => some none
  | some ids =>
    match parseRefList ids with
    | none | some [] => none
    | some parsed => some (some parsed)

/-- A constraint keeps its kind and its own id list; `channelEpochs` is not carried over. -/
def parseDisclosureDestinationConstraint (value : DisclosureDestinationConstraint) :
    Option DisclosureDestinationConstraint :=
  match disclosureKindIdField value.kind with
  | some .channelId =>
    if value.contactIds.isSome then none
    else (parseScopedIds value.channelIds).map fun channelIds => { kind := value.kind, channelIds }
  | some .contactId =>
    if value.channelIds.isSome then none
    else (parseScopedIds value.contactIds).map fun contactIds => { kind := value.kind, contactIds }
  | none =>
    if value.channelIds.isSome || value.contactIds.isSome then none else some { kind := value.kind }

def parseConstraintList : List DisclosureDestinationConstraint →
    Option (List DisclosureDestinationConstraint)
  | [] => some []
  | item :: rest =>
    match parseDisclosureDestinationConstraint item with
    | none => none
    | some parsed => (parseConstraintList rest).map (parsed :: ·)

/-! ## The capsule -/

structure ApprovedShareCapsule (η : Type) where
  capsuleId             : String
  candidateId           : String
  content               : ShareContent
  contentHash           : η
  permittedDestinations : List DisclosureDestinationConstraint
  effectiveSensitivity  : SensitivityLevel
  provenanceRefs        : List String
  subjectContactIds     : List String
  approval              : ShareApproval
  expiry                : CapsuleExpiry
  revocation            : CapsuleRevocation
deriving DecidableEq

def parseApprovedShareCapsule (value : ApprovedShareCapsule η) : Option (ApprovedShareCapsule η) := do
  guard (isBoundedString value.capsuleId)
  guard (isBoundedString value.candidateId)
  let content ← parseShareContent value.content
  -- self-authenticating: the stored hash is that of the content
  guard (value.contentHash = hashShareContent platform content)
  let permittedDestinations ← parseConstraintList value.permittedDestinations
  let provenanceRefs ← parseRefList value.provenanceRefs
  let subjectContactIds ← parseRefList value.subjectContactIds
  let approval ← parseShareApproval platform value.approval
  let expiry ← parseCapsuleExpiry platform value.expiry
  let revocation ← parseCapsuleRevocation platform value.revocation
  pure { value with
    content, permittedDestinations, provenanceRefs, subjectContactIds, approval, expiry, revocation }

/-- Revocation is terminal: nothing sets `revoked` back. -/
def revokeShareCapsule (capsule : ApprovedShareCapsule η) (revokedAt : String)
    (reason : Option String) : Except String (ApprovedShareCapsule η) :=
  if !isParseableTimestamp platform revokedAt then
    .error "Capsule revocation requires a valid revokedAt timestamp"
  else
    .ok { capsule with
      revocation := { revoked := true, revokedAt := some revokedAt, reason := trimmedReason reason } }

/-! ## Use authorization -/

inductive CapsuleUseIntent where
  | exactReplay
  | generativeInput
deriving DecidableEq, Repr

inductive CapsuleDenyCode where
  | malformedCapsule
  | invalidUseRequest
  | revoked
  | generativeInputRequiresFreshApproval
  | expired
  | useCountExhausted
  | contentHashMismatch
  | destinationNotPermitted
deriving DecidableEq, Repr

structure CapsuleUseRequest where
  intent        : CapsuleUseIntent
  content       : ShareContent
  destination   : DisclosureDestination
  now           : String
  priorUseCount : Nat

inductive CapsuleUseDecision where
  | authorized (reason : String)
  | denied (code : CapsuleDenyCode) (reason : String)
deriving DecidableEq

def count (n : Nat) : JsNumber := .finite n

def evaluateCapsuleUse (capsule : ApprovedShareCapsule η) (request : CapsuleUseRequest) :
    CapsuleUseDecision :=
  if !isParseableTimestamp platform request.now then
    .denied .invalidUseRequest "current time is not a parseable timestamp"
  -- revocation wins over every other state
  else if capsule.revocation.revoked then .denied .revoked "capsule has been revoked"
  else if request.intent = .generativeInput then
    .denied .generativeInputRequiresFreshApproval
      ("capsule carries exact-replay authority only; generative reuse of restricted provenance " ++
        "requires fresh approval (§10.11)")
  else if capsule.expiry.expiresAt.any fun expiresAt =>
      (platform.dateParse expiresAt).le (platform.dateParse request.now) then
    .denied .expired ("capsule expired at " ++ capsule.expiry.expiresAt.getD "")
  else if capsule.expiry.maxUseCount.any fun cap => cap.le (count request.priorUseCount) then
    .denied .useCountExhausted (s!"capsule use count {request.priorUseCount} reached its cap of " ++
      ((capsule.expiry.maxUseCount.map platform.numberText).getD ""))
  else if hashShareContent platform request.content ≠ capsule.contentHash then
    .denied .contentHashMismatch "requested content does not match the approved content hash"
  else if !destinationPermitted capsule.permittedDestinations request.destination then
    .denied .destinationNotPermitted
      "destination is not in the capsule's permitted-destination set"
  else .authorized "exact-replay of approved content to a permitted destination"

def authorizeCapsuleUse (rawCapsule : ApprovedShareCapsule η) (request : CapsuleUseRequest) :
    CapsuleUseDecision :=
  match parseApprovedShareCapsule platform rawCapsule with
  | none =>
    .denied .malformedCapsule
      "capsule is absent or does not satisfy the ApprovedShareCapsule contract"
  | some capsule => evaluateCapsuleUse platform capsule request

/-- What an authorized use was checked against. -/
theorem evaluateCapsuleUse_authorized {capsule : ApprovedShareCapsule η} {request : CapsuleUseRequest}
    {reason : String} (h : evaluateCapsuleUse platform capsule request = .authorized reason) :
    hashShareContent platform request.content = capsule.contentHash ∧
      destinationPermitted capsule.permittedDestinations request.destination = true := by
  unfold evaluateCapsuleUse at h
  repeat' split at h
  all_goals simp_all

/-! ## Parsing what was parsed -/

theorem parseRefList_parsed {refs parsed : List String} (h : parseRefList refs = some parsed) :
    parseRefList parsed = some parsed := by
  induction refs generalizing parsed with
  | nil =>
    obtain rfl := Option.some.inj h
    rfl
  | cons item rest ih =>
    rw [parseRefList] at h
    split at h
    · cases h
    · rename_i hitem
      obtain ⟨tail, htail, rfl⟩ := Option.map_eq_some_iff.1 h
      rw [parseRefList, JsString.trim_trim, if_neg hitem, ih htail]
      rfl

theorem parseShareContent_parsed {content parsed : ShareContent}
    (h : parseShareContent content = some parsed) : parseShareContent parsed = some parsed := by
  obtain ⟨refs, hrefs, rfl⟩ := Option.map_eq_some_iff.1 h
  simp [parseShareContent, parseRefList_parsed hrefs]

theorem parseScopedIds_parsed {ids parsed : Option (List String)}
    (h : parseScopedIds ids = some parsed) : parseScopedIds parsed = some parsed := by
  cases ids with
  | none =>
    obtain rfl := Option.some.inj h
    rfl
  | some ids =>
    simp only [parseScopedIds] at h
    split at h
    · cases h
    · cases h
    · rename_i refs hne hrefs
      obtain rfl := Option.some.inj h
      simp only [parseScopedIds, parseRefList_parsed hrefs]

theorem parseConstraint_parsed {c parsed : DisclosureDestinationConstraint}
    (h : parseDisclosureDestinationConstraint c = some parsed) :
    parseDisclosureDestinationConstraint parsed = some parsed := by
  unfold parseDisclosureDestinationConstraint at h
  split at h
  · rename_i hkind
    split at h
    · cases h
    · obtain ⟨ids, hids, rfl⟩ := Option.map_eq_some_iff.1 h
      simp [parseDisclosureDestinationConstraint, hkind, parseScopedIds_parsed hids]
  · rename_i hkind
    split at h
    · cases h
    · obtain ⟨ids, hids, rfl⟩ := Option.map_eq_some_iff.1 h
      simp [parseDisclosureDestinationConstraint, hkind, parseScopedIds_parsed hids]
  · rename_i hkind
    split at h
    · cases h
    · obtain rfl := Option.some.inj h
      simp [parseDisclosureDestinationConstraint, hkind]

theorem parseConstraintList_parsed {cs parsed : List DisclosureDestinationConstraint}
    (h : parseConstraintList cs = some parsed) : parseConstraintList parsed = some parsed := by
  induction cs generalizing parsed with
  | nil =>
    obtain rfl := Option.some.inj h
    rfl
  | cons c rest ih =>
    rw [parseConstraintList] at h
    split at h
    · cases h
    · rename_i c' hc
      obtain ⟨tail, htail, rfl⟩ := Option.map_eq_some_iff.1 h
      simp [parseConstraintList, parseConstraint_parsed hc, ih htail]

omit [DecidableEq η] in
theorem parseCapsuleExpiry_parsed {e parsed : CapsuleExpiry}
    (h : parseCapsuleExpiry platform e = some parsed) :
    parsed = e ∧ parseCapsuleExpiry platform parsed = some parsed := by
  have hsame : parsed = e := by
    unfold parseCapsuleExpiry at h
    repeat' split at h
    all_goals simp_all
  exact ⟨hsame, hsame ▸ h⟩

omit [DecidableEq η] in
/-- The cap of a parsed expiry is an integer, at least one. -/
theorem parseCapsuleExpiry_cap {e parsed : CapsuleExpiry}
    (h : parseCapsuleExpiry platform e = some parsed) {cap : JsNumber}
    (hcap : e.maxUseCount = some cap) : ∃ k : Int, cap = .finite k ∧ 1 ≤ k := by
  have hchecks : cap.isInteger = true ∧ cap.lt (.finite 1) = false := by
    unfold parseCapsuleExpiry at h
    split at h
    · cases h
    · split at h
      · cases h
      · rename_i hbad
        simpa [hcap] using hbad
  obtain ⟨k, rfl⟩ := JsNumber.exists_int_of_isInteger hchecks.1
  refine ⟨k, rfl, ?_⟩
  have hle := (JsNumber.lt_eq_false_iff (by simp) (by simp)).1 hchecks.2
  simp only [JsNumber.le, decide_eq_true_eq] at hle
  exact_mod_cast hle

omit [DecidableEq η] in
theorem parseShareApproval_parsed {a parsed : ShareApproval}
    (h : parseShareApproval platform a = some parsed) :
    parseShareApproval platform parsed = some parsed := by
  have hsame : parsed = a := by
    unfold parseShareApproval at h
    repeat' split at h
    all_goals simp_all
  exact hsame ▸ h

theorem trimmedReason_trimmedReason (reason : Option String) :
    trimmedReason (trimmedReason reason) = trimmedReason reason := by
  cases reason with
  | none => rfl
  | some reason =>
    by_cases h : JsString.trim reason = ""
    · simp [trimmedReason, Option.filter, h]
    · simp [trimmedReason, Option.filter, h]

omit [DecidableEq η] in
/-- A revocation that says when it was made is in the form the parse leaves it in. -/
theorem parseCapsuleRevocation_revoked {revokedAt : String}
    (h : isParseableTimestamp platform revokedAt = true) (reason : Option String) :
    parseCapsuleRevocation platform
      { revoked := true, revokedAt := some revokedAt, reason := trimmedReason reason } =
      some { revoked := true, revokedAt := some revokedAt, reason := trimmedReason reason } := by
  simp [parseCapsuleRevocation, h, trimmedReason_trimmedReason]

omit [DecidableEq η] in
theorem parseCapsuleRevocation_parsed {r parsed : CapsuleRevocation}
    (h : parseCapsuleRevocation platform r = some parsed) :
    parseCapsuleRevocation platform parsed = some parsed := by
  unfold parseCapsuleRevocation at h
  split at h
  · split at h
    · cases h
    · obtain rfl := Option.some.inj h
      rfl
  · split at h
    · cases h
    · split at h
      · cases h
      · rename_i revokedAt _ htime
        obtain rfl := Option.some.inj h
        exact parseCapsuleRevocation_revoked platform (by simpa using htime) _

theorem guard_eq_some_iff {c : Prop} [Decidable c] {u : Unit} :
    (guard c : Option Unit) = some u ↔ c := by
  by_cases h : c <;> simp [guard, h]

/-- What the parse asks of each part. -/
theorem parseApprovedShareCapsule_eq_some {value capsule : ApprovedShareCapsule η} :
    parseApprovedShareCapsule platform value = some capsule ↔
      isBoundedString value.capsuleId = true ∧ isBoundedString value.candidateId = true ∧
      capsule.capsuleId = value.capsuleId ∧ capsule.candidateId = value.candidateId ∧
      capsule.effectiveSensitivity = value.effectiveSensitivity ∧
      capsule.contentHash = value.contentHash ∧
      parseShareContent value.content = some capsule.content ∧
      value.contentHash = hashShareContent platform capsule.content ∧
      parseConstraintList value.permittedDestinations = some capsule.permittedDestinations ∧
      parseRefList value.provenanceRefs = some capsule.provenanceRefs ∧
      parseRefList value.subjectContactIds = some capsule.subjectContactIds ∧
      parseShareApproval platform value.approval = some capsule.approval ∧
      parseCapsuleExpiry platform value.expiry = some capsule.expiry ∧
      parseCapsuleRevocation platform value.revocation = some capsule.revocation := by
  cases capsule
  simp only [parseApprovedShareCapsule, Option.bind_eq_bind, Option.bind_eq_some_iff, guard_eq_some_iff,
    Option.pure_def, Option.some.injEq, ApprovedShareCapsule.mk.injEq]
  constructor
  · rintro ⟨_, h1, _, h2, _, h3, _, h4, _, h5, _, h6, _, h7, _, h8, _, h9, _, h10, rfl, rfl, rfl, rfl, rfl, rfl,
      rfl, rfl, rfl, rfl, rfl⟩
    exact ⟨h1, h2, rfl, rfl, rfl, rfl, h3, h4, h5, h6, h7, h8, h9, h10⟩
  · rintro ⟨h1, h2, rfl, rfl, rfl, rfl, h3, h4, h5, h6, h7, h8, h9, h10⟩
    exact ⟨(), h1, (), h2, _, h3, (), h4, _, h5, _, h6, _, h7, _, h8, _, h9, _, h10, rfl, rfl, rfl, rfl, rfl, rfl,
      rfl, rfl, rfl, rfl, rfl⟩

/-- **A parsed capsule parses to itself**, so custody writes back what it read. -/
theorem parseApprovedShareCapsule_parsed {value capsule : ApprovedShareCapsule η}
    (h : parseApprovedShareCapsule platform value = some capsule) :
    parseApprovedShareCapsule platform capsule = some capsule := by
  obtain ⟨hid, hcandidate, hid', hcandidate', -, hhash', hcontent, hhash, hdest, hprov, hsubj,
    happroval, hexpiry, hrevocation⟩ := (parseApprovedShareCapsule_eq_some platform).1 h
  rw [parseApprovedShareCapsule_eq_some]
  exact ⟨hid' ▸ hid, hcandidate' ▸ hcandidate, rfl, rfl, rfl, rfl, parseShareContent_parsed hcontent,
    hhash'.trans hhash, parseConstraintList_parsed hdest, parseRefList_parsed hprov,
    parseRefList_parsed hsubj, parseShareApproval_parsed platform happroval,
    (parseCapsuleExpiry_parsed platform hexpiry).2, parseCapsuleRevocation_parsed platform hrevocation⟩

end Psfn.Disclosure
