import Mathlib.Data.Option.Basic
import Psfn.Lib.Validate
import Psfn.Disclosure.CapsuleAccounting

/-!
# Share capsules — the custody file

The parsers of `capsule.ts` and the loader of `capsule-custody.ts` on values of unknown type,
as `JSON.parse` gives them. On the value of a capsule they compute what the parsers on
capsules do, so a run of the store over the file is a run over its records.

* `parseApprovedShareCapsuleValue_value` — parsing a capsule's value is parsing the capsule.
* `parseApprovedShareCapsuleValue_parsed` — whatever it was parsed from, a parsed capsule
  parses to itself.
* `custody_reloadable` — unless a capsule with a blank id is put, every file the store writes
  is loaded back as the records it was written from.
* `blankCapsuleId_unloadable` — a capsule with a blank id is put, and then nothing loads.
-/

namespace Psfn.Disclosure

open Psfn.Lib

/-! ## Parsers on unknown values -/

def textOf : JsValue → Option String
  | .string s => some s
  | _ => none

/-- `value === undefined ? undefined : parse(value)`, where `parse` may give `null`. -/
def optionalValue {α : Type} (value : JsValue) (parse : JsValue → Option α) : Option (Option α) :=
  if value.isUndefined then some none else (parse value).map some

def parseRefValue (item : JsValue) : Option String := do
  let ref ← textOf item
  guard (JsString.trim ref ≠ "")
  return JsString.trim ref

def parseRefListValue : JsValue → Option (List String)
  | .array items => items.mapM parseRefValue
  | _ => none

/-- The media refs are absent, or a list of refs. -/
def parseShareContentValue (value : JsValue) : Option ShareContent := do
  guard value.isRecord
  let body ← textOf (value.property "body")
  let mediaRefs ← optionalValue (value.property "mediaRefs") parseRefListValue
  return { body, mediaRefs := mediaRefs.getD [] }

/-- An id list of a constraint, which must not be empty. -/
def parseIdListValue (value : JsValue) : Option (List String) := do
  let ids ← parseRefListValue value
  guard (ids ≠ [])
  return ids

def parseDisclosureDestinationConstraintValue (value : JsValue) :
    Option DisclosureDestinationConstraint := do
  guard value.isRecord
  let kind ← ofText disclosureDestinationKinds DisclosureDestinationKind.text
    (value.property "kind")
  match disclosureKindIdField kind with
  | some .channelId => do
    guard (value.property "contactIds").isUndefined
    let channelIds ← optionalValue (value.property "channelIds") parseIdListValue
    return { kind, channelIds }
  | some .contactId => do
    guard (value.property "channelIds").isUndefined
    let contactIds ← optionalValue (value.property "contactIds") parseIdListValue
    return { kind, contactIds }
  | none => do
    guard ((value.property "channelIds").isUndefined ∧ (value.property "contactIds").isUndefined)
    return { kind }

def parseConstraintListValue : JsValue → Option (List DisclosureDestinationConstraint)
  | .array items => items.mapM parseDisclosureDestinationConstraintValue
  | _ => none

section Parsers

variable (platform : Platform String)

def parseTimestampValue (value : JsValue) : Option String := do
  let text ← textOf value
  guard (isParseableTimestamp platform text)
  return text

def parseMaxUseCount : JsValue → Option JsNumber
  | .number n => if !n.isInteger || n.lt (.finite 1) then none else some n
  | _ => none

def parseCapsuleExpiryValue (value : JsValue) : Option CapsuleExpiry := do
  guard value.isRecord
  let expiresAt ← optionalValue (value.property "expiresAt") (parseTimestampValue platform)
  let maxUseCount ← optionalValue (value.property "maxUseCount") parseMaxUseCount
  -- authority must be bounded by time and/or use-count
  guard (expiresAt.isSome ∨ maxUseCount.isSome)
  return { expiresAt, maxUseCount }

def parseCapsuleRevocationValue (value : JsValue) : Option CapsuleRevocation := do
  guard value.isRecord
  match value.property "revoked" with
  | .bool false => do
    guard ((value.property "revokedAt").isUndefined ∧ (value.property "reason").isUndefined)
    return { revoked := false }
  | .bool true => do
    let revokedAt ← parseTimestampValue platform (value.property "revokedAt")
    let reason ← optionalValue (value.property "reason") textOf
    return { revoked := true, revokedAt := some revokedAt, reason := trimmedReason reason }
  | _ => none

def parseBoundedString (value : JsValue) : Option String := do
  let text ← textOf value
  guard (isBoundedString text)
  return text

def parseShareApprovalValue (value : JsValue) : Option ShareApproval := do
  guard value.isRecord
  let actor ← parseBoundedString (value.property "actor")
  let approvedAt ← parseTimestampValue platform (value.property "approvedAt")
  return { actor, approvedAt }

/-- `SENSITIVITY_LEVELS`. -/
def sensitivityLevels : List SensitivityLevel := [.«public», .personal, .intimate, .confidential]

/-- `SHARE_CAPSULE_SCHEMA_VERSION`. -/
def shareCapsuleSchemaVersion : JsNumber := .finite 1

/-- `CAPSULE_AUTHORITY`. -/
def capsuleAuthority : String := "exact_replay"

/-- `value === literal`, for a number. -/
def isNumber (value : JsValue) (literal : JsNumber) : Bool :=
  match value with
  | .number n => n.strictEq literal
  | _ => false

def parseApprovedShareCapsuleValue (value : JsValue) : Option (ApprovedShareCapsule String) := do
  guard value.isRecord
  guard (isNumber (value.property "schemaVersion") shareCapsuleSchemaVersion)
  let capsuleId ← parseBoundedString (value.property "capsuleId")
  let candidateId ← parseBoundedString (value.property "candidateId")
  let content ← parseShareContentValue (value.property "content")
  let contentHash ← textOf (value.property "contentHash")
  guard (contentHash = hashShareContent platform content)
  let permittedDestinations ← parseConstraintListValue (value.property "permittedDestinations")
  let effectiveSensitivity ← ofText sensitivityLevels SensitivityLevel.text
    (value.property "effectiveSensitivity")
  let provenanceRefs ← parseRefListValue (value.property "provenanceRefs")
  let subjectContactIds ← parseRefListValue (value.property "subjectContactIds")
  let approval ← parseShareApprovalValue platform (value.property "approval")
  let expiry ← parseCapsuleExpiryValue platform (value.property "expiry")
  let revocation ← parseCapsuleRevocationValue platform (value.property "revocation")
  guard (textOf (value.property "authority") = some capsuleAuthority)
  return { capsuleId, candidateId, content, contentHash, permittedDestinations
           effectiveSensitivity, provenanceRefs, subjectContactIds, approval, expiry, revocation }

/-! ## The loader -/

def assertRecordShapeValue (filePath : String) (value : JsValue) :
    Except String (ShareCapsuleCustodyRecord String) := do
  throwIf (!value.isRecord) (invalidRecord filePath "record must be an object")
  let unknownKeys := value.ownKeys.filter (· ∉ ["capsuleId", "capsule", "useCount", "mintedAtMs"])
  throwIf (!unknownKeys.isEmpty)
    (invalidRecord filePath ("unsupported keys: " ++ ", ".intercalate unknownKeys))
  let id ← orThrow ((textOf (value.property "capsuleId")).filter (JsString.trim · ≠ ""))
    (invalidRecord filePath "missing capsuleId")
  let capsule ← orThrow (parseApprovedShareCapsuleValue platform (value.property "capsule"))
    (invalidRecord filePath
      s!"capsule '{id}' failed the ApprovedShareCapsule contract (tampered at rest?)")
  throwIf (capsule.capsuleId ≠ id) (invalidRecord filePath
    (s!"record capsuleId '{id}' does not match capsule.capsuleId '" ++ capsule.capsuleId ++ "'"))
  let useCount ← (match value.property "useCount" with
    | .number (.finite q) =>
      if q.den = 1 ∧ 0 ≤ q.num then .ok q.num.toNat
      else .error (invalidRecord filePath s!"useCount for '{id}' must be a non-negative integer")
    | _ => .error (invalidRecord filePath s!"useCount for '{id}' must be a non-negative integer"))
  throwIf (capsule.expiry.maxUseCount.any fun cap => cap.lt (count useCount))
    (invalidRecord filePath (s!"useCount {useCount} for '{id}' exceeds its cap of " ++
      ((capsule.expiry.maxUseCount.map platform.numberText).getD "")))
  let mintedAtMs ← (match value.property "mintedAtMs" with
    | .number n =>
      if n.isFinite then .ok n
      else .error (invalidRecord filePath s!"mintedAtMs for '{id}' must be a finite number")
    | _ => .error (invalidRecord filePath s!"mintedAtMs for '{id}' must be a finite number"))
  return { capsuleId := id, capsule, useCount, mintedAtMs }

def loadRecordValue (filePath : String) (entries : JsMap String (ShareCapsuleCustodyRecord String))
    (value : JsValue) : Except String (JsMap String (ShareCapsuleCustodyRecord String)) := do
  let record ← assertRecordShapeValue platform filePath value
  let id := record.capsuleId
  throwIf (entries.has id) (invalidRecord filePath s!"duplicate capsuleId '{id}'")
  return entries.set id record

/-- `load`; an absent file is an empty store. -/
def loadFile (filePath : String) (file : Option JsValue) :
    Except String (JsMap String (ShareCapsuleCustodyRecord String)) :=
  match file with
  | none => .ok JsMap.empty
  | some parsed => do
    let values ← (match isNumber (parsed.property "version") (.finite 1),
        parsed.property "entries" with
      | true, .array values => .ok values
      | _, _ => .error s!"Unsupported share capsule custody file shape at {filePath}")
    values.foldlM (loadRecordValue platform filePath) JsMap.empty

end Parsers

/-! ## Values -/

def ShareContent.value (c : ShareContent) : JsValue :=
  .object [("body", .string c.body), ("mediaRefs", stringsValue c.mediaRefs)]

def epochsValue (epochs : JsMap String JsNumber) : JsValue :=
  .object (epochs.entries.map fun p => (p.1, .number p.2))

def DisclosureDestinationConstraint.value (c : DisclosureDestinationConstraint) : JsValue :=
  .object ([("kind", .string c.kind.text)]
    ++ (optionalProperty "channelIds" stringsValue c.channelIds
    ++ (optionalProperty "contactIds" stringsValue c.contactIds
    ++ optionalProperty "channelEpochs" epochsValue c.channelEpochs)))

def CapsuleExpiry.value (e : CapsuleExpiry) : JsValue :=
  .object (optionalProperty "expiresAt" .string e.expiresAt
    ++ optionalProperty "maxUseCount" .number e.maxUseCount)

def CapsuleRevocation.value (r : CapsuleRevocation) : JsValue :=
  .object ([("revoked", .bool r.revoked)]
    ++ (optionalProperty "revokedAt" .string r.revokedAt
    ++ optionalProperty "reason" .string r.reason))

def ShareApproval.value (a : ShareApproval) : JsValue :=
  .object [("actor", .string a.actor), ("approvedAt", .string a.approvedAt)]

def ApprovedShareCapsule.value (c : ApprovedShareCapsule String) : JsValue :=
  .object [("schemaVersion", .number shareCapsuleSchemaVersion),
    ("capsuleId", .string c.capsuleId), ("candidateId", .string c.candidateId),
    ("content", c.content.value), ("contentHash", .string c.contentHash),
    ("permittedDestinations", .array (c.permittedDestinations.map (·.value))),
    ("effectiveSensitivity", .string c.effectiveSensitivity.text),
    ("provenanceRefs", stringsValue c.provenanceRefs),
    ("subjectContactIds", stringsValue c.subjectContactIds), ("approval", c.approval.value),
    ("expiry", c.expiry.value), ("revocation", c.revocation.value),
    ("authority", .string capsuleAuthority)]

def ShareCapsuleCustodyRecord.value (r : ShareCapsuleCustodyRecord String) : JsValue :=
  .object [("capsuleId", .string r.capsuleId), ("capsule", r.capsule.value),
    ("useCount", .number (count r.useCount)), ("mintedAtMs", .number r.mintedAtMs)]

/-- `CustodyFileShape`. -/
def fileShape (file : CustodyFile String) : JsValue :=
  .object [("version", .number (.finite 1)), ("entries", .array (file.map (·.value)))]

/-! ## Parsing a value is parsing what it is the value of -/

theorem parseRefListValue_value (refs : List String) :
    parseRefListValue (stringsValue refs) = parseRefList refs := by
  change (refs.map JsValue.string).mapM parseRefValue = parseRefList refs
  induction refs with
  | nil => rfl
  | cons ref rest ih =>
    rw [List.map_cons, List.mapM_cons, ih, parseRefList]
    by_cases href : JsString.trim ref = ""
    · simp [parseRefValue, textOf, href]
    · cases parseRefList rest <;> simp [parseRefValue, textOf, href]

variable {α : Type}

theorem optionalValue_getD {β : Type} {toValue : α → JsValue} {parse : JsValue → Option β}
    (hdefined : ∀ a, (toValue a).isUndefined = false) (value : Option α) :
    optionalValue ((value.map toValue).getD .undefined) parse =
      match value with
      | none => some none
      | some a => (parse (toValue a)).map some := by
  cases value with
  | none => rfl
  | some a => simp [optionalValue, hdefined a]

theorem optionalValue_of_defined {value : JsValue} {parse : JsValue → Option α}
    (h : value.isUndefined = false) : optionalValue value parse = (parse value).map some := by
  simp [optionalValue, h]

theorem parseShareContentValue_value (c : ShareContent) :
    parseShareContentValue c.value = parseShareContent c := by
  have hbody : c.value.property "body" = .string c.body := rfl
  have hrefs : c.value.property "mediaRefs" = stringsValue c.mediaRefs := rfl
  have hrecord : c.value.isRecord = true := rfl
  rw [parseShareContentValue, parseShareContent, hbody, hrefs, hrecord,
    optionalValue_of_defined (isUndefined_stringsValue _), parseRefListValue_value]
  cases parseRefList c.mediaRefs <;> simp [textOf]

theorem parseIdListValue_value (ids : List String) :
    (parseIdListValue (stringsValue ids)).map some = parseScopedIds (some ids) := by
  rw [parseIdListValue, parseRefListValue_value, parseScopedIds]
  cases parseRefList ids with
  | none => rfl
  | some refs => cases refs <;> simp

theorem optionalIds_value (ids : Option (List String)) :
    optionalValue ((ids.map stringsValue).getD .undefined) parseIdListValue =
      parseScopedIds ids := by
  rw [optionalValue_getD isUndefined_stringsValue]
  cases ids with
  | none => rfl
  | some ids => exact parseIdListValue_value ids

theorem isUndefined_optionalIds (ids : Option (List String)) :
    ((ids.map stringsValue).getD JsValue.undefined).isUndefined = ids.isNone := by
  cases ids <;> rfl

@[simp] theorem ofText_destinationKind (k : DisclosureDestinationKind) :
    ofText disclosureDestinationKinds DisclosureDestinationKind.text (.string k.text) = some k := by
  cases k <;> rfl

@[simp] theorem ofText_sensitivityLevel (l : SensitivityLevel) :
    ofText sensitivityLevels SensitivityLevel.text (.string l.text) = some l := by
  cases l <;> rfl

theorem parseDisclosureDestinationConstraintValue_value (c : DisclosureDestinationConstraint) :
    parseDisclosureDestinationConstraintValue c.value =
      parseDisclosureDestinationConstraint c := by
  have hkind : c.value.property "kind" = .string c.kind.text := rfl
  have hchannels : c.value.property "channelIds" =
      (c.channelIds.map stringsValue).getD .undefined := by
    simp [DisclosureDestinationConstraint.value, JsValue.property, JsMap.lookup]
  have hcontacts : c.value.property "contactIds" =
      (c.contactIds.map stringsValue).getD .undefined := by
    simp [DisclosureDestinationConstraint.value, JsValue.property, JsMap.lookup]
  have hrecord : c.value.isRecord = true := rfl
  rw [parseDisclosureDestinationConstraintValue, parseDisclosureDestinationConstraint, hkind,
    hchannels, hcontacts, hrecord, ofText_destinationKind, isUndefined_optionalIds,
    isUndefined_optionalIds, optionalIds_value, optionalIds_value]
  cases hfield : disclosureKindIdField c.kind with
  | none => cases c.channelIds <;> cases c.contactIds <;> simp [hfield]
  | some field =>
    cases field with
    | channelId =>
      cases c.contactIds <;> cases parseScopedIds c.channelIds <;> simp [hfield]
    | contactId =>
      cases c.channelIds <;> cases parseScopedIds c.contactIds <;> simp [hfield]

theorem parseConstraintListValue_value (cs : List DisclosureDestinationConstraint) :
    parseConstraintListValue (.array (cs.map (·.value))) = parseConstraintList cs := by
  rw [parseConstraintListValue]
  induction cs with
  | nil => rfl
  | cons c rest ih =>
    rw [List.map_cons, List.mapM_cons, ih, parseDisclosureDestinationConstraintValue_value,
      parseConstraintList]
    cases parseDisclosureDestinationConstraint c with
    | none => rfl
    | some c' => cases parseConstraintList rest <;> rfl

section Values

variable (platform : Platform String)

theorem parseTimestampValue_string (s : String) :
    parseTimestampValue platform (.string s) =
      if isParseableTimestamp platform s then some s else none := by
  by_cases h : isParseableTimestamp platform s = true <;> simp [parseTimestampValue, textOf, h]

theorem parseCapsuleExpiryValue_value (e : CapsuleExpiry) :
    parseCapsuleExpiryValue platform e.value = parseCapsuleExpiry platform e := by
  have hexpires : e.value.property "expiresAt" = (e.expiresAt.map .string).getD .undefined := by
    simp [CapsuleExpiry.value, JsValue.property]
  have hmax : e.value.property "maxUseCount" = (e.maxUseCount.map .number).getD .undefined := by
    simp [CapsuleExpiry.value, JsValue.property]
  have hrecord : e.value.isRecord = true := rfl
  rw [parseCapsuleExpiryValue, parseCapsuleExpiry, hexpires, hmax, hrecord,
    optionalValue_getD fun _ => rfl, optionalValue_getD fun _ => rfl]
  obtain ⟨expiresAt, maxUseCount⟩ := e
  cases expiresAt with
  | none =>
    cases maxUseCount with
    | none => rfl
    | some n => by_cases hn : (!n.isInteger || n.lt (.finite 1)) = true <;>
        simp [parseMaxUseCount, hn]
  | some t =>
    by_cases ht : isParseableTimestamp platform t = true
    · cases maxUseCount with
      | none => simp [parseTimestampValue_string, ht]
      | some n => by_cases hn : (!n.isInteger || n.lt (.finite 1)) = true <;>
          simp [parseTimestampValue_string, parseMaxUseCount, ht, hn]
    · simp [parseTimestampValue_string, ht]

theorem parseCapsuleRevocationValue_value (r : CapsuleRevocation) :
    parseCapsuleRevocationValue platform r.value = parseCapsuleRevocation platform r := by
  have hat : r.value.property "revokedAt" = (r.revokedAt.map .string).getD .undefined := by
    simp [CapsuleRevocation.value, JsValue.property, JsMap.lookup]
  have hreason : r.value.property "reason" = (r.reason.map .string).getD .undefined := by
    simp [CapsuleRevocation.value, JsValue.property, JsMap.lookup]
  have hrevoked : r.value.property "revoked" = .bool r.revoked := rfl
  have hrecord : r.value.isRecord = true := rfl
  rw [parseCapsuleRevocationValue, parseCapsuleRevocation, hat, hreason, hrevoked, hrecord]
  obtain ⟨revoked, revokedAt, reason⟩ := r
  cases revoked with
  | false =>
    cases revokedAt <;> cases reason <;> simp [JsValue.isUndefined]
  | true =>
    cases revokedAt with
    | none => simp [parseTimestampValue, textOf]
    | some t =>
      by_cases ht : isParseableTimestamp platform t = true
      · cases reason <;>
          simp [parseTimestampValue_string, ht, optionalValue, JsValue.isUndefined, textOf]
      · simp [parseTimestampValue_string, ht]

theorem parseBoundedString_string (s : String) :
    parseBoundedString (.string s) = if isBoundedString s then some s else none := by
  by_cases h : isBoundedString s = true <;> simp [parseBoundedString, textOf, h]

theorem parseShareApprovalValue_value (a : ShareApproval) :
    parseShareApprovalValue platform a.value = parseShareApproval platform a := by
  have hactor : a.value.property "actor" = .string a.actor := rfl
  have hat : a.value.property "approvedAt" = .string a.approvedAt := rfl
  have hrecord : a.value.isRecord = true := rfl
  rw [parseShareApprovalValue, parseShareApproval, hactor, hat, hrecord, parseBoundedString_string,
    parseTimestampValue_string]
  by_cases h : isBoundedString a.actor = true <;>
    by_cases h' : isParseableTimestamp platform a.approvedAt = true <;> simp [h, h']

/-- Parsing a capsule's value is parsing the capsule. -/
theorem parseApprovedShareCapsuleValue_value (c : ApprovedShareCapsule String) :
    parseApprovedShareCapsuleValue platform c.value = parseApprovedShareCapsule platform c := by
  have hrecord : c.value.isRecord = true := rfl
  have hversion : isNumber (c.value.property "schemaVersion") shareCapsuleSchemaVersion = true :=
    rfl
  have hid : c.value.property "capsuleId" = .string c.capsuleId := rfl
  have hcandidate : c.value.property "candidateId" = .string c.candidateId := rfl
  have hcontent : c.value.property "content" = c.content.value := rfl
  have hhash : c.value.property "contentHash" = .string c.contentHash := rfl
  have hdestinations : c.value.property "permittedDestinations" =
      .array (c.permittedDestinations.map (·.value)) := rfl
  have hsensitivity : c.value.property "effectiveSensitivity" =
      .string c.effectiveSensitivity.text := rfl
  have hprovenance : c.value.property "provenanceRefs" = stringsValue c.provenanceRefs := rfl
  have hsubjects : c.value.property "subjectContactIds" = stringsValue c.subjectContactIds := rfl
  have happroval : c.value.property "approval" = c.approval.value := rfl
  have hexpiry : c.value.property "expiry" = c.expiry.value := rfl
  have hrevocation : c.value.property "revocation" = c.revocation.value := rfl
  have hauthority : textOf (c.value.property "authority") = some capsuleAuthority := rfl
  rw [parseApprovedShareCapsuleValue, parseApprovedShareCapsule, hrecord, hversion, hid,
    hcandidate, hcontent, hhash, hdestinations, hsensitivity, hprovenance, hsubjects, happroval,
    hexpiry, hrevocation, hauthority, parseBoundedString_string, parseBoundedString_string,
    parseShareContentValue_value, parseConstraintListValue_value, ofText_sensitivityLevel,
    parseRefListValue_value, parseRefListValue_value, parseShareApprovalValue_value,
    parseCapsuleExpiryValue_value, parseCapsuleRevocationValue_value]
  by_cases h1 : isBoundedString c.capsuleId = true <;>
    by_cases h2 : isBoundedString c.candidateId = true <;> simp [h1, h2, textOf]

/-! ## What a parser returns it returns again -/

variable {v : JsValue}

theorem parseRefListValue_parsed {refs : List String} (h : parseRefListValue v = some refs) :
    parseRefList refs = some refs := by
  cases v with
  | array items =>
    rw [parseRefListValue] at h
    induction items generalizing refs with
    | nil =>
      obtain rfl : [] = refs := by simpa using h
      rfl
    | cons item rest ih =>
      simp only [List.mapM_cons, Option.bind_eq_bind, Option.bind_eq_some_iff, Option.pure_def,
        Option.some.injEq, parseRefValue, guard_eq_some_iff] at h
      obtain ⟨_, ⟨ref, -, _, hne, rfl⟩, tail, htail, rfl⟩ := h
      rw [parseRefList, JsString.trim_trim, if_neg hne, ih htail]
      rfl
  | _ => cases h

theorem optionalValue_eq_some {parse : JsValue → Option α} {r : Option α}
    (h : optionalValue v parse = some r) :
    r = none ∨ ∃ a, parse v = some a ∧ r = some a := by
  unfold optionalValue at h
  split at h
  · exact .inl (Option.some.inj h).symm
  · obtain ⟨a, ha, rfl⟩ := Option.map_eq_some_iff.1 h
    exact .inr ⟨a, ha, rfl⟩

theorem parseShareContentValue_parsed {c : ShareContent} (h : parseShareContentValue v = some c) :
    parseShareContent c = some c := by
  simp only [parseShareContentValue, Option.bind_eq_bind, Option.bind_eq_some_iff, Option.pure_def,
    Option.some.injEq] at h
  obtain ⟨_, -, body, -, refs, hrefs, rfl⟩ := h
  rcases optionalValue_eq_some hrefs with rfl | ⟨refs, hparse, rfl⟩
  · rfl
  · simp [parseShareContent, parseRefListValue_parsed hparse]

theorem parseScopedIds_of_value {ids : Option (List String)}
    (h : optionalValue v parseIdListValue = some ids) : parseScopedIds ids = some ids := by
  rcases optionalValue_eq_some h with rfl | ⟨refs, hparse, rfl⟩
  · rfl
  · simp only [parseIdListValue, Option.bind_eq_bind, Option.bind_eq_some_iff, Option.pure_def,
      Option.some.injEq, guard_eq_some_iff] at hparse
    obtain ⟨_, hrefs, _, hne, rfl⟩ := hparse
    simp only [parseScopedIds, parseRefListValue_parsed hrefs]

theorem parseConstraintValue_parsed {c : DisclosureDestinationConstraint}
    (h : parseDisclosureDestinationConstraintValue v = some c) :
    parseDisclosureDestinationConstraint c = some c := by
  simp only [parseDisclosureDestinationConstraintValue, Option.bind_eq_bind,
    Option.bind_eq_some_iff] at h
  obtain ⟨_, -, kind, -, h⟩ := h
  split at h
  · rename_i hfield
    simp only [Option.bind_eq_some_iff, Option.pure_def, Option.some.injEq] at h
    obtain ⟨_, -, ids, hids, rfl⟩ := h
    simp [parseDisclosureDestinationConstraint, hfield, parseScopedIds_of_value hids]
  · rename_i hfield
    simp only [Option.bind_eq_some_iff, Option.pure_def, Option.some.injEq] at h
    obtain ⟨_, -, ids, hids, rfl⟩ := h
    simp [parseDisclosureDestinationConstraint, hfield, parseScopedIds_of_value hids]
  · rename_i hfield
    simp only [Option.bind_eq_some_iff, Option.pure_def, Option.some.injEq] at h
    obtain ⟨_, -, rfl⟩ := h
    simp [parseDisclosureDestinationConstraint, hfield]

theorem parseConstraintListValue_parsed {cs : List DisclosureDestinationConstraint}
    (h : parseConstraintListValue v = some cs) : parseConstraintList cs = some cs := by
  cases v with
  | array items =>
    rw [parseConstraintListValue] at h
    induction items generalizing cs with
    | nil =>
      obtain rfl : [] = cs := by simpa using h
      rfl
    | cons item rest ih =>
      simp only [List.mapM_cons, Option.bind_eq_bind, Option.bind_eq_some_iff, Option.pure_def,
        Option.some.injEq] at h
      obtain ⟨c, hc, tail, htail, rfl⟩ := h
      rw [parseConstraintList, parseConstraintValue_parsed hc, ih htail]
      rfl
  | _ => cases h

theorem parseTimestampValue_eq_some {s : String} (h : parseTimestampValue platform v = some s) :
    isParseableTimestamp platform s = true := by
  simp only [parseTimestampValue, Option.bind_eq_bind, Option.bind_eq_some_iff, Option.pure_def,
    Option.some.injEq, guard_eq_some_iff] at h
  obtain ⟨_, -, _, hparses, rfl⟩ := h
  exact hparses

theorem parseCapsuleExpiryValue_parsed {e : CapsuleExpiry}
    (h : parseCapsuleExpiryValue platform v = some e) :
    parseCapsuleExpiry platform e = some e := by
  simp only [parseCapsuleExpiryValue, Option.bind_eq_bind, Option.bind_eq_some_iff, Option.pure_def,
    Option.some.injEq, guard_eq_some_iff] at h
  obtain ⟨_, -, expiresAt, hexpires, maxUseCount, hmax, _, hbounded, rfl⟩ := h
  have hat : (expiresAt.any fun t => !isParseableTimestamp platform t) = false := by
    rcases optionalValue_eq_some hexpires with rfl | ⟨t, ht, rfl⟩
    · rfl
    · simp [parseTimestampValue_eq_some platform ht]
  have hcap : (maxUseCount.any fun n => !n.isInteger || n.lt (.finite 1)) = false := by
    rcases optionalValue_eq_some hmax with rfl | ⟨n, hn, rfl⟩
    · rfl
    · unfold parseMaxUseCount at hn
      split at hn
      · split at hn
        · cases hn
        · rename_i hok
          obtain rfl := Option.some.inj hn
          simpa using hok
      · cases hn
  simp only [parseCapsuleExpiry, hat, hcap, Bool.false_eq_true, if_false]
  rw [if_neg]
  rcases hbounded with hb | hb <;> simp [Option.isSome_iff_ne_none.1 hb]

theorem parseCapsuleRevocationValue_parsed {r : CapsuleRevocation}
    (h : parseCapsuleRevocationValue platform v = some r) :
    parseCapsuleRevocation platform r = some r := by
  simp only [parseCapsuleRevocationValue, Option.bind_eq_bind, Option.bind_eq_some_iff] at h
  obtain ⟨_, -, h⟩ := h
  split at h
  · simp only [Option.bind_eq_some_iff, Option.pure_def, Option.some.injEq] at h
    obtain ⟨_, -, rfl⟩ := h
    rfl
  · simp only [Option.bind_eq_some_iff, Option.pure_def, Option.some.injEq] at h
    obtain ⟨revokedAt, hat, reason, -, rfl⟩ := h
    exact parseCapsuleRevocation_revoked platform (parseTimestampValue_eq_some platform hat) reason
  · cases h

theorem parseBoundedString_eq_some {s : String} (h : parseBoundedString v = some s) :
    isBoundedString s = true := by
  simp only [parseBoundedString, Option.bind_eq_bind, Option.bind_eq_some_iff, Option.pure_def,
    Option.some.injEq, guard_eq_some_iff] at h
  obtain ⟨_, -, _, hbounded, rfl⟩ := h
  exact hbounded

theorem parseShareApprovalValue_parsed {a : ShareApproval}
    (h : parseShareApprovalValue platform v = some a) :
    parseShareApproval platform a = some a := by
  simp only [parseShareApprovalValue, Option.bind_eq_bind, Option.bind_eq_some_iff, Option.pure_def,
    Option.some.injEq] at h
  obtain ⟨_, -, actor, hactor, approvedAt, hat, rfl⟩ := h
  simp [parseShareApproval, parseBoundedString_eq_some hactor,
    parseTimestampValue_eq_some platform hat]

/-- **The parse is idempotent on its image**, whatever value it was given. -/
theorem parseApprovedShareCapsuleValue_parsed {c : ApprovedShareCapsule String}
    (h : parseApprovedShareCapsuleValue platform v = some c) :
    parseApprovedShareCapsuleValue platform c.value = some c := by
  rw [parseApprovedShareCapsuleValue_value, parseApprovedShareCapsule_eq_some]
  simp only [parseApprovedShareCapsuleValue, Option.bind_eq_bind, Option.bind_eq_some_iff,
    Option.pure_def, Option.some.injEq, guard_eq_some_iff] at h
  obtain ⟨_, -, _, -, _, hid, _, hcandidate, _, hcontent, _, -, _, hhash, _, hdestinations, _, -,
    _, hprovenance, _, hsubjects, _, happroval, _, hexpiry, _, hrevocation, _, -, rfl⟩ := h
  exact ⟨parseBoundedString_eq_some hid, parseBoundedString_eq_some hcandidate, rfl, rfl, rfl, rfl,
    parseShareContentValue_parsed hcontent, hhash, parseConstraintListValue_parsed hdestinations,
    parseRefListValue_parsed hprovenance, parseRefListValue_parsed hsubjects,
    parseShareApprovalValue_parsed platform happroval,
    parseCapsuleExpiryValue_parsed platform hexpiry,
    parseCapsuleRevocationValue_parsed platform hrevocation⟩

end Values

/-! ## The file -/

section File

variable (platform : Platform String) (filePath : String)

theorem assertRecordShapeValue_value (r : ShareCapsuleCustodyRecord String) :
    assertRecordShapeValue platform filePath r.value = assertRecordShape platform filePath r := by
  have hrecord : r.value.isRecord = true := rfl
  have hkeys : r.value.ownKeys.filter (· ∉ ["capsuleId", "capsule", "useCount", "mintedAtMs"]) =
      [] := rfl
  have hid : r.value.property "capsuleId" = .string r.capsuleId := rfl
  have hcapsule : r.value.property "capsule" = r.capsule.value := rfl
  have hcount : r.value.property "useCount" = .number (.finite (r.useCount : Rat)) := rfl
  have hminted : r.value.property "mintedAtMs" = .number r.mintedAtMs := rfl
  have hnat : ((r.useCount : Rat)).den = 1 ∧ 0 ≤ ((r.useCount : Rat)).num := by simp
  simp only [assertRecordShapeValue, assertRecordShape, hrecord, hkeys, hid, hcapsule, hcount,
    hminted, parseApprovedShareCapsuleValue_value, textOf, if_pos hnat]
  by_cases hblank : JsString.trim r.capsuleId = ""
  · simp [hblank, throwIf, orThrow, Option.filter, bind, Except.bind]
  · cases parseApprovedShareCapsule platform r.capsule with
    | none => simp [hblank, throwIf, orThrow, Option.filter, bind, Except.bind]
    | some capsule =>
      cases hfinite : r.mintedAtMs.isFinite <;>
        simp [hblank, throwIf, orThrow, Option.filter, bind, Except.bind, Except.pure, pure]

theorem loadFile_fileShape (file : CustodyFile String) :
    loadFile platform filePath (some (fileShape file)) = load platform filePath file := by
  have hentries : (fileShape file).property "entries" = .array (file.map (·.value)) := rfl
  have hversion : isNumber ((fileShape file).property "version") (.finite 1) = true := rfl
  have hround : ∀ entries r, loadRecordValue platform filePath entries r.value =
      loadRecord platform filePath entries r := by
    intro entries r
    rw [loadRecordValue, loadRecord, assertRecordShapeValue_value]
  simp only [loadFile, hentries, hversion, load]
  change (file.map (·.value)).foldlM (loadRecordValue platform filePath) JsMap.empty = _
  rw [List.foldlM_map]
  simp only [hround]

end File

/-! ## Minting by approval -/

structure ShareCandidate where
  candidateId          : String
  content              : ShareContent
  proposedDestinations : List DisclosureDestinationConstraint
  effectiveSensitivity : SensitivityLevel
  provenanceRefs       : List String
  subjectContactIds    : List String

structure ShareApprovalGrant where
  capsuleId  : String
  actor      : String
  approvedAt : String
  expiry     : CapsuleExpiry

/-- The hash is computed again from the candidate's content. -/
def approveShareCandidate (platform : Platform String) (candidate : ShareCandidate)
    (grant : ShareApprovalGrant) : Except String (ApprovedShareCapsule String) := do
  let capsuleId := JsString.trim grant.capsuleId
  throwIf (capsuleId = "") "Share approval requires a non-empty capsuleId"
  let actor := JsString.trim grant.actor
  throwIf (actor = "") "Share approval requires a non-empty actor"
  throwIf (!isParseableTimestamp platform grant.approvedAt)
    "Share approval requires a valid approvedAt timestamp"
  let expiry ← orThrow (parseCapsuleExpiry platform grant.expiry)
    "Share approval requires a bounded expiry (expiresAt and/or maxUseCount)"
  return { capsuleId
           candidateId := candidate.candidateId
           content := candidate.content
           contentHash := hashShareContent platform candidate.content
           permittedDestinations := candidate.proposedDestinations
           effectiveSensitivity := candidate.effectiveSensitivity
           provenanceRefs := candidate.provenanceRefs
           subjectContactIds := candidate.subjectContactIds
           approval := { actor, approvedAt := grant.approvedAt }
           expiry
           revocation := { revoked := false } }

variable {capsule : ApprovedShareCapsule String}

/-- A capsule an approval made has an id that is not blank. -/
theorem approveShareCandidate_capsuleId {platform : Platform String} {candidate : ShareCandidate}
    {grant : ShareApprovalGrant}
    (h : approveShareCandidate platform candidate grant = .ok capsule) :
    JsString.trim capsule.capsuleId ≠ "" := by
  simp only [approveShareCandidate, bind_eq_ok, throwIf_eq_ok] at h
  obtain ⟨_, hne, _, -, _, -, expiry, -, hr⟩ := h
  obtain rfl := Except.ok.inj hr
  simpa [JsString.trim_trim] using hne

/-! ## Every sequence of operations -/

inductive CustodyOperation where
  | put (capsule : ApprovedShareCapsule String) (mintedAtMs : JsNumber)
  | recordUse (capsuleId : String) (expectedPriorUseCount : Nat)
  | revoke (input : RevokeCapsuleInput)

/-- The file an operation persists. -/
def CustodyOperation.run (platform : Platform String) (store : ShareCapsuleCustodyStore)
    (file : CustodyFile String) : CustodyOperation → Except String (CustodyFile String)
  | .put capsule mintedAtMs =>
    (putApprovedCapsule platform store file capsule mintedAtMs).map Prod.snd
  | .recordUse capsuleId expected =>
    (recordExactReplayUse platform store file capsuleId expected).map Prod.snd
  | .revoke input => (revokeCapsule platform store file input).map Prod.snd

def custodyFileSystem (platform : Platform String) (allowed : CustodyOperation → Prop) :
    System (CustodyFile String) where
  init := []
  step file file' := ∃ store operation, allowed operation ∧
    CustodyOperation.run platform store file operation = .ok file'

/-- Timestamps are finite. -/
def CustodyOperation.Finite : CustodyOperation → Prop
  | .put _ mintedAtMs => mintedAtMs.isFinite = true
  | .recordUse .. => True
  | .revoke _ => True

/-- No capsule with a blank id is put. -/
def CustodyOperation.Named : CustodyOperation → Prop
  | .put capsule _ => JsString.trim capsule.capsuleId ≠ ""
  | .recordUse .. => True
  | .revoke _ => True

section Runs

variable {platform : Platform String}

/-- A record the loader accepts as it is. -/
structure Loadable (platform : Platform String) (r : ShareCapsuleCustodyRecord String) : Prop where
  settled : Settled platform r
  named   : JsString.trim r.capsuleId ≠ ""
  capped  : (r.capsule.expiry.maxUseCount.any fun cap => cap.lt (count r.useCount)) = false
  minted  : r.mintedAtMs.isFinite = true

variable {r : ShareCapsuleCustodyRecord String}

theorem Loadable.assertRecordShape (h : Loadable platform r) (filePath : String) :
    assertRecordShape platform filePath r = .ok r := by
  simp [Disclosure.assertRecordShape, h.settled.parsed, h.settled.id_eq, h.named, h.capped,
    h.minted, throwIf, bind, Except.bind, pure, Except.pure]

/-- Records the loader accepts, under different ids, load as they stand. -/
theorem load_loadable (filePath : String) {file : CustodyFile String}
    (hfile : ∀ r ∈ file, Loadable platform r) (hnodup : (file.map (·.capsuleId)).Nodup) :
    ∃ entries, load platform filePath file = .ok entries ∧ entries.values = file := by
  suffices hacc : ∀ (file : CustodyFile String)
      (acc : JsMap String (ShareCapsuleCustodyRecord String)),
      (∀ r ∈ file, Loadable platform r) → (file.map (·.capsuleId)).Nodup →
      (∀ r ∈ file, acc.has r.capsuleId = false) →
      ∃ entries, file.foldlM (loadRecord platform filePath) acc = .ok entries by
    obtain ⟨entries, hload⟩ := hacc file JsMap.empty hfile hnodup fun _ _ => rfl
    exact ⟨entries, hload, load_values (fun r hr => (hfile r hr).settled) hload⟩
  intro file
  induction file with
  | nil => exact fun acc _ _ _ => ⟨acc, rfl⟩
  | cons r rest ih =>
    intro acc hfile hnodup hnew
    obtain ⟨hnotMem, hrest⟩ := List.nodup_cons.1 hnodup
    have hr := hfile r (List.mem_cons_self ..)
    have hround : loadRecord platform filePath acc r = .ok (acc.set r.capsuleId r) := by
      simp [loadRecord, hr.assertRecordShape, hnew r (List.mem_cons_self ..), throwIf, bind,
        Except.bind, pure, Except.pure]
    obtain ⟨entries, hload⟩ := ih (acc.set r.capsuleId r)
      (fun r' hr' => hfile r' (List.mem_cons_of_mem _ hr')) hrest (by
        intro r' hr'
        have hne : r'.capsuleId ≠ r.capsuleId := fun heq =>
          hnotMem (List.mem_map.2 ⟨r', hr', heq⟩)
        rw [JsMap.has, JsMap.get_set_of_ne _ hne]
        exact hnew r' (List.mem_cons_of_mem _ hr'))
    refine ⟨entries, ?_⟩
    rw [List.foldlM_cons, hround]
    exact hload

/-- What holds of every file of a run. -/
structure ReloadableFile (platform : Platform String) (file : CustodyFile String) : Prop where
  loadable : ∀ r ∈ file, Loadable platform r
  nodup    : (file.map (·.capsuleId)).Nodup

variable {store : ShareCapsuleCustodyStore} {file file' : CustodyFile String}

theorem ReloadableFile.settled (h : ReloadableFile platform file) :
    ∀ r ∈ file, Settled platform r := fun r hr => (h.loadable r hr).settled

theorem ReloadableFile.put (h : ReloadableFile platform file) {mintedAtMs : JsNumber}
    (hfinite : mintedAtMs.isFinite = true) (hnamed : JsString.trim capsule.capsuleId ≠ "")
    {record : ShareCapsuleCustodyRecord String}
    (hput : putApprovedCapsule platform store file capsule mintedAtMs = .ok (record, file')) :
    ReloadableFile platform file' := by
  obtain ⟨rfl, hsettled, hzero, hminted, hnew, -⟩ := putApprovedCapsule_spec h.settled hput
  have hid : record.capsuleId = capsule.capsuleId := by
    unfold putApprovedCapsule at hput
    split at hput
    · cases hput
    · rename_i validated hvalidated
      simp only [bind_eq_ok, throwIf_eq_ok] at hput
      obtain ⟨entries, -, _, -, _, -, hr⟩ := hput
      obtain ⟨rfl, -⟩ := Prod.mk.inj (Except.ok.inj hr)
      exact ((parseApprovedShareCapsule_eq_some platform).1 hvalidated).2.2.1
  refine ⟨?_, ?_⟩
  · intro r hr
    rcases List.mem_append.1 hr with hr | hr
    · exact h.loadable r hr
    · obtain rfl := List.mem_singleton.1 hr
      refine ⟨hsettled, hid ▸ hnamed, ?_, hminted ▸ hfinite⟩
      -- an unused record is below any cap
      cases hcap : r.capsule.expiry.maxUseCount with
      | none => rfl
      | some cap =>
        obtain ⟨k, rfl, hk⟩ := hsettled.cap hcap
        rw [Option.any_some, hzero]
        refine (JsNumber.lt_eq_false_iff (by simp) (by simp [count])).2 ?_
        simp only [count, JsNumber.le, decide_eq_true_eq]
        exact_mod_cast (by omega : (0 : Int) ≤ k)
  · rw [List.map_append, List.nodup_append]
    refine ⟨h.nodup, List.nodup_singleton _, ?_⟩
    intro a ha b hb
    obtain ⟨r, hr, rfl⟩ := List.mem_map.1 ha
    obtain rfl := List.mem_singleton.1 hb
    exact hnew r hr

/-- Replacing a record by a loadable one of the same id. -/
theorem ReloadableFile.replace (h : ReloadableFile platform file) (hr : Loadable platform r) :
    ReloadableFile platform (replaceRecord file r) := by
  refine ⟨?_, by rw [replaceRecord_ids]; exact h.nodup⟩
  intro r' hr'
  rcases mem_replaceRecord hr' with rfl | ⟨hmem, -⟩
  · exact hr
  · exact h.loadable r' hmem

theorem ReloadableFile.recordUse (h : ReloadableFile platform file) {id : String} {expected : Nat}
    {state : ShareCapsuleCustodyState String}
    (huse : recordExactReplayUse platform store file id expected = .ok (state, file')) :
    ReloadableFile platform file' := by
  obtain ⟨r, hr, -, -, -, hcap, rfl⟩ := recordExactReplayUse_spec h.settled huse
  have hloadable := h.loadable r hr
  refine h.replace ⟨⟨hloadable.settled.parsed, hloadable.settled.id_eq⟩, hloadable.named, ?_,
    hloadable.minted⟩
  cases hmax : r.capsule.expiry.maxUseCount with
  | none => rfl
  | some cap =>
    obtain ⟨k, rfl, -⟩ := hloadable.settled.cap hmax
    rw [hmax, Option.any_some] at hcap
    exact (JsNumber.lt_eq_false_iff (by simp) (by simp [count])).2 (count_succ_le hcap)

theorem ReloadableFile.revoke (h : ReloadableFile platform file) {input : RevokeCapsuleInput}
    (hrevoke : revokeCapsule platform store file input = .ok (capsule, file')) :
    ReloadableFile platform file' := by
  obtain ⟨r, hr, -, -, hterms, hsettled, rfl⟩ := revokeCapsule_spec h.settled hrevoke
  have hloadable := h.loadable r hr
  refine h.replace ⟨hsettled, hloadable.named, ?_, hloadable.minted⟩
  have hexpiry : capsule.expiry = r.capsule.expiry := by rw [hterms]
  rw [hexpiry]
  exact hloadable.capped

theorem except_map_snd {x : Except String (α × CustodyFile String)}
    (h : x.map Prod.snd = .ok file') : ∃ a, x = .ok (a, file') := by
  cases x with
  | error e => cases h
  | ok p =>
    obtain rfl := Except.ok.inj h
    exact ⟨p.1, rfl⟩

theorem reachable_reloadable
    (h : (custodyFileSystem platform fun op => op.Finite ∧ op.Named).Reachable file) :
    ReloadableFile platform file := by
  have hinit : ReloadableFile platform [] := ⟨by simp, List.nodup_nil⟩
  refine System.invariant (I := ReloadableFile platform) hinit ?_ h
  rintro file file' hfile ⟨store, operation, ⟨hfinite, hnamed⟩, hrun⟩
  cases operation with
  | put capsule mintedAtMs =>
    obtain ⟨record, hput⟩ := except_map_snd hrun
    exact hfile.put hfinite hnamed hput
  | recordUse id expected =>
    obtain ⟨state, huse⟩ := except_map_snd hrun
    exact hfile.recordUse huse
  | revoke input =>
    obtain ⟨capsule, hrevoke⟩ := except_map_snd hrun
    exact hfile.revoke hrevoke

/-- A parsed constraint has no epochs. -/
theorem parseConstraintList_epochs {cs parsed : List DisclosureDestinationConstraint}
    (h : parseConstraintList cs = some parsed) : ∀ c ∈ parsed, c.channelEpochs = none := by
  induction cs generalizing parsed with
  | nil =>
    obtain rfl := Option.some.inj h
    simp
  | cons c rest ih =>
    rw [parseConstraintList] at h
    split at h
    · cases h
    · rename_i c' hc
      obtain ⟨tail, htail, rfl⟩ := Option.map_eq_some_iff.1 h
      refine List.forall_mem_cons.2 ⟨?_, ih htail⟩
      unfold parseDisclosureDestinationConstraint at hc
      repeat' split at hc
      all_goals simp_all
      all_goals obtain ⟨ids, -, rfl⟩ := hc
      all_goals rfl

/-- A record the loader accepts is written without loss. -/
theorem Loadable.isJson (h : Loadable platform r) :
    r.value.IsJson := by
  obtain ⟨-, -, -, -, -, -, -, -, hdestinations, -, -, -, hexpiry, -⟩ :=
    (parseApprovedShareCapsule_eq_some platform).1 h.settled.parsed
  have hconstraint : ∀ c ∈ r.capsule.permittedDestinations, c.value.IsJson := by
    intro c hc
    have hepochs : c.channelEpochs = none := parseConstraintList_epochs hdestinations c hc
    simp only [DisclosureDestinationConstraint.value, JsValue.isJson_object,
      List.forall_mem_append, forall_optionalProperty, hepochs]
    refine ⟨by simp, fun ids _ => isJson_stringsValue ids, fun ids _ => isJson_stringsValue ids, ?_⟩
    intro epochs hnone
    cases hnone
  have hexpiryJson : r.capsule.expiry.value.IsJson := by
    simp only [CapsuleExpiry.value, JsValue.isJson_object, List.forall_mem_append,
      forall_optionalProperty]
    refine ⟨fun t _ => JsValue.isJson_string t, ?_⟩
    intro cap hcap
    obtain ⟨k, rfl, -⟩ := h.settled.cap hcap
    simp [JsNumber.isFinite]
  have hrevocation : r.capsule.revocation.value.IsJson := by
    simp only [CapsuleRevocation.value, JsValue.isJson_object, List.forall_mem_append,
      forall_optionalProperty]
    exact ⟨by simp, fun t _ => JsValue.isJson_string t, fun t _ => JsValue.isJson_string t⟩
  have hcapsule : r.capsule.value.IsJson := by
    simpa [ApprovedShareCapsule.value, shareCapsuleSchemaVersion, JsNumber.isFinite,
      ShareContent.value, ShareApproval.value, isJson_stringsValue, hexpiryJson, hrevocation]
      using hconstraint
  have hcount : (count r.useCount).isFinite = true := rfl
  simp [ShareCapsuleCustodyRecord.value, hcapsule, h.minted, hcount]

/-- **Custody stays readable.** In every state a run of puts, uses and revocations with finite
timestamps can leave, if no capsule with a blank id was put, the next load accepts what the file
gives back as JSON and decodes it to the records it was written from. Parsing a parsed capsule
gives it back, whatever it was parsed from. -/
theorem custody_reloadable {file : CustodyFile String}
    (h : (custodyFileSystem platform fun op => op.Finite ∧ op.Named).Reachable file) :
    (∀ filePath, ∃ entries, loadFile platform filePath (some (fileShape file).json) = .ok entries ∧
      entries.values = file) ∧
    ∀ v c, parseApprovedShareCapsuleValue platform v = some c →
      parseApprovedShareCapsuleValue platform c.value = some c := by
  have hfile := reachable_reloadable h
  refine ⟨?_, fun v c => parseApprovedShareCapsuleValue_parsed platform⟩
  intro filePath
  have hjson : (fileShape file).json = fileShape file := by
    refine JsValue.json_eq_self ?_
    have hrecords : ∀ r ∈ file, r.value.IsJson := fun r hr => (hfile.loadable r hr).isJson
    simpa [fileShape, JsNumber.isFinite] using hrecords
  rw [hjson, loadFile_fileShape]
  exact load_loadable filePath hfile.loadable hfile.nodup

end Runs

/-! ## Two puts -/

/-- A platform that knows one date, and whose digest is the body. -/
def bodyPlatform : Platform String where
  dateParse s := if s = "2026-03-01T00:00:00.000Z" then .finite 1772323200000 else .nan
  sha256 := fun content => content.body
  numberText n := if n = .finite 2 then "2" else "3"

def bodyCapsule (capsuleId : String) : ApprovedShareCapsule String where
  capsuleId
  candidateId := "candidate-1"
  content := ⟨"hello", ["media-1"]⟩
  contentHash := "hello"
  permittedDestinations := [{ kind := .publication }]
  effectiveSensitivity := .personal
  provenanceRefs := []
  subjectContactIds := []
  approval := ⟨"operator", "2026-03-01T00:00:00.000Z"⟩
  expiry := { maxUseCount := some (.finite 2) }
  revocation := { revoked := false }

def bodyRecord (capsuleId : String) : ShareCapsuleCustodyRecord String :=
  ⟨capsuleId, bodyCapsule capsuleId, 0, .finite 1772323200000⟩

def custodyStore : ShareCapsuleCustodyStore := ⟨"state/share-capsules.json", .finite 3⟩

theorem custody_reloadable_minted :
    ∃ entries, loadFile bodyPlatform "state/share-capsules.json"
      (some (fileShape [bodyRecord "capsule-1"]).json) = .ok entries ∧
      entries.values = [bodyRecord "capsule-1"] := by
  have hput : CustodyOperation.run bodyPlatform custodyStore []
      (.put (bodyCapsule "capsule-1") (.finite 1772323200000)) = .ok [bodyRecord "capsule-1"] := rfl
  have hnamed : JsString.trim (bodyCapsule "capsule-1").capsuleId ≠ "" := by decide
  have hreachable : (custodyFileSystem bodyPlatform fun op => op.Finite ∧ op.Named).Reachable
      [bodyRecord "capsule-1"] :=
    System.Reachable.next .refl
      ⟨custodyStore, .put (bodyCapsule "capsule-1") (.finite 1772323200000), ⟨rfl, hnamed⟩, hput⟩
  exact (custody_reloadable hreachable).1 _

/-- A capsule with a blank id passes its own parse and is written; from then on no load comes
through, so nothing in custody can be read, used or revoked. -/
theorem blankCapsuleId_unloadable :
    (custodyFileSystem bodyPlatform CustodyOperation.Finite).Reachable [bodyRecord " "] ∧
      loadFile bodyPlatform "state/share-capsules.json" (some (fileShape [bodyRecord " "]).json) =
        .error ("Invalid share capsule custody record in state/share-capsules.json: " ++
          "missing capsuleId") := by
  have hput : CustodyOperation.run bodyPlatform custodyStore []
      (.put (bodyCapsule " ") (.finite 1772323200000)) = .ok [bodyRecord " "] := rfl
  exact ⟨System.Reachable.next .refl
    ⟨custodyStore, .put (bodyCapsule " ") (.finite 1772323200000), rfl, hput⟩, rfl⟩

end Psfn.Disclosure
