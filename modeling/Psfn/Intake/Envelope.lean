import Psfn.Lib.Validate

/-!
# Intake envelopes — executable definitions

`shared/contracts/intake-envelope.ts`: the closed vocabularies, the field
normalisers every boundary runs, and the operations that build an envelope —
`createIntakeEnvelope`, `transitionIntakeEnvelope`, `deriveChildIntakeEnvelope` and
the persistence check `validateIntakeEnvelope`.

The normalisers take a value of unknown type, as in the source; a typed argument is
handed to them as the value it is at run time (`*.value`). The clock and the random
id a call draws are arguments. Freezing has no effect on values and is left out.
-/

namespace Psfn.Intake

open Psfn.Lib

/-! ## Closed vocabularies -/

inductive IntakeSourceClass where
  | operator | companionSelf | primaryUser | trustedContact | regularContact | publicContact
  | webFetch | webSearch | document | imageOcr | audioTranscript | toolOutput | subagentOutput
  | shardFoldback | mcpToolDescription
deriving DecidableEq, Repr

namespace IntakeSourceClass

/-- `INTAKE_SOURCE_CLASSES`. -/
def all : List IntakeSourceClass :=
  [operator, companionSelf, primaryUser, trustedContact, regularContact, publicContact, webFetch,
    webSearch, document, imageOcr, audioTranscript, toolOutput, subagentOutput, shardFoldback,
    mcpToolDescription]

def text : IntakeSourceClass → String
  | operator => "operator"
  | companionSelf => "companion_self"
  | primaryUser => "primary_user"
  | trustedContact => "trusted_contact"
  | regularContact => "regular_contact"
  | publicContact => "public_contact"
  | webFetch => "web_fetch"
  | webSearch => "web_search"
  | document => "document"
  | imageOcr => "image_ocr"
  | audioTranscript => "audio_transcript"
  | toolOutput => "tool_output"
  | subagentOutput => "subagent_output"
  | shardFoldback => "shard_foldback"
  | mcpToolDescription => "mcp_tool_description"

end IntakeSourceClass

inductive IntakeSourceRiskTier where
  | trusted | standard | untrusted | hostile
deriving DecidableEq, Repr

namespace IntakeSourceRiskTier

/-- `INTAKE_SOURCE_RISK_TIERS`, least to most risky. -/
def all : List IntakeSourceRiskTier := [trusted, standard, untrusted, hostile]

def text : IntakeSourceRiskTier → String
  | trusted => "trusted"
  | standard => "standard"
  | untrusted => "untrusted"
  | hostile => "hostile"

/-- `INTAKE_SOURCE_RISK_TIERS.indexOf`. -/
def rank : IntakeSourceRiskTier → Int
  | trusted => 0
  | standard => 1
  | untrusted => 2
  | hostile => 3

end IntakeSourceRiskTier

def compareIntakeSourceRiskTiers (left right : IntakeSourceRiskTier) : Int :=
  left.rank - right.rank

def maxIntakeSourceRiskTier (left right : IntakeSourceRiskTier) : IntakeSourceRiskTier :=
  if compareIntakeSourceRiskTiers left right ≥ 0 then left else right

inductive IntakeRiskLabel where
  | contentHarmlessFact | contentRelationshipState | personaMutationAttempt
  | policySecurityModification | executionExecutableInstruction
  | injectionOverrideAttempt | injectionIndirect | injectionEncodedSmuggling
  | injectionInvisibleText | injectionRoleConfusion | injectionJailbreakMarker
  | exfilCanaryLeak | exfilUnknownLink | exfilPromptDisclosure
  | piiPersonalIdentifier | piiFinancial | piiCredentialAdjacent
  | secretsApiKey | secretsCredentialMaterial
  | poisoningMemoryWritePressure | poisoningTrustGrooming | poisoningSourceDrift
deriving DecidableEq, Repr

namespace IntakeRiskLabel

/-- `INTAKE_RISK_LABELS`. -/
def all : List IntakeRiskLabel :=
  [contentHarmlessFact, contentRelationshipState, personaMutationAttempt,
    policySecurityModification, executionExecutableInstruction, injectionOverrideAttempt,
    injectionIndirect, injectionEncodedSmuggling, injectionInvisibleText, injectionRoleConfusion,
    injectionJailbreakMarker, exfilCanaryLeak, exfilUnknownLink, exfilPromptDisclosure,
    piiPersonalIdentifier, piiFinancial, piiCredentialAdjacent, secretsApiKey,
    secretsCredentialMaterial, poisoningMemoryWritePressure, poisoningTrustGrooming,
    poisoningSourceDrift]

def text : IntakeRiskLabel → String
  | contentHarmlessFact => "content/harmless_fact"
  | contentRelationshipState => "content/relationship_state"
  | personaMutationAttempt => "persona/mutation_attempt"
  | policySecurityModification => "policy/security_modification"
  | executionExecutableInstruction => "execution/executable_instruction"
  | injectionOverrideAttempt => "injection/override_attempt"
  | injectionIndirect => "injection/indirect"
  | injectionEncodedSmuggling => "injection/encoded_smuggling"
  | injectionInvisibleText => "injection/invisible_text"
  | injectionRoleConfusion => "injection/role_confusion"
  | injectionJailbreakMarker => "injection/jailbreak_marker"
  | exfilCanaryLeak => "exfil/canary_leak"
  | exfilUnknownLink => "exfil/unknown_link"
  | exfilPromptDisclosure => "exfil/prompt_disclosure"
  | piiPersonalIdentifier => "pii/personal_identifier"
  | piiFinancial => "pii/financial"
  | piiCredentialAdjacent => "pii/credential_adjacent"
  | secretsApiKey => "secrets/api_key"
  | secretsCredentialMaterial => "secrets/credential_material"
  | poisoningMemoryWritePressure => "poisoning/memory_write_pressure"
  | poisoningTrustGrooming => "poisoning/trust_grooming"
  | poisoningSourceDrift => "poisoning/source_drift"

end IntakeRiskLabel

inductive IntakeDecisionAction where
  | pass | sanitize | quarantine | block
deriving DecidableEq, Repr

namespace IntakeDecisionAction

def all : List IntakeDecisionAction := [pass, sanitize, quarantine, block]

def text : IntakeDecisionAction → String
  | pass => "pass"
  | sanitize => "sanitize"
  | quarantine => "quarantine"
  | block => "block"

end IntakeDecisionAction

inductive IntakeDecisionAuthority where
  | policy | screening | human
deriving DecidableEq, Repr

namespace IntakeDecisionAuthority

def all : List IntakeDecisionAuthority := [policy, screening, human]

def text : IntakeDecisionAuthority → String
  | policy => "policy"
  | screening => "screening"
  | human => "human"

end IntakeDecisionAuthority

inductive IntakeEnvelopeState where
  | received | screened | released | releasedSanitized | quarantined | humanReleased
  | humanReleasedSanitized | discarded | expired
deriving DecidableEq, Repr

namespace IntakeEnvelopeState

/-- `INTAKE_ENVELOPE_STATES`. -/
def all : List IntakeEnvelopeState :=
  [received, screened, released, releasedSanitized, quarantined, humanReleased,
    humanReleasedSanitized, discarded, expired]

def text : IntakeEnvelopeState → String
  | received => "received"
  | screened => "screened"
  | released => "released"
  | releasedSanitized => "released_sanitized"
  | quarantined => "quarantined"
  | humanReleased => "human_released"
  | humanReleasedSanitized => "human_released_sanitized"
  | discarded => "discarded"
  | expired => "expired"

/-- `INTAKE_ENVELOPE_STATE_TRANSITIONS`. -/
def transitions : IntakeEnvelopeState → List IntakeEnvelopeState
  | received => [screened]
  | screened => [released, releasedSanitized, quarantined]
  | released => [discarded, expired]
  | releasedSanitized => [discarded, expired]
  | quarantined => [humanReleased, humanReleasedSanitized, discarded, expired]
  | humanReleased => []
  | humanReleasedSanitized => []
  | discarded => []
  | expired => []

end IntakeEnvelopeState

def isIntakeEnvelopeTransitionAllowed (source target : IntakeEnvelopeState) : Bool :=
  decide (target ∈ source.transitions)

def isIntakeSinkConsumableState : IntakeEnvelopeState → Bool
  | .released | .releasedSanitized | .humanReleased | .humanReleasedSanitized => true
  | _ => false

def postScreeningStateForDecision : IntakeDecisionAction → IntakeEnvelopeState
  | .pass => .released
  | .sanitize => .releasedSanitized
  | .quarantine => .quarantined
  | .block => .quarantined

inductive IntakeDerivationKind where
  | summary | ocrTranscript | audioTranscript | subagentDigest | translation | extraction
deriving DecidableEq, Repr

def IntakeDerivationKind.text : IntakeDerivationKind → String
  | summary => "summary"
  | ocrTranscript => "ocr_transcript"
  | audioTranscript => "audio_transcript"
  | subagentDigest => "subagent_digest"
  | translation => "translation"
  | extraction => "extraction"

inductive IntakeL1RuleMatchKind where
  | phrase | near | regex
deriving DecidableEq, Repr

namespace IntakeL1RuleMatchKind

def all : List IntakeL1RuleMatchKind := [phrase, near, regex]

def text : IntakeL1RuleMatchKind → String
  | phrase => "phrase"
  | near => "near"
  | regex => "regex"

end IntakeL1RuleMatchKind

/-! ## Structural pieces -/

structure IntakeL1RuleMatchProvenance where
  ruleId      : String
  kind        : IntakeL1RuleMatchKind
  startOffset : JsNumber
  endOffset   : JsNumber
  excerpt     : String
deriving DecidableEq

structure IntakeDecision where
  action               : IntakeDecisionAction
  reason               : String
  decidedBy            : IntakeDecisionAuthority
  decidedAtMs          : JsNumber
  ruleMatches          : Option (List IntakeL1RuleMatchProvenance) := none
  ruleMatchTotalCount  : Option JsNumber := none
  ruleMatchesTruncated : Option Bool := none
deriving DecidableEq

/-- The kind of a hop: a source class, or `derivation`. -/
inductive HopKind where
  | derivation
  | source (c : IntakeSourceClass)
deriving DecidableEq

def HopKind.text : HopKind → String
  | derivation => "derivation"
  | source c => c.text

structure IntakeProvenanceHop where
  kind   : HopKind
  ref    : String
  atMs   : JsNumber
  detail : Option String := none
deriving DecidableEq

structure IntakeContentRef where
  store     : String
  ref       : String
  sha256    : Option String := none
  sizeBytes : Option JsNumber := none
  mediaType : Option String := none
deriving DecidableEq

structure IntakeEnvelopeTransitionRecord where
  source : IntakeEnvelopeState
  target : IntakeEnvelopeState
  atMs   : JsNumber
  actor  : String
  reason : String
deriving DecidableEq

/-- `schemaVersion` is always `1` and is not stored. -/
structure IntakeEnvelope where
  id              : String
  sourceClass     : IntakeSourceClass
  provenance      : List IntakeProvenanceHop
  sourceRiskTier  : IntakeSourceRiskTier
  contentRef      : IntakeContentRef
  extractedFields : JsMap String String
  riskLabels      : List IntakeRiskLabel
  scores          : JsMap String JsNumber
  decision        : Option IntakeDecision
  state           : IntakeEnvelopeState
  createdAtMs     : JsNumber
  transitions     : List IntakeEnvelopeTransitionRecord
deriving DecidableEq

/-! ## Typed records as values -/

def IntakeL1RuleMatchProvenance.value (m : IntakeL1RuleMatchProvenance) : JsValue :=
  .object [("ruleId", .string m.ruleId), ("kind", .string m.kind.text),
    ("startOffset", .number m.startOffset), ("endOffset", .number m.endOffset),
    ("excerpt", .string m.excerpt)]

def IntakeDecision.value (d : IntakeDecision) : JsValue :=
  .object ([("action", .string d.action.text), ("reason", .string d.reason),
      ("decidedBy", .string d.decidedBy.text), ("decidedAtMs", .number d.decidedAtMs)]
    ++ optionalProperty "ruleMatches" (fun l => .array (l.map (·.value))) d.ruleMatches
    ++ optionalProperty "ruleMatchTotalCount" .number d.ruleMatchTotalCount
    ++ optionalProperty "ruleMatchesTruncated" .bool d.ruleMatchesTruncated)

def IntakeProvenanceHop.value (h : IntakeProvenanceHop) : JsValue :=
  .object ([("kind", .string h.kind.text), ("ref", .string h.ref), ("atMs", .number h.atMs)]
    ++ optionalProperty "detail" .string h.detail)

def IntakeContentRef.value (c : IntakeContentRef) : JsValue :=
  .object ([("store", .string c.store), ("ref", .string c.ref)]
    ++ optionalProperty "sha256" .string c.sha256
    ++ optionalProperty "sizeBytes" .number c.sizeBytes
    ++ optionalProperty "mediaType" .string c.mediaType)

def IntakeEnvelopeTransitionRecord.value (r : IntakeEnvelopeTransitionRecord) : JsValue :=
  .object [("from", .string r.source.text), ("to", .string r.target.text), ("atMs", .number r.atMs),
    ("actor", .string r.actor), ("reason", .string r.reason)]

/-- An object with string keys, as a value. -/
def recordValue {α : Type} (toValue : α → JsValue) (m : JsMap String α) : JsValue :=
  .object (m.entries.map fun p => (p.1, toValue p.2))

def IntakeEnvelope.value (e : IntakeEnvelope) : JsValue :=
  .object ([("schemaVersion", .number (.finite 1)), ("id", .string e.id),
      ("sourceClass", .string e.sourceClass.text),
      ("provenance", .array (e.provenance.map (·.value))),
      ("sourceRiskTier", .string e.sourceRiskTier.text), ("contentRef", e.contentRef.value),
      ("extractedFields", recordValue .string e.extractedFields),
      ("riskLabels", .array (e.riskLabels.map fun l => .string l.text)),
      ("scores", recordValue .number e.scores)]
    ++ optionalProperty "decision" IntakeDecision.value e.decision
    ++ [("state", .string e.state.text), ("createdAtMs", .number e.createdAtMs),
      ("transitions", .array (e.transitions.map (·.value)))])

/-! ## Field validation -/

def invalid (field detail : String) : String := s!"Invalid intake envelope: {field} {detail}"

def maxContentRefChars : Nat := 2048
def maxProvenanceHops : Nat := 32
def maxExtractedFields : Nat := 64
def maxExtractedFieldKeyChars : Nat := 128
def maxExtractedFieldValueChars : Nat := 4096
def maxReasonChars : Nat := 1024
def intakeL1ScanMaxChars : Nat := 65536
def intakeRuleMatchExcerptMaxChars : Nat := 160
def maxDecisionRuleMatches : Nat := 32
def intakeL1RuleMatchTotalMax : Nat := 512

/-- `/^[A-Za-z0-9][A-Za-z0-9._-]{7,63}$/`. -/
def isIntakeEnvelopeId (s : List Char) : Bool :=
  match s with
  | [] => false
  | c :: rest =>
    c.isAlphanum && rest.all (fun c => c.isAlphanum || c = '.' || c = '_' || c = '-') &&
      decide (7 ≤ rest.length) && decide (rest.length ≤ 63)

/-- `/^[a-z0-9][a-z0-9_.-]{1,63}$/`. -/
def isIntakeL1RuleId (s : List Char) : Bool :=
  match s with
  | [] => false
  | c :: rest =>
    (c.isLower || c.isDigit) &&
      rest.all (fun c => c.isLower || c.isDigit || c = '_' || c = '.' || c = '-') &&
      decide (1 ≤ rest.length) && decide (rest.length ≤ 63)

/-- `/^[0-9a-f]{64}$/`. -/
def isSha256Hex (s : List Char) : Bool :=
  decide (s.length = 64) && s.all fun c => c.isDigit || ('a' ≤ c && c ≤ 'f')

def normalizeIntakeEnvelopeId (value : JsValue) : Except String String :=
  match value with
  | .string s =>
    let normalized := JsString.trim s
    if isIntakeEnvelopeId normalized.toList then .ok normalized
    else .error (invalid "id" "must be 8-64 chars of [A-Za-z0-9._-] starting alphanumeric")
  | _ => .error (invalid "id" "must be a string")

def normalizeRequiredString (value : JsValue) (field : String) (maxChars : Nat) :
    Except String String :=
  match value with
  | .string s =>
    let normalized := JsString.trim s
    if normalized = "" then .error (invalid field "must be non-empty")
    else if JsString.utf16Length normalized > maxChars then
      .error (invalid field s!"exceeds {maxChars} characters")
    else .ok normalized
  | _ => .error (invalid field "must be a string")

def normalizeTimestampMs (value : JsValue) (field : String) : Except String JsNumber :=
  match value with
  | .number n =>
    if !n.isFinite || n.le (.finite 0) then
      .error (invalid field "must be a positive finite epoch-milliseconds number")
    else .ok n
  | _ => .error (invalid field "must be a positive finite epoch-milliseconds number")

/-- The opening of every record normaliser: an object with no keys beyond `known`. -/
def requireRecord (value : JsValue) (field : String) (known : List String) : Except String Unit :=
  if !value.isRecord then .error (invalid field "must be an object")
  else
    match value.ownKeys.filter (· ∉ known) with
    | [] => .ok ()
    | unknownKeys =>
      .error (invalid field ("has unsupported keys: " ++ ", ".intercalate unknownKeys))

/-- `/^data:/i` or a line break: inline content, not a handle. -/
def looksInline (ref : List Char) : Bool :=
  "data:".toList.isPrefixOf (ref.map Char.toLower) || ref.any fun c => c = '\r' || c = '\n'

def normalizeSha256 (field : String) (value : JsValue) : Except String String := do
  let text ← normalizeRequiredString value s!"{field}.sha256" 64
  let sha256 := String.ofList (text.toList.map Char.toLower)
  throwIf (!isSha256Hex sha256.toList)
    (invalid s!"{field}.sha256" "must be 64 lowercase hex characters")
  return sha256

def normalizeSizeBytes (field : String) (value : JsValue) : Except String JsNumber :=
  match value with
  | .number n =>
    if !n.isInteger || n.lt (.finite 0) then
      .error (invalid s!"{field}.sizeBytes" "must be a non-negative integer")
    else .ok n
  | _ => .error (invalid s!"{field}.sizeBytes" "must be a non-negative integer")

def normalizeContentRef (value : JsValue) (field : String) : Except String IntakeContentRef := do
  requireRecord value field ["store", "ref", "sha256", "sizeBytes", "mediaType"]
  let store ← normalizeRequiredString (value.property "store") s!"{field}.store" 128
  let ref ← normalizeRequiredString (value.property "ref") s!"{field}.ref" maxContentRefChars
  throwIf (looksInline ref.toList)
    (invalid s!"{field}.ref" "must be an opaque handle, not inline content")
  let sha256 ← optionalField (value.property "sha256") (normalizeSha256 field)
  let sizeBytes ← optionalField (value.property "sizeBytes") (normalizeSizeBytes field)
  let mediaType ← optionalField (value.property "mediaType") fun v =>
    normalizeRequiredString v s!"{field}.mediaType" 255
  return { store, ref, sha256, sizeBytes, mediaType }

/-- `kind !== 'derivation' && !isIntakeSourceClass(kind)`, with the kind it stands for. -/
def parseHopKind (value : JsValue) : Option HopKind :=
  match value with
  | .string "derivation" => some .derivation
  | _ => (ofText IntakeSourceClass.all IntakeSourceClass.text value).map .source

def normalizeProvenanceHop (value : JsValue) (field : String) :
    Except String IntakeProvenanceHop := do
  requireRecord value field ["kind", "ref", "atMs", "detail"]
  let kind ← orThrow (parseHopKind (value.property "kind")) (invalid s!"{field}.kind"
    ("must be 'derivation' or one of: " ++ joinTexts IntakeSourceClass.all IntakeSourceClass.text))
  let ref ← normalizeRequiredString (value.property "ref") s!"{field}.ref" maxContentRefChars
  let atMs ← normalizeTimestampMs (value.property "atMs") s!"{field}.atMs"
  let detail ← optionalField (value.property "detail") fun v =>
    normalizeRequiredString v s!"{field}.detail" 512
  return { kind, ref, atMs, detail }

/-- `items.map((item, index) => normalize(item, field[index]))`. -/
def normalizeItems {α : Type} (normalize : JsValue → String → Except String α) (field : String) :
    Nat → List JsValue → Except String (List α)
  | _, [] => .ok []
  | index, item :: rest => do
    let first ← normalize item s!"{field}[{index}]"
    let others ← normalizeItems normalize field (index + 1) rest
    return first :: others

def normalizeProvenanceChain (value : JsValue) : Except String (List IntakeProvenanceHop) :=
  match value with
  | .array [] => .error (invalid "provenance" "must contain at least the origin hop")
  | .array items =>
    if items.length > maxProvenanceHops then
      .error (invalid "provenance" s!"exceeds {maxProvenanceHops} hops")
    else normalizeItems normalizeProvenanceHop "provenance" 0 items
  | _ => .error (invalid "provenance" "must be an array")

def normalizeExtractedEntry (normalized : JsMap String String) (entry : String × JsValue) :
    Except String (JsMap String String) :=
  let normalizedKey := JsString.trim entry.1
  if normalizedKey = "" || JsString.utf16Length normalizedKey > maxExtractedFieldKeyChars then
    .error (invalid "extractedFields" s!"has invalid key '{entry.1}'")
  else
    match entry.2 with
    | .string s =>
      if JsString.utf16Length s > maxExtractedFieldValueChars then
        .error (invalid s!"extractedFields.{normalizedKey}"
          s!"must be a string of at most {maxExtractedFieldValueChars} characters")
      else .ok (assignProperty normalized normalizedKey s)
    | _ => .error (invalid s!"extractedFields.{normalizedKey}"
        s!"must be a string of at most {maxExtractedFieldValueChars} characters")

def normalizeExtractedFields (value : JsValue) : Except String (JsMap String String) :=
  match value with
  | .undefined => .ok JsMap.empty
  | .object entries =>
    if entries.length > maxExtractedFields then
      .error (invalid "extractedFields" s!"exceeds {maxExtractedFields} entries")
    else entries.foldlM normalizeExtractedEntry JsMap.empty
  | _ => .error (invalid "extractedFields" "must be an object")

/-- `String(label)`, for the message of an unsupported label; numbers, arrays and
objects are not spelled out. -/
def labelText : JsValue → String
  | .string s => s
  | .undefined => "undefined"
  | .null => "null"
  | .bool b => if b then "true" else "false"
  | _ => "[object Object]"

def addRiskLabel (labels : List IntakeRiskLabel) (value : JsValue) :
    Except String (List IntakeRiskLabel) := do
  let label ← orThrow (ofText IntakeRiskLabel.all IntakeRiskLabel.text value)
    (invalid "riskLabels" ("contains unsupported label '" ++ labelText value ++ "'"))
  return if label ∈ labels then labels else labels ++ [label]

def normalizeRiskLabels (value : JsValue) : Except String (List IntakeRiskLabel) :=
  match value with
  | .undefined => .ok []
  | .array items => items.foldlM addRiskLabel []
  | _ => .error (invalid "riskLabels" "must be an array")

def normalizeScoreEntry (normalized : JsMap String JsNumber) (entry : String × JsValue) :
    Except String (JsMap String JsNumber) :=
  let normalizedKey := JsString.trim entry.1
  if normalizedKey = "" || JsString.utf16Length normalizedKey > 128 then
    .error (invalid "scores" s!"has invalid key '{entry.1}'")
  else
    match entry.2 with
    | .number score =>
      if !score.isFinite || score.lt (.finite 0) || (JsNumber.finite 1).lt score then
        .error (invalid s!"scores.{normalizedKey}" "must be a finite number in [0, 1]")
      else .ok (assignProperty normalized normalizedKey score)
    | _ => .error (invalid s!"scores.{normalizedKey}" "must be a finite number in [0, 1]")

def normalizeScores (value : JsValue) : Except String (JsMap String JsNumber) :=
  match value with
  | .undefined => .ok JsMap.empty
  | .object entries => entries.foldlM normalizeScoreEntry JsMap.empty
  | _ => .error (invalid "scores" "must be an object")

/-- `/[\p{Cc}\p{Cf}\p{Cs}\p{Zl}\p{Zp}]/u` on one code point. -/
def isUnsafeExcerptChar (c : Char) : Bool :=
  let n := c.toNat
  let inRange (lo hi : Nat) : Bool := lo ≤ n && n ≤ hi
  n ≤ 0x1f || inRange 0x7f 0x9f || n = 0xad || inRange 0x600 0x605 || n = 0x61c || n = 0x6dd ||
    n = 0x70f || inRange 0x890 0x891 || n = 0x8e2 || n = 0x180e || inRange 0x200b 0x200f ||
    inRange 0x2028 0x202e || inRange 0x2060 0x2064 || inRange 0x2066 0x206f || n = 0xfeff ||
    inRange 0xfff9 0xfffb || n = 0x110bd || n = 0x110cd || inRange 0x13430 0x1343f ||
    inRange 0x1bca0 0x1bca3 || inRange 0x1d173 0x1d17a || n = 0xe0001 || inRange 0xe0020 0xe007f

def hasUnsafeIntakeRuleMatchExcerptCharacters (value : String) : Bool :=
  value.toList.any isUnsafeExcerptChar

def hasUniqueIntakeRuleMatchRuleIds (ruleMatches : List IntakeL1RuleMatchProvenance) : Bool :=
  decide (ruleMatches.map (·.ruleId)).Nodup

/-- `Number.isSafeInteger`, with the integer. -/
def safeInteger : JsValue → Option JsNumber
  | .number n =>
    if n.isInteger && (JsNumber.finite (-9007199254740991)).le n &&
        n.le (.finite 9007199254740991) then some n else none
  | _ => none

def normalizeRuleMatch (candidate : JsValue) (matchField : String) :
    Except String IntakeL1RuleMatchProvenance := do
  requireRecord candidate matchField ["ruleId", "kind", "startOffset", "endOffset", "excerpt"]
  let ruleId ← normalizeRequiredString (candidate.property "ruleId") s!"{matchField}.ruleId" 64
  throwIf (!isIntakeL1RuleId ruleId.toList)
    (invalid s!"{matchField}.ruleId" "must match ^[a-z0-9][a-z0-9_.-]\x7b1,63\x7d$")
  let kind ← orThrow
    (ofText IntakeL1RuleMatchKind.all IntakeL1RuleMatchKind.text (candidate.property "kind"))
    (invalid s!"{matchField}.kind"
      ("must be one of: " ++ joinTexts IntakeL1RuleMatchKind.all IntakeL1RuleMatchKind.text))
  let startOffset ← orThrow
    ((safeInteger (candidate.property "startOffset")).filter fun n => !n.lt (.finite 0))
    (invalid s!"{matchField}.startOffset" "must be a non-negative safe integer")
  let endOffset ← orThrow
    ((safeInteger (candidate.property "endOffset")).filter fun n => !n.le startOffset)
    (invalid s!"{matchField}.endOffset" "must be a safe integer greater than startOffset")
  throwIf ((JsNumber.finite intakeL1ScanMaxChars).lt endOffset)
    (invalid s!"{matchField}.endOffset" s!"must not exceed the L1 scan cap {intakeL1ScanMaxChars}")
  let excerpt ← normalizeRequiredString (candidate.property "excerpt") s!"{matchField}.excerpt"
    intakeRuleMatchExcerptMaxChars
  throwIf (hasUnsafeIntakeRuleMatchExcerptCharacters excerpt)
    (invalid s!"{matchField}.excerpt" "must be a single-line printable projection")
  return { ruleId, kind, startOffset, endOffset, excerpt }

def normalizeRuleMatches (value : JsValue) (ruleMatchesField : String)
    (action : IntakeDecisionAction) (decidedBy : IntakeDecisionAuthority) :
    Except String (List IntakeL1RuleMatchProvenance) := do
  let items ← (match value with
    | .array (first :: rest) => .ok (first :: rest)
    | _ => .error (invalid ruleMatchesField "must be a non-empty array when present"))
  throwIf (items.length > maxDecisionRuleMatches)
    (invalid ruleMatchesField s!"exceeds {maxDecisionRuleMatches} matches")
  let ruleMatches ← normalizeItems normalizeRuleMatch ruleMatchesField 0 items
  throwIf (!hasUniqueIntakeRuleMatchRuleIds ruleMatches)
    (invalid ruleMatchesField "ruleId values must be unique")
  throwIf (decidedBy = .policy) (invalid ruleMatchesField "may not accompany a 'policy' decision")
  throwIf (decidedBy = .screening && action ≠ .quarantine && action ≠ .block)
    (invalid ruleMatchesField "may only accompany a 'quarantine' or 'block' decision")
  return ruleMatches

/-- The bounded summary of a rule-match projection: both fields or neither. -/
def normalizeRuleMatchSummary (value : JsValue) (field : String)
    (ruleMatches : Option (List IntakeL1RuleMatchProvenance)) :
    Except String (Option (JsNumber × Bool)) := do
  let total := value.property "ruleMatchTotalCount"
  let truncated := value.property "ruleMatchesTruncated"
  throwIf (total.isUndefined != truncated.isUndefined)
    (invalid field "ruleMatchTotalCount and ruleMatchesTruncated must appear together")
  if total.isUndefined then return none
  let ruleMatches ← orThrow ruleMatches (invalid field "rule-match summary requires ruleMatches")
  let stored := JsNumber.finite ruleMatches.length
  let ruleMatchTotalCount ← orThrow
    ((safeInteger total).filter fun n =>
      !n.lt stored && !(JsNumber.finite intakeL1RuleMatchTotalMax).lt n)
    (invalid s!"{field}.ruleMatchTotalCount"
      s!"must be a safe integer from {ruleMatches.length} to {intakeL1RuleMatchTotalMax}")
  let ruleMatchesTruncated ← (match truncated with
    | .bool b => .ok b
    | _ => .error (invalid s!"{field}.ruleMatchesTruncated" "must be a boolean"))
  throwIf (ruleMatchesTruncated != stored.lt ruleMatchTotalCount)
    (invalid s!"{field}.ruleMatchesTruncated"
      "must truthfully report whether ruleMatchTotalCount exceeds stored matches")
  return some (ruleMatchTotalCount, ruleMatchesTruncated)

def normalizeDecision (value : JsValue) (field : String) : Except String IntakeDecision := do
  requireRecord value field ["action", "reason", "decidedBy", "decidedAtMs", "ruleMatches",
    "ruleMatchTotalCount", "ruleMatchesTruncated"]
  let action ← orThrow
    (ofText IntakeDecisionAction.all IntakeDecisionAction.text (value.property "action"))
    (invalid s!"{field}.action"
      ("must be one of: " ++ joinTexts IntakeDecisionAction.all IntakeDecisionAction.text))
  let decidedBy ← orThrow
    (ofText IntakeDecisionAuthority.all IntakeDecisionAuthority.text (value.property "decidedBy"))
    (invalid s!"{field}.decidedBy"
      ("must be one of: " ++ joinTexts IntakeDecisionAuthority.all IntakeDecisionAuthority.text))
  let ruleMatches ← optionalField (value.property "ruleMatches") fun v =>
    normalizeRuleMatches v s!"{field}.ruleMatches" action decidedBy
  let summary ← normalizeRuleMatchSummary value field ruleMatches
  let reason ← normalizeRequiredString (value.property "reason") s!"{field}.reason" maxReasonChars
  let decidedAtMs ← normalizeTimestampMs (value.property "decidedAtMs") s!"{field}.decidedAtMs"
  return { action, reason, decidedBy, decidedAtMs, ruleMatches
           ruleMatchTotalCount := summary.map Prod.fst
           ruleMatchesTruncated := summary.map Prod.snd }

def normalizeTransitionRecord (value : JsValue) (field : String) :
    Except String IntakeEnvelopeTransitionRecord := do
  requireRecord value field ["from", "to", "atMs", "actor", "reason"]
  let source ← orThrow
    (ofText IntakeEnvelopeState.all IntakeEnvelopeState.text (value.property "from"))
    (invalid s!"{field}.from" "must be a known intake envelope state")
  let target ← orThrow
    (ofText IntakeEnvelopeState.all IntakeEnvelopeState.text (value.property "to"))
    (invalid s!"{field}.to" "must be a known intake envelope state")
  let atMs ← normalizeTimestampMs (value.property "atMs") s!"{field}.atMs"
  let actor ← normalizeRequiredString (value.property "actor") s!"{field}.actor" 256
  let reason ← normalizeRequiredString (value.property "reason") s!"{field}.reason" maxReasonChars
  return { source, target, atMs, actor, reason }

/-! ## Schema validation -/

/-- The journal loop of `validateIntakeEnvelope`: a connected legal path from the cursor. -/
def followJournal : IntakeEnvelopeState → Nat → List IntakeEnvelopeTransitionRecord →
    Except String IntakeEnvelopeState
  | cursor, _, [] => .ok cursor
  | cursor, index, record :: rest =>
    if record.source ≠ cursor then
      .error (invalid s!"transitions[{index}].from"
        ("breaks the journal chain (expected '" ++ cursor.text ++ "')"))
    else if !isIntakeEnvelopeTransitionAllowed record.source record.target then
      .error (invalid s!"transitions[{index}]"
        ("records illegal transition " ++ record.source.text ++ " -> " ++ record.target.text))
    else followJournal record.target (index + 1) rest

def validateIntakeEnvelope (value : JsValue) : Except String IntakeEnvelope := do
  requireRecord value "envelope" ["schemaVersion", "id", "sourceClass", "provenance",
    "sourceRiskTier", "contentRef", "extractedFields", "riskLabels", "scores", "decision", "state",
    "createdAtMs", "transitions"]
  (match value.property "schemaVersion" with
    | .number n => throwIf (!n.strictEq (.finite 1)) (invalid "schemaVersion" "must be 1")
    | _ => .error (invalid "schemaVersion" "must be 1"))
  let sourceClass ← orThrow
    (ofText IntakeSourceClass.all IntakeSourceClass.text (value.property "sourceClass"))
    (invalid "sourceClass"
      ("must be one of: " ++ joinTexts IntakeSourceClass.all IntakeSourceClass.text))
  let sourceRiskTier ← orThrow
    (ofText IntakeSourceRiskTier.all IntakeSourceRiskTier.text (value.property "sourceRiskTier"))
    (invalid "sourceRiskTier"
      ("must be one of: " ++ joinTexts IntakeSourceRiskTier.all IntakeSourceRiskTier.text))
  let state ← orThrow
    (ofText IntakeEnvelopeState.all IntakeEnvelopeState.text (value.property "state"))
    (invalid "state"
      ("must be one of: " ++ joinTexts IntakeEnvelopeState.all IntakeEnvelopeState.text))
  let records ← (match value.property "transitions" with
    | .array items => .ok items
    | _ => .error (invalid "transitions" "must be an array"))
  let transitions ← normalizeItems normalizeTransitionRecord "transitions" 0 records
  let cursor ← followJournal .received 0 transitions
  throwIf (cursor ≠ state) (invalid "state"
    ("'" ++ state.text ++ "' does not match the transition journal (ends at '" ++ cursor.text
      ++ "')"))
  let decision ← optionalField (value.property "decision") fun v => normalizeDecision v "decision"
  throwIf (state ≠ .received && decision.isNone)
    (invalid "decision" ("is required in state '" ++ state.text ++ "'"))
  throwIf (state = .received && decision.isSome)
    (invalid "decision" "must be absent in state 'received'")
  let id ← normalizeIntakeEnvelopeId (value.property "id")
  let provenance ← normalizeProvenanceChain (value.property "provenance")
  let contentRef ← normalizeContentRef (value.property "contentRef") "contentRef"
  let extractedFields ← normalizeExtractedFields (value.property "extractedFields")
  let riskLabels ← normalizeRiskLabels (value.property "riskLabels")
  let scores ← normalizeScores (value.property "scores")
  let createdAtMs ← normalizeTimestampMs (value.property "createdAtMs") "createdAtMs"
  return { id, sourceClass, provenance, sourceRiskTier, contentRef, extractedFields, riskLabels,
           scores, decision, state, createdAtMs, transitions }

/-! ## Creation -/

structure CreateIntakeEnvelopeInput where
  sourceClass    : IntakeSourceClass
  sourceRiskTier : IntakeSourceRiskTier
  contentRef     : IntakeContentRef
  originRef      : String
  originDetail   : Option String := none
  id             : Option String := none
  atMs           : Option JsNumber := none

/-- `atMs === undefined ? Date.now() : normalizeTimestampMs(atMs, field)`. -/
def resolveAtMs (now : JsNumber) (atMs : Option JsNumber) (field : String) :
    Except String JsNumber :=
  match atMs with
  | none => .ok now
  | some n => normalizeTimestampMs (.number n) field

/-- `id === undefined ? randomUUID() : normalizeIntakeEnvelopeId(id)`. -/
def resolveId (uuid : String) (id : Option String) : Except String String :=
  match id with
  | none => .ok uuid
  | some s => normalizeIntakeEnvelopeId (.string s)

def createIntakeEnvelope (now : JsNumber) (uuid : String) (input : CreateIntakeEnvelopeInput) :
    Except String IntakeEnvelope := do
  let atMs ← resolveAtMs now input.atMs "atMs"
  let originHop ← normalizeProvenanceHop
    (IntakeProvenanceHop.value
      { kind := .source input.sourceClass, ref := input.originRef, atMs,
        detail := input.originDetail })
    "origin"
  let id ← resolveId uuid input.id
  let contentRef ← normalizeContentRef input.contentRef.value "contentRef"
  return { id, sourceClass := input.sourceClass, provenance := [originHop]
           sourceRiskTier := input.sourceRiskTier, contentRef, extractedFields := JsMap.empty
           riskLabels := [], scores := JsMap.empty, decision := none, state := .received
           createdAtMs := atMs, transitions := [] }

/-! ## Transitions -/

structure IntakeEnvelopeTransitionInput where
  target          : IntakeEnvelopeState
  actor           : String
  reason          : String
  atMs            : Option JsNumber := none
  decision        : Option IntakeDecision := none
  riskLabels      : Option (List IntakeRiskLabel) := none
  scores          : Option (JsMap String JsNumber) := none
  extractedFields : Option (JsMap String String) := none

/-- The message of `IntakeEnvelopeTransitionError`. -/
def transitionError (envelope : IntakeEnvelope) (target : IntakeEnvelopeState)
    (detail : Option String) : String :=
  let allowed := envelope.state.transitions
  "Illegal intake envelope transition " ++ envelope.state.text ++ " -> " ++ target.text
    ++ " (envelope " ++ envelope.id ++ "; allowed from " ++ envelope.state.text ++ ": "
    ++ (if allowed.isEmpty then "none — terminal state"
        else joinTexts allowed IntakeEnvelopeState.text)
    ++ ")" ++ (match detail with | some d => ": " ++ d | none => "")

/-- The decision a human release records: the one given, with the rule evidence of the
screening decision in place of its own. -/
def humanDecision (envelope : IntakeEnvelope) (given : IntakeDecision) : IntakeDecision :=
  match envelope.decision with
  | some d =>
    if d.ruleMatches.isSome then
      { given with
        ruleMatches := d.ruleMatches
        ruleMatchTotalCount := d.ruleMatchTotalCount
        ruleMatchesTruncated := d.ruleMatchesTruncated }
    else { given with ruleMatches := none, ruleMatchTotalCount := none, ruleMatchesTruncated := none }
  | none =>
    { given with ruleMatches := none, ruleMatchTotalCount := none, ruleMatchesTruncated := none }

def isHumanState (s : IntakeEnvelopeState) : Bool :=
  s = .humanReleased || s = .humanReleasedSanitized

/-- The decision the envelope carries after the transition. -/
def nextDecision (envelope : IntakeEnvelope) (input : IntakeEnvelopeTransitionInput) :
    Except String (Option IntakeDecision) :=
  let fail (detail : String) : String := transitionError envelope input.target (some detail)
  if input.target = .screened then do
    let given ← orThrow input.decision (fail "entering screened requires a decision")
    let decision ← normalizeDecision given.value "transition.decision"
    throwIf (decision.decidedBy = .human)
      (fail "screening decisions must be decidedBy 'screening' or 'policy'")
    return some decision
  else if isHumanState input.target then do
    let given ← orThrow input.decision (fail "human release requires an explicit human decision")
    let decision ← normalizeDecision (humanDecision envelope given).value "transition.decision"
    throwIf (decision.decidedBy ≠ .human)
      (fail "human release decisions must be decidedBy 'human'")
    return some decision
  else if input.decision.isSome then
    .error (fail "a decision may only accompany screening or human-release transitions")
  else .ok envelope.decision

/-- Post-screening routing must match the recorded screening decision. -/
def checkRouting (envelope : IntakeEnvelope) (target : IntakeEnvelopeState)
    (decision : Option IntakeDecision) : Except String Unit :=
  if envelope.state = .screened then
    match decision with
    | none => .error (transitionError envelope target (some "screened envelope is missing its decision"))
    | some d =>
      let expected := postScreeningStateForDecision d.action
      if target ≠ expected then
        .error (transitionError envelope target
          (some ("decision '" ++ d.action.text ++ "' routes to '" ++ expected.text ++ "'")))
      else .ok ()
  else .ok ()

/-- `{ ...base, ...extra }`. -/
def spread {ν : Type} (base extra : JsMap String ν) : JsMap String ν :=
  extra.entries.foldl (fun m p => m.set p.1 p.2) base

def mergeRiskLabels (envelope : IntakeEnvelope) (input : IntakeEnvelopeTransitionInput) :
    Except String (List IntakeRiskLabel) :=
  match input.riskLabels with
  | some labels => normalizeRiskLabels
      (.array ((envelope.riskLabels ++ labels).map fun l => .string l.text))
  | none => .ok envelope.riskLabels

def mergeScores (envelope : IntakeEnvelope) (input : IntakeEnvelopeTransitionInput) :
    Except String (JsMap String JsNumber) :=
  match input.scores with
  | some scores => normalizeScores (recordValue .number (spread envelope.scores scores))
  | none => .ok envelope.scores

def mergeExtractedFields (envelope : IntakeEnvelope) (input : IntakeEnvelopeTransitionInput) :
    Except String (JsMap String String) :=
  match input.extractedFields with
  | some fields => normalizeExtractedFields
      (recordValue .string (spread envelope.extractedFields fields))
  | none => .ok envelope.extractedFields

def transitionIntakeEnvelope (now : JsNumber) (envelope : IntakeEnvelope)
    (input : IntakeEnvelopeTransitionInput) : Except String IntakeEnvelope := do
  throwIf (!isIntakeEnvelopeTransitionAllowed envelope.state input.target)
    (transitionError envelope input.target none)
  -- findings are accepted only when entering `screened`, so below they are merged whenever given
  throwIf ((input.riskLabels.isSome || input.scores.isSome || input.extractedFields.isSome) &&
      input.target ≠ .screened)
    (transitionError envelope input.target
      (some "riskLabels/scores/extractedFields may only be recorded when entering screened"))
  let decision ← nextDecision envelope input
  checkRouting envelope input.target decision
  let atMs ← resolveAtMs now input.atMs "transition.atMs"
  let actor ← normalizeRequiredString (.string input.actor) "transition.actor" 256
  let reason ← normalizeRequiredString (.string input.reason) "transition.reason" maxReasonChars
  let riskLabels ← mergeRiskLabels envelope input
  let scores ← mergeScores envelope input
  let extractedFields ← mergeExtractedFields envelope input
  return { envelope with
    riskLabels
    scores
    extractedFields
    decision
    state := input.target
    transitions := envelope.transitions ++
      [{ source := envelope.state, target := input.target, atMs, actor, reason }] }

/-! ## Taint propagation -/

structure DeriveIntakeEnvelopeInput where
  parent         : IntakeEnvelope
  derivation     : IntakeDerivationKind
  sourceClass    : IntakeSourceClass
  contentRef     : IntakeContentRef
  sourceRiskTier : Option IntakeSourceRiskTier := none
  id             : Option String := none
  atMs           : Option JsNumber := none

def intakeEnvelopeProvenanceRef (intakeEnvelopeId : String) : Except String String := do
  let id ← normalizeIntakeEnvelopeId (.string intakeEnvelopeId)
  return "intake-envelope:" ++ id

def deriveChildIntakeEnvelope (now : JsNumber) (uuid : String) (input : DeriveIntakeEnvelopeInput) :
    Except String IntakeEnvelope := do
  let parent := input.parent
  throwIf (parent.provenance.length ≥ maxProvenanceHops)
    (invalid "provenance" s!"derivation would exceed {maxProvenanceHops} hops")
  let atMs ← resolveAtMs now input.atMs "atMs"
  let ref ← intakeEnvelopeProvenanceRef parent.id
  let effectiveTier := maxIntakeSourceRiskTier parent.sourceRiskTier
    (input.sourceRiskTier.getD parent.sourceRiskTier)
  let id ← resolveId uuid input.id
  let contentRef ← normalizeContentRef input.contentRef.value "contentRef"
  return { id, sourceClass := input.sourceClass
           provenance := parent.provenance ++
             [{ kind := .derivation, ref, atMs, detail := some input.derivation.text }]
           sourceRiskTier := effectiveTier, contentRef, extractedFields := JsMap.empty
           riskLabels := [], scores := JsMap.empty, decision := none, state := .received
           createdAtMs := atMs, transitions := [] }

end Psfn.Intake
