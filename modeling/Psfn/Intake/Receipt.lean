import Mathlib.Data.Int.Cast.Basic
import Psfn.Intake.RoundTrip
import Psfn.Intake.SinkGates
import Psfn.Lib.CanonicalJson

/-!
# CogSec receipts

`shared/contracts/cogsec-receipt.ts`: minting a receipt for admitted bytes, the check of a receipt
that was read back, and the digest of a screening contract; with `canonicalJsonString` of
`shared/utils/json-serialization.ts`, which the digests are taken of.

SHA-256 and the text of a number are parameters. What a field check has shown stays with the value,
so a receipt cannot hold a blank id or an instant that is no safe integer.

* `validateCogSecReceipt_value` — the validator gives back every receipt whose digest binds it;
* `bound_of_create`, `bound_of_validate` — every receipt that is minted or accepted is one.
-/

namespace Psfn.Intake

open Psfn.Lib

/-! ## Vocabularies -/

/-- `COGSEC_RECEIPT_ADMITTED_ACTIONS`. -/
inductive CogSecReceiptAdmittedAction where
  | pass | sanitize
deriving DecidableEq

namespace CogSecReceiptAdmittedAction

def all : List CogSecReceiptAdmittedAction := [pass, sanitize]

def text : CogSecReceiptAdmittedAction → String
  | pass => "pass"
  | sanitize => "sanitize"

end CogSecReceiptAdmittedAction

/-- `INTAKE_DERIVATION_KINDS`. -/
def IntakeDerivationKind.all : List IntakeDerivationKind :=
  [summary, ocrTranscript, audioTranscript, subagentDigest, translation, extraction]

inductive CogSecReceiptLineageStage where
  | rawIntake | l1Sanitize
  | derivation (kind : IntakeDerivationKind)
deriving DecidableEq

namespace CogSecReceiptLineageStage

def all : List CogSecReceiptLineageStage :=
  rawIntake :: l1Sanitize :: IntakeDerivationKind.all.map derivation

def text : CogSecReceiptLineageStage → String
  | rawIntake => "raw_intake"
  | l1Sanitize => "l1_sanitize"
  | derivation kind => kind.text

end CogSecReceiptLineageStage

namespace EnforcementPosture

def all : List EnforcementPosture := [shadow, enforce]

def text : EnforcementPosture → String
  | shadow => "shadow"
  | enforce => "enforce"

end EnforcementPosture

namespace CogSecMode

/-- `COGSEC_MODES`. -/
def all : List CogSecMode := [shadow, boundary, strict]

def text : CogSecMode → String
  | shadow => "shadow"
  | boundary => "boundary"
  | strict => "strict"

end CogSecMode

/-! ## Fields -/

/-- A string that is not blank. -/
abbrev Text := {s : String // JsString.trim s ≠ ""}

/-- 64 lowercase hex characters. -/
abbrev Sha256Hex := {s : String // isSha256Hex s.toList = true}

/-- A safe integer from `least` on. -/
abbrev SafeInteger (least : Nat) := {n : Nat // least ≤ n ∧ n ≤ 9007199254740991}

def requireText (value : JsValue) (field : String) : Except String Text :=
  match value with
  | .string s =>
    if h : JsString.trim s ≠ "" then .ok ⟨s, h⟩
    else .error s!"CogSec receipt {field} must be a non-empty string"
  | _ => .error s!"CogSec receipt {field} must be a non-empty string"

def requireSha256 (value : JsValue) (field : String) : Except String Sha256Hex :=
  match value with
  | .string s =>
    if h : isSha256Hex s.toList = true then .ok ⟨s, h⟩
    else .error s!"CogSec receipt {field} must be 64 lowercase hex characters"
  | _ => .error s!"CogSec receipt {field} must be 64 lowercase hex characters"

/-- `typeof value === 'number' && Number.isSafeInteger(value) && value >= least`. -/
def requireSafeInteger (least : Nat) (value : JsValue) (message : String) :
    Except String (SafeInteger least) :=
  match value with
  | .number (.finite q) =>
    if h : q.den = 1 ∧ 0 ≤ q.num ∧ least ≤ q.num.toNat ∧ q.num.toNat ≤ 9007199254740991 then
      .ok ⟨q.num.toNat, h.2.2⟩
    else .error message
  | _ => .error message

def requireTimestamp (value : JsValue) (field : String) : Except String (SafeInteger 1) :=
  requireSafeInteger 1 value s!"CogSec receipt {field} must be a positive integer timestamp"

def requireSize (value : JsValue) (field : String) : Except String (SafeInteger 0) :=
  requireSafeInteger 0 value s!"CogSec receipt {field} must be a non-negative integer"

/-! ## Receipts -/

structure CogSecReceiptIssuer where
  id        : Text
  instance_ : Text

structure CogSecReceiptVerdict where
  envelopeId     : Text
  action         : CogSecReceiptAdmittedAction
  state          : IntakeEnvelopeState
  posture        : EnforcementPosture
  globalMode     : CogSecMode
  sourceClass    : IntakeSourceClass
  sourceRiskTier : IntakeSourceRiskTier
  decidedAtMs    : SafeInteger 1
  riskLabels     : List IntakeRiskLabel

structure CogSecReceiptLineageStep where
  stage           : CogSecReceiptLineageStage
  outputSha256    : Sha256Hex
  transformId     : Text
  parentReceiptId : Option Text

/-- The fields of a receipt that its digest binds. `schemaVersion` is always `1` and is not
stored. -/
structure UnsignedReceipt where
  receiptId               : Text
  issuer                  : CogSecReceiptIssuer
  issuedAtMs              : SafeInteger 1
  expiresAtMs             : SafeInteger 1
  contentSha256           : Sha256Hex
  contentSizeBytes        : SafeInteger 0
  rawContentSha256        : Sha256Hex
  screeningContractDigest : Sha256Hex
  verdict                 : CogSecReceiptVerdict
  lineage                 : List CogSecReceiptLineageStep
  expires                 : issuedAtMs.val < expiresAtMs.val
  rooted                  : lineage ≠ []

structure CogSecReceipt where
  unsigned      : UnsignedReceipt
  receiptSha256 : Sha256Hex

/-! ## Receipts as JSON -/

def CogSecReceiptIssuer.toJson (issuer : CogSecReceiptIssuer) : Json :=
  .object [("id", .string issuer.id.val), ("instance", .string issuer.instance_.val)]

def CogSecReceiptVerdict.toJson (verdict : CogSecReceiptVerdict) : Json :=
  .object [("envelopeId", .string verdict.envelopeId.val), ("action", .string verdict.action.text),
    ("state", .string verdict.state.text), ("posture", .string verdict.posture.text),
    ("globalMode", .string verdict.globalMode.text),
    ("sourceClass", .string verdict.sourceClass.text),
    ("sourceRiskTier", .string verdict.sourceRiskTier.text),
    ("decidedAtMs", .int verdict.decidedAtMs.val),
    ("riskLabels", .array (verdict.riskLabels.map fun label => .string label.text))]

/-- `...(parentReceiptId !== undefined ? { parentReceiptId } : {})`. -/
def CogSecReceiptLineageStep.toJson (step : CogSecReceiptLineageStep) : Json :=
  match step.parentReceiptId with
  | none =>
    .object [("stage", .string step.stage.text), ("outputSha256", .string step.outputSha256.val),
      ("transformId", .string step.transformId.val)]
  | some parentReceiptId =>
    .object [("stage", .string step.stage.text), ("outputSha256", .string step.outputSha256.val),
      ("transformId", .string step.transformId.val),
      ("parentReceiptId", .string parentReceiptId.val)]

def UnsignedReceipt.members (r : UnsignedReceipt) : List (String × Json) :=
  [("schemaVersion", .int 1), ("receiptId", .string r.receiptId.val), ("issuer", r.issuer.toJson),
    ("issuedAtMs", .int r.issuedAtMs.val), ("expiresAtMs", .int r.expiresAtMs.val),
    ("contentSha256", .string r.contentSha256.val),
    ("contentSizeBytes", .int r.contentSizeBytes.val),
    ("rawContentSha256", .string r.rawContentSha256.val),
    ("screeningContractDigest", .string r.screeningContractDigest.val),
    ("verdict", r.verdict.toJson),
    ("lineage", .array (r.lineage.map CogSecReceiptLineageStep.toJson))]

def UnsignedReceipt.toJson (r : UnsignedReceipt) : Json := .object r.members

def CogSecReceipt.toJson (r : CogSecReceipt) : Json :=
  .object (r.unsigned.members ++ [("receiptSha256", .string r.receiptSha256.val)])

/-! ## Normalizers -/

def normalizeIssuer (value : JsValue) : Except String CogSecReceiptIssuer := do
  throwIf (!value.isRecord) "CogSec receipt issuer must be an object"
  let id ← requireText (value.property "id") "issuer.id"
  let instance_ ← requireText (value.property "instance") "issuer.instance"
  return { id, instance_ }

def normalizeVerdictRiskLabels (value : JsValue) : Except String (List IntakeRiskLabel) :=
  match value with
  | .array labels =>
    labels.mapM fun label => orThrow (ofText IntakeRiskLabel.all IntakeRiskLabel.text label)
      "CogSec receipt verdict riskLabels contains an unknown label"
  | _ => .error "CogSec receipt verdict riskLabels must be an array"

def normalizeVerdict (value : JsValue) : Except String CogSecReceiptVerdict := do
  throwIf (!value.isRecord) "CogSec receipt verdict must be an object"
  let action ← orThrow (ofText CogSecReceiptAdmittedAction.all CogSecReceiptAdmittedAction.text
    (value.property "action"))
    "CogSec receipt verdict action must admit content (pass or sanitize)"
  let state ← orThrow (ofText IntakeEnvelopeState.all IntakeEnvelopeState.text
    (value.property "state")) "CogSec receipt verdict state is not an intake envelope state"
  let posture ← orThrow (ofText EnforcementPosture.all EnforcementPosture.text
    (value.property "posture")) "CogSec receipt verdict posture must be shadow or enforce"
  let globalMode ← orThrow (ofText CogSecMode.all CogSecMode.text (value.property "globalMode"))
    "CogSec receipt verdict globalMode is not a CogSec mode"
  let sourceClass ← orThrow (ofText IntakeSourceClass.all IntakeSourceClass.text
    (value.property "sourceClass")) "CogSec receipt verdict sourceClass is unknown"
  let sourceRiskTier ← orThrow (ofText IntakeSourceRiskTier.all IntakeSourceRiskTier.text
    (value.property "sourceRiskTier")) "CogSec receipt verdict sourceRiskTier is unknown"
  let riskLabels ← normalizeVerdictRiskLabels (value.property "riskLabels")
  let envelopeId ← requireText (value.property "envelopeId") "verdict.envelopeId"
  let decidedAtMs ← requireTimestamp (value.property "decidedAtMs") "verdict.decidedAtMs"
  return { envelopeId, action, state, posture, globalMode, sourceClass, sourceRiskTier
           decidedAtMs, riskLabels }

def normalizeLineageStep (value : JsValue) : Except String CogSecReceiptLineageStep := do
  throwIf (!value.isRecord) "CogSec receipt lineage step must be an object"
  let stage ← orThrow (ofText CogSecReceiptLineageStage.all CogSecReceiptLineageStage.text
    (value.property "stage")) "CogSec receipt lineage stage is unknown"
  let parentReceiptId ← optionalField (value.property "parentReceiptId") fun parent =>
    requireText parent "lineage.parentReceiptId"
  let outputSha256 ← requireSha256 (value.property "outputSha256") "lineage.outputSha256"
  let transformId ← requireText (value.property "transformId") "lineage.transformId"
  return { stage, outputSha256, transformId, parentReceiptId }

/-! ## Digests -/

/-- `content: string | Uint8Array`. -/
inductive ContentSource where
  | text (s : String)
  | bytes (b : ByteArray)

def ContentSource.octets : ContentSource → ByteArray
  | text s => s.toByteArray
  | bytes b => b

/-- Content whose length is a safe integer, as the length of every string and array is. -/
structure Content where
  source : ContentSource
  short  : source.octets.size ≤ 9007199254740991

section Digests

variable (N : NumberText) (sha256 : ByteArray → Sha256Hex)

def canonicalJsonString (value : JsValue) (fieldName : String) : Except String String :=
  if value.isUndefined then .error s!"{fieldName} cannot be represented as JSON"
  else .ok (String.ofList (value.json.writeCanonical N))

def cogSecContentSha256 (content : Content) : Sha256Hex := sha256 content.source.octets

def cogSecContentSizeBytes (content : Content) : SafeInteger 0 :=
  ⟨content.source.octets.size, Nat.zero_le _, content.short⟩

def cogSecReceiptSha256 (receipt : UnsignedReceipt) : Except String Sha256Hex := do
  let text ← canonicalJsonString N receipt.toJson.value "cogsec receipt"
  return sha256 text.toByteArray

/-! ## Minting and validating -/

/-- The two checks that close both functions, on the fields read so far. -/
def requireUnsigned (receiptId : Text) (issuer : CogSecReceiptIssuer)
    (issuedAtMs expiresAtMs : SafeInteger 1) (contentSha256 : Sha256Hex)
    (contentSizeBytes : SafeInteger 0) (rawContentSha256 screeningContractDigest : Sha256Hex)
    (verdict : CogSecReceiptVerdict) (lineage : List CogSecReceiptLineageStep) :
    Except String UnsignedReceipt :=
  if expires : issuedAtMs.val < expiresAtMs.val then
    if rooted : lineage ≠ [] then
      .ok { receiptId, issuer, issuedAtMs, expiresAtMs, contentSha256, contentSizeBytes
            rawContentSha256, screeningContractDigest, verdict, lineage, expires, rooted }
    else .error "CogSec receipt lineage must record at least the raw intake step"
  else .error "CogSec receipt expiresAtMs must be after issuedAtMs"

structure CreateCogSecReceiptInput where
  receiptId               : JsValue
  issuer                  : JsValue
  issuedAtMs              : JsValue
  expiresAtMs             : JsValue
  admittedContent         : Content
  rawContent              : Content
  screeningContractDigest : JsValue
  verdict                 : JsValue
  lineage                 : List JsValue

def createCogSecReceipt (input : CreateCogSecReceiptInput) : Except String CogSecReceipt := do
  let receiptId ← requireText input.receiptId "receiptId"
  let issuer ← normalizeIssuer input.issuer
  let issuedAtMs ← requireTimestamp input.issuedAtMs "issuedAtMs"
  let expiresAtMs ← requireTimestamp input.expiresAtMs "expiresAtMs"
  let contentSha256 := cogSecContentSha256 sha256 input.admittedContent
  let contentSizeBytes := cogSecContentSizeBytes input.admittedContent
  let rawContentSha256 := cogSecContentSha256 sha256 input.rawContent
  let screeningContractDigest ← requireSha256 input.screeningContractDigest "screeningContractDigest"
  let verdict ← normalizeVerdict input.verdict
  let lineage ← input.lineage.mapM normalizeLineageStep
  let unsigned ← requireUnsigned receiptId issuer issuedAtMs expiresAtMs contentSha256
    contentSizeBytes rawContentSha256 screeningContractDigest verdict lineage
  let receiptSha256 ← cogSecReceiptSha256 N sha256 unsigned
  return { unsigned, receiptSha256 }

/-- `value.schemaVersion !== COGSEC_RECEIPT_SCHEMA_VERSION`. -/
def isSchemaVersion : JsValue → Bool
  | .number n => n = .finite 1
  | _ => false

/-- `value.lineage`, an array. -/
def requireLineage (value : JsValue) : Except String (List JsValue) :=
  match value with
  | .array steps => .ok steps
  | _ => .error "CogSec receipt lineage must be an array"

/-- The fields of a receipt that was read back, before its digest is recomputed. -/
def readUnsignedReceipt (value : JsValue) : Except String UnsignedReceipt := do
  throwIf (!value.isRecord) "CogSec receipt must be an object"
  throwIf (!isSchemaVersion (value.property "schemaVersion"))
    "CogSec receipt schemaVersion must be 1"
  let steps ← requireLineage (value.property "lineage")
  let receiptId ← requireText (value.property "receiptId") "receiptId"
  let issuer ← normalizeIssuer (value.property "issuer")
  let issuedAtMs ← requireTimestamp (value.property "issuedAtMs") "issuedAtMs"
  let expiresAtMs ← requireTimestamp (value.property "expiresAtMs") "expiresAtMs"
  let contentSha256 ← requireSha256 (value.property "contentSha256") "contentSha256"
  let contentSizeBytes ← requireSize (value.property "contentSizeBytes") "contentSizeBytes"
  let rawContentSha256 ← requireSha256 (value.property "rawContentSha256") "rawContentSha256"
  let screeningContractDigest ← requireSha256 (value.property "screeningContractDigest")
    "screeningContractDigest"
  let verdict ← normalizeVerdict (value.property "verdict")
  let lineage ← steps.mapM normalizeLineageStep
  requireUnsigned receiptId issuer issuedAtMs expiresAtMs contentSha256 contentSizeBytes
    rawContentSha256 screeningContractDigest verdict lineage

def validateCogSecReceipt (value : JsValue) : Except String CogSecReceipt := do
  let unsigned ← readUnsignedReceipt value
  let receiptSha256 ← requireSha256 (value.property "receiptSha256") "receiptSha256"
  let bound ← cogSecReceiptSha256 N sha256 unsigned
  throwIf (bound ≠ receiptSha256) "CogSec receipt digest does not bind its fields"
  return { unsigned, receiptSha256 }

end Digests

/-! ## What is written is read back -/

@[simp] theorem ofText_admittedAction (a : CogSecReceiptAdmittedAction) :
    ofText CogSecReceiptAdmittedAction.all CogSecReceiptAdmittedAction.text (.string a.text) =
      some a := by
  cases a <;> rfl

@[simp] theorem ofText_lineageStage (s : CogSecReceiptLineageStage) :
    ofText CogSecReceiptLineageStage.all CogSecReceiptLineageStage.text (.string s.text) =
      some s := by
  cases s with
  | derivation kind => cases kind <;> rfl
  | _ => rfl

@[simp] theorem ofText_posture (p : EnforcementPosture) :
    ofText EnforcementPosture.all EnforcementPosture.text (.string p.text) = some p := by
  cases p <;> rfl

@[simp] theorem ofText_mode (m : CogSecMode) :
    ofText CogSecMode.all CogSecMode.text (.string m.text) = some m := by
  cases m <;> rfl

@[simp] theorem requireText_string (t : Text) (field : String) :
    requireText (.string t.val) field = .ok t := dif_pos t.2

@[simp] theorem requireSha256_string (h : Sha256Hex) (field : String) :
    requireSha256 (.string h.val) field = .ok h := dif_pos h.2

theorem requireSafeInteger_number {least : Nat} (n : SafeInteger least) (message : String) :
    requireSafeInteger least (.number (.finite ((n.val : Int) : Rat))) message = .ok n := by
  obtain ⟨n, hleast, hsafe⟩ := n
  have hread : ((n : Int) : Rat).den = 1 ∧ 0 ≤ ((n : Int) : Rat).num ∧
      least ≤ ((n : Int) : Rat).num.toNat ∧ ((n : Int) : Rat).num.toNat ≤ 9007199254740991 := by
    rw [Rat.num_intCast, Int.toNat_natCast]
    exact ⟨Rat.den_intCast n, Int.natCast_nonneg n, hleast, hsafe⟩
  rw [requireSafeInteger, dif_pos hread]
  simp

@[simp] theorem requireTimestamp_number (n : SafeInteger 1) (field : String) :
    requireTimestamp (.number (.finite ((n.val : Int) : Rat))) field = .ok n :=
  requireSafeInteger_number n _

@[simp] theorem requireSize_number (n : SafeInteger 0) (field : String) :
    requireSize (.number (.finite ((n.val : Int) : Rat))) field = .ok n :=
  requireSafeInteger_number n _

theorem values_eq (items : List Json) : Json.values items = items.map Json.value := by
  induction items with
  | nil => rfl
  | cons item rest ih => rw [Json.values, ih, List.map_cons]

@[simp] theorem normalizeIssuer_value (issuer : CogSecReceiptIssuer) :
    normalizeIssuer issuer.toJson.value = .ok issuer := by
  simp [normalizeIssuer, CogSecReceiptIssuer.toJson, Json.value, Json.memberValues,
    JsValue.isRecord, JsValue.property, JsMap.lookup, throwIf, bind, Except.bind, pure, Except.pure]

theorem normalizeVerdictRiskLabels_value (labels : List IntakeRiskLabel) :
    normalizeVerdictRiskLabels (.array (labels.map fun label => .string label.text)) =
      .ok labels := by
  refine mapM_map_ok fun label _ => ?_
  rw [orThrow_eq_ok]
  cases label <;> rfl

@[simp] theorem normalizeVerdict_value (verdict : CogSecReceiptVerdict) :
    normalizeVerdict verdict.toJson.value = .ok verdict := by
  have hlabels := normalizeVerdictRiskLabels_value verdict.riskLabels
  simp [normalizeVerdict, CogSecReceiptVerdict.toJson, Json.value, Json.memberValues, values_eq,
    JsValue.isRecord, JsValue.property, JsMap.lookup, throwIf, bind, Except.bind, pure, Except.pure,
    orThrow, hlabels, Function.comp_def, -Int.cast_natCast]

theorem normalizeLineageStep_value (step : CogSecReceiptLineageStep) :
    normalizeLineageStep step.toJson.value = .ok step := by
  obtain ⟨stage, outputSha256, transformId, parentReceiptId⟩ := step
  cases parentReceiptId <;>
    simp [normalizeLineageStep, CogSecReceiptLineageStep.toJson, Json.value, Json.memberValues,
      JsValue.isRecord, JsValue.isUndefined, JsValue.property, JsMap.lookup, throwIf, bind,
      Except.bind, pure, Except.pure, orThrow, optionalField, Except.map]

theorem requireUnsigned_eq (r : UnsignedReceipt) :
    requireUnsigned r.receiptId r.issuer r.issuedAtMs r.expiresAtMs r.contentSha256
      r.contentSizeBytes r.rawContentSha256 r.screeningContractDigest r.verdict r.lineage = .ok r := by
  rw [requireUnsigned, dif_pos r.expires, dif_pos r.rooted]

theorem lineage_value (lineage : List CogSecReceiptLineageStep) :
    (Json.values (lineage.map CogSecReceiptLineageStep.toJson)).mapM normalizeLineageStep =
      .ok lineage := by
  rw [values_eq, List.map_map]
  exact mapM_map_ok fun step _ => normalizeLineageStep_value step

/-- The fields of a receipt are read back, whatever else follows them. -/
theorem readUnsignedReceipt_value (r : UnsignedReceipt) (more : List (String × Json)) :
    readUnsignedReceipt (Json.value (.object (r.members ++ more))) = .ok r := by
  have hlineage := lineage_value r.lineage
  have hunsigned := requireUnsigned_eq r
  simp [readUnsignedReceipt, UnsignedReceipt.members, Json.value, Json.memberValues,
    JsValue.isRecord, JsValue.property, JsMap.lookup, throwIf, bind, Except.bind, requireLineage,
    isSchemaVersion, hlineage, hunsigned, -Int.cast_natCast]

section Binding

variable {N : NumberText} {sha256 : ByteArray → Sha256Hex}

/-- The digest of the receipt is the one of its fields. -/
def CogSecReceipt.Bound (N : NumberText) (sha256 : ByteArray → Sha256Hex) (r : CogSecReceipt) :
    Prop := cogSecReceiptSha256 N sha256 r.unsigned = .ok r.receiptSha256

/-- **The validator gives back every receipt whose digest binds it.** -/
theorem validateCogSecReceipt_value {r : CogSecReceipt} (h : r.Bound N sha256) :
    validateCogSecReceipt N sha256 r.toJson.value = .ok r := by
  have hread : readUnsignedReceipt r.toJson.value = .ok r.unsigned :=
    readUnsignedReceipt_value r.unsigned _
  have hdigest : r.toJson.value.property "receiptSha256" = .string r.receiptSha256.val := rfl
  have hbound : cogSecReceiptSha256 N sha256 r.unsigned = .ok r.receiptSha256 := h
  simp [validateCogSecReceipt, hread, hdigest, hbound, throwIf, bind, Except.bind, pure, Except.pure]

/-- A receipt that is minted is bound by its digest. -/
theorem bound_of_create {input : CreateCogSecReceiptInput} {r : CogSecReceipt}
    (h : createCogSecReceipt N sha256 input = .ok r) : r.Bound N sha256 := by
  simp only [createCogSecReceipt, bind_eq_ok] at h
  obtain ⟨_, _, _, _, _, _, _, _, _, _, _, _, _, _, unsigned, _, digest, hdigest, hr⟩ := h
  obtain rfl := Except.ok.inj hr
  exact hdigest

/-- So is a receipt that is accepted, and the digest is the one it came with. -/
theorem bound_of_validate {value : JsValue} {r : CogSecReceipt}
    (h : validateCogSecReceipt N sha256 value = .ok r) :
    r.Bound N sha256 ∧ value.property "receiptSha256" = .string r.receiptSha256.val := by
  simp only [validateCogSecReceipt, bind_eq_ok, throwIf_eq_ok] at h
  obtain ⟨unsigned, _, digest, hdigest, bound, hbound, _, heq, hr⟩ := h
  obtain rfl := Except.ok.inj hr
  have hsame : bound = digest := by simpa using heq
  refine ⟨hsame ▸ hbound, ?_⟩
  cases hvalue : value.property "receiptSha256" with
  | string s =>
    rw [hvalue, requireSha256] at hdigest
    split at hdigest
    · rw [← Except.ok.inj hdigest]
    · cases hdigest
  | _ => rw [hvalue] at hdigest; cases hdigest

end Binding

end Psfn.Intake
