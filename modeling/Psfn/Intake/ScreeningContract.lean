import Psfn.Intake.Receipt

/-!
# The screening contract of a CogSec receipt

`cogSecScreeningContractDigest`, with the vocabularies of `shared/contracts/cogsec-mode.ts` that
its preimage writes out.

* `contract_text_iff` — two contracts have one canonical text exactly when they agree on every
  field up to the order of their scanners, absence being read as null.
-/

namespace Psfn.Intake

open Psfn.Lib

/-! ## Vocabularies -/

inductive CogSecVector where
  | externalChatIngress | externalFileIngress | externalWebIngress | outboundPublication
  | internalChat | ownMemoryRead | localDatabaseRead | journal | localFsRead | selfDirectedShell
deriving DecidableEq

namespace CogSecVector

/-- `COGSEC_VECTORS`. -/
def all : List CogSecVector :=
  [externalChatIngress, externalFileIngress, externalWebIngress, outboundPublication, internalChat,
    ownMemoryRead, localDatabaseRead, journal, localFsRead, selfDirectedShell]

def text : CogSecVector → String
  | externalChatIngress => "external_chat_ingress"
  | externalFileIngress => "external_file_ingress"
  | externalWebIngress => "external_web_ingress"
  | outboundPublication => "outbound_publication"
  | internalChat => "internal_chat"
  | ownMemoryRead => "own_memory_read"
  | localDatabaseRead => "local_database_read"
  | journal => "journal"
  | localFsRead => "local_fs_read"
  | selfDirectedShell => "self_directed_shell"

end CogSecVector

inductive CogSecChannelClass where
  | operatorDirect | privateDirect | groupChat | publicChannel
deriving DecidableEq

namespace CogSecChannelClass

/-- `COGSEC_CHANNEL_CLASSES`. -/
def all : List CogSecChannelClass := [operatorDirect, privateDirect, groupChat, publicChannel]

def text : CogSecChannelClass → String
  | operatorDirect => "operator_direct"
  | privateDirect => "private_direct"
  | groupChat => "group_chat"
  | publicChannel => "public_channel"

end CogSecChannelClass

inductive CogSecWorkflow where
  | fileIngress | webFetch | webSearch
deriving DecidableEq

namespace CogSecWorkflow

/-- `COGSEC_WORKFLOWS`. -/
def all : List CogSecWorkflow := [fileIngress, webFetch, webSearch]

def text : CogSecWorkflow → String
  | fileIngress => "file_ingress"
  | webFetch => "web_fetch"
  | webSearch => "web_search"

end CogSecWorkflow

inductive CogSecStructuralSurface where
  | channelClass (c : CogSecChannelClass)
  | workflow (w : CogSecWorkflow)
deriving DecidableEq

def CogSecStructuralSurface.toJson : CogSecStructuralSurface → Json
  | channelClass c => .object [("channelClass", .string c.text)]
  | workflow w => .object [("workflow", .string w.text)]

/-- Two members of a vocabulary with one text are one member. -/
theorem text_injective {α : Type} {all : List α} {text : α → String}
    (hread : ∀ a, ofText all text (.string (text a)) = some a) {a b : α} (h : text a = text b) :
    a = b := by
  have ha := hread a
  rw [h, hread b] at ha
  exact (Option.some.inj ha).symm

theorem ofText_vector (v : CogSecVector) :
    ofText CogSecVector.all CogSecVector.text (.string v.text) = some v := by
  cases v <;> rfl

theorem ofText_channelClass (c : CogSecChannelClass) :
    ofText CogSecChannelClass.all CogSecChannelClass.text (.string c.text) = some c := by
  cases c <;> rfl

theorem ofText_workflow (w : CogSecWorkflow) :
    ofText CogSecWorkflow.all CogSecWorkflow.text (.string w.text) = some w := by
  cases w <;> rfl

/-! ## The contract -/

/-- An optional property: it may be left out, or given as `null`. -/
inductive Nullish (α : Type) where
  | absent
  | null
  | given (a : α)

/-- `value ?? null`. -/
def Nullish.orNull {α : Type} : Nullish α → Option α
  | given a => some a
  | _ => none

structure CogSecScreeningContractInput where
  policyDigest      : String
  ruleFingerprint   : String
  globalMode        : CogSecMode
  posture           : EnforcementPosture
  cogsecVector      : CogSecVector
  sourceClass       : IntakeSourceClass
  sourceRiskTier    : IntakeSourceRiskTier
  scanScope         : String
  scannerIds        : List String
  injectionScorerId : Nullish String
  surface           : Nullish CogSecStructuralSurface
  l2                : String
  l3                : String

/-- **The same contract**: every field agrees, up to the order of the scanners and with absence
read as null. -/
structure SameContract (a b : CogSecScreeningContractInput) : Prop where
  policyDigest      : a.policyDigest = b.policyDigest
  ruleFingerprint   : a.ruleFingerprint = b.ruleFingerprint
  globalMode        : a.globalMode = b.globalMode
  posture           : a.posture = b.posture
  cogsecVector      : a.cogsecVector = b.cogsecVector
  sourceClass       : a.sourceClass = b.sourceClass
  sourceRiskTier    : a.sourceRiskTier = b.sourceRiskTier
  scanScope         : a.scanScope = b.scanScope
  scannerIds        : a.scannerIds.Perm b.scannerIds
  injectionScorerId : a.injectionScorerId.orNull = b.injectionScorerId.orNull
  surface           : a.surface.orNull = b.surface.orNull
  l2                : a.l2 = b.l2
  l3                : a.l3 = b.l3

/-- `texts.sort()`. -/
def sortTexts (texts : List String) : List String :=
  texts.mergeSort fun a b => JsString.unitsLe (JsString.utf16Units a) (JsString.utf16Units b)

def orNullJson {α : Type} (toJson : α → Json) (value : Nullish α) : Json :=
  match value.orNull with
  | none => .null
  | some a => toJson a

/-- The preimage, once every field has been read. -/
def CogSecScreeningContractInput.toJson (input : CogSecScreeningContractInput) : Json :=
  .object [("digestVersion", .int 1), ("policyDigest", .string input.policyDigest),
    ("ruleFingerprint", .string input.ruleFingerprint),
    ("globalMode", .string input.globalMode.text), ("posture", .string input.posture.text),
    ("cogsecVector", .string input.cogsecVector.text),
    ("sourceClass", .string input.sourceClass.text),
    ("sourceRiskTier", .string input.sourceRiskTier.text), ("scanScope", .string input.scanScope),
    ("scannerIds", .array ((sortTexts input.scannerIds).map Json.string)),
    ("injectionScorerId", orNullJson Json.string input.injectionScorerId),
    ("surface", orNullJson CogSecStructuralSurface.toJson input.surface),
    ("semanticLayers", .object [("l2", .string input.l2), ("l3", .string input.l3)])]

/-- The checks of the preimage's texts, which leave them as they are. -/
def requireContract (input : CogSecScreeningContractInput) : Except String Unit := do
  let _ ← requireSha256 (.string input.policyDigest) "policyDigest"
  let _ ← requireText (.string input.ruleFingerprint) "ruleFingerprint"
  let _ ← requireText (.string input.scanScope) "scanScope"
  input.scannerIds.forM fun id => do
    let _ ← requireText (.string id) "scannerIds[]"
  let _ ← requireText (.string input.l2) "semanticLayers.l2"
  let _ ← requireText (.string input.l3) "semanticLayers.l3"

def cogSecScreeningContractDigest (N : NumberText) (sha256 : ByteArray → Sha256Hex)
    (input : CogSecScreeningContractInput) : Except String Sha256Hex := do
  requireContract input
  let text ← canonicalJsonString N input.toJson.value "screening contract"
  return sha256 text.toByteArray

/-! ## Its canonical text -/

theorem sortTexts_sorted (texts : List String) : (sortTexts texts).Pairwise fun a b =>
    JsString.unitsLe (JsString.utf16Units a) (JsString.utf16Units b) = true := by
  refine List.pairwise_mergeSort ?_ ?_ texts
  · intro a b c
    exact JsString.unitsLe_trans (JsString.utf16Units a) (JsString.utf16Units b)
      (JsString.utf16Units c)
  · intro a b
    exact JsString.unitsLe_total (JsString.utf16Units a) (JsString.utf16Units b)

/-- Sorting forgets the order and nothing else. -/
theorem sortTexts_eq_iff {texts texts' : List String} :
    sortTexts texts = sortTexts texts' ↔ texts.Perm texts' := by
  have hperm : ∀ l, (sortTexts l).Perm l := fun l => List.mergeSort_perm l _
  constructor
  · intro h
    have hsorted := hperm texts
    rw [h] at hsorted
    exact hsorted.symm.trans (hperm texts')
  · intro h
    refine List.Perm.eq_of_pairwise ?_ (sortTexts_sorted texts) (sortTexts_sorted texts')
      (((hperm texts).trans h).trans (hperm texts').symm)
    intro a b _ _ hab hba
    exact JsString.utf16Units_injective (Digits.unitsLe_antisymm hab hba)

theorem plain_orNullJson {α : Type} {toJson : α → Json} (h : ∀ a, (toJson a).Plain)
    (value : Nullish α) : (orNullJson toJson value).Plain := by
  cases value with
  | given a => exact h a
  | _ => trivial

theorem plain_string (s : String) : (Json.string s).Plain := trivial

theorem plain_surface (surface : CogSecStructuralSurface) : surface.toJson.Plain := by
  cases surface <;> exact ⟨by simp, trivial, trivial⟩

theorem plainItems_iff {items : List Json} : Json.PlainItems items ↔ ∀ item ∈ items, item.Plain := by
  induction items with
  | nil => simp [Json.PlainItems]
  | cons item rest ih => simp [Json.PlainItems, ih]

theorem plain_int_one : (Json.int 1).Plain := by
  show (1 : Int).natAbs ≤ 9007199254740991
  decide

theorem plain_contract (input : CogSecScreeningContractInput) : input.toJson.Plain := by
  have hscanners : (Json.array ((sortTexts input.scannerIds).map Json.string)).Plain := by
    refine plainItems_iff.2 fun item hitem => ?_
    obtain ⟨id, -, rfl⟩ := List.mem_map.1 hitem
    trivial
  exact ⟨by simp, plain_int_one, trivial, trivial, trivial, trivial, trivial, trivial, trivial,
    trivial, hscanners, plain_orNullJson plain_string input.injectionScorerId,
    plain_orNullJson plain_surface input.surface, ⟨by simp, trivial, trivial, trivial⟩, trivial⟩

theorem toJson_eq_of_same {a b : CogSecScreeningContractInput} (h : SameContract a b) :
    a.toJson = b.toJson := by
  have hscanners := sortTexts_eq_iff.2 h.scannerIds
  simp only [CogSecScreeningContractInput.toJson, orNullJson, h.policyDigest, h.ruleFingerprint,
    h.globalMode, h.posture, h.cogsecVector, h.sourceClass, h.sourceRiskTier, h.scanScope,
    hscanners, h.injectionScorerId, h.surface, h.l2, h.l3]

section Fields

variable {a b : CogSecScreeningContractInput}

theorem scannerIds_of_value {ids ids' : List String}
    (h : (Json.value (.array (ids.map Json.string))).sortKeys =
      (Json.value (.array (ids'.map Json.string))).sortKeys) : ids = ids' := by
  have hvalues : ∀ l : List String, (Json.value (.array (l.map Json.string))).sortKeys =
      .array (l.map JsValue.string) := by
    intro l
    rw [Json.value, values_eq, JsValue.sortKeys_array, List.map_map, List.map_map]
    rfl
  rw [hvalues, hvalues] at h
  have hstring : Function.Injective JsValue.string := fun s t hst => JsValue.string.inj hst
  exact hstring.list_map (JsValue.array.inj h)

theorem scorer_of_value {scorer scorer' : Nullish String}
    (h : (orNullJson Json.string scorer).value.sortKeys =
      (orNullJson Json.string scorer').value.sortKeys) : scorer.orNull = scorer'.orNull := by
  unfold orNullJson at h
  cases hscorer : scorer.orNull <;> cases hscorer' : scorer'.orNull <;>
    simp_all [Json.value, JsValue.sortKeys]

theorem surface_of_value {surface surface' : Nullish CogSecStructuralSurface}
    (h : (orNullJson CogSecStructuralSurface.toJson surface).value.sortKeys =
      (orNullJson CogSecStructuralSurface.toJson surface').value.sortKeys) :
    surface.orNull = surface'.orNull := by
  have hread : ∀ {x y : JsValue} (key : String), x.sortKeys = y.sortKeys → x.DistinctKeys →
      y.DistinctKeys → (x.property key).sortKeys = (y.property key).sortKeys := by
    intro x y key hxy hx hy
    rw [← JsValue.property_sortKeys hx, hxy, JsValue.property_sortKeys hy]
  have hdistinct := fun s => Json.distinctKeys_value (plain_orNullJson plain_surface s)
  have hchannel := hread "channelClass" h (hdistinct surface) (hdistinct surface')
  have hworkflow := hread "workflow" h (hdistinct surface) (hdistinct surface')
  unfold orNullJson at hchannel hworkflow
  cases hs : surface.orNull with
  | none =>
    cases hs' : surface'.orNull with
    | none => rfl
    | some s' =>
      cases s' <;> simp_all [CogSecStructuralSurface.toJson, Json.value, Json.memberValues,
        JsValue.property, JsMap.lookup, JsValue.sortKeys]
  | some s =>
    cases hs' : surface'.orNull with
    | none =>
      cases s <;> simp_all [CogSecStructuralSurface.toJson, Json.value, Json.memberValues,
        JsValue.property, JsMap.lookup, JsValue.sortKeys]
    | some s' =>
      cases s <;> cases s' <;>
        simp_all [CogSecStructuralSurface.toJson, Json.value, Json.memberValues,
          JsValue.property, JsMap.lookup, JsValue.sortKeys]
      · exact text_injective ofText_channelClass hchannel
      · exact text_injective ofText_workflow hworkflow

/-- **Two contracts have one canonical text exactly when they are the same contract.** -/
theorem contract_text_iff (N : NumberText) :
    a.toJson.value.writeCanonical N = b.toJson.value.writeCanonical N ↔ SameContract a b := by
  rw [JsValue.writeCanonical_eq_iff N (Json.isJson_value _) (Json.isJson_value _)]
  refine ⟨fun h => ?_, fun h => by rw [toJson_eq_of_same h]⟩
  have hread : ∀ key, (a.toJson.value.property key).sortKeys =
      (b.toJson.value.property key).sortKeys := by
    intro key
    rw [← JsValue.property_sortKeys (Json.distinctKeys_value (plain_contract a)), h,
      JsValue.property_sortKeys (Json.distinctKeys_value (plain_contract b))]
  have htext : ∀ {s t : String}, (JsValue.string s).sortKeys = (JsValue.string t).sortKeys →
      s = t := fun hst => JsValue.string.inj hst
  have hlayers : ∀ c : CogSecScreeningContractInput,
      (c.toJson.value.property "semanticLayers").DistinctKeys := fun c =>
    JsValue.distinctKeys_property (Json.distinctKeys_value (plain_contract c)) _
  have hlayer : ∀ key, ((a.toJson.value.property "semanticLayers").property key).sortKeys =
      ((b.toJson.value.property "semanticLayers").property key).sortKeys := by
    intro key
    rw [← JsValue.property_sortKeys (hlayers a), hread, JsValue.property_sortKeys (hlayers b)]
  exact {
    policyDigest := htext (hread "policyDigest")
    ruleFingerprint := htext (hread "ruleFingerprint")
    globalMode := text_injective ofText_mode (htext (hread "globalMode"))
    posture := text_injective ofText_posture (htext (hread "posture"))
    cogsecVector := text_injective ofText_vector (htext (hread "cogsecVector"))
    sourceClass := text_injective ofText_sourceClass (htext (hread "sourceClass"))
    sourceRiskTier := text_injective ofText_sourceRiskTier (htext (hread "sourceRiskTier"))
    scanScope := htext (hread "scanScope")
    scannerIds := sortTexts_eq_iff.1 (scannerIds_of_value (hread "scannerIds"))
    injectionScorerId := scorer_of_value (hread "injectionScorerId")
    surface := surface_of_value (hread "surface")
    l2 := htext (hlayer "l2")
    l3 := htext (hlayer "l3") }

end Fields

end Psfn.Intake
