import Psfn.Lineage.Evidence
import Mathlib.Data.List.Sort

/-!
# CogSec lineage — the selected messages

A span affects the messages whose ids `messageIdInSpan` accepts: the listed ones and those between
the bounds that are given. The preview reads a span twice more: to expand it into L0 messages (and
from them the projection rows), and to scan the admission records of its entries.

* `mem_l0Refs` — which entries the L0 expansion of a list of spans contains;
* `scanned_of_covers` — the scan reads every entry the expansion lists;
* `affected_of_scanned` — and no entry that is not affected;
* `selection_complete_iff` — the preview is complete exactly when no affected entry is affected only
  through a half-open range, or through a range that stands beside listed ids.
-/

namespace Psfn.Lineage

open Psfn.Lib

/-! ## What the preview reads -/

/-- The fields of a session entry the lineage reads. -/
structure SessionEntry where
  id       : JsNumber
  metadata : Option String

structure CompactionSummary where
  id          : JsNumber
  coveredUpTo : JsNumber

/-- The two identities of an envelope snapshot that the scan collects. -/
structure ScreenedEnvelope where
  envelopeId : String
  receiptId  : Option String

/-- A reader over the transcripts of all sessions. -/
structure CogSecLineageSessionReader where
  transcript                   : String → List SessionEntry
  getCompactionSummaries       : String → List CompactionSummary
  /-- What the intake screening metadata of an entry says; an error where it is malformed. -/
  parseIntakeScreeningMetadata : Option String → Except String (Option (List ScreenedEnvelope))

def CogSecLineageSessionReader.getEntriesInRange (reader : CogSecLineageSessionReader)
    (channelId : String) (startId endId : JsNumber) : List SessionEntry :=
  (reader.transcript channelId).filter fun entry => startId.le entry.id && entry.id.le endId

/-- `Math.min` of two numbers. -/
def minNumber (a b : JsNumber) : JsNumber :=
  if a = .nan ∨ b = .nan then .nan else if b.lt a then b else a

/-! ## The admission scan -/

def AffectedSpan.candidates (span : AffectedSpan) : List JsNumber :=
  span.messageIds ++ span.startEntryId.toList ++ span.endEntryId.toList

/-- The bounded entry range an affected span can be scanned over, if any. -/
def admissionScanBounds (span : AffectedSpan) : Option (JsNumber × JsNumber) :=
  match span.candidates with
  | [] => none
  | first :: rest => some (rest.foldl minNumber first, rest.foldl JsNumber.max2 first)

/-- The entries of one span whose admission records are read. -/
def scannedEntries (reader : CogSecLineageSessionReader) (span : AffectedSpan) :
    List SessionEntry :=
  if span.sessionWide then []
  else
    match admissionScanBounds span with
    | none => []
    | some bounds =>
      (reader.getEntriesInRange span.logicalSessionId bounds.1 bounds.2).filter
        fun entry => messageIdInSpan entry.id span

/-- `Set.prototype.add`. -/
def addText (values : List String) (value : String) : List String :=
  if value ∈ values then values else values ++ [value]

structure AdmissionScan where
  envelopeIds         : List String := []
  receiptIds          : List String := []
  malformedEntryCount : Nat := 0

/-- A receipt id that is empty is left out. -/
def AdmissionScan.addSnapshot (scan : AdmissionScan) (snapshot : ScreenedEnvelope) :
    AdmissionScan :=
  { scan with
    envelopeIds := addText scan.envelopeIds snapshot.envelopeId
    receiptIds := match snapshot.receiptId with
      | none => scan.receiptIds
      | some receiptId =>
        if receiptId = "" then scan.receiptIds else addText scan.receiptIds receiptId }

/-- One round of the inner loop of `collectAffectedAdmissionIdentity`. -/
def AdmissionScan.addEntry (reader : CogSecLineageSessionReader) (scan : AdmissionScan)
    (entry : SessionEntry) : AdmissionScan :=
  match reader.parseIntakeScreeningMetadata entry.metadata with
  | .error _ => { scan with malformedEntryCount := scan.malformedEntryCount + 1 }
  | .ok none => scan
  | .ok (some envelopes) => envelopes.foldl AdmissionScan.addSnapshot scan

structure CogSecLineageGap where
  artifactClass : String
  reason        : String
deriving DecidableEq

def admissionScan (spans : List AffectedSpan) (reader : CogSecLineageSessionReader) :
    AdmissionScan :=
  (spans.flatMap (scannedEntries reader)).foldl (AdmissionScan.addEntry reader) {}

/-- The collected identity, and the gaps it pushes. -/
def collectAffectedAdmissionIdentity (spans : List AffectedSpan)
    (sessionReader : Option CogSecLineageSessionReader) :
    CogSecAffectedAdmissionIdentity × List CogSecLineageGap :=
  match sessionReader with
  | none => ({}, [])
  | some reader =>
    let scan := admissionScan spans reader
    ({ envelopeIds := scan.envelopeIds, receiptIds := scan.receiptIds },
      if scan.malformedEntryCount > 0 then
        [⟨"admission_identity",
          s!"affected_entry_intake_screening_metadata_malformed:{scan.malformedEntryCount}"⟩]
      else [])

def admissionIdentityIsEmpty (identity : CogSecAffectedAdmissionIdentity) : Bool :=
  identity.envelopeIds.isEmpty && identity.receiptIds.isEmpty && identity.contentHashes.isEmpty

/-- The identity a caller supplies; a field may be left out. -/
structure SuppliedAdmissionIdentity where
  envelopeIds   : Option (List String) := none
  receiptIds    : Option (List String) := none
  contentHashes : Option (List String) := none

/-- `normalize` of `mergeSuppliedAdmissionIdentity`. -/
def mergeTexts (base : List String) (extra : Option (List String)) : List String :=
  (((extra.getD []).map JsString.trim).filter (· ≠ "")).foldl addText base

def mergeSuppliedAdmissionIdentity (derived : CogSecAffectedAdmissionIdentity)
    (supplied : Option SuppliedAdmissionIdentity) : CogSecAffectedAdmissionIdentity :=
  match supplied with
  | none => derived
  | some supplied =>
    { envelopeIds := mergeTexts derived.envelopeIds supplied.envelopeIds
      receiptIds := mergeTexts derived.receiptIds supplied.receiptIds
      contentHashes := mergeTexts derived.contentHashes supplied.contentHashes }

/-! ## The L0 messages -/

structure CogSecLineageL0Ref where
  logicalSessionId : String
  sourceChannelId  : Option String
  messageId        : JsNumber
  classification   : CogSecLineageClassification := .tainted
  reason           : String := "operator_selected_l0_message"
  actions          : List String := ["seal", "tombstone"]
deriving DecidableEq

/-- The ids one span contributes: the listed ones, or the entries of a closed range if none is
listed. -/
def expandedIds (sessionReader : Option CogSecLineageSessionReader) (span : AffectedSpan) :
    List JsNumber :=
  match span.messageIds, span.startEntryId, span.endEntryId, sessionReader with
  | [], some startEntryId, some endEntryId, some reader =>
    (reader.getEntriesInRange span.logicalSessionId startEntryId endEntryId).map SessionEntry.id
  | messageIds, _, _, _ => messageIds

def l0Ref (span : AffectedSpan) (messageId : JsNumber) : CogSecLineageL0Ref where
  logicalSessionId := span.logicalSessionId
  sourceChannelId := span.sourceChannelId
  messageId := messageId

/-- The text `session:id` of the source's map determines both, as no number's text has a colon. -/
def CogSecLineageL0Ref.key (ref : CogSecLineageL0Ref) : String × JsNumber :=
  (ref.logicalSessionId, ref.messageId)

def l0Refs (spans : List AffectedSpan) (sessionReader : Option CogSecLineageSessionReader) :
    List CogSecLineageL0Ref :=
  spans.flatMap fun span => (expandedIds sessionReader span).map (l0Ref span)

section Preview

variable (localeCompare : String → String → Int)

/-- The comparators `a.text.localeCompare(b.text) || a.number - b.number`. -/
def inOrder (text text' : String) (number number' : JsNumber) : Bool :=
  localeCompare text text' < 0 || (localeCompare text text' = 0 && number.le number')

def buildL0Refs (spans : List AffectedSpan) (sessionReader : Option CogSecLineageSessionReader) :
    List CogSecLineageL0Ref :=
  let refs := JsMap.ofList ((l0Refs spans sessionReader).map fun ref => (ref.key, ref))
  refs.values.mergeSort fun left right =>
    inOrder localeCompare left.logicalSessionId right.logicalSessionId left.messageId
      right.messageId

structure CogSecLineageProjectionRef where
  channelId      : String
  messageId      : JsNumber
  classification : CogSecLineageClassification := .tainted
  reason         : String := "projection_row_for_affected_l0_message"
  actions        : List String := ["search_exclude", "regenerate"]
deriving DecidableEq

def buildProjectionRefs (l0Refs : List CogSecLineageL0Ref) : List CogSecLineageProjectionRef :=
  l0Refs.map fun ref => { channelId := ref.logicalSessionId, messageId := ref.messageId }

structure CogSecLineageCompactionRef where
  logicalSessionId : String
  compactionId     : JsNumber
  coveredUpTo      : JsNumber
  classification   : CogSecLineageClassification
  reason           : String
  actions          : List String := ["regenerate"]
deriving DecidableEq

/-- `span.startEntryId ?? Math.min(...span.messageIds)`, if there is either. -/
def minimumAffectedMessageId (span : AffectedSpan) : Option JsNumber :=
  span.startEntryId <|> match span.messageIds with
    | [] => none
    | first :: rest => some (rest.foldl minNumber first)

def coversAffectedRange (span : AffectedSpan) (summary : CompactionSummary) : Bool :=
  span.sessionWide ||
    match minimumAffectedMessageId span with
    | none => true
    | some minimum => minimum.le summary.coveredUpTo

def compactionRef (span : AffectedSpan) (summary : CompactionSummary) :
    CogSecLineageCompactionRef where
  logicalSessionId := span.logicalSessionId
  compactionId := summary.id
  coveredUpTo := summary.coveredUpTo
  classification := if span.sessionWide then .tainted else .uncertain
  reason :=
    if span.sessionWide then "compaction_summary_belongs_to_affected_session"
    else "compaction_summary_covers_or_may_cover_affected_l0_range"

def buildCompactionRefs (spans : List AffectedSpan)
    (sessionReader : Option CogSecLineageSessionReader) : List CogSecLineageCompactionRef :=
  match sessionReader with
  | none => []
  | some reader =>
    let refs := spans.flatMap fun span =>
      ((reader.getCompactionSummaries span.logicalSessionId).filter
        (coversAffectedRange span)).map (compactionRef span)
    refs.mergeSort fun left right =>
      inOrder localeCompare left.logicalSessionId right.logicalSessionId left.compactionId
        right.compactionId

/-! ## The preview -/

/-- An active memory of the store. -/
structure StoredMemory extends PurrMemory where
  id           : String
  hasEmbedding : Bool

structure CogSecLineageMemoryRef where
  id             : String
  classification : CogSecLineageClassification
  reason         : String
  sourceRef      : Option String
  provenanceRefs : List String
  hasEmbedding   : Bool
  actions        : List String

def derivativeActions (classification : CogSecLineageClassification) : List String :=
  match classification with
  | .tainted => ["revoke", "regenerate"]
  | .uncertain => ["manual_review"]

def memoryRef (spans : List AffectedSpan) (identity : CogSecAffectedAdmissionIdentity)
    (memory : StoredMemory) : Option CogSecLineageMemoryRef :=
  (memoryMatchesSpans memory.toPurrMemory spans identity).map fun found =>
    { id := memory.id
      classification := found.classification
      reason := found.reason
      sourceRef := if memory.sourceRef = "" then none else some memory.sourceRef
      provenanceRefs := memory.provenanceRefs.getD []
      hasEmbedding := memory.hasEmbedding
      actions := derivativeActions found.classification }

structure ListedArtifact extends CogSecExternalLineageArtifact where
  artifactClass : String
  id            : String

structure CogSecLineageExternalArtifactRef where
  artifactClass  : String
  id             : String
  classification : CogSecLineageClassification
  reason         : String
  actions        : List String

def externalArtifactRef (spans : List AffectedSpan) (identity : CogSecAffectedAdmissionIdentity)
    (artifact : ListedArtifact) : Option CogSecLineageExternalArtifactRef :=
  (artifactMatchesSpans artifact.toCogSecExternalLineageArtifact spans identity).map fun found =>
    { artifactClass := artifact.artifactClass
      id := artifact.id
      classification := found.classification
      reason := found.reason
      actions := derivativeActions found.classification }

structure BuildCogSecLineagePreviewInput where
  caseId                    : String
  event                     : CogSecLineageSource
  sessionReader             : Option CogSecLineageSessionReader := none
  memoryStore               : Option (List StoredMemory) := none
  externalArtifacts         : Option (List ListedArtifact) := none
  affectedAdmissionIdentity : Option SuppliedAdmissionIdentity := none

structure CogSecLineagePreview where
  caseId                    : String
  sourceChannelId           : String
  affectedLogicalSessionIds : List String
  l0Messages                : List CogSecLineageL0Ref
  transcriptProjectionRows  : List CogSecLineageProjectionRef
  memories                  : List CogSecLineageMemoryRef
  embeddingMemoryRows       : List CogSecLineageMemoryRef
  compactionSummaries       : List CogSecLineageCompactionRef
  externalArtifacts         : List CogSecLineageExternalArtifactRef
  gaps                      : List CogSecLineageGap

/-- The artifact classes of the gaps without an artifact provider. -/
def externalArtifactGapClasses : List String :=
  ["focus_knowledge", "active_memory_cache", "episodic_landmarks", "profile_artifacts",
    "recent_contact_shapes", "persona_artifacts"]

/-- The event as the preview reads it: with the session ids merged. -/
def previewSource (event : CogSecLineageSource) : CogSecLineageSource :=
  { event with
    affectedLogicalSessionIds :=
      uniqueStrings (event.affectedLogicalSessionIds ++ [event.sourceChannelId]) }

def buildCogSecLineagePreview (input : BuildCogSecLineagePreviewInput) : CogSecLineagePreview :=
  let event := previewSource input.event
  let spans := buildAffectedSpans event
  let l0Messages := buildL0Refs localeCompare spans input.sessionReader
  let collected := collectAffectedAdmissionIdentity spans input.sessionReader
  let identity := mergeSuppliedAdmissionIdentity collected.1 input.affectedAdmissionIdentity
  let memories := ((input.memoryStore.getD []).filterMap (memoryRef spans identity)).mergeSort
    fun left right => localeCompare left.id right.id ≤ 0
  let artifacts := (input.externalArtifacts.getD []).filterMap (externalArtifactRef spans identity)
  { caseId := input.caseId
    sourceChannelId := event.sourceChannelId
    affectedLogicalSessionIds := event.affectedLogicalSessionIds
    l0Messages
    transcriptProjectionRows := buildProjectionRefs l0Messages
    memories
    embeddingMemoryRows := memories.filter CogSecLineageMemoryRef.hasEmbedding
    compactionSummaries := buildCompactionRefs localeCompare spans input.sessionReader
    externalArtifacts := artifacts.mergeSort fun left right =>
      localeCompare left.artifactClass right.artifactClass < 0 ||
        (localeCompare left.artifactClass right.artifactClass = 0 &&
          localeCompare left.id right.id ≤ 0)
    gaps := collected.2
      ++ (if input.sessionReader.isSome && admissionIdentityIsEmpty identity then
          [⟨"admission_identity", "affected_entries_carry_no_admission_identity"⟩] else [])
      ++ (if input.memoryStore.isSome then [] else [⟨"memories", "memory_store_not_provided"⟩])
      ++ (if input.sessionReader.isSome then []
          else [⟨"compaction_summaries", "session_reader_not_provided"⟩])
      ++ (if input.externalArtifacts.isSome then []
          else externalArtifactGapClasses.map fun artifactClass =>
            ⟨artifactClass, "external_artifact_provider_not_provided"⟩) }

end Preview

/-! ## What a span covers -/

/-- The span lists the id, or lists none and has two bounds with the id between them. -/
def Covers (span : AffectedSpan) (id : JsNumber) : Prop :=
  id ∈ span.messageIds ∨ (span.messageIds = [] ∧
    ∃ startEntryId endEntryId, span.startEntryId = some startEntryId ∧
      span.endEntryId = some endEntryId ∧ startEntryId.le id = true ∧ id.le endEntryId = true)

/-- Some span of the session covers the id. -/
def CoveredIn (spans : List AffectedSpan) (sessionId : String) (id : JsNumber) : Prop :=
  ∃ span ∈ spans, span.logicalSessionId = sessionId ∧ Covers span id

section Spans

variable {spans : List AffectedSpan} {span : AffectedSpan} {reader : CogSecLineageSessionReader}
  {entry : SessionEntry} {id : JsNumber}

theorem mem_getEntriesInRange {channelId : String} {startId endId : JsNumber} :
    entry ∈ reader.getEntriesInRange channelId startId endId ↔
      entry ∈ reader.transcript channelId ∧ startId.le entry.id = true ∧
        entry.id.le endId = true := by
  rw [CogSecLineageSessionReader.getEntriesInRange, List.mem_filter, Bool.and_eq_true]

/-- A session entry is expanded exactly from the spans that cover its id. -/
theorem mem_expandedIds (hentry : entry ∈ reader.transcript span.logicalSessionId) :
    entry.id ∈ expandedIds (some reader) span ↔ Covers span entry.id := by
  unfold expandedIds Covers
  split
  · rename_i hids hstart hend hreader
    obtain rfl := Option.some.inj hreader
    rw [hids, List.mem_map]
    constructor
    · rintro ⟨found, hfound, hid⟩
      obtain ⟨-, hlow, hhigh⟩ := mem_getEntriesInRange.1 hfound
      exact .inr ⟨rfl, _, _, hstart, hend, hid ▸ hlow, hid ▸ hhigh⟩
    · rintro (hlisted | ⟨-, low, high, hlow, hhigh, hle, hge⟩)
      · cases hlisted
      · obtain rfl := Option.some.inj (hlow.symm.trans hstart)
        obtain rfl := Option.some.inj (hhigh.symm.trans hend)
        exact ⟨entry, mem_getEntriesInRange.2 ⟨hentry, hle, hge⟩, rfl⟩
  · rename_i hopen
    refine ⟨.inl, ?_⟩
    rintro (hlisted | ⟨hids, low, high, hlow, hhigh, -⟩)
    · exact hlisted
    · exact absurd rfl (hopen _ _ _ hids hlow hhigh)

theorem mem_values_l0Refs (sessionReader : Option CogSecLineageSessionReader)
    (key : String × JsNumber) :
    (∃ ref ∈ (JsMap.ofList ((l0Refs spans sessionReader).map fun ref => (ref.key, ref))).values,
        ref.key = key) ↔ ∃ ref ∈ l0Refs spans sessionReader, ref.key = key := by
  constructor
  · rintro ⟨ref, href, hkey⟩
    obtain ⟨found, hget⟩ := (JsMap.mem_values_iff _ _).1 href
    rcases JsMap.mem_of_get_foldl_set hget with hmem | hnone
    · obtain ⟨ref', href', hpair⟩ := List.mem_map.1 hmem
      obtain ⟨-, rfl⟩ := Prod.mk.inj hpair
      exact ⟨ref', href', hkey⟩
    · rw [JsMap.get_empty] at hnone
      cases hnone
  · rintro ⟨ref, href, hkey⟩
    have hpair : (ref.key, ref) ∈ (l0Refs spans sessionReader).map fun ref => (ref.key, ref) :=
      List.mem_map.2 ⟨ref, href, rfl⟩
    obtain ⟨found, hfound, hget⟩ := JsMap.exists_get_foldl_set hpair JsMap.empty
    obtain ⟨ref', -, hpair'⟩ := List.mem_map.1 hfound
    obtain ⟨hkey', rfl⟩ := Prod.mk.inj hpair'
    exact ⟨ref', (JsMap.mem_values_iff _ _).2 ⟨ref.key, hget⟩, hkey'.trans hkey⟩

/-- The L0 messages of a session, for an id in its transcript. -/
theorem mem_l0Refs {sessionId : String} (hentry : entry ∈ reader.transcript sessionId) :
    (∃ ref ∈ l0Refs spans (some reader), ref.key = (sessionId, entry.id)) ↔
      CoveredIn spans sessionId entry.id := by
  simp only [l0Refs, List.mem_flatMap, List.mem_map]
  constructor
  · rintro ⟨ref, ⟨span, hspan, messageId, hid, rfl⟩, hkey⟩
    obtain ⟨hsession, rfl⟩ := Prod.mk.inj hkey
    refine ⟨span, hspan, hsession, (mem_expandedIds ?_).1 hid⟩
    rw [show span.logicalSessionId = sessionId from hsession]
    exact hentry
  · rintro ⟨span, hspan, rfl, hcovers⟩
    exact ⟨l0Ref span entry.id, ⟨span, hspan, entry.id, (mem_expandedIds hentry).2 hcovers, rfl⟩,
      rfl⟩

/-! ## The scan -/

theorem le_self {a : JsNumber} (h : a ≠ .nan) : a.le a = true := by
  cases a with
  | finite q => simp [JsNumber.le]
  | posInf => rfl
  | negInf => rfl
  | nan => exact absurd rfl h

theorem le_of_lt {a b : JsNumber} (h : a.lt b = true) : a.le b = true :=
  ((Bool.and_eq_true _ _).mp h).1

theorem minNumber_spec {a b : JsNumber} (ha : a ≠ .nan) (hb : b ≠ .nan) :
    minNumber a b ≠ .nan ∧ (minNumber a b).le a = true ∧ (minNumber a b).le b = true := by
  rw [minNumber, if_neg (by simp [ha, hb])]
  split
  · rename_i hlt
    exact ⟨hb, le_of_lt hlt, le_self hb⟩
  · rename_i hlt
    exact ⟨ha, le_self ha, (JsNumber.lt_eq_false_iff hb ha).1 (by simpa using hlt)⟩

theorem max2_spec {a b : JsNumber} (ha : a ≠ .nan) (hb : b ≠ .nan) :
    a.max2 b ≠ .nan ∧ a.le (a.max2 b) = true ∧ b.le (a.max2 b) = true := by
  rw [JsNumber.max2, if_neg (by simp [ha, hb])]
  split
  · rename_i hle
    exact ⟨hb, hle, le_self hb⟩
  · rename_i hle
    have hlt : a.lt b = false := by simp [JsNumber.lt, hle]
    exact ⟨ha, le_self ha, (JsNumber.lt_eq_false_iff ha hb).1 hlt⟩

theorem foldl_minNumber_le {first : JsNumber} {rest : List JsNumber} (hfirst : first ≠ .nan)
    (hrest : ∀ a ∈ rest, a ≠ .nan) :
    (rest.foldl minNumber first).le first = true ∧
      ∀ a ∈ rest, (rest.foldl minNumber first).le a = true := by
  induction rest generalizing first with
  | nil => exact ⟨le_self hfirst, nofun⟩
  | cons b rest ih =>
    rw [List.forall_mem_cons] at hrest
    obtain ⟨hnum, hleft, hright⟩ := minNumber_spec hfirst hrest.1
    obtain ⟨hhead, htail⟩ := ih hnum hrest.2
    rw [List.foldl_cons, List.forall_mem_cons]
    exact ⟨JsNumber.le_trans hhead hleft, JsNumber.le_trans hhead hright, htail⟩

theorem le_foldl_max2 {first : JsNumber} {rest : List JsNumber} (hfirst : first ≠ .nan)
    (hrest : ∀ a ∈ rest, a ≠ .nan) :
    first.le (rest.foldl JsNumber.max2 first) = true ∧
      ∀ a ∈ rest, a.le (rest.foldl JsNumber.max2 first) = true := by
  induction rest generalizing first with
  | nil => exact ⟨le_self hfirst, nofun⟩
  | cons b rest ih =>
    rw [List.forall_mem_cons] at hrest
    obtain ⟨hnum, hleft, hright⟩ := max2_spec hfirst hrest.1
    obtain ⟨hhead, htail⟩ := ih hnum hrest.2
    rw [List.foldl_cons, List.forall_mem_cons]
    exact ⟨JsNumber.le_trans hleft hhead, JsNumber.le_trans hright hhead, htail⟩

theorem admissionScanBounds_spec (hnumbers : ∀ a ∈ span.candidates, a ≠ .nan) {a : JsNumber}
    (ha : a ∈ span.candidates) :
    ∃ bounds, admissionScanBounds span = some bounds ∧ ∀ b ∈ span.candidates,
      bounds.1.le b = true ∧ b.le bounds.2 = true := by
  unfold admissionScanBounds
  split
  · rename_i hnil
    rw [hnil] at ha
    cases ha
  · rename_i first rest hcons
    rw [hcons, List.forall_mem_cons] at hnumbers
    obtain ⟨hlow, hlows⟩ := foldl_minNumber_le hnumbers.1 hnumbers.2
    obtain ⟨hhigh, hhighs⟩ := le_foldl_max2 hnumbers.1 hnumbers.2
    refine ⟨_, rfl, fun b hb => ?_⟩
    rcases List.mem_cons.1 (hcons ▸ hb) with rfl | hb
    · exact ⟨hlow, hhigh⟩
    · exact ⟨hlows b hb, hhighs b hb⟩

theorem messageIdInSpan_of_covers (h : Covers span id) : messageIdInSpan id span = true := by
  unfold messageIdInSpan
  split
  · rfl
  · split
    · rfl
    · rename_i hlisted
      obtain ⟨-, low, high, hlow, hhigh, hle, hge⟩ := h.resolve_left hlisted
      simp [hlow, hhigh, JsNumber.lt, hle, hge]

theorem sessionWide_eq_false_of_covers
    (hwide : span.sessionWide = true → span.candidates = []) (h : Covers span id) :
    span.sessionWide = false := by
  by_contra hfalse
  have hnil := hwide (by simpa using hfalse)
  simp only [AffectedSpan.candidates, List.append_eq_nil_iff] at hnil
  rcases h with hlisted | ⟨-, low, _, hlow, -⟩
  · rw [hnil.1.1] at hlisted
    cases hlisted
  · have hnone := hnil.1.2
    rw [hlow] at hnone
    cases hnone

/-- The numbers of a span are positive integers, and a session-wide span has none. -/
structure AffectedSpan.WellFormed (span : AffectedSpan) : Prop where
  numbers : ∀ a ∈ span.candidates, isPositiveInteger a = true
  wide    : span.sessionWide = true → span.candidates = []

theorem ne_nan_of_isPositiveInteger {a : JsNumber} (h : isPositiveInteger a = true) :
    a ≠ .nan := by
  rintro rfl
  exact absurd h (by decide)

/-- The scan reads every entry that the span covers. -/
theorem scanned_of_covers (hspan : span.WellFormed)
    (hentry : entry ∈ reader.transcript span.logicalSessionId) (h : Covers span entry.id) :
    entry ∈ scannedEntries reader span := by
  have hnumbers : ∀ a ∈ span.candidates, a ≠ .nan :=
    fun a ha => ne_nan_of_isPositiveInteger (hspan.numbers a ha)
  have hbounds : ∃ bounds, admissionScanBounds span = some bounds ∧
      bounds.1.le entry.id = true ∧ entry.id.le bounds.2 = true := by
    rcases h with hlisted | ⟨-, low, high, hlow, hhigh, hle, hge⟩
    · have hmem : entry.id ∈ span.candidates :=
        List.mem_append_left _ (List.mem_append_left _ hlisted)
      obtain ⟨bounds, hbounds, hall⟩ := admissionScanBounds_spec hnumbers hmem
      exact ⟨bounds, hbounds, hall _ hmem⟩
    · have hmemLow : low ∈ span.candidates := by simp [AffectedSpan.candidates, hlow]
      have hmemHigh : high ∈ span.candidates := by simp [AffectedSpan.candidates, hhigh]
      obtain ⟨bounds, hbounds, hall⟩ := admissionScanBounds_spec hnumbers hmemLow
      exact ⟨bounds, hbounds, JsNumber.le_trans (hall low hmemLow).1 hle,
        JsNumber.le_trans hge (hall high hmemHigh).2⟩
  obtain ⟨bounds, hbounds, hlow, hhigh⟩ := hbounds
  rw [scannedEntries, sessionWide_eq_false_of_covers hspan.wide h, hbounds]
  exact List.mem_filter.2 ⟨mem_getEntriesInRange.2 ⟨hentry, hlow, hhigh⟩,
    messageIdInSpan_of_covers h⟩

/-- The scan reads affected entries only. -/
theorem affected_of_scanned (h : entry ∈ scannedEntries reader span) :
    entry ∈ reader.transcript span.logicalSessionId ∧ span.sessionWide = false ∧
      messageIdInSpan entry.id span = true := by
  unfold scannedEntries at h
  split at h
  · cases h
  · rename_i hwide
    split at h
    · cases h
    · obtain ⟨hrange, hin⟩ := List.mem_filter.1 h
      exact ⟨(mem_getEntriesInRange.1 hrange).1, by simpa using hwide, hin⟩

/-! ## The spans of an event -/

theorem mem_toPositiveInteger {value : Option JsNumber} {a : JsNumber}
    (h : a ∈ (toPositiveInteger value).toList) : isPositiveInteger a = true := by
  rw [Option.mem_toList, toPositiveInteger] at h
  exact (Option.filter_eq_some_iff.1 h).2

theorem wellFormed_normalizeRange (range : CogSecAffectedMessageRange) (session channel : String) :
    (normalizeRange range session channel).WellFormed := by
  constructor
  · intro a ha
    simp only [AffectedSpan.candidates, List.mem_append] at ha
    rcases ha with (hlisted | hstart) | hend
    · rw [normalizeRange, List.mem_eraseDups, List.mem_filter] at hlisted
      exact hlisted.2
    · exact mem_toPositiveInteger hstart
    · exact mem_toPositiveInteger hend
  · intro hwide
    simp only [normalizeRange, Bool.and_eq_true, List.isEmpty_iff, Option.isNone_iff_eq_none]
      at hwide
    obtain ⟨⟨hids, hstart⟩, hend⟩ := hwide
    simp [AffectedSpan.candidates, normalizeRange, hids, hstart, hend]

theorem wellFormed_buildAffectedSpans {event : CogSecLineageSource}
    (h : span ∈ buildAffectedSpans event) : span.WellFormed := by
  unfold buildAffectedSpans at h
  split at h
  · obtain ⟨range, -, rfl⟩ := List.mem_map.1 h
    exact wellFormed_normalizeRange range _ _
  · obtain ⟨sessionId, -, rfl⟩ := List.mem_map.1 h
    exact ⟨nofun, fun _ => rfl⟩

end Spans

/-! ## Complete previews -/

section Complete

variable {localeCompare : String → String → Int} {input : BuildCogSecLineagePreviewInput}
  {reader : CogSecLineageSessionReader}

def previewSpans (input : BuildCogSecLineagePreviewInput) : List AffectedSpan :=
  buildAffectedSpans (previewSource input.event)

/-- The entry of a session is listed, projected and scanned. -/
structure Selected (localeCompare : String → String → Int)
    (input : BuildCogSecLineagePreviewInput) (reader : CogSecLineageSessionReader)
    (sessionId : String) (entry : SessionEntry) : Prop where
  listed    : ∃ ref ∈ (buildCogSecLineagePreview localeCompare input).l0Messages,
    ref.logicalSessionId = sessionId ∧ ref.messageId = entry.id
  projected : ∃ row ∈ (buildCogSecLineagePreview localeCompare input).transcriptProjectionRows,
    row.channelId = sessionId ∧ row.messageId = entry.id
  scanned   : ∃ span ∈ previewSpans input, span.logicalSessionId = sessionId ∧
    entry ∈ scannedEntries reader span

/-- The entry's id is in a span that affects some messages of the session. -/
def AffectedIn (spans : List AffectedSpan) (sessionId : String) (id : JsNumber) : Prop :=
  ∃ span ∈ spans, span.sessionWide = false ∧ span.logicalSessionId = sessionId ∧
    messageIdInSpan id span = true

theorem mem_l0Messages {sessionId : String} {entry : SessionEntry}
    (hreader : input.sessionReader = some reader)
    (hentry : entry ∈ reader.transcript sessionId) :
    (∃ ref ∈ (buildCogSecLineagePreview localeCompare input).l0Messages,
        ref.logicalSessionId = sessionId ∧ ref.messageId = entry.id) ↔
      CoveredIn (previewSpans input) sessionId entry.id := by
  have hkey : ∀ ref : CogSecLineageL0Ref,
      (ref.logicalSessionId = sessionId ∧ ref.messageId = entry.id) ↔
        ref.key = (sessionId, entry.id) := fun ref => (Prod.mk.injEq ..).symm ▸ Iff.rfl
  simp only [hkey]
  rw [← mem_l0Refs hentry, ← mem_values_l0Refs, ← hreader]
  refine exists_congr fun ref => and_congr_left fun _ => ?_
  exact List.mem_mergeSort

/-- An entry of the transcript is selected exactly when some span of its session covers it. -/
theorem selected_iff {sessionId : String} {entry : SessionEntry}
    (hreader : input.sessionReader = some reader)
    (hentry : entry ∈ reader.transcript sessionId) :
    Selected localeCompare input reader sessionId entry ↔
      CoveredIn (previewSpans input) sessionId entry.id := by
  constructor
  · intro h
    exact (mem_l0Messages hreader hentry).1 h.listed
  · intro h
    obtain ⟨ref, href, hsession, hid⟩ : ∃ ref ∈ (buildCogSecLineagePreview localeCompare
        input).l0Messages, ref.logicalSessionId = sessionId ∧ ref.messageId = entry.id :=
      (mem_l0Messages hreader hentry).2 h
    refine ⟨⟨ref, href, hsession, hid⟩,
      ⟨{ channelId := ref.logicalSessionId, messageId := ref.messageId },
        List.mem_map.2 ⟨ref, href, rfl⟩, hsession, hid⟩, ?_⟩
    obtain ⟨span, hspan, rfl, hcovers⟩ := h
    exact ⟨span, hspan, rfl,
      scanned_of_covers (wellFormed_buildAffectedSpans hspan) hentry hcovers⟩

/-- **The preview selects every affected entry of the transcripts exactly when each of them is in a
span that lists its id, or that lists none and has both bounds.** -/
theorem selection_complete_iff (localeCompare : String → String → Int)
    (input : BuildCogSecLineagePreviewInput) (reader : CogSecLineageSessionReader) :
    (∀ sessionId, ∀ entry ∈ reader.transcript sessionId,
        AffectedIn (previewSpans input) sessionId entry.id →
          Selected localeCompare { input with sessionReader := some reader } reader sessionId
            entry) ↔
      ∀ sessionId, ∀ entry ∈ reader.transcript sessionId,
        AffectedIn (previewSpans input) sessionId entry.id →
          CoveredIn (previewSpans input) sessionId entry.id := by
  refine forall_congr' fun sessionId => forall_congr' fun entry => ?_
  exact forall_congr' fun hentry => imp_congr_right fun _ => selected_iff rfl hentry

/-- `openRangeValue`, accepted. -/
def openRange : CogSecAffectedMessageRange :=
  { logicalSessionId := some "s", startEntryId := some (.finite 10) }

/-- A case that affects session `s` from entry 10 on. -/
def openRangeInput : BuildCogSecLineagePreviewInput where
  caseId := "case"
  event :=
    { sourceChannelId := "c"
      affectedLogicalSessionIds := []
      affectedMessageRanges := [openRange] }

/-- One transcript of a single entry, 15. -/
def singleEntryReader : CogSecLineageSessionReader where
  transcript sessionId := if sessionId = "s" then [⟨.finite 15, none⟩] else []
  getCompactionSummaries _ := []
  parseIntakeScreeningMetadata _ := .ok none

/-- The entry is in the accepted range, and the preview neither lists nor scans it. -/
theorem open_range_unselected :
    parseMessageRange openRangeValue "range" = .ok openRange ∧
      AffectedIn (previewSpans openRangeInput) "s" (.finite 15) ∧
      ∀ localeCompare, ¬ Selected localeCompare
        { openRangeInput with sessionReader := some singleEntryReader } singleEntryReader "s"
          ⟨.finite 15, none⟩ := by
  have hspans : previewSpans openRangeInput =
      [⟨some "c", "s", [], some (.finite 10), none, false⟩] := by decide +kernel
  refine ⟨rfl, ?_, fun localeCompare hselected => ?_⟩
  · rw [hspans]
    exact ⟨_, List.mem_singleton.2 rfl, rfl, rfl, by decide⟩
  · obtain ⟨span, hspan, -, hscanned⟩ := hselected.scanned
    have hmem : span ∈ previewSpans openRangeInput := hspan
    rw [hspans, List.mem_singleton] at hmem
    subst hmem
    have hnone : scannedEntries singleEntryReader
        ⟨some "c", "s", [], some (.finite 10), none, false⟩ = [] := rfl
    rw [hnone] at hscanned
    cases hscanned

end Complete

end Psfn.Lineage
