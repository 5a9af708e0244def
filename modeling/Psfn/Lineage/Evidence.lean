import Psfn.Intake.Envelope
import Psfn.Lineage.Match

/-!
# CogSec lineage — several pieces of evidence

A memory or an artifact is classified by its admission records, its provenance and its references,
in this order and against every span; the first answer is the result. Every piece of evidence that
is tainted on its own ought to make the result tainted, in whatever order the evidence stands.

* `matchEvidence_tainted` — what makes the result tainted in every order;
* `strongest_evidence_iff` — it is so exactly when nothing that is only `uncertain` can stand before
  evidence that is tainted.
-/

namespace Psfn.Lineage

open Psfn.Lib

/-! ## Admission identity -/

structure CogSecStructuredProvenanceRef where
  kind          : String
  refId         : String
  receiptId     : Option String := none
  contentSha256 : Option String := none
  envelopeId    : Option String := none
deriving DecidableEq

def hasVerifiedAdmissionIdentity (ref : CogSecStructuredProvenanceRef) : Bool :=
  ref.receiptId.isSome || ref.contentSha256.isSome || ref.envelopeId.isSome

/-- Three sets, as lists. -/
structure CogSecAffectedAdmissionIdentity where
  envelopeIds   : List String := []
  receiptIds    : List String := []
  contentHashes : List String := []

/-- One round of the loop of `structuredRefMatchesAdmission`. -/
def structuredRefMatch (identity : CogSecAffectedAdmissionIdentity)
    (ref : CogSecStructuredProvenanceRef) : Option MatchResult :=
  if !hasVerifiedAdmissionIdentity ref then none
  else if ref.receiptId.any (· ∈ identity.receiptIds) then
    some ⟨.tainted, "admission_receipt_matches_affected_source"⟩
  else if ref.contentSha256.any (· ∈ identity.contentHashes) then
    some ⟨.tainted, "admission_content_hash_matches_affected_source"⟩
  else if ref.envelopeId.any (· ∈ identity.envelopeIds) then
    some ⟨.tainted, "admission_envelope_matches_affected_source"⟩
  else none

def structuredRefMatchesAdmission (refs : List CogSecStructuredProvenanceRef)
    (identity : CogSecAffectedAdmissionIdentity) : Option MatchResult :=
  refs.findSome? (structuredRefMatch identity)

/-- `INTAKE_ENVELOPE_PROVENANCE_REF_PREFIX`. -/
def intakeEnvelopeProvenanceRefPrefix : String := "intake-envelope:"

def parseIntakeEnvelopeIdFromProvenanceRef (ref : String) : Option String :=
  if intakeEnvelopeProvenanceRefPrefix.toList.isPrefixOf ref.toList then
    let candidate := ref.toList.drop intakeEnvelopeProvenanceRefPrefix.toList.length
    if Intake.isIntakeEnvelopeId candidate then some (String.ofList candidate) else none
  else none

/-- One round of the loop of `envelopeRefStringMatchesAdmission`. -/
def envelopeRefStringMatch (identity : CogSecAffectedAdmissionIdentity) (ref : String) :
    Option MatchResult :=
  if (parseIntakeEnvelopeIdFromProvenanceRef (JsString.trim ref)).any (· ∈ identity.envelopeIds) then
    some ⟨.uncertain, "intake_envelope_ref_string_match_without_verified_identity"⟩
  else none

def envelopeRefStringMatchesAdmission (refs : List String)
    (identity : CogSecAffectedAdmissionIdentity) : Option MatchResult :=
  if identity.envelopeIds.isEmpty then none else refs.findSome? (envelopeRefStringMatch identity)

/-! ## The evidence of a memory and of an artifact -/

/-- What both matchers look at: the admission records, the provenance, and the references, of which
the source reference comes first. -/
structure Evidence where
  admissions : List CogSecStructuredProvenanceRef
  provenance : Option MemoryProvenance
  sourceRef  : Option String
  otherRefs  : List String

/-- `ref.trim().length > 0`. -/
def isText (ref : String) : Bool := JsString.trim ref ≠ ""

def Evidence.refs (e : Evidence) : List String :=
  (e.sourceRef.toList ++ e.otherRefs).filter isText

/-- The first match is the result. -/
def matchEvidence (e : Evidence) (spans : List AffectedSpan)
    (admissionIdentity : CogSecAffectedAdmissionIdentity) : Option MatchResult :=
  (structuredRefMatchesAdmission e.admissions admissionIdentity).or
    ((provenanceMatchesSpans e.provenance spans).or
      ((e.refs.findSome? fun ref => refMatchesSpans ref spans).or
        (envelopeRefStringMatchesAdmission e.refs admissionIdentity)))

/-- A memory's provenance, with the admission records of its sources. -/
structure SourcedProvenance extends MemoryProvenance where
  sourceAdmissions : Option (List CogSecStructuredProvenanceRef) := none

structure PurrMemory where
  sourceRef      : String
  provenanceRefs : Option (List String)
  provenance     : Option SourcedProvenance

/-- `provenance?.sourceAdmissions ?? []`. -/
def sourceAdmissionsOf (provenance : Option SourcedProvenance) :
    List CogSecStructuredProvenanceRef :=
  (provenance.bind SourcedProvenance.sourceAdmissions).getD []

def PurrMemory.evidence (memory : PurrMemory) : Evidence where
  admissions := sourceAdmissionsOf memory.provenance
  provenance := memory.provenance.map SourcedProvenance.toMemoryProvenance
  sourceRef := some memory.sourceRef
  otherRefs := memory.provenanceRefs.getD []

def memoryMatchesSpans (memory : PurrMemory) (spans : List AffectedSpan)
    (admissionIdentity : CogSecAffectedAdmissionIdentity) : Option MatchResult :=
  matchEvidence memory.evidence spans admissionIdentity

/-- `string | CogSecStructuredProvenanceRef`. -/
inductive ArtifactRef where
  | text (ref : String)
  | structured (ref : CogSecStructuredProvenanceRef)

def ArtifactRef.structured? : ArtifactRef → Option CogSecStructuredProvenanceRef
  | text _ => none
  | structured ref => some ref

/-- Every branch on the kind of a structured reference gives the same text. -/
def normalizeProvenanceRef : ArtifactRef → Option String
  | .text ref =>
    let trimmed := JsString.trim ref
    if trimmed = "" then none else some trimmed
  | .structured ref =>
    let kind := JsString.trim ref.kind
    let refId := JsString.trim ref.refId
    if kind = "" ∨ refId = "" then none else some s!"{kind}:{refId}"

structure CogSecExternalLineageArtifact where
  sourceRef      : Option String
  provenanceRefs : Option (List ArtifactRef)
  provenance     : Option SourcedProvenance

def CogSecExternalLineageArtifact.evidence (artifact : CogSecExternalLineageArtifact) : Evidence where
  admissions := (artifact.provenanceRefs.getD []).filterMap ArtifactRef.structured?
    ++ sourceAdmissionsOf artifact.provenance
  provenance := artifact.provenance.map SourcedProvenance.toMemoryProvenance
  sourceRef := artifact.sourceRef
  otherRefs := (artifact.provenanceRefs.getD []).filterMap normalizeProvenanceRef

def artifactMatchesSpans (artifact : CogSecExternalLineageArtifact) (spans : List AffectedSpan)
    (admissionIdentity : CogSecAffectedAdmissionIdentity) : Option MatchResult :=
  matchEvidence artifact.evidence spans admissionIdentity

/-! ## Answers -/

def classificationOf (result : Option MatchResult) : Option CogSecLineageClassification :=
  result.map MatchResult.classification

def IsUncertain (result : Option MatchResult) : Prop := classificationOf result = some .uncertain

theorem not_isTainted_none : ¬ IsTainted none := nofun

theorem isTainted_or_isUncertain (result : MatchResult) :
    IsTainted (some result) ∨ IsUncertain (some result) := by
  obtain ⟨classification, reason⟩ := result
  cases classification
  · exact .inl rfl
  · exact .inr rfl

theorem IsUncertain.not_tainted {result : Option MatchResult} (h : IsUncertain result) :
    ¬ IsTainted result := by
  intro htainted
  rw [IsTainted, ← classificationOf, h] at htainted
  cases htainted

theorem eq_none_of_not {result : Option MatchResult} (ht : ¬ IsTainted result)
    (hu : ¬ IsUncertain result) : result = none := by
  cases result with
  | none => rfl
  | some r => exact absurd (isTainted_or_isUncertain r) (not_or.2 ⟨ht, hu⟩)

/-- Two answers with the same meaning have one classification. -/
theorem classificationOf_eq {a b : Option MatchResult} (ht : IsTainted a ↔ IsTainted b)
    (hu : IsUncertain a ↔ IsUncertain b) : classificationOf a = classificationOf b := by
  cases a with
  | none =>
    cases b with
    | none => rfl
    | some r =>
      rcases isTainted_or_isUncertain r with h | h
      · exact absurd (ht.2 h) nofun
      · exact absurd (hu.2 h) nofun
  | some r =>
    rcases isTainted_or_isUncertain r with h | h
    · exact h.trans (ht.1 h).symm
    · exact h.trans (hu.1 h).symm

section First

variable {α : Type} {f : α → Option MatchResult} {l : List α}

theorem isTainted_findSome (hno : ∀ a ∈ l, ¬ IsUncertain (f a)) (h : ∃ a ∈ l, IsTainted (f a)) :
    IsTainted (l.findSome? f) := by
  induction l with
  | nil =>
    obtain ⟨a, ha, -⟩ := h
    cases ha
  | cons a rest ih =>
    rw [List.findSome?_cons]
    by_cases ha : IsTainted (f a)
    · cases hf : f a with
      | none => rw [hf] at ha; exact absurd ha not_isTainted_none
      | some r => rwa [hf] at ha
    · rw [eq_none_of_not ha (hno a List.mem_cons_self)]
      refine ih (fun b hb => hno b (List.mem_cons_of_mem a hb)) ?_
      obtain ⟨b, hb, htainted⟩ := h
      rcases List.mem_cons.1 hb with rfl | hb
      · exact absurd htainted ha
      · exact ⟨b, hb, htainted⟩

theorem isUncertain_findSome (hno : ∀ a ∈ l, ¬ IsTainted (f a)) :
    IsUncertain (l.findSome? f) ↔ ∃ a ∈ l, IsUncertain (f a) := by
  induction l with
  | nil => simp [IsUncertain, classificationOf]
  | cons a rest ih =>
    rw [List.forall_mem_cons] at hno
    rw [List.findSome?_cons, List.exists_mem_cons_iff]
    cases hf : f a with
    | none =>
      rw [ih hno.2]
      simp [IsUncertain, classificationOf]
    | some r =>
      have huncertain := (isTainted_or_isUncertain r).resolve_left (hf ▸ hno.1)
      exact iff_of_true huncertain (.inl huncertain)

theorem not_isTainted_findSome (hno : ∀ a ∈ l, ¬ IsTainted (f a)) :
    ¬ IsTainted (l.findSome? f) := by
  intro h
  cases hfound : l.findSome? f with
  | none => rw [hfound] at h; exact not_isTainted_none h
  | some r =>
    obtain ⟨a, ha, hfa⟩ := List.exists_of_findSome?_eq_some hfound
    exact hno a ha (by rw [hfa, ← hfound]; exact h)

end First

/-! ## Session matches without granularity -/

/-- The reference names the session of a span that affects some of its messages, and no message. -/
structure SessionOnly (p : ParsedRef) (span : AffectedSpan) : Prop where
  same     : SameSession p span
  granular : spanHasMessageGranularity span = true
  noIds    : p.messageIds = []
  noLines  : p.hasLineRangeRef = false

def ParsedRef.hasSessionRef (p : ParsedRef) : Bool :=
  p.sessionId.any (· ≠ "") || p.channelId.any (· ≠ "")

theorem refMatchesSpan_uncertain_iff (p : ParsedRef) (span : AffectedSpan) :
    IsUncertain (refMatchesSpan p span) ↔ p.hasSessionRef = true ∧ SessionOnly p span := by
  constructor
  · intro h
    have hno : ¬ (p.messageIds ≠ [] ∨ p.hasLineRangeRef = true) := by
      intro hp
      rw [refMatchesSpan_eq_none hp h.not_tainted] at h
      cases h
    rw [not_or, not_not, Bool.not_eq_true] at hno
    have hempty : (!p.messageIds.isEmpty) = false := by rw [hno.1]; rfl
    unfold refMatchesSpan at h
    simp only [hempty, hno.2, Bool.or_self, Bool.false_and, Bool.false_eq_true, if_false,
      Bool.not_false, Bool.and_true] at h
    split at h
    · cases h
    · rename_i hsame
      split at h
      · cases h
      · rename_i hgranular
        split at h
        · rename_i hsession
          have hsame' : SameSession p span := by
            show sessionMatches p.sessionId p.channelId span = true
            simpa using hsame
          exact ⟨hsession, hsame', by simpa using hgranular, hno.1, hno.2⟩
        · cases h
  · rintro ⟨hsession, hsame, hgranular, hids, hlines⟩
    have hsame' : sessionMatches p.sessionId p.channelId span = true := hsame
    rw [ParsedRef.hasSessionRef] at hsession
    simp only [refMatchesSpan, hsame', hgranular, hids, hlines, hsession]
    rfl

theorem refMatchesSpans_singleton (ref : String) (span : AffectedSpan) :
    refMatchesSpans ref [span] = refMatchesSpan (parseStructuredRef ref) span := by
  rw [refMatchesSpans, List.findSome?_cons]
  cases refMatchesSpan (parseStructuredRef ref) span <;> rfl

/-- One round of the provenance loop that does not stop: `uncertain` is pending after it exactly at
a session match without granularity, or if it was before. -/
theorem provenanceLoop_next (v : MemoryProvenance) (pending : Option MatchResult)
    (span : AffectedSpan) (rest : List AffectedSpan)
    (hno : ¬ (SameSession v.footprint span ∧ Hit v.footprint span)) :
    ∃ pending', provenanceLoop v pending (span :: rest) = provenanceLoop v pending' rest ∧
      (IsUncertain pending' ↔ IsUncertain pending ∨ SessionOnly v.footprint span) := by
  unfold SameSession Hit at hno
  rw [provenanceLoop]
  by_cases hs : sessionMatches v.sessionId v.channelId span = true
  · have hgranular : spanHasMessageGranularity span = true := by
      by_contra hfree
      exact hno ⟨hs, .inl (by simpa using hfree)⟩
    have hids : ¬ (v.sourceMessageIds.getD []).any (messageIdInSpan · span) = true :=
      fun hany => hno ⟨hs, .inr (.inl (List.any_eq_true.1 hany))⟩
    have hlines : ¬ (v.hasSourceSpan && rangesIntersect v.sourceSpanStartMessageId
        v.sourceSpanEndMessageId span.startEntryId span.endEntryId) = true :=
      fun hline => hno ⟨hs, .inr (.inr ((Bool.and_eq_true _ _).mp hline))⟩
    simp only [hs, hgranular, hids, hlines, Bool.not_true, Bool.false_eq_true, if_false]
    split
    · rename_i hnames
      refine ⟨pending, rfl, ?_⟩
      rw [or_iff_left]
      -- the record names messages of its own
      intro hsession
      have hempty : v.sourceMessageIds.getD [] = [] := hsession.noIds
      have hspan : v.hasSourceSpan = false := hsession.noLines
      rw [hempty, hspan] at hnames
      exact absurd hnames (by decide)
    · rename_i hnames
      rw [Bool.or_eq_true, not_or, Bool.not_eq_true, Bool.not_eq_true] at hnames
      refine ⟨_, rfl, iff_of_true rfl (.inr ⟨hs, hgranular, ?_, hnames.2⟩)⟩
      show v.sourceMessageIds.getD [] = []
      simpa using hnames.1
  · refine ⟨pending, by simp [hs], ?_⟩
    rw [or_iff_left]
    exact fun h => hs h.same

theorem provenanceLoop_uncertain_iff (v : MemoryProvenance) {spans : List AffectedSpan}
    {pending : Option MatchResult}
    (hno : ¬ ∃ span ∈ spans, SameSession v.footprint span ∧ Hit v.footprint span) :
    IsUncertain (provenanceLoop v pending spans) ↔
      IsUncertain pending ∨ ∃ span ∈ spans, SessionOnly v.footprint span := by
  induction spans generalizing pending with
  | nil => simp [provenanceLoop]
  | cons span rest ih =>
    rw [List.exists_mem_cons_iff, not_or] at hno
    obtain ⟨pending', hloop, hpending⟩ := provenanceLoop_next v pending span rest hno.1
    rw [hloop, ih hno.2, hpending, List.exists_mem_cons_iff, or_assoc]

/-! ## Evidence, item by item -/

section Items

variable (e : Evidence) (spans : List AffectedSpan) (identity : CogSecAffectedAdmissionIdentity)

def AdmissionTainted : Prop :=
  ∃ ref ∈ e.admissions, IsTainted (structuredRefMatchesAdmission [ref] identity)

def ProvenanceTainted : Prop :=
  ∃ span ∈ spans, IsTainted (provenanceMatchesSpans e.provenance [span])

def RefTainted (ref : String) : Prop := ∃ span ∈ spans, IsTainted (refMatchesSpans ref [span])

/-- Some piece of evidence is tainted on its own, against a single span. -/
def TaintedEvidence : Prop :=
  AdmissionTainted e identity ∨ ProvenanceTainted e spans ∨ ∃ ref ∈ e.refs, RefTainted spans ref

/-- The provenance names an affected session, and no message. -/
def ProvenanceSessionOnly : Prop :=
  ∃ v, e.provenance = some v ∧ ∃ span ∈ spans, SessionOnly v.footprint span

/-- The reference names an affected session, and no message. -/
def RefSessionOnly (ref : String) : Prop :=
  (parseStructuredRef ref).hasSessionRef = true ∧
    ∃ span ∈ spans, SessionOnly (parseStructuredRef ref) span

/-- Nothing that only names a session can stand before the tainted evidence. -/
def Settled : Prop :=
  AdmissionTainted e identity ∨ ProvenanceTainted e spans ∨
    ¬ ProvenanceSessionOnly e spans ∧
      ((∃ ref ∈ e.sourceRef.toList.filter isText, RefTainted spans ref ∧ ¬ RefSessionOnly spans ref) ∨
        ∀ ref ∈ e.refs, ¬ RefSessionOnly spans ref)

variable {e : Evidence} {spans : List AffectedSpan} {identity : CogSecAffectedAdmissionIdentity}

theorem structuredRefMatch_tainted {ref : CogSecStructuredProvenanceRef} {r : MatchResult}
    (h : structuredRefMatch identity ref = some r) : IsTainted (some r) := by
  unfold structuredRefMatch at h
  split at h
  · cases h
  · split at h
    · cases h; rfl
    · split at h
      · cases h; rfl
      · split at h
        · cases h; rfl
        · cases h

theorem structuredRefMatch_not_uncertain (ref : CogSecStructuredProvenanceRef) :
    ¬ IsUncertain (structuredRefMatch identity ref) := by
  intro h
  cases hmatch : structuredRefMatch identity ref with
  | none => rw [hmatch] at h; cases h
  | some r =>
    rw [hmatch] at h
    exact h.not_tainted (structuredRefMatch_tainted hmatch)

theorem structuredRefMatchesAdmission_singleton (ref : CogSecStructuredProvenanceRef) :
    structuredRefMatchesAdmission [ref] identity = structuredRefMatch identity ref := by
  rw [structuredRefMatchesAdmission, List.findSome?_cons]
  cases structuredRefMatch identity ref <;> rfl

theorem isTainted_admissions (h : AdmissionTainted e identity) :
    IsTainted (structuredRefMatchesAdmission e.admissions identity) := by
  obtain ⟨ref, href, htainted⟩ := h
  rw [structuredRefMatchesAdmission_singleton] at htainted
  exact isTainted_findSome (fun ref _ => structuredRefMatch_not_uncertain ref) ⟨ref, href, htainted⟩

theorem admissions_eq_none (h : ¬ AdmissionTainted e identity) :
    structuredRefMatchesAdmission e.admissions identity = none := by
  rw [structuredRefMatchesAdmission, List.findSome?_eq_none_iff]
  intro ref href
  refine eq_none_of_not (fun htainted => h ⟨ref, href, ?_⟩) (structuredRefMatch_not_uncertain ref)
  rwa [structuredRefMatchesAdmission_singleton]

theorem provenanceTainted_iff :
    ProvenanceTainted e spans ↔ IsTainted (provenanceMatchesSpans e.provenance spans) := by
  unfold ProvenanceTainted
  cases e.provenance with
  | none => simp [provenanceMatchesSpans, IsTainted]
  | some v =>
    rw [provenanceMatchesSpans_tainted_iff]
    refine exists_congr fun span => and_congr_right fun _ => ?_
    rw [provenanceMatchesSpans_tainted_iff]
    simp

theorem provenance_uncertain_iff (h : ¬ ProvenanceTainted e spans) :
    IsUncertain (provenanceMatchesSpans e.provenance spans) ↔ ProvenanceSessionOnly e spans := by
  rw [provenanceTainted_iff] at h
  unfold ProvenanceSessionOnly
  cases hprovenance : e.provenance with
  | none => simp [provenanceMatchesSpans, IsUncertain, classificationOf]
  | some v =>
    rw [hprovenance, provenanceMatchesSpans_tainted_iff] at h
    have hloop := @provenanceLoop_uncertain_iff v _ none h
    have hnone : ¬ IsUncertain none := nofun
    rw [or_iff_right hnone] at hloop
    simpa [provenanceMatchesSpans] using hloop

theorem refTainted_iff (ref : String) :
    RefTainted spans ref ↔
      ∃ span ∈ spans, IsTainted (refMatchesSpan (parseStructuredRef ref) span) := by
  unfold RefTainted
  simp only [refMatchesSpans_singleton]

theorem refSessionOnly_iff (ref : String) :
    RefSessionOnly spans ref ↔
      ∃ span ∈ spans, IsUncertain (refMatchesSpan (parseStructuredRef ref) span) := by
  simp only [RefSessionOnly, refMatchesSpan_uncertain_iff]
  constructor
  · rintro ⟨hsession, span, hspan, honly⟩
    exact ⟨span, hspan, hsession, honly⟩
  · rintro ⟨span, hspan, hsession, honly⟩
    exact ⟨hsession, span, hspan, honly⟩

theorem isTainted_ref {ref : String} (h : RefTainted spans ref) (hno : ¬ RefSessionOnly spans ref) :
    IsTainted (refMatchesSpans ref spans) := by
  rw [refSessionOnly_iff] at hno
  push Not at hno
  exact isTainted_findSome hno ((refTainted_iff ref).1 h)

theorem not_isTainted_ref {ref : String} (h : ¬ RefTainted spans ref) :
    ¬ IsTainted (refMatchesSpans ref spans) := by
  rw [refTainted_iff] at h
  push Not at h
  exact not_isTainted_findSome h

theorem ref_uncertain_iff {ref : String} (h : ¬ RefTainted spans ref) :
    IsUncertain (refMatchesSpans ref spans) ↔ RefSessionOnly spans ref := by
  rw [refSessionOnly_iff]
  rw [refTainted_iff] at h
  push Not at h
  exact isUncertain_findSome h

theorem ref_not_uncertain {ref : String} (h : ¬ RefSessionOnly spans ref) :
    ¬ IsUncertain (refMatchesSpans ref spans) := by
  intro huncertain
  by_cases htainted : RefTainted spans ref
  · exact huncertain.not_tainted (isTainted_ref htainted h)
  · exact h ((ref_uncertain_iff htainted).1 huncertain)

/-! ## All the evidence together -/

theorem isTainted_or_left {a b : Option MatchResult} (h : IsTainted a) : IsTainted (a.or b) := by
  cases a with
  | none => exact absurd h not_isTainted_none
  | some r => exact h

theorem isUncertain_or {a b : Option MatchResult} (h : ¬ IsTainted a) :
    IsUncertain (a.or b) ↔ IsUncertain a ∨ IsUncertain b := by
  cases a with
  | none => exact ⟨.inr, fun h => h.resolve_left nofun⟩
  | some r =>
    have huncertain := (isTainted_or_isUncertain r).resolve_left h
    exact iff_of_true huncertain (.inl huncertain)

theorem not_isTainted_or {a b : Option MatchResult} (ha : ¬ IsTainted a) (hb : ¬ IsTainted b) :
    ¬ IsTainted (a.or b) := by
  cases a with
  | none => exact hb
  | some r => exact ha

theorem envelopeRefStringMatch_not_tainted (ref : String) :
    ¬ IsTainted (envelopeRefStringMatch identity ref) := by
  unfold envelopeRefStringMatch
  split
  · nofun
  · nofun

theorem envelopeRefString_not_tainted (refs : List String) :
    ¬ IsTainted (envelopeRefStringMatchesAdmission refs identity) := by
  unfold envelopeRefStringMatchesAdmission
  split
  · exact not_isTainted_none
  · exact not_isTainted_findSome fun ref _ => envelopeRefStringMatch_not_tainted ref

theorem envelopeRefString_uncertain_iff (refs : List String) :
    IsUncertain (envelopeRefStringMatchesAdmission refs identity) ↔
      ∃ ref ∈ refs, IsUncertain (envelopeRefStringMatch identity ref) := by
  unfold envelopeRefStringMatchesAdmission
  split
  · rename_i hempty
    have hnil : identity.envelopeIds = [] := by simpa using hempty
    refine iff_of_false nofun ?_
    rintro ⟨ref, -, huncertain⟩
    rw [envelopeRefStringMatch, if_neg (by simp [hnil])] at huncertain
    cases huncertain
  · exact isUncertain_findSome fun ref _ => envelopeRefStringMatch_not_tainted ref

theorem matchEvidence_eq (h : ¬ AdmissionTainted e identity) :
    matchEvidence e spans identity = (provenanceMatchesSpans e.provenance spans).or
      ((e.refs.findSome? fun ref => refMatchesSpans ref spans).or
        (envelopeRefStringMatchesAdmission e.refs identity)) := by
  rw [matchEvidence, admissions_eq_none h]
  rfl

theorem provenance_eq_none (htainted : ¬ ProvenanceTainted e spans)
    (hsession : ¬ ProvenanceSessionOnly e spans) : provenanceMatchesSpans e.provenance spans = none :=
  eq_none_of_not (mt provenanceTainted_iff.2 htainted)
    (mt (provenance_uncertain_iff htainted).1 hsession)

theorem refs_eq_append : e.refs = e.sourceRef.toList.filter isText ++ e.otherRefs.filter isText :=
  List.filter_append ..

/-- **Tainted evidence that nothing uncertain can stand before makes the result tainted.** -/
theorem matchEvidence_tainted (hsettled : Settled e spans identity)
    (h : TaintedEvidence e spans identity) : IsTainted (matchEvidence e spans identity) := by
  by_cases hadmission : AdmissionTainted e identity
  · exact isTainted_or_left (isTainted_admissions hadmission)
  rw [matchEvidence_eq hadmission]
  by_cases hprovenance : ProvenanceTainted e spans
  · exact isTainted_or_left (provenanceTainted_iff.1 hprovenance)
  obtain ⟨hsession, hrefs⟩ := (hsettled.resolve_left hadmission).resolve_left hprovenance
  obtain ⟨ref, href, htainted⟩ := (h.resolve_left hadmission).resolve_left hprovenance
  rw [provenance_eq_none hprovenance hsession, Option.none_or]
  refine isTainted_or_left ?_
  rcases hrefs with ⟨source, hsource, hsourceTainted, hsourceOnly⟩ | hnone
  · -- the source reference is the only one of its list
    have hlist : e.sourceRef.toList.filter isText = [source] := by
      cases hs : e.sourceRef with
      | none => rw [hs] at hsource; cases hsource
      | some text =>
        rw [hs] at hsource
        obtain ⟨hmem, htext⟩ := List.mem_filter.1 hsource
        obtain rfl := List.mem_singleton.1 hmem
        simp [htext]
    have hmatch := isTainted_ref hsourceTainted hsourceOnly
    rw [refs_eq_append, hlist, List.singleton_append, List.findSome?_cons]
    cases hresult : refMatchesSpans source spans with
    | none => rw [hresult] at hmatch; exact absurd hmatch not_isTainted_none
    | some r => rwa [hresult] at hmatch
  · exact isTainted_findSome (fun ref href => ref_not_uncertain (hnone ref href))
      ⟨ref, href, isTainted_ref htainted (hnone ref href)⟩

/-- Some evidence matches, none of it tainted. -/
def UncertainEvidence (e : Evidence) (spans : List AffectedSpan)
    (identity : CogSecAffectedAdmissionIdentity) : Prop :=
  ProvenanceSessionOnly e spans ∨ (∃ ref ∈ e.refs, RefSessionOnly spans ref) ∨
    ∃ ref ∈ e.refs, IsUncertain (envelopeRefStringMatch identity ref)

/-- Without tainted evidence the result is not tainted, and uncertain if any evidence is. -/
theorem matchEvidence_uncertain_iff (h : ¬ TaintedEvidence e spans identity) :
    ¬ IsTainted (matchEvidence e spans identity) ∧
      (IsUncertain (matchEvidence e spans identity) ↔ UncertainEvidence e spans identity) := by
  simp only [TaintedEvidence, not_or] at h
  obtain ⟨hadmission, hprovenance, hrefs⟩ := h
  push Not at hrefs
  have hprovenance' := mt provenanceTainted_iff.2 hprovenance
  have hrefs' : ∀ ref ∈ e.refs, ¬ IsTainted (refMatchesSpans ref spans) :=
    fun ref href => not_isTainted_ref (hrefs ref href)
  rw [matchEvidence_eq hadmission]
  refine ⟨not_isTainted_or hprovenance' (not_isTainted_or (not_isTainted_findSome hrefs')
    (envelopeRefString_not_tainted _)), ?_⟩
  rw [isUncertain_or hprovenance', provenance_uncertain_iff hprovenance,
    isUncertain_or (not_isTainted_findSome hrefs'), isUncertain_findSome hrefs',
    envelopeRefString_uncertain_iff, UncertainEvidence]
  refine or_congr_right (or_congr_left (exists_congr fun ref => and_congr_right fun href => ?_))
  exact ref_uncertain_iff (hrefs ref href)

end Items

/-! ## The order of evidence -/

/-- The same evidence in another order; the source reference has its own place. -/
structure Evidence.Reordered (e e' : Evidence) : Prop where
  admissions : e.admissions.Perm e'.admissions
  provenance : e'.provenance = e.provenance
  sourceRef  : e'.sourceRef = e.sourceRef
  otherRefs  : e.otherRefs.Perm e'.otherRefs

section Order

variable {e e' : Evidence} {spans spans' : List AffectedSpan}
  {identity : CogSecAffectedAdmissionIdentity}

theorem Evidence.Reordered.mem_refs (h : e.Reordered e') {ref : String} :
    ref ∈ e'.refs ↔ ref ∈ e.refs := by
  rw [Evidence.refs, Evidence.refs, List.mem_filter, List.mem_filter, List.mem_append,
    List.mem_append, h.sourceRef, h.otherRefs.mem_iff]

theorem exists_mem_perm {α : Type} {P : α → Prop} {l l' : List α} (h : l.Perm l') :
    (∃ a ∈ l', P a) ↔ ∃ a ∈ l, P a :=
  exists_congr fun _ => and_congr_left fun _ => h.mem_iff.symm

theorem refTainted_perm (h : spans.Perm spans') (ref : String) :
    RefTainted spans' ref ↔ RefTainted spans ref := exists_mem_perm h

theorem refSessionOnly_perm (h : spans.Perm spans') (ref : String) :
    RefSessionOnly spans' ref ↔ RefSessionOnly spans ref :=
  and_congr_right fun _ => exists_mem_perm h

theorem provenanceTainted_perm (he : e.Reordered e') (h : spans.Perm spans') :
    ProvenanceTainted e' spans' ↔ ProvenanceTainted e spans := by
  rw [ProvenanceTainted, he.provenance]
  exact exists_mem_perm h

theorem provenanceSessionOnly_perm (he : e.Reordered e') (h : spans.Perm spans') :
    ProvenanceSessionOnly e' spans' ↔ ProvenanceSessionOnly e spans := by
  rw [ProvenanceSessionOnly, he.provenance]
  exact exists_congr fun v => and_congr_right fun _ => exists_mem_perm h

theorem admissionTainted_perm (he : e.Reordered e') :
    AdmissionTainted e' identity ↔ AdmissionTainted e identity := exists_mem_perm he.admissions

theorem taintedEvidence_perm (he : e.Reordered e') (h : spans.Perm spans') :
    TaintedEvidence e' spans' identity ↔ TaintedEvidence e spans identity := by
  simp only [TaintedEvidence, admissionTainted_perm he, provenanceTainted_perm he h, he.mem_refs,
    refTainted_perm h]

theorem settled_perm (he : e.Reordered e') (h : spans.Perm spans') :
    Settled e' spans' identity ↔ Settled e spans identity := by
  simp only [Settled, admissionTainted_perm he, provenanceTainted_perm he h,
    provenanceSessionOnly_perm he h, he.sourceRef, he.mem_refs, refTainted_perm h,
    refSessionOnly_perm h]

theorem uncertainEvidence_perm (he : e.Reordered e') (h : spans.Perm spans') :
    UncertainEvidence e' spans' identity ↔ UncertainEvidence e spans identity := by
  simp only [UncertainEvidence, provenanceSessionOnly_perm he h, he.mem_refs, refSessionOnly_perm h]

/-- Where nothing uncertain can stand before tainted evidence, the order does not matter. -/
theorem classification_reordered (hsettled : TaintedEvidence e spans identity →
      Settled e spans identity) (he : e.Reordered e') (h : spans.Perm spans') :
    classificationOf (matchEvidence e' spans' identity) =
      classificationOf (matchEvidence e spans identity) := by
  by_cases htainted : TaintedEvidence e spans identity
  · have hsettled' := (settled_perm he h).2 (hsettled htainted)
    have htainted' := (taintedEvidence_perm he h).2 htainted
    have hleft : classificationOf (matchEvidence e' spans' identity) = some .tainted :=
      matchEvidence_tainted hsettled' htainted'
    have hright : classificationOf (matchEvidence e spans identity) = some .tainted :=
      matchEvidence_tainted (hsettled htainted) htainted
    rw [hleft, hright]
  · obtain ⟨hno, huncertain⟩ := matchEvidence_uncertain_iff htainted
    obtain ⟨hno', huncertain'⟩ := matchEvidence_uncertain_iff
      (mt (taintedEvidence_perm he h).1 htainted)
    refine classificationOf_eq (iff_of_false hno' hno) ?_
    rw [huncertain', huncertain, uncertainEvidence_perm he h]

/-- A reference that only names a session, against the first span, hides what comes after it. -/
theorem not_tainted_of_lead {before after : List String} {ref : String} {span : AffectedSpan}
    (hadmission : ¬ AdmissionTainted e identity)
    (hprovenance : provenanceMatchesSpans e.provenance (span :: spans) = none)
    (hrefs : e.refs = before ++ ref :: after)
    (hbefore : ∀ r ∈ before, refMatchesSpans r (span :: spans) = none)
    (huncertain : IsUncertain (refMatchesSpan (parseStructuredRef ref) span)) :
    ¬ IsTainted (matchEvidence e (span :: spans) identity) := by
  have hlead : IsUncertain (refMatchesSpans ref (span :: spans)) := by
    rw [refMatchesSpans, List.findSome?_cons]
    cases hmatch : refMatchesSpan (parseStructuredRef ref) span with
    | none => rw [hmatch] at huncertain; cases huncertain
    | some r => rwa [hmatch] at huncertain
  have hfind : IsUncertain (e.refs.findSome? fun r => refMatchesSpans r (span :: spans)) := by
    rw [hrefs, List.findSome?_append, List.findSome?_eq_none_iff.2 hbefore, Option.none_or,
      List.findSome?_cons]
    cases hmatch : refMatchesSpans ref (span :: spans) with
    | none => rw [hmatch] at hlead; cases hlead
    | some r => rwa [hmatch] at hlead
  rw [matchEvidence_eq hadmission, hprovenance, Option.none_or]
  exact ((isUncertain_or hfind.not_tainted).2 (.inl hfind)).not_tainted

theorem exists_perm_cons {α : Type} {a : α} {l : List α} (h : a ∈ l) : ∃ l', l.Perm (a :: l') := by
  obtain ⟨l₁, l₂, rfl⟩ := List.append_of_mem h
  exact ⟨l₁ ++ l₂, List.perm_middle⟩

/-- Where something uncertain can stand before the tainted evidence, some order of the spans, with
one of the references first, hides it. -/
theorem exists_hiding_order (htainted : TaintedEvidence e spans identity)
    (hsettled : ¬ Settled e spans identity) :
    ∃ spans', spans.Perm spans' ∧
      (¬ IsTainted (matchEvidence e spans' identity) ∨
        ∃ ref ∈ e.otherRefs, ∀ e' rest, e.Reordered e' → e'.otherRefs = ref :: rest →
          ¬ IsTainted (matchEvidence e' spans' identity)) := by
  simp only [Settled, not_or] at hsettled
  obtain ⟨hadmission, hprovenance, hrefs⟩ := hsettled
  by_cases hsession : ProvenanceSessionOnly e spans
  · refine ⟨spans, List.Perm.refl _, .inl ?_⟩
    have huncertain := (provenance_uncertain_iff hprovenance).2 hsession
    rw [matchEvidence_eq hadmission]
    exact ((isUncertain_or huncertain.not_tainted).2 (.inl huncertain)).not_tainted
  simp only [hsession, not_false_eq_true, true_and, not_or, not_exists, not_and, not_forall,
    not_not] at hrefs
  obtain ⟨hsource, ref, href, honly⟩ := hrefs
  -- the source reference, if it is one that only names a session, and else this one
  obtain ⟨lead, hlead, hfirst, honly⟩ : ∃ lead ∈ e.refs,
      (lead ∈ e.sourceRef.toList.filter isText ∨ ∀ r ∈ e.sourceRef.toList.filter isText,
        ¬ RefSessionOnly spans r) ∧ RefSessionOnly spans lead := by
    by_cases hexists : ∃ r ∈ e.sourceRef.toList.filter isText, RefSessionOnly spans r
    · obtain ⟨r, hr, hronly⟩ := hexists
      exact ⟨r, by rw [refs_eq_append]; exact List.mem_append_left _ hr, .inl hr, hronly⟩
    · push Not at hexists
      exact ⟨ref, href, .inr hexists, honly⟩
  obtain ⟨span, hspan, huncertain⟩ := (refSessionOnly_iff lead).1 honly
  obtain ⟨rest, hperm⟩ := exists_perm_cons hspan
  refine ⟨span :: rest, hperm, ?_⟩
  have hnone : ∀ e', e.Reordered e' →
      provenanceMatchesSpans e'.provenance (span :: rest) = none := fun e' he =>
    provenance_eq_none (mt (provenanceTainted_perm he hperm).1 hprovenance)
      (mt (provenanceSessionOnly_perm he hperm).1 hsession)
  have hself : e.Reordered e := ⟨List.Perm.refl _, rfl, rfl, List.Perm.refl _⟩
  rcases hfirst with hfirst | hquiet
  · left
    obtain ⟨before, after, hsplit⟩ := List.append_of_mem hfirst
    have hlist : before = [] := by
      have hlength := congrArg List.length hsplit
      have hshort : (e.sourceRef.toList.filter isText).length ≤ 1 := by
        refine (List.length_filter_le _ _).trans ?_
        cases e.sourceRef <;> simp
      cases before with
      | nil => rfl
      | cons _ _ =>
        simp only [List.length_append, List.length_cons] at hlength
        omega
    have hrefs : e.refs = [] ++ lead :: (after ++ e.otherRefs.filter isText) := by
      rw [refs_eq_append, hsplit, hlist]
      rfl
    exact not_tainted_of_lead hadmission (hnone e hself) hrefs nofun huncertain
  · right
    -- no source reference matches anything, so it does not answer first
    have hsourceNone : ∀ r ∈ e.sourceRef.toList.filter isText,
        refMatchesSpans r (span :: rest) = none := by
      intro r hr
      have hronly := mt (refSessionOnly_perm hperm r).1 (hquiet r hr)
      have hrtainted : ¬ RefTainted (span :: rest) r := fun h =>
        hquiet r hr (hsource r hr ((refTainted_perm hperm r).1 h))
      exact eq_none_of_not (not_isTainted_ref hrtainted) (ref_not_uncertain hronly)
    have hother : lead ∈ e.otherRefs.filter isText := by
      rw [refs_eq_append, List.mem_append] at hlead
      exact hlead.resolve_left fun hmem => hquiet lead hmem honly
    obtain ⟨hmem, htext⟩ := List.mem_filter.1 hother
    refine ⟨lead, hmem, fun e' others he hothers => ?_⟩
    have hrefs : e'.refs =
        e'.sourceRef.toList.filter isText ++ lead :: others.filter isText := by
      rw [refs_eq_append, hothers, List.filter_cons_of_pos htext]
    exact not_tainted_of_lead (mt (admissionTainted_perm he).1 hadmission) (hnone e' he) hrefs
      (by rw [he.sourceRef]; exact hsourceNone) huncertain

end Order

/-! ## The strongest evidence -/

/-- The same memory with its references and admission records in another order. -/
structure PurrMemory.Reordered (memory memory' : PurrMemory) : Prop where
  sourceRef        : memory'.sourceRef = memory.sourceRef
  provenanceRefs   : (memory.provenanceRefs.getD []).Perm (memory'.provenanceRefs.getD [])
  provenance       : memory'.provenance.map SourcedProvenance.toMemoryProvenance =
    memory.provenance.map SourcedProvenance.toMemoryProvenance
  sourceAdmissions : (sourceAdmissionsOf memory.provenance).Perm
    (sourceAdmissionsOf memory'.provenance)

/-- The same artifact with its references and admission records in another order. -/
structure CogSecExternalLineageArtifact.Reordered
    (artifact artifact' : CogSecExternalLineageArtifact) : Prop where
  sourceRef        : artifact'.sourceRef = artifact.sourceRef
  provenanceRefs   : (artifact.provenanceRefs.getD []).Perm (artifact'.provenanceRefs.getD [])
  provenance       : artifact'.provenance.map SourcedProvenance.toMemoryProvenance =
    artifact.provenance.map SourcedProvenance.toMemoryProvenance
  sourceAdmissions : (sourceAdmissionsOf artifact.provenance).Perm
    (sourceAdmissionsOf artifact'.provenance)

theorem PurrMemory.Reordered.evidence {memory memory' : PurrMemory}
    (h : memory.Reordered memory') : memory.evidence.Reordered memory'.evidence :=
  ⟨h.sourceAdmissions, h.provenance, congrArg some h.sourceRef, h.provenanceRefs⟩

theorem CogSecExternalLineageArtifact.Reordered.evidence
    {artifact artifact' : CogSecExternalLineageArtifact} (h : artifact.Reordered artifact') :
    artifact.evidence.Reordered artifact'.evidence :=
  ⟨(h.provenanceRefs.filterMap _).append h.sourceAdmissions, h.provenance, h.sourceRef,
    h.provenanceRefs.filterMap _⟩

/-- Tainted evidence makes the memory tainted, and no order changes its classification. -/
structure MemoryStrongest (memory : PurrMemory) (spans : List AffectedSpan)
    (identity : CogSecAffectedAdmissionIdentity) : Prop where
  tainted   : TaintedEvidence memory.evidence spans identity →
    IsTainted (memoryMatchesSpans memory spans identity)
  reordered : ∀ memory' spans', memory.Reordered memory' → spans.Perm spans' →
    classificationOf (memoryMatchesSpans memory' spans' identity) =
      classificationOf (memoryMatchesSpans memory spans identity)

/-- Tainted evidence makes the artifact tainted, and no order changes its classification. -/
structure ArtifactStrongest (artifact : CogSecExternalLineageArtifact) (spans : List AffectedSpan)
    (identity : CogSecAffectedAdmissionIdentity) : Prop where
  tainted   : TaintedEvidence artifact.evidence spans identity →
    IsTainted (artifactMatchesSpans artifact spans identity)
  reordered : ∀ artifact' spans', artifact.Reordered artifact' → spans.Perm spans' →
    classificationOf (artifactMatchesSpans artifact' spans' identity) =
      classificationOf (artifactMatchesSpans artifact spans identity)

theorem isTainted_congr {a b : Option MatchResult} (h : classificationOf a = classificationOf b)
    (hb : IsTainted b) : IsTainted a := h.trans hb

/-- If the result is tainted and keeps its classification in every order of the spans, with any of
the references first, then nothing uncertain can stand before the tainted evidence. -/
theorem settled_of_strongest {e : Evidence} {spans : List AffectedSpan}
    {identity : CogSecAffectedAdmissionIdentity} (htainted : TaintedEvidence e spans identity)
    (hresult : IsTainted (matchEvidence e spans identity))
    (hspans : ∀ spans', spans.Perm spans' → classificationOf (matchEvidence e spans' identity) =
      classificationOf (matchEvidence e spans identity))
    (hfirst : ∀ ref ∈ e.otherRefs, ∃ e' rest, e.Reordered e' ∧ e'.otherRefs = ref :: rest ∧
      ∀ spans', spans.Perm spans' → classificationOf (matchEvidence e' spans' identity) =
        classificationOf (matchEvidence e spans identity)) :
    Settled e spans identity := by
  by_contra hsettled
  obtain ⟨spans', hperm, hhidden | ⟨ref, href, hhidden⟩⟩ := exists_hiding_order htainted hsettled
  · exact hhidden (isTainted_congr (hspans spans' hperm) hresult)
  · obtain ⟨e', rest, he, hothers, hsame⟩ := hfirst ref href
    exact hhidden e' rest he hothers (isTainted_congr (hsame spans' hperm) hresult)

theorem PurrMemory.exists_lead {memory : PurrMemory} {ref : String}
    (h : ref ∈ memory.evidence.otherRefs) :
    ∃ memory' rest, memory.Reordered memory' ∧ memory'.evidence.otherRefs = ref :: rest := by
  obtain ⟨rest, hperm⟩ := exists_perm_cons (l := memory.provenanceRefs.getD []) h
  exact ⟨{ memory with provenanceRefs := some (ref :: rest) }, rest,
    ⟨rfl, hperm, rfl, List.Perm.refl _⟩, rfl⟩

theorem CogSecExternalLineageArtifact.exists_lead {artifact : CogSecExternalLineageArtifact}
    {ref : String} (h : ref ∈ artifact.evidence.otherRefs) :
    ∃ artifact' rest, artifact.Reordered artifact' ∧
      artifact'.evidence.otherRefs = ref :: rest := by
  obtain ⟨item, hitem, hnormalized⟩ := List.mem_filterMap.1 h
  obtain ⟨rest, hperm⟩ := exists_perm_cons hitem
  refine ⟨{ artifact with provenanceRefs := some (item :: rest) },
    rest.filterMap normalizeProvenanceRef, ⟨rfl, hperm, rfl, List.Perm.refl _⟩, ?_⟩
  show (item :: rest).filterMap normalizeProvenanceRef = _
  rw [List.filterMap_cons_some hnormalized]

theorem memoryStrongest_iff (memory : PurrMemory) (spans : List AffectedSpan)
    (identity : CogSecAffectedAdmissionIdentity) :
    MemoryStrongest memory spans identity ↔
      (TaintedEvidence memory.evidence spans identity →
        Settled memory.evidence spans identity) := by
  constructor
  · intro h htainted
    refine settled_of_strongest htainted (h.tainted htainted)
      (fun spans' => h.reordered memory spans'
        ⟨rfl, List.Perm.refl _, rfl, List.Perm.refl _⟩) ?_
    intro ref href
    obtain ⟨memory', rest, hreordered, hothers⟩ := PurrMemory.exists_lead href
    exact ⟨memory'.evidence, rest, hreordered.evidence, hothers,
      fun spans' => h.reordered memory' spans' hreordered⟩
  · intro h
    exact ⟨fun htainted => matchEvidence_tainted (h htainted) htainted,
      fun memory' spans' hreordered => classification_reordered h hreordered.evidence⟩

theorem artifactStrongest_iff (artifact : CogSecExternalLineageArtifact)
    (spans : List AffectedSpan) (identity : CogSecAffectedAdmissionIdentity) :
    ArtifactStrongest artifact spans identity ↔
      (TaintedEvidence artifact.evidence spans identity →
        Settled artifact.evidence spans identity) := by
  constructor
  · intro h htainted
    refine settled_of_strongest htainted (h.tainted htainted)
      (fun spans' => h.reordered artifact spans'
        ⟨rfl, List.Perm.refl _, rfl, List.Perm.refl _⟩) ?_
    intro ref href
    obtain ⟨artifact', rest, hreordered, hothers⟩ :=
      CogSecExternalLineageArtifact.exists_lead href
    exact ⟨artifact'.evidence, rest, hreordered.evidence, hothers,
      fun spans' => h.reordered artifact' spans' hreordered⟩
  · intro h
    exact ⟨fun htainted => matchEvidence_tainted (h htainted) htainted,
      fun artifact' spans' hreordered => classification_reordered h hreordered.evidence⟩

/-- **The strongest evidence decides, in every order, exactly when nothing that only names an
affected session can stand before the tainted evidence.** -/
theorem strongest_evidence_iff (spans : List AffectedSpan)
    (identity : CogSecAffectedAdmissionIdentity) :
    (∀ memory, MemoryStrongest memory spans identity ↔
      (TaintedEvidence memory.evidence spans identity →
        Settled memory.evidence spans identity)) ∧
    ∀ artifact, ArtifactStrongest artifact spans identity ↔
      (TaintedEvidence artifact.evidence spans identity →
        Settled artifact.evidence spans identity) :=
  ⟨fun memory => memoryStrongest_iff memory spans identity,
    fun artifact => artifactStrongest_iff artifact spans identity⟩

/-- The source reference names the session, and the next one an affected message in it. -/
theorem session_ref_hides_message :
    let memory : PurrMemory := ⟨"session:s", some ["session:s|message:5"], none⟩
    let span : AffectedSpan := ⟨none, "s", [.finite 5], none, none, false⟩
    IsTainted (refMatchesSpans "session:s|message:5" [span]) ∧
      ¬ IsTainted (memoryMatchesSpans memory [span] {}) := by
  decide +kernel

end Psfn.Lineage
