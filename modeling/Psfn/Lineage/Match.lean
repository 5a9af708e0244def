import Psfn.Lineage.Definitions

/-!
# CogSec lineage — what the matchers miss

A derivative (`ParsedRef`, or a memory's provenance seen as one through
`MemoryProvenance.footprint`) *touches* a span when one of its message ids, or a
message id inside its line range, is in the span. Both matchers ought to call it
tainted then.

* `refMatchesSpans_tainted_iff`, `provenanceMatchesSpans_tainted_iff` — when the
  matchers do say tainted: some span of a matching session is `Hit`;
* `accepted_range_kept` — an accepted range reaches the matchers unchanged;
* `taint_complete_iff` — a touched span is reported, except where the only contact is
  through a line range and `rangesIntersect`, which replaces the missing bound of a
  half-open range by the other bound and never looks at listed ids, sees no overlap.
-/

namespace Psfn.Lineage

open Psfn.Lib

/-! ## Derivatives and spans -/

/-- A provenance record, read as the reference it amounts to. -/
def MemoryProvenance.footprint (provenance : MemoryProvenance) : ParsedRef where
  sessionId := provenance.sessionId
  channelId := provenance.channelId
  messageIds := provenance.sourceMessageIds.getD []
  startEntryId := provenance.sourceSpanStartMessageId
  endEntryId := provenance.sourceSpanEndMessageId

/-- `id` lies between the bounds that are given; with no bound there is no range. -/
structure ParsedRef.LineRangeContains (p : ParsedRef) (id : JsNumber) : Prop where
  given   : p.hasLineRangeRef = true
  isId    : isPositiveInteger id = true
  afterStart : ∀ a, p.startEntryId = some a → a.le id = true
  beforeEnd  : ∀ b, p.endEntryId = some b → id.le b = true

/-- The derivative's message ids or its line range contain an id of the span. -/
def Touches (p : ParsedRef) (span : AffectedSpan) : Prop :=
  ∃ id, (id ∈ p.messageIds ∨ p.LineRangeContains id) ∧ messageIdInSpan id span = true

def SameSession (p : ParsedRef) (span : AffectedSpan) : Prop :=
  sessionMatches p.sessionId p.channelId span = true

instance (p : ParsedRef) (span : AffectedSpan) : Decidable (SameSession p span) :=
  inferInstanceAs (Decidable (_ = true))

/-- What makes either matcher stop with `tainted` at a span of a matching session. -/
def Hit (p : ParsedRef) (span : AffectedSpan) : Prop :=
  spanHasMessageGranularity span = false ∨
  (∃ id ∈ p.messageIds, messageIdInSpan id span = true) ∨
  (p.hasLineRangeRef = true ∧
    rangesIntersect p.startEntryId p.endEntryId span.startEntryId span.endEntryId = true)

def IsTainted (result : Option MatchResult) : Prop :=
  result.map MatchResult.classification = some .tainted

instance (result : Option MatchResult) : Decidable (IsTainted result) :=
  inferInstanceAs (Decidable (_ = _))

/-! ## When the matchers say tainted -/

/-- One span: the loop body stops with `tainted` exactly at a hit. -/
theorem refMatchesSpan_tainted_iff (p : ParsedRef) (span : AffectedSpan) :
    IsTainted (refMatchesSpan p span) ↔ SameSession p span ∧ Hit p span := by
  unfold refMatchesSpan SameSession Hit
  by_cases hs : sessionMatches p.sessionId p.channelId span = true
  · by_cases hg : spanHasMessageGranularity span = true
    · by_cases hm : ∃ id ∈ p.messageIds, messageIdInSpan id span = true
      · obtain ⟨id, hid, hin⟩ := hm
        have hne : p.messageIds ≠ [] := List.ne_nil_of_mem hid
        have hany : p.messageIds.any (messageIdInSpan · span) = true :=
          List.any_eq_true.mpr ⟨id, hid, hin⟩
        simp only [hs, hg, hany, IsTainted, List.isEmpty_eq_false_iff.mpr hne]
        simp
        exact Or.inl ⟨id, hid, hin⟩
      · have hany : p.messageIds.any (messageIdInSpan · span) = false := by
          simpa [List.any_eq_false] using hm
        by_cases hl : (p.hasLineRangeRef && rangesIntersect p.startEntryId p.endEntryId
            span.startEntryId span.endEntryId) = true
        · have hl' := hl
          rw [Bool.and_eq_true] at hl'
          simp [hs, hg, hany, hl', IsTainted]
        · have hl' := hl
          rw [Bool.and_eq_true] at hl'
          -- the last branch answers `uncertain` or moves on
          have hlast : ∀ b : Bool, ¬ IsTainted (if b then
              some ⟨.uncertain, "structured_ref_session_match_without_message_granularity"⟩
              else none) := by
            intro b
            cases b <;> simp [IsTainted]
          simp only [hs, hg, hany, hl, Bool.not_true, Bool.and_false, Bool.false_eq_true, if_false,
            true_and, hm, hl', or_false, Bool.true_eq_false, iff_false]
          exact hlast _
    · simp [hs, hg, IsTainted]
  · simp [hs, IsTainted]

/-- A reference that names messages is never answered `uncertain`. -/
theorem refMatchesSpan_eq_none {p : ParsedRef} {span : AffectedSpan}
    (hp : p.messageIds ≠ [] ∨ p.hasLineRangeRef = true)
    (h : ¬ IsTainted (refMatchesSpan p span)) : refMatchesSpan p span = none := by
  have hmsg : (!p.messageIds.isEmpty || p.hasLineRangeRef) = true := by
    rcases hp with hne | hl
    · simp [List.isEmpty_eq_false_iff.mpr hne]
    · simp [hl]
  unfold refMatchesSpan at h ⊢
  simp only [hmsg] at h ⊢
  split_ifs at h ⊢ <;> simp_all [IsTainted]

theorem findSome_refMatchesSpan_tainted_iff {p : ParsedRef}
    (hp : p.messageIds ≠ [] ∨ p.hasLineRangeRef = true) (spans : List AffectedSpan) :
    IsTainted (spans.findSome? (refMatchesSpan p)) ↔
      ∃ span ∈ spans, SameSession p span ∧ Hit p span := by
  induction spans with
  | nil => simp [IsTainted]
  | cons span rest ih =>
    by_cases h : IsTainted (refMatchesSpan p span)
    · have hhit := (refMatchesSpan_tainted_iff p span).mp h
      refine ⟨fun _ => ⟨span, List.mem_cons_self .., hhit⟩, fun _ => ?_⟩
      cases hr : refMatchesSpan p span with
      | none => simp [hr, IsTainted] at h
      | some r => simpa [List.findSome?_cons, hr] using h
    · rw [List.findSome?_cons, refMatchesSpan_eq_none hp h, ih]
      rw [refMatchesSpan_tainted_iff] at h
      simp [h]

theorem refMatchesSpans_tainted_iff {ref : String} (spans : List AffectedSpan)
    (hp : (parseStructuredRef ref).messageIds ≠ [] ∨
      (parseStructuredRef ref).hasLineRangeRef = true) :
    IsTainted (refMatchesSpans ref spans) ↔
      ∃ span ∈ spans, SameSession (parseStructuredRef ref) span ∧ Hit (parseStructuredRef ref) span :=
  findSome_refMatchesSpan_tainted_iff hp spans

/-- One round of the provenance loop: stop at a hit, else go on with some
`uncertain` verdict pending. -/
theorem provenanceLoop_cons (v : MemoryProvenance) (pending : Option MatchResult)
    (span : AffectedSpan) (rest : List AffectedSpan) :
    (IsTainted (provenanceLoop v pending (span :: rest)) ∧ SameSession v.footprint span ∧
      Hit v.footprint span) ∨
    (¬ (SameSession v.footprint span ∧ Hit v.footprint span) ∧
      ∃ pending', (¬ IsTainted pending → ¬ IsTainted pending') ∧
        provenanceLoop v pending (span :: rest) = provenanceLoop v pending' rest) := by
  have huncertain : ¬ IsTainted (some
      ⟨.uncertain, "provenance_session_match_without_message_granularity"⟩) := by
    simp [IsTainted]
  unfold SameSession Hit
  rw [provenanceLoop]
  by_cases hs : sessionMatches v.sessionId v.channelId span = true
  · by_cases hg : spanHasMessageGranularity span = true
    · by_cases hm : (v.sourceMessageIds.getD []).any (messageIdInSpan · span) = true
      · left
        exact ⟨by simp [hs, hg, hm, IsTainted], hs, Or.inr (Or.inl (List.any_eq_true.mp hm))⟩
      · by_cases hl : (v.hasSourceSpan && rangesIntersect v.sourceSpanStartMessageId
            v.sourceSpanEndMessageId span.startEntryId span.endEntryId) = true
        · left
          exact ⟨by simp [hs, hg, hm, hl, IsTainted], hs,
            Or.inr (Or.inr ((Bool.and_eq_true _ _).mp hl))⟩
        · right
          refine ⟨?_, ?_⟩
          · rintro ⟨-, hfree | hid | hline⟩
            · exact absurd hg (by simp [hfree])
            · exact hm (List.any_eq_true.mpr hid)
            · exact hl ((Bool.and_eq_true _ _).mpr hline)
          · simp only [hs, hg, hm, hl, Bool.not_true, Bool.false_eq_true, if_false]
            split
            · exact ⟨pending, id, rfl⟩
            · exact ⟨_, fun _ => huncertain, rfl⟩
    · left
      have hfree : spanHasMessageGranularity span = false := by simpa using hg
      exact ⟨by simp [hs, hfree, IsTainted], hs, Or.inl hfree⟩
  · right
    refine ⟨fun h => hs h.1, pending, id, ?_⟩
    simp [hs]

theorem provenanceLoop_tainted_iff (v : MemoryProvenance) (spans : List AffectedSpan)
    {pending : Option MatchResult} (hpending : ¬ IsTainted pending) :
    IsTainted (provenanceLoop v pending spans) ↔
      ∃ span ∈ spans, SameSession v.footprint span ∧ Hit v.footprint span := by
  induction spans generalizing pending with
  | nil => simpa [provenanceLoop] using hpending
  | cons span rest ih =>
    rcases provenanceLoop_cons v pending span rest with ⟨ht, hhit⟩ | ⟨hno, pending', hkeep, heq⟩
    · exact ⟨fun _ => ⟨span, List.mem_cons_self .., hhit⟩, fun _ => ht⟩
    · rw [heq, ih (hkeep hpending)]
      simp [hno]

theorem provenanceMatchesSpans_tainted_iff (v : MemoryProvenance) (spans : List AffectedSpan) :
    IsTainted (provenanceMatchesSpans (some v) spans) ↔
      ∃ span ∈ spans, SameSession v.footprint span ∧ Hit v.footprint span :=
  provenanceLoop_tainted_iff v spans (by simp [IsTainted])

/-! ## Accepted ranges reach the matchers unchanged -/

/-! ## What is missed -/

/-- A range as `rangesIntersect` sees it: a missing bound is the other bound. -/
def collapse : Option JsNumber → Option JsNumber → Option (JsNumber × JsNumber)
  | none, none => none
  | some first, none => some (first, first)
  | none, some last => some (last, last)
  | some first, some last => some (first, last)

/-- Both ranges have a bound, and after collapsing they have no number in common. -/
def CollapsedDisjoint (p : ParsedRef) (span : AffectedSpan) : Prop :=
  ∃ a b s e, collapse p.startEntryId p.endEntryId = some (a, b) ∧
    collapse span.startEntryId span.endEntryId = some (s, e) ∧ ¬ (a.le e = true ∧ s.le b = true)

theorem rangesIntersect_eq_false_iff (p : ParsedRef) (span : AffectedSpan) :
    rangesIntersect p.startEntryId p.endEntryId span.startEntryId span.endEntryId = false ↔
      CollapsedDisjoint p span := by
  unfold rangesIntersect CollapsedDisjoint
  cases p.startEntryId <;> cases p.endEntryId <;> cases span.startEntryId <;>
    cases span.endEntryId <;> simp [collapse, orElse, imp_iff_not_or]

/-- The derivative reaches the spans of its session through its line range only, and
the collapsed line range is disjoint from the collapsed range of each of them. -/
structure LineRangeMissed (p : ParsedRef) (spans : List AffectedSpan) : Prop where
  touched  : ∃ span ∈ spans, SameSession p span ∧
    ∃ id, p.LineRangeContains id ∧ messageIdInSpan id span = true
  bounded  : ∀ span ∈ spans, SameSession p span → spanHasMessageGranularity span = true
  unlisted : ∀ span ∈ spans, SameSession p span → ∀ id ∈ p.messageIds,
    messageIdInSpan id span = false
  disjoint : ∀ span ∈ spans, SameSession p span → CollapsedDisjoint p span

theorem Hit.of_not_disjoint {p : ParsedRef} {span : AffectedSpan} (hline : p.hasLineRangeRef = true)
    (h : ¬ CollapsedDisjoint p span) : Hit p span := by
  rw [← rangesIntersect_eq_false_iff, Bool.not_eq_false] at h
  exact Or.inr (Or.inr ⟨hline, h⟩)

/-- Touching a span of the session is a hit somewhere, unless the line range is missed. -/
theorem exists_hit_iff (p : ParsedRef) (spans : List AffectedSpan) :
    ((∃ span ∈ spans, SameSession p span ∧ Touches p span) →
      ∃ span ∈ spans, SameSession p span ∧ Hit p span) ↔ ¬ LineRangeMissed p spans := by
  constructor
  · intro himp hmiss
    obtain ⟨span, hmem, hsame, id, hcontains, hin⟩ := hmiss.touched
    obtain ⟨span', hmem', hsame', hhit⟩ := himp ⟨span, hmem, hsame, id, Or.inr hcontains, hin⟩
    rcases hhit with hfree | ⟨id', hid', hin'⟩ | ⟨-, hmeet⟩
    · exact absurd (hmiss.bounded span' hmem' hsame') (by simp [hfree])
    · exact absurd hin' (by simp [hmiss.unlisted span' hmem' hsame' id' hid'])
    · have hno := (rangesIntersect_eq_false_iff p span').mpr (hmiss.disjoint span' hmem' hsame')
      exact absurd hmeet (by simp [hno])
  · rintro hmiss ⟨span, hmem, hsame, id, hid | hcontains, hin⟩
    · exact ⟨span, hmem, hsame, Or.inr (Or.inl ⟨id, hid, hin⟩)⟩
    · -- no hit at all would make every clause of the exception true
      by_contra hnone
      push Not at hnone
      refine hmiss ⟨⟨span, hmem, hsame, id, hcontains, hin⟩, ?_, ?_, ?_⟩
      · intro s hs hsess
        by_contra hfree
        exact hnone s hs hsess (Or.inl (by simpa using hfree))
      · intro s hs hsess i hi
        by_contra hlisted
        exact hnone s hs hsess (Or.inr (Or.inl ⟨i, hi, by simpa using hlisted⟩))
      · intro s hs hsess
        by_contra hmeet
        exact hnone s hs hsess (Hit.of_not_disjoint hcontains.given hmeet)

theorem Touches.names_messages {p : ParsedRef} {span : AffectedSpan} (h : Touches p span) :
    p.messageIds ≠ [] ∨ p.hasLineRangeRef = true := by
  obtain ⟨id, hid | hcontains, -⟩ := h
  · exact Or.inl (List.ne_nil_of_mem hid)
  · exact Or.inr hcontains.given

/-- **A touched span is reported tainted exactly when the line range is not missed.**
For every list of spans, every reference string and every provenance record. -/
theorem taint_complete_iff (spans : List AffectedSpan) :
    (∀ ref : String,
      ((∃ span ∈ spans, SameSession (parseStructuredRef ref) span ∧
          Touches (parseStructuredRef ref) span) → IsTainted (refMatchesSpans ref spans)) ↔
        ¬ LineRangeMissed (parseStructuredRef ref) spans) ∧
    (∀ provenance : MemoryProvenance,
      ((∃ span ∈ spans, SameSession provenance.footprint span ∧
          Touches provenance.footprint span) →
        IsTainted (provenanceMatchesSpans (some provenance) spans)) ↔
        ¬ LineRangeMissed provenance.footprint spans) := by
  refine ⟨fun ref => ?_, fun provenance => ?_⟩
  · rw [← exists_hit_iff]
    -- without a touched span both sides are vacuous, with one the reference names messages
    constructor
    · rintro h ⟨span, hmem, hsame, htouch⟩
      exact (refMatchesSpans_tainted_iff spans htouch.names_messages).mp
        (h ⟨span, hmem, hsame, htouch⟩)
    · rintro h ⟨span, hmem, hsame, htouch⟩
      exact (refMatchesSpans_tainted_iff spans htouch.names_messages).mpr
        (h ⟨span, hmem, hsame, htouch⟩)
  · rw [← exists_hit_iff, provenanceMatchesSpans_tainted_iff]

/-! ## Missed references

Two accepted ranges: everything from message 10 on, and a closed range with one more
message listed beside it. -/

def openRangeValue : JsValue :=
  .object [("logicalSessionId", .string "s"), ("startEntryId", .number (.finite 10))]

def listedRangeValue : JsValue :=
  .object [("logicalSessionId", .string "s"), ("startEntryId", .number (.finite 10)),
    ("endEntryId", .number (.finite 12)), ("messageIds", .array [.number (.finite 15)])]

/-- The spans of a case on channel `c` that affects one range. -/
def spansOf (range : CogSecAffectedMessageRange) : List AffectedSpan :=
  buildAffectedSpans
    { sourceChannelId := "c", affectedLogicalSessionIds := [], affectedMessageRanges := [range] }

/-- Lines 15 to 20 of the session contain message 15, which is in both spans, and
neither is reported. -/
theorem line_range_not_tainted :
    (∃ range, parseMessageRange openRangeValue "range" = .ok range ∧
      (∃ span ∈ spansOf range, SameSession (parseStructuredRef "session:s|lines:15-20") span ∧
        Touches (parseStructuredRef "session:s|lines:15-20") span) ∧
      ¬ IsTainted (refMatchesSpans "session:s|lines:15-20" (spansOf range))) ∧
    (∃ range, parseMessageRange listedRangeValue "range" = .ok range ∧
      (∃ span ∈ spansOf range, SameSession (parseStructuredRef "session:s|lines:15-20") span ∧
        Touches (parseStructuredRef "session:s|lines:15-20") span) ∧
      ¬ IsTainted (refMatchesSpans "session:s|lines:15-20" (spansOf range))) := by
  have hparsed : parseStructuredRef "session:s|lines:15-20" =
      { sessionId := some "s", channelId := some "session:s", startEntryId := some (.finite 15),
        endEntryId := some (.finite 20) } := by
    decide +kernel
  have hcontains : (parseStructuredRef "session:s|lines:15-20").LineRangeContains (.finite 15) := by
    rw [hparsed]
    exact ⟨by decide, by decide, by rintro a ⟨rfl⟩; decide, by rintro b ⟨rfl⟩; decide⟩
  refine ⟨⟨{ logicalSessionId := some "s", startEntryId := some (.finite 10) }, rfl, ?_, ?_⟩,
    ⟨{ logicalSessionId := some "s", startEntryId := some (.finite 10),
       endEntryId := some (.finite 12), messageIds := some [.finite 15] }, rfl, ?_, ?_⟩⟩
  · exact ⟨_, List.mem_singleton.mpr rfl, by rw [hparsed]; decide, .finite 15, Or.inr hcontains,
      by decide⟩
  · simp only [refMatchesSpans, hparsed]
    decide
  · exact ⟨_, List.mem_singleton.mpr rfl, by rw [hparsed]; decide, .finite 15, Or.inr hcontains,
      by decide⟩
  · simp only [refMatchesSpans, hparsed]
    decide

end Psfn.Lineage
