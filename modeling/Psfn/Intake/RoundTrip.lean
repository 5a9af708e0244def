import Psfn.Intake.Envelope

/-!
# Intake envelopes — the validator on envelopes of this code

`validateIntakeEnvelope` re-runs every normaliser on a record that was read back. An
envelope it returns unchanged is one whose fields all satisfy their own normalisers:
`IntakeEnvelope.Valid` says this field by field.

* `validateIntakeEnvelope_value_iff` — the validator gives an envelope back unchanged
  exactly when it is valid.
* `Valid.isJson` — a valid envelope survives serialisation.

Each normaliser has two lemmas: what it returns is valid, and what is valid it returns
unchanged, under any field name.
-/

namespace Psfn.Intake

open Psfn.Lib

/-! ## Vocabularies read back -/

@[simp] theorem ofText_sourceClass (c : IntakeSourceClass) :
    ofText IntakeSourceClass.all IntakeSourceClass.text (.string c.text) = some c := by
  cases c <;> rfl

@[simp] theorem ofText_sourceRiskTier (t : IntakeSourceRiskTier) :
    ofText IntakeSourceRiskTier.all IntakeSourceRiskTier.text (.string t.text) = some t := by
  cases t <;> rfl

@[simp] theorem ofText_state (s : IntakeEnvelopeState) :
    ofText IntakeEnvelopeState.all IntakeEnvelopeState.text (.string s.text) = some s := by
  cases s <;> rfl

@[simp] theorem ofText_decisionAction (a : IntakeDecisionAction) :
    ofText IntakeDecisionAction.all IntakeDecisionAction.text (.string a.text) = some a := by
  cases a <;> rfl

@[simp] theorem ofText_decisionAuthority (a : IntakeDecisionAuthority) :
    ofText IntakeDecisionAuthority.all IntakeDecisionAuthority.text (.string a.text) = some a := by
  cases a <;> rfl

@[simp] theorem ofText_ruleMatchKind (k : IntakeL1RuleMatchKind) :
    ofText IntakeL1RuleMatchKind.all IntakeL1RuleMatchKind.text (.string k.text) = some k := by
  cases k <;> rfl

/-! ## Scalars -/

/-- A text `normalizeRequiredString` returns unchanged. -/
structure IsText (maxChars : Nat) (s : String) : Prop where
  trimmed  : JsString.trim s = s
  nonempty : s ≠ ""
  bounded  : JsString.utf16Length s ≤ maxChars

/-- A number `normalizeTimestampMs` accepts. -/
structure IsTimestamp (n : JsNumber) : Prop where
  finite   : n.isFinite = true
  positive : n.le (.finite 0) = false

variable {v : JsValue} {field : String}

theorem normalizeRequiredString_eq_ok {r : String} {maxChars : Nat} :
    normalizeRequiredString v field maxChars = .ok r ↔
      IsText maxChars r ∧ ∃ s, v = .string s ∧ JsString.trim s = r := by
  constructor
  · intro h
    cases v with
    | string s =>
      simp only [normalizeRequiredString] at h
      split at h
      · cases h
      · split at h
        · cases h
        · rename_i hne hlen
          obtain rfl : JsString.trim s = r := by simpa using h
          exact ⟨⟨JsString.trim_trim s, hne, not_lt.1 hlen⟩, s, rfl, rfl⟩
    | _ => cases h
  · rintro ⟨hr, s, rfl, htrim⟩
    simp only [normalizeRequiredString, htrim]
    rw [if_neg hr.nonempty, if_neg (not_lt.2 hr.bounded)]

theorem normalizeRequiredString_string {s : String} {maxChars : Nat} (h : IsText maxChars s) :
    normalizeRequiredString (.string s) field maxChars = .ok s :=
  normalizeRequiredString_eq_ok.2 ⟨h, s, rfl, h.trimmed⟩

variable {n : JsNumber}

theorem normalizeTimestampMs_eq_ok :
    normalizeTimestampMs v field = .ok n ↔ v = .number n ∧ IsTimestamp n := by
  constructor
  · intro h
    cases v with
    | number m =>
      simp only [normalizeTimestampMs] at h
      split at h
      · cases h
      · rename_i hm
        obtain rfl : m = n := by simpa using h
        simp only [Bool.or_eq_true, Bool.not_eq_true', not_or, Bool.not_eq_false,
          Bool.not_eq_true] at hm
        exact ⟨rfl, hm.1, hm.2⟩
    | _ => cases h
  · rintro ⟨rfl, hfinite, hpositive⟩
    simp [normalizeTimestampMs, hfinite, hpositive]

theorem resolveAtMs_isTimestamp {now : JsNumber} {atMs : Option JsNumber}
    (hnow : atMs = none → IsTimestamp now) (h : resolveAtMs now atMs field = .ok n) :
    IsTimestamp n := by
  cases atMs with
  | none =>
    obtain rfl : now = n := by simpa [resolveAtMs] using h
    exact hnow rfl
  | some m =>
    rw [resolveAtMs] at h
    exact (normalizeTimestampMs_eq_ok.1 h).2

/-! ## Records -/

theorem requireRecord_object {properties : List (String × JsValue)} {known : List String}
    (h : ∀ p ∈ properties, p.1 ∈ known) :
    requireRecord (.object properties) field known = .ok () := by
  have hnone : (JsValue.object properties).ownKeys.filter (· ∉ known) = [] := by
    rw [JsValue.ownKeys, List.filter_eq_nil_iff]
    intro key hkey
    obtain ⟨p, hp, rfl⟩ := List.mem_map.1 hkey
    simpa using h p hp
  rw [requireRecord, hnone]
  rfl

/-! ## Arrays -/

variable {index : Nat}

section Items

variable {α : Type} {normalize : JsValue → String → Except String α} {field : String}

theorem normalizeItems_forall {P : α → Prop} (hP : ∀ v f a, normalize v f = .ok a → P a)
    {items : List JsValue} {as : List α} (h : normalizeItems normalize field index items = .ok as) :
    ∀ a ∈ as, P a := by
  induction items generalizing index as with
  | nil =>
    obtain rfl : [] = as := by simpa [normalizeItems] using h
    simp
  | cons item rest ih =>
    simp only [normalizeItems, bind_eq_ok] at h
    obtain ⟨first, hfirst, others, hothers, hr⟩ := h
    obtain rfl : first :: others = as := by simpa [pure, Except.pure] using hr
    intro a ha
    rcases List.mem_cons.1 ha with rfl | ha
    · exact hP _ _ _ hfirst
    · exact ih hothers a ha

theorem normalizeItems_map {toValue : α → JsValue} {as : List α}
    (h : ∀ a ∈ as, ∀ f, normalize (toValue a) f = .ok a) (index : Nat) :
    normalizeItems normalize field index (as.map toValue) = .ok as := by
  induction as generalizing index with
  | nil => rfl
  | cons a rest ih =>
    have hrest := ih (fun b hb f => h b (List.mem_cons_of_mem _ hb) f) (index + 1)
    simp [normalizeItems, h a (List.mem_cons_self ..), hrest, bind, Except.bind, pure, Except.pure]

end Items

/-! ## Rule matches -/

structure IntakeL1RuleMatchProvenance.Valid (m : IntakeL1RuleMatchProvenance) : Prop where
  ruleId      : IsText 64 m.ruleId
  rule        : isIntakeL1RuleId m.ruleId.toList = true
  startOffset : safeInteger (.number m.startOffset) = some m.startOffset
  nonnegative : m.startOffset.lt (.finite 0) = false
  endOffset   : safeInteger (.number m.endOffset) = some m.endOffset
  after       : m.endOffset.le m.startOffset = false
  scanned     : (JsNumber.finite intakeL1ScanMaxChars).lt m.endOffset = false
  excerpt     : IsText intakeRuleMatchExcerptMaxChars m.excerpt
  printable   : hasUnsafeIntakeRuleMatchExcerptCharacters m.excerpt = false

theorem safeInteger_eq_some (h : safeInteger v = some n) :
    v = .number n ∧ n.isInteger = true := by
  cases v with
  | number m =>
    simp only [safeInteger] at h
    split at h
    · rename_i hm
      simp only [Bool.and_eq_true] at hm
      obtain rfl : m = n := by simpa using h
      exact ⟨rfl, hm.1.1⟩
    · cases h
  | _ => cases h

theorem isFinite_of_isInteger (h : n.isInteger = true) : n.isFinite = true := by
  obtain ⟨k, rfl⟩ := JsNumber.exists_int_of_isInteger h
  rfl

variable {f : String}

theorem normalizeRuleMatch_valid {m : IntakeL1RuleMatchProvenance}
    (h : normalizeRuleMatch v f = .ok m) : m.Valid := by
  simp only [normalizeRuleMatch, bind_eq_ok, throwIf_eq_ok, orThrow_eq_ok,
    normalizeRequiredString_eq_ok] at h
  obtain ⟨_, -, ruleId, ⟨hruleId, -⟩, _, hrule, kind, -, startOffset, hstart, endOffset, hend, _,
    hscanned, excerpt, ⟨hexcerpt, -⟩, _, hprintable, hm⟩ := h
  obtain rfl := Except.ok.inj hm
  obtain ⟨hstart, hnonnegative⟩ := Option.filter_eq_some_iff.1 hstart
  obtain ⟨hend, hafter⟩ := Option.filter_eq_some_iff.1 hend
  obtain ⟨hs, -⟩ := safeInteger_eq_some hstart
  obtain ⟨he, -⟩ := safeInteger_eq_some hend
  rw [hs] at hstart
  rw [he] at hend
  exact ⟨hruleId, by simpa using hrule, hstart, by simpa using hnonnegative, hend,
    by simpa using hafter, hscanned, hexcerpt, hprintable⟩

theorem normalizeRuleMatch_value {m : IntakeL1RuleMatchProvenance} (h : m.Valid) (f : String) :
    normalizeRuleMatch m.value f = .ok m := by
  simp only [normalizeRuleMatch, bind_eq_ok, throwIf_eq_ok, orThrow_eq_ok]
  refine ⟨(), requireRecord_object (by simp), m.ruleId, normalizeRequiredString_string h.ruleId,
    (), by simp [h.rule], m.kind, ofText_ruleMatchKind m.kind, m.startOffset, ?_, m.endOffset, ?_,
    (), h.scanned, m.excerpt, normalizeRequiredString_string h.excerpt, (), h.printable, rfl⟩
  · exact Option.filter_eq_some_iff.2 ⟨h.startOffset, by simp [h.nonnegative]⟩
  · exact Option.filter_eq_some_iff.2 ⟨h.endOffset, by simp [h.after]⟩

structure RuleMatchesValid (action : IntakeDecisionAction) (decidedBy : IntakeDecisionAuthority)
    (ruleMatches : List IntakeL1RuleMatchProvenance) : Prop where
  nonempty : ruleMatches ≠ []
  bounded  : ruleMatches.length ≤ maxDecisionRuleMatches
  valid    : ∀ m ∈ ruleMatches, m.Valid
  unique   : hasUniqueIntakeRuleMatchRuleIds ruleMatches = true
  decided  : decidedBy ≠ .policy
  screened : decidedBy = .screening → action = .quarantine ∨ action = .block

theorem normalizeItems_length {α : Type} {normalize : JsValue → String → Except String α}
    {items : List JsValue} {as : List α} (h : normalizeItems normalize field index items = .ok as) :
    as.length = items.length := by
  induction items generalizing index as with
  | nil =>
    obtain rfl : [] = as := by simpa [normalizeItems] using h
    rfl
  | cons item rest ih =>
    simp only [normalizeItems, bind_eq_ok] at h
    obtain ⟨first, -, others, hothers, hr⟩ := h
    obtain rfl : first :: others = as := by simpa [pure, Except.pure] using hr
    rw [List.length_cons, List.length_cons, ih hothers]

theorem normalizeRuleMatches_valid {action : IntakeDecisionAction}
    {decidedBy : IntakeDecisionAuthority} {ms : List IntakeL1RuleMatchProvenance}
    (h : normalizeRuleMatches v f action decidedBy = .ok ms) :
    RuleMatchesValid action decidedBy ms := by
  simp only [normalizeRuleMatches, bind_eq_ok, throwIf_eq_ok] at h
  obtain ⟨items, hitems, _, hbounded, ruleMatches, hmatches, _, hunique, _, hdecided, _, hscreened,
    hr⟩ := h
  obtain rfl := Except.ok.inj hr
  have hlength := normalizeItems_length hmatches
  refine ⟨?_, ?_, normalizeItems_forall (fun _ _ _ => normalizeRuleMatch_valid) hmatches,
    by simpa using hunique, by simpa using hdecided, ?_⟩
  · -- the array was not empty
    rintro rfl
    split at hitems
    · obtain rfl := Except.ok.inj hitems
      simp at hlength
    · cases hitems
  · simp only [decide_eq_false_iff_not, not_lt] at hbounded
    omega
  · intro hs
    by_contra hne
    simp_all

theorem normalizeRuleMatches_value {action : IntakeDecisionAction}
    {decidedBy : IntakeDecisionAuthority} {ms : List IntakeL1RuleMatchProvenance}
    (h : RuleMatchesValid action decidedBy ms) (f : String) :
    normalizeRuleMatches (.array (ms.map (·.value))) f action decidedBy = .ok ms := by
  simp only [normalizeRuleMatches, bind_eq_ok, throwIf_eq_ok]
  refine ⟨ms.map (·.value), ?_, (), by simpa using h.bounded, ms,
    normalizeItems_map (fun m hm => normalizeRuleMatch_value (h.valid m hm)) 0, (),
    by simp [h.unique], (), by simpa using h.decided, (), ?_, rfl⟩
  · cases hms : ms with
    | nil => exact absurd hms h.nonempty
    | cons m rest => rfl
  · by_cases hs : decidedBy = .screening
    · rcases h.screened hs with ha | ha <;> simp [ha]
    · simp [hs]

/-! ## Decisions -/

/-- The bounded summary of a decision: both fields or neither, and truthful. -/
def RuleMatchSummaryValid (d : IntakeDecision) : Prop :=
  (d.ruleMatchTotalCount = none ∧ d.ruleMatchesTruncated = none) ∨
    ∃ ruleMatches total, d.ruleMatches = some ruleMatches ∧ d.ruleMatchTotalCount = some total ∧
      d.ruleMatchesTruncated = some ((JsNumber.finite ruleMatches.length).lt total) ∧
      safeInteger (.number total) = some total ∧
      total.lt (.finite ruleMatches.length) = false ∧
      (JsNumber.finite intakeL1RuleMatchTotalMax).lt total = false

structure IntakeDecision.Valid (d : IntakeDecision) : Prop where
  reason      : IsText maxReasonChars d.reason
  decidedAtMs : IsTimestamp d.decidedAtMs
  ruleMatches : ∀ ms, d.ruleMatches = some ms → RuleMatchesValid d.action d.decidedBy ms
  summary     : RuleMatchSummaryValid d

theorem normalizeRuleMatchSummary_eq_ok {ruleMatches : Option (List IntakeL1RuleMatchProvenance)}
    {r : Option (JsNumber × Bool)} (h : normalizeRuleMatchSummary v f ruleMatches = .ok r) :
    r = none ∨ ∃ ms total, ruleMatches = some ms ∧
      r = some (total, (JsNumber.finite ms.length).lt total) ∧
      safeInteger (.number total) = some total ∧ total.lt (.finite ms.length) = false ∧
      (JsNumber.finite intakeL1RuleMatchTotalMax).lt total = false := by
  simp only [normalizeRuleMatchSummary, bind_eq_ok, throwIf_eq_ok] at h
  obtain ⟨_, -, h⟩ := h
  split at h
  · exact .inl (Except.ok.inj h).symm
  · simp only [bind_eq_ok, throwIf_eq_ok, orThrow_eq_ok] at h
    obtain ⟨ms, hms, total, htotal, truncated, -, _, htruthful, hr⟩ := h
    obtain rfl := Except.ok.inj hr
    obtain ⟨hsafe, hbounds⟩ := Option.filter_eq_some_iff.1 htotal
    obtain ⟨hv, -⟩ := safeInteger_eq_some hsafe
    rw [hv] at hsafe
    simp only [Bool.and_eq_true, Bool.not_eq_true'] at hbounds
    obtain rfl : truncated = (JsNumber.finite ms.length).lt total := by simpa using htruthful
    exact .inr ⟨ms, total, hms, rfl, hsafe, hbounds⟩

variable {d : IntakeDecision}

theorem normalizeDecision_valid (h : normalizeDecision v f = .ok d) : d.Valid := by
  simp only [normalizeDecision, bind_eq_ok, orThrow_eq_ok, normalizeRequiredString_eq_ok,
    normalizeTimestampMs_eq_ok] at h
  obtain ⟨_, -, action, -, decidedBy, -, ruleMatches, hmatches, summary, hsummary, reason,
    ⟨hreason, -⟩, decidedAtMs, ⟨-, hdecidedAtMs⟩, hd⟩ := h
  obtain rfl := Except.ok.inj hd
  refine ⟨hreason, hdecidedAtMs, ?_, ?_⟩
  · rintro ms rfl
    rcases optionalField_eq_ok hmatches with ⟨-, hnone⟩ | ⟨ms', hms', hsome⟩
    · cases hnone
    · obtain rfl := Option.some.inj hsome
      exact normalizeRuleMatches_valid hms'
  · rcases normalizeRuleMatchSummary_eq_ok hsummary with
      rfl | ⟨ms, total, hms, rfl, hsafe, hlow, hhigh⟩
    · exact .inl ⟨rfl, rfl⟩
    · exact .inr ⟨ms, total, hms, rfl, rfl, hsafe, hlow, hhigh⟩

/-- The optional properties of a decision, read back. -/
theorem IntakeDecision.property_value (d : IntakeDecision) :
    d.value.property "ruleMatches" =
        (d.ruleMatches.map fun l => JsValue.array (l.map (·.value))).getD .undefined ∧
      d.value.property "ruleMatchTotalCount" =
        (d.ruleMatchTotalCount.map JsValue.number).getD .undefined ∧
      d.value.property "ruleMatchesTruncated" =
        (d.ruleMatchesTruncated.map JsValue.bool).getD .undefined := by
  refine ⟨?_, ?_, ?_⟩ <;> simp [IntakeDecision.value, JsValue.property, JsMap.lookup]

theorem normalizeRuleMatchSummary_value (h : RuleMatchSummaryValid d) (f : String) :
    normalizeRuleMatchSummary d.value f d.ruleMatches =
      .ok (d.ruleMatchTotalCount.bind fun total => d.ruleMatchesTruncated.map fun b => (total, b)) := by
  obtain ⟨-, htotal, htruncated⟩ := d.property_value
  simp only [normalizeRuleMatchSummary, htotal, htruncated, bind_eq_ok, throwIf_eq_ok]
  rcases h with ⟨hnone, hnone'⟩ | ⟨ms, total, hms, hsome, hsome', hsafe, hlow, hhigh⟩
  · simp [hnone, hnone', JsValue.isUndefined, pure, Except.pure]
  · refine ⟨(), by simp [hsome, hsome', JsValue.isUndefined], ?_⟩
    simp only [hsome, hsome', Option.map_some, Option.getD_some, JsValue.isUndefined, hms,
      Bool.false_eq_true, if_false, bind_eq_ok, throwIf_eq_ok, orThrow_eq_ok]
    refine ⟨ms, rfl, total, ?_, _, rfl, (), by simp, rfl⟩
    exact Option.filter_eq_some_iff.2 ⟨hsafe, by simp [hlow, hhigh]⟩

theorem normalizeDecision_value (h : d.Valid) (f : String) :
    normalizeDecision d.value f = .ok d := by
  obtain ⟨hmatches, -, -⟩ := d.property_value
  simp only [normalizeDecision, bind_eq_ok, orThrow_eq_ok]
  refine ⟨(), requireRecord_object ?_, d.action, ofText_decisionAction d.action, d.decidedBy,
    ofText_decisionAuthority d.decidedBy, d.ruleMatches, ?_, _,
    normalizeRuleMatchSummary_value h.summary f, d.reason, normalizeRequiredString_string h.reason,
    d.decidedAtMs, normalizeTimestampMs_eq_ok.2 ⟨rfl, h.decidedAtMs⟩, ?_⟩
  · simp only [List.forall_mem_append, forall_optionalProperty]
    simp
  · rw [hmatches]
    exact optionalField_getD (fun _ => rfl) fun ms hms =>
      normalizeRuleMatches_value (h.ruleMatches ms hms) _
  · rcases h.summary with ⟨hnone, hnone'⟩ | ⟨ms, total, -, hsome, hsome', -⟩
    · cases d
      simp_all [pure, Except.pure]
    · cases d
      simp_all [pure, Except.pure]

/-! ## The transition journal -/

structure IntakeEnvelopeTransitionRecord.Valid (r : IntakeEnvelopeTransitionRecord) : Prop where
  atMs   : IsTimestamp r.atMs
  actor  : IsText 256 r.actor
  reason : IsText maxReasonChars r.reason

variable {r : IntakeEnvelopeTransitionRecord}

theorem normalizeTransitionRecord_valid (h : normalizeTransitionRecord v f = .ok r) : r.Valid := by
  simp only [normalizeTransitionRecord, bind_eq_ok, orThrow_eq_ok, normalizeRequiredString_eq_ok,
    normalizeTimestampMs_eq_ok] at h
  obtain ⟨_, -, source, -, target, -, atMs, ⟨-, hatMs⟩, actor, ⟨hactor, -⟩, reason, ⟨hreason, -⟩,
    hr⟩ := h
  obtain rfl := Except.ok.inj hr
  exact ⟨hatMs, hactor, hreason⟩

theorem normalizeTransitionRecord_value (h : r.Valid) (f : String) :
    normalizeTransitionRecord r.value f = .ok r := by
  simp only [normalizeTransitionRecord, bind_eq_ok, orThrow_eq_ok]
  exact ⟨(), requireRecord_object (by simp), r.source, ofText_state r.source, r.target,
    ofText_state r.target, r.atMs, normalizeTimestampMs_eq_ok.2 ⟨rfl, h.atMs⟩, r.actor,
    normalizeRequiredString_string h.actor, r.reason, normalizeRequiredString_string h.reason, rfl⟩

/-- A journal that ends in a state continues with any transition allowed there. -/
theorem followJournal_append {records : List IntakeEnvelopeTransitionRecord}
    {cursor state : IntakeEnvelopeState} (h : followJournal cursor index records = .ok state)
    (hsource : r.source = state)
    (hallowed : isIntakeEnvelopeTransitionAllowed r.source r.target = true) :
    followJournal cursor index (records ++ [r]) = .ok r.target := by
  induction records generalizing cursor index with
  | nil =>
    obtain rfl : cursor = state := by simpa [followJournal] using h
    simp [followJournal, hsource, hsource ▸ hallowed]
  | cons record rest ih =>
    simp only [followJournal] at h
    split at h
    · cases h
    · split at h
      · cases h
      · rename_i hsource' hallowed'
        simp only [List.cons_append, followJournal, if_neg hsource', if_neg hallowed']
        exact ih h

/-! ## Envelopes -/

/-- Every field is one its normaliser returns unchanged, and state, journal and decision
agree. -/
structure IntakeEnvelope.Valid (e : IntakeEnvelope) : Prop where
  id              : normalizeIntakeEnvelopeId (.string e.id) = .ok e.id
  provenance      : normalizeProvenanceChain (.array (e.provenance.map (·.value))) = .ok e.provenance
  contentRef      : normalizeContentRef e.contentRef.value "contentRef" = .ok e.contentRef
  extractedFields : normalizeExtractedFields (recordValue .string e.extractedFields) =
    .ok e.extractedFields
  riskLabels      : normalizeRiskLabels (.array (e.riskLabels.map fun l => .string l.text)) =
    .ok e.riskLabels
  scores          : normalizeScores (recordValue .number e.scores) = .ok e.scores
  createdAtMs     : IsTimestamp e.createdAtMs
  transitions     : ∀ r ∈ e.transitions, r.Valid
  journal         : followJournal .received 0 e.transitions = .ok e.state
  decision        : ∀ d, e.decision = some d → d.Valid
  decided         : e.decision = none ↔ e.state = .received

/-- What the validator checks of a value it returns `e` for. -/
structure Validated (v : JsValue) (e : IntakeEnvelope) : Prop where
  record          : requireRecord v "envelope" ["schemaVersion", "id", "sourceClass", "provenance",
    "sourceRiskTier", "contentRef", "extractedFields", "riskLabels", "scores", "decision", "state",
    "createdAtMs", "transitions"] = .ok ()
  schemaVersion   : v.property "schemaVersion" = .number (.finite 1)
  sourceClass     : ofText IntakeSourceClass.all IntakeSourceClass.text (v.property "sourceClass") =
    some e.sourceClass
  sourceRiskTier  : ofText IntakeSourceRiskTier.all IntakeSourceRiskTier.text
    (v.property "sourceRiskTier") = some e.sourceRiskTier
  state           : ofText IntakeEnvelopeState.all IntakeEnvelopeState.text (v.property "state") =
    some e.state
  transitions     : ∃ items, v.property "transitions" = .array items ∧
    normalizeItems normalizeTransitionRecord "transitions" 0 items = .ok e.transitions
  journal         : followJournal .received 0 e.transitions = .ok e.state
  decision        : optionalField (v.property "decision") (normalizeDecision · "decision") =
    .ok e.decision
  decided         : e.decision = none ↔ e.state = .received
  id              : normalizeIntakeEnvelopeId (v.property "id") = .ok e.id
  provenance      : normalizeProvenanceChain (v.property "provenance") = .ok e.provenance
  contentRef      : normalizeContentRef (v.property "contentRef") "contentRef" = .ok e.contentRef
  extractedFields : normalizeExtractedFields (v.property "extractedFields") = .ok e.extractedFields
  riskLabels      : normalizeRiskLabels (v.property "riskLabels") = .ok e.riskLabels
  scores          : normalizeScores (v.property "scores") = .ok e.scores
  createdAtMs     : normalizeTimestampMs (v.property "createdAtMs") "createdAtMs" = .ok e.createdAtMs

variable {e : IntakeEnvelope}

theorem validateIntakeEnvelope_eq_ok :
    validateIntakeEnvelope v = .ok e ↔ Validated v e := by
  simp only [validateIntakeEnvelope, bind_eq_ok, throwIf_eq_ok, orThrow_eq_ok]
  constructor
  · rintro ⟨_, hrecord, _, hversion, sourceClass, hclass, tier, htier, state, hstate, records,
      hrecords, transitions, htransitions, cursor, hjournal, _, hcursor, decision, hdecision, _,
      hdecided, _, hreceived, id, hid, provenance, hprovenance, contentRef, href, fields, hfields,
      labels, hlabels, scores, hscores, createdAtMs, hcreated, he⟩
    obtain rfl := Except.ok.inj he
    obtain rfl : cursor = state := by simpa using hcursor
    refine ⟨hrecord, ?_, hclass, htier, hstate, ⟨records, ?_, htransitions⟩, hjournal, hdecision, ?_,
      hid, hprovenance, href, hfields, hlabels, hscores, hcreated⟩
    · split at hversion
      · rename_i n hn
        rw [throwIf_eq_ok, Bool.not_eq_false', JsNumber.strictEq_iff] at hversion
        rw [hn, hversion.1]
      · cases hversion
    · split at hrecords
      · rename_i items hitems
        rw [hitems, Except.ok.inj hrecords]
      · cases hrecords
    · -- the two presence checks together
      cases decision <;> simp_all
  · intro h
    obtain ⟨items, hitems, htransitions⟩ := h.transitions
    refine ⟨(), h.record, (), ?_, _, h.sourceClass, _, h.sourceRiskTier, _, h.state, items, ?_, _,
      htransitions, _, h.journal, (), by simp, _, h.decision, (), ?_, (), ?_, _, h.id, _, h.provenance,
      _, h.contentRef, _, h.extractedFields, _, h.riskLabels, _, h.scores, _, h.createdAtMs, rfl⟩
    · simp [h.schemaVersion, throwIf, JsNumber.strictEq]
    · simp [hitems]
    · have hdecided := h.decided
      cases hd : e.decision <;> simp_all
    · have hdecided := h.decided
      cases hd : e.decision <;> simp_all

/-- The validator gives an envelope back unchanged exactly when it is valid. -/
theorem validateIntakeEnvelope_value_iff :
    validateIntakeEnvelope e.value = .ok e ↔ e.Valid := by
  have htransitions : e.value.property "transitions" = .array (e.transitions.map (·.value)) := by
    simp [IntakeEnvelope.value, JsValue.property, JsMap.lookup]
  have hdecision : e.value.property "decision" =
      (e.decision.map IntakeDecision.value).getD .undefined := by
    simp [IntakeEnvelope.value, JsValue.property, JsMap.lookup]
  have hcreated : e.value.property "createdAtMs" = .number e.createdAtMs := by
    simp [IntakeEnvelope.value, JsValue.property, JsMap.lookup]
  have hstate : e.value.property "state" = .string e.state.text := by
    simp [IntakeEnvelope.value, JsValue.property, JsMap.lookup]
  rw [validateIntakeEnvelope_eq_ok]
  constructor
  · intro h
    obtain ⟨items, -, hitems⟩ := h.transitions
    refine ⟨h.id, h.provenance, h.contentRef, h.extractedFields, h.riskLabels, h.scores,
      (normalizeTimestampMs_eq_ok.1 h.createdAtMs).2,
      normalizeItems_forall (fun _ _ _ => normalizeTransitionRecord_valid) hitems, h.journal, ?_,
      h.decided⟩
    intro d hd
    rcases optionalField_eq_ok h.decision with ⟨-, hnone⟩ | ⟨d', hd', hsome⟩
    · rw [hd] at hnone
      cases hnone
    · obtain rfl : d = d' := Option.some.inj (hd.symm.trans hsome)
      exact normalizeDecision_valid hd'
  · intro h
    refine ⟨requireRecord_object ?_, rfl, ofText_sourceClass _, ofText_sourceRiskTier _,
      by rw [hstate, ofText_state], ⟨_, htransitions, ?_⟩, h.journal, ?_, h.decided, h.id,
      h.provenance, h.contentRef, h.extractedFields, h.riskLabels, h.scores,
      normalizeTimestampMs_eq_ok.2 ⟨hcreated, h.createdAtMs⟩⟩
    · simp only [List.forall_mem_append, forall_optionalProperty]
      simp
    · exact normalizeItems_map (fun r hr => normalizeTransitionRecord_value (h.transitions r hr)) 0
    · rw [hdecision]
      exact optionalField_getD (fun _ => rfl) fun d hd => normalizeDecision_value (h.decision d hd) _

/-! ## Valid envelopes survive serialisation -/

theorem isJson_scores {scores scores' : JsMap String JsNumber}
    (h : normalizeScores (recordValue .number scores) = .ok scores') :
    (recordValue .number scores).IsJson := by
  rw [recordValue, normalizeScores] at h
  rw [recordValue, JsValue.isJson_object]
  refine foldlM_forall ?_ h
  rintro normalized ⟨key, value⟩ normalized' hentry
  simp only [normalizeScoreEntry] at hentry
  split at hentry
  · cases hentry
  · split at hentry
    · rename_i n
      split at hentry
      · cases hentry
      · rename_i hn
        simp only [Bool.or_eq_true, Bool.not_eq_true', not_or, Bool.not_eq_false] at hn
        exact JsValue.isJson_number.2 hn.1.1
    · cases hentry

theorem isJson_provenance {hops hops' : List IntakeProvenanceHop}
    (h : normalizeProvenanceChain (.array (hops.map (·.value))) = .ok hops') :
    ∀ hop ∈ hops', hop.value.IsJson := by
  have hitems : normalizeItems normalizeProvenanceHop "provenance" 0 (hops.map (·.value)) =
      .ok hops' := by
    unfold normalizeProvenanceChain at h
    split at h
    · cases h
    · rename_i items _ heq
      obtain rfl := JsValue.array.inj heq
      split at h
      · cases h
      · exact h
    · cases h
  refine normalizeItems_forall ?_ hitems
  intro v f hop hhop
  simp only [normalizeProvenanceHop, bind_eq_ok, normalizeTimestampMs_eq_ok] at hhop
  obtain ⟨_, -, kind, -, ref, -, atMs, ⟨-, hatMs⟩, detail, -, hr⟩ := hhop
  obtain rfl := Except.ok.inj hr
  simp only [IntakeProvenanceHop.value, JsValue.isJson_object, List.forall_mem_append,
    forall_optionalProperty]
  simp [hatMs.finite]

theorem isJson_contentRef {c : IntakeContentRef} (h : normalizeContentRef v f = .ok c) :
    c.value.IsJson := by
  simp only [normalizeContentRef, bind_eq_ok] at h
  obtain ⟨_, -, store, -, ref, -, _, -, sha256, -, sizeBytes, hsize, mediaType, -, hr⟩ := h
  obtain rfl := Except.ok.inj hr
  have hfinite : ∀ n, sizeBytes = some n → n.isFinite = true := by
    rintro n rfl
    rcases optionalField_eq_ok hsize with ⟨-, hnone⟩ | ⟨m, hm, hsome⟩
    · cases hnone
    · obtain rfl := Option.some.inj hsome
      unfold normalizeSizeBytes at hm
      split at hm
      · rename_i k _
        split at hm
        · cases hm
        · rename_i hk
          obtain rfl : k = n := by simpa using hm
          simp only [Bool.or_eq_true, Bool.not_eq_true', not_or, Bool.not_eq_false] at hk
          exact isFinite_of_isInteger hk.1
      · cases hm
  simp only [IntakeContentRef.value, JsValue.isJson_object, List.forall_mem_append,
    forall_optionalProperty]
  simpa using hfinite

theorem IntakeDecision.Valid.isJson (h : d.Valid) : d.value.IsJson := by
  have hmatches : ∀ ms, d.ruleMatches = some ms → ∀ m ∈ ms, m.value.IsJson := by
    intro ms hms m hm
    have hvalid := (h.ruleMatches ms hms).valid m hm
    have hstart := isFinite_of_isInteger (safeInteger_eq_some hvalid.startOffset).2
    have hend := isFinite_of_isInteger (safeInteger_eq_some hvalid.endOffset).2
    simp [IntakeL1RuleMatchProvenance.value, hstart, hend]
  have htotal : ∀ total, d.ruleMatchTotalCount = some total → total.isFinite = true := by
    rcases h.summary with ⟨hnone, -⟩ | ⟨ms, total, -, hsome, -, hsafe, -⟩
    · simp [hnone]
    · intro total' htotal'
      obtain rfl : total = total' := Option.some.inj (hsome.symm.trans htotal')
      exact isFinite_of_isInteger (safeInteger_eq_some hsafe).2
  simp only [IntakeDecision.value, JsValue.isJson_object, List.forall_mem_append,
    forall_optionalProperty]
  refine ⟨⟨⟨?_, ?_⟩, ?_⟩, by simp⟩
  · simp [h.decidedAtMs.finite]
  · intro ms hms
    simpa using hmatches ms hms
  · simpa using htotal

theorem IntakeEnvelope.Valid.isJson (h : e.Valid) : e.value.IsJson := by
  simp only [IntakeEnvelope.value, JsValue.isJson_object, List.forall_mem_append,
    forall_optionalProperty]
  refine ⟨⟨?_, fun d hd => (h.decision d hd).isJson⟩, ?_⟩
  · have hfields : (recordValue JsValue.string e.extractedFields).IsJson := by
      rw [recordValue, JsValue.isJson_object, List.forall_mem_map]
      exact fun p _ => JsValue.isJson_string p.2
    have hone : (JsNumber.finite 1).isFinite = true := rfl
    simpa [hfields, isJson_scores h.scores, isJson_contentRef h.contentRef, hone]
      using isJson_provenance h.provenance
  · have htransitions : ∀ r ∈ e.transitions, r.value.IsJson := by
      intro r hr
      simp [IntakeEnvelopeTransitionRecord.value, (h.transitions r hr).atMs.finite]
    simpa [h.createdAtMs.finite] using htransitions

end Psfn.Intake
