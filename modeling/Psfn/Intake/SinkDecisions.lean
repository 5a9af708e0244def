import Psfn.Intake.SinkGates

/-!
# Sink decisions over lists of envelopes

What `evaluateSinkAccess` and `evaluateEgressTrifecta` of `core/cogsec/intake/sink-gates.ts` answer
depends on the envelopes as a set, and a refusal survives every envelope that is added.

* `refused_iff` — content is refused when some envelope is denied and some envelope, or the global
  mode for one without a posture, enforces;
* `trifecta_deny_iff` — egress is denied when private data meets an envelope of a hard tier;
* `sink_decisions_antitone` — both, over permutations and over longer lists.
-/

namespace Psfn.Intake

/-! ## The lethal trifecta -/

inductive IntakeTrifectaEnforcement where
  | soft | hard
deriving DecidableEq, Repr

def IntakeTrifectaEnforcement.text : IntakeTrifectaEnforcement → String
  | soft => "soft"
  | hard => "hard"

/-- The parts of the policy that the trifecta reads: `sinkGates.trifecta.enforcementByTier` beside
the mode. -/
structure IntakeTrifectaPolicyConfig extends IntakePolicyConfig where
  enforcementByTier : IntakeSourceRiskTier → IntakeTrifectaEnforcement

def trifectaEnforcementForTier (policy : IntakeTrifectaPolicyConfig)
    (tier : IntakeSourceRiskTier) : IntakeTrifectaEnforcement :=
  policy.enforcementByTier tier

inductive TrifectaVerdict where
  | allow | deny | review
deriving DecidableEq, Repr

structure IntakeEgressTrifectaAssessment where
  triggered      : Bool
  enforcement    : Option IntakeTrifectaEnforcement
  verdict        : TrifectaVerdict
  allowed        : Bool
  reviewRequired : Bool
  mode           : EnforcementPosture
  reason         : String
  envelopeIds    : List String
deriving DecidableEq

structure EgressTrifectaInput where
  envelopes         : List IntakeEnvelopeSnapshot
  privateDataInPath : Bool
  egressDescription : String

/-- `mode === 'shadow' || isIntakeSinkConsumableState(envelope.state)`. -/
def contentInPath (mode : EnforcementPosture) (envelopes : List IntakeEnvelopeSnapshot) :
    List IntakeEnvelopeSnapshot :=
  envelopes.filter fun envelope =>
    decide (mode = .shadow) || isIntakeSinkConsumableState envelope.state

/-- The loop over the content in the path: the enforcement and the strongest tier so far. -/
def strongestEnforcement (policy : IntakeTrifectaPolicyConfig)
    (found : IntakeTrifectaEnforcement × IntakeSourceRiskTier) (envelope : IntakeEnvelopeSnapshot) :
    IntakeTrifectaEnforcement × IntakeSourceRiskTier :=
  (if trifectaEnforcementForTier policy envelope.sourceRiskTier = .hard then .hard else found.1,
    if compareIntakeSourceRiskTiers envelope.sourceRiskTier found.2 > 0 then envelope.sourceRiskTier
    else found.2)

def notTriggered (mode : EnforcementPosture) (reason : String) (envelopeIds : List String) :
    IntakeEgressTrifectaAssessment :=
  { triggered := false, enforcement := none, verdict := .allow, allowed := true
    reviewRequired := false, mode, reason, envelopeIds }

def evaluateEgressTrifecta (policy : IntakeTrifectaPolicyConfig) (input : EgressTrifectaInput) :
    IntakeEgressTrifectaAssessment :=
  let mode := assertGateMode policy.toIntakePolicyConfig
  let content := contentInPath mode input.envelopes
  let envelopeIds := content.map IntakeEnvelopeSnapshot.envelopeId
  match content with
  | [] =>
    notTriggered mode (s!"trifecta not triggered for {input.egressDescription}: "
      ++ "no external enveloped content in the path") envelopeIds
  | firstEnvelope :: _ =>
    if input.privateDataInPath = false then
      notTriggered mode (s!"trifecta not triggered for {input.egressDescription}: "
        ++ "no private data in the path") envelopeIds
    else
      let found := content.foldl (strongestEnforcement policy) (.soft, firstEnvelope.sourceRiskTier)
      let verdict : TrifectaVerdict := if found.1 = .hard then .deny else .review
      let shadowOverridden := mode = .shadow ∧ verdict = .deny
      let reason := s!"lethal trifecta at {input.egressDescription}: "
        ++ s!"{content.length} enveloped item(s) (strongest tier '{found.2.text}') "
        ++ s!"+ private data + egress; enforcement '{found.1.text}' per trifecta.enforcementByTier"
        ++ if shadowOverridden then "; enforcement 'hard' overrides shadow mode (fail closed)" else ""
      { triggered := true, enforcement := some found.1, verdict, allowed := verdict ≠ .deny
        reviewRequired := verdict = .review, mode, reason, envelopeIds }

/-! ## When content is refused -/

section Access

variable {policy : IntakePolicyConfig} {sink : IntakeSink}
  {envelopes more : List IntakeEnvelopeSnapshot}

/-- The sink's own verdict on an envelope is a denial. -/
def SinkDenied (policy : IntakePolicyConfig) (sink : IntakeSink) (envelope : IntakeEnvelopeSnapshot) :
    Prop := (evaluateEnvelopeAtSink policy sink envelope).1 = .deny

/-- The envelope keeps the list enforcing: it says so itself, or has no posture under a global
mode that enforces. -/
def Enforces (policy : IntakePolicyConfig) (envelope : IntakeEnvelopeSnapshot) : Prop :=
  envelope.enforcementPosture = some .enforce ∨
    envelope.enforcementPosture ≠ some .shadow ∧ assertGateMode policy = .enforce

theorem resolvePosture_eq_enforce_iff (hne : envelopes ≠ []) :
    resolveIntakeSnapshotEnforcementPosture envelopes (assertGateMode policy) = .enforce ↔
      ∃ envelope ∈ envelopes, Enforces policy envelope := by
  have hnonempty : envelopes.isEmpty = false := by
    cases envelopes with
    | nil => exact absurd rfl hne
    | cons _ _ => rfl
  unfold resolveIntakeSnapshotEnforcementPosture
  rw [hnonempty, if_neg Bool.false_ne_true]
  split
  · rename_i hshadow
    refine iff_of_false (by decide) ?_
    rintro ⟨envelope, hmem, henforces⟩
    have hposture : envelope.enforcementPosture = some .shadow := by
      simpa using List.all_eq_true.1 hshadow envelope hmem
    rcases henforces with henforces | ⟨hnot, -⟩
    · rw [hposture] at henforces
      exact absurd henforces (by decide)
    · exact hnot hposture
  · rename_i hshadow
    split
    · rename_i henforce
      obtain ⟨envelope, hmem, hposture⟩ := List.any_eq_true.1 henforce
      exact iff_of_true rfl ⟨envelope, hmem, .inl (by simpa using hposture)⟩
    · rename_i henforce
      constructor
      · intro hmode
        -- not every envelope only observes
        obtain ⟨envelope, hmem, hposture⟩ : ∃ envelope ∈ envelopes,
            envelope.enforcementPosture ≠ some .shadow := by
          by_contra hnone
          push Not at hnone
          exact hshadow (List.all_eq_true.2 fun envelope hmem => by simpa using hnone envelope hmem)
        exact ⟨envelope, hmem, .inr ⟨hposture, hmode⟩⟩
      · rintro ⟨envelope, hmem, hposture | ⟨-, hmode⟩⟩
        · exact absurd (List.any_eq_true.2 ⟨envelope, hmem, by simpa using hposture⟩) henforce
        · exact hmode

theorem sinkDenials_length_pos_iff : (sinkDenials policy sink envelopes).length > 0 ↔
    ∃ envelope ∈ envelopes, SinkDenied policy sink envelope := by
  rw [gt_iff_lt, List.length_pos_iff_exists_mem]
  constructor
  · rintro ⟨denial, hdenial⟩
    obtain ⟨envelope, hmem, hsome⟩ := List.mem_filterMap.1 hdenial
    refine ⟨envelope, hmem, ?_⟩
    by_contra hallowed
    rw [SinkDenied] at hallowed
    simp only [hallowed, if_false] at hsome
    cases hsome
  · rintro ⟨envelope, hmem, hdenied⟩
    rw [SinkDenied] at hdenied
    exact ⟨(envelope.envelopeId, (evaluateEnvelopeAtSink policy sink envelope).2),
      List.mem_filterMap.2 ⟨envelope, hmem, by simp only [hdenied, if_true]⟩⟩

theorem evaluateSinkAccess_verdict (hne : envelopes ≠ []) :
    (evaluateSinkAccess policy sink envelopes).verdict = .deny ↔
      ∃ envelope ∈ envelopes, SinkDenied policy sink envelope := by
  have hlength : envelopes.length ≠ 0 := mt List.length_eq_zero_iff.1 hne
  rw [← sinkDenials_length_pos_iff, evaluateSinkAccess, if_neg hlength]
  dsimp only
  split
  · exact iff_of_true rfl ‹_›
  · exact iff_of_false (by simp [finalizeDecision]) ‹_›

/-- **Content is refused exactly when some envelope is denied and some envelope enforces.** -/
theorem refused_iff (hne : envelopes ≠ []) :
    (evaluateSinkAccess policy sink envelopes).allowed = false ↔
      (∃ envelope ∈ envelopes, Enforces policy envelope) ∧
        ∃ envelope ∈ envelopes, SinkDenied policy sink envelope := by
  have hlength : envelopes.length ≠ 0 := mt List.length_eq_zero_iff.1 hne
  rw [← resolvePosture_eq_enforce_iff hne, ← sinkDenials_length_pos_iff, evaluateSinkAccess,
    if_neg hlength]
  dsimp only
  cases resolveIntakeSnapshotEnforcementPosture envelopes (assertGateMode policy) <;> split <;>
    simp_all [finalizeDecision]

end Access

/-! ## When egress is denied -/

section Trifecta

variable {policy : IntakeTrifectaPolicyConfig} {input : EgressTrifectaInput}

theorem strongestEnforcement_hard_iff (content : List IntakeEnvelopeSnapshot)
    (found : IntakeTrifectaEnforcement × IntakeSourceRiskTier) :
    (content.foldl (strongestEnforcement policy) found).1 = .hard ↔
      found.1 = .hard ∨ ∃ envelope ∈ content, policy.enforcementByTier envelope.sourceRiskTier = .hard := by
  induction content generalizing found with
  | nil => simp
  | cons envelope rest ih =>
    rw [List.foldl_cons, ih, List.exists_mem_cons_iff, ← or_assoc]
    refine or_congr_left ?_
    unfold strongestEnforcement trifectaEnforcementForTier
    split
    · exact iff_of_true rfl (.inr ‹_›)
    · exact ⟨.inl, fun h => h.resolve_right ‹_›⟩

/-- **Egress is denied exactly when private data meets an envelope in the path whose tier is
enforced hard.** -/
theorem trifecta_deny_iff :
    (evaluateEgressTrifecta policy input).verdict = .deny ↔
      input.privateDataInPath = true ∧
        ∃ envelope ∈ contentInPath (assertGateMode policy.toIntakePolicyConfig) input.envelopes,
          policy.enforcementByTier envelope.sourceRiskTier = .hard := by
  unfold evaluateEgressTrifecta
  dsimp only
  split
  · rename_i hcontent
    rw [hcontent]
    exact iff_of_false (by simp [notTriggered]) (by simp)
  · rename_i firstEnvelope rest hcontent
    split
    · rename_i hprivate
      exact iff_of_false (by simp [notTriggered]) (by simp [hprivate])
    · rename_i hprivate
      have hfound := @strongestEnforcement_hard_iff policy (firstEnvelope :: rest)
        (.soft, firstEnvelope.sourceRiskTier)
      rw [or_iff_right (by simp)] at hfound
      dsimp only
      rw [hcontent, ← hfound]
      split
      · exact iff_of_true rfl ⟨by simpa using hprivate, ‹_›⟩
      · exact iff_of_false (by simp) fun h => absurd h.2 ‹_›

theorem trifecta_allowed_iff : (evaluateEgressTrifecta policy input).allowed = false ↔
    (evaluateEgressTrifecta policy input).verdict = .deny := by
  unfold evaluateEgressTrifecta
  dsimp only
  split
  · simp [notTriggered]
  · split
    · simp [notTriggered]
    · dsimp only
      split <;> simp

end Trifecta

/-! ## More envelopes -/

theorem exists_mem_of_subset {α : Type} {P : α → Prop} {l l' : List α} (hsub : l ⊆ l') :
    (∃ a ∈ l, P a) → ∃ a ∈ l', P a :=
  fun ⟨a, ha, hP⟩ => ⟨a, hsub ha, hP⟩

theorem ne_nil_of_subset {α : Type} {l l' : List α} (hne : l ≠ []) (hsub : l ⊆ l') : l' ≠ [] := by
  rintro rfl
  exact hne (List.subset_nil.1 hsub)

/-- A refusal survives every envelope that is added, wherever it is put. -/
theorem refused_of_subset {policy : IntakePolicyConfig} {sink : IntakeSink}
    {envelopes more : List IntakeEnvelopeSnapshot} (hne : envelopes ≠ []) (hsub : envelopes ⊆ more)
    (h : (evaluateSinkAccess policy sink envelopes).allowed = false) :
    (evaluateSinkAccess policy sink more).allowed = false := by
  obtain ⟨henforces, hdenied⟩ := (refused_iff hne).1 h
  exact (refused_iff (ne_nil_of_subset hne hsub)).2
    ⟨exists_mem_of_subset hsub henforces, exists_mem_of_subset hsub hdenied⟩

/-- **Sink decisions do not depend on the order of the envelopes, and neither an envelope that is
added nor private data turns a denial into an allowance.** -/
theorem sink_decisions_antitone :
    (∀ (policy : IntakePolicyConfig) (sink : IntakeSink)
        (envelopes envelopes' : List IntakeEnvelopeSnapshot),
      envelopes ≠ [] → envelopes.Perm envelopes' →
        (evaluateSinkAccess policy sink envelopes').allowed =
          (evaluateSinkAccess policy sink envelopes).allowed) ∧
    (∀ (policy : IntakePolicyConfig) (sink : IntakeSink)
        (envelopes more : List IntakeEnvelopeSnapshot),
      envelopes ≠ [] → envelopes ⊆ more →
        ((evaluateSinkAccess policy sink envelopes).verdict = .deny →
          (evaluateSinkAccess policy sink more).verdict = .deny) ∧
        ((evaluateSinkAccess policy sink envelopes).allowed = false →
          (evaluateSinkAccess policy sink more).allowed = false)) ∧
    ∀ (policy : IntakeTrifectaPolicyConfig) (input more : EgressTrifectaInput),
      input.envelopes ⊆ more.envelopes →
      (input.privateDataInPath = true → more.privateDataInPath = true) →
        ((evaluateEgressTrifecta policy input).verdict = .deny →
          (evaluateEgressTrifecta policy more).verdict = .deny) ∧
        ((evaluateEgressTrifecta policy input).allowed = false →
          (evaluateEgressTrifecta policy more).allowed = false) := by
  refine ⟨?_, ?_, ?_⟩
  · intro policy sink envelopes envelopes' hne hperm
    have hne' := ne_nil_of_subset hne hperm.subset
    have hrefused : (evaluateSinkAccess policy sink envelopes').allowed = false ↔
        (evaluateSinkAccess policy sink envelopes).allowed = false :=
      ⟨refused_of_subset hne' hperm.symm.subset, refused_of_subset hne hperm.subset⟩
    rw [Bool.eq_iff_iff, ← not_iff_not, Bool.not_eq_true, Bool.not_eq_true]
    exact hrefused
  · intro policy sink envelopes more hne hsub
    refine ⟨fun h => ?_, refused_of_subset hne hsub⟩
    exact (evaluateSinkAccess_verdict (ne_nil_of_subset hne hsub)).2
      (exists_mem_of_subset hsub ((evaluateSinkAccess_verdict hne).1 h))
  · intro policy input more hsub hprivate
    have hdeny : (evaluateEgressTrifecta policy input).verdict = .deny →
        (evaluateEgressTrifecta policy more).verdict = .deny := by
      intro h
      obtain ⟨hdata, hhard⟩ := trifecta_deny_iff.1 h
      exact trifecta_deny_iff.2
        ⟨hprivate hdata, exists_mem_of_subset (List.filter_subset _ hsub) hhard⟩
    exact ⟨hdeny, fun h => trifecta_allowed_iff.2 (hdeny (trifecta_allowed_iff.1 h))⟩

def strictPolicy : IntakeTrifectaPolicyConfig where
  mode := .strict
  sinks := fun _ => { maxSourceRiskTier := .standard, denyRiskLabels := [], unscreened := .deny }
  enforcementByTier := fun tier => if 2 ≤ tier.rank then .hard else .soft

def releasedSnapshot (envelopeId : String) (sourceRiskTier : IntakeSourceRiskTier)
    (enforcementPosture : Option EnforcementPosture) : IntakeEnvelopeSnapshot where
  envelopeId := envelopeId
  sourceClass := .webFetch
  sourceRiskTier := sourceRiskTier
  state := .released
  riskLabels := []
  enforcementPosture := enforcementPosture
  subject := .body

/-- A hostile page stays refused beside a trusted one that only observes. -/
theorem sink_decisions_antitone_hostile :
    (evaluateSinkAccess strictPolicy.toIntakePolicyConfig .memoryWrite
      [releasedSnapshot "note" .trusted (some .shadow), releasedSnapshot "page" .hostile none]).allowed
        = false ∧
    (evaluateEgressTrifecta strictPolicy ⟨[releasedSnapshot "note" .trusted (some .shadow),
      releasedSnapshot "page" .hostile none], true, "tool:notify"⟩).allowed = false := by
  obtain ⟨-, haccess, htrifecta⟩ := sink_decisions_antitone
  refine ⟨(haccess strictPolicy.toIntakePolicyConfig .memoryWrite
    [releasedSnapshot "page" .hostile none] _ (by decide) (by simp)).2 (by decide), ?_⟩
  exact (htrifecta strictPolicy ⟨[releasedSnapshot "page" .hostile none], true, "tool:notify"⟩ _
    (by simp) (by simp)).2 (by decide)

end Psfn.Intake
