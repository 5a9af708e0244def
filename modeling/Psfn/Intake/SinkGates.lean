import Psfn.Intake.Envelope

/-!
# Intake sink gates

`core/cogsec/intake/sink-gates.ts`: the pure evaluation every consequential sink runs
on the snapshots of the envelopes that cover a piece of content.

* `evaluateSinkAccess_deny` — one denied envelope denies the whole list, and an
  enforcing decision then refuses the content.
-/

namespace Psfn.Intake

open Psfn.Lib

/-! ## Snapshots -/

inductive EnforcementPosture where
  | shadow
  | enforce
deriving DecidableEq, Repr

inductive IntakeEnvelopeSubject where
  | body
  | attachment (index : JsNumber)
deriving DecidableEq

structure IntakeEnvelopeSnapshot where
  envelopeId         : String
  sourceClass        : IntakeSourceClass
  sourceRiskTier     : IntakeSourceRiskTier
  state              : IntakeEnvelopeState
  riskLabels         : List IntakeRiskLabel
  enforcementPosture : Option EnforcementPosture
  subject            : IntakeEnvelopeSubject
deriving DecidableEq

def subjectIsInvalid : IntakeEnvelopeSubject → Bool
  | .body => false
  | .attachment index => !index.isInteger || index.lt (.finite 0)

def snapshotIntakeEnvelope (envelope : IntakeEnvelope) (subject : IntakeEnvelopeSubject)
    (enforcementPosture : Option EnforcementPosture) : Except String IntakeEnvelopeSnapshot := do
  throwIf (subjectIsInvalid subject) (invalid "subject.index" "must be a non-negative integer")
  return { envelopeId := envelope.id, sourceClass := envelope.sourceClass
           sourceRiskTier := envelope.sourceRiskTier, state := envelope.state
           riskLabels := envelope.riskLabels, enforcementPosture, subject }

def resolveIntakeSnapshotEnforcementPosture (snapshots : List IntakeEnvelopeSnapshot)
    (fallback : EnforcementPosture) : EnforcementPosture :=
  if snapshots.isEmpty then fallback
  else if snapshots.all fun s => s.enforcementPosture = some .shadow then .shadow
  else if snapshots.any fun s => s.enforcementPosture = some .enforce then .enforce
  else fallback

/-! ## Policy -/

inductive IntakeSink where
  | promptAssembly | memoryWrite | wikiWrite | skillWrite | personaMutation | trustMutation
  | toolEgress
deriving DecidableEq, Repr

inductive Verdict where
  | allow
  | deny
deriving DecidableEq, Repr

def Verdict.text : Verdict → String
  | allow => "allow"
  | deny => "deny"

structure IntakeSinkRuleConfig where
  maxSourceRiskTier : IntakeSourceRiskTier
  denyRiskLabels    : List IntakeRiskLabel
  unscreened        : Verdict

inductive CogSecMode where
  | shadow | boundary | strict
deriving DecidableEq, Repr

/-- The parts of the policy the sink gate reads: the global mode and the rule of
every sink. -/
structure IntakePolicyConfig where
  mode  : CogSecMode
  sinks : IntakeSink → IntakeSinkRuleConfig

def sinkRuleForSink (policy : IntakePolicyConfig) (sink : IntakeSink) : IntakeSinkRuleConfig :=
  policy.sinks sink

/-- `assertGateMode`, through `intakeModeEnforcementPosture`. -/
def assertGateMode (policy : IntakePolicyConfig) : EnforcementPosture :=
  if policy.mode = .shadow then .shadow else .enforce

/-! ## Evaluation -/

structure IntakeSinkGateDecision where
  sink              : IntakeSink
  allowed           : Bool
  verdict           : Verdict
  mode              : EnforcementPosture
  reason            : String
  unscreened        : Bool
  deniedEnvelopeIds : List String
deriving DecidableEq

def finalizeDecision (sink : IntakeSink) (mode : EnforcementPosture) (verdict : Verdict)
    (reason : String) (unscreened : Bool) (deniedEnvelopeIds : List String) :
    IntakeSinkGateDecision :=
  { sink, allowed := if mode = .shadow then true else verdict = .allow, verdict, mode, reason
    unscreened, deniedEnvelopeIds }

def evaluateEnvelopeAtSink (policy : IntakePolicyConfig) (sink : IntakeSink)
    (envelope : IntakeEnvelopeSnapshot) : Verdict × String :=
  if !isIntakeSinkConsumableState envelope.state then
    (.deny, s!"envelope {envelope.envelopeId} state '{envelope.state.text}' is not sink-consumable "
      ++ "(quarantined content is invisible to sinks)")
  else
    let rule := sinkRuleForSink policy sink
    if compareIntakeSourceRiskTiers envelope.sourceRiskTier rule.maxSourceRiskTier > 0 then
      (.deny, s!"envelope {envelope.envelopeId} tier '{envelope.sourceRiskTier.text}' exceeds sink cap "
        ++ s!"'{rule.maxSourceRiskTier.text}' (tier order: "
        ++ " < ".intercalate (IntakeSourceRiskTier.all.map IntakeSourceRiskTier.text) ++ ")")
    else
      let deniedLabels := envelope.riskLabels.filter (· ∈ rule.denyRiskLabels)
      if deniedLabels.length > 0 then
        (.deny, s!"envelope {envelope.envelopeId} carries risk labels denied at this sink: "
          ++ "+".intercalate (deniedLabels.map IntakeRiskLabel.text))
      else
        (.allow, s!"envelope {envelope.envelopeId} released (state '{envelope.state.text}', "
          ++ s!"tier '{envelope.sourceRiskTier.text}')")

/-- The denials of a list, in order: id and reason of each denied envelope. -/
def sinkDenials (policy : IntakePolicyConfig) (sink : IntakeSink)
    (envelopes : List IntakeEnvelopeSnapshot) : List (String × String) :=
  envelopes.filterMap fun envelope =>
    let evaluated := evaluateEnvelopeAtSink policy sink envelope
    if evaluated.1 = .deny then some (envelope.envelopeId, evaluated.2) else none

def evaluateSinkAccess (policy : IntakePolicyConfig) (sink : IntakeSink)
    (envelopes : List IntakeEnvelopeSnapshot) : IntakeSinkGateDecision :=
  let globalMode := assertGateMode policy
  if envelopes.length = 0 then
    let rule := sinkRuleForSink policy sink
    finalizeDecision sink globalMode rule.unscreened
      (s!"no intake envelope covers this content; sink policy default '{rule.unscreened.text}' "
        ++ "applies")
      true []
  else
    let mode := resolveIntakeSnapshotEnforcementPosture envelopes globalMode
    let denials := sinkDenials policy sink envelopes
    if denials.length > 0 then
      finalizeDecision sink mode .deny ("; ".intercalate (denials.map Prod.snd)) false
        (denials.map Prod.fst)
    else
      finalizeDecision sink mode .allow
        s!"{envelopes.length} envelope(s) released and within sink policy" false []

/-! ## One denial denies the list -/

/-- A refusal: the verdict is deny, the envelope is named, and the content does not pass
unless the whole decision only observes. -/
structure Refuses (decision : IntakeSinkGateDecision) (envelopeId : String) : Prop where
  verdict : decision.verdict = .deny
  named   : envelopeId ∈ decision.deniedEnvelopeIds
  blocked : decision.mode = .enforce → decision.allowed = false

theorem evaluateSinkAccess_deny {policy : IntakePolicyConfig} {sink : IntakeSink}
    {envelopes : List IntakeEnvelopeSnapshot} {snap : IntakeEnvelopeSnapshot}
    (hmem : snap ∈ envelopes) (hdeny : (evaluateEnvelopeAtSink policy sink snap).1 = .deny) :
    Refuses (evaluateSinkAccess policy sink envelopes) snap.envelopeId := by
  have hne : envelopes.length ≠ 0 := fun h => by
    rw [List.length_eq_zero_iff.mp h] at hmem
    exact absurd hmem (by simp)
  have hnamed : (snap.envelopeId, (evaluateEnvelopeAtSink policy sink snap).2) ∈
      sinkDenials policy sink envelopes := by
    rw [sinkDenials, List.mem_filterMap]
    exact ⟨snap, hmem, by simp [hdeny]⟩
  have hpos : (sinkDenials policy sink envelopes).length > 0 := List.length_pos_of_mem hnamed
  simp only [evaluateSinkAccess, hne, if_false, hpos, if_true]
  refine ⟨rfl, List.mem_map.mpr ⟨_, hnamed, rfl⟩, fun hmode => ?_⟩
  simp only [finalizeDecision] at hmode ⊢
  simp [hmode]

theorem evaluateEnvelopeAtSink_unconsumable {policy : IntakePolicyConfig} {sink : IntakeSink}
    {snap : IntakeEnvelopeSnapshot} (h : isIntakeSinkConsumableState snap.state = false) :
    (evaluateEnvelopeAtSink policy sink snap).1 = .deny := by
  simp [evaluateEnvelopeAtSink, h]

theorem evaluateEnvelopeAtSink_above_cap {policy : IntakePolicyConfig} {sink : IntakeSink}
    {snap : IntakeEnvelopeSnapshot}
    (h : (policy.sinks sink).maxSourceRiskTier.rank < snap.sourceRiskTier.rank) :
    (evaluateEnvelopeAtSink policy sink snap).1 = .deny := by
  have hcap : compareIntakeSourceRiskTiers snap.sourceRiskTier
      (sinkRuleForSink policy sink).maxSourceRiskTier > 0 := by
    unfold compareIntakeSourceRiskTiers sinkRuleForSink
    omega
  -- an unconsumable state is denied before the cap is looked at
  by_cases hs : isIntakeSinkConsumableState snap.state = true
  · simp only [evaluateEnvelopeAtSink, hs, Bool.not_true, Bool.false_eq_true, if_false, if_pos hcap]
  · exact evaluateEnvelopeAtSink_unconsumable (by simpa using hs)

end Psfn.Intake
