import Psfn.Intake.EnvelopeRun

/-!
# Intake envelopes — state against decision

`transitionIntakeEnvelope` keeps an envelope's state and its decision in step: a
screening decision routes to the one state its action names, and a `human_*` state is
entered with a human decision. `validateIntakeEnvelope` re-reads both from a record and
compares neither with the other: past `received` it asks for a decision, of any kind.

* `Routed`, `made_routed` — what the transition machine leaves, over every run;
* `reload_any_decision` — the validator takes any well-formed decision with any journal;
* `reload_coherent_iff` — so an accepted record is coherent exactly when its own texts
  are, `misrouted` listing the pairs that are not.
-/

namespace Psfn.Intake

open Psfn.Lib

/-! ## Coherence -/

/-- State and decision agree: a routed state is the one the action routes to, and a
human release carries a human decision to release that way. -/
def DecisionCoherent (e : IntakeEnvelope) : Prop :=
  match e.state with
  | .released | .releasedSanitized | .quarantined =>
    ∃ d, e.decision = some d ∧ postScreeningStateForDecision d.action = e.state
  | .humanReleased => ∃ d, e.decision = some d ∧ d.decidedBy = .human ∧ d.action = .pass
  | .humanReleasedSanitized =>
    ∃ d, e.decision = some d ∧ d.decidedBy = .human ∧ d.action = .sanitize
  | _ => True

/-! ## What the machine leaves -/

def isPostScreeningState (s : IntakeEnvelopeState) : Bool :=
  s = .released || s = .releasedSanitized || s = .quarantined

/-- The decision an envelope carries is one its state was entered with. -/
structure Routed (e : IntakeEnvelope) : Prop where
  screened : e.state = .screened → ∃ d, e.decision = some d ∧ d.decidedBy ≠ .human
  routed   : isPostScreeningState e.state = true → ∃ d, e.decision = some d ∧
    postScreeningStateForDecision d.action = e.state ∧ d.decidedBy ≠ .human
  human    : isHumanState e.state = true → ∃ d, e.decision = some d ∧ d.decidedBy = .human

theorem Routed.of_received {e : IntakeEnvelope} (h : e.state = .received) : Routed e := by
  constructor <;> simp [h, isPostScreeningState, isHumanState]

/-- Which decision a transition leaves, by the state it enters. -/
theorem nextDecision_cases {e : IntakeEnvelope} {input : IntakeEnvelopeTransitionInput}
    {decision : Option IntakeDecision} (h : nextDecision e input = .ok decision) :
    (input.target = .screened ∧ ∃ d, decision = some d ∧ d.decidedBy ≠ .human) ∨
    (isHumanState input.target = true ∧ ∃ d, decision = some d ∧ d.decidedBy = .human) ∨
    (input.target ≠ .screened ∧ isHumanState input.target = false ∧ decision = e.decision) := by
  unfold nextDecision at h
  split at h
  · rename_i htarget
    simp only [bind_eq_ok, throwIf_eq_ok, decide_eq_false_iff_not] at h
    obtain ⟨given, -, d, -, _, hhuman, hr⟩ := h
    exact .inl ⟨htarget, d, (Except.ok.inj hr).symm, hhuman⟩
  · rename_i hscreened
    split at h
    · rename_i htarget
      simp only [bind_eq_ok, throwIf_eq_ok, decide_eq_false_iff_not, ne_eq, not_not] at h
      obtain ⟨given, -, d, -, _, hhuman, hr⟩ := h
      exact .inr (.inl ⟨htarget, d, (Except.ok.inj hr).symm, hhuman⟩)
    · rename_i hhuman
      split at h
      · cases h
      · exact .inr (.inr ⟨hscreened, by simpa using hhuman, (Except.ok.inj h).symm⟩)

/-- **Step lemma.** A transition leaves state and decision in step. -/
theorem Routed.transition {now : JsNumber} {e e' : IntakeEnvelope}
    {input : IntakeEnvelopeTransitionInput} (he : Routed e)
    (h : transitionIntakeEnvelope now e input = .ok e') : Routed e' := by
  obtain ⟨hallowed, decision, -, -, -, -, -, -, hdecision, hrouting, -, -, -, -, -, -, rfl⟩ :=
    transitionIntakeEnvelope_eq_ok h
  rcases nextDecision_cases hdecision with ⟨htarget, hd⟩ | ⟨htarget, hd⟩ | ⟨hs, hh, rfl⟩
  · refine ⟨fun _ => hd, ?_, ?_⟩ <;> simp [htarget, isPostScreeningState, isHumanState]
  · refine ⟨?_, ?_, fun _ => hd⟩
    · intro hscreened
      rw [show input.target = .screened from hscreened] at htarget
      cases htarget
    · intro hpost
      exfalso
      cases htarget' : input.target <;> simp_all [isHumanState, isPostScreeningState]
  · refine ⟨fun hscreened => absurd hscreened hs, fun hpost => ?_, fun hhuman => ?_⟩
    · -- only `screened` leads to these three, and from there the routing is checked
      have hstate : e.state = .screened := by
        cases hsource : e.state <;> cases htarget : input.target <;>
          simp_all [isPostScreeningState, isIntakeEnvelopeTransitionAllowed,
            IntakeEnvelopeState.transitions]
      obtain ⟨d, hd, hdecided⟩ := he.screened hstate
      simp only [checkRouting, hstate, if_true, hd] at hrouting
      split at hrouting
      · cases hrouting
      · rename_i hexpected
        exact ⟨d, hd, (not_not.1 hexpected).symm, hdecided⟩
    · rw [hh] at hhuman
      cases hhuman

/-- The envelopes the machine makes, with none read back from a record. -/
inductive Made : IntakeEnvelope → Prop
  | create {now : JsNumber} {uuid : String} {input : CreateIntakeEnvelopeInput}
      {e : IntakeEnvelope} (h : createIntakeEnvelope now uuid input = .ok e) : Made e
  | derive {now : JsNumber} {uuid : String} {input : DeriveIntakeEnvelopeInput}
      {e : IntakeEnvelope} (hparent : Made input.parent)
      (h : deriveChildIntakeEnvelope now uuid input = .ok e) : Made e
  | transition {now : JsNumber} {input : IntakeEnvelopeTransitionInput} {e e' : IntakeEnvelope}
      (he : Made e) (h : transitionIntakeEnvelope now e input = .ok e') : Made e'

/-- **Run lemma.** Over every run of the machine the decision fits the state, as far as
the machine looks: which way a human releases is not compared with the action. -/
theorem made_routed {e : IntakeEnvelope} (h : Made e) : Routed e := by
  induction h with
  | create h =>
    simp only [createIntakeEnvelope, bind_eq_ok] at h
    obtain ⟨atMs, -, hop, -, id, -, contentRef, -, hr⟩ := h
    obtain rfl := Except.ok.inj hr
    exact .of_received rfl
  | derive _ h =>
    simp only [deriveChildIntakeEnvelope, bind_eq_ok] at h
    obtain ⟨_, -, atMs, -, ref, -, id, -, contentRef, -, hr⟩ := h
    obtain rfl := Except.ok.inj hr
    exact .of_received rfl
  | transition _ h ih => exact ih.transition h

/-! ## What the validator takes -/

/-- Past `received`, any well-formed decision passes with any journal. -/
theorem reload_any_decision {v : JsValue} {e : IntakeEnvelope}
    (h : validateIntakeEnvelope v = .ok e) (hstate : e.state ≠ .received) {d : IntakeDecision}
    (hd : d.Valid) :
    validateIntakeEnvelope { e with decision := some d }.value.json =
      .ok { e with decision := some d } := by
  have he : e.Valid := .loaded h
  have hvalid : { e with decision := some d }.Valid :=
    { he with
      decision := fun d' hd' => Option.some.inj hd' ▸ hd
      decided := iff_of_false (Option.some_ne_none d) hstate }
  rw [JsValue.json_eq_self hvalid.isJson]
  exact validateIntakeEnvelope_value_iff.2 hvalid

theorem ofText_eq_some {α : Type} {all : List α} {text : α → String} {v : JsValue} {a : α}
    (h : ofText all text v = some a) : v = .string (text a) := by
  cases v with
  | string s =>
    rw [ofText] at h
    have := List.find?_some h
    rw [decide_eq_true_eq] at this
    rw [this]
  | _ => cases h

/-- The text of a field, empty when it is not a text. -/
def rawText : JsValue → String
  | .string s => s
  | _ => ""

/-- The record pairs a state with a decision that does not lead there. -/
def misrouted (record : JsValue) : Bool :=
  let action := rawText ((record.property "decision").property "action")
  let decidedBy := rawText ((record.property "decision").property "decidedBy")
  match rawText (record.property "state") with
  | "released" => action ≠ "pass"
  | "released_sanitized" => action ≠ "sanitize"
  | "quarantined" => action = "pass" || action = "sanitize"
  | "human_released" => decidedBy ≠ "human" || action ≠ "pass"
  | "human_released_sanitized" => decidedBy ≠ "human" || action ≠ "sanitize"
  | _ => false

/-- The texts of a record's decision are those of the decision read from it. -/
theorem normalizeDecision_texts {v : JsValue} {f : String} {d : IntakeDecision}
    (h : normalizeDecision v f = .ok d) :
    v.property "action" = .string d.action.text ∧
      v.property "decidedBy" = .string d.decidedBy.text := by
  simp only [normalizeDecision, bind_eq_ok, orThrow_eq_ok] at h
  obtain ⟨_, -, action, haction, decidedBy, hdecidedBy, ms, -, summary, -, reason, -, at', -, hr⟩ :=
    h
  obtain rfl := Except.ok.inj hr
  exact ⟨ofText_eq_some haction, ofText_eq_some hdecidedBy⟩

/-- **Which accepted records are coherent.** The validator compares state and decision in
no record it accepts: what it returns is coherent exactly when the texts of the record
pair a state with a decision that leads there. -/
theorem reload_coherent_iff {v : JsValue} {e : IntakeEnvelope}
    (h : validateIntakeEnvelope v = .ok e) : DecisionCoherent e ↔ misrouted v = false := by
  have hv := validateIntakeEnvelope_eq_ok.1 h
  have hstate := ofText_eq_some hv.state
  by_cases hreceived : e.state = .received
  · simp [DecisionCoherent, misrouted, hstate, hreceived, rawText, IntakeEnvelopeState.text]
  · -- past `received` there is a decision, and it was read from the record
    rcases optionalField_eq_ok hv.decision with ⟨-, hnone⟩ | ⟨d, hd, hsome⟩
    · exact absurd (hv.decided.1 hnone) hreceived
    · obtain ⟨haction, hdecidedBy⟩ := normalizeDecision_texts hd
      simp only [DecisionCoherent, misrouted, hstate, haction, hdecidedBy, rawText, hsome,
        Option.some.injEq, exists_eq_left']
      cases e.state <;> cases d.action <;> cases d.decidedBy <;> decide

/-! ## A blocked item presented as released -/

/-- A journal that went through screening to release. -/
def releasedJournal : List IntakeEnvelopeTransitionRecord :=
  [{ source := .received, target := .screened, atMs := .finite 2, actor := "gateway", reason := "s" },
    { source := .screened, target := .released, atMs := .finite 3, actor := "gateway", reason := "r" }]

/-- The sample envelope released, with a screening decision of the given action. -/
def releasedWith (action : IntakeDecisionAction) : IntakeEnvelope :=
  { sampleReceived with
    state := .released
    transitions := releasedJournal
    decision := some { action, reason := "rule", decidedBy := .screening, decidedAtMs := .finite 2 } }

/-- Screened clean and released. -/
theorem reload_coherent_pass :
    validateIntakeEnvelope (releasedWith .pass).value = .ok (releasedWith .pass) ∧
      DecisionCoherent (releasedWith .pass) := by
  have h : validateIntakeEnvelope (releasedWith .pass).value = .ok (releasedWith .pass) := by
    decide +kernel
  exact ⟨h, (reload_coherent_iff h).2 (by decide +kernel)⟩

/-- The same record with its decision edited to `block`: accepted, and consumable at a sink. -/
theorem reload_blocked_released :
    ¬ (∀ v e, validateIntakeEnvelope v = .ok e → DecisionCoherent e) ∧
      validateIntakeEnvelope (releasedWith .block).value = .ok (releasedWith .block) ∧
      isIntakeSinkConsumableState (releasedWith .block).state = true ∧
      postScreeningStateForDecision .block = .quarantined := by
  have h : validateIntakeEnvelope (releasedWith .block).value = .ok (releasedWith .block) := by
    decide +kernel
  refine ⟨fun hall => ?_, h, rfl, rfl⟩
  obtain ⟨d, hd, hrouted⟩ := hall _ _ h
  obtain rfl := Option.some.inj hd
  cases hrouted

end Psfn.Intake
