import Psfn.Lib.Transition
import Psfn.Intake.SinkGates

/-!
# Intake taint across derivations

Envelopes are immutable: a transition and a derivation both return a new value, and
the old one can still be derived from. The system here keeps every value ever built,
as a *version* of an *item*: creation and derivation start a new item, a transition
adds a version to an existing one. Any version may be the parent of a derivation and
any version may be transitioned, in any order.

* `transition_spec`, `derive_spec` — what one operation does to tier, state and journal;
* `taint_invariant` — along every run, all versions of an item have one tier, and a
  derived item's tier is at least that of the item it came from;
* `descendant_denied` — at a sink whose cap is below an ancestor's tier, every list
  that contains a descendant is refused, and so is one that contains a derived item
  that has not been screened.
-/

namespace Psfn.Intake

open Psfn.Lib

/-! ## One operation -/

/-- A transition moves the state along a legal edge, records it, and leaves the tier. -/
theorem transition_spec {now : JsNumber} {e e' : IntakeEnvelope}
    {input : IntakeEnvelopeTransitionInput} (h : transitionIntakeEnvelope now e input = .ok e') :
    e'.sourceRiskTier = e.sourceRiskTier ∧ e'.state = input.target ∧
    isIntakeEnvelopeTransitionAllowed e.state input.target = true ∧
    ∃ record, record.target = input.target ∧ e'.transitions = e.transitions ++ [record] := by
  simp only [transitionIntakeEnvelope, bind_eq_ok, throwIf_eq_ok] at h
  obtain ⟨_, hallowed, _, -, decision, -, _, -, atMs, -, actor, -, reason, -, labels, -, scores, -,
    fields, -, hr⟩ := h
  obtain rfl := Except.ok.inj hr
  exact ⟨rfl, rfl, by simpa using hallowed, _, rfl, rfl⟩

theorem derive_spec {now : JsNumber} {uuid : String} {input : DeriveIntakeEnvelopeInput}
    {child : IntakeEnvelope} (h : deriveChildIntakeEnvelope now uuid input = .ok child) :
    child.sourceRiskTier = maxIntakeSourceRiskTier input.parent.sourceRiskTier
      (input.sourceRiskTier.getD input.parent.sourceRiskTier) ∧
    child.state = .received ∧ child.transitions = [] := by
  simp only [deriveChildIntakeEnvelope, bind_eq_ok, throwIf_eq_ok] at h
  obtain ⟨_, -, atMs, -, ref, -, id, -, contentRef, -, hr⟩ := h
  obtain rfl := Except.ok.inj hr
  exact ⟨rfl, rfl, rfl⟩

theorem create_spec {now : JsNumber} {uuid : String} {input : CreateIntakeEnvelopeInput}
    {e : IntakeEnvelope} (h : createIntakeEnvelope now uuid input = .ok e) :
    e.state = .received ∧ e.transitions = [] := by
  simp only [createIntakeEnvelope, bind_eq_ok] at h
  obtain ⟨atMs, -, hop, -, id, -, contentRef, -, hr⟩ := h
  obtain rfl := Except.ok.inj hr
  exact ⟨rfl, rfl⟩

theorem rank_le_max (a b : IntakeSourceRiskTier) : a.rank ≤ (maxIntakeSourceRiskTier a b).rank := by
  unfold maxIntakeSourceRiskTier compareIntakeSourceRiskTiers
  split <;> omega

/-! ## The system -/

/-- One envelope value: which item it is a version of, and which item that one was
derived from. -/
structure Version where
  envelope : IntakeEnvelope
  item     : Nat
  parent   : Option Nat

/-- Every value built so far; items are numbered by the versions present when they start. -/
abbrev Pool := List Version

inductive Step : Pool → Pool → Prop
  | create (p : Pool) (now : JsNumber) (uuid : String) (input : CreateIntakeEnvelopeInput)
      (e : IntakeEnvelope) (h : createIntakeEnvelope now uuid input = .ok e) :
      Step p (p ++ [⟨e, p.length, none⟩])
  | derive (p : Pool) (now : JsNumber) (uuid : String) (input : DeriveIntakeEnvelopeInput)
      (v : Version) (hv : v ∈ p) (hparent : input.parent = v.envelope) (e : IntakeEnvelope)
      (h : deriveChildIntakeEnvelope now uuid input = .ok e) :
      Step p (p ++ [⟨e, p.length, some v.item⟩])
  | transition (p : Pool) (now : JsNumber) (input : IntakeEnvelopeTransitionInput)
      (v : Version) (hv : v ∈ p) (e : IntakeEnvelope)
      (h : transitionIntakeEnvelope now v.envelope input = .ok e) :
      Step p (p ++ [⟨e, v.item, v.parent⟩])

def intakeSystem : System Pool where
  init := []
  step := Step

/-- `a` is an ancestor item of `d` in the pool. -/
inductive Ancestor (p : Pool) : Nat → Nat → Prop
  | parent {v : Version} (hv : v ∈ p) {a : Nat} (h : v.parent = some a) : Ancestor p a v.item
  | trans {a b c : Nat} (hab : Ancestor p a b) (hbc : Ancestor p b c) : Ancestor p a c

/-- The envelope's own journal records that it entered `screened`. -/
def Screened (e : IntakeEnvelope) : Prop := ∃ record ∈ e.transitions, record.target = .screened

/-- What holds of the values built so far. -/
structure TaintInvariant (p : Pool) : Prop where
  numbered : ∀ v ∈ p, v.item < p.length
  oneTier  : ∀ v ∈ p, ∀ w ∈ p, v.item = w.item →
    v.envelope.sourceRiskTier = w.envelope.sourceRiskTier
  raised   : ∀ v ∈ p, ∀ w ∈ p, v.parent = some w.item →
    w.envelope.sourceRiskTier.rank ≤ v.envelope.sourceRiskTier.rank
  known    : ∀ v ∈ p, ∀ a, v.parent = some a → a < v.item ∧ ∃ w ∈ p, w.item = a
  screened : ∀ v ∈ p, v.envelope.state = .received ∨ Screened v.envelope

/-- Adding one version to a pool: the clauses to check are those about the new one. -/
theorem TaintInvariant.append {p : Pool} (h : TaintInvariant p) {v : Version}
    (hitem : v.item ≤ p.length)
    (htier : ∀ w ∈ p, v.item = w.item → v.envelope.sourceRiskTier = w.envelope.sourceRiskTier)
    (hraised : ∀ w ∈ p, v.parent = some w.item →
      w.envelope.sourceRiskTier.rank ≤ v.envelope.sourceRiskTier.rank)
    (hknown : ∀ a, v.parent = some a → a < v.item ∧ ∃ w ∈ p, w.item = a)
    (hscreened : v.envelope.state = .received ∨ Screened v.envelope) :
    TaintInvariant (p ++ [v]) := by
  refine ⟨?_, ?_, ?_, ?_, ?_⟩
  · intro w hw
    rw [List.length_append, List.length_singleton]
    rcases List.mem_append.mp hw with hw | hw
    · have := h.numbered w hw
      omega
    · obtain rfl := List.mem_singleton.mp hw
      omega
  · intro w hw u hu heq
    rcases List.mem_append.mp hw with hw' | hw' <;> rcases List.mem_append.mp hu with hu' | hu'
    · exact h.oneTier w hw' u hu' heq
    · obtain rfl := List.mem_singleton.mp hu'
      exact (htier w hw' heq.symm).symm
    · obtain rfl := List.mem_singleton.mp hw'
      exact htier u hu' heq
    · rw [List.mem_singleton.mp hw', List.mem_singleton.mp hu']
  · intro w hw u hu heq
    rcases List.mem_append.mp hw with hw' | hw' <;> rcases List.mem_append.mp hu with hu' | hu'
    · exact h.raised w hw' u hu' heq
    · obtain rfl := List.mem_singleton.mp hu'
      -- an older version of the parent item is in the pool and has the same tier
      obtain ⟨-, x, hx, hxitem⟩ := h.known w hw' _ heq
      rw [htier x hx hxitem.symm]
      exact h.raised w hw' x hx (heq.trans (by rw [hxitem]))
    · obtain rfl := List.mem_singleton.mp hw'
      exact hraised u hu' heq
    · obtain rfl := List.mem_singleton.mp hw'
      obtain rfl := List.mem_singleton.mp hu'
      exact absurd (hknown _ heq).1 (Nat.lt_irrefl _)
  · intro w hw a ha
    rcases List.mem_append.mp hw with hw' | hw'
    · obtain ⟨hlt, u, hu, hua⟩ := h.known w hw' a ha
      exact ⟨hlt, u, List.mem_append_left _ hu, hua⟩
    · obtain rfl := List.mem_singleton.mp hw'
      obtain ⟨hlt, u, hu, hua⟩ := hknown a ha
      exact ⟨hlt, u, List.mem_append_left _ hu, hua⟩
  · intro w hw
    rcases List.mem_append.mp hw with hw' | hw'
    · exact h.screened w hw'
    · obtain rfl := List.mem_singleton.mp hw'
      exact hscreened

/-- Nothing in the pool is a version of an item that has not started. -/
theorem TaintInvariant.fresh {p : Pool} (h : TaintInvariant p) {w : Version} (hw : w ∈ p) :
    p.length ≠ w.item :=
  (Nat.ne_of_lt (h.numbered w hw)).symm

/-- Only `screened` can be entered from `received`. -/
theorem screened_of_received {target : IntakeEnvelopeState}
    (h : isIntakeEnvelopeTransitionAllowed .received target = true) : target = .screened := by
  simpa [isIntakeEnvelopeTransitionAllowed, IntakeEnvelopeState.transitions] using h

/-- **Step lemma.** -/
theorem TaintInvariant.step {p q : Pool} (h : TaintInvariant p) (hstep : Step p q) :
    TaintInvariant q := by
  cases hstep with
  | create now uuid input e he =>
    obtain ⟨hstate, -⟩ := create_spec he
    refine h.append (Nat.le_refl _) ?_ ?_ (by simp) (Or.inl hstate)
    · exact fun w hw heq => absurd heq (h.fresh hw)
    · exact fun w _ heq => absurd heq (by simp)
  | derive now uuid input v hv hparent e he =>
    obtain ⟨htier, hstate, -⟩ := derive_spec he
    refine h.append (Nat.le_refl _) ?_ ?_ ?_ (Or.inl hstate)
    · exact fun w hw heq => absurd heq (h.fresh hw)
    · intro w hw heq
      rw [← h.oneTier v hv w hw (Option.some.inj heq)]
      show _ ≤ e.sourceRiskTier.rank
      rw [htier, hparent]
      exact rank_le_max _ _
    · intro a ha
      obtain rfl := Option.some.inj ha
      exact ⟨h.numbered v hv, v, hv, rfl⟩
  | transition now input v hv e he =>
    obtain ⟨htier, hstate, hallowed, record, htarget, hjournal⟩ := transition_spec he
    refine h.append (Nat.le_of_lt (h.numbered v hv)) ?_ ?_ (h.known v hv) (Or.inr ?_)
    · exact fun w hw heq => htier.trans (h.oneTier v hv w hw heq)
    · intro w hw heq
      show _ ≤ e.sourceRiskTier.rank
      rw [htier]
      exact h.raised v hv w hw heq
    · -- either the journal already shows the screening, or this is the one edge out of `received`
      show Screened e
      rw [Screened, hjournal]
      rcases h.screened v hv with hreceived | ⟨r, hr, hrt⟩
      · rw [hreceived] at hallowed
        exact ⟨record, by simp, htarget.trans (screened_of_received hallowed)⟩
      · exact ⟨r, List.mem_append_left _ hr, hrt⟩

/-- **Run lemma.** -/
theorem taint_invariant {p : Pool} (h : intakeSystem.Reachable p) : TaintInvariant p := by
  refine System.invariant ?_ (fun _ _ hp hst => hp.step hst) h
  exact ⟨by simp [intakeSystem], by simp [intakeSystem], by simp [intakeSystem],
    by simp [intakeSystem], by simp [intakeSystem]⟩

/-! ## Ancestors and sinks -/

theorem Ancestor.exists_version {p : Pool} {a d : Nat} (h : Ancestor p a d) :
    ∃ v ∈ p, v.item = d := by
  induction h with
  | @parent u hu _ _ => exact ⟨u, hu, rfl⟩
  | trans _ _ _ ih => exact ih

/-- Every version of an ancestor is at most as risky as every version of a descendant. -/
theorem TaintInvariant.ancestor_rank_le {p : Pool} (h : TaintInvariant p) {a d : Nat}
    (had : Ancestor p a d) : ∀ v ∈ p, ∀ w ∈ p, v.item = a → w.item = d →
    v.envelope.sourceRiskTier.rank ≤ w.envelope.sourceRiskTier.rank := by
  induction had with
  | @parent u hu a hparent =>
    intro v hv w hw hva hwd
    subst hva
    rw [h.oneTier w hw u hu hwd]
    exact h.raised u hu v hv hparent
  | @trans a b c hab hbc ih₁ ih₂ =>
    intro v hv w hw hva hwc
    -- some version of the item in between is in the pool
    obtain ⟨x, hx, hxb⟩ := hab.exists_version
    exact Int.le_trans (ih₁ v hv x hx hva hxb) (ih₂ x hx w hw hxb hwc)

theorem snapshot_spec {e : IntakeEnvelope} {subject : IntakeEnvelopeSubject}
    {posture : Option EnforcementPosture} {snap : IntakeEnvelopeSnapshot}
    (h : snapshotIntakeEnvelope e subject posture = .ok snap) :
    snap.sourceRiskTier = e.sourceRiskTier ∧ snap.state = e.state ∧ snap.envelopeId = e.id := by
  simp only [snapshotIntakeEnvelope, bind_eq_ok] at h
  obtain ⟨_, -, hr⟩ := h
  obtain rfl := Except.ok.inj hr
  exact ⟨rfl, rfl, rfl⟩

/-- **Taint is monotone and fails closed.** In every pool built by any run: a descendant
is never less risky than an ancestor; a sink whose cap is below an ancestor's tier
refuses every list containing a descendant, in whatever state; and every sink refuses a
list containing a derived item whose journal shows no screening. -/
theorem descendant_denied {p : Pool} (h : intakeSystem.Reachable p) :
    (∀ a ∈ p, ∀ d ∈ p, Ancestor p a.item d.item →
      a.envelope.sourceRiskTier.rank ≤ d.envelope.sourceRiskTier.rank ∧
      ∀ policy sink envelopes subject posture snap,
        snapshotIntakeEnvelope d.envelope subject posture = .ok snap → snap ∈ envelopes →
        (policy.sinks sink).maxSourceRiskTier.rank < a.envelope.sourceRiskTier.rank →
        Refuses (evaluateSinkAccess policy sink envelopes) d.envelope.id) ∧
    (∀ d ∈ p, d.parent.isSome → ¬ Screened d.envelope →
      ∀ policy sink envelopes subject posture snap,
        snapshotIntakeEnvelope d.envelope subject posture = .ok snap → snap ∈ envelopes →
        Refuses (evaluateSinkAccess policy sink envelopes) d.envelope.id) := by
  have hinv := taint_invariant h
  refine ⟨fun a ha d hd had => ?_, fun d hd _ hns => ?_⟩
  · have hle := hinv.ancestor_rank_le had a ha d hd rfl rfl
    refine ⟨hle, fun policy sink envelopes subject posture snap hsnap hmem hcap => ?_⟩
    obtain ⟨htier, -, hid⟩ := snapshot_spec hsnap
    rw [← hid]
    apply evaluateSinkAccess_deny hmem
    apply evaluateEnvelopeAtSink_above_cap
    rw [htier]
    exact Int.lt_of_lt_of_le hcap hle
  · intro policy sink envelopes subject posture snap hsnap hmem
    obtain ⟨-, hstate, hid⟩ := snapshot_spec hsnap
    have hreceived : d.envelope.state = .received := (hinv.screened d hd).resolve_right hns
    rw [← hid]
    apply evaluateSinkAccess_deny hmem
    apply evaluateEnvelopeAtSink_unconsumable
    rw [hstate, hreceived]
    rfl

/-! ### A two-item pool -/

def sampleContentRef : IntakeContentRef where
  store := "gateway-quarantine"
  ref := "blob-1"

def samplePage : IntakeEnvelope where
  id := "envelope-1"
  sourceClass := .webFetch
  provenance := [{ kind := .source .webFetch, ref := "https://example.org", atMs := .finite 5 }]
  sourceRiskTier := .untrusted
  contentRef := sampleContentRef
  extractedFields := JsMap.empty
  riskLabels := []
  scores := JsMap.empty
  decision := none
  state := .received
  createdAtMs := .finite 5
  transitions := []

def sampleSummary : IntakeEnvelope :=
  { samplePage with
    id := "envelope-2"
    sourceClass := .subagentOutput
    provenance := samplePage.provenance ++
      [{ kind := .derivation, ref := "intake-envelope:envelope-1", atMs := .finite 5,
         detail := some "summary" }] }

theorem create_samplePage : createIntakeEnvelope (.finite 5) "envelope-1"
    { sourceClass := .webFetch, sourceRiskTier := .untrusted, contentRef := sampleContentRef,
      originRef := "https://example.org" } = .ok samplePage := by
  decide +kernel

/-- The caller asks for a trusted tier; the parent's is kept. -/
theorem derive_sampleSummary : deriveChildIntakeEnvelope (.finite 5) "envelope-2"
    { parent := samplePage, derivation := .summary, sourceClass := .subagentOutput,
      contentRef := sampleContentRef, sourceRiskTier := some .trusted } = .ok sampleSummary := by
  decide +kernel

def samplePool : Pool := [⟨samplePage, 0, none⟩, ⟨sampleSummary, 1, some 0⟩]

theorem samplePool_reachable : intakeSystem.Reachable samplePool := by
  have h₁ : intakeSystem.Reachable [⟨samplePage, 0, none⟩] :=
    System.Reachable.next (s := []) Relation.ReflTransGen.refl
      (Step.create [] (.finite 5) "envelope-1" _ samplePage create_samplePage)
  exact h₁.next (Step.derive _ (.finite 5) "envelope-2" _ ⟨samplePage, 0, none⟩
    (List.mem_singleton.mpr rfl) rfl sampleSummary derive_sampleSummary)

/-- The summary of the untrusted page is refused where the cap is `standard`. -/
theorem sampleSummary_denied :
    intakeSystem.Reachable samplePool ∧
    Refuses (evaluateSinkAccess
      { mode := .strict
        sinks := fun _ => { maxSourceRiskTier := .standard, denyRiskLabels := [],
                            unscreened := .deny } }
      .memoryWrite
      [{ envelopeId := "envelope-2", sourceClass := .subagentOutput, sourceRiskTier := .untrusted,
         state := .received, riskLabels := [], enforcementPosture := none, subject := .body }])
      "envelope-2" :=
  ⟨samplePool_reachable,
    ((descendant_denied samplePool_reachable).1 ⟨samplePage, 0, none⟩ (by simp [samplePool])
      ⟨sampleSummary, 1, some 0⟩ (by simp [samplePool])
      (Ancestor.parent (v := ⟨sampleSummary, 1, some 0⟩) (by simp [samplePool]) rfl)).2
      _ .memoryWrite _ .body none _ rfl (List.mem_singleton.mpr rfl) (by decide)⟩

end Psfn.Intake
