import Psfn.Intake.Quarantine
import Psfn.Intake.EnvelopeRun

/-!
# Quarantine store — what each operation does to an entry

`IntakeQuarantineEntry.WellFormed` says of an entry in memory what the loader will ask of it
in the file, together with what the operations maintain: status and envelope state match,
and terminal entries that were not released carry no text. `Follows` and `Retains` say what
an operation may change in an entry.

* `expireEntry_spec`, `decideEntry_spec`, `redeliver_retains`, `addAttempt_retains` — how
  the entry after an operation relates to the one before.
* `expireEntry_wellFormed`, `decideEntry_wellFormed`, `redeliver_wellFormed`,
  `addAttempt_wellFormed`, `heldEntry_wellFormed` — what the operations produce is well
  formed, given what they do not check themselves.
-/

namespace Psfn.Intake

open Psfn.Lib

/-! ## Well-formed entries -/

/-- The envelope state a status goes with. -/
def IntakeQuarantineEntryStatus.envelopeState : IntakeQuarantineEntryStatus → IntakeEnvelopeState
  | held => .quarantined
  | releasedRaw => .humanReleased
  | releasedSanitized => .humanReleasedSanitized
  | discarded => .discarded
  | expired => .expired

/-- No content is left in the entry. -/
def IntakeQuarantineEntry.Scrubbed (e : IntakeQuarantineEntry) : Prop :=
  e.rawText = "" ∧ ∀ text, e.safeRepresentationText = some text → text = ""

structure IntakeQuarantineAccessAttempt.WellFormed (a : IntakeQuarantineAccessAttempt) : Prop where
  path : JsString.trim a.path ≠ ""
  via  : JsString.trim a.via ≠ ""
  atMs : a.atMs.isFinite = true

structure IntakeQuarantineDecisionRecord.WellFormed (d : IntakeQuarantineDecisionRecord) : Prop where
  actor  : JsString.trim d.actor ≠ ""
  reason : JsString.trim d.reason ≠ ""
  atMs   : d.atMs.isFinite = true

/-- An `entryId` the loader accepts. -/
def IsEntryId (entryId : Option (Option JsNumber)) : Prop :=
  ∀ n, entryId = some (some n) → n.isInteger = true

structure IntakeQuarantineRedeliveryRecord.WellFormed (r : IntakeQuarantineRedeliveryRecord) :
    Prop where
  attemptedAtMs    : r.attemptedAtMs.isFinite = true
  channelId        : ∀ s, r.channelId = some s → JsString.trim s ≠ ""
  logicalSessionId : ∀ s, r.logicalSessionId = some s → JsString.trim s ≠ ""
  entryId          : IsEntryId r.entryId
  reason           : ∀ s, r.reason = some s → JsString.trim s ≠ ""

structure IntakeQuarantineEntry.WellFormed (e : IntakeQuarantineEntry) : Prop where
  envelopeId         : e.envelope.id = e.id
  envelope           : e.envelope.Valid
  state              : e.envelope.state = e.status.envelopeState
  scrubbed           : e.status = .discarded ∨ e.status = .expired → e.Scrubbed
  heldAtMs           : e.heldAtMs.isFinite = true
  expiresAtMs        : e.expiresAtMs.isFinite = true
  artifactPaths      : ∀ paths, e.artifactPaths = some paths →
    paths.length ≤ maxArtifactPaths ∧ ∀ path ∈ paths, JsString.trim path ≠ ""
  artifactIdentities : ∀ identities, e.artifactIdentities = some identities →
    identities.length ≤ maxArtifactPaths ∧ ∀ i ∈ identities, isArtifactIdentity i = true
  accessAttempts     : ∀ attempts, e.accessAttempts = some attempts → ∀ a ∈ attempts, a.WellFormed
  decision           : ∀ d, e.decision = some d → d.WellFormed
  redelivery         : ∀ r, e.redelivery = some r →
    r.WellFormed ∧ (e.status = .releasedRaw ∨ e.status = .releasedSanitized)

/-! ## What an operation may do to an entry -/

/-- An operation on a stored entry: it keeps its identity and its artifacts, and a terminal
status stays. -/
structure Follows (e e' : IntakeQuarantineEntry) : Prop where
  id                 : e'.id = e.id
  heldAtMs           : e'.heldAtMs = e.heldAtMs
  artifactPaths      : e'.artifactPaths = e.artifactPaths
  artifactIdentities : e'.artifactIdentities = e.artifactIdentities
  terminal           : e.status ≠ .held → e'.status = e.status

/-- The entry gates its artifacts as before. -/
def SameGate (e e' : IntakeQuarantineEntry) : Prop :=
  isIntakeSinkConsumableState e'.envelope.state = isIntakeSinkConsumableState e.envelope.state

/-- `Follows` without a change of the gate: every operation but a release. -/
def Retains (e e' : IntakeQuarantineEntry) : Prop := Follows e e' ∧ SameGate e e'

theorem Follows.refl (e : IntakeQuarantineEntry) : Follows e e := ⟨rfl, rfl, rfl, rfl, fun _ => rfl⟩

theorem Follows.trans {e e' e'' : IntakeQuarantineEntry} (h : Follows e e') (h' : Follows e' e'') :
    Follows e e'' := by
  refine ⟨h'.id.trans h.id, h'.heldAtMs.trans h.heldAtMs, h'.artifactPaths.trans h.artifactPaths,
    h'.artifactIdentities.trans h.artifactIdentities, ?_⟩
  intro hterminal
  have hstatus := h.terminal hterminal
  rw [h'.terminal (hstatus ▸ hterminal), hstatus]

theorem Retains.refl (e : IntakeQuarantineEntry) : Retains e e := ⟨Follows.refl e, rfl⟩

theorem Retains.trans {e e' e'' : IntakeQuarantineEntry} (h : Retains e e') (h' : Retains e' e'') :
    Retains e e'' := ⟨h.1.trans h'.1, Eq.trans h'.2 h.2⟩

/-- Status and envelope state match, and the entry goes by its envelope's id. -/
structure IntakeQuarantineEntry.Tracked (e : IntakeQuarantineEntry) : Prop where
  envelopeId : e.envelope.id = e.id
  state      : e.envelope.state = e.status.envelopeState

theorem IntakeQuarantineEntry.WellFormed.tracked {e : IntakeQuarantineEntry} (h : e.WellFormed) :
    e.Tracked := ⟨h.envelopeId, h.state⟩

theorem IntakeQuarantineEntry.WellFormed.redelivery_ne_some {e : IntakeQuarantineEntry}
    (he : e.WellFormed) (hheld : e.status = .held) (r : IntakeQuarantineRedeliveryRecord) :
    e.redelivery ≠ some r := by
  intro hr
  simpa [hheld] using (he.redelivery r hr).2

/-! ### Expiry -/

/-- What the transitions of this store leave of an envelope. -/
theorem storeTransition_spec {e e' : IntakeEnvelope} {target : IntakeEnvelopeState}
    {actor reason : String} {atMs : JsNumber} {decision : Option IntakeDecision}
    (h : transitionIntakeEnvelope atMs e
      { target, actor, reason, atMs := some atMs, decision } = .ok e') :
    e'.id = e.id ∧ e'.state = target ∧ IsTimestamp atMs ∧ (e.Valid → e'.Valid) := by
  have hvalid : e.Valid → e'.Valid := fun he =>
    he.transition (fun hnone => by cases hnone) h
  obtain ⟨-, _, _, _, _, _, _, _, -, -, hatMs, -, -, -, -, -, rfl⟩ :=
    transitionIntakeEnvelope_eq_ok h
  rw [resolveAtMs] at hatMs
  have htimestamp := normalizeTimestampMs_eq_ok.1 hatMs
  obtain rfl := JsValue.number.inj htimestamp.1
  exact ⟨rfl, rfl, htimestamp.2, hvalid⟩

theorem expireEntry_spec {e e' : IntakeQuarantineEntry} {atMs : JsNumber} {reason : String}
    (he : e.Tracked) (hheld : e.status = .held) (h : expireEntry e atMs reason = .ok e') :
    e'.Tracked ∧ Retains e e' ∧ e'.status = .expired := by
  rw [expireEntry, bind_eq_ok] at h
  obtain ⟨envelope, henvelope, hr⟩ := h
  obtain rfl := Except.ok.inj hr
  obtain ⟨hid, hstate, -, -⟩ := storeTransition_spec henvelope
  refine ⟨⟨hid.trans he.envelopeId, hstate⟩, ⟨⟨rfl, rfl, rfl, rfl,
    fun hterminal => absurd hheld hterminal⟩, ?_⟩, rfl⟩
  rw [SameGate, hstate, he.state, hheld]
  rfl

theorem expireEntry_wellFormed {e e' : IntakeQuarantineEntry} {atMs : JsNumber} {reason : String}
    (he : e.WellFormed) (hheld : e.status = .held) (h : expireEntry e atMs reason = .ok e') :
    e'.WellFormed := by
  rw [expireEntry, bind_eq_ok] at h
  obtain ⟨envelope, henvelope, hr⟩ := h
  obtain rfl := Except.ok.inj hr
  obtain ⟨hid, hstate, -, hvalid⟩ := storeTransition_spec henvelope
  refine ⟨hid.trans he.envelopeId, hvalid he.envelope, hstate, ?_, he.heldAtMs, he.expiresAtMs,
    he.artifactPaths, he.artifactIdentities, he.accessAttempts, he.decision, ?_⟩
  · refine fun _ => ⟨rfl, ?_⟩
    intro text htext
    obtain ⟨_, -, hempty⟩ := Option.map_eq_some_iff.1 htext
    exact hempty.symm
  · intro r hr
    exact absurd hr (he.redelivery_ne_some hheld r)

/-! ### Decisions -/

theorem IntakeQuarantineDecisionAction.envelopeState_status
    (a : IntakeQuarantineDecisionAction) : a.status.envelopeState = a.envelopeState := by
  cases a <;> rfl

theorem decideEntry_spec {input : IntakeQuarantineDecisionInput} {actor reason : String}
    {atMs : JsNumber} {e e' : IntakeQuarantineEntry} (he : e.Tracked)
    (h : decideEntry input actor reason atMs e = .ok e') :
    e.status = .held ∧ e'.Tracked ∧ Follows e e' ∧
      (isIntakeSinkConsumableState e'.envelope.state = false → SameGate e e') := by
  simp only [decideEntry, bind_eq_ok, throwIf_eq_ok] at h
  obtain ⟨_, hheld, _, -, _, -, envelope, henvelope, hr⟩ := h
  obtain rfl := Except.ok.inj hr
  have hheld : e.status = .held := by simpa using hheld
  obtain ⟨hid, hstate, -, -⟩ := storeTransition_spec henvelope
  refine ⟨hheld, ⟨hid.trans he.envelopeId, ?_⟩, ⟨rfl, rfl, rfl, rfl,
    fun hterminal => absurd hheld hterminal⟩, ?_⟩
  · exact hstate.trans (IntakeQuarantineDecisionAction.envelopeState_status input.action).symm
  · intro hblocked
    rw [SameGate, hblocked, he.state, hheld]
    rfl

theorem decideEntry_wellFormed {input : IntakeQuarantineDecisionInput} {actor reason : String}
    {atMs : JsNumber} {e e' : IntakeQuarantineEntry} (he : e.WellFormed)
    (hactor : JsString.trim actor ≠ "") (hreason : JsString.trim reason ≠ "")
    (h : decideEntry input actor reason atMs e = .ok e') : e'.WellFormed := by
  obtain ⟨hheld, htracked, -, -⟩ := decideEntry_spec he.tracked h
  simp only [decideEntry, bind_eq_ok, throwIf_eq_ok] at h
  obtain ⟨_, -, _, -, _, -, envelope, henvelope, hr⟩ := h
  obtain rfl := Except.ok.inj hr
  obtain ⟨-, -, hatMs, hvalid⟩ := storeTransition_spec henvelope
  refine ⟨htracked.envelopeId, hvalid he.envelope, htracked.state, ?_, he.heldAtMs, he.expiresAtMs,
    he.artifactPaths, he.artifactIdentities, he.accessAttempts, ?_, ?_⟩
  · -- of the three actions only a discard ends in a scrubbed status
    intro hscrubs
    have hdiscard : input.action = .discard := by
      cases ha : input.action <;> simp_all [IntakeQuarantineDecisionAction.status]
    refine ⟨if_pos hdiscard, ?_⟩
    intro text htext
    dsimp only at htext
    rw [if_pos hdiscard] at htext
    obtain ⟨_, -, hempty⟩ := Option.map_eq_some_iff.1 htext
    exact hempty.symm
  · intro d hd
    obtain rfl := Option.some.inj hd
    exact ⟨hactor, hreason, hatMs.finite⟩
  · intro r hr
    exact absurd hr (he.redelivery_ne_some hheld r)

/-! ### Redelivery and access attempts -/

theorem redeliver_retains (input : IntakeQuarantineRedeliveryInput) (e : IntakeQuarantineEntry) :
    Retains e { e with redelivery := some (redeliveryRecord input) } :=
  ⟨⟨rfl, rfl, rfl, rfl, fun _ => rfl⟩, rfl⟩

theorem redeliver_wellFormed {input : IntakeQuarantineRedeliveryInput} {e : IntakeQuarantineEntry}
    (he : e.WellFormed) (hcheck : checkRedelivery input = .ok ())
    (hentryId : IsEntryId input.entryId)
    (hstatus : e.status = .releasedRaw ∨ e.status = .releasedSanitized) :
    ({ e with redelivery := some (redeliveryRecord input) } : IntakeQuarantineEntry).WellFormed := by
  simp only [checkRedelivery, bind_eq_ok, throwIf_eq_ok] at hcheck
  obtain ⟨_, hfinite, _, hchannel, _, hsession, hreason⟩ := hcheck
  have hfinite : input.attemptedAtMs.isFinite = true := by simpa using hfinite
  -- a text that is not blank is not blank once trimmed
  have htrimmed : ∀ text : Option String, (text.any fun s => JsString.trim s = "") = false →
      ∀ s, text.map JsString.trim = some s → JsString.trim s ≠ "" := by
    intro text hblank s hs
    obtain ⟨t, rfl, rfl⟩ := Option.map_eq_some_iff.1 hs
    simpa using hblank
  refine ⟨he.envelopeId, he.envelope, he.state, he.scrubbed, he.heldAtMs, he.expiresAtMs,
    he.artifactPaths, he.artifactIdentities, he.accessAttempts, he.decision, ?_⟩
  intro r hr
  obtain rfl := Option.some.inj hr
  exact ⟨⟨hfinite, htrimmed _ hchannel, htrimmed _ hsession, hentryId,
    htrimmed _ hreason⟩, hstatus⟩

theorem addAttempt_retains (e : IntakeQuarantineEntry) (a : IntakeQuarantineAccessAttempt) :
    Retains e (addAttempt e a) := ⟨⟨rfl, rfl, rfl, rfl, fun _ => rfl⟩, rfl⟩

theorem addAttempt_wellFormed {e : IntakeQuarantineEntry} {a : IntakeQuarantineAccessAttempt}
    (he : e.WellFormed) (ha : a.WellFormed) : (addAttempt e a).WellFormed := by
  refine ⟨he.envelopeId, he.envelope, he.state, he.scrubbed, he.heldAtMs, he.expiresAtMs,
    he.artifactPaths, he.artifactIdentities, ?_, he.decision, he.redelivery⟩
  intro attempts hattempts x hx
  obtain rfl := Option.some.inj hattempts
  rcases List.mem_append.1 (List.mem_of_mem_drop hx) with hx | hx
  · cases hold : e.accessAttempts with
    | none => simp [hold] at hx
    | some old => exact he.accessAttempts old hold x (by simpa [hold] using hx)
  · rw [List.mem_singleton.1 hx]
    exact ha

theorem normalizeAttempt_spec {now : JsNumber} {input : IntakeQuarantineAccessAttemptInput}
    {p : String × IntakeQuarantineAccessAttempt} (hatMs : (input.atMs.getD now).isFinite = true)
    (h : normalizeAttempt now input = .ok p) : p.2.WellFormed := by
  simp only [normalizeAttempt, bind_eq_ok, throwIf_eq_ok] at h
  obtain ⟨_, hvia, _, hpath, hr⟩ := h
  obtain rfl := Except.ok.inj hr
  exact ⟨JsString.trim_sliceTo_ne_empty (by simpa using hpath) (by decide),
    JsString.trim_sliceTo_ne_empty (by simpa using hvia) (by decide), hatMs⟩

/-! ## Holding -/

theorem isArtifactIdentity_identity (s : FileStats) : isArtifactIdentity s.identity = true := by
  have hdigits : ∀ n : Nat, ∀ c ∈ n.repr.toList, c.isDigit = true := by
    intro n c hc
    rw [Nat.toList_repr] at hc
    exact Nat.isDigit_of_mem_toDigits (by decide) (by decide) hc
  have hcolon : ∀ n : Nat, ':' ∉ n.repr.toList := fun n hmem => by
    simpa using hdigits n ':' hmem
  have hne : ∀ n : Nat, n.repr.toList.isEmpty = false := by
    intro n
    rw [Nat.toList_repr, List.isEmpty_eq_false_iff]
    exact Nat.toDigits_ne_nil
  have hpiece : ∀ n : Nat, (!n.repr.toList.isEmpty && n.repr.toList.all Char.isDigit) = true := by
    intro n
    rw [hne n, List.all_eq_true.2 (hdigits n)]
    rfl
  rw [isArtifactIdentity, FileStats.identity, String.toList_ofList,
    JsString.splitChars_append (hcolon s.dev), JsString.splitChars_append (hcolon s.ino),
    JsString.splitChars_of_notMem (hcolon s.birthtimeNs)]
  simp only [List.all_cons, List.all_nil, hpiece, Bool.and_true]

/-- The identity is one a file registered under the path has. -/
def Names (fs : FileSystem) (path identity : String) : Prop :=
  ∃ source file, fs.openRead source = .ok file ∧ registeredPath fs.cwd source file = .ok path ∧
    file.stats.identity = identity

/-- What the loop of `normalizeArtifactPathsForHold` keeps true of its two sets. -/
structure ArtifactSets.Registered (fs : FileSystem) (sets : ArtifactSets) : Prop where
  absolute   : ∀ path ∈ sets.paths, JsString.IsAbsolute path
  shaped     : ∀ identity ∈ sets.identities, isArtifactIdentity identity = true
  named      : ∀ identity ∈ sets.identities, ∃ path ∈ sets.paths, Names fs path identity
  nodup      : sets.identities.Nodup

theorem Names.unique {fs : FileSystem} {path i j : String} (hi : Names fs path i)
    (hj : Names fs path j) : i = j := by
  obtain ⟨p, f, hopen, hpath, rfl⟩ := hi
  obtain ⟨q, g, hopen', hpath', rfl⟩ := hj
  rw [fs.oneFile p q f g path hopen hopen' hpath hpath']

theorem registeredPath_isAbsolute {cwd fallback path : String} {file : OpenFile}
    (h : registeredPath cwd fallback file = .ok path) : JsString.IsAbsolute path := by
  unfold registeredPath at h
  split at h
  · rename_i p _
    obtain rfl := Except.ok.inj h
    exact p.2
  · obtain rfl := Except.ok.inj h
    exact JsString.isAbsolute_resolvePath _ _
  · cases h

theorem canonicalizeArtifactForRegistration_spec {fs : FileSystem} {path : String}
    {artifact : ArtifactRegistration}
    (h : canonicalizeArtifactForRegistration fs path = .ok artifact) :
    JsString.IsAbsolute artifact.path ∧
      ∀ identity, artifact.identity = some identity →
        isArtifactIdentity identity = true ∧ Names fs artifact.path identity := by
  simp only [canonicalizeArtifactForRegistration] at h
  split at h
  · rename_i file hopen
    rw [captureOpenArtifactRegistration, bind_eq_ok] at h
    obtain ⟨registered, hregistered, hr⟩ := h
    obtain rfl := Except.ok.inj hr
    refine ⟨registeredPath_isAbsolute hregistered, ?_⟩
    intro identity hidentity
    obtain rfl := Option.some.inj hidentity
    exact ⟨isArtifactIdentity_identity _, _, file, hopen, hregistered, rfl⟩
  · obtain rfl := Except.ok.inj h
    exact ⟨JsString.isAbsolute_resolvePath _ _, fun _ hnone => by cases hnone⟩
  · cases h

theorem nodup_add {s : List String} (h : s.Nodup) (x : String) : (JsSet.add s x).Nodup := by
  unfold JsSet.add
  split
  · exact h
  · rename_i hx
    exact List.nodup_append.2 ⟨h, List.nodup_singleton x, fun a ha b hb hab => by simp_all⟩

theorem registerArtifactPath_spec {fs : FileSystem} {sets sets' : ArtifactSets} {path : String}
    (hsets : sets.Registered fs) (h : registerArtifactPath fs sets path = .ok sets') :
    sets'.Registered fs := by
  simp only [registerArtifactPath, bind_eq_ok, throwIf_eq_ok] at h
  obtain ⟨_, -, artifact, hartifact, _, -, hr⟩ := h
  obtain rfl := Except.ok.inj hr
  obtain ⟨habsolute, hidentity⟩ := canonicalizeArtifactForRegistration_spec hartifact
  have hpath : ∀ p ∈ JsSet.add sets.paths artifact.path, JsString.IsAbsolute p := by
    intro p hp
    rcases JsSet.mem_add.1 hp with hp | rfl
    · exact hsets.absolute p hp
    · exact habsolute
  have hold : ∀ i ∈ sets.identities, ∃ p ∈ JsSet.add sets.paths artifact.path, Names fs p i := by
    intro i hi
    obtain ⟨p, hp, hnames⟩ := hsets.named i hi
    exact ⟨p, JsSet.mem_add.2 (.inl hp), hnames⟩
  cases hid : artifact.identity with
  | none => exact ⟨hpath, hsets.shaped, hold, hsets.nodup⟩
  | some identity =>
    obtain ⟨hshaped, hnames⟩ := hidentity identity hid
    refine ⟨hpath, ?_, ?_, nodup_add hsets.nodup identity⟩
    · intro i hi
      rcases JsSet.mem_add.1 hi with hi | rfl
      · exact hsets.shaped i hi
      · exact hshaped
    · intro i hi
      rcases JsSet.mem_add.1 hi with hi | rfl
      · exact hold i hi
      · exact ⟨artifact.path, JsSet.mem_add.2 (.inr rfl), hnames⟩

/-- There are no more identities than paths: each path names one file. -/
theorem ArtifactSets.Registered.length_le {fs : FileSystem} {sets : ArtifactSets}
    (h : sets.Registered fs) : sets.identities.length ≤ sets.paths.length := by
  choose! pathOf hmem hnames using h.named
  have hinj : (sets.identities.map pathOf).Nodup := by
    refine List.Nodup.map_on ?_ h.nodup
    intro i hi j hj heq
    exact (hnames i hi).unique (heq ▸ hnames j hj)
  have hsub : sets.identities.map pathOf ⊆ sets.paths := by
    intro p hp
    obtain ⟨i, hi, rfl⟩ := List.mem_map.1 hp
    exact hmem i hi
  simpa using (List.subperm_of_subset hinj hsub).length_le

theorem holdArtifacts_spec {fs : FileSystem} {paths : Option (List String)}
    {artifacts : Option ArtifactSets} (h : holdArtifacts fs paths = .ok artifacts) :
    ∀ sets, artifacts = some sets → sets.Registered fs ∧ sets.paths.length ≤ maxArtifactPaths := by
  intro sets hsets
  subst hsets
  unfold holdArtifacts at h
  split at h
  · rename_i path rest
    cases hn : normalizeArtifactPathsForHold fs (path :: rest) with
    | error e => simp [hn, Except.map] at h
    | ok sets' =>
      obtain rfl : sets' = sets := by simpa [hn, Except.map] using h
      simp only [normalizeArtifactPathsForHold, bind_eq_ok, throwIf_eq_ok] at hn
      obtain ⟨collected, hfold, _, hsize, hr⟩ := hn
      obtain rfl := Except.ok.inj hr
      refine ⟨?_, by simpa using hsize⟩
      have hempty : ArtifactSets.Registered fs ⟨[], []⟩ :=
        ⟨by simp, by simp, by simp, List.nodup_nil⟩
      exact foldlM_invariant (fun _ _ _ => registerArtifactPath_spec) hempty hfold
  · cases h

/-- What a hold puts into the store is well formed. -/
theorem heldEntry_wellFormed {store : IntakeQuarantineStore} {fs : FileSystem}
    {input : IntakeQuarantineHoldInput} {artifacts : Option ArtifactSets} {atMs : JsNumber}
    (henvelope : input.envelope.Valid) (hstate : input.envelope.state = .quarantined)
    (hatMs : atMs.isFinite = true) (hexpires : (atMs.add store.ttlMs).isFinite = true)
    (hartifacts : holdArtifacts fs input.artifactPaths = .ok artifacts) :
    (heldEntry store input artifacts atMs).WellFormed := by
  have hsets := holdArtifacts_spec hartifacts
  refine ⟨rfl, henvelope, hstate, ?_, hatMs, hexpires, ?_, ?_, ?_, ?_, ?_⟩
  · rintro (h | h) <;> cases h
  · intro paths hpaths
    obtain ⟨sets, hsome, rfl⟩ := Option.map_eq_some_iff.1 hpaths
    obtain ⟨hregistered, hlength⟩ := hsets sets hsome
    exact ⟨hlength, fun path hpath => (hregistered.absolute path hpath).trim_ne_empty⟩
  · intro identities hidentities
    obtain ⟨sets, hsome, rfl⟩ := Option.map_eq_some_iff.1 hidentities
    obtain ⟨hregistered, hlength⟩ := hsets sets hsome
    exact ⟨hregistered.length_le.trans hlength, hregistered.shaped⟩
  · intro _ hnone
    cases hnone
  · intro _ hnone
    cases hnone
  · intro _ hnone
    cases hnone

end Psfn.Intake
