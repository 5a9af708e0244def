import Psfn.Intake.QuarantineEntry

/-!
# Quarantine store — the loader on what the store writes

Loading never changes what an entry gates: whatever the loader accepts, it returns under
the same id, with the same status, artifacts and envelope state. An entry that is well
formed it returns as it was.

* `assertEntryShape_value` — a well-formed entry is loaded as it was.
* `assertEntryShape_retains` — an entry that is loaded at all is retained.
* `load_file` — a file written from well-formed entries loads as those entries.
* `load_retains` — a file that loads at all retains every entry.
-/

namespace Psfn.Intake

open Psfn.Lib

/-! ## Scalars read back -/

theorem ofText_entryStatus (s : IntakeQuarantineEntryStatus) :
    ofText IntakeQuarantineEntryStatus.all IntakeQuarantineEntryStatus.text (.string s.text) =
      some s := by
  cases s <;> rfl

theorem ofText_quarantineAction (a : IntakeQuarantineDecisionAction) :
    ofText IntakeQuarantineDecisionAction.all IntakeQuarantineDecisionAction.text
      (.string a.text) = some a := by
  cases a <;> rfl

theorem loadMode_text (m : IntakeQuarantineMode) : loadMode (.string m.text) = some m := by
  cases m <;> rfl

theorem nonBlank_string {s : String} (h : JsString.trim s ≠ "") :
    nonBlank (.string s) = some s := if_neg h

theorem finiteNumber_number {n : JsNumber} (h : n.isFinite = true) :
    finiteNumber (.number n) = some n := if_pos h

theorem loadEntryId_value {id : Option JsNumber} (h : IsEntryId (some id)) :
    loadEntryId (entryIdValue id) = some id := by
  cases id with
  | none => rfl
  | some n => simp [entryIdValue, loadEntryId, h n rfl]

/-! ## Parts of an entry -/

variable {filePath field detail : String}

theorem loadStrings_value {accepts : String → Bool} {items : List String}
    (hlength : items.length ≤ maxArtifactPaths) (haccepts : ∀ s ∈ items, accepts s = true) :
    loadStrings accepts filePath field detail (stringsValue items) = .ok items := by
  simp only [loadStrings, stringsValue, bind_eq_ok, orThrow_eq_ok, throwIf_eq_ok]
  refine ⟨items, mapM_map_some fun s hs => ?_, (), by simpa using hlength, rfl⟩
  simp [anyString, haccepts s hs]

theorem loadAttempt_value {a : IntakeQuarantineAccessAttempt} (h : a.WellFormed) :
    loadAttempt filePath a.value = .ok a := by
  simp only [loadAttempt, bind_eq_ok, throwIf_eq_ok, orThrow_eq_ok]
  exact ⟨(), rfl, a.path, nonBlank_string h.path, a.via, nonBlank_string h.via, a.atMs,
    finiteNumber_number h.atMs, rfl⟩

theorem loadDecision_value {d : IntakeQuarantineDecisionRecord} (h : d.WellFormed) :
    loadDecision filePath d.value = .ok d := by
  simp only [loadDecision, bind_eq_ok, throwIf_eq_ok, orThrow_eq_ok]
  exact ⟨(), rfl, d.action, ofText_quarantineAction d.action, d.actor, nonBlank_string h.actor,
    d.reason, nonBlank_string h.reason, d.atMs, finiteNumber_number h.atMs, rfl⟩

theorem IntakeQuarantineRedeliveryRecord.property_value (r : IntakeQuarantineRedeliveryRecord) :
    r.value.property "channelId" = (r.channelId.map JsValue.string).getD .undefined ∧
      r.value.property "logicalSessionId" =
        (r.logicalSessionId.map JsValue.string).getD .undefined ∧
      r.value.property "entryId" = (r.entryId.map entryIdValue).getD .undefined ∧
      r.value.property "reason" = (r.reason.map JsValue.string).getD .undefined := by
  refine ⟨?_, ?_, ?_, ?_⟩ <;>
    simp [IntakeQuarantineRedeliveryRecord.value, JsValue.property, JsMap.lookup]

theorem isUndefined_entryIdValue (id : Option JsNumber) :
    (entryIdValue id).isUndefined = false := by
  cases id <;> rfl

theorem loadRedelivery_value {status : IntakeQuarantineEntryStatus}
    {r : IntakeQuarantineRedeliveryRecord} (h : r.WellFormed)
    (hstatus : status = .releasedRaw ∨ status = .releasedSanitized) :
    loadRedelivery filePath status r.value = .ok r := by
  obtain ⟨hchannel, hsession, hentry, hreason⟩ := r.property_value
  have hkeys : r.value.ownKeys.filter (· ∉ redeliveryKnownKeys) = [] := by
    refine filter_ownKeys_eq_nil ?_
    simp only [List.forall_mem_append, forall_optionalProperty]
    simp [redeliveryKnownKeys]
  simp only [loadRedelivery, bind_eq_ok, throwIf_eq_ok, orThrow_eq_ok, hkeys, hchannel, hsession,
    hentry, hreason]
  refine ⟨(), rfl, (), rfl, r.delivered, rfl, r.attemptedAtMs, finiteNumber_number h.attemptedAtMs,
    r.channelId, ?_, r.logicalSessionId, ?_, r.entryId, ?_, r.reason, ?_, (), ?_, rfl⟩
  · exact optionalField_getD (fun _ => rfl) fun s hs => by simp [nonBlank_string (h.channelId s hs)]
  · exact optionalField_getD (fun _ => rfl) fun s hs => by
      simp [nonBlank_string (h.logicalSessionId s hs)]
  · exact optionalField_getD isUndefined_entryIdValue fun id hid => by
      simp [loadEntryId_value (hid ▸ h.entryId)]
  · exact optionalField_getD (fun _ => rfl) fun s hs => by simp [nonBlank_string (h.reason s hs)]
  · rcases hstatus with rfl | rfl <;> rfl

/-! ## Entries -/

theorem IntakeQuarantineEntry.property_value (e : IntakeQuarantineEntry) :
    e.value.property "ruleMatchProvenanceUnavailable" =
        ((if e.ruleMatchProvenanceUnavailable then some true else none).map
          JsValue.bool).getD .undefined ∧
      e.value.property "safeRepresentationText" =
        (e.safeRepresentationText.map JsValue.string).getD .undefined ∧
      e.value.property "canonicalContactId" =
        (e.canonicalContactId.map JsValue.string).getD .undefined ∧
      e.value.property "sourceChannelId" =
        (e.sourceChannelId.map JsValue.string).getD .undefined ∧
      e.value.property "cogSecCaseId" = (e.cogSecCaseId.map JsValue.string).getD .undefined ∧
      e.value.property "artifactPaths" = (e.artifactPaths.map stringsValue).getD .undefined ∧
      e.value.property "artifactIdentities" =
        (e.artifactIdentities.map stringsValue).getD .undefined ∧
      e.value.property "decision" =
        (e.decision.map IntakeQuarantineDecisionRecord.value).getD .undefined ∧
      e.value.property "redelivery" =
        (e.redelivery.map IntakeQuarantineRedeliveryRecord.value).getD .undefined ∧
      e.value.property "accessAttempts" = (e.accessAttempts.map attemptsValue).getD .undefined := by
  refine ⟨?_, ?_, ?_, ?_, ?_, ?_, ?_, ?_, ?_, ?_⟩ <;>
    simp [IntakeQuarantineEntry.value, IntakeQuarantineEntry.properties, flagProperty,
      JsValue.property, JsMap.lookup]

theorem trim_id_ne_empty {id id' : String}
    (h : normalizeIntakeEnvelopeId (.string id) = .ok id') : JsString.trim id ≠ "" := by
  intro hblank
  simp [normalizeIntakeEnvelopeId, hblank, isIntakeEnvelopeId] at h

theorem optionalText_getD {text : Option String} {message : String} :
    optionalField ((text.map JsValue.string).getD .undefined)
      (fun v => orThrow (anyString v) message) = .ok text :=
  optionalField_getD (fun _ => rfl) fun _ _ => rfl

theorem checkStatus_envelopeState (filePath : String) (status : IntakeQuarantineEntryStatus) :
    checkStatus filePath status status.envelopeState = .ok () := by
  cases status <;> rfl

variable {e : IntakeQuarantineEntry}

/-- A well-formed entry is loaded as it was. -/
theorem assertEntryShape_value (h : e.WellFormed) : assertEntryShape filePath e.value = .ok e := by
  obtain ⟨hunavailable, hsafe, hcontact, hchannel, hcase, hpaths, hidentities, hdecision,
    hredelivery, hattempts⟩ := e.property_value
  have hkeys : e.value.ownKeys.filter (· ∉ entryKnownKeys) = [] := by
    refine filter_ownKeys_eq_nil ?_
    simp only [IntakeQuarantineEntry.properties, flagProperty, List.forall_mem_append,
      forall_optionalProperty]
    simp [entryKnownKeys]
  have hid : JsString.trim e.id ≠ "" := h.envelopeId ▸ trim_id_ne_empty h.envelope.id
  have henvelope : loadEnvelope e.envelope.value = .ok (e.envelope, false) := by
    rw [loadEnvelope, validateIntakeEnvelope_value_iff.2 h.envelope]
  simp only [assertEntryShape, bind_eq_ok, throwIf_eq_ok, orThrow_eq_ok, hkeys, hunavailable, hsafe,
    hcontact, hchannel, hcase, hpaths, hidentities, hdecision, hredelivery, hattempts]
  refine ⟨(), rfl, (), rfl, e.id, nonBlank_string hid, (e.envelope, false), henvelope,
    if e.ruleMatchProvenanceUnavailable then some true else none, ?_, (), by simp [h.envelopeId],
    e.mode, loadMode_text e.mode, e.rawText, rfl, e.rawTextTruncated, rfl, _, optionalText_getD, _,
    optionalText_getD, _, optionalText_getD, _, optionalText_getD, e.heldAtMs,
    finiteNumber_number h.heldAtMs, e.expiresAtMs, finiteNumber_number h.expiresAtMs, e.status,
    ofText_entryStatus e.status, (), h.state ▸ checkStatus_envelopeState filePath e.status,
    e.artifactPaths, ?_, e.artifactIdentities, ?_, e.accessAttempts, ?_, e.decision, ?_,
    e.redelivery, ?_, ?_⟩
  · refine optionalField_getD (fun _ => rfl) fun flag hflag => ?_
    have hset : flag = true := by
      split at hflag
      · exact (Option.some.inj hflag).symm
      · cases hflag
    simp [hset, anyBoolean]
  · refine optionalField_getD (fun _ => rfl) fun paths hpaths => ?_
    obtain ⟨hlength, hblank⟩ := h.artifactPaths paths hpaths
    exact loadStrings_value hlength fun path hpath => by simpa using hblank path hpath
  · refine optionalField_getD (fun _ => rfl) fun identities hidentities => ?_
    obtain ⟨hlength, hshape⟩ := h.artifactIdentities identities hidentities
    exact loadStrings_value hlength hshape
  · refine optionalField_getD (fun _ => rfl) fun attempts hattempts => ?_
    exact mapM_map_ok fun a ha => loadAttempt_value (h.accessAttempts attempts hattempts a ha)
  · exact optionalField_getD (fun _ => rfl) fun d hd => loadDecision_value (h.decision d hd)
  · refine optionalField_getD (fun _ => rfl) fun r hr => ?_
    obtain ⟨hrecord, hstatus⟩ := h.redelivery r hr
    exact loadRedelivery_value hrecord hstatus
  · have hflag : ∀ b : Bool, ((if b then some true else none).isSome || false) = b := by decide
    simp only [hflag, pure, Except.pure]

/-! ## The file -/

theorem IntakeQuarantineRedeliveryRecord.WellFormed.isJson {r : IntakeQuarantineRedeliveryRecord}
    (h : r.WellFormed) : r.value.IsJson := by
  have hentryId : ∀ id, r.entryId = some id → (entryIdValue id).IsJson := by
    intro id hid
    cases id with
    | none => exact JsValue.isJson_null
    | some n => exact JsValue.isJson_number.2 (isFinite_of_isInteger (h.entryId n hid))
  simp only [IntakeQuarantineRedeliveryRecord.value, JsValue.isJson_object, List.forall_mem_append,
    forall_optionalProperty]
  exact ⟨by simp [h.attemptedAtMs], by simp, by simp, hentryId, by simp⟩

theorem IntakeQuarantineEntry.WellFormed.isJson (h : e.WellFormed) :
    e.value.IsJson := by
  simp only [IntakeQuarantineEntry.value, IntakeQuarantineEntry.properties, flagProperty,
    JsValue.isJson_object, List.forall_mem_append, forall_optionalProperty]
  refine ⟨?_, by simp, by simp, by simp, by simp, by simp, ?_, ?_, ?_, ?_, ?_⟩
  · simp [h.envelope.isJson, h.heldAtMs, h.expiresAtMs]
  · exact fun paths _ => isJson_stringsValue paths
  · exact fun identities _ => isJson_stringsValue identities
  · intro d hd
    simp [IntakeQuarantineDecisionRecord.value, (h.decision d hd).atMs]
  · exact fun r hr => (h.redelivery r hr).1.isJson
  · intro attempts hattempts
    rw [attemptsValue, JsValue.isJson_array, List.forall_mem_map]
    intro a ha
    simp [IntakeQuarantineAccessAttempt.value, (h.accessAttempts attempts hattempts a ha).atMs]

/-- The entries in memory: each under its own id, and `P` of each. -/
def Entries.All (P : IntakeQuarantineEntry → Prop) (entries : Entries) : Prop :=
  ∀ id e, entries.get id = some e → e.id = id ∧ P e

/-- The loop of `load` over entries that were not seen before. -/
theorem foldlM_loadEntry (filePath : String) {rest : List (String × IntakeQuarantineEntry)}
    (hrest : ∀ p ∈ rest, p.2.id = p.1 ∧ p.2.WellFormed) (done : Entries)
    (hnodup : ((done.entries ++ rest).map Prod.fst).Nodup) :
    ∃ entries, (rest.map fun p => p.2.value).foldlM (loadEntry filePath) done = .ok entries ∧
      entries.entries = done.entries ++ rest := by
  induction rest generalizing done with
  | nil => exact ⟨done, rfl, by simp⟩
  | cons p rest ih =>
    obtain ⟨id, e⟩ := p
    obtain ⟨hid, he⟩ : e.id = id ∧ e.WellFormed := hrest (id, e) (List.mem_cons_self ..)
    have hnew : done.has id = false := by
      rw [← Bool.not_eq_true, JsMap.has_eq_true_iff]
      intro hmem
      rw [List.map_append, List.nodup_append] at hnodup
      exact hnodup.2.2 id hmem id (by simp) rfl
    have hentries : (done.set id e).entries = done.entries ++ [(id, e)] :=
      JsMap.entries_set_of_not_has hnew e
    have hload : loadEntry filePath done e.value = .ok (done.set id e) := by
      simp only [loadEntry, bind_eq_ok, throwIf_eq_ok]
      exact ⟨e, assertEntryShape_value he, (), by simpa [hid] using hnew, by rw [hid]; rfl⟩
    obtain ⟨entries, hrun, hresult⟩ := ih (fun q hq => hrest q (List.mem_cons_of_mem _ hq))
      (done.set id e) (by rw [hentries]; simpa using hnodup)
    refine ⟨entries, ?_, by simp [hresult, hentries]⟩
    rw [List.map_cons, List.foldlM_cons, bind_eq_ok]
    exact ⟨done.set id e, hload, hrun⟩

/-- A file written from well-formed entries loads as those entries. -/
theorem load_file {entries : Entries} (h : entries.All IntakeQuarantineEntry.WellFormed) :
    load filePath (some (fileShape entries).json) = .ok entries := by
  have hpairs : ∀ p ∈ entries.entries, p.2.id = p.1 ∧ p.2.WellFormed := fun p hp =>
    h p.1 p.2 ((entries.mem_entries_iff_get p.1 p.2).1 hp)
  have hjson : (fileShape entries).IsJson := by
    rw [fileShape, JsValue.isJson_object]
    have hvalues : ∀ e ∈ entries.values, e.value.IsJson := by
      intro e he
      obtain ⟨p, hp, rfl⟩ := List.mem_map.1 he
      exact (hpairs p hp).2.isJson
    have hone : (JsNumber.finite 1).isFinite = true := rfl
    simpa [hone] using hvalues
  obtain ⟨loaded, hrun, hloaded⟩ := foldlM_loadEntry filePath hpairs JsMap.empty
    (by simpa [JsMap.empty] using entries.nodup)
  obtain rfl : loaded = entries := JsMap.ext (by simpa [JsMap.empty] using hloaded)
  rw [JsValue.json_eq_self hjson, load, bind_eq_ok]
  refine ⟨loaded.values.map (·.value), rfl, ?_⟩
  simpa [JsMap.values, Function.comp_def] using hrun

/-! ## Whatever is accepted -/

theorem IntakeQuarantineEntry.isUndefined_properties (e : IntakeQuarantineEntry) :
    ∀ p ∈ e.properties, p.2.isUndefined = false := by
  simp only [IntakeQuarantineEntry.properties, flagProperty, List.forall_mem_append,
    forall_optionalProperty]
  refine ⟨by simp [JsValue.isUndefined, IntakeEnvelope.value], ?_⟩
  simp [JsValue.isUndefined, stringsValue, attemptsValue, IntakeQuarantineDecisionRecord.value,
    IntakeQuarantineRedeliveryRecord.value]

/-- The properties of an entry, as they come back from the file. -/
theorem IntakeQuarantineEntry.property_json (e : IntakeQuarantineEntry) :
    e.value.json.property "id" = .string e.id ∧
      e.value.json.property "envelope" = e.envelope.value.json ∧
      e.value.json.property "heldAtMs" = (JsValue.number e.heldAtMs).json ∧
      e.value.json.property "status" = .string e.status.text ∧
      e.value.json.property "artifactPaths" =
        (e.artifactPaths.map stringsValue).getD .undefined ∧
      e.value.json.property "artifactIdentities" =
        (e.artifactIdentities.map stringsValue).getD .undefined := by
  have hstring : ∀ s, (JsValue.string s).json = .string s := fun s => by rw [JsValue.json]
  have hstrings : JsValue.json ∘ stringsValue = stringsValue := funext fun items =>
    JsValue.json_eq_self (isJson_stringsValue items)
  have hproperty : ∀ key, e.value.json.property key =
      ((JsMap.lookup key e.properties).map JsValue.json).getD .undefined :=
    JsValue.property_json_object e.isUndefined_properties
  refine ⟨?_, ?_, ?_, ?_, ?_, ?_⟩ <;>
    simp [hproperty, IntakeQuarantineEntry.properties, flagProperty, JsMap.lookup, hstring,
      hstrings, Option.map_map]

theorem property_state_json (e : IntakeEnvelope) :
    e.value.json.property "state" = .string e.state.text := by
  rw [IntakeEnvelope.value, JsValue.property_json_object]
  · simp [JsMap.lookup, JsValue.json]
  · simp only [List.forall_mem_append, forall_optionalProperty]
    simp [JsValue.isUndefined, IntakeContentRef.value, recordValue, IntakeDecision.value]

/-- The envelope that is loaded is in the state the record names, with or without its rule
evidence. -/
theorem loadEnvelope_state {v : JsValue} {s : IntakeEnvelopeState}
    (hv : v.property "state" = .string s.text) {loaded : IntakeEnvelope × Bool}
    (h : loadEnvelope v = .ok loaded) : loaded.1.state = s := by
  have hstate : ∀ {w : JsValue} {e : IntakeEnvelope}, w.property "state" = .string s.text →
      validateIntakeEnvelope w = .ok e → e.state = s := by
    intro w e hw he
    have hchecked := (validateIntakeEnvelope_eq_ok.1 he).state
    rw [hw, ofText_state] at hchecked
    exact (Option.some.inj hchecked).symm
  unfold loadEnvelope at h
  split at h
  · rename_i e he
    obtain rfl := Except.ok.inj h
    exact hstate hv he
  · split at h
    · cases h
    · rename_i isolated hisolated
      split at h
      · rename_i e he
        obtain rfl := Except.ok.inj h
        refine hstate ?_ he
        unfold withoutRuleProvenance at hisolated
        split at hisolated
        · split at hisolated
          · obtain rfl := Option.some.inj hisolated
            rw [JsValue.property, JsMap.lookup_setEntries_of_ne (by decide)]
            exact hv
          · cases hisolated
        · cases hisolated
      · cases h

theorem nonBlank_eq_some {s t : String} (h : nonBlank (.string s) = some t) : t = s := by
  simp only [nonBlank] at h
  split at h
  · cases h
  · exact (Option.some.inj h).symm

theorem finiteNumber_json {n m : JsNumber} (h : finiteNumber (JsValue.number n).json = some m) :
    m = n := by
  rw [JsValue.json] at h
  by_cases hn : n.isFinite = true
  · rw [if_pos hn, finiteNumber_number hn] at h
    exact (Option.some.inj h).symm
  · rw [if_neg hn] at h
    cases h

theorem loadStrings_eq_ok {accepts : String → Bool} {items items' : List String}
    (h : loadStrings accepts filePath field detail (stringsValue items) = .ok items') :
    items' = items := by
  simp only [loadStrings, stringsValue, bind_eq_ok, orThrow_eq_ok] at h
  obtain ⟨read, hread, _, -, hr⟩ := h
  obtain rfl := Except.ok.inj hr
  clear hr
  induction items generalizing read with
  | nil =>
    obtain rfl := Option.some.inj hread
    rfl
  | cons item rest ih =>
    rw [List.map_cons, List.mapM_cons] at hread
    simp only [anyString, Option.bind_eq_bind, Option.bind_eq_some_iff, Option.filter_eq_some_iff,
      Option.some.injEq] at hread
    obtain ⟨first, ⟨rfl, -⟩, others, hothers, hr⟩ := hread
    obtain rfl := Option.some.inj hr
    rw [ih others hothers]

theorem optionalStrings_eq_ok {accepts : String → Bool} {items read : Option (List String)}
    (h : optionalField ((items.map stringsValue).getD .undefined) (loadStrings accepts filePath
      field detail) = .ok read) :
    read = items := by
  cases items with
  | none => exact (Except.ok.inj h).symm
  | some items =>
    rcases optionalField_eq_ok h with ⟨hundefined, -⟩ | ⟨a, ha, rfl⟩
    · cases hundefined
    · rw [loadStrings_eq_ok ha]

/-- An entry that is loaded at all is retained. -/
theorem assertEntryShape_retains {e' : IntakeQuarantineEntry} (he : e.Tracked)
    (h : assertEntryShape filePath e.value.json = .ok e') :
    e'.Tracked ∧ Retains e e' ∧ e'.status = e.status := by
  obtain ⟨hid, henvelope, hheldAtMs, hstatus, hpaths, hidentities⟩ := e.property_json
  simp only [assertEntryShape, bind_eq_ok, throwIf_eq_ok, orThrow_eq_ok, hid, henvelope, hheldAtMs,
    hstatus, hpaths, hidentities] at h
  obtain ⟨_, -, _, -, id, hid, loaded, hloaded, unavailable, -, _, hsame, mode, -, rawText, -,
    truncated, -, safe, -, contact, -, channel, -, case, -, heldAtMs, hheldAtMs, expiresAtMs, -,
    status, hstatus, _, -, paths, hpaths, identities, hidentities, attempts, -, decision, -,
    redelivery, -, hr⟩ := h
  obtain rfl := Except.ok.inj hr
  obtain rfl : status = e.status := by simpa [ofText_entryStatus] using hstatus.symm
  have hstate : loaded.1.state = e.envelope.state :=
    loadEnvelope_state (property_state_json e.envelope) hloaded
  have hidentity : loaded.1.id = id := by simpa using hsame
  refine ⟨⟨hidentity, hstate.trans he.state⟩, ⟨⟨nonBlank_eq_some hid, finiteNumber_json hheldAtMs,
    optionalStrings_eq_ok hpaths, optionalStrings_eq_ok hidentities, fun _ => rfl⟩, ?_⟩, rfl⟩
  rw [SameGate, hstate]

/-- What the loader makes of one keyed entry. -/
structure LoadedAs (p p' : String × IntakeQuarantineEntry) : Prop where
  key     : p'.1 = p.1
  id      : p'.2.id = p.1
  tracked : p'.2.Tracked
  retains : Retains p.2 p'.2

theorem foldlM_loadEntry_retains {rest : List (String × IntakeQuarantineEntry)}
    (hrest : ∀ p ∈ rest, p.2.id = p.1 ∧ p.2.Tracked) {done loaded : Entries}
    (h : (rest.map fun p => p.2.value.json).foldlM (loadEntry filePath) done = .ok loaded) :
    ∃ rest', loaded.entries = done.entries ++ rest' ∧ List.Forall₂ LoadedAs rest rest' := by
  induction rest generalizing done with
  | nil =>
    obtain rfl := Except.ok.inj h
    exact ⟨[], by simp, .nil⟩
  | cons p rest ih =>
    obtain ⟨hid, htracked⟩ := hrest p (List.mem_cons_self ..)
    rw [List.map_cons, List.foldlM_cons, bind_eq_ok] at h
    obtain ⟨next, hnext, hrun⟩ := h
    simp only [loadEntry, bind_eq_ok, throwIf_eq_ok] at hnext
    obtain ⟨e', he', _, hnew, hr⟩ := hnext
    obtain rfl := Except.ok.inj hr
    obtain ⟨htracked', hretains, -⟩ := assertEntryShape_retains htracked he'
    obtain ⟨rest', hentries, hloaded⟩ := ih (fun q hq => hrest q (List.mem_cons_of_mem _ hq)) hrun
    have hkey : e'.id = p.1 := hretains.1.id.trans hid
    refine ⟨(e'.id, e') :: rest', ?_, .cons ⟨hkey, hkey, htracked', hretains⟩ hloaded⟩
    rw [hentries, JsMap.entries_set_of_not_has hnew, List.append_assoc, List.singleton_append]

theorem lookup_loadedAs {l l' : List (String × IntakeQuarantineEntry)}
    (h : List.Forall₂ LoadedAs l l') (id : String) :
    Option.Rel (fun e e' => e'.id = id ∧ e'.Tracked ∧ Retains e e') (JsMap.lookup id l)
      (JsMap.lookup id l') := by
  induction h with
  | nil => exact .none
  | @cons p p' rest rest' hp _ ih =>
    obtain ⟨key, e⟩ := p
    obtain ⟨key', e'⟩ := p'
    obtain rfl : key' = key := hp.key
    by_cases hkey : key' = id
    · subst hkey
      simpa [JsMap.lookup] using Option.Rel.some ⟨hp.id, hp.tracked, hp.retains⟩
    · simpa [JsMap.lookup, hkey] using ih

/-- A file that loads at all retains every entry. -/
theorem load_retains {entries loaded : Entries} (h : entries.All IntakeQuarantineEntry.Tracked)
    (hload : load filePath (some (fileShape entries).json) = .ok loaded) :
    loaded.All IntakeQuarantineEntry.Tracked ∧ entries.Rel Retains loaded := by
  have hpairs : ∀ p ∈ entries.entries, p.2.id = p.1 ∧ p.2.Tracked := fun p hp =>
    h p.1 p.2 ((entries.mem_entries_iff_get p.1 p.2).1 hp)
  have hvalues : (entries.entries.map fun p => p.2.value.json).foldlM (loadEntry filePath)
      JsMap.empty = .ok loaded := by
    rw [load, bind_eq_ok] at hload
    obtain ⟨values, hvalues, hrun⟩ := hload
    have hfile : (fileShape entries).json =
        .object [("version", .number (.finite 1)),
          ("entries", .array (entries.entries.map fun p => p.2.value.json))] := by
      simp [fileShape, JsValue.json, JsValue.jsonProperties, JsValue.isUndefined, JsNumber.isFinite,
        JsValue.jsonItems_eq_map, JsMap.values, Function.comp_def]
    rw [hfile] at hvalues
    obtain rfl := Except.ok.inj hvalues
    exact hrun
  obtain ⟨rest', hentries, hforall⟩ := foldlM_loadEntry_retains hpairs hvalues
  have hrel : ∀ id, Option.Rel (fun e e' => e'.id = id ∧ e'.Tracked ∧ Retains e e')
      (entries.get id) (loaded.get id) := by
    intro id
    have hloaded : loaded.entries = rest' := by simpa [JsMap.empty] using hentries
    rw [JsMap.get, JsMap.get, hloaded]
    exact lookup_loadedAs hforall id
  refine ⟨?_, ?_⟩
  · intro id e' hget
    have hid := hrel id
    rw [hget] at hid
    generalize entries.get id = x at hid
    cases hid with
    | some hr => exact ⟨hr.1, hr.2.1⟩
  · intro id
    have hid := hrel id
    generalize entries.get id = x at hid ⊢
    generalize loaded.get id = y at hid ⊢
    cases hid with
    | none => exact .none
    | some hr => exact .some hr.2.2

end Psfn.Intake
