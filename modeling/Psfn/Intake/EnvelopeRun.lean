import Psfn.Intake.RoundTrip

/-!
# Intake envelopes — every envelope the code builds reads back as itself

The producers (`createIntakeEnvelope`, `deriveChildIntakeEnvelope`,
`transitionIntakeEnvelope`) and the validator are separate code over the same field
normalisers. What ties them together is that each normaliser is idempotent: what it
returns is a fixed point of it, under any field name.

* `normalize*_value` of a normalised value — one lemma per field;
* `Valid.create`, `Valid.derive`, `Valid.step`, `Valid.loaded` — each way to come by
  an envelope yields a valid one;
* `Built` — the envelopes those ways reach, in any order and number;
* `built_reloads` — all of them survive JSON and the validator unchanged.

The clock and the random id are the runtime's: `IsClockReading` and `IsUuid` say what
is documented of them.
-/

namespace Psfn.Intake

open Psfn.Lib

/-! ## The environment -/

/-- What `Date.now()` returns: a whole number of milliseconds past the epoch. -/
def IsClockReading (n : JsNumber) : Prop := ∃ k : Nat, 0 < k ∧ n = .finite k

def isHexDigit (c : Char) : Bool := c.isDigit || ('a' ≤ c && c ≤ 'f')

/-- What `randomUUID()` returns: five groups of hexadecimal digits. -/
def IsUuid (s : String) : Prop :=
  ∃ a b c d e : List Char, s.toList = a ++ '-' :: b ++ '-' :: c ++ '-' :: d ++ '-' :: e ∧
    a.length = 8 ∧ b.length = 4 ∧ c.length = 4 ∧ d.length = 4 ∧ e.length = 12 ∧
    ∀ x ∈ a ++ b ++ c ++ d ++ e, isHexDigit x = true

theorem IsClockReading.isTimestamp {n : JsNumber} (h : IsClockReading n) : IsTimestamp n := by
  obtain ⟨k, hk, rfl⟩ := h
  refine ⟨rfl, ?_⟩
  have hpos : ¬ (k : Rat) ≤ 0 := by exact_mod_cast Nat.not_le.2 hk
  simpa [JsNumber.le] using hpos

variable {c : Char}

theorem isAlphanum_of_isHexDigit (h : isHexDigit c = true) : c.isAlphanum = true := by
  simp only [isHexDigit, Bool.or_eq_true, Bool.and_eq_true, decide_eq_true_eq] at h
  rcases h with h | ⟨hlo, hhi⟩
  · simp [Char.isAlphanum, h]
  · have hlower : c.isLower = true :=
      Bool.and_eq_true_iff.mpr
        ⟨decide_eq_true hlo, decide_eq_true (UInt32.le_trans hhi (by decide))⟩
    have halpha : c.isAlpha = true := Bool.or_eq_true_iff.mpr (Or.inr hlower)
    exact Bool.or_eq_true_iff.mpr (Or.inl halpha)

theorem toLower_of_isHexDigit (h : isHexDigit c = true) : c.toLower = c := by
  simp only [isHexDigit, Char.isDigit, Bool.or_eq_true, Bool.and_eq_true, decide_eq_true_eq,
    ge_iff_le, Char.le_def, UInt32.le_iff_toNat_le] at h
  have hnot : ¬ (c.val ≥ 'A'.val ∧ c.val ≤ 'Z'.val) := by
    simp only [ge_iff_le, UInt32.le_iff_toNat_le]
    simp at h ⊢
    omega
  exact dif_neg hnot

/-! ## Identifiers -/

/-- The characters of an envelope id. -/
def isIdChar (c : Char) : Bool := c.isAlphanum || c = '.' || c = '_' || c = '-'

theorem isIdChar_plain (h : isIdChar c = true) :
    JsString.isSpace c = false ∧ c.toNat < 0x10000 := by
  simp only [isIdChar, Bool.or_eq_true, decide_eq_true_eq] at h
  rcases h with ((h | rfl) | rfl) | rfl
  · exact JsString.isSpace_of_isAlphanum h
  all_goals decide

theorem forall_isIdChar {s : List Char} (h : isIntakeEnvelopeId s = true) :
    ∀ c ∈ s, isIdChar c = true := by
  cases s with
  | nil => simp
  | cons c rest =>
    simp only [isIntakeEnvelopeId, Bool.and_eq_true, List.all_eq_true] at h
    intro x hx
    rcases List.mem_cons.1 hx with rfl | hx
    · simp [isIdChar, h.1.1.1]
    · exact h.1.1.2 x hx

theorem length_of_isIntakeEnvelopeId {s : List Char} (h : isIntakeEnvelopeId s = true) :
    s.length ≤ 64 := by
  cases s with
  | nil => simp
  | cons c rest =>
    simp only [isIntakeEnvelopeId, Bool.and_eq_true, decide_eq_true_eq] at h
    rw [List.length_cons]
    omega

variable {v : JsValue} {id : String}

theorem normalizeIntakeEnvelopeId_eq_ok (h : normalizeIntakeEnvelopeId v = .ok id) :
    isIntakeEnvelopeId id.toList = true := by
  cases v with
  | string s =>
    simp only [normalizeIntakeEnvelopeId] at h
    split at h
    · rename_i hid
      obtain rfl := Except.ok.inj h
      exact hid
    · cases h
  | _ => cases h

theorem normalizeIntakeEnvelopeId_string (h : isIntakeEnvelopeId id.toList = true) :
    normalizeIntakeEnvelopeId (.string id) = .ok id := by
  have htrim : JsString.trim id = id :=
    JsString.trim_eq_self fun c hc => (isIdChar_plain (forall_isIdChar h c hc)).1
  simp [normalizeIntakeEnvelopeId, htrim, h]

theorem IsUuid.isIntakeEnvelopeId {s : String} (h : IsUuid s) :
    isIntakeEnvelopeId s.toList = true := by
  obtain ⟨a, b, c, d, e, hs, ha, hb, hc, hd, he, hhex⟩ := h
  obtain ⟨x, a', rfl⟩ := List.exists_cons_of_length_eq_add_one ha
  rw [List.length_cons] at ha
  rw [hs]
  simp only [List.cons_append, Intake.isIntakeEnvelopeId, Bool.and_eq_true, decide_eq_true_eq,
    List.all_eq_true]
  have halnum : ∀ y ∈ x :: a' ++ b ++ c ++ d ++ e, y.isAlphanum = true := fun y hy =>
    isAlphanum_of_isHexDigit (hhex y hy)
  refine ⟨⟨⟨halnum x (by simp), fun y hy => ?_⟩, ?_⟩, ?_⟩
  · have hcases : y = '-' ∨ y ∈ x :: a' ++ b ++ c ++ d ++ e := by
      simp only [List.append_assoc, List.mem_append, List.mem_cons] at hy ⊢
      tauto
    rcases hcases with rfl | hy
    · rfl
    · simp [halnum y hy]
  · simp
    omega
  · simp
    omega

variable {uuid : String}

theorem resolveId_valid {given : Option String} (huuid : given = none → IsUuid uuid)
    (h : resolveId uuid given = .ok id) :
    normalizeIntakeEnvelopeId (.string id) = .ok id := by
  apply normalizeIntakeEnvelopeId_string
  cases given with
  | none =>
    obtain rfl : uuid = id := by simpa [resolveId] using h
    exact (huuid rfl).isIntakeEnvelopeId
  | some s =>
    rw [resolveId] at h
    exact normalizeIntakeEnvelopeId_eq_ok h

/-! ## Content references -/

/-- A digest is hexadecimal and lower case, so trimming and lowering leave it alone. -/
theorem normalizeSha256_string {sha256 : String} (h : isSha256Hex sha256.toList = true)
    (f : String) : normalizeSha256 f (.string sha256) = .ok sha256 := by
  simp only [isSha256Hex, Bool.and_eq_true, decide_eq_true_eq, List.all_eq_true] at h
  obtain ⟨hlength, hhex⟩ := h
  have hplain : ∀ c ∈ sha256.toList, JsString.isSpace c = false ∧ c.toNat < 0x10000 := fun c hc =>
    JsString.isSpace_of_isAlphanum (isAlphanum_of_isHexDigit (hhex c hc))
  have hlower : sha256.toList.map Char.toLower = sha256.toList := by
    have hid : ∀ c ∈ sha256.toList, c.toLower = id c := fun c hc => toLower_of_isHexDigit (hhex c hc)
    rw [List.map_congr_left hid, List.map_id]
  have htext : IsText 64 sha256 := by
    refine ⟨JsString.trim_eq_self fun c hc => (hplain c hc).1, ?_, ?_⟩
    · rintro rfl
      simp at hlength
    · rw [JsString.utf16Length_eq_length fun c hc => (hplain c hc).2, hlength]
  simp only [normalizeSha256, bind_eq_ok, throwIf_eq_ok]
  refine ⟨sha256, normalizeRequiredString_string htext, (), ?_, ?_⟩
  · simp only [hlower, String.ofList_toList, isSha256Hex, Bool.not_eq_false', Bool.and_eq_true,
      decide_eq_true_eq, List.all_eq_true]
    exact ⟨hlength, hhex⟩
  · rw [hlower, String.ofList_toList]
    rfl

variable {f : String}

theorem normalizeSha256_eq_ok {sha256 : String} (h : normalizeSha256 f v = .ok sha256) :
    isSha256Hex sha256.toList = true := by
  simp only [normalizeSha256, bind_eq_ok, throwIf_eq_ok] at h
  obtain ⟨text, -, _, hhex, hr⟩ := h
  obtain rfl := Except.ok.inj hr
  simpa using hhex

theorem normalizeSizeBytes_eq_ok {n : JsNumber} (h : normalizeSizeBytes f v = .ok n) (f' : String) :
    normalizeSizeBytes f' (.number n) = .ok n := by
  cases v with
  | number m =>
    simp only [normalizeSizeBytes] at h
    split at h
    · cases h
    · rename_i hm
      obtain rfl := Except.ok.inj h
      simp only [normalizeSizeBytes]
      rw [if_neg hm]
  | _ => cases h

/-- An optional field that came through comes through again. -/
theorem optionalField_again {α : Type} {toValue : α → JsValue}
    {normalize normalize' : JsValue → Except String α} {r : Option α}
    (hdefined : ∀ a, (toValue a).isUndefined = false)
    (hagain : ∀ a, normalize v = .ok a → normalize' (toValue a) = .ok a)
    (h : optionalField v normalize = .ok r) :
    optionalField ((r.map toValue).getD .undefined) normalize' = .ok r := by
  refine optionalField_getD hdefined fun a ha => ?_
  rcases optionalField_eq_ok h with ⟨-, rfl⟩ | ⟨b, hb, rfl⟩
  · cases ha
  · obtain rfl := Option.some.inj ha
    exact hagain b hb

theorem IntakeContentRef.property_value (c : IntakeContentRef) :
    c.value.property "sha256" = (c.sha256.map JsValue.string).getD .undefined ∧
      c.value.property "sizeBytes" = (c.sizeBytes.map JsValue.number).getD .undefined ∧
      c.value.property "mediaType" = (c.mediaType.map JsValue.string).getD .undefined := by
  refine ⟨?_, ?_, ?_⟩ <;> simp [IntakeContentRef.value, JsValue.property, JsMap.lookup]

theorem normalizeContentRef_again {c : IntakeContentRef} (h : normalizeContentRef v f = .ok c)
    (f' : String) :
    normalizeContentRef c.value f' = .ok c := by
  simp only [normalizeContentRef, bind_eq_ok, throwIf_eq_ok, normalizeRequiredString_eq_ok] at h
  obtain ⟨_, -, store, ⟨hstore, -⟩, ref, ⟨href, -⟩, _, hinline, sha256, hsha256, sizeBytes, hsize,
    mediaType, hmedia, hr⟩ := h
  obtain rfl := Except.ok.inj hr
  obtain ⟨hsha', hsize', hmedia'⟩ := IntakeContentRef.property_value
    { store, ref, sha256, sizeBytes, mediaType }
  simp only [normalizeContentRef, bind_eq_ok, throwIf_eq_ok, hsha', hsize', hmedia']
  refine ⟨(), requireRecord_object ?_, store, normalizeRequiredString_string hstore, ref,
    normalizeRequiredString_string href, (), hinline, sha256, ?_, sizeBytes, ?_, mediaType, ?_, rfl⟩
  · simp only [List.forall_mem_append, forall_optionalProperty]
    simp
  · exact optionalField_again (fun _ => rfl)
      (fun s hs => normalizeSha256_string (normalizeSha256_eq_ok hs) f') hsha256
  · exact optionalField_again (fun _ => rfl) (fun n hn => normalizeSizeBytes_eq_ok hn f') hsize
  · refine optionalField_again (fun _ => rfl) (fun s hs => ?_) hmedia
    exact normalizeRequiredString_string (normalizeRequiredString_eq_ok.1 hs).1

/-! ## Provenance -/

theorem parseHopKind_text (k : HopKind) : parseHopKind (.string k.text) = some k := by
  cases k with
  | derivation => rfl
  | source c => cases c <;> rfl

structure IntakeProvenanceHop.Valid (hop : IntakeProvenanceHop) : Prop where
  ref    : IsText maxContentRefChars hop.ref
  atMs   : IsTimestamp hop.atMs
  detail : ∀ s, hop.detail = some s → IsText 512 s

theorem normalizeProvenanceHop_valid {hop : IntakeProvenanceHop}
    (h : normalizeProvenanceHop v f = .ok hop) : hop.Valid := by
  simp only [normalizeProvenanceHop, bind_eq_ok, normalizeRequiredString_eq_ok,
    normalizeTimestampMs_eq_ok] at h
  obtain ⟨_, -, kind, -, ref, ⟨href, -⟩, atMs, ⟨-, hatMs⟩, detail, hdetail, hr⟩ := h
  obtain rfl := Except.ok.inj hr
  refine ⟨href, hatMs, ?_⟩
  rintro s rfl
  rcases optionalField_eq_ok hdetail with ⟨-, hnone⟩ | ⟨s', hs', hsome⟩
  · cases hnone
  · obtain rfl := Option.some.inj hsome
    exact (normalizeRequiredString_eq_ok.1 hs').1

theorem normalizeProvenanceHop_value {hop : IntakeProvenanceHop} (h : hop.Valid) (f : String) :
    normalizeProvenanceHop hop.value f = .ok hop := by
  have hdetail : hop.value.property "detail" =
      (hop.detail.map JsValue.string).getD .undefined := by
    simp [IntakeProvenanceHop.value, JsValue.property, JsMap.lookup]
  simp only [normalizeProvenanceHop, bind_eq_ok, orThrow_eq_ok, hdetail]
  refine ⟨(), requireRecord_object ?_, hop.kind, parseHopKind_text hop.kind, hop.ref,
    normalizeRequiredString_string h.ref, hop.atMs, normalizeTimestampMs_eq_ok.2 ⟨rfl, h.atMs⟩,
    hop.detail, ?_, rfl⟩
  · simp only [List.forall_mem_append, forall_optionalProperty]
    simp
  · exact optionalField_getD (fun _ => rfl) fun s hs =>
      normalizeRequiredString_string (h.detail s hs)

/-- The chains the validator returns unchanged. -/
theorem normalizeProvenanceChain_value {hops : List IntakeProvenanceHop} (hne : hops ≠ [])
    (hbound : hops.length ≤ maxProvenanceHops) (h : ∀ hop ∈ hops, hop.Valid) :
    normalizeProvenanceChain (.array (hops.map (·.value))) = .ok hops := by
  cases hops with
  | nil => exact absurd rfl hne
  | cons hop rest =>
    have hitems : normalizeItems normalizeProvenanceHop "provenance" 0
        ((hop :: rest).map (·.value)) = .ok (hop :: rest) :=
      normalizeItems_map (fun x hx => normalizeProvenanceHop_value (h x hx)) 0
    simp only [List.map_cons, normalizeProvenanceChain] at hitems ⊢
    rw [if_neg (by simpa using hbound)]
    exact hitems

theorem normalizeProvenanceChain_eq_ok {hops : List IntakeProvenanceHop}
    (h : normalizeProvenanceChain v = .ok hops) :
    hops ≠ [] ∧ hops.length ≤ maxProvenanceHops ∧ ∀ hop ∈ hops, hop.Valid := by
  unfold normalizeProvenanceChain at h
  split at h
  · cases h
  · rename_i items hne
    split at h
    · cases h
    · rename_i hbound
      have hlength := normalizeItems_length h
      refine ⟨?_, by omega, normalizeItems_forall (fun _ _ _ => normalizeProvenanceHop_valid) h⟩
      rintro rfl
      exact hne (List.length_eq_zero_iff.1 hlength.symm)
  · cases h

/-! ## Labels, scores and extracted fields -/

@[simp] theorem ofText_riskLabel (l : IntakeRiskLabel) :
    ofText IntakeRiskLabel.all IntakeRiskLabel.text (.string l.text) = some l := by
  cases l <;> rfl

variable {labels : List IntakeRiskLabel}

theorem addRiskLabel_nodup {labels' : List IntakeRiskLabel} (hnodup : labels.Nodup)
    (h : addRiskLabel labels v = .ok labels') : labels'.Nodup := by
  simp only [addRiskLabel, bind_eq_ok] at h
  obtain ⟨label, -, hr⟩ := h
  obtain rfl := Except.ok.inj hr
  split
  · exact hnodup
  · rename_i hmem
    rw [List.nodup_append]
    exact ⟨hnodup, List.nodup_singleton _, by
      intro a ha b hb
      rw [List.mem_singleton.1 hb]
      exact fun hab => hmem (hab ▸ ha)⟩

theorem normalizeRiskLabels_nodup (h : normalizeRiskLabels v = .ok labels) : labels.Nodup := by
  unfold normalizeRiskLabels at h
  split at h
  · obtain rfl := Except.ok.inj h
    exact List.nodup_nil
  · exact foldlM_invariant (I := List.Nodup) (fun _ _ _ => addRiskLabel_nodup) List.nodup_nil h
  · cases h

/-- Labels that are all different are added one by one. -/
theorem normalizeRiskLabels_value (h : labels.Nodup) :
    normalizeRiskLabels (.array (labels.map fun l => .string l.text)) = .ok labels := by
  have hadd : ∀ (rest seen : List IntakeRiskLabel), (seen ++ rest).Nodup →
      (rest.map fun l => JsValue.string l.text).foldlM addRiskLabel seen = .ok (seen ++ rest) := by
    intro rest
    induction rest with
    | nil =>
      intro seen _
      rw [List.append_nil]
      rfl
    | cons label rest ih =>
      intro seen hnodup
      have hfresh : label ∉ seen := by
        rw [List.nodup_append] at hnodup
        exact fun hmem => hnodup.2.2 label hmem label (by simp) rfl
      have hstep : addRiskLabel seen (.string label.text) = .ok (seen ++ [label]) := by
        simp [addRiskLabel, orThrow, hfresh, bind, Except.bind, pure, Except.pure]
      have hrest := ih (seen ++ [label]) (by simpa using hnodup)
      rw [List.append_assoc, List.singleton_append] at hrest
      rw [List.map_cons, List.foldlM_cons, hstep]
      exact hrest
  exact hadd labels [] h

/-- An entry `normalizeScores` stores as it stands. -/
structure IsScore (key : String) (n : JsNumber) : Prop where
  key    : IsText 128 key
  finite : n.isFinite = true
  low    : n.lt (.finite 0) = false
  high   : (JsNumber.finite 1).lt n = false

/-- An entry `normalizeExtractedFields` stores as it stands. -/
structure IsExtractedField (key s : String) : Prop where
  key     : IsText maxExtractedFieldKeyChars key
  bounded : JsString.utf16Length s ≤ maxExtractedFieldValueChars

theorem normalizeScoreEntry_eq_ok {m m' : JsMap String JsNumber} {p : String × JsValue}
    (h : normalizeScoreEntry m p = .ok m') :
    ∃ key n, IsScore key n ∧ m' = assignProperty m key n := by
  obtain ⟨key, v⟩ := p
  simp only [normalizeScoreEntry] at h
  split at h
  · cases h
  · rename_i hkey
    split at h
    · rename_i n
      split at h
      · cases h
      · rename_i hn
        simp only [Bool.or_eq_true, Bool.not_eq_true', not_or, Bool.not_eq_false,
          Bool.not_eq_true] at hn
        simp only [Bool.or_eq_true, decide_eq_true_eq, not_or, not_lt] at hkey
        exact ⟨_, n, ⟨⟨JsString.trim_trim key, hkey.1, hkey.2⟩, hn.1.1, hn.1.2, hn.2⟩,
          (Except.ok.inj h).symm⟩
    · cases h

theorem normalizeScores_again {scores : JsMap String JsNumber}
    (h : normalizeScores v = .ok scores) :
    normalizeScores (recordValue .number scores) = .ok scores := by
  have hentries : ∀ p ∈ scores.entries, IsScore p.1 p.2 ∧ p.1 ≠ "__proto__" := by
    unfold normalizeScores at h
    split at h
    · obtain rfl := Except.ok.inj h
      simp [JsMap.empty]
    · exact (foldlM_assign (fun _ _ _ => normalizeScoreEntry_eq_ok) (by simp [JsMap.empty]) h).1
    · cases h
  refine foldlM_rebuild ?_ (by simp [JsMap.empty]) hentries
  intro m key n h
  simp [normalizeScoreEntry, h.key.trimmed, h.key.nonempty, not_lt.2 h.key.bounded, h.finite,
    h.low, h.high]

theorem normalizeExtractedEntry_eq_ok {m m' : JsMap String String} {p : String × JsValue}
    (h : normalizeExtractedEntry m p = .ok m') :
    ∃ key s, IsExtractedField key s ∧ m' = assignProperty m key s := by
  obtain ⟨key, v⟩ := p
  simp only [normalizeExtractedEntry] at h
  split at h
  · cases h
  · rename_i hkey
    split at h
    · rename_i s
      split at h
      · cases h
      · rename_i hs
        simp only [Bool.or_eq_true, decide_eq_true_eq, not_or, not_lt] at hkey
        exact ⟨_, s, ⟨⟨JsString.trim_trim key, hkey.1, hkey.2⟩, not_lt.1 hs⟩,
          (Except.ok.inj h).symm⟩
    · cases h

theorem normalizeExtractedFields_again {fields : JsMap String String}
    (h : normalizeExtractedFields v = .ok fields) :
    normalizeExtractedFields (recordValue .string fields) = .ok fields := by
  have hentries : (∀ p ∈ fields.entries, IsExtractedField p.1 p.2 ∧ p.1 ≠ "__proto__") ∧
      fields.size ≤ maxExtractedFields := by
    unfold normalizeExtractedFields at h
    split at h
    · obtain rfl := Except.ok.inj h
      simp [JsMap.empty, JsMap.size]
    · rename_i entries
      split at h
      · cases h
      · rename_i hbound
        have hassign := foldlM_assign (fun _ _ _ => normalizeExtractedEntry_eq_ok)
          (by simp [JsMap.empty]) h
        refine ⟨hassign.1, ?_⟩
        have hsize := hassign.2
        simp only [JsMap.size, JsMap.empty, List.length_nil] at hsize ⊢
        omega
    · cases h
  have hbound : ¬ (fields.entries.map fun p => (p.1, JsValue.string p.2)).length >
      maxExtractedFields := by
    rw [List.length_map]
    exact not_lt.2 hentries.2
  rw [recordValue, normalizeExtractedFields]
  rw [if_neg hbound]
  refine foldlM_rebuild ?_ (by simp [JsMap.empty]) hentries.1
  intro m key s h
  simp [normalizeExtractedEntry, h.key.trimmed, h.key.nonempty, not_lt.2 h.key.bounded,
    not_lt.2 h.bounded]

/-! ## Transitions keep envelopes valid -/

variable {e : IntakeEnvelope} {input : IntakeEnvelopeTransitionInput}

theorem nextDecision_valid (he : e.Valid) {decision : Option IntakeDecision}
    (h : nextDecision e input = .ok decision) : ∀ d, decision = some d → d.Valid := by
  unfold nextDecision at h
  split at h
  · simp only [bind_eq_ok] at h
    obtain ⟨given, -, d, hd, _, -, hr⟩ := h
    obtain rfl := Except.ok.inj hr
    rintro d' hd'
    obtain rfl := Option.some.inj hd'
    exact normalizeDecision_valid hd
  · split at h
    · simp only [bind_eq_ok] at h
      obtain ⟨given, -, d, hd, _, -, hr⟩ := h
      obtain rfl := Except.ok.inj hr
      rintro d' hd'
      obtain rfl := Option.some.inj hd'
      exact normalizeDecision_valid hd
    · split at h
      · cases h
      · obtain rfl := Except.ok.inj h
        exact he.decision

/-- Past `received` there is always a decision. -/
theorem nextDecision_ne_none (he : e.Valid) {decision : Option IntakeDecision}
    (hallowed : isIntakeEnvelopeTransitionAllowed e.state input.target = true)
    (h : nextDecision e input = .ok decision) : decision ≠ none := by
  unfold nextDecision at h
  split at h
  · simp only [bind_eq_ok] at h
    obtain ⟨given, -, d, -, _, -, hr⟩ := h
    obtain rfl := Except.ok.inj hr
    exact Option.some_ne_none d
  · rename_i hscreened
    split at h
    · simp only [bind_eq_ok] at h
      obtain ⟨given, -, d, -, _, -, hr⟩ := h
      obtain rfl := Except.ok.inj hr
      exact Option.some_ne_none d
    · split at h
      · cases h
      · obtain rfl := Except.ok.inj h
        rw [ne_eq, he.decided]
        -- from `received` the only way leads to `screened`
        intro hreceived
        simp [isIntakeEnvelopeTransitionAllowed, hreceived, IntakeEnvelopeState.transitions] at hallowed
        exact hscreened hallowed

theorem target_ne_received {source target : IntakeEnvelopeState}
    (h : isIntakeEnvelopeTransitionAllowed source target = true) : target ≠ .received := by
  rintro rfl
  cases source <;> simp [isIntakeEnvelopeTransitionAllowed, IntakeEnvelopeState.transitions] at h

variable {now : JsNumber}

/-- What a transition does to an envelope. -/
theorem transitionIntakeEnvelope_eq_ok {e' : IntakeEnvelope}
    (h : transitionIntakeEnvelope now e input = .ok e') :
    isIntakeEnvelopeTransitionAllowed e.state input.target = true ∧
      ∃ decision atMs actor reason riskLabels scores extractedFields,
        nextDecision e input = .ok decision ∧
        checkRouting e input.target decision = .ok () ∧
        resolveAtMs now input.atMs "transition.atMs" = .ok atMs ∧
        IsText 256 actor ∧ IsText maxReasonChars reason ∧
        mergeRiskLabels e input = .ok riskLabels ∧ mergeScores e input = .ok scores ∧
        mergeExtractedFields e input = .ok extractedFields ∧
        e' = { e with
          riskLabels
          scores
          extractedFields
          decision
          state := input.target
          transitions := e.transitions ++
            [{ source := e.state, target := input.target, atMs, actor, reason }] } := by
  simp only [transitionIntakeEnvelope, bind_eq_ok, throwIf_eq_ok,
    normalizeRequiredString_eq_ok] at h
  obtain ⟨_, hallowed, _, -, decision, hdecision, _, hrouting, atMs, hatMs, actor, ⟨hactor, -⟩,
    reason, ⟨hreason, -⟩, labels, hlabels, scores, hscores, fields, hfields, he'⟩ := h
  exact ⟨by simpa using hallowed, decision, atMs, actor, reason, labels, scores, fields, hdecision,
    hrouting, hatMs, hactor, hreason, hlabels, hscores, hfields, (Except.ok.inj he').symm⟩

theorem mergeRiskLabels_valid (he : e.Valid) (h : mergeRiskLabels e input = .ok labels) :
    normalizeRiskLabels (.array (labels.map fun l => .string l.text)) = .ok labels := by
  unfold mergeRiskLabels at h
  split at h
  · exact normalizeRiskLabels_value (normalizeRiskLabels_nodup h)
  · obtain rfl := Except.ok.inj h
    exact he.riskLabels

theorem mergeScores_valid (he : e.Valid) {scores : JsMap String JsNumber}
    (h : mergeScores e input = .ok scores) :
    normalizeScores (recordValue .number scores) = .ok scores := by
  unfold mergeScores at h
  split at h
  · exact normalizeScores_again h
  · obtain rfl := Except.ok.inj h
    exact he.scores

theorem mergeExtractedFields_valid (he : e.Valid) {fields : JsMap String String}
    (h : mergeExtractedFields e input = .ok fields) :
    normalizeExtractedFields (recordValue .string fields) = .ok fields := by
  unfold mergeExtractedFields at h
  split at h
  · exact normalizeExtractedFields_again h
  · obtain rfl := Except.ok.inj h
    exact he.extractedFields

/-- **Step lemma.** A transition keeps an envelope valid. -/
theorem IntakeEnvelope.Valid.transition {e' : IntakeEnvelope} (he : e.Valid)
    (hnow : input.atMs = none → IsTimestamp now)
    (h : transitionIntakeEnvelope now e input = .ok e') : e'.Valid := by
  obtain ⟨hallowed, decision, atMs, actor, reason, labels, scores, fields, hdecision, -, hatMs,
    hactor, hreason, hlabels, hscores, hfields, rfl⟩ := transitionIntakeEnvelope_eq_ok h
  refine ⟨he.id, he.provenance, he.contentRef, mergeExtractedFields_valid he hfields,
    mergeRiskLabels_valid he hlabels, mergeScores_valid he hscores, he.createdAtMs, ?_,
    followJournal_append he.journal rfl hallowed, nextDecision_valid he hdecision, ?_⟩
  · intro r hr
    rcases List.mem_append.1 hr with hr | hr
    · exact he.transitions r hr
    · obtain rfl := List.mem_singleton.1 hr
      exact ⟨resolveAtMs_isTimestamp hnow hatMs, hactor, hreason⟩
  · exact iff_of_false (nextDecision_ne_none he hallowed hdecision) (target_ne_received hallowed)

/-! ## Creation, derivation and reload -/

/-- A fresh envelope is valid when the fields its producer fills in are. -/
theorem IntakeEnvelope.valid_fresh {sourceClass : IntakeSourceClass}
    {sourceRiskTier : IntakeSourceRiskTier} {provenance : List IntakeProvenanceHop}
    {contentRef : IntakeContentRef} {atMs : JsNumber}
    (hid : normalizeIntakeEnvelopeId (.string id) = .ok id)
    (hprovenance : normalizeProvenanceChain (.array (provenance.map (·.value))) = .ok provenance)
    (hcontentRef : normalizeContentRef contentRef.value "contentRef" = .ok contentRef)
    (hatMs : IsTimestamp atMs) :
    IntakeEnvelope.Valid
      { id, sourceClass, provenance, sourceRiskTier, contentRef, extractedFields := JsMap.empty
        riskLabels := [], scores := JsMap.empty, decision := none, state := .received
        createdAtMs := atMs, transitions := [] } :=
  ⟨hid, hprovenance, hcontentRef, rfl, rfl, rfl, hatMs, by simp, rfl, by simp, by simp⟩

theorem IntakeEnvelope.Valid.create {input : CreateIntakeEnvelopeInput} (hnow : IsClockReading now)
    (huuid : IsUuid uuid) (h : createIntakeEnvelope now uuid input = .ok e) : e.Valid := by
  simp only [createIntakeEnvelope, bind_eq_ok] at h
  obtain ⟨atMs, hatMs, hop, hhop, id, hid, contentRef, hcontentRef, hr⟩ := h
  obtain rfl := Except.ok.inj hr
  refine IntakeEnvelope.valid_fresh (resolveId_valid (fun _ => huuid) hid) ?_
    (normalizeContentRef_again hcontentRef _)
    (resolveAtMs_isTimestamp (fun _ => hnow.isTimestamp) hatMs)
  refine normalizeProvenanceChain_value (by simp) (by simp [maxProvenanceHops]) ?_
  simpa using normalizeProvenanceHop_valid hhop

/-- The reference to a parent is a plain text of bounded length. -/
theorem intakeEnvelopeProvenanceRef_isText {ref : String}
    (h : intakeEnvelopeProvenanceRef id = .ok ref) : IsText maxContentRefChars ref := by
  simp only [intakeEnvelopeProvenanceRef, bind_eq_ok] at h
  obtain ⟨id', hid, hr⟩ := h
  obtain rfl := Except.ok.inj hr
  have hid' := normalizeIntakeEnvelopeId_eq_ok hid
  have hplain : ∀ c ∈ ("intake-envelope:" ++ id').toList,
      JsString.isSpace c = false ∧ c.toNat < 0x10000 := by
    intro c hc
    rw [String.toList_append, List.mem_append] at hc
    rcases hc with hc | hc
    · have hall : ("intake-envelope:".toList.all fun c =>
          !JsString.isSpace c && decide (c.toNat < 0x10000)) = true := by decide
      simpa using List.all_eq_true.mp hall c hc
    · exact isIdChar_plain (forall_isIdChar hid' c hc)
  refine ⟨JsString.trim_eq_self fun c hc => (hplain c hc).1, ?_, ?_⟩
  · intro hempty
    have hnil := congrArg String.toList hempty
    simp at hnil
  · have hlength := length_of_isIntakeEnvelopeId hid'
    rw [JsString.utf16Length_eq_length fun c hc => (hplain c hc).2, String.toList_append,
      List.length_append]
    have hpre : "intake-envelope:".toList.length = 16 := by decide
    unfold maxContentRefChars
    omega

theorem IntakeEnvelope.Valid.derive {input : DeriveIntakeEnvelopeInput}
    (hparent : input.parent.Valid) (hnow : IsClockReading now) (huuid : IsUuid uuid)
    (h : deriveChildIntakeEnvelope now uuid input = .ok e) : e.Valid := by
  simp only [deriveChildIntakeEnvelope, bind_eq_ok, throwIf_eq_ok, decide_eq_false_iff_not,
    not_le] at h
  obtain ⟨_, hhops, atMs, hatMs, ref, href, id, hid, contentRef, hcontentRef, hr⟩ := h
  obtain rfl := Except.ok.inj hr
  have hatMs' := resolveAtMs_isTimestamp (fun _ => hnow.isTimestamp) hatMs
  refine IntakeEnvelope.valid_fresh (resolveId_valid (fun _ => huuid) hid) ?_
    (normalizeContentRef_again hcontentRef _) hatMs'
  -- the parent's chain was valid, and the new hop refers to the parent's own id
  obtain ⟨-, -, hvalid⟩ := normalizeProvenanceChain_eq_ok hparent.provenance
  refine normalizeProvenanceChain_value (by simp) ?_ ?_
  · rw [List.length_append, List.length_singleton]
    omega
  · intro hop hhop
    rcases List.mem_append.1 hhop with hhop | hhop
    · exact hvalid hop hhop
    · obtain rfl := List.mem_singleton.1 hhop
      refine ⟨intakeEnvelopeProvenanceRef_isText href, hatMs', ?_⟩
      rintro s hs
      obtain rfl := Option.some.inj hs
      cases input.derivation <;> exact ⟨by decide, by decide, by decide⟩

/-- What the validator lets through is valid: it normalises as it reads. -/
theorem IntakeEnvelope.Valid.loaded (h : validateIntakeEnvelope v = .ok e) : e.Valid := by
  have hv := validateIntakeEnvelope_eq_ok.1 h
  obtain ⟨items, -, hitems⟩ := hv.transitions
  obtain ⟨hne, hbound, hhops⟩ := normalizeProvenanceChain_eq_ok hv.provenance
  refine ⟨normalizeIntakeEnvelopeId_string (normalizeIntakeEnvelopeId_eq_ok hv.id),
    normalizeProvenanceChain_value hne hbound hhops, normalizeContentRef_again hv.contentRef _,
    normalizeExtractedFields_again hv.extractedFields,
    normalizeRiskLabels_value (normalizeRiskLabels_nodup hv.riskLabels),
    normalizeScores_again hv.scores, (normalizeTimestampMs_eq_ok.1 hv.createdAtMs).2,
    normalizeItems_forall (fun _ _ _ => normalizeTransitionRecord_valid) hitems, hv.journal, ?_,
    hv.decided⟩
  intro d hd
  rcases optionalField_eq_ok hv.decision with ⟨-, hnone⟩ | ⟨d', hd', hsome⟩
  · rw [hd] at hnone
    cases hnone
  · obtain rfl : d = d' := Option.some.inj (hd.symm.trans hsome)
    exact normalizeDecision_valid hd'

/-! ## Runs -/

/-- The envelopes the contract's functions reach: created, derived from one of these,
transitioned from one of these, or read back by the validator. -/
inductive Built : IntakeEnvelope → Prop
  | create {now : JsNumber} {uuid : String} {input : CreateIntakeEnvelopeInput}
      {e : IntakeEnvelope} (hnow : IsClockReading now) (huuid : IsUuid uuid)
      (h : createIntakeEnvelope now uuid input = .ok e) : Built e
  | derive {now : JsNumber} {uuid : String} {input : DeriveIntakeEnvelopeInput}
      {e : IntakeEnvelope} (hparent : Built input.parent) (hnow : IsClockReading now)
      (huuid : IsUuid uuid) (h : deriveChildIntakeEnvelope now uuid input = .ok e) : Built e
  | transition {now : JsNumber} {input : IntakeEnvelopeTransitionInput} {e e' : IntakeEnvelope}
      (he : Built e) (hnow : IsClockReading now)
      (h : transitionIntakeEnvelope now e input = .ok e') : Built e'
  | loaded {v : JsValue} {e : IntakeEnvelope} (h : validateIntakeEnvelope v = .ok e) : Built e

/-- **Run lemma.** -/
theorem Built.valid (h : Built e) : e.Valid := by
  induction h with
  | create hnow huuid h => exact .create hnow huuid h
  | derive _ hnow huuid h ih => exact .derive ih hnow huuid h
  | transition _ hnow h ih => exact ih.transition (fun _ => hnow.isTimestamp) h
  | loaded h => exact .loaded h

/-- **Round trip over all runs.** Every envelope created or derived, after any number of
transitions, comes back from JSON through the validator as itself. -/
theorem built_reloads {e : IntakeEnvelope} (h : Built e) :
    validateIntakeEnvelope e.value.json = .ok e := by
  rw [JsValue.json_eq_self h.valid.isJson]
  exact validateIntakeEnvelope_value_iff.2 h.valid

/-! ### A run with findings -/

def sampleUuid : String := "3f2504e0-4f89-41d3-9a0c-0305e82c3301"

theorem isUuid_sampleUuid : IsUuid sampleUuid :=
  ⟨"3f2504e0".toList, "4f89".toList, "41d3".toList, "9a0c".toList, "0305e82c3301".toList,
    by decide, by decide, by decide, by decide, by decide, by decide, List.all_eq_true.mp (by decide)⟩

theorem isClockReading_million : IsClockReading (.finite 1000000) := ⟨1000000, by decide, rfl⟩

def sampleReceived : IntakeEnvelope where
  id := sampleUuid
  sourceClass := .webFetch
  provenance := [{ kind := .source .webFetch, ref := "https://example.org", atMs := .finite 1000000 }]
  sourceRiskTier := .untrusted
  contentRef := { store := "gateway-quarantine", ref := "web/1" }
  extractedFields := JsMap.empty
  riskLabels := []
  scores := JsMap.empty
  decision := none
  state := .received
  createdAtMs := .finite 1000000
  transitions := []

/-- Screening records a label twice, and keys with space around them. -/
def sampleScreening : IntakeEnvelopeTransitionInput where
  target := .screened
  actor := " gateway:intake-screening"
  reason := "screened "
  decision := some
    { action := .quarantine, reason := "rule", decidedBy := .screening, decidedAtMs := .finite 7 }
  riskLabels := some [.injectionIndirect, .injectionIndirect]
  scores := some (JsMap.ofList [(" l2 ", .finite (1 / 2))])
  extractedFields := some (JsMap.ofList [("verdict ", " held "), ("__proto__", "x")])

def sampleScreened : IntakeEnvelope :=
  { sampleReceived with
    extractedFields := JsMap.ofList [("verdict", " held ")]
    riskLabels := [.injectionIndirect]
    scores := JsMap.ofList [("l2", .finite (1 / 2))]
    decision := sampleScreening.decision
    state := .screened
    transitions :=
      [{ source := .received, target := .screened, atMs := .finite 1000000
         actor := "gateway:intake-screening", reason := "screened" }] }

theorem built_sampleScreened : Built sampleScreened := by
  have hcreate : createIntakeEnvelope (.finite 1000000) sampleUuid
      { sourceClass := .webFetch, sourceRiskTier := .untrusted
        contentRef := { store := "gateway-quarantine", ref := " web/1" }
        originRef := "https://example.org" } = .ok sampleReceived := by decide +kernel
  have hscreen : transitionIntakeEnvelope (.finite 1000000) sampleReceived sampleScreening =
      .ok sampleScreened := by decide +kernel
  exact .transition (.create isClockReading_million isUuid_sampleUuid hcreate)
    isClockReading_million hscreen

theorem built_reloads_screened :
    Built sampleScreened ∧ validateIntakeEnvelope sampleScreened.value.json = .ok sampleScreened :=
  ⟨built_sampleScreened, built_reloads built_sampleScreened⟩

end Psfn.Intake
