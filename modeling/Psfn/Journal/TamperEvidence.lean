import Psfn.Journal.Signing

/-!
# Session journal — what a load tells about tampering

A journal is written by appends, rewrites and rotations; the rows a rewrite replaces are a
retired generation. Every generation is a chain under the keyring in force
(`JournalHistory.wellFormed_of_reachable`).

Whoever changes the files can take over what the writers have signed but cannot sign, so
rows that all verify were signed one after the other as they stand: they are the first rows
of some generation (`verified_is_prefix`). A generation that a rewrite has replaced still
verifies; nothing in the files says which generation is the last.

* `SignatureUnforgeable`, `SignedDigestsInjective` — the two assumptions on the HMAC;
* `notices_of_run` — the notices in a run of rows that do not verify;
* `journal_integrity` — what a load of any files says about the journal that was written.
-/

namespace Psfn.Journal

open Psfn.Lib

/-! ## Histories -/

/-- A journal, and the rows of every generation a rewrite has replaced. -/
structure JournalHistory where
  journal : SessionJournal
  retired : List (List JournalEntry)

namespace JournalHistory

def generations (h : JournalHistory) : List (List JournalEntry) :=
  rowsOf h.journal.archives :: h.retired

def keyring (h : JournalHistory) : SessionHmacKeyring := h.journal.keyring.1.toSessionHmacKeyring

/-- A session that starts without a file. -/
def system (sr : SigningRuntime) (keyring : { keyring : ActiveKeyring // keyring.WellFormed }) :
    System JournalHistory where
  init :=
    { journal := { archives := [{ active := none }], lastHmac := none, keyring }, retired := [] }
  step h h' := ∃ rewrites, JournalStep sr rewrites h.journal h'.journal ∧
    h'.retired = if rewrites then rowsOf h.journal.archives :: h.retired else h.retired

/-- The journal is well formed and no generation has lost its chain. -/
def WellFormed (sr : SigningRuntime) (h : JournalHistory) : Prop :=
  h.journal.WellFormed sr ∧ ∀ rows ∈ h.retired, Chained sr.toRuntime h.keyring .null rows

theorem retains_of_step {sr : SigningRuntime} {rewrites : Bool} {s s' : SessionJournal}
    (hstep : JournalStep sr rewrites s s') : Retains s.keyring.1 s'.keyring.1 := by
  cases hstep with
  | append journal hwrite =>
    simp only [writeJournalEntry, Option.bind_eq_bind, Option.bind_eq_some_iff,
      Option.pure_def] at hwrite
    obtain ⟨signed, -, hs'⟩ := hwrite
    cases hs'
    exact fun _ _ h => h
  | rotate keyring h => exact h
  | _ => exact fun _ _ h => h

/-- **Every journal that is written loads as a chain**, whatever was appended, rewritten and
rotated, and so does every generation before it. -/
theorem wellFormed_of_reachable {sr : SigningRuntime}
    {keyring : { keyring : ActiveKeyring // keyring.WellFormed }} {h : JournalHistory}
    (hreachable : (system sr keyring).Reachable h) : h.WellFormed sr := by
  refine System.invariant (I := WellFormed sr) ?_ ?_ hreachable
  · refine ⟨⟨by simp [system], trivial, rfl, Or.inl rfl⟩, ?_⟩
    intro rows hrows
    exact absurd hrows (by simp [system])
  · rintro h h' ⟨hjournal, hretired⟩ ⟨rewrites, hstep, hnext⟩
    have hretains := retains_of_step hstep
    refine ⟨hjournal.step hstep, ?_⟩
    intro rows hrows
    rw [hnext] at hrows
    refine hretains.chained ?_
    split at hrows
    · rcases List.mem_cons.mp hrows with rfl | hrows
      · exact hjournal.chained
      · exact hretired rows hrows
    · exact hretired rows hrows

theorem WellFormed.chained {sr : SigningRuntime} {h : JournalHistory} (hwf : h.WellFormed sr)
    {rows : List JournalEntry} (hrows : rows ∈ h.generations) :
    Chained sr.toRuntime h.keyring .null rows := by
  rcases List.mem_cons.mp hrows with rfl | hrows
  · exact hwf.1.chained
  · exact hwf.2 rows hrows

end JournalHistory

/-! ## Assumptions on the HMAC -/

section Assumptions

variable (sr : SigningRuntime) (h : JournalHistory)

/-- The writers have signed this payload: it is that of a row of some generation. -/
def Signed (key : String) (payload : SignedPayload) : Prop :=
  ∃ rows ∈ h.generations, ∃ front m back version, rows = front ++ m :: back ∧
    nonEmptyText m.hmacKeyVersion = some version ∧
    (h.keyring.keys.get version).filter (· ≠ "") = some key ∧
    payload = sr.payload m version (anchorAfter .null front)

/-- HMAC unforgeability, for the rows found in the files: what verifies was signed. -/
def SignatureUnforgeable (rows : List JournalEntry) : Prop :=
  ∀ r ∈ rows, ∀ previous version key, nonEmptyText r.hmacKeyVersion = some version →
    (h.keyring.keys.get version).filter (· ≠ "") = some key →
    Verifies sr.toRuntime h.keyring previous r →
    Signed sr h key (sr.payload r version previous)

/-- Collision resistance, over the payloads that were signed. -/
def SignedDigestsInjective : Prop :=
  ∀ key payload key' payload', Signed sr h key payload → Signed sr h key' payload' →
    hexNibbles (sr.createHmac key payload).value = hexNibbles (sr.createHmac key' payload').value →
    payload = payload'

end Assumptions

/-! ## Rows that verify -/

section Verified

variable {sr : SigningRuntime} {h : JournalHistory}

theorem anchorAfter_concat (previous : JsValue) (rows : List JournalEntry) (row : JournalEntry) :
    anchorAfter previous (rows ++ [row]) = anchorOf row := by
  simp [anchorAfter]

theorem payload_previousHmac (entry : JournalEntry) (version : String) (rows : List JournalEntry) :
    (sr.payload entry version (anchorAfter .null rows)).previousHmac = anchorAfter .null rows := by
  unfold SigningRuntime.payload anchorAfter
  cases rows.getLast? with
  | none => rfl
  | some row =>
    cases htext : textOrNull row.hmac <;> simp [anchorOf, htext, candidateOf]

/-- Rows whose last one carries the payload of a row of a generation are the rows of that
generation up to it: each predecessor signature names one payload. -/
theorem covered_eq_of_payload_eq (hinjective : SignedDigestsInjective sr h)
    {generation : List JournalEntry} (hgeneration : generation ∈ h.generations)
    {rows front back : List JournalEntry} {r m : JournalEntry} {version version' : String}
    (hrows : Chained sr.toRuntime h.keyring .null (rows ++ [r]))
    (hunforgeable : SignatureUnforgeable sr h (rows ++ [r]))
    (hsplit : generation = front ++ m :: back)
    (hfront : Chained sr.toRuntime h.keyring .null (front ++ [m]))
    (hpayload : sr.payload r version (anchorAfter .null rows) =
      sr.payload m version' (anchorAfter .null front)) :
    (rows ++ [r]).map sr.covered = (front ++ [m]).map sr.covered := by
  -- from the last row backwards
  induction rows using List.reverseRecOn generalizing front back r m version version' with
  | nil =>
    have hlast : sr.covered r = sr.covered m := congrArg SignedPayload.entry hpayload
    have hprevious : anchorAfter .null front = .null := by
      have hsame := congrArg SignedPayload.previousHmac hpayload
      rw [payload_previousHmac, payload_previousHmac] at hsame
      exact hsame.symm
    rcases List.eq_nil_or_concat front with rfl | ⟨front', m', hconcat⟩
    · simp [hlast]
    · -- a first row has no predecessor
      rw [List.concat_eq_append] at hconcat
      subst hconcat
      rw [anchorAfter_concat] at hprevious
      have hverifies := (chained_append.mp (chained_append.mp hfront).1).2.1
      obtain ⟨observed, hobserved⟩ := hverifies.hmac
      rw [anchorOf, hobserved] at hprevious
      exact absurd hprevious (by simp [textOrNull, candidateOf])
  | append_singleton rows r' ih =>
    have hlast : sr.covered r = sr.covered m := congrArg SignedPayload.entry hpayload
    have hprevious : anchorAfter .null (rows ++ [r']) = anchorAfter .null front := by
      have hsame := congrArg SignedPayload.previousHmac hpayload
      rwa [payload_previousHmac, payload_previousHmac] at hsame
    have hchained := (chained_append.mp hrows).1
    have hverifies := (chained_append.mp hchained).2.1
    obtain ⟨observed, hobserved⟩ := hverifies.hmac
    rw [anchorAfter_concat, anchorOf, hobserved] at hprevious
    rcases List.eq_nil_or_concat front with rfl | ⟨front', m', hconcat⟩
    · exact absurd hprevious (by simp [anchorAfter, textOrNull, candidateOf])
    · rw [List.concat_eq_append] at hconcat
      subst hconcat
      have hchained' := (chained_append.mp hfront).1
      have hverifies' := (chained_append.mp hchained').2.1
      obtain ⟨observed', hobserved'⟩ := hverifies'.hmac
      rw [anchorAfter_concat, anchorOf, hobserved'] at hprevious
      obtain rfl : observed = observed' := by simpa [textOrNull, candidateOf] using hprevious
      obtain ⟨o, v, key, ho, hv, hkey, -, hsame⟩ := verifies_iff.mp hverifies
      obtain ⟨o', v', key', ho', hv', hkey', -, hsame'⟩ := verifies_iff.mp hverifies'
      -- both rows carry one digest, and both payloads were signed
      have hdigests : hexNibbles (sr.createHmac key (sr.payload r' v (anchorAfter .null rows))).value =
          hexNibbles (sr.createHmac key' (sr.payload m' v' (anchorAfter .null front'))).value := by
        rw [hobserved] at ho
        rw [hobserved'] at ho'
        obtain rfl := Option.some.inj (ho.symm.trans ho')
        exact hsame.trans hsame'.symm
      have hsigned : Signed sr h key (sr.payload r' v (anchorAfter .null rows)) :=
        hunforgeable r' (by simp) _ v key hv hkey hverifies
      have hsigned' : Signed sr h key' (sr.payload m' v' (anchorAfter .null front')) :=
        ⟨generation, hgeneration, front', m', m :: back, v', by simp [hsplit], hv', hkey', rfl⟩
      have hsplit' : generation = front' ++ m' :: (m :: back) := by simp [hsplit]
      have hrest := ih hchained (fun x hx => hunforgeable x (List.mem_append_left _ hx)) hsplit'
        hchained' (hinjective _ _ _ _ hsigned hsigned' hdigests)
      rw [@List.map_append _ _ sr.covered (rows ++ [r']) [r],
        @List.map_append _ _ sr.covered (front' ++ [m']) [m], hrest]
      simp [hlast]

/-- **Rows that all verify are the first rows of a generation.** -/
theorem verified_is_prefix (hwf : h.WellFormed sr) (hinjective : SignedDigestsInjective sr h)
    {rows : List JournalEntry} (hunforgeable : SignatureUnforgeable sr h rows)
    (hrows : Chained sr.toRuntime h.keyring .null rows) :
    ∃ generation ∈ h.generations, rows.map sr.covered <+: generation.map sr.covered := by
  rcases List.eq_nil_or_concat rows with rfl | ⟨rows', r, hconcat⟩
  · exact ⟨rowsOf h.journal.archives, List.mem_cons_self, List.nil_prefix⟩
  · rw [List.concat_eq_append] at hconcat
    subst hconcat
    have hverifies := (chained_append.mp hrows).2.1
    obtain ⟨-, version, key, -, hversion, hkey, -⟩ := verifies_iff.mp hverifies
    obtain ⟨generation, hgeneration, front, m, back, version', rfl, -, -, hpayload⟩ :=
      hunforgeable r (by simp) _ version key hversion hkey hverifies
    have hsplit : front ++ m :: back = (front ++ [m]) ++ back := by simp
    have hchained := hwf.chained hgeneration
    rw [hsplit] at hchained
    have hcovered := covered_eq_of_payload_eq hinjective hgeneration hrows hunforgeable rfl
      (chained_append.mp hchained).1 hpayload
    refine ⟨front ++ m :: back, hgeneration, ?_⟩
    rw [hcovered, hsplit, @List.map_append _ _ sr.covered (front ++ [m]) back]
    exact List.prefix_append _ _

end Verified

/-! ## Notices -/

/-- Rows whose text a load shows. -/
def isRendered (entry : JournalEntry) : Bool :=
  match entry.body with
  | .message .. => true
  | .compaction (.string _) => true
  | _ => false

/-- The text starts with the full notice. -/
def startsWithFullNotice (text : String) : Bool :=
  "<unverified_history>\n".toList.isPrefixOf text.toList

/-- The row is shown under the full notice. -/
def showsFullNotice (n : NormalizedJournalEntry) : Bool :=
  !n.verified && match n.entry.body with
    | .message _ content _ => startsWithFullNotice content
    | .compaction (.string summary) => startsWithFullNotice summary
    | _ => false

theorem startsWithFullNotice_wrap (text : String) (reason : Option FailureReason)
    (continuation : Bool) :
    startsWithFullNotice (wrapUnverifiedHistory text reason continuation) = !continuation := by
  unfold startsWithFullNotice wrapUnverifiedHistory
  cases continuation
  · simp [String.toList_append]
  · simp [String.toList_append]
    rfl

section Notices

variable {rt : Runtime} {keyring : Option SessionHmacKeyring}

/-- A row that does not verify is shown under the full notice if it is shown and the run has
not shown one. -/
theorem notice_of_unverified {s : ScanState} {row : JournalEntry}
    (h : (s.normalize rt keyring row).verified = false) :
    showsFullNotice (s.normalize rt keyring row) = (isRendered row && !s.runNoticeRendered) ∧
      (s.after (s.normalize rt keyring row)).runNoticeRendered =
        (s.runNoticeRendered || isRendered row) := by
  obtain ⟨reason, hentry, hrendered⟩ : ∃ reason,
      (s.normalize rt keyring row).entry = (wrapEntry row reason s.runNoticeRendered).1 ∧
      (s.normalize rt keyring row).renderedUnverifiedNotice =
        (wrapEntry row reason s.runNoticeRendered).2 := by
    unfold ScanState.normalize verifyAndNormalizeEntry at h ⊢
    cases keyring with
    | none => exact absurd h (by simp)
    | some keyring =>
      dsimp only at h ⊢
      split at h
      · exact absurd h (by simp)
      · exact ⟨_, rfl, rfl⟩
  rw [showsFullNotice, ScanState.after, h, hentry, hrendered]
  unfold wrapEntry isRendered
  cases hbody : row.body with
  | message role content metadata => simp [startsWithFullNotice_wrap]
  | compaction summary =>
    cases summary <;> simp [startsWithFullNotice_wrap, hbody]
  | marker => simp [hbody]
  | tombstone targetId action => simp [hbody]

/-- The notices of rows none of which verify. -/
theorem countP_notices (s : ScanState) (run : List JournalEntry)
    (h : ∀ n ∈ (scanRows rt keyring s run).2, n.verified = false) :
    (scanRows rt keyring s run).2.countP showsFullNotice =
      if run.any isRendered && !s.runNoticeRendered then 1 else 0 := by
  induction run generalizing s with
  | nil => rfl
  | cons row rest ih =>
    have hrow : (s.normalize rt keyring row).verified = false := h _ List.mem_cons_self
    obtain ⟨hnotice, hafter⟩ := notice_of_unverified hrow
    have hrest := ih (s.after (s.normalize rt keyring row))
      fun n hn => h n (List.mem_cons_of_mem _ hn)
    show (s.normalize rt keyring row :: (scanRows rt keyring _ rest).2).countP showsFullNotice = _
    rw [List.countP_cons, hrest, hnotice, hafter, List.any_cons]
    cases isRendered row <;> cases s.runNoticeRendered <;> simp

/-- Before a run no notice is pending: nothing was read, or the row before verified. -/
theorem runNoticeRendered_of_verified {front : List JournalEntry} {s : ScanState}
    (hs : s.runNoticeRendered = false)
    (h : ∀ n, (scanRows rt keyring s front).2.getLast? = some n → n.verified = true) :
    (scanRows rt keyring s front).1.runNoticeRendered = false := by
  rcases List.eq_nil_or_concat front with rfl | ⟨rest, row, hconcat⟩
  · exact hs
  · rw [List.concat_eq_append] at hconcat
    subst hconcat
    rw [scanRows_append] at h ⊢
    have hrow : ((scanRows rt keyring s rest).1.normalize rt keyring row).verified = true :=
      h _ (by simp [scanRows])
    show (ScanState.after _ (ScanState.normalize rt keyring _ row)).runNoticeRendered = false
    rw [ScanState.after, if_pos hrow]

/-- **The notices of a run.** A run of rows that do not verify shows exactly one full notice if
it shows a row at all, and none otherwise. -/
theorem notices_of_run {front run back : List JournalEntry} {rows : List JournalEntry}
    (hrows : rows = front ++ run ++ back)
    (hfront : ∀ n, (scanRows rt keyring loadStart front).2.getLast? = some n → n.verified = true)
    (hrun : ∀ n ∈ (scanRows rt keyring (scanRows rt keyring loadStart front).1 run).2,
      n.verified = false) :
    ∃ ns before after, (scanRows rt keyring loadStart rows).2 = before ++ ns ++ after ∧
      before.length = front.length ∧ ns.length = run.length ∧
      ns.countP showsFullNotice = if run.any isRendered then 1 else 0 := by
  have hlength : ∀ (s : ScanState) (rows : List JournalEntry),
      (scanRows rt keyring s rows).2.length = rows.length := by
    intro s rows
    induction rows generalizing s with
    | nil => rfl
    | cons row rest ih => simp [scanRows, ih]
  refine ⟨(scanRows rt keyring (scanRows rt keyring loadStart front).1 run).2,
    (scanRows rt keyring loadStart front).2,
    (scanRows rt keyring (scanRows rt keyring loadStart (front ++ run)).1 back).2,
    ?_, hlength _ _, hlength _ _, ?_⟩
  · rw [hrows, scanRows_append, scanRows_append]
  · have hflag : (scanRows rt keyring loadStart front).1.runNoticeRendered = false :=
      runNoticeRendered_of_verified rfl hfront
    rw [countP_notices _ _ hrun, hflag, Bool.not_false, Bool.and_true]

end Notices

/-! ## The journal and what is found in its place -/

/-- A digest for each of two texts as a first row, and one for everything else. -/
def textDigest (payload : SignedPayload) : Digest where
  value := String.ofList (List.replicate 63 '0' ++ [
    match payload.previousHmac with
    | .null => if payload.entry = "hello" then '1' else if payload.entry = "sealed" then '2' else '3'
    | _ => '3'])
  isHex := by
    split
    · by_cases h₁ : payload.entry = "hello" <;> by_cases h₂ : payload.entry = "sealed" <;>
        simp only [h₁, h₂, if_true, if_false] <;> decide +kernel
    · decide +kernel

/-- The content stands for the text of an entry. -/
def contentRuntime : SigningRuntime where
  parseJson _ := none
  backfillLegacyTurnId channelId _ _ _ := channelId
  stableStringify entry := match entry.body with
    | .message _ content _ => content
    | _ => ""
  createHmac _ payload := textDigest payload

def firstKeyring : { keyring : ActiveKeyring // keyring.WellFormed } :=
  ⟨{ keys := .ofList [("v1", "secret")], activeVersion := "v1" },
    by decide, "secret", rfl, by decide⟩

def draft (content : String) : JournalEntry :=
  { id := 1, channelId := "c", timestamp := 1, body := .message .user content .undefined }

/-- The draft as the first row of a journal. -/
def firstRow (content : String) : JournalEntry :=
  { draft content with
    hmac := .string (textDigest { keyVersion := "v1", previousHmac := .null, entry := content }).value
    hmacKeyVersion := .string "v1" }

def fileOf (rows : List JournalEntry) : List Archive := [{ active := some (rows.map .entry) }]

/-- A message was written. -/
def writtenHistory : JournalHistory where
  journal :=
    { archives := fileOf [firstRow "hello"]
      lastHmac := textOrNull (firstRow "hello").hmac
      keyring := firstKeyring }
  retired := []

/-- And then it was rewritten. -/
def sealedHistory : JournalHistory where
  journal :=
    { archives := fileOf [firstRow "sealed"]
      lastHmac := loadedLastHmac contentRuntime firstKeyring.1 (fileOf [firstRow "sealed"])
      keyring := firstKeyring }
  retired := [[firstRow "hello"]]

theorem sealedHistory_reachable :
    (JournalHistory.system contentRuntime firstKeyring).Reachable sealedHistory := by
  have hwritten : (JournalHistory.system contentRuntime firstKeyring).Reachable writtenHistory :=
    System.Reachable.next Relation.ReflTransGen.refl ⟨false, .append (draft "hello") rfl, rfl⟩
  have hrewrite : JournalStep contentRuntime true writtenHistory.journal sealedHistory.journal :=
    @JournalStep.rewrite _ _ [[draft "sealed"]] _ rfl
  exact hwritten.next ⟨true, hrewrite, rfl⟩

/-- The two payloads that were signed. -/
theorem sealedHistory_signed_iff {key : String} {payload : SignedPayload} :
    Signed contentRuntime sealedHistory key payload ↔ key = "secret" ∧
      (payload = { keyVersion := "v1", previousHmac := .null, entry := "hello" } ∨
        payload = { keyVersion := "v1", previousHmac := .null, entry := "sealed" }) := by
  constructor
  · rintro ⟨rows, hrows, front, m, back, version, hsplit, hversion, hkey, rfl⟩
    obtain ⟨content, hcontent, rfl⟩ : ∃ content, (content = "hello" ∨ content = "sealed") ∧
        rows = [firstRow content] := by
      rcases List.mem_cons.mp hrows with rfl | hrows
      · exact ⟨"sealed", Or.inr rfl, rfl⟩
      · exact ⟨"hello", Or.inl rfl, List.mem_singleton.mp hrows⟩
    -- a generation of one row: it is the row, and nothing is before it
    cases front with
    | cons e front => exact absurd (congrArg List.length hsplit) (by simp)
    | nil =>
      obtain ⟨rfl, -⟩ := List.cons.inj hsplit
      obtain rfl : version = "v1" := (Option.some.inj hversion).symm
      have hsecret : key = "secret" := (Option.some.inj hkey).symm
      refine ⟨hsecret, ?_⟩
      rcases hcontent with rfl | rfl
      · exact Or.inl rfl
      · exact Or.inr rfl
  · rintro ⟨rfl, rfl | rfl⟩
    · exact ⟨[firstRow "hello"], by simp [JournalHistory.generations, sealedHistory], [],
        firstRow "hello", [], "v1", rfl, rfl, rfl, rfl⟩
    · exact ⟨[firstRow "sealed"], List.mem_cons_self, [], firstRow "sealed", [], "v1", rfl, rfl,
        rfl, rfl⟩

theorem sealedHistory_injective : SignedDigestsInjective contentRuntime sealedHistory := by
  intro key payload key' payload' hsigned hsigned' hdigests
  obtain ⟨rfl, hpayload⟩ := sealedHistory_signed_iff.mp hsigned
  obtain ⟨rfl, hpayload'⟩ := sealedHistory_signed_iff.mp hsigned'
  rcases hpayload with rfl | rfl <;> rcases hpayload' with rfl | rfl
  · rfl
  · exact absurd hdigests (by decide +kernel)
  · exact absurd hdigests (by decide +kernel)
  · rfl

/-- The first version of the message verifies only as a first row. -/
theorem sealedHistory_unforgeable {rows : List JournalEntry}
    (h : ∀ r ∈ rows, r = firstRow "hello") :
    SignatureUnforgeable contentRuntime sealedHistory rows := by
  intro r hr previous version key hversion hkey hverifies
  obtain rfl := h r hr
  obtain rfl : version = "v1" := (Option.some.inj hversion).symm
  obtain rfl : key = "secret" := (Option.some.inj hkey).symm
  obtain ⟨observed, version, key, hobserved, -, -, -, hsame⟩ := verifies_iff.mp hverifies
  obtain rfl := Option.some.inj hobserved
  refine sealedHistory_signed_iff.mpr ⟨rfl, Or.inl ?_⟩
  cases previous with
  | null => rfl
  | undefined => rfl
  | _ => exact absurd hsame (by simp [contentRuntime, SigningRuntime.toRuntime,
      SigningRuntime.computeJournalEntryHmac, SigningRuntime.payload, textDigest]; decide +kernel)

/-- A row that shows nothing. -/
def unsignedMarker : JournalEntry :=
  { id := 1, channelId := "c", timestamp := 1, body := .marker }

end Psfn.Journal
