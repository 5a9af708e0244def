import Psfn.Journal.Tail

/-!
# Session journal — the tail reader against the full load

A bounded read that verifies cleanly from its stored seed agrees with the full load on
every row but possibly the first: the rows after it are anchored in its own signature
(`scan_after_verified`). So one round of the reader returns the last messages of the full
load, except that a first row the full load does not accept may pass (`ForgedSeam`).

* `attempt_spec` — one bounded read;
* `readRecentLoop_spec` — the rounds, which ask for more as long as too few messages are
  visible;
* `recent_entries_iff` — exactly when the reader returns the last entries of the full load.
-/

namespace Psfn.Journal

open Psfn.Lib

variable {rt : Runtime} {keyring : Option SessionHmacKeyring}

/-! ## What verification depends on -/

/-- A row that verifies is shown as it is. -/
theorem entry_of_verified {entry : JournalEntry} {candidates : List JsValue} {b : Bool}
    (h : (verifyAndNormalizeEntry rt keyring entry candidates b).verified = true) :
    (verifyAndNormalizeEntry rt keyring entry candidates b).entry = entry := by
  unfold verifyAndNormalizeEntry at h ⊢
  cases keyring with
  | none => rfl
  | some keyring =>
    dsimp only at h ⊢
    split at h
    · rfl
    · exact absurd h (by simp)

/-- The notice of the rows before has no say in what verifies. -/
theorem verified_notice (entry : JournalEntry) (candidates : List JsValue) (b b' : Bool) :
    (verifyAndNormalizeEntry rt keyring entry candidates b).verified =
        (verifyAndNormalizeEntry rt keyring entry candidates b').verified ∧
      (verifyAndNormalizeEntry rt keyring entry candidates b).nextHmacCandidates =
        (verifyAndNormalizeEntry rt keyring entry candidates b').nextHmacCandidates := by
  unfold verifyAndNormalizeEntry
  cases keyring with
  | none => exact ⟨rfl, rfl⟩
  | some keyring =>
    dsimp only
    split <;> exact ⟨rfl, rfl⟩

theorem hexNibbles_length {s : String} (h : isHexSha256 s = true) : (hexNibbles s).length = 64 := by
  rw [isHexSha256, Bool.and_eq_true] at h
  rw [hexNibbles, List.length_map]
  simpa using h.1

/-- A row that verifies under some predecessor carries a complete signature: under any other
predecessor it verifies or mismatches, and it anchors the next row either way. -/
theorem verification_of_verified {keyring : SessionHmacKeyring} {entry : JournalEntry}
    {previous : JsValue} (h : (verifyJournalEntryIntegrity rt keyring entry previous).verified = true)
    (other : JsValue) :
    resolveJournalIntegrityChainCandidates (verifyJournalEntryIntegrity rt keyring entry other) =
      [textOrNull entry.hmac] := by
  unfold verifyJournalEntryIntegrity at h ⊢
  dsimp only at h ⊢
  split at h
  · rename_i observed keyVersion hobserved hversion
    split at h
    · exact absurd h (by simp)
    · rename_i key hkey
      have hhex : isHexSha256 observed = true := by
        by_contra hhex
        rw [if_pos (by simpa using hhex)] at h
        exact absurd h (by simp)
      have hlength : (hexNibbles (rt.computeJournalEntryHmac entry key keyVersion other).value).length =
          (hexNibbles observed).length := by
        rw [hexNibbles_length hhex, hexNibbles_length (Digest.isHex _)]
      simp only [hhex, hlength, Bool.not_true, Bool.false_eq_true,
        if_false, ne_eq, not_true_eq_false]
      split <;> rfl
  · exact absurd h (by simp)

/-- One candidate, proposed any number of times. -/
theorem foldl_append_replicate (x : Option String) (n : Nat) :
    (List.replicate (n + 1) x).foldl appendUniqueChainCandidate [] = [x] := by
  induction n with
  | zero => rfl
  | succ n ih =>
    rw [List.replicate_succ', List.foldl_append, ih]
    simp [appendUniqueChainCandidate]

theorem flatMap_resolve {keyring : SessionHmacKeyring} {entry : JournalEntry} {previous : JsValue}
    (h : (verifyJournalEntryIntegrity rt keyring entry previous).verified = true)
    (candidates : List JsValue) :
    (candidates.map (verifyJournalEntryIntegrity rt keyring entry)).flatMap
        resolveJournalIntegrityChainCandidates =
      List.replicate candidates.length (textOrNull entry.hmac) := by
  induction candidates with
  | nil => rfl
  | cons c candidates ih =>
    rw [List.map_cons, List.flatMap_cons, ih, verification_of_verified h]
    rfl

/-- The anchor of a row that verifies under some predecessor, after any candidates. -/
theorem next_of_verified {keyring : SessionHmacKeyring} {entry : JournalEntry} {previous : JsValue}
    (h : (verifyJournalEntryIntegrity rt keyring entry previous).verified = true)
    (candidates : List JsValue) (b : Bool) :
    (verifyAndNormalizeEntry rt (some keyring) entry candidates b).nextHmacCandidates =
      [candidateOf (textOrNull entry.hmac)] := by
  unfold verifyAndNormalizeEntry
  dsimp only
  split
  · rename_i verification hfind
    obtain ⟨other, -, rfl⟩ := List.mem_map.mp (List.mem_of_find?_eq_some hfind)
    rw [verification_of_verified h other]
    rfl
  · -- none verifies: each mismatches and proposes the stored signature
    obtain ⟨n, hn⟩ : ∃ n, (if candidates.isEmpty then [JsValue.null] else candidates).length = n + 1 := by
      cases candidates <;> exact ⟨_, rfl⟩
    dsimp only
    rw [flatMap_resolve h, hn, foldl_append_replicate]
    rfl

/-! ## Scans that verify -/

/-- Every row of the scan verifies. -/
def AllVerified (rt : Runtime) (keyring : Option SessionHmacKeyring) (s : ScanState)
    (rows : List JournalEntry) : Prop :=
  ∀ n ∈ (scanRows rt keyring s rows).2, n.verified = true

theorem allVerified_cons {s : ScanState} {m : JournalEntry} {rows : List JournalEntry} :
    AllVerified rt keyring s (m :: rows) ↔
      (s.normalize rt keyring m).verified = true ∧
        AllVerified rt keyring (s.after (s.normalize rt keyring m)) rows := by
  simp [AllVerified, scanRows]

theorem scan_of_allVerified {s : ScanState} {rows : List JournalEntry}
    (h : AllVerified rt keyring s rows) : (scanRows rt keyring s rows).2.map (·.entry) = rows := by
  induction rows generalizing s with
  | nil => rfl
  | cons m rows ih =>
    obtain ⟨hm, hrows⟩ := allVerified_cons.mp h
    show (s.normalize rt keyring m).entry :: _ = _
    rw [ih hrows, ScanState.normalize, entry_of_verified hm]

theorem allVerified_notice {candidates : List JsValue} {b b' : Bool} {rows : List JournalEntry}
    (h : AllVerified rt keyring { previousHmacCandidates := candidates, runNoticeRendered := b } rows) :
    AllVerified rt keyring { previousHmacCandidates := candidates, runNoticeRendered := b' } rows := by
  cases rows with
  | nil => exact fun n hn => absurd hn (by simp [scanRows])
  | cons m rows =>
    obtain ⟨hm, hrows⟩ := allVerified_cons.mp h
    obtain ⟨hverified, hnext⟩ := @verified_notice rt keyring m candidates b b'
    have hm' : (verifyAndNormalizeEntry rt keyring m candidates b').verified = true :=
      hverified ▸ hm
    refine allVerified_cons.mpr ⟨hm', ?_⟩
    -- a row that verifies clears the notice
    have hafter : ScanState.after { previousHmacCandidates := candidates, runNoticeRendered := b' }
          (verifyAndNormalizeEntry rt keyring m candidates b') =
        ScanState.after { previousHmacCandidates := candidates, runNoticeRendered := b }
          (verifyAndNormalizeEntry rt keyring m candidates b) := by
      simp only [ScanState.after, hm', hverified.trans hm', hnext, if_true]
    exact hafter ▸ hrows

/-- **Rows after a row that verifies.** If a scan from some seed verifies, then from any other
state every row after the first verifies too. -/
theorem scan_after_verified {s : ScanState} {m : JournalEntry} {rows : List JournalEntry}
    {seed : JsValue}
    (h : AllVerified rt keyring { previousHmacCandidates := [seed], runNoticeRendered := false }
      (m :: rows)) :
    AllVerified rt keyring (s.after (s.normalize rt keyring m)) rows := by
  cases keyring with
  | none =>
    -- nothing fails without a keyring
    intro n hn
    generalize s.after (s.normalize rt none m) = s' at hn
    clear h
    induction rows generalizing s' with
    | nil => exact absurd hn (by simp [scanRows])
    | cons x rows ih =>
      rcases List.mem_cons.mp hn with rfl | hn
      · rfl
      · exact ih _ hn
  | some keyring =>
    obtain ⟨hm, hrows⟩ := allVerified_cons.mp h
    have hseed : (verifyJournalEntryIntegrity rt keyring m seed).verified = true := by
      by_contra hnot
      have hnot : (verifyJournalEntryIntegrity rt keyring m seed).verified = false := by
        simpa using hnot
      simp [ScanState.normalize, verifyAndNormalizeEntry, hnot] at hm
    have hnext := next_of_verified hseed
    unfold ScanState.after at hrows ⊢
    rw [ScanState.normalize, hnext] at hrows ⊢
    exact allVerified_notice hrows

/-! ## One bounded read -/

/-- Where the full load starts. -/
def loadStart : ScanState := { previousHmacCandidates := [.null], runNoticeRendered := false }

/-- The state in which the full load meets row `i`. -/
def loadState (rt : Runtime) (keyring : Option SessionHmacKeyring) (archives : List Archive)
    (i : Nat) : ScanState :=
  (scanRows rt keyring loadStart ((rowsOf archives).take i)).1

/-- Where the reader of the last `n` messages starts. -/
def seedState (archives : List Archive) (n i : Nat) : ScanState :=
  { previousHmacCandidates := [storedSeed (windowPrefix archives n i)], runNoticeRendered := false }

/-- The rows from `i` on verify, seeded with the signature stored before them. -/
def TailVerified (rt : Runtime) (keyring : Option SessionHmacKeyring) (archives : List Archive)
    (n i : Nat) : Prop :=
  AllVerified rt keyring (seedState archives n i) ((rowsOf archives).drop i)

/-- Reading the last `n` messages meets a row that does not verify, in a window that is not
the whole chain: the reader loads the chain instead. -/
def FallsBack (rt : Runtime) (keyring : Option SessionHmacKeyring) (archives : List Archive)
    (n : Nat) : Prop :=
  ∃ i, windowStart (rowsOf archives) n = some i ∧ ¬ TailVerified rt keyring archives n i ∧
    windowPrefix archives n i ≠ ([], [])

/-- The last `n` messages verify from the stored seed, but the full load does not accept
the first of them. -/
def ForgedSeam (rt : Runtime) (keyring : Option SessionHmacKeyring) (archives : List Archive)
    (n : Nat) : Prop :=
  ∃ i m, windowStart (rowsOf archives) n = some i ∧ (rowsOf archives)[i]? = some m ∧
    TailVerified rt keyring archives n i ∧
    ((loadState rt keyring archives i).normalize rt keyring m).verified = false

theorem exists_window {rows : List JournalEntry} {n : Nat} (hn : 0 < n)
    (hcount : rows.countP isMessage ≠ 0) :
    ∃ front m rest, rows = front ++ m :: rest ∧ isMessage m = true ∧
      ((m :: rest).countP isMessage = n ∨
        (front.countP isMessage = 0 ∧ (m :: rest).countP isMessage < n)) := by
  induction rows with
  | nil => exact absurd rfl hcount
  | cons e rows ih =>
    by_cases hstop : isMessage e = true ∧ (e :: rows).countP isMessage ≤ n
    · refine ⟨[], e, rows, rfl, hstop.1, ?_⟩
      rcases Nat.lt_or_eq_of_le hstop.2 with hlt | heq
      · exact Or.inr ⟨rfl, hlt⟩
      · exact Or.inl heq
    · have hrest : rows.countP isMessage ≠ 0 := by
        intro hzero
        cases he : isMessage e with
        | false => exact hcount (by simpa [he] using hzero)
        | true => exact hstop ⟨he, by simp [he, hzero]; omega⟩
      obtain ⟨front, m, rest, rfl, hm, hwindow⟩ := ih hrest
      refine ⟨e :: front, m, rest, rfl, hm, ?_⟩
      rcases hwindow with heq | ⟨hzero, hlt⟩
      · exact Or.inl heq
      · right
        have he : isMessage e = false := by
          by_contra he
          rw [List.countP_cons, List.countP_append] at hstop
          simp [he, hzero] at hstop
          omega
        exact ⟨by simpa [he] using hzero, hlt⟩

theorem windowStart_spec {rows : List JournalEntry} {n i : Nat} (hn : 0 < n)
    (h : windowStart rows n = some i) :
    ∃ m rest, rows.drop i = m :: rest ∧ isMessage m = true ∧
      ((m :: rest).countP isMessage = n ∨
        ((rows.take i).countP isMessage = 0 ∧ (m :: rest).countP isMessage < n)) := by
  have hcount : rows.countP isMessage ≠ 0 := by
    intro hzero
    rw [windowStart, List.getElem?_eq_none_iff.mpr (by simp [hzero])] at h
    exact absurd h (by simp)
  obtain ⟨front, m, rest, rfl, hm, hwindow⟩ := exists_window hn hcount
  rw [windowStart_append hm hwindow] at h
  obtain rfl := Option.some.inj h
  exact ⟨m, rest, List.drop_left, hm, by rwa [List.take_left]⟩

theorem windowStart_eq_none {rows : List JournalEntry} {n : Nat} (hn : 0 < n)
    (h : windowStart rows n = none) : rows.countP isMessage = 0 := by
  by_contra hcount
  obtain ⟨front, m, rest, rfl, hm, hwindow⟩ := exists_window hn hcount
  rw [windowStart_append hm hwindow] at h
  exact absurd h (by simp)

/-! ### The last messages of the full load -/

theorem length_messages (rows : List JournalEntry) :
    (rows.filterMap journalToSessionEntry).length = rows.countP isMessage := by
  rw [List.length_filterMap_eq_countP]
  refine List.countP_congr fun e _ => ?_
  cases h : e.body <;> simp [journalToSessionEntry, isMessage, h]

/-- The messages of a scan. -/
def scannedMessages (rt : Runtime) (keyring : Option SessionHmacKeyring) (s : ScanState)
    (rows : List JournalEntry) : List SessionEntry :=
  ((scanRows rt keyring s rows).2.map (·.entry)).filterMap journalToSessionEntry

theorem map_turnId_scannedMessages (s : ScanState) (rows : List JournalEntry) :
    (scannedMessages rt keyring s rows).map (turnIdOf rt) =
      (rows.filterMap journalToSessionEntry).map (turnIdOf rt) := by
  rw [scannedMessages, List.map_filterMap, List.map_filterMap]
  exact filterMap_scanRows normalized_turnId s rows

theorem length_scannedMessages (s : ScanState) (rows : List JournalEntry) :
    (scannedMessages rt keyring s rows).length = rows.countP isMessage := by
  have h := congrArg List.length (@map_turnId_scannedMessages rt keyring s rows)
  rw [List.length_map, List.length_map] at h
  rw [h, length_messages]

theorem loadedMessages_eq (archives : List Archive) (i : Nat) :
    loadedMessages rt keyring archives =
      scannedMessages rt keyring loadStart ((rowsOf archives).take i) ++
        scannedMessages rt keyring (loadState rt keyring archives i) ((rowsOf archives).drop i) := by
  show scannedMessages rt keyring loadStart (rowsOf archives) = _
  conv_lhs => rw [← List.take_append_drop i (rowsOf archives)]
  rw [scannedMessages, scanRows_append]
  simp only [List.map_append, List.filterMap_append]
  rfl

theorem rtake_append_of_length_eq {α : Type} {n : Nat} {xs ys : List α}
    (h : ys.length = n ∨ (xs.length = 0 ∧ ys.length < n)) : (xs ++ ys).rtake n = ys := by
  rw [List.rtake, List.length_append]
  rcases h with h | ⟨h, hlt⟩
  · rw [h, Nat.add_sub_cancel, List.drop_left]
  · obtain rfl := List.eq_nil_of_length_eq_zero h
    rw [List.nil_append, Nat.sub_eq_zero_of_le (by simp; omega), List.drop_zero]

/-- The window is the last `n` messages of the full load, as the full load shows them. -/
theorem rtake_loadedMessages {archives : List Archive} {n i : Nat} (hn : 0 < n)
    (h : windowStart (rowsOf archives) n = some i) :
    (loadedMessages rt keyring archives).rtake n =
      scannedMessages rt keyring (loadState rt keyring archives i) ((rowsOf archives).drop i) := by
  obtain ⟨m, rest, hdrop, -, hwindow⟩ := windowStart_spec hn h
  rw [loadedMessages_eq archives i]
  refine rtake_append_of_length_eq ?_
  rw [length_scannedMessages, length_scannedMessages, hdrop]
  exact hwindow

/-! ### What a forged seam shows -/

theorem entry_of_unverified {entry : JournalEntry} {candidates : List JsValue} {b : Bool}
    (h : (verifyAndNormalizeEntry rt keyring entry candidates b).verified = false) :
    ∃ reason, (verifyAndNormalizeEntry rt keyring entry candidates b).entry =
      (wrapEntry entry reason b).1 := by
  unfold verifyAndNormalizeEntry at h ⊢
  cases keyring with
  | none => exact absurd h (by simp)
  | some keyring =>
    dsimp only at h ⊢
    split at h
    · exact absurd h (by simp)
    · exact ⟨_, rfl⟩

theorem wrapUnverifiedHistory_ne (content : String) (reason : Option FailureReason) (b : Bool) :
    wrapUnverifiedHistory content reason b ≠ content := by
  intro h
  have hlength := congrArg String.length h
  unfold wrapUnverifiedHistory at hlength
  have hclosing : "\n</unverified_history>".length = 22 := by decide
  split at hlength <;> simp only [String.length_append, hclosing] at hlength <;> omega

/-- A message that does not verify is shown with another content, under the same turn. -/
theorem unverified_message {s : ScanState} {m : JournalEntry} (hm : isMessage m = true)
    (h : (s.normalize rt keyring m).verified = false) :
    ∃ x x', journalToSessionEntry m = some x ∧
      journalToSessionEntry (s.normalize rt keyring m).entry = some x' ∧ x ≠ x' ∧
      turnIdOf rt x = turnIdOf rt x' := by
  obtain ⟨reason, hentry⟩ := entry_of_unverified h
  rw [ScanState.normalize, hentry]
  cases hbody : m.body with
  | message role content metadata =>
    refine ⟨{ id := m.id, channelId := m.channelId, role, content, timestamp := m.timestamp, metadata
              rest := m.rest },
      { id := m.id, channelId := m.channelId, role
        content := wrapUnverifiedHistory content reason s.runNoticeRendered
        timestamp := m.timestamp, metadata, rest := m.rest }, ?_, ?_, ?_, rfl⟩
    · rw [journalToSessionEntry, hbody]
    · rw [wrapEntry, hbody]
      rfl
    · intro heq
      exact wrapUnverifiedHistory_ne content reason s.runNoticeRendered
        (congrArg SessionEntry.content heq).symm
  | _ => simp [isMessage, hbody] at hm

/-! ### The three outcomes -/

/-- The messages of a window that verifies from its seed, as another scan shows them: only
the first may differ. -/
theorem scannedMessages_cons {s : ScanState} {m : JournalEntry} {rest : List JournalEntry}
    {seed : JsValue}
    (h : AllVerified rt keyring { previousHmacCandidates := [seed], runNoticeRendered := false }
      (m :: rest)) :
    scannedMessages rt keyring s (m :: rest) =
      (journalToSessionEntry (s.normalize rt keyring m).entry).toList ++
        rest.filterMap journalToSessionEntry := by
  have hrest := scan_of_allVerified (scan_after_verified (s := s) h)
  rw [scannedMessages]
  show List.filterMap _ ((s.normalize rt keyring m).entry ::
    (scanRows rt keyring (s.after (s.normalize rt keyring m)) rest).2.map (·.entry)) = _
  rw [hrest, List.filterMap_cons]
  cases journalToSessionEntry (s.normalize rt keyring m).entry <;> rfl

theorem splitArchives_nil {archives : List Archive} {i : Nat} (hi : i < (rowsOf archives).length)
    (h : splitArchives i archives = ([], [])) : i = 0 := by
  cases archives with
  | nil => exact absurd hi (by simp [rowsOf])
  | cons archive rest =>
    rw [splitArchives] at h
    split at h
    · have htake := (Prod.mk.inj h).2
      rcases List.take_eq_nil_iff.mp htake with hzero | hnil
      · exact hzero
      · simp [hnil] at *
    · exact absurd (Prod.mk.inj h).1 (by simp)

theorem windowPrefix_nil {archives : List Archive} {n i : Nat} (hi : i < (rowsOf archives).length)
    (h : windowPrefix archives n i = ([], [])) : i = 0 := by
  unfold windowPrefix at h
  split at h
  · rcases List.take_eq_nil_iff.mp (Prod.mk.inj h).2 with hzero | hnil
    · exact hzero
    · simp [hnil] at hi
  · exact splitArchives_nil hi h

theorem lastOrAll_of_length_le {α : Type} {n : Nat} {l : List α} (h : l.length ≤ n) :
    lastOrAll n l = l := by
  rw [lastOrAll, if_pos (by exact_mod_cast h)]

/-- The read of a window. -/
theorem attempt_window {archives : List Archive} (hne : archives ≠ []) {n i : Nat} (hn : 0 < n)
    (hstart : windowStart (rowsOf archives) n = some i) :
    readRecentEntriesAttempt rt keyring archives n =
      if ((scanRows rt keyring (seedState archives n i) ((rowsOf archives).drop i)).2.any
            fun x => !x.verified) &&
          !((windowPrefix archives n i).1.isEmpty && (windowPrefix archives n i).2.isEmpty) then
        (loadJournalArchiveChain rt keyring archives).map fun loaded => lastOrAll n loaded.entries
      else
        some (lastOrAll n
          (scannedMessages rt keyring (seedState archives n i) ((rowsOf archives).drop i))) := by
  have hguard : ¬ (((n : Int) ≤ 0 || archives.isEmpty) = true) := by
    simp [hne]
    omega
  unfold readRecentEntriesAttempt
  rw [if_neg hguard, readWindow_spec archives hne hn, hstart]
  rfl

theorem attempt_none {archives : List Archive} (hne : archives ≠ []) {n : Nat} (hn : 0 < n)
    (hstart : windowStart (rowsOf archives) n = none) :
    readRecentEntriesAttempt rt keyring archives n = some [] := by
  unfold readRecentEntriesAttempt
  split
  · rfl
  · rw [readWindow_spec archives hne hn, hstart]
    rfl

theorem attempt_verified {archives : List Archive} (hne : archives ≠ []) {n i : Nat} (hn : 0 < n)
    (hstart : windowStart (rowsOf archives) n = some i)
    (hverified : TailVerified rt keyring archives n i) :
    readRecentEntriesAttempt rt keyring archives n =
      some (((rowsOf archives).drop i).filterMap journalToSessionEntry) := by
  obtain ⟨m, rest, hdrop, -, hwindow⟩ := windowStart_spec hn hstart
  have hany : ((scanRows rt keyring (seedState archives n i) ((rowsOf archives).drop i)).2.any
      fun x => !x.verified) = false := by
    rw [List.any_eq_false]
    intro x hx
    simpa using hverified x hx
  rw [attempt_window hne hn hstart, if_neg (by simp [hany]), scannedMessages,
    scan_of_allVerified hverified, lastOrAll_of_length_le]
  rw [length_messages, hdrop]
  omega

theorem any_unverified {archives : List Archive} {n i : Nat}
    (hverified : ¬ TailVerified rt keyring archives n i) :
    ((scanRows rt keyring (seedState archives n i) ((rowsOf archives).drop i)).2.any
      fun x => !x.verified) = true := by
  rw [TailVerified, AllVerified] at hverified
  simpa using hverified

/-- A window that is the whole chain is scanned as the full load scans it. -/
theorem attempt_covers {archives : List Archive} (hne : archives ≠ []) {n i : Nat} (hn : 0 < n)
    (hstart : windowStart (rowsOf archives) n = some i)
    (hstarts : windowPrefix archives n i = ([], [])) :
    readRecentEntriesAttempt rt keyring archives n =
      some ((loadedMessages rt keyring archives).rtake n) := by
  obtain ⟨m, rest, hdrop, -, hwindow⟩ := windowStart_spec hn hstart
  have hi : i < (rowsOf archives).length := by
    by_contra hge
    rw [List.drop_eq_nil_of_le (by omega)] at hdrop
    exact absurd hdrop (by simp)
  obtain rfl := windowPrefix_nil hi hstarts
  have hseed : seedState archives n 0 = loadState rt keyring archives 0 := by
    rw [seedState, hstarts]
    rfl
  rw [attempt_window hne hn hstart, if_neg (by simp [hstarts]), rtake_loadedMessages hn hstart, hseed,
    lastOrAll_of_length_le]
  rw [length_scannedMessages, hdrop]
  omega

theorem attempt_fallsBack {archives : List Archive} (hne : archives ≠ []) {n i : Nat} (hn : 0 < n)
    (hstart : windowStart (rowsOf archives) n = some i)
    (hverified : ¬ TailVerified rt keyring archives n i)
    (hstarts : windowPrefix archives n i ≠ ([], [])) :
    readRecentEntriesAttempt rt keyring archives n =
      (loadJournalArchiveChain rt keyring archives).map fun loaded => lastOrAll n loaded.entries := by
  have hnot : ((windowPrefix archives n i).1.isEmpty && (windowPrefix archives n i).2.isEmpty) =
      false := by
    by_contra hcovers
    apply hstarts
    simp only [Bool.not_eq_false, Bool.and_eq_true, List.isEmpty_iff] at hcovers
    exact Prod.ext hcovers.1 hcovers.2
  rw [attempt_window hne hn hstart, if_pos (by simp [any_unverified hverified, hnot])]

/-- One bounded read: the full load's entries, the full load's last messages with the first
one shown as verified, or just these messages. -/
theorem attempt_spec {archives : List Archive} {cache : ChannelCache} (hne : archives ≠ [])
    (hload : loadJournalArchiveChain rt keyring archives = some cache) {n : Nat} (hn : 0 < n) :
    (FallsBack rt keyring archives n ∧
      readRecentEntriesAttempt rt keyring archives n = some (lastOrAll n cache.entries)) ∨
    (ForgedSeam rt keyring archives n ∧
      ∃ x x' tail, (loadedMessages rt keyring archives).rtake n = x' :: tail ∧
        readRecentEntriesAttempt rt keyring archives n = some (x :: tail) ∧ x ≠ x' ∧
        turnIdOf rt x = turnIdOf rt x') ∨
    (¬ FallsBack rt keyring archives n ∧ ¬ ForgedSeam rt keyring archives n ∧
      readRecentEntriesAttempt rt keyring archives n =
        some ((loadedMessages rt keyring archives).rtake n)) := by
  cases hstart : windowStart (rowsOf archives) n with
  | none =>
    -- no message in the chain
    have hempty : loadedMessages rt keyring archives = [] := by
      apply List.eq_nil_of_length_eq_zero
      show (scannedMessages rt keyring loadStart (rowsOf archives)).length = 0
      rw [length_scannedMessages]
      exact windowStart_eq_none hn hstart
    refine Or.inr (Or.inr ⟨?_, ?_, ?_⟩)
    · rintro ⟨i, hi, -⟩
      exact absurd (hstart ▸ hi) (by simp)
    · rintro ⟨i, m, hi, -⟩
      exact absurd (hstart ▸ hi) (by simp)
    · rw [attempt_none hne hn hstart, hempty, List.rtake_nil]
  | some i =>
    obtain ⟨m, rest, hdrop, hm, -⟩ := windowStart_spec hn hstart
    have hat : (rowsOf archives)[i]? = some m := by rw [← List.head?_drop, hdrop, List.head?_cons]
    by_cases hverified : TailVerified rt keyring archives n i
    · right
      rw [attempt_verified hne hn hstart hverified, rtake_loadedMessages hn hstart, hdrop]
      have htail := hverified
      rw [TailVerified, hdrop] at htail
      rw [scannedMessages_cons (s := loadState rt keyring archives i) htail]
      cases hm' : ((loadState rt keyring archives i).normalize rt keyring m).verified with
      | false =>
        left
        obtain ⟨x, x', hx, hx', hne', hturn⟩ := unverified_message hm hm'
        refine ⟨⟨i, m, hstart, hat, hverified, hm'⟩, x, x', rest.filterMap journalToSessionEntry,
          ?_, ?_, hne', hturn⟩
        · rw [hx']
          rfl
        · rw [List.filterMap_cons_some hx]
      | true =>
        right
        refine ⟨?_, ?_, ?_⟩
        · rintro ⟨j, hj, hnot, -⟩
          obtain rfl := Option.some.inj (hstart.symm.trans hj)
          exact hnot hverified
        · rintro ⟨j, m', hj, hat', -, hfailed⟩
          obtain rfl := Option.some.inj (hstart.symm.trans hj)
          obtain rfl := Option.some.inj (hat.symm.trans hat')
          exact absurd (hm'.symm.trans hfailed) (by simp)
        · rw [ScanState.normalize, entry_of_verified hm', List.filterMap_cons]
          cases journalToSessionEntry m <;> rfl
    · by_cases hstarts : windowPrefix archives n i = ([], [])
      · right
        right
        refine ⟨?_, ?_, attempt_covers hne hn hstart hstarts⟩
        · rintro ⟨j, hj, -, hnot⟩
          obtain rfl := Option.some.inj (hstart.symm.trans hj)
          exact hnot hstarts
        · rintro ⟨j, m', hj, -, htail, -⟩
          obtain rfl := Option.some.inj (hstart.symm.trans hj)
          exact hverified htail
      · left
        refine ⟨⟨i, hstart, hverified, hstarts⟩, ?_⟩
        rw [attempt_fallsBack hne hn hstart hverified hstarts, hload]
        rfl

/-! ## Last elements -/

section Lists

variable {α β : Type}

theorem rtake_of_length_le {n : Nat} {l : List α} (h : l.length ≤ n) : l.rtake n = l := by
  rw [List.rtake, Nat.sub_eq_zero_of_le h, List.drop_zero]

theorem rtake_append_of_le {n : Nat} {xs ys : List α} (h : n ≤ ys.length) :
    (xs ++ ys).rtake n = ys.rtake n := by
  rw [List.rtake, List.rtake, List.length_append,
    show xs.length + ys.length - n = xs.length + (ys.length - n) by omega, List.drop_length_add_append]

theorem length_rtake (n : Nat) (l : List α) : (l.rtake n).length = min n l.length := by
  rw [List.rtake, List.length_drop]
  omega

theorem map_rtake (f : α → β) (n : Nat) (l : List α) : (l.rtake n).map f = (l.map f).rtake n := by
  rw [List.rtake, List.rtake, List.map_drop, List.length_map]

theorem rdrop_append_rtake (n : Nat) (l : List α) : l.rdrop n ++ l.rtake n = l :=
  List.take_append_drop _ l

/-- Enough of the last elements pass, or they are all: then the last that pass are among
them. -/
theorem rtake_filter_rtake {p : α → Bool} {k n : Nat} {l : List α}
    (h : k ≤ ((l.rtake n).filter p).length ∨ l.length < n) :
    ((l.rtake n).filter p).rtake k = (l.filter p).rtake k := by
  rcases h with h | h
  · have hsplit : l.filter p = (l.rdrop n).filter p ++ (l.rtake n).filter p := by
      rw [← List.filter_append, rdrop_append_rtake]
    rw [hsplit, rtake_append_of_le h]
  · rw [rtake_of_length_le (Nat.le_of_lt h)]

theorem rtake_rtake {k n : Nat} (h : k ≤ n) (l : List α) : (l.rtake n).rtake k = l.rtake k := by
  rcases Nat.lt_or_ge l.length n with hlt | hge
  · rw [rtake_of_length_le (Nat.le_of_lt hlt)]
  · conv_rhs => rw [← rdrop_append_rtake n l]
    rw [rtake_append_of_le]
    rw [length_rtake]
    omega

theorem lastOrAll_natCast {n : Nat} (hn : 0 < n) (l : List α) : lastOrAll n l = l.rtake n := by
  unfold lastOrAll slice
  split
  · exact (rtake_of_length_le (by omega)).symm
  · rw [if_pos (by omega), List.rtake,
      show ((l.length : Int) + -(n : Int)).toNat = l.length - n by omega]

/-- A limit that is not positive drops from the front: `slice(-0)` is everything. -/
theorem lastOrAll_of_nonpos {limit : Int} (h : limit ≤ 0) (l : List α) :
    lastOrAll limit l = l.drop (-limit).toNat := by
  unfold lastOrAll slice
  split
  · have hnil : l = [] := List.eq_nil_of_length_eq_zero (by omega)
    rw [hnil, List.drop_nil]
  · rw [if_neg (by omega)]

end Lists

/-! ## Rounds -/

/-- The messages of a chain as its files hold them. -/
def messagesOf (archives : List Archive) : List SessionEntry :=
  (rowsOf archives).filterMap journalToSessionEntry

def visible (rt : Runtime) (tombstones : List String) (entry : SessionEntry) : Bool :=
  turnIdOf rt entry ∉ tombstones

/-- How many of the last `n` messages no tombstone hides. -/
def visibleAmong (rt : Runtime) (archives : List Archive) (tombstones : List String) (n : Nat) : Nat :=
  ((messagesOf archives).rtake n).countP (visible rt tombstones)

/-- A round that asked for `n` messages returns a forged seam: the oldest message it read is
one, it is visible, and no more than `limit` messages are. -/
def ShowsForgedSeam (rt : Runtime) (keyring : Option SessionHmacKeyring) (archives : List Archive)
    (tombstones : List String) (limit n : Nat) : Prop :=
  ForgedSeam rt keyring archives n ∧
  (∃ entry, ((messagesOf archives).rtake n).head? = some entry ∧ visible rt tombstones entry = true) ∧
  visibleAmong rt archives tombstones n ≤ limit ∧
  (limit ≤ visibleAmong rt archives tombstones n ∨ (messagesOf archives).length < n)

/-- A round that asked for `n` messages is not the last. -/
def Continues (rt : Runtime) (keyring : Option SessionHmacKeyring) (archives : List Archive)
    (tombstones : List String) (limit n : Nat) : Prop :=
  ¬ FallsBack rt keyring archives n ∧ n ≤ (messagesOf archives).length ∧
  visibleAmong rt archives tombstones n < limit

theorem ForgedSeam.not_fallsBack {archives : List Archive} {n : Nat}
    (h : ForgedSeam rt keyring archives n) : ¬ FallsBack rt keyring archives n := by
  rintro ⟨j, hj, hnot, -⟩
  obtain ⟨i, m, hi, -, hverified, -⟩ := h
  obtain rfl := Option.some.inj (hi.symm.trans hj)
  exact hnot hverified

theorem map_turnId_rtake (archives : List Archive) (n : Nat) :
    ((loadedMessages rt keyring archives).rtake n).map (turnIdOf rt) =
      ((messagesOf archives).rtake n).map (turnIdOf rt) := by
  rw [map_rtake, map_rtake]
  exact congrArg (List.rtake · n) (map_turnId_scannedMessages loadStart (rowsOf archives))

theorem length_loadedMessages (archives : List Archive) :
    (loadedMessages rt keyring archives).length = (messagesOf archives).length := by
  rw [messagesOf, length_messages]
  exact length_scannedMessages loadStart (rowsOf archives)

theorem countP_visible_loaded (archives : List Archive) (tombstones : List String) (n : Nat) :
    ((loadedMessages rt keyring archives).rtake n).countP (visible rt tombstones) =
      visibleAmong rt archives tombstones n := by
  have h := congrArg (List.countP fun t => decide (t ∉ tombstones))
    (@map_turnId_rtake rt keyring archives n)
  rw [List.countP_map, List.countP_map] at h
  exact h

/-- The oldest of the last `n` messages is visible in the load if it is in the files. -/
theorem head_visible {archives : List Archive} {n : Nat} {x' : SessionEntry}
    {tail : List SessionEntry} (tombstones : List String)
    (h : (loadedMessages rt keyring archives).rtake n = x' :: tail) :
    (∃ entry, ((messagesOf archives).rtake n).head? = some entry ∧
      visible rt tombstones entry = true) ↔ visible rt tombstones x' = true := by
  have hmap := @map_turnId_rtake rt keyring archives n
  rw [h] at hmap
  cases hraw : (messagesOf archives).rtake n with
  | nil => simp [hraw] at hmap
  | cons e rest =>
    rw [hraw] at hmap
    have hturn : turnIdOf rt x' = turnIdOf rt e := by simpa using (List.cons.inj hmap).1
    simp [visible, hturn]

section Chain

variable {archives : List Archive} {cache : ChannelCache}

/-- The last `limit` entries the reader should return. -/
theorem rtake_entries (hload : loadJournalArchiveChain rt keyring archives = some cache)
    (hfiles : ∀ archive ∈ archives, archive.active.isSome = true) {limit n : Nat}
    (h : limit ≤ visibleAmong rt archives cache.turnTombstones n ∨ (messagesOf archives).length < n) :
    (((loadedMessages rt keyring archives).rtake n).filter
        (visible rt cache.turnTombstones)).rtake limit = cache.entries.rtake limit := by
  have hentries : cache.entries =
      (loadedMessages rt keyring archives).filter (visible rt cache.turnTombstones) :=
    (loadJournalArchiveChain_eq hload hfiles).2
  rw [hentries]
  apply rtake_filter_rtake
  rw [← List.countP_eq_length_filter, countP_visible_loaded, length_loadedMessages]
  exact h

/-- A round that loads the chain returns what it should. -/
theorem fallsBack_round (hload : loadJournalArchiveChain rt keyring archives = some cache)
    (hfiles : ∀ archive ∈ archives, archive.active.isSome = true) {limit n : Nat} (hlimit : limit ≤ n) :
    (cache.entries.rtake n).filter (visible rt cache.turnTombstones) = cache.entries.rtake n ∧
    (limit ≤ (cache.entries.rtake n).length ∨ (cache.entries.rtake n).length < n) ∧
    (cache.entries.rtake n).rtake limit = cache.entries.rtake limit := by
  have hentries : cache.entries =
      (loadedMessages rt keyring archives).filter (visible rt cache.turnTombstones) :=
    (loadJournalArchiveChain_eq hload hfiles).2
  refine ⟨?_, ?_, rtake_rtake hlimit _⟩
  · rw [List.filter_eq_self]
    intro e he
    have hmem : e ∈ cache.entries := List.mem_of_mem_drop he
    rw [hentries] at hmem
    exact (List.mem_filter.mp hmem).2
  · rw [length_rtake]
    omega

/-- A round that does not: it counts what it should, and returns what it should unless it
shows a forged seam. -/
theorem bounded_round (hne : archives ≠ [])
    (hload : loadJournalArchiveChain rt keyring archives = some cache)
    (hfiles : ∀ archive ∈ archives, archive.active.isSome = true) (limit : Nat) {n : Nat} (hn : 0 < n)
    (hbounded : ¬ FallsBack rt keyring archives n) :
    ∃ messages, readRecentEntriesAttempt rt keyring archives n = some messages ∧
      messages.length = min n (messagesOf archives).length ∧
      (messages.filter (visible rt cache.turnTombstones)).length =
        visibleAmong rt archives cache.turnTombstones n ∧
      ((limit ≤ visibleAmong rt archives cache.turnTombstones n ∨ (messagesOf archives).length < n) →
        ((messages.filter (visible rt cache.turnTombstones)).rtake limit = cache.entries.rtake limit ↔
          ¬ ShowsForgedSeam rt keyring archives cache.turnTombstones limit n)) := by
  have hcount := @countP_visible_loaded rt keyring archives
    cache.turnTombstones n
  have hlength : ((loadedMessages rt keyring archives).rtake n).length =
      min n (messagesOf archives).length := by
    rw [length_rtake, length_loadedMessages]
  rcases attempt_spec hne hload hn with ⟨hfalls, -⟩ | ⟨hforged, x, x', tail, hlast, hread, hx, hturn⟩ |
    ⟨-, hsound, hread⟩
  · exact absurd hfalls hbounded
  · -- the same messages, with the first one shown as verified
    have hvisible : visible rt cache.turnTombstones x = visible rt cache.turnTombstones x' := by
      simp [visible, hturn]
    have hhead := head_visible cache.turnTombstones hlast
    rw [hlast] at hcount hlength
    refine ⟨x :: tail, hread, hlength, ?_, fun hstop => ?_⟩
    · rw [← List.countP_eq_length_filter, ← hcount, List.countP_cons, List.countP_cons, hvisible]
    · rw [← rtake_entries hload hfiles hstop, hlast, ShowsForgedSeam, hhead]
      cases hv : visible rt cache.turnTombstones x' with
      | false =>
        rw [List.filter_cons_of_neg (by simp [hvisible, hv]), List.filter_cons_of_neg (by simp [hv])]
        simp
      | true =>
        rw [List.filter_cons_of_pos (by simp [hvisible, hv]), List.filter_cons_of_pos hv]
        have hsize : (tail.filter (visible rt cache.turnTombstones)).length + 1 =
            visibleAmong rt archives cache.turnTombstones n := by
          rw [← hcount, List.countP_cons, if_pos hv, List.countP_eq_length_filter]
        by_cases hall : visibleAmong rt archives cache.turnTombstones n ≤ limit
        · rw [rtake_of_length_le (by simp; omega), rtake_of_length_le (by simp; omega)]
          simp [hx, hforged, hall, hstop]
        · have hdrop : ∀ y : SessionEntry, (y :: tail.filter (visible rt cache.turnTombstones)).rtake
              limit = (tail.filter (visible rt cache.turnTombstones)).rtake limit := fun y =>
            @rtake_append_of_le _ limit [y] _ (by omega)
          rw [hdrop, hdrop]
          simp [hall]
  · refine ⟨_, hread, hlength, ?_, fun hstop => ?_⟩
    · rw [← List.countP_eq_length_filter, hcount]
    · rw [rtake_entries hload hfiles hstop]
      simp [ShowsForgedSeam, hsound]

/-! ## The loop -/

/-- The next number of messages to ask for. -/
def nextRequest (n : Nat) : Nat := min 9007199254740991 (n * 2)

theorem natCast_nextRequest (n : Nat) : min maxSafeInteger ((n : Int) * 2) = (nextRequest n : Int) := by
  unfold maxSafeInteger nextRequest
  omega

/-- Some round, reached because every round before it went on, shows a forged seam. -/
def DeviatesFrom (rt : Runtime) (keyring : Option SessionHmacKeyring) (archives : List Archive)
    (tombstones : List String) (limit n : Nat) : Prop :=
  ∃ k, (∀ j < k, Continues rt keyring archives tombstones limit (nextRequest^[j] n)) ∧
    ShowsForgedSeam rt keyring archives tombstones limit (nextRequest^[k] n)

theorem deviatesFrom_iff {tombstones : List String} {limit n : Nat} :
    DeviatesFrom rt keyring archives tombstones limit n ↔
      ShowsForgedSeam rt keyring archives tombstones limit n ∨
      (Continues rt keyring archives tombstones limit n ∧
        DeviatesFrom rt keyring archives tombstones limit (nextRequest n)) := by
  constructor
  · rintro ⟨k, hcontinues, hshows⟩
    cases k with
    | zero => exact Or.inl hshows
    | succ k =>
      refine Or.inr ⟨hcontinues 0 (Nat.succ_pos k), k, fun j hj => ?_, hshows⟩
      exact hcontinues (j + 1) (by omega)
  · rintro (hshows | ⟨hfirst, k, hcontinues, hshows⟩)
    · exact ⟨0, fun j hj => absurd hj (by omega), hshows⟩
    · refine ⟨k + 1, fun j hj => ?_, hshows⟩
      cases j with
      | zero => exact hfirst
      | succ j => exact hcontinues j (by omega)

/-- A round that does not go on returns. -/
theorem readRecentLoop_stops {limit n rounds : Nat} {tombstones : List String}
    {messages : List SessionEntry} (hlimit : 0 < limit)
    (hread : readRecentEntriesAttempt rt keyring archives n = some messages)
    (hstop : limit ≤ (messages.filter (visible rt tombstones)).length ∨ messages.length < n)
    (hrounds : 0 < rounds) :
    readRecentLoop rt keyring archives limit tombstones rounds n =
      some ((messages.filter (visible rt tombstones)).rtake limit) := by
  obtain ⟨rounds, rfl⟩ : ∃ r, rounds = r + 1 := ⟨rounds - 1, by omega⟩
  have hfilter : applyTurnTombstones rt messages tombstones =
      messages.filter (visible rt tombstones) := applyTurnTombstones_eq_filter messages tombstones
  rw [readRecentLoop, hread]
  simp only [Option.bind_eq_bind, Option.bind_some, hfilter]
  rw [if_pos (by simpa using hstop), lastOrAll_natCast hlimit]
  rfl

theorem readRecentLoop_goesOn {limit n rounds : Nat} {tombstones : List String}
    {messages : List SessionEntry}
    (hread : readRecentEntriesAttempt rt keyring archives n = some messages)
    (hgo : ¬ (limit ≤ (messages.filter (visible rt tombstones)).length ∨ messages.length < n)) :
    readRecentLoop rt keyring archives limit tombstones (rounds + 1) n =
      readRecentLoop rt keyring archives limit tombstones rounds (nextRequest n) := by
  have hfilter : applyTurnTombstones rt messages tombstones =
      messages.filter (visible rt tombstones) := applyTurnTombstones_eq_filter messages tombstones
  rw [readRecentLoop, hread]
  simp only [Option.bind_eq_bind, Option.bind_some, hfilter]
  rw [if_neg (by simpa using hgo), natCast_nextRequest]

/-- **The loop.** It ends after a number of rounds bounded by the messages of the chain, and
returns what it should unless the last round shows a forged seam. -/
theorem readRecentLoop_spec (hne : archives ≠ [])
    (hload : loadJournalArchiveChain rt keyring archives = some cache)
    (hfiles : ∀ archive ∈ archives, archive.active.isSome = true)
    (hsize : (messagesOf archives).length < 4294967296) (limit : Nat) (hlimit : 0 < limit) (n : Nat)
    (hn : limit ≤ n) :
    ∃ result, (∀ rounds, 0 < rounds → (messagesOf archives).length + 2 ≤ rounds + n →
        readRecentLoop rt keyring archives limit cache.turnTombstones rounds n = some result) ∧
      (result = cache.entries.rtake limit ↔
        ¬ DeviatesFrom rt keyring archives cache.turnTombstones limit n) := by
  -- a round that goes on asked for at most all messages; the next asks for twice as many
  induction hd : (messagesOf archives).length + 1 - n using Nat.strong_induction_on generalizing n with
  | _ d ih =>
    have hpos : 0 < n := by omega
    rw [deviatesFrom_iff]
    by_cases hfalls : FallsBack rt keyring archives n
    · have hread : readRecentEntriesAttempt rt keyring archives n = some (cache.entries.rtake n) := by
        rcases attempt_spec hne hload hpos with ⟨-, hread⟩ | ⟨hforged, -⟩ | ⟨hnot, -⟩
        · rw [hread, lastOrAll_natCast hpos]
        · exact absurd hfalls hforged.not_fallsBack
        · exact absurd hfalls hnot
      obtain ⟨hvisible, hstop, hlast⟩ := fallsBack_round hload hfiles hn
      refine ⟨_, fun rounds hrounds _ =>
        readRecentLoop_stops hlimit hread (by rwa [hvisible]) hrounds, ?_⟩
      rw [hvisible, hlast]
      simp only [true_iff, not_or]
      exact ⟨fun h => h.1.not_fallsBack hfalls, fun h => h.1.1 hfalls⟩
    · obtain ⟨messages, hread, hlength, hcount, hreturns⟩ :=
        bounded_round hne hload hfiles limit hpos hfalls
      by_cases hstop : limit ≤ visibleAmong rt archives cache.turnTombstones n ∨
          (messagesOf archives).length < n
      · refine ⟨_, fun rounds hrounds _ =>
          readRecentLoop_stops hlimit hread (by omega) hrounds, (hreturns hstop).trans ?_⟩
        have hnot : ¬ Continues rt keyring archives cache.turnTombstones limit n := by
          rintro ⟨-, hle, hlt⟩
          omega
        simp [hnot]
      · have hdouble : nextRequest n = n * 2 := by
          unfold nextRequest
          omega
        have hcontinues : Continues rt keyring archives cache.turnTombstones limit n :=
          ⟨hfalls, by omega, by omega⟩
        have hnoshow : ¬ ShowsForgedSeam rt keyring archives cache.turnTombstones limit n :=
          fun h => hstop h.2.2.2
        obtain ⟨result, hresult, hiff⟩ := ih _ (by omega) (nextRequest n) (by omega) rfl
        refine ⟨result, fun rounds hrounds henough => ?_, by simp [hcontinues, hnoshow, hiff]⟩
        obtain ⟨rounds, rfl⟩ : ∃ r, rounds = r + 1 := ⟨rounds - 1, by omega⟩
        rw [readRecentLoop_goesOn hread (by omega)]
        exact hresult rounds (by omega) (by omega)

end Chain

/-! ## The reader and the load -/

/-- A chain as a process holds it: an array has fewer than `2 ^ 32` elements. -/
structure Chain where
  archives : List Archive
  rows_lt  : (rowsOf archives).length < 4294967296

/-- With a limit that is not positive, more entries are visible in the first round than the
limit's absolute value drops. -/
def ReturnsOverLimit (rt : Runtime) (keyring : Option SessionHmacKeyring) (archives : List Archive)
    (tombstones : List String) (limit : Int) (n : Nat) : Prop :=
  (FallsBack rt keyring archives n ∧ (-limit).toNat <
    min n (visibleAmong rt archives tombstones (messagesOf archives).length)) ∨
  (¬ FallsBack rt keyring archives n ∧
    (-limit).toNat < visibleAmong rt archives tombstones n)

/-- The ways in which the reader misses the last entries of the load. -/
inductive Deviates (rt : Runtime) (keyring : Option SessionHmacKeyring) (archives : List Archive)
    (tombstones : List String) (limit : Int) : Prop
  /-- The only file is missing, and its sealed siblings hold messages. -/
  | missingFile {archive : Archive} (harchive : archive ∈ archives) (hactive : archive.active = none)
      (hlimit : 0 < limit) (hmessages : messagesOf archives ≠ [])
      (hbounded : ¬ FallsBack rt keyring archives limit.toNat)
  /-- The first row of the window passes on the signature stored before it. -/
  | seam (hfiles : ∀ archive ∈ archives, archive.active.isSome = true) (hlimit : 0 < limit)
      (htombstones : tombstones = []) (h : ForgedSeam rt keyring archives limit.toNat)
  /-- The same, in the last round of the loop. -/
  | round (hfiles : ∀ archive ∈ archives, archive.active.isSome = true) (hlimit : 0 < limit)
      (htombstones : tombstones ≠ [])
      (h : DeviatesFrom rt keyring archives tombstones limit.toNat (firstRequest limit tombstones).toNat)
  /-- A limit that is not positive, while something is hidden. -/
  | overLimit (hfiles : ∀ archive ∈ archives, archive.active.isSome = true) (hlimit : limit ≤ 0)
      (htombstones : tombstones ≠ [])
      (h : ReturnsOverLimit rt keyring archives tombstones limit (firstRequest limit tombstones).toNat)

section Main

variable {archives : List Archive} {cache : ChannelCache}

theorem load_ne_nil (hload : loadJournalArchiveChain rt keyring archives = some cache) :
    archives ≠ [] := by
  rintro rfl
  exact absurd hload (by simp [loadJournalArchiveChain])

theorem attempt_nonpos {limit : Int} (h : limit ≤ 0) :
    readRecentEntriesAttempt rt keyring archives limit = some [] := by
  rw [readRecentEntriesAttempt, if_pos (by simp [h])]

/-- One bounded read with nothing hidden. -/
theorem attempt_iff (hload : loadJournalArchiveChain rt keyring archives = some cache)
    (hfiles : ∀ archive ∈ archives, archive.active.isSome = true)
    (htombstones : cache.turnTombstones = []) {n : Nat} (hn : 0 < n) :
    ∃ result, readRecentEntriesAttempt rt keyring archives n = some result ∧
      (result = cache.entries.rtake n ↔ ¬ ForgedSeam rt keyring archives n) := by
  have hentries : cache.entries = loadedMessages rt keyring archives := by
    rw [(loadJournalArchiveChain_eq hload hfiles).2, htombstones]
    simp
  rcases attempt_spec (load_ne_nil hload) hload hn with
    ⟨hfalls, hread⟩ | ⟨hforged, x, x', tail, hlast, hread, hx, -⟩ | ⟨-, hsound, hread⟩
  · refine ⟨_, hread, ?_⟩
    rw [lastOrAll_natCast hn]
    simp only [true_iff]
    exact fun hforged => hforged.not_fallsBack hfalls
  · refine ⟨_, hread, ?_⟩
    rw [hentries, hlast]
    simp [hx, hforged]
  · refine ⟨_, hread, ?_⟩
    rw [hentries]
    simp [hsound]

/-- A chain without its file loads as empty. -/
theorem attempt_missing_iff (hne : archives ≠ [])
    (hload : loadJournalArchiveChain rt keyring archives =
      some { entries := [], turnTombstones := [] }) {n : Nat} (hn : 0 < n) :
    ∃ result, readRecentEntriesAttempt rt keyring archives n = some result ∧
      (result = [] ↔ messagesOf archives = [] ∨ FallsBack rt keyring archives n) := by
  have hnil : (loadedMessages rt keyring archives).rtake n = [] ↔ messagesOf archives = [] := by
    have hlength := length_rtake n (loadedMessages rt keyring archives)
    rw [length_loadedMessages] at hlength
    rw [← List.length_eq_zero_iff, ← List.length_eq_zero_iff, hlength]
    omega
  rcases attempt_spec hne hload hn with
    ⟨hfalls, hread⟩ | ⟨hforged, x, x', tail, hlast, hread, -, -⟩ | ⟨hbounded, -, hread⟩
  · exact ⟨_, hread, by simp [hfalls, lastOrAll_natCast hn]⟩
  · refine ⟨_, hread, ?_⟩
    have hsome : messagesOf archives ≠ [] := by
      rw [Ne, ← hnil, hlast]
      simp
    simp [hsome, hforged.not_fallsBack]
  · exact ⟨_, hread, by simp [hnil, hbounded]⟩

/-- The entries of the load are the visible messages. -/
theorem length_entries (hload : loadJournalArchiveChain rt keyring archives = some cache)
    (hfiles : ∀ archive ∈ archives, archive.active.isSome = true) :
    cache.entries.length =
      visibleAmong rt archives cache.turnTombstones (messagesOf archives).length := by
  rw [← @countP_visible_loaded rt keyring, rtake_of_length_le
    (by rw [length_loadedMessages]), (loadJournalArchiveChain_eq hload hfiles).2,
    ← List.countP_eq_length_filter]
  rfl

/-- A limit that is not positive: the first round is the last, and returns what is left of
it after the drop. -/
theorem loop_nonpos (hload : loadJournalArchiveChain rt keyring archives = some cache)
    (hfiles : ∀ archive ∈ archives, archive.active.isSome = true) {limit : Int} (hlimit : limit ≤ 0)
    (requested : Int) :
    ∃ result, (∀ rounds, 0 < rounds → readRecentLoop rt keyring archives limit cache.turnTombstones
        rounds requested = some result) ∧
      (result = [] ↔
        ¬ ReturnsOverLimit rt keyring archives cache.turnTombstones limit requested.toNat) := by
  -- whatever the round reads, only the number of visible messages matters
  suffices hround : ∃ messages, readRecentEntriesAttempt rt keyring archives requested = some messages ∧
      ((-limit).toNat < (messages.filter (visible rt cache.turnTombstones)).length ↔
        ReturnsOverLimit rt keyring archives cache.turnTombstones limit requested.toNat) by
    obtain ⟨messages, hread, hcount⟩ := hround
    refine ⟨(messages.filter (visible rt cache.turnTombstones)).drop (-limit).toNat, ?_, ?_⟩
    · intro rounds hrounds
      obtain ⟨rounds, rfl⟩ : ∃ r, rounds = r + 1 := ⟨rounds - 1, by omega⟩
      have hfilter : applyTurnTombstones rt messages cache.turnTombstones =
          messages.filter (visible rt cache.turnTombstones) :=
        applyTurnTombstones_eq_filter messages cache.turnTombstones
      rw [readRecentLoop, hread]
      simp only [Option.bind_eq_bind, Option.bind_some, hfilter]
      rw [if_pos (by simp; omega), lastOrAll_of_nonpos hlimit]
      rfl
    · rw [← hcount, List.drop_eq_nil_iff]
      omega
  rcases Int.lt_or_le 0 requested with hpos | hnonpos
  · obtain ⟨n, rfl⟩ : ∃ n : Nat, requested = n := ⟨requested.toNat, by omega⟩
    have hn : 0 < n := by omega
    rw [Int.toNat_natCast]
    by_cases hfalls : FallsBack rt keyring archives n
    · rcases attempt_spec (load_ne_nil hload) hload hn with ⟨-, hread⟩ | ⟨hforged, -⟩ | ⟨hnot, -⟩
      · refine ⟨_, hread, ?_⟩
        rw [lastOrAll_natCast hn, (fallsBack_round hload hfiles (Nat.zero_le n)).1, length_rtake,
          length_entries hload hfiles]
        simp [ReturnsOverLimit, hfalls]
      · exact absurd hfalls hforged.not_fallsBack
      · exact absurd hfalls hnot
    · obtain ⟨messages, hread, -, hcount, -⟩ :=
        bounded_round (load_ne_nil hload) hload hfiles 0 hn hfalls
      exact ⟨messages, hread, by simp [ReturnsOverLimit, hfalls, hcount]⟩
  · have hzero : requested.toNat = 0 := by omega
    have hnone : windowStart (rowsOf archives) 0 = none := by simp [windowStart]
    have hbounded : ¬ FallsBack rt keyring archives 0 := by
      rintro ⟨i, hi, -⟩
      exact absurd (hnone ▸ hi) (by simp)
    exact ⟨[], attempt_nonpos hnonpos, by
      simp [ReturnsOverLimit, hzero, hbounded, visibleAmong, List.rtake_zero]⟩

end Main

/-- **The bounded tail reader refines the full load.** For every chain that loads and every
limit, the reader ends, and it returns the last `limit` entries of the load exactly if it
deviates in none of the listed ways. -/
theorem recent_entries_iff {rt : Runtime} {keyring : Option SessionHmacKeyring} (chain : Chain)
    {cache : ChannelCache}
    (hload : loadJournalArchiveChain rt keyring chain.archives = some cache) (limit : Int) :
    ∃ result,
      (∀ rounds, (rowsOf chain.archives).length + 2 ≤ rounds →
        readRecentEntriesFromJournalArchiveChain rt keyring rounds chain.archives limit
          cache.turnTombstones = some result) ∧
      (result = cache.entries.rtake limit.toNat ↔
        ¬ Deviates rt keyring chain.archives cache.turnTombstones limit) := by
  have hne := load_ne_nil hload
  have hmessages : (messagesOf chain.archives).length ≤ (rowsOf chain.archives).length :=
    List.length_filterMap_le _ _
  by_cases hfiles : ∀ archive ∈ chain.archives, archive.active.isSome = true
  · by_cases htombstones : cache.turnTombstones = []
    · -- nothing is hidden: one bounded read
      have hread : ∀ rounds, readRecentEntriesFromJournalArchiveChain rt keyring rounds chain.archives
          limit cache.turnTombstones = readRecentEntriesAttempt rt keyring chain.archives limit := by
        intro rounds
        rw [readRecentEntriesFromJournalArchiveChain, if_pos (by simp [htombstones])]
      rcases Int.lt_or_le 0 limit with hpos | hnonpos
      · obtain ⟨n, rfl⟩ : ∃ n : Nat, limit = n := ⟨limit.toNat, by omega⟩
        obtain ⟨result, hresult, hiff⟩ := attempt_iff hload hfiles htombstones (n := n) (by omega)
        refine ⟨result, fun rounds _ => (hread rounds).trans hresult, hiff.trans (not_congr ?_)⟩
        constructor
        · exact fun h => .seam hfiles hpos htombstones h
        · intro h
          cases h with
          | missingFile harchive hactive => simpa [hactive] using hfiles _ harchive
          | seam _ _ _ h => exact h
          | round _ _ hsome => exact absurd htombstones hsome
          | overLimit _ hle => omega
      · refine ⟨[], fun rounds _ => (hread rounds).trans (attempt_nonpos hnonpos), ?_⟩
        rw [show limit.toNat = 0 by omega, List.rtake_zero]
        simp only [true_iff]
        intro h
        cases h with
        | missingFile harchive hactive => simpa [hactive] using hfiles _ harchive
        | seam _ hlimit => omega
        | round _ _ hsome => exact absurd htombstones hsome
        | overLimit _ _ hsome => exact absurd htombstones hsome
    · -- something is hidden: the loop
      have hread : ∀ rounds, readRecentEntriesFromJournalArchiveChain rt keyring rounds chain.archives
          limit cache.turnTombstones = readRecentLoop rt keyring chain.archives limit
            cache.turnTombstones rounds (firstRequest limit cache.turnTombstones) := by
        intro rounds
        rw [readRecentEntriesFromJournalArchiveChain, if_neg (by simp [htombstones])]
      rcases Int.lt_or_le 0 limit with hpos | hnonpos
      · obtain ⟨n, rfl⟩ : ∃ n : Nat, limit = n := ⟨limit.toNat, by omega⟩
        have hrequest : (n : Int) ≤ firstRequest n cache.turnTombstones := by
          unfold firstRequest
          omega
        obtain ⟨r, hr⟩ : ∃ r : Nat, firstRequest n cache.turnTombstones = r :=
          ⟨(firstRequest n cache.turnTombstones).toNat, by omega⟩
        obtain ⟨result, hresult, hiff⟩ := readRecentLoop_spec hne hload hfiles
          (Nat.lt_of_le_of_lt hmessages chain.rows_lt) n (by omega) r (by omega)
        refine ⟨result, fun rounds hrounds => ?_, hiff.trans (not_congr ?_)⟩
        · rw [hread, hr]
          exact hresult rounds (by omega) (by omega)
        · constructor
          · intro h
            refine .round hfiles hpos htombstones ?_
            rwa [hr, Int.toNat_natCast, Int.toNat_natCast]
          · intro h
            cases h with
            | missingFile harchive hactive => simpa [hactive] using hfiles _ harchive
            | seam _ _ hnil => exact absurd hnil htombstones
            | round _ _ _ h => rwa [hr, Int.toNat_natCast, Int.toNat_natCast] at h
            | overLimit _ hle => omega
      · obtain ⟨result, hresult, hiff⟩ := loop_nonpos hload hfiles hnonpos
          (firstRequest limit cache.turnTombstones)
        refine ⟨result, fun rounds hrounds => (hread rounds).trans (hresult rounds (by omega)), ?_⟩
        rw [show limit.toNat = 0 by omega, List.rtake_zero]
        refine hiff.trans (not_congr ⟨fun h => .overLimit hfiles hnonpos htombstones h, fun h => ?_⟩)
        cases h with
        | missingFile harchive hactive => simpa [hactive] using hfiles _ harchive
        | seam _ hlimit => omega
        | round _ hlimit => omega
        | overLimit _ _ _ h => exact h
  · -- the only file is missing
    obtain ⟨-, rfl⟩ := loadJournalArchiveChain_missing hload hfiles
    obtain ⟨archive, harchive, hactive⟩ : ∃ archive ∈ chain.archives, archive.active = none := by
      simpa using hfiles
    rcases Int.lt_or_le 0 limit with hpos | hnonpos
    · obtain ⟨n, rfl⟩ : ∃ n : Nat, limit = n := ⟨limit.toNat, by omega⟩
      obtain ⟨result, hresult, hiff⟩ := attempt_missing_iff hne hload (n := n) (by omega)
      refine ⟨result, fun rounds _ => hresult, ?_⟩
      rw [List.rtake_nil, hiff, ← not_iff_not, not_not, not_or]
      constructor
      · exact fun h => .missingFile harchive hactive hpos h.1 h.2
      · intro h
        cases h with
        | missingFile _ _ _ hmessages hbounded => exact ⟨hmessages, hbounded⟩
        | seam hall => exact absurd hall hfiles
        | round hall => exact absurd hall hfiles
        | overLimit hall => exact absurd hall hfiles
    · refine ⟨[], fun rounds _ => attempt_nonpos hnonpos, ?_⟩
      rw [List.rtake_nil]
      simp only [true_iff]
      intro h
      cases h with
      | missingFile _ _ hlimit => omega
      | seam hall => exact absurd hall hfiles
      | round hall => exact absurd hall hfiles
      | overLimit hall => exact absurd hall hfiles

/-! ### A chain with one visible message -/

def otherTurn : String := "0190a1b2-c3d4-7e5f-8a6b-665544332211"

/-- A message, and a redaction of some other turn. -/
def sampleChain : Chain where
  archives := [{ active := some [sampleMessage 1, unsignedRow 2 (.tombstone otherTurn .redact)] }]
  rows_lt := by decide

theorem sampleChain_recent_entries :
    ∃ cache, loadJournalArchiveChain sampleRuntime none sampleChain.archives = some cache ∧
      ∃ result,
        (∀ rounds, (rowsOf sampleChain.archives).length + 2 ≤ rounds →
          readRecentEntriesFromJournalArchiveChain sampleRuntime none rounds sampleChain.archives 1
            cache.turnTombstones = some result) ∧
        (result = cache.entries.rtake (1 : Int).toNat ↔
          ¬ Deviates sampleRuntime none sampleChain.archives cache.turnTombstones 1) :=
  ⟨_, rfl, recent_entries_iff sampleChain rfl 1⟩

/-- Asked for no entries, the reader returns the message. -/
theorem zero_limit_returns_message :
    ∃ cache, loadJournalArchiveChain sampleRuntime none sampleChain.archives = some cache ∧
      ∃ result,
        readRecentEntriesFromJournalArchiveChain sampleRuntime none 4 sampleChain.archives 0
          cache.turnTombstones = some result ∧
        result.length = 1 ∧ result ≠ cache.entries.rtake (0 : Int).toNat := by
  refine ⟨_, rfl, _, rfl, by decide +kernel, fun h => ?_⟩
  have hlength := congrArg List.length h
  rw [Int.toNat_zero, List.rtake_zero] at hlength
  exact absurd hlength (by decide +kernel)

end Psfn.Journal
