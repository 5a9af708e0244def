import Psfn.Journal.Definitions

/-!
# Session journal — who is hidden

Two readers decide which turns are redacted. The full load replays the tombstone rows in
file order and takes every row at its word; the authority replays them in id order and
lets only a verified restore reveal a turn. Both are replays of one set of rows, so what
each hides is told by the last row that counts (`mem_turnTombstones`, `mem_authority`).

* `scanArchives_eq_scanRows` — archives do not matter to the full load, only their rows;
* `collectActions_eq` — the authority's backward scans list the tombstone rows of the
  chain, each verified against the stored signature of the row before it;
* `hidden_never_loaded_iff` — when the full load shows nothing the authority hides.
-/

namespace Psfn.Journal

open Psfn.Lib

variable {rt : Runtime} {keyring : Option SessionHmacKeyring}

/-- The rows of a chain, in file order. -/
def rowsOf (archives : List Archive) : List JournalEntry := archives.flatMap Archive.entries

/-! ## What normalization keeps -/

theorem verifyAndNormalizeEntry_entry (entry : JournalEntry) (candidates : List JsValue) (b : Bool) :
    (verifyAndNormalizeEntry rt keyring entry candidates b).entry = entry ∨
    ∃ reason, (verifyAndNormalizeEntry rt keyring entry candidates b).entry =
      (wrapEntry entry reason b).1 := by
  unfold verifyAndNormalizeEntry
  cases keyring with
  | none => exact Or.inl rfl
  | some keyring =>
    dsimp only
    split
    · exact Or.inl rfl
    · exact Or.inr ⟨_, rfl⟩

theorem wrapEntry_tombstone (entry : JournalEntry) (reason : Option FailureReason) (b : Bool) :
    journalToTurnTombstoneEntry (wrapEntry entry reason b).1 = journalToTurnTombstoneEntry entry := by
  unfold wrapEntry
  split <;> rename_i h <;> simp [journalToTurnTombstoneEntry, h]

/-- A wrapped message is the message with another content. -/
theorem wrapEntry_message (entry : JournalEntry) (reason : Option FailureReason) (b : Bool) :
    (journalToSessionEntry entry = none ∧ journalToSessionEntry (wrapEntry entry reason b).1 = none) ∨
    ∃ message content, journalToSessionEntry entry = some message ∧
      journalToSessionEntry (wrapEntry entry reason b).1 = some { message with content } := by
  unfold wrapEntry
  cases h : entry.body with
  | message role content metadata =>
    refine Or.inr ⟨{ id := entry.id, channelId := entry.channelId, role, content
                     timestamp := entry.timestamp, metadata, rest := entry.rest },
      wrapUnverifiedHistory content reason b, ?_, rfl⟩
    rw [journalToSessionEntry, h]
  | compaction summary =>
    left
    cases summary <;> simp [journalToSessionEntry, h]
  | marker => exact Or.inl (by simp [journalToSessionEntry, h])
  | tombstone targetId action => exact Or.inl (by simp [journalToSessionEntry, h])

/-- The turn of an entry is not read from its content. -/
theorem turnIdOf_content (entry : SessionEntry) (content : String) :
    turnIdOf rt { entry with content } = turnIdOf rt entry := rfl

theorem normalized_tombstone (entry : JournalEntry) (candidates : List JsValue) (b : Bool) :
    journalToTurnTombstoneEntry (verifyAndNormalizeEntry rt keyring entry candidates b).entry =
      journalToTurnTombstoneEntry entry := by
  rcases @verifyAndNormalizeEntry_entry rt keyring entry candidates b with
    h | ⟨reason, h⟩
  · rw [h]
  · rw [h, wrapEntry_tombstone]

theorem normalized_turnId (entry : JournalEntry) (candidates : List JsValue) (b : Bool) :
    (journalToSessionEntry (verifyAndNormalizeEntry rt keyring entry candidates b).entry).map
        (turnIdOf rt) =
      (journalToSessionEntry entry).map (turnIdOf rt) := by
  rcases @verifyAndNormalizeEntry_entry rt keyring entry candidates b with
    h | ⟨reason, h⟩
  · rw [h]
  · rw [h]
    rcases wrapEntry_message entry reason b with ⟨h₁, h₂⟩ | ⟨message, content, h₁, h₂⟩
    · rw [h₁, h₂]
    · rw [h₁, h₂, Option.map_some, Option.map_some, turnIdOf_content]

/-! ## The full load over rows -/

theorem scanRows_append (s : ScanState) (xs ys : List JournalEntry) :
    scanRows rt keyring s (xs ++ ys) =
      ((scanRows rt keyring (scanRows rt keyring s xs).1 ys).1,
        (scanRows rt keyring s xs).2 ++ (scanRows rt keyring (scanRows rt keyring s xs).1 ys).2) := by
  induction xs generalizing s with
  | nil => rfl
  | cons x xs ih => simp [scanRows, ih]

theorem scanArchives_eq_scanRows (s : ScanState) (archives : List Archive) :
    scanArchives rt keyring s archives = scanRows rt keyring s (rowsOf archives) := by
  induction archives generalizing s with
  | nil => rfl
  | cons archive rest ih =>
    rw [rowsOf, List.flatMap_cons, ← rowsOf, scanRows_append]
    simp only [scanArchives, ih]

/-- A reading of rows that normalization does not change is not changed by a scan. -/
theorem filterMap_scanRows {β : Type} {f : JournalEntry → Option β}
    (hf : ∀ entry candidates b,
      f (verifyAndNormalizeEntry rt keyring entry candidates b).entry = f entry)
    (s : ScanState) (rows : List JournalEntry) :
    ((scanRows rt keyring s rows).2.map (·.entry)).filterMap f = rows.filterMap f := by
  induction rows generalizing s with
  | nil => rfl
  | cons row rest ih =>
    rw [scanRows]
    simp only [List.map_cons, List.filterMap_cons, ScanState.normalize, hf, ih]

/-- The tombstone rows, in file order. -/
def tombstonesInFileOrder (archives : List Archive) : List JournalTurnTombstoneEntry :=
  (rowsOf archives).filterMap journalToTurnTombstoneEntry

def JournalTurnTombstoneEntry.redacts (t : JournalTurnTombstoneEntry) : Bool := t.action = .redact

theorem foldl_applyJournalState (entries : List JournalEntry) (tombstones : List String) :
    entries.foldl applyJournalState tombstones =
      JsSet.replay JournalTurnTombstoneEntry.targetId JournalTurnTombstoneEntry.redacts
        (entries.filterMap journalToTurnTombstoneEntry) tombstones := by
  induction entries generalizing tombstones with
  | nil => rfl
  | cons entry rest ih =>
    rw [List.foldl_cons, ih]
    cases h : journalToTurnTombstoneEntry entry <;>
      simp [JsSet.replay, applyJournalState, h, JournalTurnTombstoneEntry.redacts]

theorem applyTurnTombstones_eq_filter (entries : List SessionEntry) (tombstones : List String) :
    applyTurnTombstones rt entries tombstones =
      entries.filter fun entry => turnIdOf rt entry ∉ tombstones := by
  unfold applyTurnTombstones
  split
  · rename_i h
    obtain rfl := List.isEmpty_iff.mp h
    simp
  · rfl

/-- The messages of a chain as the full load annotates them, hidden ones included. -/
def loadedMessages (rt : Runtime) (keyring : Option SessionHmacKeyring) (archives : List Archive) :
    List SessionEntry :=
  ((scanRows rt keyring { previousHmacCandidates := [.null], runNoticeRendered := false }
    (rowsOf archives)).2.map (·.entry)).filterMap journalToSessionEntry

/-- The full load of a chain with all its files: replayed tombstones, and the messages they
leave. -/
theorem loadJournalArchiveChain_eq {archives : List Archive} {cache : ChannelCache}
    (h : loadJournalArchiveChain rt keyring archives = some cache)
    (hfiles : ∀ archive ∈ archives, archive.active.isSome = true) :
    cache.turnTombstones = JsSet.replay JournalTurnTombstoneEntry.targetId
        JournalTurnTombstoneEntry.redacts (tombstonesInFileOrder archives) [] ∧
    cache.entries = (loadedMessages rt keyring archives).filter fun entry =>
      turnIdOf rt entry ∉ cache.turnTombstones := by
  unfold loadJournalArchiveChain at h
  split at h
  · exact absurd h (by simp)
  · have hnone : (archives.any fun archive => archive.active.isNone) = false := by
      rw [List.any_eq_false]
      intro archive ha
      simp [Option.isSome_iff_ne_none.mp (hfiles archive ha)]
    rw [if_neg (by simp [hnone])] at h
    obtain rfl := Option.some.inj h
    dsimp only
    rw [applyTurnTombstones_eq_filter, foldl_applyJournalState, scanArchives_eq_scanRows,
      filterMap_scanRows normalized_tombstone]
    exact ⟨rfl, rfl⟩

theorem loadJournalArchiveChain_missing {archives : List Archive} {cache : ChannelCache}
    (h : loadJournalArchiveChain rt keyring archives = some cache)
    (hfiles : ¬ ∀ archive ∈ archives, archive.active.isSome = true) :
    archives.length = 1 ∧ cache = { entries := [], turnTombstones := [] } := by
  unfold loadJournalArchiveChain at h
  split at h
  · exact absurd h (by simp)
  · have hany : (archives.any fun archive => archive.active.isNone) = true := by
      rw [List.any_eq_true]
      simp only [not_forall] at hfiles
      obtain ⟨archive, ha, hactive⟩ := hfiles
      exact ⟨archive, ha, by simpa using hactive⟩
    rw [if_pos hany] at h
    split at h
    · exact ⟨‹_›, (Option.some.inj h).symm⟩
    · exact absurd h (by simp)

/-- What the full load says last of a turn: redacted, restored, or nothing. -/
def lastInFile (archives : List Archive) (turnId : String) : Option Bool :=
  JsSet.lastOn JournalTurnTombstoneEntry.targetId JournalTurnTombstoneEntry.redacts
    (tombstonesInFileOrder archives) turnId

/-- The turns of the loaded messages are those of the rows. -/
theorem loadedMessages_turnId (archives : List Archive) (turnId : String) :
    (∃ entry ∈ loadedMessages rt keyring archives, turnIdOf rt entry = turnId) ↔
      ∃ entry ∈ (rowsOf archives).filterMap journalToSessionEntry, turnIdOf rt entry = turnId := by
  have h : (loadedMessages rt keyring archives).map (turnIdOf rt) =
      ((rowsOf archives).filterMap journalToSessionEntry).map (turnIdOf rt) := by
    rw [loadedMessages, List.map_filterMap, List.map_filterMap]
    exact filterMap_scanRows normalized_turnId _ _
  rw [← List.mem_map, ← List.mem_map, h]

/-! ## The authority's scan -/

/-- The rows of a file, each with the row before it. -/
def rowsWithPrevious (previous : Option JournalEntry) :
    List JournalEntry → List (Option JournalEntry × JournalEntry)
  | [] => []
  | e :: rest => (previous, e) :: rowsWithPrevious (some e) rest

theorem rowsWithPrevious_concat (previous : Option JournalEntry) (es : List JournalEntry)
    (e : JournalEntry) :
    rowsWithPrevious previous (es ++ [e]) =
      rowsWithPrevious previous es ++ [(es.getLast?.or previous, e)] := by
  induction es generalizing previous with
  | nil => simp [rowsWithPrevious]
  | cons x es ih =>
    rw [List.cons_append, rowsWithPrevious, ih, rowsWithPrevious, List.cons_append,
      List.getLast?_cons]
    cases es.getLast? <;> simp

/-- The stored signature of the row before. -/
def previousHmacOf (previous : Option JournalEntry) : Option String :=
  previous.bind fun e => textOrNull e.hmac

/-- The matches of a backward scan over well-formed rows, newest first. -/
def matchesNewestFirst (accepts : JournalEntry → Bool) : List JournalEntry → List JournalBackwardMatch
  | [] => []
  | e :: rest =>
    (if accepts e then [{ entry := e, previousHmac := previousHmacOf rest.head? }] else []) ++
      matchesNewestFirst accepts rest

theorem scanMatching_entries (accepts : JournalEntry → Bool) (s : BackwardState)
    (es : List JournalEntry) :
    (scanMatching accepts s (es.map Line.entry)).matched =
      s.matched ++ (s.awaitingBoundary.toList.map fun a =>
        { entry := a, previousHmac := previousHmacOf es.head? }) ++
      matchesNewestFirst accepts es := by
  induction es generalizing s with
  | nil => cases h : s.awaitingBoundary <;> simp [scanMatching, matchesNewestFirst, previousHmacOf, h]
  | cons e es ih =>
    simp only [List.map_cons, scanMatching, ih]
    cases h : s.awaitingBoundary <;> cases ha : accepts e <;>
      simp [matchesNewestFirst, previousHmacOf, Line.toEntry, ha]

theorem scanMatching_trusted {accepts : JournalEntry → Bool} {s : BackwardState} {lines : List Line}
    (h : (scanMatching accepts s lines).quarantined = false) :
    s.quarantined = false ∧ lines = (lines.filterMap Line.toEntry).map Line.entry := by
  induction lines generalizing s with
  | nil =>
    refine ⟨?_, rfl⟩
    cases ha : s.awaitingBoundary <;> simpa [scanMatching, ha] using h
  | cons line lines ih =>
    cases line with
    | malformed =>
      simp only [scanMatching] at h
      exact absurd (ih h).1 (by simp)
    | entry e =>
      simp only [scanMatching] at h
      obtain ⟨hs, hlines⟩ := ih h
      refine ⟨hs, ?_⟩
      rw [filterMap_entry, List.map_cons, ← hlines]

/-- The backward scan lists the accepted rows with their predecessors, newest first. -/
theorem matchesNewestFirst_reverse (accepts : JournalEntry → Bool) (es : List JournalEntry) :
    matchesNewestFirst accepts es.reverse =
      ((rowsWithPrevious none es).reverse.filter fun row => accepts row.2).map fun row =>
        { entry := row.2, previousHmac := previousHmacOf row.1 } := by
  induction es using List.reverseRecOn with
  | nil => rfl
  | append_singleton es e ih =>
    rw [List.reverse_append, List.reverse_singleton, List.singleton_append, matchesNewestFirst, ih,
      rowsWithPrevious_concat, List.reverse_append, List.reverse_singleton, List.singleton_append,
      List.head?_reverse, Option.or_none, List.filter_cons]
    cases accepts e <;> rfl

theorem readJournalMatchingEntriesBackward_matched {archive : Archive} {accepts : JournalEntry → Bool}
    (h : (readJournalMatchingEntriesBackward archive accepts).quarantined = false) :
    (readJournalMatchingEntriesBackward archive accepts).matched =
      ((rowsWithPrevious none archive.entries).reverse.filter fun row => accepts row.2).map fun row =>
        { entry := row.2, previousHmac := previousHmacOf row.1 } := by
  unfold readJournalMatchingEntriesBackward at h ⊢
  obtain ⟨-, hlines⟩ := scanMatching_trusted h
  rw [hlines, scanMatching_entries, List.filterMap_reverse]
  exact matchesNewestFirst_reverse accepts archive.entries

/-! ## The authority as a replay -/

/-- A tombstone row as the authority records it. -/
def tombstoneRecord (rt : Runtime) (keyring : Option SessionHmacKeyring)
    (previousArchiveHmac : JsValue) (archiveIndex : Nat) (row : Option JournalEntry × JournalEntry) :
    Option TombstoneActionRecord :=
  (journalToTurnTombstoneEntry row.2).map fun tombstone =>
    { id := tombstone.id, archiveIndex, targetId := tombstone.targetId, action := tombstone.action
      verified := (verifyAndNormalizeEntry rt keyring row.2
        (authorityCandidates previousArchiveHmac (previousHmacOf row.1))).verified }

/-- The tombstone rows of a chain, archive by archive, the rows of an archive newest first. -/
def tombstoneRecords (rt : Runtime) (keyring : Option SessionHmacKeyring)
    (previousArchive : Option Archive) (archiveIndex : Nat) :
    List Archive → List TombstoneActionRecord
  | [] => []
  | archive :: rest =>
    (rowsWithPrevious none archive.entries).reverse.filterMap
        (tombstoneRecord rt keyring ((previousArchive.map lastStoredHmac).getD .null) archiveIndex) ++
      tombstoneRecords rt keyring (some archive) (archiveIndex + 1) rest

theorem archiveActions_eq (previousArchiveHmac : JsValue) (archiveIndex : Nat)
    (rows : List (Option JournalEntry × JournalEntry)) :
    archiveActions rt keyring previousArchiveHmac archiveIndex
        ((rows.filter fun row => (journalToTurnTombstoneEntry row.2).isSome).map fun row =>
          { entry := row.2, previousHmac := previousHmacOf row.1 }) =
      rows.filterMap (tombstoneRecord rt keyring previousArchiveHmac archiveIndex) := by
  unfold archiveActions
  rw [List.filterMap_map, List.filterMap_filter]
  refine List.filterMap_congr fun row _ => ?_
  dsimp only [Function.comp_apply]
  rw [normalized_tombstone, tombstoneRecord]
  cases journalToTurnTombstoneEntry row.2 <;> rfl

/-- What the scans collect, when no row is malformed. -/
theorem collectActions_eq {previousArchive : Option Archive} {archiveIndex : Nat}
    {archives : List Archive} {actions : List TombstoneActionRecord}
    (h : collectActions rt keyring previousArchive archiveIndex archives = some actions) :
    actions = tombstoneRecords rt keyring previousArchive archiveIndex archives := by
  induction archives generalizing previousArchive archiveIndex actions with
  | nil => exact (Option.some.inj h).symm
  | cons archive rest ih =>
    rw [collectActions] at h
    cases hq : (readJournalMatchingEntriesBackward archive fun entry =>
        (journalToTurnTombstoneEntry entry).isSome).quarantined with
    | true => simp [hq] at h
    | false =>
      simp only [hq, Bool.false_eq_true, if_false, Option.bind_eq_bind, Option.bind_eq_some_iff] at h
      obtain ⟨later, hlater, hactions⟩ := h
      rw [← Option.some.inj hactions, ih hlater, tombstoneRecords,
        readJournalMatchingEntriesBackward_matched hq, archiveActions_eq]

def TombstoneActionRecord.redacts (record : TombstoneActionRecord) : Bool := record.action = .redact

/-- The rows the authority acts on: redactions and verified restores. -/
def TombstoneActionRecord.counts (record : TombstoneActionRecord) : Bool :=
  record.redacts || record.verified

/-- The rows that count, in the order of the authority. -/
def tombstonesInAuthorityOrder (rt : Runtime) (keyring : Option SessionHmacKeyring)
    (archives : List Archive) : List TombstoneActionRecord :=
  (sortActions (tombstoneRecords rt keyring none 0 archives)).filter TombstoneActionRecord.counts

/-- What the authority says last of a turn. -/
def lastInAuthority (rt : Runtime) (keyring : Option SessionHmacKeyring) (archives : List Archive)
    (turnId : String) : Option Bool :=
  JsSet.lastOn TombstoneActionRecord.targetId TombstoneActionRecord.redacts
    (tombstonesInAuthorityOrder rt keyring archives) turnId

theorem foldl_applyAction (records : List TombstoneActionRecord) (tombstones : List String) :
    records.foldl applyAction tombstones =
      JsSet.replay TombstoneActionRecord.targetId TombstoneActionRecord.redacts
        (records.filter TombstoneActionRecord.counts) tombstones := by
  induction records generalizing tombstones with
  | nil => rfl
  | cons record rest ih =>
    rw [List.foldl_cons, ih, List.filter_cons]
    cases ha : record.action <;> cases hv : record.verified <;>
      simp [JsSet.replay, applyAction, TombstoneActionRecord.counts,
        TombstoneActionRecord.redacts, ha, hv]

theorem mem_authority {archives : List Archive} {hidden : List String}
    (h : readTurnTombstoneAuthorityFromChain rt keyring archives = some hidden) (turnId : String) :
    turnId ∈ hidden ↔ lastInAuthority rt keyring archives turnId = some true := by
  unfold readTurnTombstoneAuthorityFromChain at h
  split at h
  · exact absurd h (by simp)
  · simp only [Option.bind_eq_bind, Option.bind_eq_some_iff] at h
    obtain ⟨actions, hactions, hhidden⟩ := h
    rw [← Option.some.inj hhidden, foldl_applyAction, JsSet.mem_replay, collectActions_eq hactions]
    show (lastInAuthority rt keyring archives turnId).getD _ = true ↔ _
    cases lastInAuthority rt keyring archives turnId <;> simp

theorem mem_turnTombstones {archives : List Archive} {cache : ChannelCache}
    (h : loadJournalArchiveChain rt keyring archives = some cache)
    (hfiles : ∀ archive ∈ archives, archive.active.isSome = true) (turnId : String) :
    turnId ∈ cache.turnTombstones ↔ lastInFile archives turnId = some true := by
  rw [(loadJournalArchiveChain_eq h hfiles).1, JsSet.mem_replay]
  show (lastInFile archives turnId).getD _ = true ↔ _
  cases lastInFile archives turnId <;> simp

/-! ## Hidden turns and loaded entries -/

theorem mem_of_mem_rowsWithPrevious {previous : Option JournalEntry} {es : List JournalEntry}
    {row : Option JournalEntry × JournalEntry} (h : row ∈ rowsWithPrevious previous es) :
    row.2 ∈ es := by
  induction es generalizing previous with
  | nil => exact absurd h (by simp [rowsWithPrevious])
  | cons e es ih =>
    rcases List.mem_cons.mp h with rfl | h
    · exact List.mem_cons_self ..
    · exact List.mem_cons_of_mem _ (ih h)

/-- A record of the authority is a tombstone row of the chain. -/
theorem exists_row_of_record {previousArchive : Option Archive} {archiveIndex : Nat}
    {archives : List Archive} {record : TombstoneActionRecord}
    (h : record ∈ tombstoneRecords rt keyring previousArchive archiveIndex archives) :
    ∃ t ∈ tombstonesInFileOrder archives, t.targetId = record.targetId := by
  induction archives generalizing previousArchive archiveIndex with
  | nil => exact absurd h (by simp [tombstoneRecords])
  | cons archive rest ih =>
    rw [tombstonesInFileOrder, rowsOf, List.flatMap_cons, List.filterMap_append]
    rcases List.mem_append.mp h with h | h
    · obtain ⟨row, hrow, hrecord⟩ := List.mem_filterMap.mp h
      rw [tombstoneRecord, Option.map_eq_some_iff] at hrecord
      obtain ⟨t, ht, rfl⟩ := hrecord
      have hmem := mem_of_mem_rowsWithPrevious (List.mem_reverse.mp hrow)
      exact ⟨t, List.mem_append_left _ (List.mem_filterMap.mpr ⟨row.2, hmem, ht⟩), rfl⟩
    · obtain ⟨t, ht, htarget⟩ := ih h
      exact ⟨t, List.mem_append_right _ ht, htarget⟩

/-- A turn the authority has a say about has a last tombstone row in the files. -/
theorem lastInFile_isSome {archives : List Archive} {turnId : String}
    (h : lastInAuthority rt keyring archives turnId = some true) :
    (lastInFile archives turnId).isSome = true := by
  rw [lastInAuthority, JsSet.lastOn, Option.map_eq_some_iff] at h
  obtain ⟨record, hlast, -⟩ := h
  have hmem := List.mem_filter.mp (List.mem_of_getLast? hlast)
  have hrecord := (List.mem_insertionSort _).mp (List.mem_filter.mp hmem.1).1
  obtain ⟨t, ht, htarget⟩ := exists_row_of_record hrecord
  have hturn : record.targetId = turnId := by simpa using hmem.2
  have hne : (tombstonesInFileOrder archives).filter (fun t => t.targetId = turnId) ≠ [] :=
    List.ne_nil_of_mem (List.mem_filter.mpr ⟨ht, by simp [htarget, hturn]⟩)
  rw [lastInFile, JsSet.lastOn, Option.isSome_map]
  exact List.getLast?_isSome.mpr hne

/-- A turn that is restored last in file order while the last row that counts for the
authority redacts it: a restore that does not verify, or one that stands after a redaction
of a larger id. -/
def RevealedByLoad (rt : Runtime) (keyring : Option SessionHmacKeyring) (archives : List Archive)
    (turnId : String) : Prop :=
  lastInFile archives turnId = some false ∧ lastInAuthority rt keyring archives turnId = some true

/-- **Hidden turns in the full load.** An entry the authority hides is never loaded exactly
if no turn with a message row is revealed by the load only. A chain whose file is missing
loads nothing. -/
theorem hidden_never_loaded_iff {rt : Runtime} {keyring : Option SessionHmacKeyring}
    {archives : List Archive} {hidden : List String} {cache : ChannelCache}
    (hauthority : readTurnTombstoneAuthorityFromChain rt keyring archives = some hidden)
    (hload : loadJournalArchiveChain rt keyring archives = some cache) :
    (∀ entry ∈ cache.entries, turnIdOf rt entry ∉ hidden) ↔
      ((∀ archive ∈ archives, archive.active.isSome = true) →
        ∀ entry ∈ (rowsOf archives).filterMap journalToSessionEntry,
          ¬ RevealedByLoad rt keyring archives (turnIdOf rt entry)) := by
  by_cases hfiles : ∀ archive ∈ archives, archive.active.isSome = true
  · have hentries := (loadJournalArchiveChain_eq hload hfiles).2
    constructor
    · intro h _ entry hentry ⟨hfile, hlast⟩
      obtain ⟨loaded, hloaded, hturn⟩ :=
        (@loadedMessages_turnId rt keyring archives (turnIdOf rt entry)).mpr
          ⟨entry, hentry, rfl⟩
      have hvisible : turnIdOf rt loaded ∉ cache.turnTombstones := by
        rw [mem_turnTombstones hload hfiles, hturn, hfile]
        simp
      refine h loaded ?_ ?_
      · rw [hentries]
        exact List.mem_filter.mpr ⟨hloaded, by simpa using hvisible⟩
      · rw [mem_authority hauthority, hturn]
        exact hlast
    · intro h entry hentry hhidden
      rw [hentries] at hentry
      obtain ⟨hloaded, hvisible⟩ := List.mem_filter.mp hentry
      obtain ⟨row, hrow, hturn⟩ :=
        (@loadedMessages_turnId rt keyring archives (turnIdOf rt entry)).mp
          ⟨entry, hloaded, rfl⟩
      have hlast := (mem_authority hauthority _).mp hhidden
      -- visible in the load, so its last row is a restore: there is one, since the
      -- authority has a row for it
      have hfile : lastInFile archives (turnIdOf rt entry) = some false := by
        have hnot : lastInFile archives (turnIdOf rt entry) ≠ some true := by
          rw [Ne, ← mem_turnTombstones hload hfiles]
          simpa using hvisible
        have hsome := lastInFile_isSome hlast
        cases hl : lastInFile archives (turnIdOf rt entry) with
        | none => simp [hl] at hsome
        | some b => cases b <;> simp_all
      exact h hfiles row hrow (hturn.symm ▸ ⟨hfile, hlast⟩)
  · obtain ⟨-, rfl⟩ := loadJournalArchiveChain_missing hload hfiles
    exact ⟨fun _ h => absurd h hfiles, fun _ entry hentry => absurd hentry (by simp)⟩

/-! ### Two short chains -/

def sampleTurn : String := "0190a1b2-c3d4-7e5f-8a6b-112233445566"

/-- The message metadata of `sampleTurn`. -/
def sampleMetadata : String :=
  "\x7b\"turn\":\x7b\"turnId\":\"0190a1b2-c3d4-7e5f-8a6b-112233445566\"\x7d\x7d"

def zeroDigest : Digest where
  value := String.ofList (List.replicate 64 '0')
  isHex := by decide +kernel

/-- `JSON.parse` on the one text the samples hold; no sample row is signed. -/
def sampleRuntime : Runtime where
  parseJson
    | .string s =>
      if s = sampleMetadata then some (.object [("turn", .object [("turnId", .string sampleTurn)])])
      else none
    | _ => none
  backfillLegacyTurnId channelId _ _ _ := channelId
  computeJournalEntryHmac _ _ _ _ := zeroDigest

def sampleKeyring : SessionHmacKeyring where
  keys := JsMap.ofList [("v1", "secret")]

def unsignedRow (id : Rat) (body : JournalBody) : Line :=
  .entry { id, channelId := "c", timestamp := id, body }

def sampleMessage (id : Rat) : Line := unsignedRow id (.message .user "hello" (.string sampleMetadata))

/-- A redacted turn. -/
def redactedChain : List Archive :=
  [{ active := some [sampleMessage 1, unsignedRow 2 (.tombstone sampleTurn .redact)] }]

/-- The same turn, with a restore row nobody signed. -/
def forgedRestoreChain : List Archive :=
  [{ active := some [sampleMessage 1, unsignedRow 2 (.tombstone sampleTurn .redact),
      unsignedRow 3 (.tombstone sampleTurn .restore)] }]

theorem redactedChain_never_loaded :
    ∃ cache, loadJournalArchiveChain sampleRuntime (some sampleKeyring) redactedChain = some cache ∧
      ((∀ entry ∈ cache.entries, turnIdOf sampleRuntime entry ∉ [sampleTurn]) ↔
        ((∀ archive ∈ redactedChain, archive.active.isSome = true) →
          ∀ entry ∈ (rowsOf redactedChain).filterMap journalToSessionEntry,
            ¬ RevealedByLoad sampleRuntime (some sampleKeyring) redactedChain
              (turnIdOf sampleRuntime entry))) :=
  ⟨_, rfl, hidden_never_loaded_iff (by decide +kernel) rfl⟩

/-- An unsigned restore row brings the message back, though the authority hides its turn. -/
theorem forged_restore_loaded :
    readTurnTombstoneAuthorityFromChain sampleRuntime (some sampleKeyring) forgedRestoreChain =
      some [sampleTurn] ∧
    ∃ cache, loadJournalArchiveChain sampleRuntime (some sampleKeyring) forgedRestoreChain =
        some cache ∧
      ∃ entry ∈ cache.entries, turnIdOf sampleRuntime entry ∈ [sampleTurn] := by
  refine ⟨by decide +kernel, _, rfl, ?_⟩
  decide +kernel

end Psfn.Journal
