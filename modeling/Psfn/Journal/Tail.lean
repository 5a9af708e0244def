import Mathlib.Data.List.DropRight
import Psfn.Journal.Tombstones

/-!
# Session journal — the bounded tail reader

`readRecentEntriesFromJournalArchiveChain` reads the archives backwards until it has
enough messages and verifies only the rows from the oldest of them on, seeded with the
signature stored in the row before. This module says which rows those are and what the
seed is (`readWindow_spec`): the rows from the `n`-th message from the end on, whatever
the archive boundaries.
-/

namespace Psfn.Journal

open Psfn.Lib

/-! ## The reader -/

/-- `list.slice(start)`. -/
def slice {α : Type} (start : Int) (list : List α) : List α :=
  if start < 0 then list.drop (list.length + start).toNat else list.drop start.toNat

/-- `list.length <= limit ? list : list.slice(-limit)`. -/
def lastOrAll {α : Type} (limit : Int) (list : List α) : List α :=
  if list.length ≤ limit then list else slice (-limit) list

/-- What the archive loop has read: the rows, the archives it did not get to (newest
first) and whether the last read stopped short of its archive's start. -/
structure TailBlocks where
  rawEntries : List JournalEntry
  older      : List Archive
  truncated  : Bool

/-- The archive loop, over the archives newest first. -/
def readBlocks (remainingMessages : Int) (blocks : List JournalEntry) : List Archive → TailBlocks
  | [] => { rawEntries := blocks, older := [], truncated := true }
  | archive :: older =>
    let tail := readJournalTailEntries archive remainingMessages true
    let remaining := remainingMessages - tail.entries.countP isMessage
    if remaining ≤ 0 || older.isEmpty then
      { rawEntries := tail.entries ++ blocks, older, truncated := tail.truncated }
    else readBlocks remaining (tail.entries ++ blocks) older

/-- The rows to verify, the predecessor signature they are seeded with, and whether they
are everything a full load walks. -/
structure TailWindow where
  rows     : List JournalEntry
  seed     : JsValue
  coversAll : Bool

/-- From the archive loop to `oldestMessageIndex` and the seed; `none` when no message
was read. -/
def readWindow (archives : List Archive) (limit : Int) : Option TailWindow :=
  let blocks := readBlocks limit [] archives.reverse
  let messageIndexes := blocks.rawEntries.findIdxs isMessage
  (messageIndexes[messageIndexes.length - limit.toNat]?).map fun oldestMessageIndex =>
    { rows := blocks.rawEntries.drop oldestMessageIndex
      seed :=
        if 0 < oldestMessageIndex then
          match blocks.rawEntries[oldestMessageIndex - 1]? with
          | some boundaryEntry => candidateOf (textOrNull boundaryEntry.hmac)
          | none => .null
        else match blocks.older with
          | previous :: _ => lastStoredHmac previous
          | [] => .null
      coversAll := blocks.older.isEmpty && !blocks.truncated && oldestMessageIndex = 0 }

/-- `Number.MAX_SAFE_INTEGER`. -/
def maxSafeInteger : Int := 9007199254740991

section Reader

variable (rt : Runtime) (keyring : Option SessionHmacKeyring)

/-- The scan of a window from its seed. -/
def TailWindow.scan (w : TailWindow) : List NormalizedJournalEntry :=
  (scanRows rt keyring { previousHmacCandidates := [w.seed], runNoticeRendered := false } w.rows).2

/-- `readRecentEntriesFromJournalArchiveChainAttempt`; `none` where it throws. -/
def readRecentEntriesAttempt (archives : List Archive) (limit : Int) : Option (List SessionEntry) :=
  if limit ≤ 0 || archives.isEmpty then some []
  else
    match readWindow archives limit with
    | none => some []
    | some w =>
      let normalized := w.scan rt keyring
      let messages := (normalized.map (·.entry)).filterMap journalToSessionEntry
      if normalized.any (fun n => !n.verified) && !w.coversAll then
        (loadJournalArchiveChain rt keyring archives).map fun loaded => lastOrAll limit loaded.entries
      else some (lastOrAll limit messages)

/-- The loop of `readRecentEntriesFromJournalArchiveChain`, for at most `rounds` rounds. -/
def readRecentLoop (archives : List Archive) (limit : Int) (tombstones : List String) :
    Nat → Int → Option (List SessionEntry)
  | 0, _ => none
  | rounds + 1, requested => do
    let messages ← readRecentEntriesAttempt rt keyring archives requested
    let visible := applyTurnTombstones rt messages tombstones
    if visible.length ≥ limit || messages.length < requested then
      return lastOrAll limit visible
    else readRecentLoop archives limit tombstones rounds (min maxSafeInteger (requested * 2))

/-- The number of messages the loop asks for first. -/
def firstRequest (limit : Int) (tombstones : List String) : Int :=
  max (limit * 4) (limit + tombstones.length * 4)

def readRecentEntriesFromJournalArchiveChain (rounds : Nat) (archives : List Archive) (limit : Int)
    (tombstones : List String) : Option (List SessionEntry) :=
  if tombstones.isEmpty then readRecentEntriesAttempt rt keyring archives limit
  else readRecentLoop rt keyring archives limit tombstones rounds (firstRequest limit tombstones)

end Reader

/-! ## One archive, from the end -/

/-- The rows of a read that found its messages, and one more. -/
theorem scanTail_boundary (n : Nat) (s : TailState) (hs : s.needBoundaryEntry = true)
    (lines : List Line) :
    scanTail n true s lines =
      (s.parsedDescending ++ (lines.filterMap Line.toEntry).head?.toList,
        !(lines.filterMap Line.toEntry).isEmpty) := by
  induction lines with
  | nil => simp [scanTail]
  | cons line rest ih =>
    cases line with
    | malformed =>
      rw [filterMap_malformed, ← ih]
      rfl
    | entry e =>
      rw [filterMap_entry]
      simp [scanTail, hs]

/-- A backward read stops one row before the message that fills its limit, or reads
everything. -/
theorem scanTail_spec {n : Nat} {s : TailState} (hs : s.needBoundaryEntry = false)
    (hcount : s.messageCount < n) (lines : List Line) :
    (s.messageCount + (lines.filterMap Line.toEntry).countP isMessage < n ∧
      scanTail n true s lines = (s.parsedDescending ++ lines.filterMap Line.toEntry, false)) ∨
    ∃ w m front, lines.filterMap Line.toEntry = w ++ m :: front ∧ isMessage m = true ∧
      s.messageCount + (w ++ [m]).countP isMessage = n ∧
      scanTail n true s lines =
        (s.parsedDescending ++ (w ++ [m]) ++ front.head?.toList, !front.isEmpty) := by
  induction lines generalizing s with
  | nil => exact Or.inl ⟨by simpa using hcount, by simp [scanTail]⟩
  | cons line rest ih =>
    cases line with
    | malformed =>
      rw [filterMap_malformed]
      exact ih hs hcount
    | entry e =>
      rw [filterMap_entry]
      cases he : isMessage e with
      | false =>
        have hstep : scanTail n true s (.entry e :: rest) =
            scanTail n true { s with parsedDescending := s.parsedDescending ++ [e] } rest := by
          simp [scanTail, hs, he]
        rw [hstep]
        rcases ih (s := { s with parsedDescending := s.parsedDescending ++ [e] }) hs hcount with
          ⟨hlt, heq⟩ | ⟨w, m, front, hrows, hm, hn, heq⟩
        · exact Or.inl ⟨by simpa [he] using hlt, by simpa using heq⟩
        · refine Or.inr ⟨e :: w, m, front, by rw [hrows]; rfl, hm, by simpa [he] using hn, ?_⟩
          rw [heq]
          simp
      | true =>
        by_cases hfull : s.messageCount + 1 ≥ n
        · -- this message fills the limit: one more row is read
          right
          refine ⟨[], e, rest.filterMap Line.toEntry, rfl, he, by simp [he]; omega, ?_⟩
          have hstep : scanTail n true s (.entry e :: rest) =
              scanTail n true { parsedDescending := s.parsedDescending ++ [e]
                                messageCount := s.messageCount + 1
                                needBoundaryEntry := true } rest := by
            simp [scanTail, hs, he, hfull]
          rw [hstep, scanTail_boundary _ _ rfl]
          simp
        · have hstep : scanTail n true s (.entry e :: rest) =
              scanTail n true { s with parsedDescending := s.parsedDescending ++ [e]
                                       messageCount := s.messageCount + 1 } rest := by
            simp [scanTail, hs, he, hfull]
          rw [hstep]
          rcases ih (s := { s with parsedDescending := s.parsedDescending ++ [e]
                                   messageCount := s.messageCount + 1 }) hs (by simpa using hfull) with
            ⟨hlt, heq⟩ | ⟨w, m, front, hrows, hm, hn, heq⟩
          · refine Or.inl ⟨?_, by simpa using heq⟩
            simp only [List.countP_cons, he, if_true]
            dsimp only at hlt
            omega
          · refine Or.inr ⟨e :: w, m, front, by rw [hrows]; rfl, hm, ?_, ?_⟩
            · simp only [List.cons_append, List.countP_cons, he, if_true]
              dsimp only at hn
              omega
            · rw [heq]
              simp

/-- `readJournalTailEntries` with a boundary row. -/
theorem readJournalTailEntries_spec (archive : Archive) {n : Nat} (hn : 0 < n) :
    (archive.entries.countP isMessage < n ∧
      readJournalTailEntries archive n true = { entries := archive.entries, truncated := false }) ∨
    ∃ front m back, archive.entries = front ++ m :: back ∧ isMessage m = true ∧
      (m :: back).countP isMessage = n ∧
      readJournalTailEntries archive n true =
        { entries := front.getLast?.toList ++ m :: back, truncated := !front.isEmpty } := by
  have hpos : ¬ ((n : Int) ≤ 0) := by omega
  have hspec := scanTail_spec (n := n)
    (s := { parsedDescending := [], messageCount := 0, needBoundaryEntry := false }) rfl hn
    archive.lines.reverse
  rw [List.filterMap_reverse] at hspec
  rcases hspec with ⟨hlt, heq⟩ | ⟨w, m, front, hrows, hm, hcount, heq⟩
  · left
    refine ⟨by simpa [Archive.entries] using hlt, ?_⟩
    rw [readJournalTailEntries, if_neg hpos, Int.toNat_natCast, heq]
    simp [Archive.entries]
  · right
    refine ⟨front.reverse, m, w.reverse, ?_, hm, ?_, ?_⟩
    · rw [Archive.entries, ← List.reverse_reverse (List.filterMap _ _), hrows]
      simp
    · rw [← hcount]
      simp [List.countP_append, List.countP_cons]
    · rw [readJournalTailEntries, if_neg hpos, Int.toNat_natCast, heq, List.getLast?_reverse]
      cases front <;> simp

/-! ## The archive loop -/

theorem rowsOf_append (xs ys : List Archive) : rowsOf (xs ++ ys) = rowsOf xs ++ rowsOf ys :=
  List.flatMap_append

theorem rowsOf_cons (archive : Archive) (rest : List Archive) :
    rowsOf (archive :: rest) = archive.entries ++ rowsOf rest :=
  List.flatMap_cons

theorem rowsOf_reverse_cons (archive : Archive) (older : List Archive) :
    rowsOf (archive :: older).reverse = rowsOf older.reverse ++ archive.entries := by
  rw [List.reverse_cons, rowsOf_append]
  simp [rowsOf]

/-- The archive loop, newest archive first: it reads every row, or stops in the archive that
holds the message that fills the limit. -/
theorem readBlocks_spec {n : Nat} (hn : 0 < n) (blocks : List JournalEntry)
    {archives : List Archive} (hne : archives ≠ []) :
    ((rowsOf archives.reverse).countP isMessage < n ∧
      readBlocks n blocks archives =
        { rawEntries := rowsOf archives.reverse ++ blocks, older := [], truncated := false }) ∨
    ∃ newer archive older front m back, archives = newer ++ archive :: older ∧
      archive.entries = front ++ m :: back ∧ isMessage m = true ∧
      (m :: (back ++ rowsOf newer.reverse)).countP isMessage = n ∧
      readBlocks n blocks archives =
        { rawEntries := front.getLast?.toList ++ m :: (back ++ rowsOf newer.reverse) ++ blocks
          older, truncated := !front.isEmpty } := by
  induction archives generalizing n blocks with
  | nil => exact absurd rfl hne
  | cons archive older ih =>
    rw [readBlocks]
    rcases readJournalTailEntries_spec archive hn with
      ⟨hlt, heq⟩ | ⟨front, m, back, hentries, hm, hcount, heq⟩
    · -- the archive is read whole and more is wanted
      have hremaining : (n : Int) - archive.entries.countP isMessage =
          ((n - archive.entries.countP isMessage : Nat) : Int) := by omega
      have hpos : 0 < n - archive.entries.countP isMessage := by omega
      simp only [heq, hremaining]
      by_cases holder : older = []
      · subst holder
        left
        simp [rowsOf, hlt]
      · rw [if_neg (by simp [holder]; omega), rowsOf_reverse_cons]
        rcases ih hpos (archive.entries ++ blocks) holder with
          ⟨hlt', heq'⟩ | ⟨newer, archive', older', front, m, back, hsplit, hentries, hm, hcount, heq'⟩
        · left
          refine ⟨by rw [List.countP_append]; omega, ?_⟩
          rw [heq', List.append_assoc]
        · right
          refine ⟨archive :: newer, archive', older', front, m, back, by rw [hsplit]; rfl, hentries,
            hm, ?_, ?_⟩
          · rw [rowsOf_reverse_cons, ← List.append_assoc, ← List.cons_append, List.countP_append]
            omega
          · rw [heq', rowsOf_reverse_cons]
            simp
    · -- the archive fills the limit
      have hfull : (n : Int) - (front.getLast?.toList ++ m :: back).countP isMessage ≤ 0 := by
        rw [List.countP_append]
        omega
      right
      refine ⟨[], archive, older, front, m, back, rfl, hentries, hm, by simpa [rowsOf] using hcount, ?_⟩
      simp only [heq]
      rw [if_pos (by simpa using Or.inl hfull)]
      simp [rowsOf]

/-! ## The window -/

/-- The place among the rows of their `n`-th message from the end, or of the first. -/
def windowStart (rows : List JournalEntry) (n : Nat) : Option Nat :=
  (rows.findIdxs isMessage)[rows.countP isMessage - n]?

/-- The archives that lie wholly before row `i`, and the rows before it in its own archive. -/
def splitArchives : Nat → List Archive → List Archive × List JournalEntry
  | _, [] => ([], [])
  | i, archive :: rest =>
    if i < archive.entries.length then ([], archive.entries.take i)
    else
      let (older, front) := splitArchives (i - archive.entries.length) rest
      (archive :: older, front)

/-- What stands before row `i`, as far as the reader looks: everything, if it wants more
messages than there are, or else the row's own archive and the archives before that. -/
def windowPrefix (archives : List Archive) (n i : Nat) : List Archive × List JournalEntry :=
  if (rowsOf archives).countP isMessage < n then ([], (rowsOf archives).take i)
  else splitArchives i archives

/-- The signature stored last before a window. -/
def storedSeed (before : List Archive × List JournalEntry) : JsValue :=
  match before.2.getLast? with
  | some boundaryEntry => candidateOf (textOrNull boundaryEntry.hmac)
  | none => match before.1.getLast? with
    | some previous => lastStoredHmac previous
    | none => .null

/-- The messages of a list whose window starts at a message. -/
theorem getElem?_findIdxs {front rest : List JournalEntry} {m : JournalEntry}
    (hm : isMessage m = true) :
    ((front ++ m :: rest).findIdxs isMessage)[front.countP isMessage]? = some front.length := by
  rw [List.findIdxs_append, List.getElem?_append_right (by simp), List.length_findIdxs,
    Nat.sub_self, List.findIdxs_cons]
  simp [hm]

theorem windowStart_append {front rest : List JournalEntry} {m : JournalEntry} {n : Nat}
    (hm : isMessage m = true)
    (hn : (m :: rest).countP isMessage = n ∨
      (front.countP isMessage = 0 ∧ (m :: rest).countP isMessage < n)) :
    windowStart (front ++ m :: rest) n = some front.length := by
  have hindex : (front ++ m :: rest).countP isMessage - n = front.countP isMessage := by
    rw [List.countP_append]
    omega
  rw [windowStart, hindex, getElem?_findIdxs hm]

theorem splitArchives_append {older newer : List Archive} {archive : Archive}
    {front rest : List JournalEntry} {m : JournalEntry}
    (hentries : archive.entries = front ++ m :: rest) :
    splitArchives ((rowsOf older).length + front.length) (older ++ archive :: newer) =
      (older, front) := by
  induction older with
  | nil =>
    rw [List.nil_append, splitArchives, if_pos (by simp [rowsOf, hentries])]
    simp [rowsOf, hentries]
  | cons a older ih =>
    have hlength : (rowsOf (a :: older)).length = a.entries.length + (rowsOf older).length := by
      simp [rowsOf]
    rw [List.cons_append, splitArchives, if_neg (by omega), hlength,
      show a.entries.length + (rowsOf older).length + front.length - a.entries.length =
        (rowsOf older).length + front.length by omega, ih]

theorem exists_first_message {rows : List JournalEntry} (h : rows.countP isMessage ≠ 0) :
    ∃ front m rest, rows = front ++ m :: rest ∧ isMessage m = true ∧ front.countP isMessage = 0 := by
  induction rows with
  | nil => exact absurd rfl h
  | cons e rows ih =>
    cases he : isMessage e with
    | true => exact ⟨[], e, rows, rfl, he, rfl⟩
    | false =>
      obtain ⟨front, m, rest, rfl, hm, hfront⟩ := ih (by simpa [he] using h)
      exact ⟨e :: front, m, rest, rfl, hm, by simpa [he] using hfront⟩

/-- **The window of the tail reader**, and its seed. -/
theorem readWindow_spec (archives : List Archive) (hne : archives ≠ []) {n : Nat} (hn : 0 < n) :
    readWindow archives n = (windowStart (rowsOf archives) n).map fun i =>
      { rows := (rowsOf archives).drop i
        seed := storedSeed (windowPrefix archives n i)
        coversAll := (windowPrefix archives n i).1.isEmpty && (windowPrefix archives n i).2.isEmpty } := by
  have hreverse : archives.reverse ≠ [] := by simpa using hne
  rcases readBlocks_spec hn [] hreverse with
    ⟨hlt, heq⟩ | ⟨newer, archive, older, front, m, back, hsplit, hentries, hm, hcount, heq⟩
  · -- fewer messages than wanted: everything is read
    rw [List.reverse_reverse] at hlt heq
    unfold readWindow
    simp only [heq, List.append_nil, Int.toNat_natCast, List.length_findIdxs]
    show Option.map _ (windowStart (rowsOf archives) n) = _
    by_cases hzero : (rowsOf archives).countP isMessage = 0
    · have hnone : windowStart (rowsOf archives) n = none := by
        rw [windowStart, List.getElem?_eq_none_iff, List.length_findIdxs]
        omega
      rw [hnone]
      rfl
    · obtain ⟨front, m, rest, hrows, hm, hfront⟩ := exists_first_message hzero
      have hstart : windowStart (rowsOf archives) n = some front.length := by
        rw [hrows] at hlt ⊢
        refine windowStart_append hm (Or.inr ⟨hfront, ?_⟩)
        rw [List.countP_append] at hlt
        omega
      have htake : (rowsOf archives).take front.length = front := by simp [hrows]
      rw [hstart, Option.map_some, Option.map_some, windowPrefix, if_pos hlt, htake]
      rcases List.eq_nil_or_concat front with rfl | ⟨init, last, rfl⟩
      · simp [storedSeed]
      · have hlast : (rowsOf archives)[init.length]? = some last := by
          rw [hrows]
          simp
        simp [storedSeed, hlast]
  · -- the limit is filled inside one archive
    have hchain : archives = older.reverse ++ archive :: newer.reverse := by
      rw [← List.reverse_reverse archives, hsplit]
      simp
    have hrows : rowsOf archives =
        (rowsOf older.reverse ++ front) ++ m :: (back ++ rowsOf newer.reverse) := by
      rw [hchain, rowsOf_append, rowsOf_cons, hentries]
      simp
    have hstart : windowStart (rowsOf archives) n =
        some ((rowsOf older.reverse).length + front.length) := by
      rw [hrows, windowStart_append hm (Or.inl hcount), List.length_append]
    have henough : ¬ (rowsOf archives).countP isMessage < n := by
      rw [hrows, List.countP_append]
      omega
    have hstarts : windowPrefix archives n ((rowsOf older.reverse).length + front.length) =
        (older.reverse, front) := by
      rw [windowPrefix, if_neg henough, hchain, splitArchives_append hentries]
    have hdrop : (rowsOf archives).drop ((rowsOf older.reverse).length + front.length) =
        m :: (back ++ rowsOf newer.reverse) := by
      rw [hrows, ← List.length_append, List.drop_left]
    have hraw : ((front.getLast?.toList ++ m :: (back ++ rowsOf newer.reverse)).findIdxs
        isMessage).length = front.getLast?.toList.countP isMessage + n := by
      rw [List.length_findIdxs, List.countP_append, hcount]
    rw [hstart, Option.map_some, hstarts, hdrop]
    unfold readWindow
    simp only [heq, List.append_nil, Int.toNat_natCast, hraw, Nat.add_sub_cancel]
    rw [getElem?_findIdxs hm, Option.map_some, Option.some_inj]
    cases hlast : front.getLast? with
    | none =>
      obtain rfl := List.getLast?_eq_none_iff.mp hlast
      cases older <;> simp [storedSeed]
    | some last =>
      have hfront : front ≠ [] := fun h => by simp [h] at hlast
      simp [storedSeed, hlast, hfront]

end Psfn.Journal
