import Psfn.Journal.BoundedSeek

/-!
# Seek readers and the backward scan

What the search of `readJournalEntriesBefore` skips, against a scan of all rows from the last one.
A row is trusted when the search would let it decide.

* `once_scans` — the entries are those that a scan keeps of the rows in front of a place, and no
  trusted row behind it lies below the id;
* `seek_agrees_with_scan` — for both readers and every chunk size.
-/

namespace Psfn.JournalSeek

open Psfn.Lib
open Psfn.Snapshot (Bytes newline rows ReadError JsonlLineAtOffset)
open Psfn.Journal (JournalEntry TailState isMessage textOrNull)

/-! ## Entries of rows -/

/-- The rows of a journal file, over all its segments. -/
def fileRows (segments : List Bytes) : List Bytes := segments.flatMap rows

variable (rt : RowReader) (params : SeekParams)

def parsedEntry (row : Bytes) : Option JournalEntry :=
  match rt.read row with
  | .entry entry => some entry
  | _ => none

/-- The entry of a row that may decide a search, behind the row before it. -/
def trustedEntry (previousRow : Option Bytes) (row : Bytes) : Option JournalEntry :=
  match rt.read row with
  | .entry entry =>
    match params.trustSeekEntry with
    | none => some entry
    | some trustSeekEntry =>
      if trustedBy rt params trustSeekEntry previousRow entry then some entry else none
  | _ => none

def parsedEntries (rows : List Bytes) : List JournalEntry := rows.filterMap (parsedEntry rt)

def trustedEntries (previousRow : Option Bytes) : List Bytes → List JournalEntry
  | [] => []
  | row :: rest => (trustedEntry rt params previousRow row).toList ++ trustedEntries (some row) rest

/-- The plain scan: what is kept of some entries, from the last one on. -/
def keptBefore (entries : List JournalEntry) : List JournalEntry :=
  (foldLines (takeEntry params) scanStart entries.reverse).1.parsedDescending.reverse

def Increasing (entries : List JournalEntry) : Prop := entries.Pairwise fun a b => a.id < b.id

/-- No trusted row behind the place lies below the id. -/
def NothingBehind (front back : List Bytes) : Prop :=
  ∀ e ∈ trustedEntries rt params front.getLast? back, (params.beforeId : Rat) ≤ e.id

variable {rt params}

theorem trustedEntries_append (previousRow : Option Bytes) (front back : List Bytes) :
    trustedEntries rt params previousRow (front ++ back)
      = trustedEntries rt params previousRow front
      ++ trustedEntries rt params (front.getLast?.or previousRow) back := by
  induction front generalizing previousRow with
  | nil => rfl
  | cons row front ih =>
    rw [List.cons_append, trustedEntries, trustedEntries, ih, List.append_assoc]
    congr 3
    cases front with
    | nil => rfl
    | cons next front =>
      rw [List.getLast?_cons_cons]
      cases hlast : (next :: front).getLast? with
      | none => simp at hlast
      | some last => rfl

/-- Behind a trusted row that is not below the id none is. -/
theorem nothingBehind_of_trusted {front back : List Bytes} {row : Bytes} {e : JournalEntry}
    (hincreasing : Increasing (trustedEntries rt params none (front ++ row :: back)))
    (htrusted : trustedEntry rt params front.getLast? row = some e)
    (hid : (params.beforeId : Rat) ≤ e.id) : NothingBehind rt params front (row :: back) := by
  rw [trustedEntries_append, Option.or_none] at hincreasing
  have hbehind : Increasing (trustedEntries rt params front.getLast? (row :: back)) :=
    (List.pairwise_append.mp hincreasing).2.1
  intro other hother
  rw [trustedEntries, htrusted] at hbehind hother
  obtain rfl | hlater := List.mem_cons.mp hother
  · exact hid
  · exact le_trans hid (le_of_lt ((List.pairwise_cons.mp hbehind).1 other hlater))

/-! ## What the scan keeps -/

theorem onLine_empty (s : TailState) : onLine rt params s [] = (s, false) := by
  have hblank : rt.read [] = .blank := by
    rw [RowReader.read, rt.decodeUtf8_empty]
    rfl
  rw [onLine, hblank]

theorem foldLines_rows (s : TailState) (rs : List Bytes) :
    foldLines (onLine rt params) s rs = foldLines (takeEntry params) s (parsedEntries rt rs) := by
  induction rs generalizing s with
  | nil => rfl
  | cons row rs ih =>
    rw [foldLines, parsedEntries, List.filterMap_cons]
    cases hread : rt.read row with
    | blank =>
      have hline : onLine rt params s row = (s, false) := by rw [onLine, hread]
      have hentry : parsedEntry rt row = none := by rw [parsedEntry, hread]
      rw [hline, hentry]
      exact ih s
    | malformed =>
      have hline : onLine rt params s row = (s, false) := by rw [onLine, hread]
      have hentry : parsedEntry rt row = none := by rw [parsedEntry, hread]
      rw [hline, hentry]
      exact ih s
    | entry e =>
      have hline : onLine rt params s row = takeEntry params s e := by rw [onLine, hread]
      have hentry : parsedEntry rt row = some e := by rw [parsedEntry, hread]
      rw [hline, hentry]
      dsimp only
      rw [foldLines, ih]
      rfl

/-- A row without bytes parses as nothing. -/
theorem parsedEntries_lines (bytes : Bytes) :
    parsedEntries rt (lines bytes).reverse = parsedEntries rt (rows bytes).reverse := by
  have hempty : parsedEntry rt [] = none := by
    have hblank : rt.read [] = .blank := by
      rw [RowReader.read, rt.decodeUtf8_empty]
      rfl
    rw [parsedEntry, hblank]
  unfold parsedEntries lines
  rw [← List.filter_reverse]
  generalize (rows bytes).reverse = rs
  induction rs with
  | nil => rfl
  | cons row rs ih =>
    by_cases hrow : row = []
    · rw [List.filter_cons_of_neg (by simpa using hrow), List.filterMap_cons, hrow, hempty]
      exact ih
    · rw [List.filter_cons_of_pos (by simpa using hrow), List.filterMap_cons, List.filterMap_cons,
        ih]

/-- The scan of some segments is that of their rows, whatever the chunk size. -/
theorem scanSegments_eq (s : TailState) (candidates : List (Bytes × Nat)) :
    scanSegments rt params s candidates = foldLines (takeEntry params) s
      (parsedEntries rt (candidates.flatMap fun candidate =>
        (rows (candidate.1.take candidate.2)).reverse)) := by
  induction candidates generalizing s with
  | nil => rfl
  | cons candidate older ih =>
    rw [scanSegments, scanCandidate, scanJsonlFileBackward_eq onLine_empty, foldLines_rows,
      parsedEntries_lines, List.flatMap_cons]
    have happend : ∀ xs ys,
        parsedEntries rt (xs ++ ys) = parsedEntries rt xs ++ parsedEntries rt ys :=
      fun xs ys => List.filterMap_append
    rw [happend, foldLines_append, ih]

theorem parsedEntries_reverse (rs : List Bytes) :
    parsedEntries rt rs.reverse = (parsedEntries rt rs).reverse := by
  rw [parsedEntries, parsedEntries, List.filterMap_reverse]

theorem flatMap_wholeSegments (segments : List Bytes) :
    ((wholeSegments segments).reverse.flatMap fun candidate =>
      (rows (candidate.1.take candidate.2)).reverse) = (segments.flatMap rows).reverse := by
  induction segments with
  | nil => rfl
  | cons segment segments ih =>
    rw [wholeSegments, List.map_cons, List.reverse_cons, List.flatMap_append, List.flatMap_cons,
      List.flatMap_cons, List.reverse_append, List.flatMap_nil, List.append_nil, List.take_length,
      ← ih, wholeSegments]

/-- What the scan from a place in the newest segment on keeps. -/
theorem entries_scanSegments {segment : Bytes} {cursorOffset : Nat} {older : List Bytes} :
    (resultOf (scanSegments rt params scanStart
        ((segment, cursorOffset) :: (wholeSegments older).reverse))).entries
      = keptBefore params (parsedEntries rt
          (older.flatMap rows ++ rows (segment.take cursorOffset))) := by
  rw [keptBefore, ← parsedEntries_reverse, List.reverse_append, scanSegments_eq, List.flatMap_cons,
    flatMap_wholeSegments]
  rfl

theorem entries_scanWhole (segments : List Bytes) :
    (resultOf (scanSegments rt params scanStart (wholeSegments segments).reverse)).entries
      = keptBefore params (parsedEntries rt (segments.flatMap rows)) := by
  rw [keptBefore, ← parsedEntries_reverse, scanSegments_eq, flatMap_wholeSegments]
  rfl

/-! ## What the search skips -/

/-- The row before one that starts at an offset, over the end of the segment before. -/
def precedingRow (segment : Bytes) (previous : Option Bytes) (startOffset : Nat) : Option Bytes :=
  if 0 < startOffset then (rows (segment.take startOffset)).getLast?
  else previous.bind fun p => (rows p).getLast?

def sampleAt (rt : RowReader) (params : SeekParams) (segment : Bytes) (previous : Option Bytes)
    (offset : Nat) : Option ParsedSeekRow :=
  (rowAtOrAfter segment offset).bind fun row =>
    (trustedEntry rt params (precedingRow segment previous row.startOffset) row.line).map
      fun entry => { entry, startOffset := row.startOffset, endOffset := row.endOffset }

/-- The exact reader never refuses, and samples the trusted rows. -/
theorem readSeekEntry_exact (segment : Bytes) (previous : Option Bytes) (offset : Nat) :
    readSeekEntry rt params exactReader segment previous offset
      = .ok (sampleAt rt params segment previous offset) := by
  have hline : exactReader.lineAtOrAfter segment offset = .ok (rowAtOrAfter segment offset) := rfl
  unfold readSeekEntry sampleAt
  rw [hline]
  cases rowAtOrAfter segment offset with
  | none => rfl
  | some row =>
    simp only [bind, Except.bind, Option.bind_some, trustedEntry]
    cases rt.read row.line with
    | blank => rfl
    | malformed => rfl
    | entry e =>
      cases params.trustSeekEntry with
      | none => rfl
      | some trustSeekEntry =>
        have hlast : ∀ p, exactReader.lineBefore p p.length = .ok (rows p).getLast? := by
          intro p
          show Except.ok (rows (p.take p.length)).getLast? = _
          rw [List.take_length]
        by_cases hpos : 0 < row.startOffset
        · have hbefore : exactReader.lineBefore segment row.startOffset =
              .ok (rows (segment.take row.startOffset)).getLast? := rfl
          simp only [hpos, if_true, precedingRow, hbefore]
          split <;> rfl
        · cases previous with
          | none =>
            simp only [hpos, if_false, precedingRow, Option.bind_none]
            split <;> rfl
          | some p =>
            simp only [hpos, if_false, precedingRow, Option.bind_some, hlast]
            split <;> rfl

/-- A sampled row is a trusted row of its segment, and the rows before it end where it starts. -/
theorem sampleAt_spec {segment : Bytes} {previous : Option Bytes} {offset : Nat}
    {sampled : ParsedSeekRow} (h : sampleAt rt params segment previous offset = some sampled) :
    ∃ row back, rows segment = rows (segment.take sampled.startOffset) ++ row :: back ∧
      (offset = 0 → sampled.startOffset = 0) ∧
      trustedEntry rt params (precedingRow segment previous sampled.startOffset) row
        = some sampled.entry := by
  rw [sampleAt, Option.bind_eq_some_iff] at h
  obtain ⟨row, hfound, h⟩ := h
  obtain ⟨entry, htrusted, rfl⟩ := Option.map_eq_some_iff.mp h
  obtain ⟨hrows, -, -, -, -, hzero⟩ := rowAtOrAfter_spec hfound
  exact ⟨row.line, _, hrows, hzero, htrusted⟩

section Loops

variable (sample : Nat → Option ParsedSeekRow)

theorem seekLow_total (low high : Nat) :
    ∃ found, seekLow params (fun offset => .ok (sample offset)) low high = .ok found := by
  induction hleft : high - low using Nat.strong_induction_on generalizing low high with
  | _ n ih =>
    rw [seekLow]
    split
    · simp only [bind, Except.bind]
      split
      · exact ih _ (by omega) _ _ rfl
      · split
        · exact ih _ (by omega) _ _ rfl
        · exact ih _ (by omega) _ _ rfl
    · exact ⟨low, rfl⟩

/-- The linear search ends at the end of the file, or at a sampled row that is not below the id,
wherever it starts: what the search by halves before it found is of no consequence. -/
theorem seekFrom_spec (fileSize offset : Nat) :
    ∃ cursor, seekFrom params (fun offset => .ok (sample offset)) fileSize offset = .ok cursor ∧
      ∀ c, cursor = some c → c = fileSize ∨ ∃ offset sampled, sample offset = some sampled ∧
        c = sampled.startOffset ∧ (params.beforeId : Rat) ≤ sampled.entry.id := by
  induction hleft : fileSize - offset using Nat.strong_induction_on generalizing offset with
  | _ n ih =>
    rw [seekFrom]
    split
    · simp only [bind, Except.bind]
      split
      · exact ⟨none, rfl, fun _ h => by cases h⟩
      · rename_i row hrow
        split
        · rename_i habove
          refine ⟨some row.startOffset, rfl, fun c hc => ?_⟩
          obtain rfl := Option.some.inj hc
          exact Or.inr ⟨offset, row, hrow, rfl, habove⟩
        · split
          · exact ⟨none, rfl, fun _ h => by cases h⟩
          · exact ih _ (by omega) _ rfl
    · refine ⟨some fileSize, rfl, fun c hc => ?_⟩
      obtain rfl := Option.some.inj hc
      exact Or.inl rfl

/-- The search over the segments is the library's bisection. -/
theorem locateSegment_eq (probe : Nat → Option Bool) {fuel low high : Nat}
    (candidateIndex : Option Nat) (hfuel : high - low ≤ fuel) :
    locateSegment (fun index => .ok (probe index)) low high candidateIndex
      = .ok (bisectLoop probe fuel low high candidateIndex) := by
  induction fuel generalizing low high candidateIndex with
  | zero =>
    rw [locateSegment, dif_neg (by omega)]
    rfl
  | succ fuel ih =>
    rw [locateSegment, bisectLoop]
    split
    · simp only [bind, Except.bind]
      cases probe (low + (high - 1 - low) / 2) with
      | none => rfl
      | some below =>
        cases below with
        | true => exact ih _ (by omega)
        | false => exact ih _ (by omega)
    · rfl

end Loops

section Segments

variable {segments : List Bytes}

/-- The row before a segment is the last row of the segments before it. -/
theorem previousSegment_last (h : ∀ segment ∈ segments, segment ≠ []) {index : Nat}
    (hindex : index ≤ segments.length) :
    ((previousSegment segments index).bind fun p => (rows p).getLast?)
      = ((segments.take index).flatMap rows).getLast? := by
  cases index with
  | zero => rfl
  | succ index =>
    have hget : segments[index]? = some segments[index] := List.getElem?_eq_getElem (by omega)
    have hne := rows_ne_nil (h _ (List.mem_of_getElem? hget))
    rw [previousSegment, if_pos (Nat.succ_pos index), Nat.add_sub_cancel, hget,
      List.take_add_one, hget, List.flatMap_append]
    show (rows segments[index]).getLast? = (_ ++ [segments[index]].flatMap rows).getLast?
    rw [List.flatMap_cons, List.flatMap_nil, List.append_nil, List.getLast?_append_of_ne_nil _ hne]

/-- The row before a sampled row, in the whole file. -/
theorem precedingRow_eq (h : ∀ segment ∈ segments, segment ≠ []) {index : Nat}
    (hindex : index < segments.length) (startOffset : Nat) :
    precedingRow (segments.getD index []) (previousSegment segments index) startOffset
      = ((segments.take index).flatMap rows
          ++ rows ((segments.getD index []).take startOffset)).getLast? := by
  have hget : segments.getD index [] = segments[index] := by
    rw [List.getD_eq_getElem?_getD, List.getElem?_eq_getElem hindex]
    rfl
  rw [precedingRow]
  split
  · rename_i hpos
    have hne : rows ((segments.getD index []).take startOffset) ≠ [] := by
      refine rows_ne_nil ?_
      refine List.ne_nil_of_length_pos ?_
      have hlength := List.length_pos_of_ne_nil (h _ (List.getElem_mem hindex))
      rw [List.length_take, hget]
      omega
    rw [List.getLast?_append_of_ne_nil _ hne]
  · rename_i hzero
    obtain rfl : startOffset = 0 := by omega
    rw [previousSegment_last h (Nat.le_of_lt hindex), List.take_zero]
    show _ = (_ ++ []).getLast?
    rw [List.append_nil]

/-- The rows of a file, split at one of its segments. -/
theorem fileRows_split {index : Nat} (hindex : index < segments.length) :
    fileRows segments = (segments.take index).flatMap rows ++ (rows (segments.getD index [])
      ++ (segments.drop (index + 1)).flatMap rows) := by
  have hget : segments.getD index [] = segments[index] := by
    rw [List.getD_eq_getElem?_getD, List.getElem?_eq_getElem hindex]
    rfl
  conv_lhs => rw [fileRows, ← List.take_append_drop index segments, List.flatMap_append,
    List.drop_eq_getElem_cons hindex, List.flatMap_cons]
  rw [hget]

/-- **A sampled row that is not below the id** cuts the file: no trusted row behind the place where
it starts lies below the id. -/
theorem nothingBehind_of_sample (h : ∀ segment ∈ segments, segment ≠ [])
    (hincreasing : Increasing (trustedEntries rt params none (fileRows segments))) {index : Nat}
    (hindex : index < segments.length) {offset : Nat} {sampled : ParsedSeekRow}
    (hsampled : sampleAt rt params (segments.getD index []) (previousSegment segments index) offset
      = some sampled) (hid : (params.beforeId : Rat) ≤ sampled.entry.id) :
    ∃ back, fileRows segments = ((segments.take index).flatMap rows
        ++ rows ((segments.getD index []).take sampled.startOffset)) ++ back ∧
      NothingBehind rt params ((segments.take index).flatMap rows
        ++ rows ((segments.getD index []).take sampled.startOffset)) back := by
  obtain ⟨row, back, hrows, -, htrusted⟩ := sampleAt_spec hsampled
  rw [precedingRow_eq h hindex] at htrusted
  have hsplit : fileRows segments = ((segments.take index).flatMap rows
      ++ rows ((segments.getD index []).take sampled.startOffset))
      ++ row :: (back ++ (segments.drop (index + 1)).flatMap rows) := by
    rw [fileRows_split hindex]
    conv_lhs => rw [hrows]
    simp only [List.append_assoc, List.cons_append]
  rw [hsplit] at hincreasing
  exact ⟨_, hsplit, nothingBehind_of_trusted hincreasing htrusted hid⟩

/-- Where the scan of the newest segment starts: at its end, or at such a row. -/
theorem cursorOf_spec (index : Nat) :
    ∃ cursor, cursorOf rt params exactReader segments index = .ok cursor ∧
      (cursor = (segments.getD index []).length ∨ ∃ offset sampled,
        sampleAt rt params (segments.getD index []) (previousSegment segments index) offset
            = some sampled ∧
          cursor = sampled.startOffset ∧ (params.beforeId : Rat) ≤ sampled.entry.id) := by
  have hsample : readSeekEntry rt params exactReader (segments.getD index [])
      (previousSegment segments index) = fun offset => .ok (sampleAt rt params
        (segments.getD index []) (previousSegment segments index) offset) :=
    funext fun offset => readSeekEntry_exact _ _ offset
  unfold cursorOf
  by_cases hbig : seekFileBytes < (segments.getD index []).length
  · simp only [hbig, if_true, hsample]
    obtain ⟨low, hlow⟩ := @seekLow_total params
      (sampleAt rt params (segments.getD index []) (previousSegment segments index)) 0
      (segments.getD index []).length
    obtain ⟨cursor, hcursor, hspec⟩ := @seekFrom_spec params
      (sampleAt rt params (segments.getD index []) (previousSegment segments index))
      (segments.getD index []).length low
    rw [findCursorOffset, hlow]
    simp only [bind, Except.bind, hcursor]
    refine ⟨_, rfl, ?_⟩
    cases cursor with
    | none => exact Or.inl rfl
    | some c => exact hspec c rfl
  · simp only [hbig, if_false]
    exact ⟨_, rfl, Or.inl rfl⟩

theorem fileRows_filter (segments : List Bytes) :
    fileRows (segments.filter fun segment => 0 < segment.length) = fileRows segments := by
  induction segments with
  | nil => rfl
  | cons segment segments ih =>
    unfold fileRows at ih ⊢
    by_cases hempty : 0 < segment.length
    · rw [List.filter_cons_of_pos (by simpa using hempty), List.flatMap_cons, List.flatMap_cons, ih]
    · obtain rfl : segment = [] := List.eq_nil_of_length_eq_zero (by omega)
      rw [List.filter_cons_of_neg (by simp), ih]
      rfl

/-- The segments from the first that starts at such a row on are skipped. -/
theorem nothingBehind_segment (h : ∀ segment ∈ segments, segment ≠ [])
    (hincreasing : Increasing (trustedEntries rt params none (fileRows segments))) {k : Nat}
    (hk : k ≤ segments.length) (hend : k = segments.length ∨
      (sampleAt rt params (segments.getD k []) (previousSegment segments k) 0).map
        (fun (row : ParsedSeekRow) => decide (row.entry.id < params.beforeId)) = some false) :
    ∃ back, fileRows segments = (segments.take k).flatMap rows ++ back ∧
      NothingBehind rt params ((segments.take k).flatMap rows) back := by
  by_cases hlast : k = segments.length
  · refine ⟨[], ?_, nofun⟩
    rw [hlast, List.take_length, List.append_nil]
    rfl
  · obtain ⟨sampled, hsampled, hid⟩ := Option.map_eq_some_iff.mp (hend.resolve_left hlast)
    have habove : (params.beforeId : Rat) ≤ sampled.entry.id :=
      not_lt.mp (of_decide_eq_false hid)
    have hcut := nothingBehind_of_sample h hincreasing (by omega) hsampled habove
    obtain ⟨_, _, _, hzero, _⟩ := sampleAt_spec hsampled
    rw [hzero rfl, List.take_zero, show rows [] = [] from rfl, List.append_nil] at hcut
    exact hcut

/-- **What an exact reader returns**: what the scan keeps of the rows in front of a place behind
which no trusted row lies below the id. -/
theorem once_scans (segments : List Bytes)
    (hincreasing : Increasing (trustedEntries rt params none (fileRows segments))) :
    ∃ result, readJournalEntriesBeforeOnce rt params exactReader segments = .ok result ∧
      ∃ front back, fileRows segments = front ++ back ∧ NothingBehind rt params front back ∧
        result.entries = keptBefore params (parsedEntries rt front) := by
  have hne : ∀ segment ∈ segments.filter fun segment => 0 < segment.length, segment ≠ [] := by
    intro segment hmem hnil
    have hpos := (List.mem_filter.mp hmem).2
    rw [hnil] at hpos
    cases hpos
  rw [← fileRows_filter] at hincreasing ⊢
  unfold readJournalEntriesBeforeOnce
  dsimp only
  generalize (segments.filter fun segment => 0 < segment.length) = kept at hne hincreasing ⊢
  have hprobe : probeSegment rt params exactReader kept = fun index =>
      .ok ((sampleAt rt params (kept.getD index []) (previousSegment kept index) 0).map
        fun (row : ParsedSeekRow) => decide (row.entry.id < params.beforeId)) := by
    funext index
    rw [probeSegment, readSeekEntry_exact]
    rfl
  rw [hprobe, locateSegment_eq _ none (Nat.sub_le kept.length 0)]
  simp only [bind, Except.bind]
  cases hfound : bisectLoop (fun index =>
      (sampleAt rt params (kept.getD index []) (previousSegment kept index) 0).map
        fun (row : ParsedSeekRow) => decide (row.entry.id < params.beforeId))
      kept.length 0 kept.length none with
  | none =>
    -- an untrusted first row: every segment is scanned
    refine ⟨_, rfl, fileRows kept, [], (List.append_nil _).symm, nofun, ?_⟩
    exact entries_scanWhole kept
  | some found =>
    obtain ⟨k, hk, hbefore, hend⟩ := bisect_spec hfound
    obtain ⟨back, hsplit, hbehind⟩ := nothingBehind_segment hne hincreasing hk hend
    cases found with
    | none =>
      obtain rfl : k = 0 := hbefore
      exact ⟨_, rfl, [], back, hsplit, hbehind, rfl⟩
    | some candidateIndex =>
      obtain ⟨rfl, -⟩ := hbefore
      obtain ⟨cursor, hcursor, hplace⟩ := @cursorOf_spec rt params kept candidateIndex
      simp only [hcursor]
      obtain rfl | ⟨offset, sampled, hsampled, rfl, hid⟩ := hplace
      · have htake : (kept.take (candidateIndex + 1)).flatMap rows
            = (kept.take candidateIndex).flatMap rows
              ++ rows ((kept.getD candidateIndex []).take
                (kept.getD candidateIndex []).length) := by
          rw [List.take_length, List.take_add_one, List.flatMap_append, List.getD_eq_getElem?_getD,
            List.getElem?_eq_getElem (by omega)]
          show _ ++ [kept[candidateIndex]].flatMap rows = _
          rw [List.flatMap_cons, List.flatMap_nil, List.append_nil]
          rfl
        rw [htake] at hsplit hbehind
        exact ⟨_, rfl, _, back, hsplit, hbehind, entries_scanSegments⟩
      · obtain ⟨later, hcut, hnothing⟩ :=
          nothingBehind_of_sample hne hincreasing (by omega) hsampled hid
        exact ⟨_, rfl, _, later, hcut, hnothing, entries_scanSegments⟩

end Segments

/-! ## The readers and the scan -/

theorem keptBefore_append_of_above {front back : List JournalEntry}
    (h : ∀ e ∈ back, (params.beforeId : Rat) ≤ e.id) :
    keptBefore params (front ++ back) = keptBefore params front := by
  have hskip : ∀ (s : TailState) (es : List JournalEntry),
      (∀ e ∈ es, (params.beforeId : Rat) ≤ e.id) →
        foldLines (takeEntry params) s es = (s, false) := by
    intro s es hes
    induction es with
    | nil => rfl
    | cons e es ih =>
      have hpassed : takeEntry params s e = (s, false) := by
        rw [takeEntry, if_pos (hes e List.mem_cons_self)]
      rw [foldLines, hpassed]
      exact ih fun other hother => hes other (List.mem_cons_of_mem _ hother)
  rw [keptBefore, List.reverse_append, foldLines_append,
    hskip _ _ fun e he => h e (List.mem_reverse.mp he)]
  rfl

/-- Every row that parses may decide a search. -/
def EveryRowTrusted (rt : RowReader) (params : SeekParams) (rs : List Bytes) : Prop :=
  ∀ front row back, rs = front ++ row :: back →
    trustedEntry rt params front.getLast? row = parsedEntry rt row

theorem trustedEntries_of_everyRow {front back : List Bytes}
    (h : EveryRowTrusted rt params (front ++ back)) :
    trustedEntries rt params front.getLast? back = parsedEntries rt back := by
  induction back generalizing front with
  | nil => rfl
  | cons row back ih =>
    have hrow := h front row back rfl
    have hrest : EveryRowTrusted rt params ((front ++ [row]) ++ back) := by
      rw [List.append_assoc]
      exact h
    have hlater := ih hrest
    rw [List.getLast?_concat] at hlater
    rw [trustedEntries, hrow, hlater, parsedEntries, parsedEntries, List.filterMap_cons]
    cases parsedEntry rt row <;> rfl

/-- What a reader returns, against the scan of the whole file: the entries in front of a place
behind which no trusted row lies below the id, and the trusted entries of the whole file when every
row that parses is trusted. -/
def AgreesWithScan (rt : RowReader) (params : SeekParams) (segments : List Bytes)
    (entries : List JournalEntry) : Prop :=
  if params.beforeId = 0 ∨ params.messageLimit = 0 then entries = []
  else
    (∃ front back, fileRows segments = front ++ back ∧ NothingBehind rt params front back ∧
      entries = keptBefore params (parsedEntries rt front)) ∧
    (EveryRowTrusted rt params (fileRows segments) →
      entries = keptBefore params (trustedEntries rt params none (fileRows segments)))

theorem agreesWithScan_of_cut {segments : List Bytes} {entries : List JournalEntry}
    {front back : List Bytes} (hsplit : fileRows segments = front ++ back)
    (hbehind : NothingBehind rt params front back)
    (hentries : entries = keptBefore params (parsedEntries rt front)) :
    EveryRowTrusted rt params (fileRows segments) →
      entries = keptBefore params (trustedEntries rt params none (fileRows segments)) := by
  intro hevery
  have hall : trustedEntries rt params none (fileRows segments)
      = parsedEntries rt front ++ parsedEntries rt back := by
    have hwhole := @trustedEntries_of_everyRow rt params [] (fileRows segments) hevery
    rw [List.getLast?_nil] at hwhole
    rw [hwhole, hsplit, parsedEntries, List.filterMap_append]
    rfl
  have habove : ∀ e ∈ parsedEntries rt back, (params.beforeId : Rat) ≤ e.id := by
    rw [hsplit] at hevery
    rw [← trustedEntries_of_everyRow hevery]
    exact hbehind
  rw [hall, keptBefore_append_of_above habove, hentries]

theorem syncReader_agreeOn (segment : Bytes) : AgreeOn exactReader (syncReader params) segment :=
  exactReader_agreeOn fun _ hrow => length_le_of_mem_rows hrow

/-- **The seek readers agree with a backward scan.** With increasing ids of the trusted rows, and
whatever the other rows, the id, the limit and the chunk size are, the synchronous reader returns
what the scan keeps in front of a place behind which it could keep no trusted row; the asynchronous
one returns the same or refuses, and refuses only rows above its limit. -/
theorem seek_agrees_with_scan (rt : RowReader) (options : ReadJournalBeforeOptions)
    (segments : List Bytes)
    (hincreasing : Increasing (trustedEntries rt options.normalized none (fileRows segments))) :
    ∃ result, readJournalEntriesBefore rt options segments = .ok result ∧
      AgreesWithScan rt options.normalized segments result.entries ∧
      (∀ other, readJournalEntriesBeforeAsync rt options segments = .ok other → other = result) ∧
      ((∀ row ∈ fileRows segments, row.length ≤ maxSeekLineBytes) →
        readJournalEntriesBeforeAsync rt options segments = .ok result) := by
  by_cases hnone : options.normalized.beforeId = 0 ∨ options.normalized.messageLimit = 0
  · have hread : ∀ readerOf, readBefore rt readerOf options segments
        = .ok { entries := [], truncated := false } := by
      intro readerOf
      rw [readBefore, if_pos (by simpa using hnone)]
    refine ⟨_, hread _, ?_, ?_, fun _ => hread _⟩
    · rw [AgreesWithScan, if_pos hnone]
    · intro other hother
      exact Except.ok.inj (hother.symm.trans (hread _))
  · have hread : ∀ readerOf, readBefore rt readerOf options segments
        = readJournalEntriesBeforeOnce rt options.normalized (readerOf options.normalized)
          segments := by
      intro readerOf
      rw [readBefore, if_neg (by simpa using hnone)]
    obtain ⟨result, hexact, front, back, hsplit, hbehind, hentries⟩ :=
      @once_scans rt options.normalized segments hincreasing
    refine ⟨result, ?_, ?_, ?_, ?_⟩
    · rw [readJournalEntriesBefore, hread]
      exact readJournalEntriesBeforeOnce_agree (syncReader_agreeOn [])
        (fun segment _ => syncReader_agreeOn segment) result hexact
    · rw [AgreesWithScan, if_neg hnone]
      exact ⟨⟨front, back, hsplit, hbehind, hentries⟩,
        agreesWithScan_of_cut hsplit hbehind hentries⟩
    · intro other hother
      rw [readJournalEntriesBeforeAsync, hread] at hother
      have hsame := readJournalEntriesBeforeOnce_agree (rowReader_agreeOn _ [])
        (fun segment _ => rowReader_agreeOn _ segment) other hother
      exact Except.ok.inj (hsame.symm.trans hexact)
    · intro hshort
      have hagree : ∀ segment ∈ segments, AgreeOn exactReader (asyncReader options.normalized)
          segment := by
        intro segment hmem
        refine exactReader_agreeOn fun row hrow => hshort row ?_
        exact List.mem_flatMap.mpr ⟨segment, hmem, hrow⟩
      rw [readJournalEntriesBeforeAsync, hread]
      exact readJournalEntriesBeforeOnce_agree (exactReader_agreeOn nofun) hagree result hexact

/-- A row of ASCII characters. -/
def rowText : String :=
  "\x7b\"id\":1,\"type\":\"message\",\"channelId\":\"c\",\"role\":\"user\"," ++
    "\"content\":\"hi\",\"timestamp\":0\x7d"

def rowEntry : JournalEntry :=
  { id := 1, channelId := "c", timestamp := 0, body := .message .user "hi" .undefined }

/-- Reads that row, and ASCII characters. -/
def oneRowReader : RowReader where
  decodeUtf8 bytes := String.ofList (bytes.map fun b => Char.ofNat b.toNat)
  parseJournalLine line := if line = rowText then some rowEntry else none
  decodeUtf8_empty := rfl

def oneRowFile : List Bytes := [rowText.toList.map fun c => UInt8.ofNat c.toNat]

/-- A window of one message before id 5, under a check that trusts what it is given. -/
def beforeFive (trusts : Bool) : ReadJournalBeforeOptions where
  beforeId := .finite 5
  messageLimit := .finite 1
  includeBoundaryEntry := none
  scanChunkBytes := none
  trustSeekEntry := some fun _ _ => trusts
  previousFileHmac := none

theorem oneRowFile_ids (trusts : Bool) :
    (readJournalEntriesBefore oneRowReader (beforeFive trusts) oneRowFile).toOption.map
      (fun result => result.entries.map (·.id)) = some [1] := by
  cases trusts <;> decide +kernel

theorem increasing_of_ids {entries : List JournalEntry}
    (h : (entries.map (·.id)).Pairwise fun a b => a < b) : Increasing entries :=
  List.pairwise_map.mp h

theorem seek_agrees_with_scan_oneRow : ∃ result,
    readJournalEntriesBefore oneRowReader (beforeFive true) oneRowFile = .ok result ∧
      result.entries.map (·.id) = [1] ∧
      AgreesWithScan oneRowReader (beforeFive true).normalized oneRowFile result.entries := by
  obtain ⟨result, hread, hagrees, -, -⟩ := seek_agrees_with_scan oneRowReader (beforeFive true)
    oneRowFile (increasing_of_ids (by decide +kernel))
  have hids := oneRowFile_ids true
  rw [hread] at hids
  exact ⟨result, hread, Option.some.inj hids, hagrees⟩

/-- A row whose signature does not verify is returned all the same: trust decides what the search
may skip, not what the scan keeps. -/
theorem untrusted_row_returned : ¬∀ (rt : RowReader) (options : ReadJournalBeforeOptions)
    (segments : List Bytes),
    Increasing (trustedEntries rt options.normalized none (fileRows segments)) →
      ∃ result, readJournalEntriesBefore rt options segments = .ok result ∧
        result.entries = keptBefore options.normalized
          (trustedEntries rt options.normalized none (fileRows segments)) := by
  intro h
  have htrusted : (trustedEntries oneRowReader (beforeFive false).normalized none
      (fileRows oneRowFile)).map (·.id) = [] := by decide +kernel
  have hnone := List.map_eq_nil_iff.mp htrusted
  obtain ⟨result, hread, hentries⟩ := h oneRowReader (beforeFive false) oneRowFile
    (by rw [hnone]; exact List.Pairwise.nil)
  rw [hnone] at hentries
  have hids := oneRowFile_ids false
  rw [hread] at hids
  have hone : result.entries.map (·.id) = [1] := Option.some.inj hids
  rw [hentries] at hone
  cases hone

end Psfn.JournalSeek
