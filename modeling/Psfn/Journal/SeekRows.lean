import Psfn.Snapshot.LineBefore

/-!
# The rows that a seek reads

The primitives of `persistence/jsonl-segments.ts` on the bytes of one file: the row at or after an
offset, the row before an offset, and the backward scan, each reading a chunk at a time.

* `readRowAtOrAfter_eq` — whatever the chunk size, the row that is read is the first that starts at
  or after the offset; only a row longer than the limit is refused;
* `readRowBefore_eq` — the row before an offset is the last of the rows before it;
* `scanJsonlFileBackward_eq` — the scan hands over the lines before its end offset, the last one
  first.
-/

namespace Psfn.JournalSeek

open Psfn.Snapshot (Bytes newline rows ReadError JsonlLineAtOffset chunkAt scanBack readLineBefore
  afterNewline withoutTrailing)

/-! ## Lines -/

/-- The bytes up to the next newline. -/
def lineOf (bytes : Bytes) : Bytes := bytes.takeWhile (· ≠ newline)

/-- The rows that are not empty. -/
def lines (bytes : Bytes) : List Bytes := (rows bytes).filter (· ≠ [])

variable {bytes : Bytes}

theorem rows_ne_nil (h : bytes ≠ []) : rows bytes ≠ [] := by
  cases bytes with
  | nil => exact absurd rfl h
  | cons b rest =>
    rw [rows]
    split
    · exact List.cons_ne_nil _ _
    · split <;> exact List.cons_ne_nil _ _

/-- A file is its first line and the rows after it. -/
theorem rows_eq_cons (h : bytes ≠ []) :
    rows bytes = lineOf bytes :: rows (bytes.drop ((lineOf bytes).length + 1)) := by
  induction bytes with
  | nil => exact absurd rfl h
  | cons b rest ih =>
    by_cases hb : b = newline
    · subst hb
      simp [rows, lineOf]
    · have hline : lineOf (b :: rest) = b :: lineOf rest := by
        rw [lineOf, List.takeWhile_cons_of_pos (by simpa using hb)]
        rfl
      rw [rows, if_neg hb, hline, List.length_cons, List.drop_succ_cons]
      cases rest with
      | nil => rfl
      | cons c rest =>
        rw [ih (List.cons_ne_nil _ _)]

variable {limit : Nat}

/-- Without its first byte a file has no longer rows. -/
theorem length_le_of_cons {b : UInt8} {rest : Bytes}
    (h : ∀ row ∈ rows (b :: rest), row.length ≤ limit) :
    ∀ row ∈ rows rest, row.length ≤ limit := by
  intro row hrow
  rw [rows] at h
  split at h
  · exact h row (List.mem_cons_of_mem _ hrow)
  · split at h
    · rename_i hnil
      rw [hnil] at hrow
      cases hrow
    · rename_i first more hmore
      rw [hmore] at hrow
      obtain rfl | htail := List.mem_cons.mp hrow
      · have hlong := h _ List.mem_cons_self
        rw [List.length_cons] at hlong
        omega
      · exact h row (List.mem_cons_of_mem _ htail)

/-- A part of a row is no longer than the row. -/
theorem length_lineOf_drop_le (h : ∀ row ∈ rows bytes, row.length ≤ limit) (k : Nat) :
    (lineOf (bytes.drop k)).length ≤ limit := by
  induction bytes generalizing k with
  | nil => simp [lineOf]
  | cons b rest ih =>
    cases k with
    | zero =>
      rw [List.drop_zero]
      refine h _ ?_
      rw [rows_eq_cons (List.cons_ne_nil b rest)]
      exact List.mem_cons_self
    | succ k =>
      rw [List.drop_succ_cons]
      exact ih (length_le_of_cons h) k

variable {line : Bytes}

theorem lines_of_notMem (h : newline ∉ line) :
    lines line = if line = [] then [] else [line] := by
  split
  · rename_i hnil
    rw [hnil]
    rfl
  · rename_i hne
    rw [lines, Snapshot.rows_tail h hne, List.filter_cons_of_pos (by simpa using hne),
      List.filter_nil]

theorem lines_concat_newline (bytes : Bytes) : lines (bytes ++ [newline]) = lines bytes := by
  obtain ⟨before, hbytes, hbefore⟩ := Snapshot.eq_append_afterNewline bytes
  have hline := Snapshot.newline_notMem_afterNewline bytes
  generalize afterNewline bytes = line at hbytes hline
  subst hbytes
  have hended : rows (line ++ [newline]) = [line] := Snapshot.rows_line hline []
  rw [lines, lines, List.append_assoc, Snapshot.rows_append_of_line hbefore,
    Snapshot.rows_append_of_line hbefore, List.filter_append, List.filter_append, hended]
  congr 1
  show _ = lines line
  rw [lines_of_notMem hline]
  split
  · rename_i hnil
    rw [hnil]
    rfl
  · rename_i hne
    rw [List.filter_cons_of_pos (by simpa using hne), List.filter_nil]

/-- A newline separates the lines before it from those after it. -/
theorem lines_append_newline (front rest : Bytes) :
    lines (front ++ newline :: rest) = lines front ++ lines rest := by
  have hrows : lines (front ++ newline :: rest) = lines (front ++ [newline]) ++ lines rest := by
    rw [lines, Snapshot.rows_append, List.filter_append]
    rfl
  rw [hrows, lines_concat_newline]

/-! ## The row at or after an offset -/

/-- `chunkBytes` and `maxLineBytes`. A reader without a limit has one that no row of its file
reaches. -/
structure LineScanOptions where
  chunkBytes   : Nat
  maxLineBytes : Nat

/-- `Math.min(chunkBytes, maxLineBytes)`, which is positive. -/
def LineScanOptions.boundedChunkBytes (options : LineScanOptions) : Nat :=
  max 1 (min options.chunkBytes options.maxLineBytes)

variable {position : Nat}

section AtOrAfter

variable (options : LineScanOptions) (file : Bytes)

/-- What one read at `position` returns. -/
def readAt (position : Nat) : Bytes :=
  chunkAt file position (min options.boundedChunkBytes (file.length - position))

theorem length_readAt (position : Nat) : (readAt options file position).length
    = min options.boundedChunkBytes (file.length - position) := by
  rw [readAt, chunkAt, List.length_take, List.length_drop]
  omega

/-- Every read inside the file moves on. -/
theorem length_readAt_pos (h : position < file.length) :
    0 < (readAt options file position).length := by
  rw [length_readAt, LineScanOptions.boundedChunkBytes]
  omega

/-- The loop that passes over the rest of a row. -/
def skipPartialRow (startOffset skippedPartialRowBytes : Nat) : Except ReadError Nat :=
  if _h : startOffset < file.length then
    let buffer := readAt options file startOffset
    match buffer.findIdx? (· = newline) with
    | some newlineAt =>
      if options.maxLineBytes < skippedPartialRowBytes + newlineAt then .error .eoverflow
      else .ok (startOffset + newlineAt + 1)
    | none =>
      if options.maxLineBytes < skippedPartialRowBytes + buffer.length then .error .eoverflow
      else skipPartialRow (startOffset + buffer.length) (skippedPartialRowBytes + buffer.length)
  else .ok startOffset
termination_by file.length - startOffset
decreasing_by
  have hpos := length_readAt_pos options file _h
  omega

/-- The loop that reads a row; `line` is what is retained of it. -/
def readRowFrom (startOffset position : Nat) (line : Bytes) :
    Except ReadError (Option JsonlLineAtOffset) :=
  if _h : position < file.length then
    let buffer := readAt options file position
    match buffer.findIdx? (· = newline) with
    | some newlineAt =>
      if options.maxLineBytes < line.length + newlineAt then .error .eoverflow
      else .ok (some { line := line ++ buffer.take newlineAt, startOffset
                       endOffset := position + newlineAt + 1 })
    | none =>
      if options.maxLineBytes < line.length + buffer.length then .error .eoverflow
      else readRowFrom startOffset (position + buffer.length) (line ++ buffer)
  else if position = startOffset then .ok none
  else .ok (some { line, startOffset, endOffset := file.length })
termination_by file.length - position
decreasing_by
  have hpos := length_readAt_pos options file _h
  omega

/-- The offset is inside a row, and not where one starts. -/
def insideRow (startOffset : Nat) : Bool :=
  0 < startOffset && startOffset < file.length && file[startOffset - 1]? ≠ some newline

def readRowAtOrAfter (offset : Nat) : Except ReadError (Option JsonlLineAtOffset) := do
  let startOffset := min file.length offset
  let startOffset ←
    if insideRow file startOffset then skipPartialRow options file startOffset 0
    else .ok startOffset
  if file.length ≤ startOffset then .ok none
  else readRowFrom options file startOffset startOffset []

end AtOrAfter

/-- The row that starts at an offset. -/
def rowAt (file : Bytes) (startOffset : Nat) : JsonlLineAtOffset :=
  { line := lineOf (file.drop startOffset), startOffset
    endOffset := min file.length (startOffset + (lineOf (file.drop startOffset)).length + 1) }

/-- Where the next row starts. -/
def nextStart (file : Bytes) (offset : Nat) : Nat :=
  if insideRow file offset then
    min file.length (offset + (lineOf (file.drop offset)).length + 1)
  else offset

/-- The first row that starts at or after an offset. -/
def rowAtOrAfter (file : Bytes) (offset : Nat) : Option JsonlLineAtOffset :=
  let startOffset := nextStart file (min file.length offset)
  if file.length ≤ startOffset then none else some (rowAt file startOffset)

variable {file : Bytes}

theorem readAt_eq (options : LineScanOptions) (h : position < file.length) :
    ∃ rest, file.drop position = readAt options file position ++ rest ∧
      rest = file.drop (position + (readAt options file position).length) ∧
      0 < (readAt options file position).length ∧
      position + (readAt options file position).length ≤ file.length := by
  have hlength := length_readAt options file position
  have hpos := length_readAt_pos options file h
  refine ⟨file.drop (position + (readAt options file position).length), ?_, rfl, hpos, by omega⟩
  rw [hlength, ← List.drop_drop]
  exact (List.take_append_drop _ _).symm

/-- The first newline of a chunk ends the line. -/
theorem lineOf_of_findIdx {buffer : Bytes} (rest : Bytes) {k : Nat}
    (h : buffer.findIdx? (· = newline) = some k) :
    lineOf (buffer ++ rest) = buffer.take k ∧ k < buffer.length := by
  induction buffer generalizing k with
  | nil => cases h
  | cons b buffer ih =>
    rw [List.findIdx?_cons] at h
    by_cases hb : b = newline
    · simp only [hb, decide_true, if_true] at h
      obtain rfl := Option.some.inj h
      refine ⟨?_, Nat.succ_pos _⟩
      rw [List.cons_append, hb]
      rfl
    · simp only [hb, decide_false, Bool.false_eq_true, if_false] at h
      cases hrest : buffer.findIdx? (· = newline) with
      | none =>
        rw [hrest] at h
        cases h
      | some j =>
        rw [hrest] at h
        obtain rfl := Option.some.inj h
        obtain ⟨hline, hlt⟩ := ih hrest
        refine ⟨?_, Nat.succ_lt_succ hlt⟩
        rw [List.cons_append, List.take_succ_cons, ← hline]
        exact List.takeWhile_cons_of_pos (by simpa using hb)

theorem lineOf_of_findIdx_none {buffer : Bytes} (rest : Bytes)
    (h : buffer.findIdx? (· = newline) = none) :
    lineOf (buffer ++ rest) = buffer ++ lineOf rest := by
  rw [List.findIdx?_eq_none_iff] at h
  exact List.takeWhile_append_of_pos fun b hb => by simpa using h b hb

variable {result : Option JsonlLineAtOffset} {offset : Nat}

section Reads

variable {options : LineScanOptions} {file : Bytes}

variable {startOffset : Nat}

theorem skipPartialRow_eq {skipped next : Nat} (hlt : startOffset < file.length)
    (h : skipPartialRow options file startOffset skipped = .ok next) :
    next = min file.length (startOffset + (lineOf (file.drop startOffset)).length + 1) := by
  induction hleft : file.length - startOffset using Nat.strong_induction_on
    generalizing startOffset skipped with
  | _ n ih =>
    rw [skipPartialRow, dif_pos hlt] at h
    obtain ⟨rest, hdrop, hrest, hpos, hle⟩ := readAt_eq options hlt
    dsimp only at h
    split at h
    · rename_i k hfound
      obtain ⟨hline, hk⟩ := lineOf_of_findIdx rest hfound
      have hlength : (lineOf (file.drop startOffset)).length = k := by
        rw [hdrop, hline, List.length_take]
        omega
      split at h
      · cases h
      · obtain rfl := Except.ok.inj h
        omega
    · rename_i hnone
      have hline := lineOf_of_findIdx_none rest hnone
      have hlength : (lineOf (file.drop startOffset)).length
          = (readAt options file startOffset).length + (lineOf rest).length := by
        rw [hdrop, hline, List.length_append]
      split at h
      · cases h
      · by_cases hmore : startOffset + (readAt options file startOffset).length < file.length
        · have hnext := ih _ (by omega) hmore h rfl
          rw [← hrest] at hnext
          omega
        · rw [skipPartialRow, dif_neg hmore] at h
          obtain rfl := Except.ok.inj h
          omega

theorem readRowFrom_eq (hlt : position < file.length) (hstart : startOffset ≤ position)
    (h : readRowFrom options file startOffset position line = .ok result) :
    result = some { line := line ++ lineOf (file.drop position), startOffset
                    endOffset := min file.length
                      (position + (lineOf (file.drop position)).length + 1) } := by
  induction hleft : file.length - position using Nat.strong_induction_on
    generalizing position line with
  | _ n ih =>
    rw [readRowFrom, dif_pos hlt] at h
    obtain ⟨rest, hdrop, hrest, hpos, hle⟩ := readAt_eq options hlt
    dsimp only at h
    split at h
    · rename_i k hfound
      obtain ⟨hline, hk⟩ := lineOf_of_findIdx rest hfound
      split at h
      · cases h
      · obtain rfl := Except.ok.inj h
        rw [hdrop, hline, List.length_take, Nat.min_eq_left (Nat.le_of_lt hk),
          Nat.min_eq_right (by omega)]
    · rename_i hnone
      have hline := lineOf_of_findIdx_none rest hnone
      split at h
      · cases h
      · rw [hdrop, hline, List.length_append, ← List.append_assoc]
        by_cases hmore : position + (readAt options file position).length < file.length
        · rw [ih _ (by omega) hmore (by omega) h rfl, ← hrest, Nat.add_assoc position]
        · have hnil : rest = [] := by
            rw [hrest, List.drop_eq_nil_of_le (Nat.le_of_not_lt hmore)]
          rw [readRowFrom, dif_neg hmore, if_neg (by omega)] at h
          obtain rfl := Except.ok.inj h
          rw [hnil, show lineOf [] = [] from rfl, List.append_nil, List.length_nil,
            Nat.min_eq_left (by omega)]

/-- **Whatever the chunk size**, a read that is not refused returns the first row that starts at or
after the offset. -/
theorem readRowAtOrAfter_eq (h : readRowAtOrAfter options file offset = .ok result) :
    result = rowAtOrAfter file offset := by
  unfold readRowAtOrAfter at h
  dsimp only at h
  rw [rowAtOrAfter, nextStart]
  generalize min file.length offset = start at h
  by_cases hinside : insideRow file start = true
  · rw [if_pos hinside] at h ⊢
    have hlt : start < file.length := by
      simp only [insideRow, Bool.and_eq_true, decide_eq_true_eq] at hinside
      exact hinside.1.2
    cases hskip : skipPartialRow options file start 0 with
    | error failure =>
      rw [hskip] at h
      cases h
    | ok next =>
      rw [hskip] at h
      have hnext := skipPartialRow_eq hlt hskip
      rw [← hnext]
      change (if file.length ≤ next then Except.ok none
        else readRowFrom options file next next []) = _ at h
      split at h
      · rename_i hend
        rw [if_pos hend]
        exact (Except.ok.inj h).symm
      · rename_i hmore
        rw [if_neg hmore, readRowFrom_eq (Nat.lt_of_not_le hmore) (Nat.le_refl _) h]
        rfl
  · rw [if_neg hinside] at h ⊢
    change (if file.length ≤ start then Except.ok none
      else readRowFrom options file start start []) = _ at h
    split at h
    · rename_i hend
      rw [if_pos hend]
      exact (Except.ok.inj h).symm
    · rename_i hmore
      rw [if_neg hmore, readRowFrom_eq (Nat.lt_of_not_le hmore) (Nat.le_refl _) h]
      rfl

/-- A row within the limit is never refused. -/
theorem skipPartialRow_total {skipped : Nat} (hlt : startOffset < file.length)
    (h : skipped + (lineOf (file.drop startOffset)).length ≤ options.maxLineBytes) :
    ∃ next, skipPartialRow options file startOffset skipped = .ok next := by
  induction hleft : file.length - startOffset using Nat.strong_induction_on
    generalizing startOffset skipped with
  | _ n ih =>
    rw [skipPartialRow, dif_pos hlt]
    obtain ⟨rest, hdrop, hrest, hpos, hle⟩ := readAt_eq options hlt
    dsimp only
    split
    · rename_i k hfound
      obtain ⟨hline, hk⟩ := lineOf_of_findIdx rest hfound
      have hlength : (lineOf (file.drop startOffset)).length = k := by
        rw [hdrop, hline, List.length_take]
        omega
      rw [if_neg (by omega)]
      exact ⟨_, rfl⟩
    · rename_i hnone
      have hline := lineOf_of_findIdx_none rest hnone
      have hlength : (lineOf (file.drop startOffset)).length
          = (readAt options file startOffset).length + (lineOf rest).length := by
        rw [hdrop, hline, List.length_append]
      rw [if_neg (by omega)]
      by_cases hmore : startOffset + (readAt options file startOffset).length < file.length
      · rw [hrest] at hlength
        exact ih _ (by omega) hmore (by omega) rfl
      · rw [skipPartialRow, dif_neg hmore]
        exact ⟨_, rfl⟩

theorem readRowFrom_total (hlt : position < file.length)
    (h : line.length + (lineOf (file.drop position)).length ≤ options.maxLineBytes) :
    ∃ result, readRowFrom options file startOffset position line = .ok result := by
  induction hleft : file.length - position using Nat.strong_induction_on
    generalizing position line with
  | _ n ih =>
    rw [readRowFrom, dif_pos hlt]
    obtain ⟨rest, hdrop, hrest, hpos, hle⟩ := readAt_eq options hlt
    dsimp only
    split
    · rename_i k hfound
      obtain ⟨hline, hk⟩ := lineOf_of_findIdx rest hfound
      have hlength : (lineOf (file.drop position)).length = k := by
        rw [hdrop, hline, List.length_take]
        omega
      rw [if_neg (by omega)]
      exact ⟨_, rfl⟩
    · rename_i hnone
      have hline := lineOf_of_findIdx_none rest hnone
      have hlength : (lineOf (file.drop position)).length
          = (readAt options file position).length + (lineOf rest).length := by
        rw [hdrop, hline, List.length_append]
      rw [if_neg (by omega)]
      by_cases hmore : position + (readAt options file position).length < file.length
      · rw [hrest] at hlength
        refine ih _ (by omega) hmore ?_ rfl
        rw [List.length_append]
        omega
      · rw [readRowFrom, dif_neg hmore]
        split <;> exact ⟨_, rfl⟩

theorem readRowAtOrAfter_total (h : ∀ row ∈ rows file, row.length ≤ options.maxLineBytes)
    (offset : Nat) : ∃ result, readRowAtOrAfter options file offset = .ok result := by
  have hread : ∀ start, ∃ result, (if file.length ≤ start then .ok none
      else readRowFrom options file start start []) = (.ok result : Except ReadError _) := by
    intro start
    split
    · exact ⟨none, rfl⟩
    · rename_i hmore
      refine readRowFrom_total (Nat.lt_of_not_le hmore) ?_
      rw [List.length_nil, Nat.zero_add]
      exact length_lineOf_drop_le h start
  unfold readRowAtOrAfter
  dsimp only
  split
  · rename_i hinside
    have hlt : min file.length offset < file.length := by
      simp only [insideRow, Bool.and_eq_true, decide_eq_true_eq] at hinside
      exact hinside.1.2
    have hlimit : 0 + (lineOf (file.drop (min file.length offset))).length
        ≤ options.maxLineBytes := by
      rw [Nat.zero_add]
      exact length_lineOf_drop_le h _
    obtain ⟨next, hnext⟩ := skipPartialRow_total hlt hlimit
    rw [hnext]
    exact hread next
  · exact hread _

end Reads

/-! ## The row before an offset -/

theorem boundedChunkBytes_pos (options : LineScanOptions) : 0 < options.boundedChunkBytes :=
  Nat.lt_of_lt_of_le Nat.zero_lt_one (Nat.le_max_left _ _)

def readRowBefore (options : LineScanOptions) (file : Bytes) (exclusiveOffset : Nat) :
    Except ReadError (Option JsonlLineAtOffset) :=
  let position := min file.length exclusiveOffset
  if position = 0 then .ok none
  else (scanBack options.boundedChunkBytes options.maxLineBytes exclusiveOffset
    (boundedChunkBytes_pos options) (fun _ => file) 0 position position false []).map some

variable {chunkBytes : Nat}

section Before

variable {options : LineScanOptions} {file : Bytes}

/-- **The row before an offset** is the last of the rows before it. -/
theorem readRowBefore_eq (h : readRowBefore options file offset = .ok result) :
    result.map (·.line) = (rows (file.take offset)).getLast? := by
  have hposition : min file.length offset = (file.take offset).length := by
    rw [List.length_take, Nat.min_comm]
  unfold readRowBefore at h
  rw [hposition] at h
  dsimp only at h
  split at h
  · rename_i hzero
    obtain rfl := Except.ok.inj h
    rw [List.eq_nil_of_length_eq_zero hzero]
    rfl
  · rename_i hpos
    have hne : file.take offset ≠ [] := fun hnil => hpos (by rw [hnil]; rfl)
    cases hscan : scanBack options.boundedChunkBytes options.maxLineBytes offset
        (boundedChunkBytes_pos options) (fun _ => file) 0 (file.take offset).length
        (file.take offset).length false [] with
    | error failure =>
      rw [hscan] at h
      cases h
    | ok row =>
      rw [hscan] at h
      obtain rfl := Except.ok.inj h
      have hfront : ∀ i : Nat, ((fun _ => file) i).take (file.take offset).length
          = file.take offset := by
        intro _
        rw [List.length_take, ← List.take_eq_take_min]
      obtain ⟨hline, hstart⟩ := Snapshot.scanBack_spec _ hfront hne hscan
      rw [(Snapshot.rows_lastLine hne hstart).2, List.getLast?_concat, ← hline]
      rfl

theorem length_afterNewline_slice_le (front slice : Bytes) :
    (afterNewline slice).length ≤ (afterNewline (front ++ slice)).length := by
  rw [Snapshot.afterNewline_append]
  split
  · rename_i hfull
    rw [List.length_append, hfull]
    omega
  · exact Nat.le_refl _

/-- After the first chunk, what is retained and what is still to come stays within the limit. -/
theorem scanBack_ignored_total {maxLineBytes exclusiveOffset : Nat} (hchunk : 0 < chunkBytes)
    {i rowEnd : Nat} (hposition : position ≤ file.length)
    (h : (afterNewline (file.take position)).length + line.length ≤ maxLineBytes) :
    ∃ result, scanBack chunkBytes maxLineBytes exclusiveOffset hchunk (fun _ => file) i position
      rowEnd true line = .ok result := by
  induction position using Nat.strong_induction_on generalizing i rowEnd line with
  | _ position ih =>
    rw [scanBack]
    split
    · exact ⟨_, rfl⟩
    · rename_i hpos
      have hk : min chunkBytes position ≤ position := Nat.min_le_right _ _
      have hkpos : 0 < min chunkBytes position := Nat.lt_min.2 ⟨hchunk, Nat.pos_of_ne_zero hpos⟩
      generalize min chunkBytes position = k at hk hkpos ⊢
      have hbuffer := @Snapshot.chunkAt_eq file _ _ _ hk rfl
      have hsplit : file.take position = file.take (position - k)
          ++ (file.take position).drop (position - k) := by
        conv_lhs => rw [← List.take_append_drop (position - k) (file.take position)]
        rw [List.take_take, Nat.min_eq_left (Nat.sub_le _ _)]
      have hlength : ((file.take position).drop (position - k)).length = k := by
        rw [List.length_drop, List.length_take]
        omega
      dsimp only
      rw [hbuffer]
      generalize (file.take position).drop (position - k) = slice at hsplit hlength ⊢
      rw [if_neg (by omega)]
      simp only [Bool.not_true, Bool.false_and, Bool.false_eq_true, if_false]
      have hslice := length_afterNewline_slice_le (file.take (position - k)) slice
      rw [← hsplit] at hslice
      rw [if_neg (by omega)]
      split
      · exact ⟨_, rfl⟩
      · rename_i hfull
        have hall : (afterNewline slice).length = slice.length :=
          Nat.le_antisymm (Snapshot.length_afterNewline_le slice) (Nat.le_of_not_lt hfull)
        refine ih (position - k) (by omega) (by omega) ?_
        rw [hsplit, Snapshot.afterNewline_append, if_pos hall, List.length_append] at h
        rw [List.length_append]
        omega

theorem scanBack_total {maxLineBytes exclusiveOffset : Nat} (hchunk : 0 < chunkBytes)
    (hpos : 0 < position) (hposition : position ≤ file.length)
    (h : (afterNewline (withoutTrailing (file.take position))).length ≤ maxLineBytes) :
    ∃ result, scanBack chunkBytes maxLineBytes exclusiveOffset hchunk (fun _ => file) 0 position
      position false [] = .ok result := by
  rw [scanBack, dif_neg (Nat.ne_of_gt hpos)]
  have hk : min chunkBytes position ≤ position := Nat.min_le_right _ _
  have hkpos : 0 < min chunkBytes position := Nat.lt_min.2 ⟨hchunk, hpos⟩
  generalize min chunkBytes position = k at hk hkpos ⊢
  have hbuffer := @Snapshot.chunkAt_eq file _ _ _ hk rfl
  have hsplit : file.take position = file.take (position - k)
      ++ (file.take position).drop (position - k) := by
    conv_lhs => rw [← List.take_append_drop (position - k) (file.take position)]
    rw [List.take_take, Nat.min_eq_left (Nat.sub_le _ _)]
  have hlength : ((file.take position).drop (position - k)).length = k := by
    rw [List.length_drop, List.length_take]
    omega
  dsimp only
  rw [hbuffer]
  generalize (file.take position).drop (position - k) = slice at hsplit hlength ⊢
  have hne : slice ≠ [] := by
    rintro rfl
    rw [List.length_nil] at hlength
    omega
  have hlast : (file.take position).getLast? = slice.getLast? := by
    rw [hsplit, List.getLast?_append_of_ne_nil _ hne]
  -- What is scanned of the first chunk is a part of the row, without the newline that ends it.
  have hslice : withoutTrailing (file.take position) = file.take (position - k)
      ++ (if slice.getLast? = some newline then slice.dropLast else slice) := by
    rw [withoutTrailing, hlast]
    split
    · rw [hsplit, List.dropLast_append_of_ne_nil hne]
    · exact hsplit
  rw [if_neg (by omega)]
  simp only [Bool.not_false, Bool.true_and, decide_true, decide_eq_true_eq, List.length_nil,
    Nat.zero_add]
  generalize (if slice.getLast? = some newline then slice.dropLast else slice) = scanned at hslice ⊢
  have hscanned := length_afterNewline_slice_le (file.take (position - k)) scanned
  rw [← hslice] at hscanned
  rw [if_neg (by omega)]
  split
  · exact ⟨_, rfl⟩
  · rename_i hfull
    have hall : (afterNewline scanned).length = scanned.length :=
      Nat.le_antisymm (Snapshot.length_afterNewline_le scanned) (Nat.le_of_not_lt hfull)
    refine scanBack_ignored_total hchunk (by omega) ?_
    rw [hslice, Snapshot.afterNewline_append, if_pos hall, List.length_append] at h
    rw [List.length_append, List.length_nil, hall]
    omega

theorem readRowBefore_total
    (h : ∀ row ∈ rows (file.take offset), row.length ≤ options.maxLineBytes) :
    ∃ result, readRowBefore options file offset = .ok result := by
  unfold readRowBefore
  dsimp only
  split
  · exact ⟨none, rfl⟩
  · rename_i hpos
    have hne : file.take (min file.length offset) ≠ [] := by
      refine List.ne_nil_of_length_pos ?_
      rw [List.length_take]
      omega
    have htake : file.take (min file.length offset) = file.take offset := by
      rw [Nat.min_comm, ← List.take_eq_take_min]
    have hstart : ∃ start, start + (afterNewline (withoutTrailing (file.take offset))).length
        = (withoutTrailing (file.take offset)).length :=
      ⟨_, Nat.sub_add_cancel (Snapshot.length_afterNewline_le _)⟩
    obtain ⟨start, hstart⟩ := hstart
    have hrow := (Snapshot.rows_lastLine (htake ▸ hne) hstart).2
    have hlimit : (afterNewline (withoutTrailing (file.take (min file.length offset)))).length
        ≤ options.maxLineBytes := by
      rw [htake]
      refine h _ ?_
      rw [hrow]
      exact List.mem_append_right _ (List.mem_singleton.mpr rfl)
    have hscan : ∃ result, scanBack options.boundedChunkBytes options.maxLineBytes offset
        (boundedChunkBytes_pos options) (fun _ => file) 0 (min file.length offset)
        (min file.length offset) false [] = .ok result :=
      scanBack_total _ (Nat.pos_of_ne_zero hpos) (Nat.min_le_left _ _) hlimit
    obtain ⟨result, hresult⟩ := hscan
    rw [hresult]
    exact ⟨_, rfl⟩

end Before

/-! ## The backward scan -/

section Scan

variable {σ : Type}

/-- The items one after the other, until the callback stops. -/
def foldLines {α : Type} (onLine : σ → α → σ × Bool) (s : σ) : List α → σ × Bool
  | [] => (s, false)
  | line :: rest =>
    if (onLine s line).2 then onLine s line else foldLines onLine (onLine s line).1 rest

variable (onLine : σ → Bytes → σ × Bool)

/-- The loop over a chunk from its end, at `index`: the line up to `lineEnd` starts behind each
newline. The second component is where the first line ends. -/
def emitLines (combined : Bytes) (s : σ) : Nat → Nat → (σ × Bool) × Nat
  | 0, lineEnd => ((s, false), lineEnd)
  | index + 1, lineEnd =>
    if combined[index]? = some newline then
      let emitted := onLine s ((combined.take lineEnd).drop (index + 1))
      if emitted.2 then (emitted, index) else emitLines combined emitted.1 index index
    else emitLines combined s index lineEnd

/-- The loop over the chunks; `remainder` is the start of a line. -/
def scanChunks (chunkBytes : Nat) (file : Bytes) (s : σ) (position : Nat) (remainder : Bytes) :
    σ × Bool :=
  if 0 < position then
    let bytesToRead := max 1 (min chunkBytes position)
    let combined := chunkAt file (position - bytesToRead) bytesToRead ++ remainder
    let emitted := emitLines onLine combined s combined.length combined.length
    if emitted.1.2 then emitted.1
    else scanChunks chunkBytes file emitted.1.1 (position - bytesToRead) (combined.take emitted.2)
  else if remainder.isEmpty then (s, false)
  else onLine s remainder
termination_by position

def scanJsonlFileBackward (chunkBytes : Nat) (file : Bytes) (endOffset : Nat) (s : σ) : σ × Bool :=
  scanChunks onLine chunkBytes file s (min file.length endOffset) []

variable {onLine}

theorem foldLines_append {α : Type} {onLine : σ → α → σ × Bool} (s : σ) (front rest : List α) :
    foldLines onLine s (front ++ rest) = if (foldLines onLine s front).2 then
      foldLines onLine s front else foldLines onLine (foldLines onLine s front).1 rest := by
  induction front generalizing s with
  | nil => rfl
  | cons line front ih =>
    rw [List.cons_append, foldLines, foldLines, ih]
    split <;> rfl

/-- A piece without a newline is handed over, and is passed over when it is empty. -/
theorem foldLines_piece (hblank : ∀ s, onLine s [] = (s, false)) {seg : Bytes}
    (hseg : newline ∉ seg) (s : σ) (rest : List Bytes) :
    foldLines onLine s ((lines seg).reverse ++ rest) = if (onLine s seg).2 then onLine s seg
      else foldLines onLine (onLine s seg).1 rest := by
  rw [lines_of_notMem hseg]
  split
  · rename_i hnil
    rw [hnil, hblank]
    rfl
  · rfl

/-- A chunk is its first line and what starts with a newline, whose lines are handed over. -/
theorem emitLines_eq (hblank : ∀ s, onLine s [] = (s, false)) {combined : Bytes} {index : Nat}
    {front seg : Bytes} (s : σ) (hindex : front.length = index)
    (hcombined : combined.take (front ++ seg).length = front ++ seg) (hseg : newline ∉ seg) :
    ∃ head tail, front ++ seg = head ++ tail ∧ newline ∉ head ∧
      (tail = [] ∨ tail.head? = some newline) ∧
      (emitLines onLine combined s index (front ++ seg).length).1
        = foldLines onLine s (lines tail).reverse ∧
      ((emitLines onLine combined s index (front ++ seg).length).1.2 = false →
        (emitLines onLine combined s index (front ++ seg).length).2 = head.length) := by
  induction index generalizing front seg s with
  | zero =>
    obtain rfl := List.eq_nil_of_length_eq_zero hindex
    exact ⟨seg, [], by simp, hseg, Or.inl rfl, rfl, fun _ => rfl⟩
  | succ index ih =>
    obtain rfl | ⟨f, b, rfl⟩ := List.eq_nil_or_concat front
    · cases hindex
    have hf : f.length = index := by simpa using hindex
    have hassoc : f.concat b ++ seg = f ++ b :: seg := by simp
    rw [hassoc] at hcombined ⊢
    have hbyte : combined[index]? = some b := by
      have htaken : (combined.take (f ++ b :: seg).length)[index]? = some b := by
        rw [hcombined, ← hf]
        simp
      rwa [List.getElem?_take_of_lt (by rw [List.length_append, List.length_cons]; omega)] at htaken
    rw [emitLines, hbyte]
    by_cases hb : b = newline
    · subst hb
      have hline : (combined.take (f ++ newline :: seg).length).drop (index + 1) = seg := by
        rw [hcombined, ← hf]
        simp
      have htake : combined.take (f ++ []).length = f ++ [] := by
        have hfront : combined.take f.length
            = (combined.take (f ++ newline :: seg).length).take f.length := by
          rw [List.take_take, Nat.min_eq_left (by rw [List.length_append]; omega)]
        rw [List.append_nil, hfront, hcombined, List.take_left]
      rw [if_pos rfl, hline]
      obtain ⟨head, tail, hsplit, hhead, htail, hfold, hend⟩ :=
        ih (onLine s seg).1 hf htake List.not_mem_nil
      rw [List.append_nil] at hsplit hfold hend
      rw [hf] at hfold hend
      refine ⟨head, tail ++ newline :: seg, ?_, hhead, ?_, ?_, ?_⟩
      · rw [hsplit, List.append_assoc]
      · obtain rfl | hnewline := htail
        · exact Or.inr rfl
        · refine Or.inr ?_
          rw [List.head?_append, hnewline]
          rfl
      · rw [lines_append_newline, List.reverse_append, foldLines_piece hblank hseg]
        dsimp only
        split
        · rfl
        · exact hfold
      · dsimp only
        split
        · rename_i hstop
          intro hgoes
          rw [hstop] at hgoes
          cases hgoes
        · exact hend
    · rw [if_neg (fun heq => hb (Option.some.inj heq))]
      have hlonger : newline ∉ b :: seg := by
        rw [List.mem_cons, not_or]
        exact ⟨fun heq => hb heq.symm, hseg⟩
      exact ih s hf hcombined hlonger

/-- **The scan hands over the lines from the last to the first**, whatever the chunk size. -/
theorem scanChunks_eq (hblank : ∀ s, onLine s [] = (s, false)) (s : σ) {remainder : Bytes}
    (hposition : position ≤ file.length) (hremainder : newline ∉ remainder) :
    scanChunks onLine chunkBytes file s position remainder
      = foldLines onLine s (lines (file.take position ++ remainder)).reverse := by
  induction position using Nat.strong_induction_on generalizing s remainder with
  | _ position ih =>
    rw [scanChunks]
    split
    · rename_i hpos
      have hk : max 1 (min chunkBytes position) ≤ position := by omega
      have hkpos : 0 < max 1 (min chunkBytes position) := by omega
      generalize max 1 (min chunkBytes position) = k at hk hkpos ⊢
      have hbuffer := @Snapshot.chunkAt_eq file _ _ _ hk rfl
      have hsplit : file.take position = file.take (position - k)
          ++ chunkAt file (position - k) k := by
        rw [hbuffer]
        conv_lhs => rw [← List.take_append_drop (position - k) (file.take position)]
        rw [List.take_take, Nat.min_eq_left (Nat.sub_le _ _)]
      dsimp only
      generalize chunkAt file (position - k) k = buffer at hsplit ⊢
      obtain ⟨head, tail, hcombined, hhead, htail, hfold, hend⟩ :=
        @emitLines_eq σ onLine hblank (buffer ++ remainder) (buffer ++ remainder).length
          (buffer ++ remainder) [] s rfl (by rw [List.append_nil, List.take_length])
          List.not_mem_nil
      rw [List.append_nil] at hcombined hfold hend
      have hlines : lines (file.take position ++ remainder)
          = lines (file.take (position - k) ++ head) ++ lines tail := by
        rw [hsplit, List.append_assoc, hcombined, ← List.append_assoc]
        obtain rfl | hnewline := htail
        · rw [List.append_nil]
          exact (List.append_nil _).symm
        · obtain ⟨rest, rfl⟩ : ∃ rest, tail = newline :: rest := by
            cases tail with
            | nil => cases hnewline
            | cons b rest => exact ⟨rest, by rw [Option.some.inj hnewline]⟩
          have hrest : lines (newline :: rest) = lines rest := lines_append_newline [] rest
          rw [lines_append_newline, hrest]
      rw [hlines, List.reverse_append, foldLines_append, ← hfold]
      split
      · rfl
      · rename_i hgoes
        have htake : (buffer ++ remainder).take head.length = head := by
          rw [hcombined, List.take_left]
        rw [hend (Bool.eq_false_iff.mpr hgoes), htake]
        exact ih (position - k) (by omega) _ (by omega) hhead
    · rename_i hzero
      obtain rfl : position = 0 := by omega
      rw [List.take_zero, List.nil_append, ← List.append_nil (lines remainder).reverse,
        foldLines_piece hblank hremainder]
      cases remainder with
      | nil => rw [hblank]; rfl
      | cons b remainder =>
        show onLine s (b :: remainder) = _
        split
        · rfl
        · rename_i hgoes
          rw [foldLines, ← Bool.eq_false_iff.mpr hgoes]

theorem scanJsonlFileBackward_eq (hblank : ∀ s, onLine s [] = (s, false)) (chunkBytes : Nat)
    (file : Bytes) (endOffset : Nat) (s : σ) :
    scanJsonlFileBackward onLine chunkBytes file endOffset s
      = foldLines onLine s (lines (file.take endOffset)).reverse := by
  rw [scanJsonlFileBackward, scanChunks_eq hblank s (Nat.min_le_left _ _) List.not_mem_nil,
    List.append_nil, Nat.min_comm, ← List.take_eq_take_min]

end Scan

/-! ## Where a row starts -/

theorem getElem?_lineOf (h : (lineOf bytes).length < bytes.length) :
    bytes[(lineOf bytes).length]? = some newline := by
  induction bytes with
  | nil => cases h
  | cons b rest ih =>
    by_cases hb : b = newline
    · subst hb
      rfl
    · have hline : lineOf (b :: rest) = b :: lineOf rest :=
        List.takeWhile_cons_of_pos (by simpa using hb)
      rw [hline, List.length_cons, List.length_cons] at h
      rw [hline, List.length_cons, List.getElem?_cons_succ]
      exact ih (by omega)

theorem getLast?_take_succ {k : Nat} (h : k < file.length) :
    (file.take (k + 1)).getLast? = file[k]? := by
  rw [List.getLast?_take, if_neg (Nat.succ_ne_zero k), Nat.add_sub_cancel,
    List.getElem?_eq_getElem h]
  rfl

/-- A row starts at the front of the file or behind a newline. -/
theorem nextStart_boundary (h : nextStart file offset < file.length) :
    file.take (nextStart file offset) = [] ∨
      (file.take (nextStart file offset)).getLast? = some newline := by
  by_cases hinside : insideRow file offset = true
  · rw [nextStart, if_pos hinside] at h ⊢
    have hnext : min file.length (offset + (lineOf (file.drop offset)).length + 1)
        = offset + (lineOf (file.drop offset)).length + 1 := by omega
    rw [hnext] at h ⊢
    refine Or.inr ?_
    rw [getLast?_take_succ (by omega), ← List.getElem?_drop]
    refine getElem?_lineOf ?_
    rw [List.length_drop]
    omega
  · rw [nextStart, if_neg hinside] at h ⊢
    cases offset with
    | zero => exact Or.inl rfl
    | succ k =>
      refine Or.inr ?_
      rw [getLast?_take_succ (by omega)]
      simpa [insideRow, h] using hinside

/-- **The row that a seek finds** is a row of the file, and the rows before it end where it
starts. -/
theorem rowAtOrAfter_spec {row : JsonlLineAtOffset} (h : rowAtOrAfter file offset = some row) :
    rows file = rows (file.take row.startOffset) ++ row.line :: rows (file.drop row.endOffset) ∧
      row.startOffset < file.length ∧ offset ≤ row.startOffset ∧
      row.startOffset < row.endOffset ∧ row.endOffset ≤ file.length ∧
      (offset = 0 → row.startOffset = 0) := by
  unfold rowAtOrAfter at h
  dsimp only at h
  split at h
  · cases h
  · rename_i hlt
    obtain rfl := Option.some.inj h
    have hstart : nextStart file (min file.length offset) < file.length := Nat.lt_of_not_le hlt
    have hboundary := nextStart_boundary hstart
    have hfrom : min file.length offset ≤ nextStart file (min file.length offset) := by
      unfold nextStart
      split <;> omega
    have hzero : offset = 0 → nextStart file (min file.length offset) = 0 := by
      rintro rfl
      rw [Nat.min_zero]
      rfl
    generalize nextStart file (min file.length offset) = start at hstart hboundary hfrom hzero
    have hdrop : file.drop start ≠ [] := by
      refine List.ne_nil_of_length_pos ?_
      rw [List.length_drop]
      omega
    refine ⟨?_, hstart, by show offset ≤ start; omega, ?_, Nat.min_le_left _ _, hzero⟩
    · conv_lhs => rw [← List.take_append_drop start file]
      rw [Snapshot.rows_append_of_line hboundary, rows_eq_cons hdrop, List.drop_drop]
      show _ = rows (file.take start) ++ lineOf (file.drop start) :: rows (file.drop (min _ _))
      have hsame : file.drop (min file.length (start + (lineOf (file.drop start)).length + 1))
          = file.drop (start + (lineOf (file.drop start)).length + 1) := by
        by_cases hle : file.length ≤ start + (lineOf (file.drop start)).length + 1
        · rw [Nat.min_eq_left hle, List.drop_length, List.drop_eq_nil_of_le hle]
        · rw [Nat.min_eq_right (by omega)]
      rw [hsame]
      rfl
    · show start < min file.length (start + _ + 1)
      omega

/-- A row of the first bytes of a file is a row of the file, or the start of one. -/
theorem length_le_of_mem_rows_take (h : ∀ row ∈ rows bytes, row.length ≤ limit) (k : Nat) :
    ∀ row ∈ rows (bytes.take k), row.length ≤ limit := by
  induction bytes generalizing k limit with
  | nil => simp [rows]
  | cons b rest ih =>
    cases k with
    | zero => simp [rows]
    | succ k =>
      intro row hrow
      have hrest := length_le_of_cons h
      have hfirst : (lineOf (b :: rest)).length ≤ limit := length_lineOf_drop_le h 0
      rw [List.take_succ_cons, rows] at hrow
      split at hrow
      · obtain rfl | hmem := List.mem_cons.mp hrow
        · exact Nat.zero_le _
        · exact ih hrest k row hmem
      · rename_i hb
        have hline : lineOf (b :: rest) = b :: lineOf rest :=
          List.takeWhile_cons_of_pos (by simpa using hb)
        rw [hline, List.length_cons] at hfirst
        split at hrow
        · obtain rfl := List.mem_singleton.mp hrow
          rw [List.length_singleton]
          omega
        · rename_i first more hmore
          obtain rfl | htail := List.mem_cons.mp hrow
          · have hne : rest.take k ≠ [] := by
              intro hnil
              rw [hnil] at hmore
              cases hmore
            rw [rows_eq_cons hne] at hmore
            have hshort : first.length ≤ (lineOf rest).length := by
              rw [← (List.cons.inj hmore).1, lineOf, lineOf, ← List.take_takeWhile,
                List.length_take]
              omega
            rw [List.length_cons]
            omega
          · exact ih hrest k row (hmore ▸ List.mem_cons_of_mem _ htail)

theorem length_le_of_mem_rows {row : Bytes} (h : row ∈ rows bytes) :
    row.length ≤ bytes.length := by
  induction bytes generalizing row with
  | nil => cases h
  | cons b rest ih =>
    rw [rows] at h
    split at h
    · obtain rfl | hmem := List.mem_cons.mp h
      · exact Nat.zero_le _
      · exact Nat.le_succ_of_le (ih hmem)
    · split at h
      · obtain rfl := List.mem_singleton.mp h
        exact Nat.succ_le_succ (Nat.zero_le _)
      · rename_i first more hmore
        obtain rfl | hmem := List.mem_cons.mp h
        · exact Nat.succ_le_succ (ih (hmore ▸ List.mem_cons_self))
        · exact Nat.le_succ_of_le (ih (hmore ▸ List.mem_cons_of_mem _ hmem))

end Psfn.JournalSeek
