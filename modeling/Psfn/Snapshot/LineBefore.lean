import Mathlib.Data.List.Basic
import Mathlib.Data.List.TakeWhile

/-!
# The row before an offset

`readJsonlLineBeforeAsync` of `persistence/jsonl-segments.ts`: the last row before an offset is
read backwards, one chunk at a time. The file may grow between two chunks; `contents i` is what it
holds at the `i`-th read.

* `rows` — the physical rows of a file, with the blank ones;
* `readLineBefore_spec` — the row that is read is the last of the rows before the offset, and its
  start offset is where the rest of them end.
-/

namespace Psfn.Snapshot

abbrev Bytes := List UInt8

def newline : UInt8 := 0x0a

/-! ## Rows -/

/-- The rows of a file; what follows the last newline is a row if there is something. -/
def rows : Bytes → List Bytes
  | [] => []
  | b :: rest =>
    if b = newline then [] :: rows rest
    else match rows rest with
      | [] => [[b]]
      | row :: more => (b :: row) :: more

theorem rows_line {line : Bytes} (h : newline ∉ line) (rest : Bytes) :
    rows (line ++ newline :: rest) = line :: rows rest := by
  induction line with
  | nil => rw [List.nil_append, rows, if_pos rfl]
  | cons b line ih =>
    have hne : b ≠ newline := fun heq => h (heq ▸ List.mem_cons_self)
    have hrest : newline ∉ line := fun hmem => h (List.mem_cons_of_mem _ hmem)
    rw [List.cons_append, rows, if_neg hne, ih hrest]

theorem rows_tail {line : Bytes} (h : newline ∉ line) (hne : line ≠ []) : rows line = [line] := by
  induction line with
  | nil => exact absurd rfl hne
  | cons b line ih =>
    have hb : b ≠ newline := fun heq => h (heq ▸ List.mem_cons_self)
    rw [rows, if_neg hb]
    cases line with
    | nil => rfl
    | cons c line =>
      rw [ih (fun hmem => h (List.mem_cons_of_mem _ hmem)) (List.cons_ne_nil c line)]

/-- The rows of a file that ends a row go on with those of what is appended. -/
theorem rows_append (front rest : Bytes) :
    rows (front ++ newline :: rest) = rows (front ++ [newline]) ++ rows rest := by
  induction front with
  | nil => rw [List.nil_append, List.nil_append, rows, rows, if_pos rfl, if_pos rfl]; rfl
  | cons b front ih =>
    by_cases hb : b = newline
    · rw [List.cons_append, List.cons_append, rows, rows, if_pos hb, if_pos hb, ih]
      rfl
    · rw [List.cons_append, List.cons_append, rows, rows, if_neg hb, if_neg hb, ih]
      -- a text with a newline in it has a row
      cases hrows : rows (front ++ [newline]) with
      | nil =>
        cases front with
        | nil => cases hrows
        | cons c front =>
          rw [List.cons_append, rows] at hrows
          split at hrows
          · cases hrows
          · split at hrows <;> cases hrows
      | cons row more => rfl

/-! ## `readJsonlLineBeforeAsync` -/

inductive ReadError where
  | enoent | estale | eoverflow
  | error (message : String)
deriving DecidableEq, Repr

structure JsonlLineAtOffset where
  /-- The bytes of the row, before they are decoded. -/
  line        : Bytes
  startOffset : Nat
  endOffset   : Nat
deriving DecidableEq

/-- What follows the last newline. -/
def afterNewline (bytes : Bytes) : Bytes := (bytes.reverse.takeWhile (· ≠ newline)).reverse

/-- `buffer` at `[position, position + length)`. -/
def chunkAt (content : Bytes) (position length : Nat) : Bytes :=
  (content.drop position).take length

/-- The loop: `line` is what is retained, `rowEnd` and `ignored` the loop's own. -/
def scanBack (chunkBytes maxLineBytes exclusiveOffset : Nat) (hchunk : 0 < chunkBytes)
    (contents : Nat → Bytes) (i position rowEnd : Nat) (ignored : Bool) (line : Bytes) :
    Except ReadError JsonlLineAtOffset :=
  if _hposition : position = 0 then
    .ok { line, startOffset := 0
          endOffset := rowEnd + if rowEnd < exclusiveOffset then 1 else 0 }
  else
    let bytesToRead := min chunkBytes position
    let buffer := chunkAt (contents i) (position - bytesToRead) bytesToRead
    if buffer.length < bytesToRead then .error .estale
    else
      let trailing := !ignored && position = rowEnd && buffer.getLast? = some newline
      let slice := if trailing then buffer.dropLast else buffer
      let rowEnd := if trailing then rowEnd - 1 else rowEnd
      let tail := afterNewline slice
      if maxLineBytes < line.length + tail.length then .error .eoverflow
      else if tail.length < slice.length then
        .ok {
          line := tail ++ line
          startOffset := position - bytesToRead + (slice.length - tail.length)
          endOffset := rowEnd + if ignored || trailing then 1 else 0 }
      else
        scanBack chunkBytes maxLineBytes exclusiveOffset hchunk contents (i + 1)
          (position - bytesToRead) rowEnd true (tail ++ line)
termination_by position
decreasing_by omega

/-- With a handle on the file, whose size is `size`. -/
def readLineBefore (chunkBytes maxLineBytes : Nat) (hchunk : 0 < chunkBytes)
    (hmax : 0 < maxLineBytes) (size exclusiveOffset : Nat) (contents : Nat → Bytes) :
    Except ReadError (Option JsonlLineAtOffset) :=
  let position := min size exclusiveOffset
  if position = 0 then .ok none
  else (scanBack (min chunkBytes maxLineBytes) maxLineBytes exclusiveOffset
    (Nat.lt_min.2 ⟨hchunk, hmax⟩) contents 0 position position false []).map some

/-! ## What the loop reads -/

theorem afterNewline_append (front slice : Bytes) :
    afterNewline (front ++ slice) =
      if (afterNewline slice).length = slice.length then afterNewline front ++ slice
      else afterNewline slice := by
  have hlength : (afterNewline slice).length = slice.length ↔
      (slice.reverse.takeWhile (· ≠ newline)).length = slice.reverse.length := by
    rw [afterNewline, List.length_reverse, List.length_reverse]
  unfold afterNewline at hlength ⊢
  rw [List.reverse_append, List.takeWhile_append]
  simp only [hlength]
  split
  · rw [List.reverse_append, List.reverse_reverse]
  · rfl

theorem length_afterNewline_le (bytes : Bytes) : (afterNewline bytes).length ≤ bytes.length := by
  rw [afterNewline, List.length_reverse, ← @List.length_reverse _ bytes]
  exact (List.takeWhile_sublist _).length_le

theorem newline_notMem_afterNewline (bytes : Bytes) : newline ∉ afterNewline bytes := by
  intro hmem
  rw [afterNewline, List.mem_reverse] at hmem
  have hne := List.mem_takeWhile_imp hmem
  simp at hne

/-- A file is what follows its last newline, after nothing or a newline. -/
theorem eq_append_afterNewline (bytes : Bytes) :
    ∃ front, bytes = front ++ afterNewline bytes ∧ (front = [] ∨ front.getLast? = some newline) := by
  refine ⟨(bytes.reverse.dropWhile (· ≠ newline)).reverse, ?_, ?_⟩
  · rw [afterNewline, ← List.reverse_append, List.takeWhile_append_dropWhile, List.reverse_reverse]
  · rw [List.getLast?_reverse]
    cases hdrop : bytes.reverse.dropWhile (· ≠ newline) with
    | nil => exact .inl rfl
    | cons b rest =>
      refine .inr ?_
      have hhead := List.head?_dropWhile_not (p := (· ≠ newline)) bytes.reverse
      rw [hdrop] at hhead
      simpa using hhead

theorem chunkAt_eq {content front : Bytes} {position length : Nat} (hlength : length ≤ position)
    (hfront : content.take position = front) :
    chunkAt content (position - length) length = front.drop (position - length) := by
  rw [← hfront, List.drop_take, chunkAt]
  congr 1
  omega

/-- The bytes before the offset, without a newline that ends them. -/
def withoutTrailing (front : Bytes) : Bytes :=
  if front.getLast? = some newline then front.dropLast else front

theorem afterNewline_eq_self {slice : Bytes}
    (h : (afterNewline slice).length = slice.length) : afterNewline slice = slice := by
  rw [afterNewline, List.length_reverse] at h
  rw [afterNewline, (List.takeWhile_sublist _).eq_of_length (by rw [h, List.length_reverse]),
    List.reverse_reverse]

/-- The end of one turn of the loop: the row starts in the slice, or before it. -/
theorem scan_slice {rest slice line : Bytes} {maxLineBytes endOffset : Nat}
    {further : Except ReadError JsonlLineAtOffset} {result : JsonlLineAtOffset}
    (h : (if maxLineBytes < line.length + (afterNewline slice).length then .error .eoverflow
      else if (afterNewline slice).length < slice.length then
        .ok { line := afterNewline slice ++ line
              startOffset := rest.length + (slice.length - (afterNewline slice).length), endOffset }
      else further) = Except.ok result)
    (hfurther : further = .ok result → afterNewline slice = slice →
      result.line = afterNewline rest ++ (slice ++ line) ∧
        result.startOffset + (afterNewline rest).length = rest.length) :
    result.line = afterNewline (rest ++ slice) ++ line ∧
      result.startOffset + (afterNewline (rest ++ slice)).length = (rest ++ slice).length := by
  rw [afterNewline_append, List.length_append]
  split at h
  · cases h
  · split at h
    · rename_i hshort
      obtain rfl := Except.ok.inj h
      rw [if_neg (Nat.ne_of_lt hshort)]
      refine ⟨rfl, ?_⟩
      dsimp only
      omega
    · rename_i hfull
      have hall : (afterNewline slice).length = slice.length :=
        Nat.le_antisymm (length_afterNewline_le slice) (Nat.le_of_not_lt hfull)
      obtain ⟨hline, hstart⟩ := hfurther h (afterNewline_eq_self hall)
      rw [if_pos hall, hline, List.append_assoc, List.length_append]
      refine ⟨rfl, ?_⟩
      omega

variable {chunkBytes maxLineBytes exclusiveOffset : Nat} {contents : Nat → Bytes}

/-- What the file holds before an offset, it holds before a smaller one. -/
theorem take_of_take {front : Bytes} (hfront : ∀ i, (contents i).take front.length = front)
    (k : Nat) (i : Nat) : (contents i).take (front.take k).length = front.take k := by
  conv_rhs => rw [← hfront i]
  rw [List.length_take, List.take_take]

/-- **After the first chunk** the loop puts what follows the last newline in front of the line. -/
theorem scanBack_ignored (hchunk : 0 < chunkBytes) {front : Bytes} {i rowEnd : Nat} {line : Bytes}
    {result : JsonlLineAtOffset} (hfront : ∀ i, (contents i).take front.length = front)
    (h : scanBack chunkBytes maxLineBytes exclusiveOffset hchunk contents i front.length rowEnd true
      line = .ok result) :
    result.line = afterNewline front ++ line ∧
      result.startOffset + (afterNewline front).length = front.length := by
  induction hlength : front.length using Nat.strong_induction_on
    generalizing front i rowEnd line with
  | _ n ih =>
    subst hlength
    rw [scanBack] at h
    split at h
    · rename_i hzero
      obtain rfl := List.eq_nil_of_length_eq_zero hzero
      obtain rfl := Except.ok.inj h
      exact ⟨rfl, rfl⟩
    · rename_i hpos
      have hk : min chunkBytes front.length ≤ front.length := Nat.min_le_right _ _
      have hkpos : 0 < min chunkBytes front.length := Nat.lt_min.2 ⟨hchunk, Nat.pos_of_ne_zero hpos⟩
      generalize min chunkBytes front.length = k at h hk hkpos
      have hrest : (front.take (front.length - k)).length = front.length - k := by
        rw [List.length_take]
        omega
      dsimp only at h
      rw [chunkAt_eq hk (hfront i)] at h
      split at h
      · cases h
      · rw [Bool.not_true, Bool.false_and, Bool.false_and, if_neg Bool.false_ne_true,
          if_neg Bool.false_ne_true, ← hrest] at h
        have hresult := scan_slice h fun hfurther htail => by
          rw [htail] at hfurther
          exact ih _ (by omega) (take_of_take hfront _) hfurther rfl
        rw [hrest, List.take_append_drop] at hresult
        exact hresult

/-- **The row before the offset** is what follows the last newline, but one that ends the bytes
before it. -/
theorem scanBack_spec (hchunk : 0 < chunkBytes) {front : Bytes} {i : Nat}
    {result : JsonlLineAtOffset} (hfront : ∀ i, (contents i).take front.length = front)
    (hne : front ≠ [])
    (h : scanBack chunkBytes maxLineBytes exclusiveOffset hchunk contents i front.length
      front.length false [] = .ok result) :
    result.line = afterNewline (withoutTrailing front) ∧
      result.startOffset + (afterNewline (withoutTrailing front)).length =
        (withoutTrailing front).length := by
  rw [scanBack] at h
  have hpos := List.length_pos_of_ne_nil hne
  rw [dif_neg (Nat.ne_of_gt hpos)] at h
  have hk : min chunkBytes front.length ≤ front.length := Nat.min_le_right _ _
  have hkpos : 0 < min chunkBytes front.length := Nat.lt_min.2 ⟨hchunk, hpos⟩
  generalize min chunkBytes front.length = k at h hk hkpos
  have hrest : (front.take (front.length - k)).length = front.length - k := by
    rw [List.length_take]
    omega
  have hslice : front.drop (front.length - k) ≠ [] := by
    refine List.ne_nil_of_length_pos ?_
    rw [List.length_drop]
    omega
  have hlast : (front.drop (front.length - k)).getLast? = front.getLast? := by
    conv_rhs => rw [← List.take_append_drop (front.length - k) front]
    rw [List.getLast?_append_of_ne_nil _ hslice]
  have hwithout : withoutTrailing front = front.take (front.length - k) ++
      (if front.getLast? = some newline then (front.drop (front.length - k)).dropLast
        else front.drop (front.length - k)) := by
    unfold withoutTrailing
    split
    · conv_lhs => rw [← List.take_append_drop (front.length - k) front]
      rw [List.dropLast_append_of_ne_nil hslice]
    · exact (List.take_append_drop _ front).symm
  dsimp only at h
  rw [chunkAt_eq hk (hfront i)] at h
  split at h
  · cases h
  · simp only [Bool.not_false, Bool.true_and, decide_true, hlast, decide_eq_true_eq,
      Bool.false_or] at h
    rw [← hrest] at h
    rw [hwithout, ← List.append_nil (afterNewline _)]
    have hresult := scan_slice h fun hfurther htail => by
      rw [htail] at hfurther
      exact scanBack_ignored hchunk (take_of_take hfront _) hfurther
    rw [hrest] at hresult
    simpa only [List.append_nil] using hresult

/-! ## The row -/

theorem rows_append_of_line {front : Bytes} (h : front = [] ∨ front.getLast? = some newline)
    (rest : Bytes) : rows (front ++ rest) = rows front ++ rows rest := by
  rcases h with rfl | hlast
  · rfl
  · rcases List.eq_nil_or_concat front with rfl | ⟨start, last, rfl⟩
    · rfl
    · rw [List.concat_eq_append, List.getLast?_concat] at hlast
      obtain rfl := Option.some.inj hlast
      rw [List.concat_eq_append, List.append_assoc]
      exact rows_append start rest

/-- The rows before an offset are those before the last one, and the last one. -/
theorem rows_lastLine {front : Bytes} (hne : front ≠ []) {start : Nat}
    (hstart : start + (afterNewline (withoutTrailing front)).length =
      (withoutTrailing front).length) :
    start < front.length ∧
      rows front = rows (front.take start) ++ [afterNewline (withoutTrailing front)] := by
  obtain ⟨before, hbefore, hline⟩ := eq_append_afterNewline (withoutTrailing front)
  have hlineFree := newline_notMem_afterNewline (withoutTrailing front)
  generalize afterNewline (withoutTrailing front) = line at hstart hbefore hlineFree
  have hlength : start = before.length := by
    rw [hbefore, List.length_append] at hstart
    omega
  by_cases hlast : front.getLast? = some newline
  · have hfront : front = before ++ (line ++ [newline]) := by
      rw [← List.append_assoc, ← hbefore, withoutTrailing, if_pos hlast]
      rw [List.getLast?_eq_some_getLast hne] at hlast
      conv_lhs => rw [← List.dropLast_append_getLast hne, Option.some.inj hlast]
    refine ⟨?_, ?_⟩
    · rw [hfront, hlength]
      simp
    · rw [hlength, hfront, List.take_left, rows_append_of_line hline, rows_line hlineFree]
      rfl
  · have hfront : front = before ++ line := by rw [← hbefore, withoutTrailing, if_neg hlast]
    have hlineNe : line ≠ [] := by
      rintro rfl
      rw [List.append_nil] at hfront
      subst hfront
      exact hline.elim hne hlast
    refine ⟨?_, ?_⟩
    · have hpos := List.length_pos_of_ne_nil hlineNe
      rw [hfront, hlength, List.length_append]
      omega
    · rw [hlength, hfront, List.take_left, rows_append_of_line hline, rows_tail hlineFree hlineNe]

/-- **The read returns the last row before the offset**, and where the rows before it end; it
returns nothing only at offset zero. -/
theorem readLineBefore_spec {hchunk : 0 < chunkBytes} {hmax : 0 < maxLineBytes} {size : Nat}
    {front : Bytes} (hsize : front.length ≤ size)
    (hfront : ∀ i, (contents i).take front.length = front) {result : Option JsonlLineAtOffset}
    (h : readLineBefore chunkBytes maxLineBytes hchunk hmax size front.length contents =
      .ok result) :
    (result = none ∧ front = []) ∨ ∃ row, result = some row ∧ row.startOffset < front.length ∧
      rows front = rows (front.take row.startOffset) ++ [row.line] := by
  unfold readLineBefore at h
  rw [Nat.min_eq_right hsize] at h
  dsimp only at h
  split at h
  · rename_i hzero
    exact .inl ⟨(Except.ok.inj h).symm, List.eq_nil_of_length_eq_zero hzero⟩
  · rename_i hpos
    have hne : front ≠ [] := fun hnil => hpos (hnil ▸ rfl)
    cases hscan : scanBack (min chunkBytes maxLineBytes) maxLineBytes front.length
        (Nat.lt_min.2 ⟨hchunk, hmax⟩) contents 0 front.length front.length false [] with
    | error failure =>
      rw [hscan] at h
      cases h
    | ok row =>
      rw [hscan] at h
      obtain rfl := Except.ok.inj h
      obtain ⟨hrow, hstart⟩ := scanBack_spec _ hfront hne hscan
      obtain ⟨hlt, hrows⟩ := rows_lastLine hne hstart
      exact .inr ⟨row, rfl, hlt, hrow ▸ hrows⟩

end Psfn.Snapshot
