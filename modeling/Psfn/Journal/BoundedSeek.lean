import Mathlib.Algebra.Order.Ring.Rat
import Mathlib.Data.Rat.Floor
import Psfn.Lib.Bisect
import Psfn.Journal.Definitions
import Psfn.Journal.SeekRows

/-!
# Seek readers of a journal

`readJournalEntriesBefore` of `persistence/journals/journal/file-io.ts` and its asynchronous
variant in `bounded-seek.ts`, over the bytes of the segments of one archive. The two are one search
over two readers of rows; the asynchronous one refuses rows above a limit. The files do not change
while they are read.

* `rowReader_agreeOn`, `exactReader_agreeOn` — a reader returns the rows of the file, and refuses
  none within its limit;
* `readJournalEntriesBeforeOnce_agree` — readers that agree give searches that agree.
-/

namespace Psfn.JournalSeek

open Psfn.Lib
open Psfn.Snapshot (Bytes newline rows ReadError JsonlLineAtOffset)
open Psfn.Journal (JournalEntry TailState isMessage textOrNull)

/-! ## Rows -/

/-- How the bytes of a row are read; `parseJournalLine` is `none` where it throws. -/
structure RowReader where
  decodeUtf8       : Bytes → String
  parseJournalLine : String → Option JournalEntry
  decodeUtf8_empty : decodeUtf8 [] = ""

inductive RowText where
  | blank
  | malformed
  | entry (e : JournalEntry)

def RowReader.read (rt : RowReader) (row : Bytes) : RowText :=
  let line := rt.decodeUtf8 row
  if JsString.trim line = "" then .blank
  else match rt.parseJournalLine line with
    | none => .malformed
    | some entry => .entry entry

/-- The parameters of one read, after their normalisation; `trustSeekEntry` is false where it
throws. -/
structure SeekParams where
  beforeId             : Nat
  messageLimit         : Nat
  includeBoundaryEntry : Bool
  chunkBytes           : Nat
  trustSeekEntry       : Option (JournalEntry → Option String → Bool)
  previousFileHmac     : Option String

def SeekParams.seekChunkBytes (params : SeekParams) : Nat := max params.chunkBytes 1024

/-- The two reads of a search: a row with its place, and the bytes of the row before. -/
structure SeekReader where
  lineAtOrAfter : Bytes → Nat → Except ReadError (Option JsonlLineAtOffset)
  lineBefore    : Bytes → Nat → Except ReadError (Option Bytes)

def rowReader (options : Bytes → LineScanOptions) : SeekReader where
  lineAtOrAfter file offset := readRowAtOrAfter (options file) file offset
  lineBefore file offset :=
    (readRowBefore (options file) file offset).map fun row => row.map (·.line)

/-- `readJsonlLineAtOrAfter` and `readJsonlLineBefore`: no row of a file is longer than the file. -/
def syncReader (params : SeekParams) : SeekReader :=
  rowReader fun file => { chunkBytes := params.seekChunkBytes, maxLineBytes := file.length }

/-- `JOURNAL_SEEK_ROW_LIMITS.maxBytes`. -/
def maxSeekLineBytes : Nat := 2 * 1024 * 1024

/-- `readJsonlLineAtOrAfterAsync` and `readJsonlLineBeforeAsync`. -/
def asyncReader (params : SeekParams) : SeekReader :=
  rowReader fun _ => { chunkBytes := params.seekChunkBytes, maxLineBytes := maxSeekLineBytes }

/-! ## The search -/

structure ParsedSeekRow where
  entry       : JournalEntry
  startOffset : Nat
  endOffset   : Nat

variable (rt : RowReader) (params : SeekParams)

/-- The signature before a row, `none` when the row before it is malformed. A blank row before it
says nothing. -/
def previousHmac (previousRow : Option Bytes) : Option (Option String) :=
  match previousRow.map rt.read with
  | none => some params.previousFileHmac
  | some .blank => some params.previousFileHmac
  | some .malformed => none
  | some (.entry previousEntry) => some (textOrNull previousEntry.hmac)

def trustedBy (trustSeekEntry : JournalEntry → Option String → Bool) (previousRow : Option Bytes)
    (entry : JournalEntry) : Bool :=
  match previousHmac rt params previousRow with
  | none => false
  | some hmac => trustSeekEntry entry hmac

def readSeekEntry (reader : SeekReader) (segment : Bytes) (previousSegment : Option Bytes)
    (offset : Nat) : Except ReadError (Option ParsedSeekRow) := do
  let found ← reader.lineAtOrAfter segment offset
  match found with
  | none => .ok none
  | some row =>
    match rt.read row.line with
    | .blank => .ok none
    | .malformed => .ok none
    | .entry entry =>
      let parsed : ParsedSeekRow :=
        { entry, startOffset := row.startOffset, endOffset := row.endOffset }
      match params.trustSeekEntry with
      | none => .ok (some parsed)
      | some trustSeekEntry =>
        let previousRow ←
          if 0 < row.startOffset then reader.lineBefore segment row.startOffset
          else match previousSegment with
            | some previous => reader.lineBefore previous previous.length
            | none => .ok none
        .ok (if trustedBy rt params trustSeekEntry previousRow entry then some parsed else none)

section Loops

variable (sample : Nat → Except ReadError (Option ParsedSeekRow))

/-- The first loop of `findCursorOffset`. -/
def seekLow (low high : Nat) : Except ReadError Nat :=
  if _h : high - low > params.seekChunkBytes then do
    let sampled ← sample (low + (high - low) / 2)
    match sampled with
    | none => seekLow low (low + (high - low) / 2)
    | some row =>
      if row.entry.id < params.beforeId then seekLow (max (low + 1) row.endOffset) high
      else seekLow low (low + (high - low) / 2)
  else .ok low
termination_by high - low
decreasing_by all_goals omega

/-- The second loop of `findCursorOffset`. -/
def seekFrom (fileSize offset : Nat) : Except ReadError (Option Nat) :=
  if _h : offset < fileSize then do
    let candidate ← sample offset
    match candidate with
    | none => .ok none
    | some row =>
      if params.beforeId ≤ row.entry.id then .ok (some row.startOffset)
      else if _hmoves : row.endOffset ≤ offset then .ok none
      else seekFrom fileSize row.endOffset
  else .ok (some fileSize)
termination_by fileSize - offset
decreasing_by omega

def findCursorOffset (fileSize : Nat) : Except ReadError (Option Nat) := do
  let low ← seekLow params sample 0 fileSize
  seekFrom params sample fileSize low

/-- The loop over the segments, whose first rows `probe` compares with the id; `none` when one is
not to be trusted. `high` is exclusive. -/
def locateSegment (probe : Nat → Except ReadError (Option Bool)) (low high : Nat)
    (candidateIndex : Option Nat) : Except ReadError (Option (Option Nat)) :=
  if _h : low < high then do
    let sampled ← probe (low + (high - 1 - low) / 2)
    match sampled with
    | none => .ok none
    | some true =>
      locateSegment probe (low + (high - 1 - low) / 2 + 1) high
        (some (low + (high - 1 - low) / 2))
    | some false => locateSegment probe low (low + (high - 1 - low) / 2) candidateIndex
  else .ok (some candidateIndex)
termination_by high - low
decreasing_by all_goals omega

end Loops

/-! ## The scan -/

/-- What the scan does with an entry; the flag is `truncated`. -/
def takeEntry (s : TailState) (entry : JournalEntry) : TailState × Bool :=
  if params.beforeId ≤ entry.id then (s, false)
  else
    let pushed := { s with parsedDescending := s.parsedDescending ++ [entry] }
    if s.needBoundaryEntry then (pushed, true)
    else if !isMessage entry then (pushed, false)
    else
      let counted := { pushed with messageCount := s.messageCount + 1 }
      if s.messageCount + 1 < params.messageLimit then (counted, false)
      else if !params.includeBoundaryEntry then (counted, true)
      else ({ counted with needBoundaryEntry := true }, false)

def onLine (s : TailState) (row : Bytes) : TailState × Bool :=
  match rt.read row with
  | .blank => (s, false)
  | .malformed => (s, false)
  | .entry entry => takeEntry params s entry

def scanCandidate (s : TailState) (segment : Bytes) (endOffset : Nat) : TailState × Bool :=
  scanJsonlFileBackward (onLine rt params) params.chunkBytes segment endOffset s

/-- The segments one after the other, each up to its offset, until a scan stops. -/
def scanSegments (s : TailState) : List (Bytes × Nat) → TailState × Bool
  | [] => (s, false)
  | candidate :: older =>
    let scanned := scanCandidate rt params s candidate.1 candidate.2
    if scanned.2 then scanned else scanSegments scanned.1 older

def scanStart : TailState :=
  { parsedDescending := [], messageCount := 0, needBoundaryEntry := false }

structure ReadJournalBeforeResult where
  entries   : List JournalEntry
  truncated : Bool

def resultOf (scanned : TailState × Bool) : ReadJournalBeforeResult :=
  { entries := scanned.1.parsedDescending.reverse, truncated := scanned.2 }

/-- From this size on a segment is searched by bytes. -/
def seekFileBytes : Nat := 256 * 1024

def wholeSegments (segments : List Bytes) : List (Bytes × Nat) :=
  segments.map fun segment => (segment, segment.length)

/-- `nonEmptySegments[index - 1]`. -/
def previousSegment (nonEmptySegments : List Bytes) (index : Nat) : Option Bytes :=
  if 0 < index then nonEmptySegments[index - 1]? else none

def probeSegment (reader : SeekReader) (nonEmptySegments : List Bytes) (index : Nat) :
    Except ReadError (Option Bool) := do
  let sampled ← readSeekEntry rt params reader (nonEmptySegments.getD index [])
    (previousSegment nonEmptySegments index) 0
  .ok (sampled.map fun (row : ParsedSeekRow) => decide (row.entry.id < params.beforeId))

/-- Where the scan of the segment that was found starts; a refused search starts it at the end. -/
def cursorOf (reader : SeekReader) (nonEmptySegments : List Bytes) (index : Nat) :
    Except ReadError Nat := do
  let segment := nonEmptySegments.getD index []
  let cursorOffset ←
    if seekFileBytes < segment.length then
      findCursorOffset params
        (readSeekEntry rt params reader segment (previousSegment nonEmptySegments index))
        segment.length
    else .ok (some segment.length)
  .ok (cursorOffset.getD segment.length)

/-- `readJournalEntriesBeforeOnce` and `readJournalEntriesBeforeAsyncOnce`, on the segments in the
order of their numbers, the active file last. -/
def readJournalEntriesBeforeOnce (reader : SeekReader) (segments : List Bytes) :
    Except ReadError ReadJournalBeforeResult := do
  let nonEmptySegments := segments.filter fun segment => 0 < segment.length
  let located ← locateSegment (probeSegment rt params reader nonEmptySegments) 0
    nonEmptySegments.length none
  match located with
  | none => .ok (resultOf (scanSegments rt params scanStart
      (wholeSegments nonEmptySegments).reverse))
  | some none => .ok (resultOf (scanStart, false))
  | some (some candidateIndex) =>
    let cursorOffset ← cursorOf rt params reader nonEmptySegments candidateIndex
    .ok (resultOf (scanSegments rt params scanStart
      ((nonEmptySegments.getD candidateIndex [], cursorOffset) ::
        (wholeSegments (nonEmptySegments.take candidateIndex)).reverse)))

/-! ## The two readers -/

structure ReadJournalBeforeOptions where
  beforeId             : JsNumber
  messageLimit         : JsNumber
  includeBoundaryEntry : Option Bool
  scanChunkBytes       : Option JsNumber
  trustSeekEntry       : Option (JournalEntry → Option String → Bool)
  previousFileHmac     : Option String

/-- `Number.isFinite(value) ? Math.max(least, Math.floor(value)) : otherwise`. -/
def floorAtLeast (least otherwise : Nat) : JsNumber → Nat
  | .finite q => max least q.floor.toNat
  | _ => otherwise

def defaultScanChunkBytes : Nat := 64 * 1024

def ReadJournalBeforeOptions.normalized (options : ReadJournalBeforeOptions) : SeekParams where
  beforeId := floorAtLeast 0 0 options.beforeId
  messageLimit := floorAtLeast 0 0 options.messageLimit
  includeBoundaryEntry := options.includeBoundaryEntry.getD true
  chunkBytes := (options.scanChunkBytes.map (floorAtLeast 1 defaultScanChunkBytes)).getD
    defaultScanChunkBytes
  trustSeekEntry := options.trustSeekEntry
  previousFileHmac := options.previousFileHmac

def readBefore (readerOf : SeekParams → SeekReader) (options : ReadJournalBeforeOptions)
    (segments : List Bytes) : Except ReadError ReadJournalBeforeResult :=
  if options.normalized.beforeId = 0 || options.normalized.messageLimit = 0 then
    .ok { entries := [], truncated := false }
  else readJournalEntriesBeforeOnce rt options.normalized (readerOf options.normalized) segments

def readJournalEntriesBefore (options : ReadJournalBeforeOptions) (segments : List Bytes) :
    Except ReadError ReadJournalBeforeResult := readBefore rt syncReader options segments

def readJournalEntriesBeforeAsync (options : ReadJournalBeforeOptions) (segments : List Bytes) :
    Except ReadError ReadJournalBeforeResult := readBefore rt asyncReader options segments

/-! ## Readers that agree -/

/-- What the first returns, the second returns. -/
def Agree {α : Type} (a b : Except ReadError α) : Prop := ∀ x, a = .ok x → b = .ok x

theorem Agree.refl {α : Type} (a : Except ReadError α) : Agree a a := fun _ h => h

theorem Agree.bind {α β : Type} {a b : Except ReadError α} {f g : α → Except ReadError β}
    (h : Agree a b) (hfg : ∀ x, Agree (f x) (g x)) : Agree (a >>= f) (b >>= g) := by
  intro y hy
  cases a with
  | error failure => cases hy
  | ok x =>
    rw [h x rfl]
    exact hfg x y hy

/-- Two readers on one segment. -/
structure AgreeOn (first second : SeekReader) (segment : Bytes) : Prop where
  lineAtOrAfter : ∀ offset, Agree (first.lineAtOrAfter segment offset)
    (second.lineAtOrAfter segment offset)
  lineBefore : ∀ offset, Agree (first.lineBefore segment offset) (second.lineBefore segment offset)

/-- The reader that no chunk size and no limit shows in. -/
def exactReader : SeekReader where
  lineAtOrAfter file offset := .ok (rowAtOrAfter file offset)
  lineBefore file offset := .ok (rows (file.take offset)).getLast?

theorem rowReader_agreeOn (options : Bytes → LineScanOptions) (segment : Bytes) :
    AgreeOn (rowReader options) exactReader segment := by
  constructor
  · intro offset found h
    rw [readRowAtOrAfter_eq h]
    rfl
  · intro offset line h
    change (readRowBefore (options segment) segment offset).map _ = _ at h
    cases hread : readRowBefore (options segment) segment offset with
    | error failure =>
      rw [hread] at h
      cases h
    | ok found =>
      rw [hread] at h
      obtain rfl := Except.ok.inj h
      exact congrArg Except.ok (readRowBefore_eq hread).symm

/-- A reader refuses nothing where no row is above its limit. -/
theorem exactReader_agreeOn {options : Bytes → LineScanOptions} {segment : Bytes}
    (h : ∀ row ∈ rows segment, row.length ≤ (options segment).maxLineBytes) :
    AgreeOn exactReader (rowReader options) segment := by
  constructor
  · intro offset found hfound
    obtain rfl := Except.ok.inj hfound
    obtain ⟨result, hresult⟩ := readRowAtOrAfter_total h offset
    have heq := readRowAtOrAfter_eq hresult
    show readRowAtOrAfter _ _ _ = _
    rw [hresult, heq]
  · intro offset line hline
    obtain rfl := Except.ok.inj hline
    obtain ⟨result, hresult⟩ := readRowBefore_total (length_le_of_mem_rows_take h offset)
    have heq := readRowBefore_eq hresult
    show (readRowBefore _ _ _).map _ = _
    rw [hresult, ← heq]
    rfl

section Agreement

variable {rt : RowReader} {params : SeekParams} {first second : SeekReader}

theorem readSeekEntry_agree {segment : Bytes} {previous : Option Bytes}
    (h : AgreeOn first second segment) (hprevious : ∀ p ∈ previous, AgreeOn first second p)
    (offset : Nat) :
    Agree (readSeekEntry rt params first segment previous offset)
      (readSeekEntry rt params second segment previous offset) := by
  refine Agree.bind (h.lineAtOrAfter offset) fun found => ?_
  cases found with
  | none => exact Agree.refl _
  | some row =>
    dsimp only
    split
    · exact Agree.refl _
    · exact Agree.refl _
    · cases params.trustSeekEntry with
      | none => exact Agree.refl _
      | some trustSeekEntry =>
        by_cases hpos : 0 < row.startOffset
        · simp only [hpos, if_true]
          exact Agree.bind (h.lineBefore _) fun _ => Agree.refl _
        · simp only [hpos, if_false]
          cases previous with
          | none => exact Agree.refl _
          | some p => exact Agree.bind ((hprevious p rfl).lineBefore _) fun _ => Agree.refl _

variable {sample sample' : Nat → Except ReadError (Option ParsedSeekRow)}

theorem seekLow_agree (h : ∀ offset, Agree (sample offset) (sample' offset)) (low high : Nat) :
    Agree (seekLow params sample low high) (seekLow params sample' low high) := by
  induction hleft : high - low using Nat.strong_induction_on generalizing low high with
  | _ n ih =>
    unfold seekLow
    split
    · refine Agree.bind (h _) fun sampled => ?_
      cases sampled with
      | none => exact ih _ (by omega) _ _ rfl
      | some row =>
        dsimp only
        split
        · exact ih _ (by omega) _ _ rfl
        · exact ih _ (by omega) _ _ rfl
    · exact Agree.refl _

theorem seekFrom_agree (h : ∀ offset, Agree (sample offset) (sample' offset))
    (fileSize offset : Nat) :
    Agree (seekFrom params sample fileSize offset) (seekFrom params sample' fileSize offset) := by
  induction hleft : fileSize - offset using Nat.strong_induction_on generalizing offset with
  | _ n ih =>
    unfold seekFrom
    split
    · refine Agree.bind (h _) fun candidate => ?_
      cases candidate with
      | none => exact Agree.refl _
      | some row =>
        dsimp only
        split
        · exact Agree.refl _
        · split
          · exact Agree.refl _
          · exact ih _ (by omega) _ rfl
    · exact Agree.refl _

theorem locateSegment_agree {probe probe' : Nat → Except ReadError (Option Bool)}
    (h : ∀ index, Agree (probe index) (probe' index)) (low high : Nat)
    (candidateIndex : Option Nat) :
    Agree (locateSegment probe low high candidateIndex)
      (locateSegment probe' low high candidateIndex) := by
  induction hleft : high - low using Nat.strong_induction_on
    generalizing low high candidateIndex with
  | _ n ih =>
    unfold locateSegment
    split
    · refine Agree.bind (h _) fun sampled => ?_
      cases sampled with
      | none => exact Agree.refl _
      | some below =>
        cases below with
        | true => exact ih _ (by omega) _ _ _ rfl
        | false => exact ih _ (by omega) _ _ _ rfl
    · exact Agree.refl _

theorem cursorOf_agree {nonEmptySegments : List Bytes} {index : Nat}
    (h : ∀ offset, Agree
      (readSeekEntry rt params first (nonEmptySegments.getD index [])
        (previousSegment nonEmptySegments index) offset)
      (readSeekEntry rt params second (nonEmptySegments.getD index [])
        (previousSegment nonEmptySegments index) offset)) :
    Agree (cursorOf rt params first nonEmptySegments index)
      (cursorOf rt params second nonEmptySegments index) := by
  unfold cursorOf
  by_cases hbig : seekFileBytes < (nonEmptySegments.getD index []).length
  · simp only [hbig, if_true]
    refine Agree.bind ?_ fun _ => Agree.refl _
    exact Agree.bind (seekLow_agree h _ _) fun low => seekFrom_agree h _ low
  · simp only [hbig, if_false]
    exact Agree.refl _

/-- **Readers that agree on the segments give searches that agree.** -/
theorem readJournalEntriesBeforeOnce_agree {segments : List Bytes}
    (hnil : AgreeOn first second []) (h : ∀ segment ∈ segments, AgreeOn first second segment) :
    Agree (readJournalEntriesBeforeOnce rt params first segments)
      (readJournalEntriesBeforeOnce rt params second segments) := by
  have hkept : ∀ segment ∈ segments.filter fun segment => 0 < segment.length,
      AgreeOn first second segment := fun segment hmem => h segment (List.mem_filter.mp hmem).1
  unfold readJournalEntriesBeforeOnce
  dsimp only
  generalize (segments.filter fun segment => 0 < segment.length) = nonEmptySegments at hkept
  have hat : ∀ index, AgreeOn first second (nonEmptySegments.getD index []) := by
    intro index
    rw [List.getD_eq_getElem?_getD]
    cases hget : nonEmptySegments[index]? with
    | none => exact hnil
    | some segment => exact hkept segment (List.mem_of_getElem? hget)
  have hprevious : ∀ index, ∀ p ∈ previousSegment nonEmptySegments index,
      AgreeOn first second p := by
    intro index p hp
    unfold previousSegment at hp
    split at hp
    · exact hkept p (List.mem_of_getElem? hp)
    · cases hp
  have hsample : ∀ index offset, Agree
      (readSeekEntry rt params first (nonEmptySegments.getD index [])
        (previousSegment nonEmptySegments index) offset)
      (readSeekEntry rt params second (nonEmptySegments.getD index [])
        (previousSegment nonEmptySegments index) offset) :=
    fun index offset => readSeekEntry_agree (hat index) (hprevious index) offset
  refine Agree.bind (locateSegment_agree (fun index => ?_) _ _ _) fun located => ?_
  · exact Agree.bind (hsample index 0) fun _ => Agree.refl _
  · split
    · exact Agree.refl _
    · exact Agree.refl _
    · exact Agree.bind (cursorOf_agree (hsample _)) fun _ => Agree.refl _

end Agreement

end Psfn.JournalSeek
