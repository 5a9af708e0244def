import Psfn.Snapshot.Files

/-!
# Snapshot pages

`persistence/jsonl-snapshot-cursor.ts`: pages of one fixed snapshot of a source, newest row first.
Each operation on the file system meets the source in another state; a `Schedule` says in which.
The second component of a result is the time at which the next operation happens.

A cursor is the payload that its text encodes. A name is one of the two forms that
`isCanonicalSegmentName` admits.
-/

namespace Psfn.Snapshot

inductive SegmentName where
  | active
  | sealed (segmentNumber : Nat)
deriving DecidableEq, Repr

def Directory.file? (dir : Directory) : SegmentName → Option JsonlFile
  | .active => dir.active
  | .sealed segmentNumber => if segmentNumber = 0 then none else dir.sealed[segmentNumber - 1]?

/-- The source at each operation, under any appends, rotations and creations. -/
structure Schedule where
  source : Nat → Directory
  evolves : ∀ t, Evolves (source t) (source (t + 1))
  /-- The numbers that a listing of the directory reads. -/
  entries : Nat → List Nat
  /-- What was there when the listing began is read. -/
  listed : ∀ t, ∀ n < (source t).sealed.length, n + 1 ∈ entries t
  /-- What is read is there when the listing ends. -/
  exists_of_mem : ∀ t, ∀ n ∈ entries t, 0 < n ∧ n ≤ (source (t + 1)).sealed.length

structure SnapshotSegment where
  name     : SegmentName
  identity : Nat
  size     : Nat
deriving DecidableEq, Repr

structure SnapshotCursorPayload where
  version : Nat
  sourceId : String
  current : Option SnapshotSegment
  nextSealedNumber : Nat
  exclusiveOffset : Nat
  activeRelocationName : Option SegmentName
deriving DecidableEq, Repr

structure JsonlSnapshotLine where
  path : SegmentName
  line : Bytes
deriving DecidableEq, Repr

structure JsonlSnapshotPage where
  lines : List JsonlSnapshotLine
  nextCursor : Option SnapshotCursorPayload
  exhausted : Bool
deriving DecidableEq, Repr

structure ReadJsonlSnapshotPageOptions where
  chunkBytes : Nat
  maxLineBytes : Nat
  rotationRetries : Nat

def maxSafeInteger : Nat := 9007199254740991

variable (schedule : Schedule)

/-! ## Operations on the files -/

def readFileIdentity (name : SegmentName) (t : Nat) : Option Nat :=
  ((schedule.source t).file? name).map (·.identity)

/-- The size is that of the file that was opened, a moment later. -/
def openSnapshotSegment (name : SegmentName) (t : Nat) : Option SnapshotSegment × Nat :=
  match (schedule.source t).file? name with
  | none => (none, t + 1)
  | some file =>
    (some {
      name, identity := file.identity
      size := ((schedule.source (t + 1)).bytesOf file.identity).length }, t + 2)

def findNewestSealedNumber (t : Nat) : Except ReadError Nat :=
  let entries := schedule.entries t
  let count := entries.length
  let minimum := entries.foldl min maxSafeInteger
  let maximum := entries.foldl max 0
  if entries.any fun segmentNumber => maxSafeInteger < segmentNumber || segmentNumber = 0 then
    .error (.error "JSONL snapshot has a non-canonical sealed segment")
  else if count = 0 then .ok 0
  else if minimum ≠ 1 || count ≠ maximum then
    .error (.error (s!"JSONL snapshot sealed segments are non-contiguous: count={count}, " ++
      s!"minimum={minimum}, maximum={maximum}"))
  else .ok maximum

def locatePinnedActive (identity oldestCandidate : Nat) : Nat → Nat → Option Nat × Nat
  | 0, t => (none, t)
  | segmentNumber + 1, t =>
    if segmentNumber + 1 < oldestCandidate then (none, t)
    else if readFileIdentity schedule (.sealed (segmentNumber + 1)) t = some identity then
      (some (segmentNumber + 1), t + 1)
    else locatePinnedActive identity oldestCandidate segmentNumber (t + 1)

def readJsonlLineBeforeAsync (options : ReadJsonlSnapshotPageOptions) (path : SegmentName)
    (exclusiveOffset expectedFileIdentity t : Nat) :
    Except ReadError (Option JsonlLineAtOffset) × Nat :=
  if hchunk : 0 < options.chunkBytes then
    if hmax : 0 < options.maxLineBytes then
      match (schedule.source t).file? path with
      | none => (.error .enoent, t + 1)
      | some file =>
        if file.identity ≠ expectedFileIdentity then (.error .estale, t + 2)
        else
          -- a read takes one byte at least, so the last one is over by then
          (readLineBefore options.chunkBytes options.maxLineBytes hchunk hmax
            ((schedule.source (t + 1)).bytesOf file.identity).length exclusiveOffset
            (fun i => (schedule.source (t + 2 + i)).bytesOf file.identity),
            t + 2 + exclusiveOffset)
    else (.error (.error "JSONL scan maxLineBytes must be a positive safe integer"), t)
  else (.error (.error "JSONL scan chunkBytes must be a positive safe integer"), t)

/-! ## Capture -/

/-- One attempt; without a payload it is made again. -/
def captureAttempt (sourceId : String) (rotationRetries t : Nat) :
    Except ReadError (Option SnapshotCursorPayload) × Nat :=
  match openSnapshotSegment schedule .active t with
  | (active, t) =>
  match findNewestSealedNumber schedule t with
  | .error failure => (.error failure, t + 1)
  | .ok newestSealedNumber =>
  let t := t + 1
  match active with
  | none =>
    if 0 < newestSealedNumber then
      match openSnapshotSegment schedule (.sealed newestSealedNumber) t with
      | (none, t) =>
        (.error (.error "Newest JSONL snapshot segment vanished during capture"), t)
      | (some current, t) =>
        (.ok (some {
          version := 1, sourceId, current := some current
          nextSealedNumber := newestSealedNumber - 1, exclusiveOffset := current.size
          activeRelocationName := none }), t)
    else
      (.ok (some {
        version := 1, sourceId, current := none, nextSealedNumber := 0, exclusiveOffset := 0
        activeRelocationName := none }), t)
  | some active =>
    match locatePinnedActive schedule active.identity
        (max 1 (newestSealedNumber - rotationRetries)) newestSealedNumber t with
    | (some activeSegmentNumber, t) =>
      let movedName := SegmentName.sealed activeSegmentNumber
      (.ok (some {
        version := 1, sourceId, current := some { active with name := movedName }
        nextSealedNumber := activeSegmentNumber - 1, exclusiveOffset := active.size
        activeRelocationName := some movedName }), t)
    | (none, t) =>
      if readFileIdentity schedule .active t = some active.identity then
        (.ok (some {
          version := 1, sourceId, current := some active, nextSealedNumber := newestSealedNumber
          exclusiveOffset := active.size
          activeRelocationName := some (.sealed (newestSealedNumber + 1)) }), t + 1)
      else (.ok none, t + 1)

/-- With `left` more attempts after this one. -/
def captureLoop (sourceId : String) (rotationRetries : Nat) :
    Nat → Nat → Except ReadError SnapshotCursorPayload × Nat
  | left, t =>
    match captureAttempt schedule sourceId rotationRetries t with
    | (.error failure, t) => (.error failure, t)
    | (.ok (some payload), t) => (.ok payload, t)
    | (.ok none, t) =>
      match left with
      | 0 =>
        (.error (.error (s!"JSONL snapshot capture exceeded {rotationRetries} " ++
          "concurrent-rotation retries")), t)
      | left + 1 => captureLoop sourceId rotationRetries left t

def captureSnapshot (sourceId : String) (rotationRetries t : Nat) :
    Except ReadError SnapshotCursorPayload × Nat :=
  captureLoop schedule sourceId rotationRetries rotationRetries t

/-- The position that a cursor names is not in its snapshot. -/
def SnapshotCursorPayload.outside (cursor : SnapshotCursorPayload) : Bool :=
  match cursor.current with
  | none => cursor.exclusiveOffset ≠ 0
  | some current => current.size < cursor.exclusiveOffset

def decodeCursor (cursor : SnapshotCursorPayload) (sourceId : String) :
    Except ReadError SnapshotCursorPayload :=
  if cursor.version ≠ 1 || cursor.sourceId ≠ sourceId then
    .error (.error "JSONL snapshot cursor does not match the requested source")
  else if cursor.outside then
    .error (.error "JSONL snapshot cursor position is outside its snapshot")
  else .ok cursor

/-! ## A page -/

def locateAmong (identity : Nat) : List SegmentName → Nat → Option SegmentName × Nat
  | [], t => (none, t)
  | path :: candidates, t =>
    if readFileIdentity schedule path t = some identity then (some path, t + 1)
    else locateAmong identity candidates (t + 1)

def locateCurrentSegment (state : SnapshotCursorPayload) (t : Nat) :
    Except ReadError (SegmentName × SnapshotCursorPayload) × Nat :=
  match state.current with
  | none => (.error (.error "JSONL snapshot cursor has no current segment"), t)
  | some current =>
    let candidates := current.name ::
      (state.activeRelocationName.elim [] fun name => [name, .active])
    match locateAmong schedule current.identity candidates.eraseDups t with
    | (some path, t) => (.ok (path, { state with current := some { current with name := path } }), t)
    | (none, t) =>
      (.error (.error (s!"JSONL snapshot segment {current.identity} is no longer available; " ++
        "refusing to skip history")), t)

/-- With `left` more attempts after this one. -/
def readCurrentLineLoop (options : ReadJsonlSnapshotPageOptions) :
    Nat → SnapshotCursorPayload → Nat →
      Except ReadError (Option (JsonlLineAtOffset × SegmentName) × SnapshotCursorPayload) × Nat
  | left, state, t =>
    match state.current with
    | none => (.ok (none, state), t)
    | some current =>
      match locateCurrentSegment schedule state t with
      | (.error failure, t) => (.error failure, t)
      | (.ok (path, state), t) =>
        match readJsonlLineBeforeAsync schedule options path state.exclusiveOffset
            current.identity t with
        | (.ok line, t) => (.ok (line.map fun line => (line, path), state), t)
        | (.error failure, t) =>
          if failure ≠ .enoent && failure ≠ .estale then (.error failure, t)
          else match left with
            | 0 =>
              (.error (.error ("JSONL cursor kept losing races with segment rotation after " ++
                s!"{options.rotationRetries} retries")), t)
            | left + 1 => readCurrentLineLoop options left state t

def readCurrentLine (options : ReadJsonlSnapshotPageOptions) (state : SnapshotCursorPayload)
    (t : Nat) :
    Except ReadError (Option (JsonlLineAtOffset × SegmentName) × SnapshotCursorPayload) × Nat :=
  readCurrentLineLoop schedule options options.rotationRetries state t

def advanceSegment (state : SnapshotCursorPayload) (t : Nat) :
    Except ReadError SnapshotCursorPayload × Nat :=
  let state := { state with activeRelocationName := none }
  match state.nextSealedNumber with
  | 0 => (.ok { state with current := none, exclusiveOffset := 0 }, t)
  | segmentNumber + 1 =>
    match openSnapshotSegment schedule (.sealed (segmentNumber + 1)) t with
    | (none, t) =>
      (.error (.error (s!"JSONL snapshot is missing sealed segment {segmentNumber + 1}; " ++
        "refusing to skip history")), t)
    | (some next, t) =>
      (.ok { state with
        current := some next, nextSealedNumber := segmentNumber, exclusiveOffset := next.size }, t)

/-! ## The loop -/

/-- What is left to read, but under which names the files are found. -/
def SnapshotCursorPayload.position (state : SnapshotCursorPayload) :
    Option (Nat × Nat) × Nat × Nat :=
  (state.current.map fun segment => (segment.identity, segment.size), state.nextSealedNumber,
    state.exclusiveOffset)

/-- The segments that are still to be read. -/
def SnapshotCursorPayload.pending (state : SnapshotCursorPayload) : Nat :=
  if state.current.isSome then state.nextSealedNumber + 1 else 0

theorem pending_eq {state state' : SnapshotCursorPayload} (h : state'.position = state.position) :
    state'.pending = state.pending := by
  obtain ⟨hcurrent, hrest⟩ := Prod.mk.inj h
  have hsome := congrArg Option.isSome hcurrent
  rw [Option.isSome_map, Option.isSome_map] at hsome
  rw [SnapshotCursorPayload.pending, SnapshotCursorPayload.pending, hsome, (Prod.mk.inj hrest).1]

section Position

variable {schedule}

theorem locateCurrentSegment_position {state state' : SnapshotCursorPayload} {path : SegmentName}
    {t t' : Nat} (h : locateCurrentSegment schedule state t = (.ok (path, state'), t')) :
    state'.position = state.position := by
  unfold locateCurrentSegment at h
  split at h
  · cases h
  · rename_i current hcurrent
    dsimp only at h
    split at h
    · cases h
      rw [SnapshotCursorPayload.position, SnapshotCursorPayload.position, hcurrent]
      rfl
    · cases h

theorem readCurrentLineLoop_position {options : ReadJsonlSnapshotPageOptions} {left : Nat}
    {state state' : SnapshotCursorPayload} {line : Option (JsonlLineAtOffset × SegmentName)}
    {t t' : Nat}
    (h : readCurrentLineLoop schedule options left state t = (.ok (line, state'), t')) :
    state'.position = state.position := by
  induction left generalizing state t with
  | zero =>
    unfold readCurrentLineLoop at h
    split at h
    · cases h
      rfl
    · split at h
      · cases h
      · rename_i hlocate
        split at h
        · cases h
          exact locateCurrentSegment_position hlocate
        · split at h <;> cases h
  | succ left ih =>
    unfold readCurrentLineLoop at h
    split at h
    · cases h
      rfl
    · split at h
      · cases h
      · rename_i hlocate
        split at h
        · cases h
          exact locateCurrentSegment_position hlocate
        · split at h
          · cases h
          · exact (ih h).trans (locateCurrentSegment_position hlocate)

theorem advanceSegment_pending {state next : SnapshotCursorPayload} {t t' : Nat}
    (hcurrent : state.current.isSome) (h : advanceSegment schedule state t = (.ok next, t')) :
    next.pending < state.pending := by
  rw [SnapshotCursorPayload.pending, SnapshotCursorPayload.pending, if_pos hcurrent]
  unfold advanceSegment at h
  dsimp only at h
  split at h
  · cases h
    exact Nat.succ_pos _
  · rename_i segmentNumber hnumber
    split at h
    · cases h
    · cases h
      rw [hnumber]
      exact Nat.lt_succ_self _

end Position

/-- The row before the offset; at offset zero there is none. -/
def nextLine (options : ReadJsonlSnapshotPageOptions) (state : SnapshotCursorPayload) (t : Nat) :
    Except ReadError (Option (JsonlLineAtOffset × SegmentName) × SnapshotCursorPayload) × Nat :=
  if state.exclusiveOffset = 0 then (.ok (none, state), t)
  else readCurrentLine schedule options state t

variable {schedule} in
theorem nextLine_position {options : ReadJsonlSnapshotPageOptions}
    {state state' : SnapshotCursorPayload} {line : Option (JsonlLineAtOffset × SegmentName)}
    {t t' : Nat} (h : nextLine schedule options state t = (.ok (line, state'), t')) :
    state'.position = state.position := by
  unfold nextLine at h
  split at h
  · cases h
    rfl
  · exact readCurrentLineLoop_position h

/-- Until there are `limit` lines, or no segment is left. -/
def readLines (limit : Nat) (options : ReadJsonlSnapshotPageOptions)
    (state : SnapshotCursorPayload) (lines : List JsonlSnapshotLine) (t : Nat) :
    Except ReadError (SnapshotCursorPayload × List JsonlSnapshotLine) × Nat :=
  if _hmore : lines.length < limit ∧ state.current.isSome then
    match _hline : nextLine schedule options state t with
    | (.error failure, t) => (.error failure, t)
    | (.ok (some (line, path), state), t) =>
      readLines limit options { state with exclusiveOffset := line.startOffset }
        (lines ++ [{ path, line := line.line }]) t
    | (.ok (none, state), t) =>
      match _hnext : advanceSegment schedule state t with
      | (.error failure, t) => (.error failure, t)
      | (.ok next, t) => readLines limit options next lines t
  else (.ok (state, lines), t)
termination_by limit - lines.length + state.pending
decreasing_by
  · have hpending := pending_eq (nextLine_position _hline)
    have hafter : SnapshotCursorPayload.pending { state with exclusiveOffset := line.startOffset } =
      state.pending := rfl
    rw [hafter, hpending, List.length_append, List.length_singleton]
    omega
  · have hpending := pending_eq (nextLine_position _hline)
    have hcurrent := congrArg Option.isSome (Prod.mk.inj (nextLine_position _hline)).1
    rw [Option.isSome_map, Option.isSome_map] at hcurrent
    rw [← hpending]
    exact Nat.add_lt_add_left (advanceSegment_pending (hcurrent.trans _hmore.2) _hnext) _

/-- Segments without a row before the offset are passed over. -/
def passOver (state : SnapshotCursorPayload) (t : Nat) :
    Except ReadError SnapshotCursorPayload × Nat :=
  if _hpass : state.current.isSome ∧ state.exclusiveOffset = 0 then
    match _hnext : advanceSegment schedule state t with
    | (.error failure, t) => (.error failure, t)
    | (.ok next, t) => passOver next t
  else (.ok state, t)
termination_by state.pending
decreasing_by exact advanceSegment_pending _hpass.1 _hnext

/-- A page from a cursor's state. -/
def readPageFrom (limit : Nat) (options : ReadJsonlSnapshotPageOptions)
    (state : SnapshotCursorPayload) (t : Nat) : Except ReadError JsonlSnapshotPage × Nat :=
  match readLines schedule limit options state [] t with
  | (.error failure, t) => (.error failure, t)
  | (.ok (state, lines), t) =>
    match passOver schedule state t with
    | (.error failure, t) => (.error failure, t)
    | (.ok state, t) =>
      let exhausted := state.current.isNone
      (.ok { lines, exhausted, nextCursor := if exhausted then none else some state }, t)

def readJsonlSnapshotPage (sourceId : String) (limit : Nat)
    (cursor : Option SnapshotCursorPayload) (options : ReadJsonlSnapshotPageOptions) (t : Nat) :
    Except ReadError JsonlSnapshotPage × Nat :=
  if maxSafeInteger < limit || limit = 0 then
    (.error (.error "JSONL snapshot page limit must be a positive safe integer"), t)
  else
    let captured := match cursor with
      | some cursor => (decodeCursor cursor sourceId, t)
      | none => captureSnapshot schedule sourceId options.rotationRetries t
    match captured with
    | (.error failure, t) => (.error failure, t)
    | (.ok state, t) => readPageFrom schedule limit options state t

end Psfn.Snapshot
