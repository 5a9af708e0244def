import Psfn.Snapshot.Page

/-!
# Pages of one snapshot

* `Remains` — the rows that a cursor's state has still to give, as the files hold them;
* `captureSnapshot_spec` — a captured state has to give the rows of one moment of the capture;
* `readLines_spec` — the lines of a page are the last of those rows, newest first.
-/

namespace Psfn.Snapshot

/-! ## What a state has still to give -/

/-- The rows of the files before the `next`-th, and those before the offset in that one. -/
def RemainsAt (dir : Directory) (identity size next offset : Nat) (rest : List Bytes) : Prop :=
  ∃ file, dir.files[next]? = some file ∧ file.identity = identity ∧ offset ≤ size ∧
    size ≤ file.bytes.length ∧
    rest = (dir.files.take next).flatMap (fun file => rows file.bytes) ++
      rows (file.bytes.take offset)

def Remains (dir : Directory) (state : SnapshotCursorPayload) (rest : List Bytes) : Prop :=
  match state.current with
  | none => rest = []
  | some segment =>
    RemainsAt dir segment.identity segment.size state.nextSealedNumber state.exclusiveOffset rest

variable {dir dir' : Directory}

variable {identity size offset : Nat} {rest : List Bytes}

theorem RemainsAt.evolves {next : Nat} (h : RemainsAt dir identity size next offset rest)
    (hevolves : Evolves dir dir') :
    RemainsAt dir' identity size next offset rest := by
  obtain ⟨file, hfile, hid, hoffset, hsize, rfl⟩ := h
  obtain ⟨file', hfile', hid', hfront⟩ := hevolves.file hfile
  refine ⟨file', hfile', hid'.trans hid, hoffset, hsize.trans hfront.length_le, ?_⟩
  obtain ⟨more, hmore⟩ := hfront
  rw [hevolves.take_files (List.getElem?_eq_some_iff.1 hfile).1, ← hmore,
    List.take_append_of_le_length (hoffset.trans hsize)]

variable {state : SnapshotCursorPayload}

theorem Remains.evolves (h : Remains dir state rest) (hevolves : Evolves dir dir') :
    Remains dir' state rest := by
  unfold Remains at h ⊢
  cases hcurrent : state.current with
  | none =>
    rw [hcurrent] at h
    exact h
  | some segment =>
    rw [hcurrent] at h
    exact RemainsAt.evolves h hevolves

variable {segment : SnapshotSegment}

theorem remains_some (h : state.current = some segment) :
    Remains dir state rest ↔ RemainsAt dir segment.identity segment.size state.nextSealedNumber
      state.exclusiveOffset rest := by
  rw [Remains, h]

variable {state' : SnapshotCursorPayload}

/-- The state that a line leaves has the position of the one before it. -/
theorem remains_of_position (hcurrent : state.current = some segment)
    (hposition : state'.position = state.position)
    (h : RemainsAt dir segment.identity segment.size state.nextSealedNumber offset rest) :
    Remains dir { state' with exclusiveOffset := offset } rest := by
  obtain ⟨hsegment, hrest⟩ := Prod.mk.inj hposition
  rw [hcurrent, Option.map_some] at hsegment
  obtain ⟨segment', hcurrent', hsame⟩ := Option.map_eq_some_iff.1 hsegment
  obtain ⟨hid, hsize⟩ := Prod.mk.inj hsame
  have hafter : { state' with exclusiveOffset := offset }.current = some segment' := hcurrent'
  rw [remains_some hafter, hid, hsize, (Prod.mk.inj hrest).1]
  exact h

/-! ## Operations on the files -/

variable {schedule : Schedule}

variable {t t' : Nat}

theorem Schedule.evolves_le (h : t ≤ t') :
    Evolves (schedule.source t) (schedule.source t') := by
  induction h with
  | refl => exact .refl
  | step _ ih => exact ih.trans (schedule.evolves _)

variable {n : Nat} {file : JsonlFile}

theorem file?_sealed (h : dir.file? (.sealed n) = some file) :
    ∃ k, n = k + 1 ∧ dir.sealed[k]? = some file := by
  cases n with
  | zero => cases h
  | succ k => exact ⟨k, rfl, h⟩

/-- A sealed segment is opened with all its rows. -/
theorem openSnapshotSegment_sealed
    (h : openSnapshotSegment schedule (.sealed n) t = (some segment, t')) :
    ∃ k file, n = k + 1 ∧ (schedule.source t).files[k]? = some file ∧
      (schedule.source (t + 1)).files[k]? = some file ∧
      segment.identity = file.identity ∧ segment.size = file.bytes.length ∧ t' = t + 2 := by
  unfold openSnapshotSegment at h
  split at h
  · cases h
  · rename_i file hfile
    obtain ⟨k, rfl, hk⟩ := file?_sealed hfile
    have hlater : (schedule.source (t + 1)).files[k]? = some file := by
      obtain ⟨more, hmore⟩ := (schedule.evolves t).sealed_front
      refine Directory.sealed_file ?_
      rw [← hmore, List.getElem?_append_left (List.getElem?_eq_some_iff.1 hk).1, hk]
    cases h
    exact ⟨k, file, rfl, Directory.sealed_file hk, hlater, rfl,
      congrArg List.length (Directory.bytesOf_eq hlater), rfl⟩

theorem openSnapshotSegment_active
    (h : openSnapshotSegment schedule .active t = (some segment, t')) :
    ∃ file, (schedule.source t).active = some file ∧ segment.identity = file.identity ∧
      segment.size = ((schedule.source (t + 1)).bytesOf file.identity).length ∧ t' = t + 2 := by
  unfold openSnapshotSegment at h
  split at h
  · cases h
  · rename_i file hfile
    cases h
    exact ⟨file, hfile, rfl, rfl, rfl⟩

theorem openSnapshotSegment_none {name : SegmentName}
    (h : openSnapshotSegment schedule name t = (none, t')) :
    (schedule.source t).file? name = none ∧ t' = t + 1 := by
  unfold openSnapshotSegment at h
  split at h
  · rename_i hnone
    cases h
    exact ⟨hnone, rfl⟩
  · cases h

theorem readFileIdentity_eq {name : SegmentName}
    (h : readFileIdentity schedule name t = some identity) :
    ∃ file, (schedule.source t).file? name = some file ∧ file.identity = identity :=
  Option.map_eq_some_iff.1 h

theorem le_foldl_max {entries : List Nat} (start : Nat) (h : n ∈ entries) :
    n ≤ entries.foldl max start := by
  rw [List.foldl_max]
  exact (List.le_max?_getD_of_mem h).trans (le_max_right _ _)

theorem foldl_max_mem (entries : List Nat) (start : Nat) :
    entries.foldl max start = start ∨ entries.foldl max start ∈ entries := by
  induction entries generalizing start with
  | nil => exact .inl rfl
  | cons n entries ih =>
    rw [List.foldl_cons]
    rcases ih (max start n) with heq | hmem
    · rw [heq]
      rcases Nat.le_total n start with hle | hle
      · exact .inl (Nat.max_eq_left hle)
      · refine .inr ?_
        rw [Nat.max_eq_right hle]
        exact List.mem_cons_self
    · exact .inr (List.mem_cons_of_mem _ hmem)

/-- The listing gives a number of sealed segments between those at its start and at its end. -/
theorem findNewestSealedNumber_spec (h : findNewestSealedNumber schedule t = .ok n) :
    (schedule.source t).sealed.length ≤ n ∧ n ≤ (schedule.source (t + 1)).sealed.length := by
  have hlow : (schedule.source t).sealed.length ≤ (schedule.entries t).foldl max 0 := by
    cases hlength : (schedule.source t).sealed.length with
    | zero => exact Nat.zero_le _
    | succ k => exact le_foldl_max 0 (schedule.listed t k (hlength ▸ Nat.lt_succ_self k))
  unfold findNewestSealedNumber at h
  dsimp only at h
  split at h
  · cases h
  · split at h
    · rename_i hcount
      rw [List.eq_nil_of_length_eq_zero hcount] at hlow
      cases h
      exact ⟨hlow, Nat.zero_le _⟩
    · rename_i hcount
      split at h
      · cases h
      · rename_i hcontiguous
        obtain rfl := Except.ok.inj h
        refine ⟨hlow, ?_⟩
        rcases foldl_max_mem (schedule.entries t) 0 with hzero | hmem
        · simp [hzero, hcount] at hcontiguous
        · exact (schedule.exists_of_mem t _ hmem).2

/-! ## One line -/

variable {options : ReadJsonlSnapshotPageOptions} {path : SegmentName}

theorem readJsonlLineBeforeAsync_le {exclusiveOffset : Nat} :
    t ≤ (readJsonlLineBeforeAsync schedule options path exclusiveOffset identity t).2 := by
  unfold readJsonlLineBeforeAsync
  split
  · split
    · split
      · exact Nat.le_add_right _ _
      · split
        · exact Nat.le_add_right _ _
        · exact (Nat.le_add_right t 2).trans (Nat.le_add_right _ _)
    · exact Nat.le_refl _
  · exact Nat.le_refl _

/-- The line that is read is the last of the rows before the offset. -/
theorem readJsonlLineBeforeAsync_spec {next : Nat} {result : Option JsonlLineAtOffset}
    (hrest : RemainsAt (schedule.source t) identity size next offset rest)
    (h : readJsonlLineBeforeAsync schedule options path offset identity t = (.ok result, t')) :
    (result = none ∧ offset = 0) ∨ ∃ row rest', result = some row ∧ rest = rest' ++ [row.line] ∧
      RemainsAt (schedule.source t) identity size next row.startOffset rest' := by
  obtain ⟨file, hfile, hid, hoffset, hsize, rfl⟩ := hrest
  -- at every later time the file holds these bytes before the offset
  have hlater : ∀ i, size ≤ ((schedule.source (t + i)).bytesOf identity).length ∧
      ((schedule.source (t + i)).bytesOf identity).take (file.bytes.take offset).length =
        file.bytes.take offset := by
    intro i
    obtain ⟨file', hfile', hid', more, hmore⟩ :=
      (schedule.evolves_le (Nat.le_add_right t i)).file hfile
    have hbytes : (schedule.source (t + i)).bytesOf identity = file.bytes ++ more := by
      rw [← hid, ← hid', Directory.bytesOf_eq hfile', hmore]
    rw [hbytes, List.length_take, Nat.min_eq_left (hoffset.trans hsize), List.length_append]
    exact ⟨hsize.trans (Nat.le_add_right _ _),
      List.take_append_of_le_length (hoffset.trans hsize)⟩
  have hlength : (file.bytes.take offset).length = offset := by
    rw [List.length_take, Nat.min_eq_left (hoffset.trans hsize)]
  unfold readJsonlLineBeforeAsync at h
  split at h
  · split at h
    · split at h
      · cases h
      · split at h
        · cases h
        · rename_i opened _ hsame
          rw [ne_eq, not_not] at hsame
          obtain ⟨hline, -⟩ := Prod.mk.inj h
          rw [hsame] at hline
          nth_rewrite 1 [← hlength] at hline
          have hspec := readLineBefore_spec
            (hlength.trans_le (hoffset.trans (hlater 1).1))
            (fun i => Nat.add_assoc t 2 i ▸ (hlater (2 + i)).2) hline
          rcases hspec with ⟨hnone, hfront⟩ | ⟨row, hrow, hlt, hrows⟩
          · rw [hfront] at hlength
            exact .inl ⟨hnone, hlength.symm⟩
          · rw [hlength] at hlt
            rw [List.take_take, Nat.min_eq_left (Nat.le_of_lt hlt)] at hrows
            refine .inr ⟨row, _, hrow, ?_, file, hfile, hid, (Nat.le_of_lt hlt).trans hoffset,
              hsize, rfl⟩
            rw [hrows, List.append_assoc]
    · cases h
  · cases h

theorem locateAmong_le {candidates : List SegmentName} :
    t ≤ (locateAmong schedule identity candidates t).2 := by
  induction candidates generalizing t with
  | nil => exact Nat.le_refl _
  | cons path candidates ih =>
    unfold locateAmong
    split
    · exact Nat.le_add_right _ _
    · exact (Nat.le_add_right t 1).trans ih

theorem locateCurrentSegment_le :
    t ≤ (locateCurrentSegment schedule state t).2 := by
  unfold locateCurrentSegment
  split
  · exact Nat.le_refl _
  · dsimp only
    split <;>
      rename_i hlocate
    · exact locateAmong_le.trans_eq (congrArg Prod.snd hlocate)
    · exact locateAmong_le.trans_eq (congrArg Prod.snd hlocate)

section Line

variable {identity size next offset : Nat}

/-- What a read finds: the last of the rows that remain, or that nothing precedes the offset. -/
def LineOf (dir : Directory) (identity size next offset : Nat) (rest : List Bytes)
    (line : Option (JsonlLineAtOffset × SegmentName)) : Prop :=
  (line = none ∧ offset = 0) ∨ ∃ row path rest', line = some (row, path) ∧
    rest = rest' ++ [row.line] ∧ RemainsAt dir identity size next row.startOffset rest'

/-- A state at a position has a current segment. -/
theorem current_of_position (h : state.position = (some (identity, size), next, offset)) :
    ∃ segment, state.current = some segment ∧ segment.identity = identity ∧
      segment.size = size ∧ state.nextSealedNumber = next ∧ state.exclusiveOffset = offset := by
  obtain ⟨hsegment, hrest⟩ := Prod.mk.inj h
  obtain ⟨segment, hcurrent, hsame⟩ := Option.map_eq_some_iff.1 hsegment
  obtain ⟨hid, hsize⟩ := Prod.mk.inj hsame
  obtain ⟨hnext, hoffset⟩ := Prod.mk.inj hrest
  exact ⟨segment, hcurrent, hid, hsize, hnext, hoffset⟩

theorem lineOf_located {located : SnapshotCursorPayload} {result : Option JsonlLineAtOffset}
    {t₁ : Nat} (hposition : state.position = (some (identity, size), next, offset))
    (hrest : RemainsAt (schedule.source t) identity size next offset rest)
    (hlocate : locateCurrentSegment schedule state t = (.ok (path, located), t₁))
    (hread : readJsonlLineBeforeAsync schedule options path located.exclusiveOffset identity t₁ =
      (.ok result, t')) :
    t ≤ t' ∧ LineOf (schedule.source t') identity size next offset rest
      (result.map fun line => (line, path)) := by
  have hle : t ≤ t₁ := locateCurrentSegment_le.trans_eq (congrArg Prod.snd hlocate)
  have hle' : t₁ ≤ t' := readJsonlLineBeforeAsync_le.trans_eq (congrArg Prod.snd hread)
  obtain ⟨-, -, -, -, -, hoffset⟩ :=
    current_of_position ((locateCurrentSegment_position hlocate).trans hposition)
  rw [hoffset] at hread
  refine ⟨hle.trans hle', ?_⟩
  rcases readJsonlLineBeforeAsync_spec (hrest.evolves (schedule.evolves_le hle)) hread with
    ⟨rfl, hzero⟩ | ⟨row, rest', rfl, hrow, hrest'⟩
  · exact .inl ⟨rfl, hzero⟩
  · exact .inr ⟨row, path, rest', rfl, hrow, hrest'.evolves (schedule.evolves_le hle')⟩

theorem readCurrentLineLoop_spec {left : Nat} {line : Option (JsonlLineAtOffset × SegmentName)}
    (hposition : state.position = (some (identity, size), next, offset))
    (hrest : RemainsAt (schedule.source t) identity size next offset rest)
    (h : readCurrentLineLoop schedule options left state t = (.ok (line, state'), t')) :
    t ≤ t' ∧ LineOf (schedule.source t') identity size next offset rest line := by
  induction left generalizing state t with
  | zero =>
    obtain ⟨segment, hcurrent, rfl, -⟩ := current_of_position hposition
    unfold readCurrentLineLoop at h
    rw [hcurrent] at h
    dsimp only at h
    split at h
    · cases h
    · rename_i hlocate
      split at h
      · rename_i hread
        cases h
        exact lineOf_located hposition hrest hlocate hread
      · split at h <;> cases h
  | succ left ih =>
    obtain ⟨segment, hcurrent, rfl, -⟩ := current_of_position hposition
    unfold readCurrentLineLoop at h
    rw [hcurrent] at h
    dsimp only at h
    split at h
    · cases h
    · rename_i path located t₁ hlocate
      split at h
      · rename_i hread
        cases h
        exact lineOf_located hposition hrest hlocate hread
      · rename_i hread
        split at h
        · cases h
        · -- the race was lost: the state has the position that it had
          have hle := (locateCurrentSegment_le.trans_eq (congrArg Prod.snd hlocate)).trans
            (readJsonlLineBeforeAsync_le.trans_eq (congrArg Prod.snd hread))
          obtain ⟨hle', hline⟩ := ih ((locateCurrentSegment_position hlocate).trans hposition)
            (hrest.evolves (schedule.evolves_le hle)) h
          exact ⟨hle.trans hle', hline⟩

theorem nextLine_spec {line : Option (JsonlLineAtOffset × SegmentName)}
    (hposition : state.position = (some (identity, size), next, offset))
    (hrest : RemainsAt (schedule.source t) identity size next offset rest)
    (h : nextLine schedule options state t = (.ok (line, state'), t')) :
    t ≤ t' ∧ LineOf (schedule.source t') identity size next offset rest line := by
  unfold nextLine at h
  split at h
  · rename_i hzero
    cases h
    exact ⟨Nat.le_refl _, .inl ⟨rfl, (Prod.mk.inj (Prod.mk.inj hposition).2).2.symm.trans hzero⟩⟩
  · exact readCurrentLineLoop_spec hposition hrest h

end Line

/-! ## The next segment -/

/-- The segment before holds what remained before this one. -/
theorem advanceSegment_spec
    (hrest : RemainsAt (schedule.source t) identity size state.nextSealedNumber 0 rest)
    (h : advanceSegment schedule state t = (.ok state', t')) :
    t ≤ t' ∧ Remains (schedule.source t') state' rest := by
  obtain ⟨file, hfile, -, -, -, rfl⟩ := hrest
  unfold advanceSegment at h
  dsimp only at h
  split at h
  · rename_i hzero
    cases h
    refine ⟨Nat.le_refl _, ?_⟩
    rw [hzero]
    rfl
  · rename_i segmentNumber hnumber
    split at h
    · cases h
    · rename_i opened t₁ hopen
      cases h
      obtain ⟨k, before, hk, hbefore, -, hid, hsize, rfl⟩ := openSnapshotSegment_sealed hopen
      obtain rfl := Nat.succ.inj hk
      refine ⟨Nat.le_add_right _ _, ?_⟩
      have hremains : RemainsAt (schedule.source t) opened.identity opened.size segmentNumber
          opened.size ((schedule.source t).files.take (segmentNumber + 1) |>.flatMap
            (fun file => rows file.bytes)) := by
        refine ⟨before, hbefore, hid.symm, Nat.le_refl _, Nat.le_of_eq hsize, ?_⟩
        rw [hsize, List.take_length, List.take_add_one, hbefore, Option.toList_some,
          List.flatMap_append, List.flatMap_singleton]
      rw [hnumber, List.take_zero, rows, List.append_nil]
      exact hremains.evolves (schedule.evolves_le (Nat.le_add_right _ _))

/-! ## A page -/

theorem position_of_current (h : state.current = some segment) :
    state.position = (some (segment.identity, segment.size), state.nextSealedNumber,
      state.exclusiveOffset) := by
  rw [SnapshotCursorPayload.position, h]
  rfl

/-- **The lines of a page are the last of the rows that remain**, newest first, as many as asked
for unless no segment is left. -/
theorem readLines_spec {limit : Nat} {lines lines' : List JsonlSnapshotLine}
    (hrest : Remains (schedule.source t) state rest)
    (h : readLines schedule limit options state lines t = (.ok (state', lines'), t')) :
    t ≤ t' ∧ (limit ≤ lines'.length ∨ state'.current = none) ∧
      ∃ new rest', lines' = lines ++ new ∧ rest = rest' ++ (new.map (·.line)).reverse ∧
        Remains (schedule.source t') state' rest' := by
  fun_induction readLines schedule limit options state lines t generalizing rest with
  | case1 => cases h
  | case2 state lines t hmore row path state₁ t₁ hline ih =>
    obtain ⟨segment, hcurrent⟩ := Option.isSome_iff_exists.1 hmore.2
    obtain ⟨hle, hfound⟩ := nextLine_spec (position_of_current hcurrent)
      ((remains_some hcurrent).1 hrest) hline
    rcases hfound with ⟨hnone, -⟩ | ⟨row', path', before, hsome, rfl, hbefore⟩
    · cases hnone
    · cases hsome
      obtain ⟨hle', hdone, new, rest', rfl, rfl, hrest'⟩ :=
        ih (remains_of_position hcurrent (nextLine_position hline) hbefore) h
      refine ⟨hle.trans hle', hdone, ⟨path, row.line⟩ :: new, rest', ?_, ?_, hrest'⟩
      · rw [List.append_assoc]
        rfl
      · rw [List.map_cons, List.reverse_cons, List.append_assoc]
  | case3 => cases h
  | case4 state lines t hmore state₁ t₁ hline next t₂ hnext ih =>
    obtain ⟨segment, hcurrent⟩ := Option.isSome_iff_exists.1 hmore.2
    have hremains := (remains_some hcurrent).1 hrest
    obtain ⟨hle, hfound⟩ := nextLine_spec (position_of_current hcurrent) hremains hline
    obtain ⟨-, -, -, -, hnumber, -⟩ :=
      current_of_position ((nextLine_position hline).trans (position_of_current hcurrent))
    rcases hfound with ⟨-, hzero⟩ | ⟨row, path, before, hsome, -, -⟩
    · rw [hzero, ← hnumber] at hremains
      obtain ⟨hle', hnextRest⟩ :=
        advanceSegment_spec (hremains.evolves (schedule.evolves_le hle)) hnext
      obtain ⟨hle'', hrun⟩ := ih hnextRest h
      exact ⟨(hle.trans hle').trans hle'', hrun⟩
    · cases hsome
  | case5 state lines t hmore =>
    obtain ⟨hresult, rfl⟩ := Prod.mk.inj h
    obtain ⟨rfl, rfl⟩ := Prod.mk.inj (Except.ok.inj hresult)
    refine ⟨Nat.le_refl _, ?_, [], rest, (List.append_nil _).symm, (List.append_nil _).symm, hrest⟩
    by_cases hlength : lines.length < limit
    · exact .inr (Option.not_isSome_iff_eq_none.1 fun hsome => hmore ⟨hlength, hsome⟩)
    · exact .inl (Nat.le_of_not_lt hlength)

theorem passOver_spec (hrest : Remains (schedule.source t) state rest)
    (h : passOver schedule state t = (.ok state', t')) :
    t ≤ t' ∧ Remains (schedule.source t') state' rest := by
  fun_induction passOver schedule state t with
  | case1 => cases h
  | case2 state t hpass next t₁ hnext ih =>
    obtain ⟨segment, hcurrent⟩ := Option.isSome_iff_exists.1 hpass.1
    have hremains := (remains_some hcurrent).1 hrest
    rw [hpass.2] at hremains
    obtain ⟨hle, hnextRest⟩ := advanceSegment_spec hremains hnext
    obtain ⟨hle', hrun⟩ := ih hnextRest h
    exact ⟨hle.trans hle', hrun⟩
  | case3 =>
    cases h
    exact ⟨Nat.le_refl _, hrest⟩

theorem passOver_none (h : state.current = none) (t : Nat) :
    passOver schedule state t = (.ok state, t) := by
  rw [passOver, dif_neg]
  rintro ⟨hsome, -⟩
  rw [h] at hsome
  cases hsome

/-- What a page from a state gives, and what its cursor has still to give. -/
theorem readPageFrom_spec {limit : Nat} {page : JsonlSnapshotPage}
    (hrest : Remains (schedule.source t) state rest)
    (h : readPageFrom schedule limit options state t = (.ok page, t')) :
    t ≤ t' ∧ ∃ rest', rest = rest' ++ (page.lines.map (·.line)).reverse ∧
      (page.exhausted = true → rest' = []) ∧
      (page.exhausted = false → limit ≤ page.lines.length ∧
        ∃ next, page.nextCursor = some next ∧ Remains (schedule.source t') next rest') := by
  unfold readPageFrom at h
  split at h
  · cases h
  · rename_i after lines t₁ hlines
    obtain ⟨hle, hdone, new, rest', hnew, rfl, hafter⟩ := readLines_spec hrest hlines
    obtain rfl := hnew
    split at h
    · cases h
    · rename_i last t₂ hpass
      cases h
      obtain ⟨hle', hlast⟩ := passOver_spec hafter hpass
      refine ⟨hle.trans hle', rest', rfl, ?_, ?_⟩
      · intro hexhausted
        rw [Remains, Option.isNone_iff_eq_none.1 hexhausted] at hlast
        exact hlast
      · intro hmore
        have hcurrent : ¬ last.current.isNone = true := fun hnone => by
          rw [show last.current.isNone = false from hmore] at hnone
          cases hnone
        refine ⟨hdone.resolve_right fun hnone => ?_, last, if_neg hcurrent, hlast⟩
        rw [passOver_none hnone] at hpass
        cases hpass
        rw [hnone] at hmore
        cases hmore

/-! ## Capture -/

/-- A file with all its bytes was the last one at some moment, if it was so or yet to come
before. -/
theorem remainsAt_moment (hevolves : Evolves dir dir') {k : Nat}
    (hbefore : dir.files.length ≤ k + 1) (hfile : dir'.files[k]? = some file) :
    ∃ mid, Evolves dir mid ∧ Evolves mid dir' ∧
      RemainsAt dir' file.identity file.bytes.length k file.bytes.length mid.rows := by
  obtain ⟨mid, hmid, hlate, hfiles⟩ :=
    hevolves.moment hbefore (List.getElem?_eq_some_iff.1 hfile).1
  refine ⟨mid, hmid, hlate, file, hfile, rfl, Nat.le_refl _, Nat.le_refl _, ?_⟩
  rw [Directory.rows, hfiles, List.take_add_one, hfile, Option.toList_some, List.flatMap_append,
    List.flatMap_singleton, List.take_length]

theorem locatePinnedActive_spec {oldest newest : Nat} {located : Option Nat}
    (h : locatePinnedActive schedule identity oldest newest t = (located, t')) :
    t ≤ t' ∧ ∀ n, located = some n → ∃ k file, n = k + 1 ∧ file.identity = identity ∧
      (schedule.source t').files[k]? = some file := by
  induction newest generalizing t with
  | zero =>
    cases h
    exact ⟨Nat.le_refl _, nofun⟩
  | succ n ih =>
    unfold locatePinnedActive at h
    split at h
    · cases h
      exact ⟨Nat.le_refl _, nofun⟩
    · split at h
      · rename_i hfound
        cases h
        refine ⟨Nat.le_add_right _ _, fun m hm => ?_⟩
        obtain rfl := Option.some.inj hm
        obtain ⟨file, hfile, hid⟩ := readFileIdentity_eq hfound
        obtain ⟨k, hk, hsealed⟩ := file?_sealed hfile
        obtain ⟨file', hfile', hid', -⟩ :=
          (schedule.evolves t).file (Directory.sealed_file hsealed)
        exact ⟨k, file', hk, hid'.trans hid, hfile'⟩
      · obtain ⟨hle, hlocated⟩ := ih h
        exact ⟨(Nat.le_add_right t 1).trans hle, hlocated⟩

/-- What a capture has to give is what one moment of the capture held. -/
def CapturedBetween (schedule : Schedule) (t t' : Nat) (payload : SnapshotCursorPayload) : Prop :=
  ∃ mid, Evolves (schedule.source t) mid ∧ Evolves mid (schedule.source t') ∧
    Remains (schedule.source t') payload mid.rows

variable {payload : SnapshotCursorPayload}

theorem CapturedBetween.of_remainsAt (t₁ : Nat) (hle : t ≤ t₁) (hle' : t₁ ≤ t')
    (hcurrent : payload.current = some segment) {k : Nat}
    (hbefore : (schedule.source t).files.length ≤ k + 1)
    (hfile : (schedule.source t₁).files[k]? = some file) (hid : segment.identity = file.identity)
    (hsize : segment.size = file.bytes.length) (hnumber : payload.nextSealedNumber = k)
    (hoffset : payload.exclusiveOffset = segment.size) :
    CapturedBetween schedule t t' payload := by
  obtain ⟨mid, hmid, hlate, hremains⟩ :=
    remainsAt_moment (schedule.evolves_le hle) hbefore hfile
  have hevolves := schedule.evolves_le hle'
  refine ⟨mid, hmid, hlate.trans hevolves, ?_⟩
  rw [remains_some hcurrent, hid, hoffset, hsize, hnumber]
  exact hremains.evolves hevolves

/-- Without an active file, the newest sealed segment is the last file. -/
theorem length_files_of_none (h : dir.active = none) : dir.files.length = dir.sealed.length := by
  rw [Directory.length_files, h]
  rfl

theorem length_files_of_some (h : dir.active = some file) :
    dir.files.length = dir.sealed.length + 1 := by
  rw [Directory.length_files, h]
  rfl

theorem sealed_length_le (h : t ≤ t') :
    (schedule.source t).sealed.length ≤ (schedule.source t').sealed.length :=
  (schedule.evolves_le h).sealed_front.length_le

variable {sourceId : String} {rotationRetries : Nat}

theorem captureAttempt_spec {result : Option SnapshotCursorPayload}
    (h : captureAttempt schedule sourceId rotationRetries t = (.ok result, t')) :
    t ≤ t' ∧ ∀ payload, result = some payload → CapturedBetween schedule t t' payload := by
  unfold captureAttempt at h
  split at h
  rename_i active t₁ hopen
  dsimp only at h
  split at h
  · cases h
  · rename_i newest hnewest
    obtain ⟨hlow, hhigh⟩ := findNewestSealedNumber_spec hnewest
    split at h
    · -- nothing is active: the newest sealed segment is the last file
      obtain ⟨hnone, rfl⟩ := openSnapshotSegment_none hopen
      have hlength := (length_files_of_none hnone).trans_le
        ((sealed_length_le (Nat.le_add_right t 1)).trans hlow)
      split at h
      · split at h
        · cases h
        · rename_i current t₂ hcurrent
          cases h
          obtain ⟨k, file, rfl, -, hfile, hid, hsize, rfl⟩ := openSnapshotSegment_sealed hcurrent
          refine ⟨by omega, fun payload hpayload => ?_⟩
          obtain rfl := Option.some.inj hpayload
          exact .of_remainsAt (t + 1 + 1 + 1) (by omega) (Nat.le_add_right _ 1) rfl hlength hfile hid
            hsize rfl rfl
      · rename_i hzero
        cases h
        refine ⟨by omega, fun payload hpayload => ?_⟩
        obtain rfl := Option.some.inj hpayload
        refine ⟨schedule.source t, .refl, schedule.evolves_le (by omega), ?_⟩
        have hempty : (schedule.source t).files = [] :=
          List.eq_nil_of_length_eq_zero (by omega)
        rw [Directory.rows, hempty]
        rfl
    · -- the active file that was opened keeps its place
      rename_i segment
      obtain ⟨file, hactive, hid, hsize, rfl⟩ := openSnapshotSegment_active hopen
      obtain ⟨file', hfile', hid', -⟩ := (schedule.evolves t).file (Directory.active_file hactive)
      rw [← hid', Directory.bytesOf_eq hfile'] at hsize
      have hplace : ∀ {t₂ k : Nat} {other : JsonlFile}, t ≤ t₂ →
          (schedule.source t₂).files[k]? = some other → other.identity = segment.identity →
          k = (schedule.source t).sealed.length := by
        intro t₂ k other hle hother hsame
        obtain ⟨later, hlater, hlaterId, -⟩ :=
          (schedule.evolves_le hle).file (Directory.active_file hactive)
        exact Directory.files_unique hother hlater (hsame.trans (hid.trans hlaterId.symm))
      have hlength := Nat.le_of_eq (length_files_of_some hactive)
      split at h
      · rename_i n t₂ hlocated
        cases h
        obtain ⟨hle, hfound⟩ := locatePinnedActive_spec hlocated
        obtain ⟨k, other, rfl, hother, hotherFile⟩ := hfound n rfl
        refine ⟨by omega, fun payload hpayload => ?_⟩
        obtain rfl := Option.some.inj hpayload
        exact .of_remainsAt (t + 1) (by omega) (by omega) rfl hlength hfile'
          (hid.trans hid'.symm) hsize (hplace (by omega) hotherFile hother) rfl
      · rename_i t₂ hlocated
        obtain ⟨hle, -⟩ := locatePinnedActive_spec hlocated
        split at h
        · rename_i hstill
          cases h
          obtain ⟨other, hother, hotherId⟩ := readFileIdentity_eq hstill
          have hsealed := hplace (by omega) (Directory.active_file hother) hotherId
          have hearly : (schedule.source t).sealed.length ≤ _ :=
            sealed_length_le (Nat.le_add_right t 2)
          have hlate : _ ≤ (schedule.source t₂).sealed.length := sealed_length_le hle
          refine ⟨by omega, fun payload hpayload => ?_⟩
          obtain rfl := Option.some.inj hpayload
          refine .of_remainsAt (t + 1) (by omega) (by omega) rfl hlength hfile'
            (hid.trans hid'.symm) hsize ?_ rfl
          dsimp only
          omega
        · cases h
          exact ⟨by omega, nofun⟩

theorem captureLoop_spec {left : Nat}
    (h : captureLoop schedule sourceId rotationRetries left t = (.ok payload, t')) :
    t ≤ t' ∧ CapturedBetween schedule t t' payload := by
  induction left generalizing t with
  | zero =>
    unfold captureLoop at h
    split at h
    · cases h
    · rename_i hattempt
      cases h
      obtain ⟨hle, hcaptured⟩ := captureAttempt_spec hattempt
      exact ⟨hle, hcaptured _ rfl⟩
    · cases h
  | succ left ih =>
    unfold captureLoop at h
    split at h
    · cases h
    · rename_i hattempt
      cases h
      obtain ⟨hle, hcaptured⟩ := captureAttempt_spec hattempt
      exact ⟨hle, hcaptured _ rfl⟩
    · rename_i hattempt
      obtain ⟨hle, -⟩ := captureAttempt_spec hattempt
      obtain ⟨hle', mid, hmid, hlate, hremains⟩ := ih h
      exact ⟨hle.trans hle', mid, (schedule.evolves_le hle).trans hmid, hlate, hremains⟩

/-- **A captured state has to give the rows of one moment** of the capture. -/
theorem captureSnapshot_spec
    (h : captureSnapshot schedule sourceId rotationRetries t = (.ok payload, t')) :
    t ≤ t' ∧ CapturedBetween schedule t t' payload :=
  captureLoop_spec h

end Psfn.Snapshot
