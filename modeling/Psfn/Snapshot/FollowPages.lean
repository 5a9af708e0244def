import Psfn.Snapshot.PageRun

/-!
# Following the cursors

The pages that a reader gets who starts without a cursor and hands on the cursor of each page:
together they give the rows of one moment of the first page's capture, newest first, each once.
-/

namespace Psfn.Snapshot

variable (schedule : Schedule)

/-- A page that is asked for, some time after the one before it. -/
structure PageRequest where
  limit : Nat
  options : ReadJsonlSnapshotPageOptions
  pause : Nat

/-- The lines of the pages, and the cursor of the last one. -/
def followPages (sourceId : String) : List PageRequest → Option SnapshotCursorPayload → Nat →
    Except ReadError (List JsonlSnapshotLine × Option SnapshotCursorPayload)
  | [], cursor, _ => .ok ([], cursor)
  | request :: requests, cursor, t =>
    match readJsonlSnapshotPage schedule sourceId request.limit cursor request.options
        (t + request.pause) with
    | (.error failure, _) => .error failure
    | (.ok page, t) =>
      if page.exhausted then .ok (page.lines, none)
      else match followPages sourceId requests page.nextCursor t with
        | .error failure => .error failure
        | .ok (lines, last) => .ok (page.lines ++ lines, last)

variable {schedule} {sourceId : String}

theorem decodeCursor_eq {cursor state : SnapshotCursorPayload}
    (h : decodeCursor cursor sourceId = .ok state) : state = cursor := by
  unfold decodeCursor at h
  split at h
  · cases h
  · split at h
    · cases h
    · exact (Except.ok.inj h).symm

theorem readJsonlSnapshotPage_some {limit : Nat} {cursor : SnapshotCursorPayload}
    {options : ReadJsonlSnapshotPageOptions} {page : JsonlSnapshotPage} {t t' : Nat}
    (h : readJsonlSnapshotPage schedule sourceId limit (some cursor) options t = (.ok page, t')) :
    0 < limit ∧ readPageFrom schedule limit options cursor t = (.ok page, t') := by
  unfold readJsonlSnapshotPage at h
  split at h
  · cases h
  · rename_i hlimit
    dsimp only at h
    split at h
    · cases h
    · rename_i hdecode
      obtain ⟨hstate, rfl⟩ := Prod.mk.inj hdecode
      rw [decodeCursor_eq hstate] at h
      simp only [Bool.or_eq_true, decide_eq_true_eq, not_or] at hlimit
      exact ⟨Nat.pos_of_ne_zero hlimit.2, h⟩

theorem readJsonlSnapshotPage_none {limit : Nat} {options : ReadJsonlSnapshotPageOptions}
    {page : JsonlSnapshotPage} {t t' : Nat}
    (h : readJsonlSnapshotPage schedule sourceId limit none options t = (.ok page, t')) :
    0 < limit ∧ ∃ payload captured,
      captureSnapshot schedule sourceId options.rotationRetries t = (.ok payload, captured) ∧
        readPageFrom schedule limit options payload captured = (.ok page, t') := by
  unfold readJsonlSnapshotPage at h
  split at h
  · cases h
  · rename_i hlimit
    dsimp only at h
    split at h
    · cases h
    · rename_i payload captured hcapture
      simp only [Bool.or_eq_true, decide_eq_true_eq, not_or] at hlimit
      exact ⟨Nat.pos_of_ne_zero hlimit.2, payload, captured, hcapture, h⟩

/-- The pages that follow a cursor are the last of the rows that remain, newest first. -/
theorem followPages_remains {requests : List PageRequest} {cursor : SnapshotCursorPayload}
    {rest : List Bytes} {lines : List JsonlSnapshotLine} {last : Option SnapshotCursorPayload}
    {t : Nat} (hrest : Remains (schedule.source t) cursor rest)
    (h : followPages schedule sourceId requests (some cursor) t = .ok (lines, last)) :
    ∃ older, rest = older ++ (lines.map (·.line)).reverse ∧ (last = none → older = []) ∧
      (last.isSome → requests.length ≤ lines.length) := by
  induction requests generalizing cursor rest lines last t with
  | nil =>
    cases h
    exact ⟨rest, (List.append_nil _).symm, nofun, fun _ => Nat.le_refl _⟩
  | cons request requests ih =>
    unfold followPages at h
    split at h
    · cases h
    · rename_i page t' hpage
      obtain ⟨hlimit, hread⟩ := readJsonlSnapshotPage_some hpage
      obtain ⟨-, rest', rfl, hexhausted, hmore⟩ :=
        readPageFrom_spec (hrest.evolves (schedule.evolves_le (Nat.le_add_right _ _))) hread
      split at h
      · rename_i hdone
        cases h
        exact ⟨rest', rfl, fun _ => hexhausted hdone, nofun⟩
      · rename_i hdone
        obtain ⟨hlines, next, hnext, hremains⟩ := hmore (Bool.not_eq_true _ ▸ hdone)
        rw [hnext] at h
        split at h
        · cases h
        · rename_i hfollow
          cases h
          obtain ⟨older, rfl, hall, hcount⟩ := ih hremains hfollow
          refine ⟨older, ?_, hall, fun hsome => ?_⟩
          · rw [List.map_append, List.reverse_append, List.append_assoc]
          · have hrequests := hcount hsome
            rw [List.length_cons, List.length_append]
            omega

/-- **The pages of a snapshot** give the rows that the source held at one moment of the capture,
newest first, each once, the blank ones too; a page that is not the last gives a row at least. -/
theorem followPages_snapshot {request : PageRequest} {requests : List PageRequest}
    {lines : List JsonlSnapshotLine} {last : Option SnapshotCursorPayload} {t : Nat}
    (h : followPages schedule sourceId (request :: requests) none t = .ok (lines, last)) :
    ∃ payload captured mid older,
      captureSnapshot schedule sourceId request.options.rotationRetries (t + request.pause) =
        (.ok payload, captured) ∧
      Evolves (schedule.source (t + request.pause)) mid ∧ Evolves mid (schedule.source captured) ∧
      mid.rows.reverse = lines.map (·.line) ++ older ∧ (last = none → older = []) ∧
      (last.isSome → (request :: requests).length ≤ lines.length) := by
  unfold followPages at h
  split at h
  · cases h
  · rename_i page t' hpage
    obtain ⟨hlimit, payload, captured, hcapture, hread⟩ := readJsonlSnapshotPage_none hpage
    obtain ⟨-, mid, hmid, hlate, hremains⟩ := captureSnapshot_spec hcapture
    obtain ⟨-, rest', hrows, hexhausted, hmore⟩ := readPageFrom_spec hremains hread
    split at h
    · rename_i hdone
      cases h
      refine ⟨payload, captured, mid, [], hcapture, hmid, hlate, ?_, fun _ => rfl, nofun⟩
      rw [hrows, hexhausted hdone, List.nil_append, List.reverse_reverse, List.append_nil]
    · rename_i hdone
      obtain ⟨hlines, next, hnext, hremains'⟩ := hmore (Bool.not_eq_true _ ▸ hdone)
      rw [hnext] at h
      split at h
      · cases h
      · rename_i more last' hfollow
        cases h
        obtain ⟨older, rfl, hall, hcount⟩ := followPages_remains hremains' hfollow
        refine ⟨payload, captured, mid, older.reverse, hcapture, hmid, hlate, ?_, ?_, ?_⟩
        · rw [hrows, List.reverse_append, List.reverse_append, List.reverse_reverse,
            List.reverse_reverse, List.map_append, List.append_assoc]
        · exact fun hnone => List.reverse_eq_nil_iff.2 (hall hnone)
        · intro hsome
          have hrequests := hcount hsome
          rw [List.length_cons, List.length_append]
          omega

/-- A source that nothing changes. -/
def Schedule.still (dir : Directory) : Schedule where
  source _ := dir
  evolves _ := .refl
  entries _ := (List.range dir.sealed.length).map (· + 1)
  listed _ n hn := List.mem_map.2 ⟨n, List.mem_range.2 hn, rfl⟩
  exists_of_mem _ n hn := by
    obtain ⟨k, hk, rfl⟩ := List.mem_map.1 hn
    exact ⟨Nat.succ_pos k, List.mem_range.1 hk⟩

/-- Rows `a` and `b`, the first in a sealed segment. -/
def twoRows : Directory where
  sealed := [⟨1, [0x61, newline]⟩]
  active := some ⟨2, [0x62, newline]⟩
  identities := by decide

def oneByOne : PageRequest := ⟨1, ⟨65536, 1048576, 3⟩, 0⟩

theorem followPages_twoRows : followPages (.still twoRows) "room" [oneByOne, oneByOne] none 0 =
    .ok ([⟨.active, [0x62]⟩, ⟨.sealed 1, [0x61]⟩], none) := by
  decide +kernel

theorem followPages_snapshot_twoRows : ∃ payload captured mid older,
    captureSnapshot (.still twoRows) "room" 3 0 = (.ok payload, captured) ∧
      Evolves twoRows mid ∧ Evolves mid twoRows ∧ mid.rows.reverse = [[0x62], [0x61]] ++ older ∧
      ((none : Option SnapshotCursorPayload) = none → older = []) ∧
      ((none : Option SnapshotCursorPayload).isSome → 2 ≤ 2) :=
  followPages_snapshot followPages_twoRows

/-- One row, with no byte in it. -/
def blankRow : Directory where
  sealed := []
  active := some ⟨1, [newline]⟩
  identities := by decide

/-- A blank row is a row of its page. -/
theorem followPages_blankRow : ¬ ∀ (schedule : Schedule) (sourceId : String)
    (requests : List PageRequest) (lines : List JsonlSnapshotLine)
    (last : Option SnapshotCursorPayload),
    followPages schedule sourceId requests none 0 = .ok (lines, last) →
      ∀ line ∈ lines, line.line ≠ [] := by
  intro hnonblank
  have hpage : followPages (.still blankRow) "room" [oneByOne] none 0 =
      .ok ([⟨.active, []⟩], none) := by decide +kernel
  exact hnonblank _ _ _ _ _ hpage _ List.mem_cons_self rfl

end Psfn.Snapshot
