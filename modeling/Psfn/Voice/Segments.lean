import Psfn.Voice.Segmenter

/-!
# The segments of a round

A round of the reply segmenter: texts are pushed one after the other, and the buffer is flushed at
the end. Nothing is lost, and every cut is behind whitespace.

* `nextSegment_space` — a segment that leaves text behind ends in whitespace;
* `nextSegment_short` — a segment below the floor is a forced break of a full buffer;
* `segments_run` — what a whole round returns.
-/

namespace Psfn.Voice

open Psfn.Lib

variable (toLowerCase : Text → Text) (segmenter : ReplySegmenter)

/-! ## Cuts -/

/-- The text before the cut ends in whitespace. -/
def SpaceBefore (buffer : Text) (cut : Nat) : Prop :=
  ∃ u, (buffer.take cut).getLast? = some u ∧ isSpace u = true

variable {buffer : Text}

theorem spaceBefore_succ {p : Nat} {u : UInt16} (hu : buffer[p]? = some u)
    (hspace : isSpace u = true) : SpaceBefore buffer (p + 1) := by
  refine ⟨u, ?_, hspace⟩
  rw [List.getLast?_take, if_neg (Nat.succ_ne_zero p), Nat.add_sub_cancel, hu, Option.some_or]

/-- A loop over whitespace that moves ends behind whitespace. -/
theorem spaceBefore_skipWhile {k : Nat} (h : k < skipWhile isSpace buffer k) :
    SpaceBefore buffer (skipWhile isSpace buffer k) := by
  have hne : (buffer.drop k).takeWhile isSpace ≠ [] := by
    intro hnil
    rw [skipWhile, hnil] at h
    exact Nat.lt_irrefl k h
  have htaken := List.prefix_iff_eq_take.1 (List.takeWhile_prefix isSpace (l := buffer.drop k))
  have hlast := List.getLast?_eq_some_getLast hne
  refine ⟨_, ?_, List.mem_takeWhile_imp (List.getLast_mem hne)⟩
  rw [skipWhile, List.take_add, ← htaken, List.getLast?_append, hlast, Option.some_or]

variable {i cut : Nat} {final : Bool}

theorem trySentenceCut_space (h : trySentenceCut toLowerCase segmenter buffer i final = some cut) :
    (final = true ∧ cut = buffer.length) ∨ SpaceBefore buffer cut := by
  have hmoved := trySentenceCut_gt toLowerCase segmenter h
  unfold trySentenceCut at h
  split at h
  · cases h
  · split at h
    · obtain rfl := Option.some.inj h
      exact .inr (spaceBefore_skipWhile hmoved)
    · split at h
      · cases h
      · split at h
        · cases h
        · dsimp only at h
          split at h
          · rename_i hk
            obtain rfl := Option.some.inj h
            exact .inr (spaceBefore_skipWhile hk)
          · split at h
            · rename_i hfinal
              obtain rfl := Option.some.inj h
              rw [Bool.and_eq_true] at hfinal
              exact .inl ⟨hfinal.1, rfl⟩
            · cases h

theorem scan_space (h : scan toLowerCase segmenter buffer final i = some cut) :
    (final || segmenter.minSegmentLength ≤ cut) = true ∧
      ((final = true ∧ cut = buffer.length) ∨ SpaceBefore buffer cut) := by
  induction i using scan.induct toLowerCase segmenter buffer final with
  | case1 i hlt next htry htaken =>
    rw [scan_eq, if_pos hlt, htry, Option.elim_some, if_pos htaken] at h
    obtain rfl := Option.some.inj h
    exact ⟨htaken, trySentenceCut_space toLowerCase segmenter htry⟩
  | case2 i hlt next htry hshort ih =>
    rw [scan_eq, if_pos hlt, htry, Option.elim_some, if_neg hshort] at h
    exact ih h
  | case3 i hlt htry ih =>
    rw [scan_eq, if_pos hlt, htry, Option.elim_none] at h
    exact ih h
  | case4 i hlt =>
    rw [scan_eq, if_neg hlt] at h
    cases h

theorem skipWhile_le {p : UInt16 → Bool} {k : Nat} (hk : k ≤ buffer.length) :
    skipWhile p buffer k ≤ buffer.length := by
  have htaken := (List.takeWhile_sublist p (l := buffer.drop k)).length_le
  rw [List.length_drop] at htaken
  rw [skipWhile]
  omega

theorem trySentenceCut_le (h : trySentenceCut toLowerCase segmenter buffer i final = some cut) :
    cut ≤ buffer.length := by
  unfold trySentenceCut at h
  split at h
  · cases h
  · rename_i ch hch
    have hlt := (List.getElem?_eq_some_iff.1 hch).1
    split at h
    · obtain rfl := Option.some.inj h
      exact skipWhile_le hlt.le
    · split at h
      · cases h
      · split at h
        · cases h
        · dsimp only at h
          split at h
          · obtain rfl := Option.some.inj h
            exact skipWhile_le (skipWhile_le (skipWhile_le hlt))
          · split at h
            · obtain rfl := Option.some.inj h
              exact Nat.le_refl _
            · cases h

theorem scan_le (h : scan toLowerCase segmenter buffer final i = some cut) :
    cut ≤ buffer.length := by
  induction i using scan.induct toLowerCase segmenter buffer final with
  | case1 i hlt next htry htaken =>
    rw [scan_eq, if_pos hlt, htry, Option.elim_some, if_pos htaken] at h
    obtain rfl := Option.some.inj h
    exact trySentenceCut_le toLowerCase segmenter htry
  | case2 i hlt next htry hshort ih =>
    rw [scan_eq, if_pos hlt, htry, Option.elim_some, if_neg hshort] at h
    exact ih h
  | case3 i hlt htry ih =>
    rw [scan_eq, if_pos hlt, htry, Option.elim_none] at h
    exact ih h
  | case4 i hlt =>
    rw [scan_eq, if_neg hlt] at h
    cases h

theorem clauseCutAt_spaceBefore {p : Nat} (h : clauseCutAt buffer p = some cut) :
    SpaceBefore buffer cut := by
  unfold clauseCutAt at h
  split at h
  · cases h
  · split at h
    · cases h
    · split at h
      · cases h
      · split at h
        · rename_i hspace
          obtain rfl := Option.some.inj h
          obtain ⟨u, hu, hisSpace⟩ := (Option.any_eq_true _ _).1 hspace
          obtain ⟨hlt, hget⟩ := List.getElem?_eq_some_iff.1 hu
          refine spaceBefore_skipWhile ?_
          rw [skipWhile, List.drop_eq_getElem_cons hlt, hget, List.takeWhile_cons_of_pos hisSpace,
            List.length_cons]
          omega
        · cases h

theorem clauseCut_spaceBefore {indices : List Nat} {start : Option Nat}
    (h : indices.foldl (fun cut p => (clauseCutAt buffer p).or cut) start = some cut) :
    start = some cut ∨ SpaceBefore buffer cut := by
  induction indices generalizing start with
  | nil => exact .inl h
  | cons p rest ih =>
    rw [List.foldl_cons] at h
    rcases ih h with hstart | hspace
    · cases hcut : clauseCutAt buffer p with
      | none =>
        rw [hcut, Option.none_or] at hstart
        exact .inl hstart
      | some cut' =>
        rw [hcut, Option.some_or] at hstart
        obtain rfl := Option.some.inj hstart
        exact .inr (clauseCutAt_spaceBefore hcut)
    · exact .inr hspace

/-- A forced break is behind whitespace. -/
theorem forcedBreak_space (h : forcedBreak buffer = some cut) :
    SpaceBefore buffer cut := by
  unfold forcedBreak at h
  dsimp only at h
  cases hclause : (List.range buffer.length).foldl (fun cut p => (clauseCutAt buffer p).or cut)
      none with
  | some clauseCut =>
    rw [hclause, Option.some_or] at h
    obtain rfl := Option.some.inj h
    exact (clauseCut_spaceBefore hclause).resolve_left nofun
  | none =>
    rw [hclause, Option.none_or] at h
    obtain ⟨lastWs, hfound, rfl⟩ := Option.map_eq_some_iff.1 h
    have hany : (buffer[lastWs]?).any isSpace = true :=
      List.find?_some (p := fun p => (buffer[p]?).any isSpace) hfound
    obtain ⟨u, hu, hspace⟩ := (Option.any_eq_true _ _).1 hany
    exact spaceBefore_succ hu hspace

/-! ## Segments -/

def EndsInSpace (segment : Text) : Prop := ∃ u, segment.getLast? = some u ∧ isSpace u = true

/-- The segment is a forced break: the buffer is full, and has no sentence boundary to take. -/
def Forced (held segment : Text) : Prop :=
  segmenter.maxBufferLength ≤ held.length ∧ scan toLowerCase segmenter held false 0 = none ∧
    ∃ cut, forcedBreak held = some cut ∧ segment = held.take cut

/-- **A segment that leaves text behind ends in whitespace.** -/
theorem nextSegment_space {segment rest : Text}
    (h : nextSegment toLowerCase segmenter final buffer = some (segment, rest)) :
    (final = true ∧ rest = []) ∨ EndsInSpace segment := by
  unfold nextSegment at h
  split at h
  · cases h
  · split at h
    · rename_i cut hscan
      obtain ⟨rfl, rfl⟩ := Prod.mk.inj (Option.some.inj h)
      rcases (scan_space toLowerCase segmenter hscan).2 with ⟨hfinal, rfl⟩ | hspace
      · exact .inl ⟨hfinal, List.drop_length⟩
      · exact .inr hspace
    · split at h
      · rename_i hfinal
        obtain ⟨rfl, rfl⟩ := Prod.mk.inj (Option.some.inj h)
        exact .inl ⟨hfinal, rfl⟩
      · split at h
        · obtain ⟨cut, hcut, hpair⟩ := Option.map_eq_some_iff.1 h
          obtain ⟨rfl, rfl⟩ := Prod.mk.inj hpair
          exact .inr (forcedBreak_space hcut)
        · cases h

/-- **A segment below the floor is a forced break.** -/
theorem nextSegment_short {segment rest : Text}
    (h : nextSegment toLowerCase segmenter false buffer = some (segment, rest))
    (hshort : segment.length < segmenter.minSegmentLength) :
    Forced toLowerCase segmenter buffer segment := by
  unfold nextSegment at h
  split at h
  · cases h
  · split at h
    · rename_i cut hscan
      obtain ⟨rfl, rfl⟩ := Prod.mk.inj (Option.some.inj h)
      obtain ⟨htaken, hspace⟩ := scan_space toLowerCase segmenter hscan
      rw [Bool.false_or, decide_eq_true_eq] at htaken
      have hbound := scan_le toLowerCase segmenter hscan
      rw [List.length_take_of_le hbound] at hshort
      omega
    · rename_i hscan
      split at h
      · cases ‹false = true›
      · split at h
        · rename_i hfull
          obtain ⟨cut, hcut, hpair⟩ := Option.map_eq_some_iff.1 h
          obtain ⟨rfl, rfl⟩ := Prod.mk.inj hpair
          exact ⟨hfull, hscan, cut, hcut, rfl⟩
        · cases h

/-- A buffer that lets nothing out is not full, or is one token. -/
theorem nextSegment_none (h : nextSegment toLowerCase segmenter false buffer = none) :
    buffer.length < segmenter.maxBufferLength ∨ ∀ u ∈ buffer, isSpace u = false := by
  unfold nextSegment at h
  split at h
  · rename_i hnil
    refine .inr fun u hu => ?_
    rw [hnil] at hu
    exact absurd hu List.not_mem_nil
  · split at h
    · cases h
    · split at h
      · cases h
      · split at h
        · exact .inr (forcedBreak_eq_none_iff.1 (Option.map_eq_none_iff.1 h))
        · rename_i hfull
          exact .inl (Nat.lt_of_not_le hfull)

/-! ## A round -/

/-- Mid-stream every segment ends in whitespace, and one below the floor is forced out of what is
held when the segments before it are out. -/
theorem drain_pushed (buffer : Text) :
    ∀ before segment after,
      (drain toLowerCase segmenter false buffer).1 = before ++ segment :: after →
        EndsInSpace segment ∧ (segment.length < segmenter.minSegmentLength →
          ∃ held, before.flatten ++ held = buffer ∧ Forced toLowerCase segmenter held segment) := by
  induction buffer using drain.induct toLowerCase segmenter false with
  | case1 buffer h =>
    intro before segment after hsegments
    rw [drain_none toLowerCase segmenter h] at hsegments
    cases before <;> cases hsegments
  | case2 buffer next h ih =>
    obtain ⟨hbuffer, -⟩ := nextSegment_spec toLowerCase segmenter h
    intro before segment after hsegments
    rw [drain_some toLowerCase segmenter h] at hsegments
    cases before with
    | nil =>
      obtain ⟨rfl, -⟩ := List.cons.inj hsegments
      refine ⟨(nextSegment_space toLowerCase segmenter h).resolve_left fun hfinal =>
        Bool.false_ne_true hfinal.1, fun hshort => ?_⟩
      exact ⟨buffer, rfl, nextSegment_short toLowerCase segmenter h hshort⟩
    | cons first before =>
      obtain ⟨rfl, hrest⟩ := List.cons.inj hsegments
      obtain ⟨hspace, hforced⟩ := ih before segment after hrest
      refine ⟨hspace, fun hshort => ?_⟩
      obtain ⟨held, hheld, hforced⟩ := hforced hshort
      exact ⟨held, by rw [List.flatten_cons, List.append_assoc, hheld, hbuffer], hforced⟩

/-- At the end every segment but the last ends in whitespace. -/
theorem drain_flushed (buffer : Text) :
    ∀ segment ∈ (drain toLowerCase segmenter true buffer).1.dropLast, EndsInSpace segment := by
  induction buffer using drain.induct toLowerCase segmenter true with
  | case1 buffer h =>
    rw [drain_none toLowerCase segmenter h]
    exact fun segment hmem => absurd hmem List.not_mem_nil
  | case2 buffer next h ih =>
    rw [drain_some toLowerCase segmenter h]
    rcases nextSegment_space toLowerCase segmenter h with ⟨-, hrest⟩ | hspace
    · -- nothing is left behind, so this is the last segment
      have hnone : nextSegment toLowerCase segmenter true next.2 = none := by
        rw [hrest]
        exact if_pos rfl
      rw [drain_none toLowerCase segmenter hnone]
      exact fun segment hmem => absurd hmem List.not_mem_nil
    · intro segment hmem
      cases hsegments : (drain toLowerCase segmenter true next.2).1 with
      | nil =>
        rw [hsegments] at hmem
        exact absurd hmem List.not_mem_nil
      | cons second others =>
        rw [hsegments, List.dropLast_cons_of_ne_nil (List.cons_ne_nil _ _)] at hmem
        rcases List.mem_cons.1 hmem with rfl | hmem
        · exact hspace
        · rw [hsegments] at ih
          exact ih segment hmem

/-- A push: the text that is drained, the segments it returns, and the buffer after it. -/
structure Push where
  drained  : Text
  segments : List Text
  buffer   : Text

/-- Texts that are pushed one after the other. -/
def pushTexts (buffer : Text) : List Text → List Push
  | [] => []
  | pushed :: rest =>
    ⟨buffer ++ pushed, (pushText toLowerCase segmenter buffer pushed).1,
        (pushText toLowerCase segmenter buffer pushed).2⟩ ::
      pushTexts (pushText toLowerCase segmenter buffer pushed).2 rest

/-- The buffer after the pushes. -/
def bufferAfter (buffer : Text) (pushes : List Push) : Text :=
  (pushes.getLast?.map (·.buffer)).getD buffer

theorem bufferAfter_cons (buffer : Text) (push : Push) (pushes : List Push) :
    bufferAfter buffer (push :: pushes) = bufferAfter push.buffer pushes := by
  cases pushes with
  | nil => rfl
  | cons next rest =>
    rw [bufferAfter, bufferAfter, List.getLast?_cons_cons, List.getLast?_eq_some_getLast
      (List.cons_ne_nil next rest)]
    rfl

/-- Every push drains its text, and what is pushed is returned or still held. -/
theorem pushTexts_spec (buffer : Text) (texts : List Text) :
    (∀ push ∈ pushTexts toLowerCase segmenter buffer texts,
      drain toLowerCase segmenter false push.drained = (push.segments, push.buffer)) ∧
    ((pushTexts toLowerCase segmenter buffer texts).flatMap (·.segments)).flatten ++
        bufferAfter buffer (pushTexts toLowerCase segmenter buffer texts) =
      buffer ++ texts.flatten := by
  induction texts generalizing buffer with
  | nil => exact ⟨fun push hmem => absurd hmem List.not_mem_nil, (List.append_nil buffer).symm⟩
  | cons pushed rest ih =>
    obtain ⟨hdrained, hheld⟩ := ih (pushText toLowerCase segmenter buffer pushed).2
    have happend := (drain_append toLowerCase segmenter false (buffer ++ pushed)).1
    refine ⟨fun push hmem => ?_, ?_⟩
    · rcases List.mem_cons.1 hmem with rfl | hmem
      · rfl
      · exact hdrained push hmem
    · rw [pushTexts, bufferAfter_cons, List.flatMap_cons, List.flatten_append, List.append_assoc,
        hheld, ← List.append_assoc, List.flatten_cons, ← List.append_assoc]
      exact congrArg (· ++ rest.flatten) happend

/-- **A round loses nothing and cuts no token**: its segments are the pushed text, only the last
one may end in a token, only a forced break is below the floor, and a full buffer that stays is one
token. -/
theorem segments_run (texts : List Text) :
    let pushes := pushTexts toLowerCase segmenter [] texts
    let flushed := (flushText toLowerCase segmenter (bufferAfter [] pushes)).1
    ((pushes.flatMap (·.segments)) ++ flushed).flatten = texts.flatten ∧
      (∀ segment ∈ pushes.flatMap (·.segments) ++ flushed, segment ≠ []) ∧
      (∀ segment ∈ pushes.flatMap (·.segments) ++ flushed.dropLast, EndsInSpace segment) ∧
      (∀ push ∈ pushes, ∀ before segment after, push.segments = before ++ segment :: after →
        segment.length < segmenter.minSegmentLength →
          ∃ held, before.flatten ++ held = push.drained ∧
            Forced toLowerCase segmenter held segment) ∧
      ∀ push ∈ pushes, push.buffer.length < segmenter.maxBufferLength ∨
        ∀ u ∈ push.buffer, isSpace u = false := by
  intro pushes flushed
  obtain ⟨hdrained, hheld⟩ := pushTexts_spec toLowerCase segmenter [] texts
  have hflush := drain_append toLowerCase segmenter true (bufferAfter [] pushes)
  have hempty := flushText_buffer toLowerCase segmenter (bufferAfter [] pushes)
  have hflushed : flushed.flatten = bufferAfter [] pushes := by
    have hall := hflush.1
    rw [show (drain toLowerCase segmenter true (bufferAfter [] pushes)).2 = [] from hempty,
      List.append_nil] at hall
    exact hall
  have hsegments : ∀ push ∈ pushes,
      push.segments = (drain toLowerCase segmenter false push.drained).1 ∧
        push.buffer = (drain toLowerCase segmenter false push.drained).2 := by
    intro push hmem
    rw [hdrained push hmem]
    exact ⟨rfl, rfl⟩
  refine ⟨?_, ?_, ?_, ?_, ?_⟩
  · rw [List.flatten_append, hflushed, hheld, List.nil_append]
  · intro segment hmem
    rcases List.mem_append.1 hmem with hmem | hmem
    · obtain ⟨push, hpush, hmem⟩ := List.mem_flatMap.1 hmem
      rw [(hsegments push hpush).1] at hmem
      exact (drain_append toLowerCase segmenter false push.drained).2.2 segment hmem
    · exact hflush.2.2 segment hmem
  · intro segment hmem
    rcases List.mem_append.1 hmem with hmem | hmem
    · obtain ⟨push, hpush, hmem⟩ := List.mem_flatMap.1 hmem
      obtain ⟨before, after, hsplit⟩ := List.append_of_mem hmem
      rw [(hsegments push hpush).1] at hsplit
      exact (drain_pushed toLowerCase segmenter push.drained before segment after hsplit).1
    · exact drain_flushed toLowerCase segmenter _ segment hmem
  · intro push hpush before segment after hsplit
    rw [(hsegments push hpush).1] at hsplit
    exact (drain_pushed toLowerCase segmenter push.drained before segment after hsplit).2
  · intro push hpush
    rw [(hsegments push hpush).2]
    exact nextSegment_none toLowerCase segmenter
      (drain_append toLowerCase segmenter false push.drained).2.1

end Psfn.Voice
