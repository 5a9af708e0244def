import Psfn.Voice.Segmenter

/-!
# The voice reply stream

`primitives/voice/reply-stream/reply-stream.ts`: deltas go through the stamp stripper and the
segmenter, and every segment that the content gates let through is committed. At the end of the
stream the stripper is flushed into the segmenter, and what that lets out is dropped. `gate` is
`evaluateSegmentGates` under the stream's gate configuration.

* `speaks_stripped_iff` — no delta throws, and the stream ends with the stripped generation if
  and only if the text that the stripper withholds lets no segment out of the segmenter;
* `speaks_stripped_of_room` — with nineteen units of room above the floor it always does;
* `withheld_stamp_lost` — a partial stamp is lost otherwise.
-/

namespace Psfn.Voice

open Psfn.Lib

/-! ## Types -/

inductive ContentGateReason where
  | missingImageAttachmentClaim | runtimeDatetimeContradiction
deriving DecidableEq, Repr

inductive ContentGateOutcome where
  | commit
  | heal (text : Text) (reason : ContentGateReason)
  | abort (reason : ContentGateReason)
deriving DecidableEq

inductive ReplyStreamState where
  | idle | streaming | finalized | aborted
deriving DecidableEq, Repr

def ReplyStreamState.text : ReplyStreamState → String
  | .idle => "idle"
  | .streaming => "streaming"
  | .finalized => "finalized"
  | .aborted => "aborted"

inductive ReplyStreamAbortReason where
  | gate (reason : ContentGateReason)
  | cancelled | external
deriving DecidableEq, Repr

structure CommittedSegment where
  seq            : Nat
  text           : Text
  turnId         : Text
  cancellationId : Text
deriving DecidableEq

structure PushResult where
  committed : List CommittedSegment
  aborted   : Option ReplyStreamAbortReason
deriving DecidableEq

inductive Disposition where
  | final (content : Text) (segments : List CommittedSegment)
  | abort (reason : ReplyStreamAbortReason) (segments : List CommittedSegment)
deriving DecidableEq

inductive ReplyStreamError where
  | error (message : String)
  /-- `ReplyStreamReconciliationError`. -/
  | reconciliation (committed finalContent : Text)
deriving DecidableEq

structure VoiceReplyStreamOptions where
  segmenter             : SegmenterConfig
  gate                  : Text → Text → ContentGateOutcome
  reconcileFinalContent : Bool

/-! ## The stream -/

/-- What `createVoiceReplyStream` closes over; `buffer` is the segmenter's. -/
structure VoiceReplyStream where
  segmenter             : ReplySegmenter
  gate                  : Text → Text → ContentGateOutcome
  reconcileFinalContent : Bool
  stripper              : Stripper := {}
  buffer                : Text := []
  state                 : ReplyStreamState := .idle
  turnId                : Text := []
  cancellationId        : Text := []
  seq                   : Nat := 0
  committed             : List CommittedSegment := []
  committedConcat       : Text := []
  /-- Source text of every segment that the gates consumed. -/
  consumedConcat        : Text := []
  healedClaim           : Bool := false
  /-- Every stripped delta seen. -/
  accumulatedStripped   : Text := []

variable (toLowerCase : Text → Text)

def createVoiceReplyStream (options : VoiceReplyStreamOptions) : Except String VoiceReplyStream :=
  match createReplySegmenter toLowerCase options.segmenter with
  | .error message => .error message
  | .ok segmenter =>
    .ok {
      segmenter := segmenter
      gate := options.gate
      reconcileFinalContent := options.reconcileFinalContent }

variable {stream : VoiceReplyStream} {deltas : List Text} {turnId cancellationId : Text}
  {options : VoiceReplyStreamOptions}

namespace VoiceReplyStream

def requireState (stream : VoiceReplyStream) (expected : ReplyStreamState) (op : String) :
    Except ReplyStreamError Unit :=
  if stream.state = expected then .ok ()
  else .error (.error (s!"VoiceReplyStream.{op} requires state '{expected.text}' but was " ++
    s!"'{stream.state.text}'"))

def begin (stream : VoiceReplyStream) (turnId cancellationId : Text) :
    Except ReplyStreamError VoiceReplyStream := do
  stream.requireState .idle "begin"
  if turnId = [] then
    .error (.error "VoiceReplyStream.begin requires a non-empty turnId")
  else if cancellationId = [] then
    .error (.error "VoiceReplyStream.begin requires a non-empty cancellationId")
  else .ok { stream with turnId, cancellationId, state := .streaming }

def commitSegment (stream : VoiceReplyStream) (text : Text) : VoiceReplyStream :=
  { stream with
    seq := stream.seq + 1
    committed := stream.committed ++ [{
      seq := stream.seq, text, turnId := stream.turnId, cancellationId := stream.cancellationId }]
    committedConcat := stream.committedConcat ++ text }

/-- A segment that the gates consumed, and what is spoken for it. -/
def consume (stream : VoiceReplyStream) (text spoken : Text) (healed : Bool) : VoiceReplyStream :=
  let consumed := { stream with
    consumedConcat := stream.consumedConcat ++ text
    healedClaim := stream.healedClaim || healed }
  if spoken = [] then consumed else consumed.commitSegment spoken

/-- What the gates make of a segment. -/
def spokenFor (text : Text) : ContentGateOutcome → Text × Bool
  | .heal healed _ => (healed, true)
  | _ => (text, false)

/-- Gate and commit; the reason if the stream forward-aborted. -/
def commitSegments (stream : VoiceReplyStream) :
    List Text → Except ReplyStreamError (VoiceReplyStream × Option ReplyStreamAbortReason)
  | [] => .ok (stream, none)
  | text :: segments =>
    match stream.gate stream.committedConcat text with
    | .abort reason => .ok ({ stream with state := .aborted }, some (.gate reason))
    | outcome =>
      let consumedConcat := stream.consumedConcat ++ text
      if consumedConcat.isPrefixOf stream.accumulatedStripped then
        let spoken := spokenFor text outcome
        (stream.consume text spoken.1 spoken.2).commitSegments segments
      else .error (.reconciliation consumedConcat stream.accumulatedStripped)

/-- The result names the segments that were committed since. -/
def pushDelta (stream : VoiceReplyStream) (text : Text) :
    Except ReplyStreamError (VoiceReplyStream × PushResult) := do
  stream.requireState .streaming "pushDelta"
  let stripped := stream.stripper.push text
  let pushed := pushText toLowerCase stream.segmenter stream.buffer stripped.1
  let (committed, aborted) ← commitSegments
    { stream with
      stripper := stripped.2
      accumulatedStripped := stream.accumulatedStripped ++ stripped.1
      buffer := pushed.2 } pushed.1
  return (committed, { committed := committed.committed.drop stream.committed.length, aborted })

/-- `MISSING_IMAGE_ATTACHMENT_CORRECTION`. -/
def missingImageAttachmentCorrection : Text := Voice.text
  ("I could not attach an image because no image tool completed successfully this turn. " ++
    "I need to call selfie_create or generate_image before saying an image is attached.")

/-- The stripper is flushed into the segmenter; the segments that this lets out are dropped. -/
def flushStripper (stream : VoiceReplyStream) : VoiceReplyStream :=
  let flushed := stream.stripper.flush
  if 0 < flushed.1.length then
    { stream with
      stripper := flushed.2
      accumulatedStripped := stream.accumulatedStripped ++ flushed.1
      buffer := (pushText toLowerCase stream.segmenter stream.buffer flushed.1).2 }
  else { stream with stripper := flushed.2 }

/-- What follows the segments of the tail. -/
def reconcile (stream : VoiceReplyStream) (finalContent : Text) :
    Except ReplyStreamError (VoiceReplyStream × Disposition) :=
  let spoken :=
    if stream.healedClaim && stream.committedConcat.all isSpace then
      stream.commitSegment missingImageAttachmentCorrection
    else stream
  if spoken.reconcileFinalContent && spoken.committedConcat ≠ finalContent then
    .error (.reconciliation spoken.committedConcat finalContent)
  else .ok ({ spoken with state := .finalized }, .final spoken.committedConcat spoken.committed)

def finalize (stream : VoiceReplyStream) (finalContent : Text) :
    Except ReplyStreamError (VoiceReplyStream × Disposition) := do
  stream.requireState .streaming "finalize"
  let flushed := stream.flushStripper toLowerCase
  let tail := flushText toLowerCase flushed.segmenter flushed.buffer
  let (committed, aborted) ← commitSegments { flushed with buffer := tail.2 } tail.1
  match aborted with
  | some reason => return (committed, .abort reason committed.committed)
  | none => committed.reconcile finalContent

def abort (stream : VoiceReplyStream) (reason : ReplyStreamAbortReason) :
    Except ReplyStreamError (VoiceReplyStream × Disposition) :=
  if stream.state = .aborted then .ok (stream, .abort reason stream.committed)
  else if stream.state ≠ .streaming then
    .error (.error (s!"VoiceReplyStream.abort requires state 'streaming' but was " ++
      s!"'{stream.state.text}'"))
  else .ok ({ stream with state := .aborted }, .abort reason stream.committed)

/-- The deltas of a turn, one after the other, up to one that throws. -/
def pushDeltas (stream : VoiceReplyStream) : List Text → Except ReplyStreamError VoiceReplyStream
  | [] => .ok stream
  | text :: deltas => do
    let (pushed, _) ← stream.pushDelta toLowerCase text
    pushed.pushDeltas deltas

/-! ## Gates that let every segment through -/

/-- What was committed is what was consumed, numbered from zero. -/
structure Spoken (stream : VoiceReplyStream) : Prop where
  gates     : ∀ committed candidate, stream.gate committed candidate = .commit
  consumed  : stream.committedConcat = stream.consumedConcat
  texts     : (stream.committed.map (·.text)).flatten = stream.committedConcat
  seqs      : stream.committed.map (·.seq) = List.range stream.committed.length
  seq       : stream.seq = stream.committed.length
  unhealed  : stream.healedClaim = false

/-- Segments that are consumed and spoken as they are. -/
def consumeAll (stream : VoiceReplyStream) : List Text → VoiceReplyStream
  | [] => stream
  | text :: segments => (stream.consume text text false).consumeAll segments

theorem Spoken.consume (h : stream.Spoken) (text : Text) :
    (stream.consume text text false).Spoken := by
  unfold VoiceReplyStream.consume
  dsimp only
  split
  · rename_i hempty
    refine ⟨h.gates, ?_, h.texts, h.seqs, h.seq, ?_⟩
    · rw [hempty, List.append_nil]
      exact h.consumed
    · rw [h.unhealed]
      rfl
  · refine ⟨h.gates, congrArg (· ++ text) h.consumed, ?_, ?_, ?_, ?_⟩
    · simp only [commitSegment, List.map_append, List.flatten_append, h.texts]
      simp
    · simp only [commitSegment, List.map_append, h.seqs, h.seq, List.length_append]
      exact List.range_succ.symm
    · simp only [commitSegment, h.seq, List.length_append, List.length_singleton]
    · simp only [commitSegment, h.unhealed, Bool.or_self]

theorem Spoken.consumeAll (h : stream.Spoken) (segments : List Text) :
    (stream.consumeAll segments).Spoken := by
  induction segments generalizing stream with
  | nil => exact h
  | cons text segments ih => exact ih (h.consume text)

/-- Consuming touches nothing but the log. -/
theorem consume_frame (stream : VoiceReplyStream) (text : Text) :
    stream.consume text text false =
      { stream with
        consumedConcat := stream.consumedConcat ++ text
        healedClaim := (stream.consume text text false).healedClaim
        seq := (stream.consume text text false).seq
        committed := (stream.consume text text false).committed
        committedConcat := (stream.consume text text false).committedConcat } := by
  unfold VoiceReplyStream.consume
  dsimp only
  split <;> rfl

theorem consumeAll_frame (stream : VoiceReplyStream) (segments : List Text) :
    stream.consumeAll segments =
      { stream with
        consumedConcat := stream.consumedConcat ++ segments.flatten
        healedClaim := (stream.consumeAll segments).healedClaim
        seq := (stream.consumeAll segments).seq
        committed := (stream.consumeAll segments).committed
        committedConcat := (stream.consumeAll segments).committedConcat } := by
  induction segments generalizing stream with
  | nil => simp [VoiceReplyStream.consumeAll]
  | cons text segments ih =>
    rw [VoiceReplyStream.consumeAll, ih, consume_frame]
    simp only [List.flatten_cons, List.append_assoc]

/-- **What commits is the consumed segments**, if it does not throw. -/
theorem commitSegments_ok (h : stream.Spoken) {segments : List Text}
    {result : VoiceReplyStream × Option ReplyStreamAbortReason}
    (hcommit : stream.commitSegments segments = .ok result) :
    result = (stream.consumeAll segments, none) := by
  induction segments generalizing stream with
  | nil => exact (Except.ok.inj hcommit).symm
  | cons text segments ih =>
    rw [commitSegments, h.gates] at hcommit
    dsimp only at hcommit
    split at hcommit
    · exact ih (h.consume text) hcommit
    · cases hcommit

/-- Segments that go on along the stripped generation do not throw. -/
theorem commitSegments_eq (h : stream.Spoken) {segments : List Text}
    (hfront : stream.consumedConcat ++ segments.flatten <+: stream.accumulatedStripped) :
    stream.commitSegments segments = .ok (stream.consumeAll segments, none) := by
  induction segments generalizing stream with
  | nil => rfl
  | cons text segments ih =>
    have hnext := ih (h.consume text) (by
      rw [consume_frame]
      simpa only [List.flatten_cons, List.append_assoc] using hfront)
    have hconsumed : (stream.consumedConcat ++ text).isPrefixOf stream.accumulatedStripped = true := by
      refine List.isPrefixOf_iff_prefix.2 (List.IsPrefix.trans ?_ hfront)
      rw [List.flatten_cons, ← List.append_assoc]
      exact List.prefix_append _ _
    rw [commitSegments, h.gates]
    dsimp only
    rw [if_pos hconsumed]
    exact hnext

/-! ## The deltas -/

/-- The stream after some deltas: what was consumed and what is buffered is what the stripper has
released. -/
structure Streams (deltas : List Text) (stream : VoiceReplyStream) : Prop extends
    stream.Spoken where
  streaming : stream.state = .streaming
  stripper  : stream.stripper = (({} : Stripper).pushAll deltas).2
  stripped  : stream.accumulatedStripped = (({} : Stripper).pushAll deltas).1
  buffered  : stream.consumedConcat ++ stream.buffer = stream.accumulatedStripped
  drained   : nextSegment toLowerCase stream.segmenter false stream.buffer = none

theorem pushAll_concat (s : Stripper) (deltas : List Text) (delta : Text) :
    s.pushAll (deltas ++ [delta]) =
      ((s.pushAll deltas).1 ++ ((s.pushAll deltas).2.push delta).1,
        ((s.pushAll deltas).2.push delta).2) := by
  induction deltas generalizing s with
  | nil => simp [Stripper.pushAll]
  | cons chunk deltas ih => simp only [List.cons_append, Stripper.pushAll, ih, List.append_assoc]

/-- The stream when a delta has been stripped and segmented, before the segments are committed. -/
def received (stream : VoiceReplyStream) (delta : Text) : VoiceReplyStream :=
  { stream with
    stripper := (stream.stripper.push delta).2
    accumulatedStripped := stream.accumulatedStripped ++ (stream.stripper.push delta).1
    buffer :=
      (pushText toLowerCase stream.segmenter stream.buffer (stream.stripper.push delta).1).2 }

/-- **A delta does not throw or abort**, and keeps the stream what it is. -/
theorem Streams.pushDelta (h : stream.Streams toLowerCase deltas) (delta : Text) :
    ∃ pushed result, stream.pushDelta toLowerCase delta = .ok (pushed, result) ∧
      result.aborted = none ∧ pushed.segmenter = stream.segmenter ∧
      pushed.Streams toLowerCase (deltas ++ [delta]) := by
  let segments :=
    (pushText toLowerCase stream.segmenter stream.buffer (stream.stripper.push delta).1).1
  obtain ⟨hflatten, hdrained, -⟩ := drain_append toLowerCase stream.segmenter false
    (stream.buffer ++ (stream.stripper.push delta).1)
  have hspoken : (stream.received toLowerCase delta).Spoken :=
    ⟨h.gates, h.consumed, h.texts, h.seqs, h.seq, h.unhealed⟩
  have hbuffered : stream.consumedConcat ++ segments.flatten ++
      (stream.received toLowerCase delta).buffer =
        (stream.received toLowerCase delta).accumulatedStripped := by
    show stream.consumedConcat ++ segments.flatten ++ _ =
      stream.accumulatedStripped ++ (stream.stripper.push delta).1
    rw [List.append_assoc, ← h.buffered, List.append_assoc]
    exact congrArg (stream.consumedConcat ++ ·) hflatten
  have hcommit : VoiceReplyStream.commitSegments _ segments = .ok (_, none) :=
    commitSegments_eq hspoken (hbuffered ▸ List.prefix_append _ _)
  have hstreams : ((stream.received toLowerCase delta).consumeAll segments).Streams toLowerCase
      (deltas ++ [delta]) := by
    refine ⟨hspoken.consumeAll segments, ?_, ?_, ?_, ?_, ?_⟩
    · rw [consumeAll_frame]
      exact h.streaming
    · rw [consumeAll_frame, pushAll_concat, ← h.stripper]
      rfl
    · rw [consumeAll_frame, pushAll_concat, ← h.stripper, ← h.stripped]
      rfl
    · rw [consumeAll_frame]
      exact hbuffered
    · rw [consumeAll_frame]
      exact hdrained
  let result : PushResult :=
    { committed := ((stream.received toLowerCase delta).consumeAll segments).committed.drop
        stream.committed.length
      aborted := none }
  refine ⟨_, result, ?_, rfl, by rw [consumeAll_frame]; rfl, hstreams⟩
  rw [VoiceReplyStream.pushDelta, requireState, if_pos h.streaming]
  show (commitSegments (stream.received toLowerCase delta) segments >>= _) = _
  rw [hcommit]
  rfl

/-- **No delta throws.** -/
theorem Streams.pushDeltas {before : List Text} (h : stream.Streams toLowerCase before)
    (deltas : List Text) :
    ∃ pushed, stream.pushDeltas toLowerCase deltas = .ok pushed ∧
      pushed.segmenter = stream.segmenter ∧ pushed.Streams toLowerCase (before ++ deltas) := by
  induction deltas generalizing before stream with
  | nil => exact ⟨stream, rfl, rfl, (List.append_nil before).symm ▸ h⟩
  | cons delta deltas ih =>
    obtain ⟨next, result, hpush, -, hsame, hnext⟩ := h.pushDelta toLowerCase delta
    obtain ⟨pushed, hpushes, hsegmenter, hpushed⟩ := ih hnext
    refine ⟨pushed, ?_, hsegmenter.trans hsame, ?_⟩
    · rw [VoiceReplyStream.pushDeltas, hpush]
      exact hpushes
    · rw [List.append_assoc] at hpushed
      exact hpushed

/-! ## The end of the stream -/

/-- The stream ends with the content: `final`, spoken in segments numbered from zero. -/
def FinalizesWith (stream : VoiceReplyStream) (content : Text) : Prop :=
  ∃ stream' segments, stream.finalize toLowerCase content = .ok (stream', .final content segments) ∧
    segments.map (·.seq) = List.range segments.length ∧
    (segments.map (·.text)).flatten = content

/-- What the stripper withholds fits into the segmenter's buffer, or has no space to break at. -/
def KeepsWithheld (stream : VoiceReplyStream) : Prop :=
  stream.stripper.candidate = [] ∨
    stream.buffer.length + stream.stripper.candidate.length < stream.segmenter.maxBufferLength ∨
    (stream.buffer = [] ∧ stream.stripper.candidate.length ≤ 4)

theorem Streams.sound (h : stream.Streams toLowerCase deltas) :
    stream.stripper.Sound stream.accumulatedStripped := by
  rw [h.stripper, h.stripped]
  exact pushAll_sound Stripper.sound_initial deltas

/-- What is withheld is a start of a stamp, and the buffer before it ends a line. -/
theorem Streams.withheld (h : stream.Streams toLowerCase deltas)
    (hcandidate : stream.stripper.candidate ≠ []) :
    Withheld stream.stripper.candidate ∧
      ∀ u, stream.buffer.getLast? = some u → u = unit '\n' := by
  have hsound := h.sound
  have hmode : stream.stripper.mode = .candidate := by
    by_contra hmode
    exact hcandidate (hsound.withheld hmode)
  refine ⟨⟨hsound.bracket hmode, hsound.prefixed, hsound.short⟩, fun u hu => ?_⟩
  refine hsound.lineStart (by rw [hmode]; nofun) u ?_
  rw [← h.buffered, List.getLast?_append, hu]
  rfl

/-- The text that is dropped at the end, and the buffer that is flushed. -/
theorem Streams.flushed (h : stream.Streams toLowerCase deltas) :
    ∃ dropped, dropped ++ (stream.flushStripper toLowerCase).buffer =
        stream.buffer ++ stream.stripper.candidate ∧
      (dropped = [] ↔ stream.KeepsWithheld) := by
  by_cases hcandidate : stream.stripper.candidate = []
  · have hbuffer : (stream.flushStripper toLowerCase).buffer = stream.buffer := by
      rw [flushStripper, Stripper.flush, hcandidate]
      rfl
    refine ⟨[], ?_, fun _ => .inl hcandidate, fun _ => rfl⟩
    rw [hbuffer, hcandidate, List.append_nil, List.nil_append]
  · obtain ⟨hwithheld, hline⟩ := h.withheld toLowerCase hcandidate
    have hkept := nextSegment_withheld toLowerCase stream.segmenter hwithheld hline h.drained
    obtain ⟨hflatten, -, hnonempty⟩ := drain_append toLowerCase stream.segmenter false
      (stream.buffer ++ stream.stripper.candidate)
    have hbuffer : (stream.flushStripper toLowerCase).buffer =
        (drain toLowerCase stream.segmenter false
          (stream.buffer ++ stream.stripper.candidate)).2 := by
      rw [flushStripper, Stripper.flush]
      dsimp only
      rw [if_pos (List.length_pos_of_ne_nil hcandidate)]
      rfl
    refine ⟨_, hbuffer ▸ hflatten, ?_⟩
    rw [KeepsWithheld, or_iff_right hcandidate, ← hkept]
    cases hnext : nextSegment toLowerCase stream.segmenter false
        (stream.buffer ++ stream.stripper.candidate) with
    | none =>
      rw [drain_none toLowerCase stream.segmenter hnext]
      exact ⟨fun _ => rfl, fun _ => rfl⟩
    | some next =>
      rw [drain_some toLowerCase stream.segmenter hnext]
      have hsegment := (nextSegment_spec toLowerCase stream.segmenter hnext).2
      refine ⟨fun hnil => absurd ?_ hsegment, nofun⟩
      exact (List.append_eq_nil_iff.1 hnil).1

/-- The frame of the flush. -/
theorem flushStripper_frame (stream : VoiceReplyStream) :
    stream.flushStripper toLowerCase =
      { stream with
        stripper := (stream.flushStripper toLowerCase).stripper
        buffer := (stream.flushStripper toLowerCase).buffer
        accumulatedStripped := stream.accumulatedStripped ++ stream.stripper.candidate } := by
  rw [flushStripper, Stripper.flush]
  dsimp only
  split
  · rfl
  · rename_i hempty
    have hnil : stream.stripper.candidate = [] :=
      List.eq_nil_of_length_eq_zero (Nat.eq_zero_of_not_pos hempty)
    rw [hnil, List.append_nil]

theorem reconcile_ok (h : stream.Spoken) {finalContent : Text}
    (hcontent : stream.committedConcat = finalContent) :
    stream.reconcile finalContent =
      .ok ({ stream with state := .finalized }, .final finalContent stream.committed) := by
  subst hcontent
  rw [reconcile, h.unhealed, Bool.false_and, if_neg Bool.false_ne_true, if_neg (by simp)]
  rw [h.unhealed]

theorem reconcile_final {stream' : VoiceReplyStream} (h : stream.Spoken)
    {finalContent content : Text} {segments : List CommittedSegment}
    (hfinal : stream.reconcile finalContent = .ok (stream', .final content segments)) :
    content = stream.committedConcat := by
  rw [reconcile, h.unhealed, Bool.false_and, if_neg Bool.false_ne_true] at hfinal
  split at hfinal
  · cases hfinal
  · have hdisposition := (Prod.mk.inj (Except.ok.inj hfinal)).2
    exact (Disposition.final.inj hdisposition).1.symm

/-- **The stream ends with all that the stripper releases exactly when the flush drops nothing.** -/
theorem Streams.finalizesWith_iff (h : stream.Streams toLowerCase deltas) :
    stream.FinalizesWith toLowerCase (stream.accumulatedStripped ++ stream.stripper.candidate) ↔
      stream.KeepsWithheld := by
  obtain ⟨dropped, hdropped, hkeeps⟩ := h.flushed toLowerCase
  rw [← hkeeps]
  let flushed := stream.flushStripper toLowerCase
  let tail := flushText toLowerCase flushed.segmenter flushed.buffer
  let ended : VoiceReplyStream := { flushed with buffer := tail.2 }
  have htail : tail.1.flatten = flushed.buffer := by
    have hflatten := (drain_append toLowerCase flushed.segmenter true flushed.buffer).1
    have hrest := flushText_buffer toLowerCase flushed.segmenter flushed.buffer
    unfold flushText at hrest
    rw [hrest, List.append_nil] at hflatten
    exact hflatten
  have hended : ended = { stream with
      stripper := flushed.stripper
      buffer := tail.2
      accumulatedStripped := stream.accumulatedStripped ++ stream.stripper.candidate } := by
    show ({ stream.flushStripper toLowerCase with buffer := tail.2 } : VoiceReplyStream) = _
    rw [flushStripper_frame]
  have hspoken : ended.Spoken := by
    rw [hended]
    exact ⟨h.gates, h.consumed, h.texts, h.seqs, h.seq, h.unhealed⟩
  have hconsumed : ended.consumedConcat = stream.consumedConcat := by rw [hended]
  have hcontent : stream.consumedConcat ++ (dropped ++ flushed.buffer) =
      stream.accumulatedStripped ++ stream.stripper.candidate := by
    rw [← h.buffered, List.append_assoc]
    exact congrArg (stream.consumedConcat ++ ·) hdropped
  have hcommitted : (ended.consumeAll tail.1).committedConcat =
      stream.consumedConcat ++ flushed.buffer := by
    rw [(hspoken.consumeAll tail.1).consumed, consumeAll_frame, hconsumed, htail]
  have hstate : stream.requireState .streaming "finalize" = .ok () := by
    rw [requireState, if_pos h.streaming]
  constructor
  · rintro ⟨stream', segments, hfinal, -, -⟩
    rw [finalize, hstate] at hfinal
    change (ended.commitSegments tail.1 >>= _) = _ at hfinal
    cases hcommit : ended.commitSegments tail.1 with
    | error failure =>
      rw [hcommit] at hfinal
      cases hfinal
    | ok result =>
      rw [hcommit, commitSegments_ok hspoken hcommit] at hfinal
      have hlost := reconcile_final (hspoken.consumeAll tail.1) hfinal
      rw [hcommitted, ← hcontent] at hlost
      have hsame := List.append_cancel_left hlost
      exact List.append_left_eq_self.1 hsame
  · rintro rfl
    have haccumulated : ended.accumulatedStripped =
        stream.accumulatedStripped ++ stream.stripper.candidate := by rw [hended]
    have hfront : ended.consumedConcat ++ tail.1.flatten <+: ended.accumulatedStripped := by
      rw [hconsumed, htail, haccumulated, ← hcontent]
      exact List.prefix_rfl
    have hspokenAll := hspoken.consumeAll tail.1
    rw [← hcontent, List.nil_append]
    refine ⟨{ ended.consumeAll tail.1 with state := .finalized },
      (ended.consumeAll tail.1).committed, ?_, hspokenAll.seqs, ?_⟩
    · rw [finalize, hstate]
      change (ended.commitSegments tail.1 >>= _) = _
      rw [commitSegments_eq hspoken hfront]
      exact reconcile_ok hspokenAll hcommitted
    · rw [hspokenAll.texts, hcommitted]

theorem begin_ok (hidle : stream.state = .idle) (hturn : turnId ≠ [])
    (hcancel : cancellationId ≠ []) :
    stream.begin turnId cancellationId =
      .ok { stream with turnId, cancellationId, state := .streaming } := by
  rw [VoiceReplyStream.begin, requireState, if_pos hidle]
  show (if turnId = [] then _ else _) = _
  rw [if_neg hturn, if_neg hcancel]

/-- A stream that was begun has streamed nothing. -/
theorem streams_begun (hcreate : createVoiceReplyStream toLowerCase options = .ok stream)
    (hgate : ∀ committed candidate, options.gate committed candidate = .commit)
    (turnId cancellationId : Text) : stream.state = .idle ∧
      ({ stream with turnId, cancellationId, state := .streaming } : VoiceReplyStream).Streams
        toLowerCase [] := by
  unfold createVoiceReplyStream at hcreate
  split at hcreate
  · cases hcreate
  · obtain rfl := Except.ok.inj hcreate
    refine ⟨rfl, ⟨hgate, rfl, rfl, rfl, rfl, rfl⟩, rfl, rfl, rfl, rfl, ?_⟩
    rw [nextSegment, if_pos rfl]

end VoiceReplyStream

open VoiceReplyStream

/-- The stream after the deltas of a turn. -/
theorem streams_of_deltas (hcreate : createVoiceReplyStream toLowerCase options = .ok stream)
    (hgate : ∀ committed candidate, options.gate committed candidate = .commit)
    (hturn : turnId ≠ []) (hcancel : cancellationId ≠ []) (deltas : List Text) :
    ∃ begun pushed, stream.begin turnId cancellationId = .ok begun ∧
      begun.pushDeltas toLowerCase deltas = .ok pushed ∧ pushed.segmenter = stream.segmenter ∧
      pushed.Streams toLowerCase deltas := by
  obtain ⟨hidle, hbegun⟩ := streams_begun toLowerCase hcreate hgate turnId cancellationId
  obtain ⟨pushed, hpushes, hsegmenter, hpushed⟩ := hbegun.pushDeltas toLowerCase deltas
  exact ⟨_, pushed, begin_ok hidle hturn hcancel, hpushes, hsegmenter, hpushed⟩

theorem finalizesWith_strip {pushed : VoiceReplyStream} (h : pushed.Streams toLowerCase deltas)
    (hlines : LineFeedsOnly deltas.flatten) :
    pushed.FinalizesWith toLowerCase (stripLeadingHistoryStamps deltas.flatten) ↔
      pushed.KeepsWithheld := by
  rw [← pushAll_flush hlines, ← h.stripped, ← h.stripper]
  exact h.finalizesWith_iff

/--
**A reply stream speaks the stripped generation if and only if it keeps what the stripper
withholds**: no delta throws, and the stream ends with the stripped text, in numbered segments,
exactly when the partial stamp at the end of the text fits into the segmenter's buffer behind
what is there, or has no space in it and nothing is there.
-/
theorem speaks_stripped_iff {options : VoiceReplyStreamOptions} {stream : VoiceReplyStream}
    (hcreate : createVoiceReplyStream toLowerCase options = .ok stream)
    (hgate : ∀ committed candidate, options.gate committed candidate = .commit)
    {turnId cancellationId : Text} (hturn : turnId ≠ []) (hcancel : cancellationId ≠ [])
    {deltas : List Text} (hlines : LineFeedsOnly deltas.flatten) :
    ∃ begun pushed, stream.begin turnId cancellationId = .ok begun ∧
      begun.pushDeltas toLowerCase deltas = .ok pushed ∧
      (pushed.FinalizesWith toLowerCase (stripLeadingHistoryStamps deltas.flatten) ↔
        pushed.KeepsWithheld) := by
  obtain ⟨begun, pushed, hbegin, hpushes, -, hpushed⟩ :=
    streams_of_deltas toLowerCase hcreate hgate hturn hcancel deltas
  exact ⟨begun, pushed, hbegin, hpushes, finalizesWith_strip toLowerCase hpushed hlines⟩

/-- **With nineteen units of room above the floor the stream always speaks the stripped
generation**: less than the floor is buffered, and less than a stamp is withheld. -/
theorem speaks_stripped_of_room (hcreate : createVoiceReplyStream toLowerCase options = .ok stream)
    (hgate : ∀ committed candidate, options.gate committed candidate = .commit)
    (hroom : stream.segmenter.minSegmentLength + 19 ≤ stream.segmenter.maxBufferLength)
    (hturn : turnId ≠ []) (hcancel : cancellationId ≠ []) (hlines : LineFeedsOnly deltas.flatten) :
    ∃ begun pushed, stream.begin turnId cancellationId = .ok begun ∧
      begun.pushDeltas toLowerCase deltas = .ok pushed ∧
      pushed.FinalizesWith toLowerCase (stripLeadingHistoryStamps deltas.flatten) := by
  obtain ⟨begun, pushed, hbegin, hpushes, hsegmenter, hpushed⟩ :=
    streams_of_deltas toLowerCase hcreate hgate hturn hcancel deltas
  refine ⟨begun, pushed, hbegin, hpushes, (finalizesWith_strip toLowerCase hpushed hlines).2 ?_⟩
  by_cases hcandidate : pushed.stripper.candidate = []
  · exact .inl hcandidate
  · obtain ⟨hwithheld, hline⟩ := hpushed.withheld toLowerCase hcandidate
    have hbuffered := drained_short toLowerCase pushed.segmenter hline hpushed.drained
    have hstamp := hwithheld.short
    have hlength : historyStamp.length = 20 := rfl
    rw [← hsegmenter] at hroom
    exact .inr (.inl (by omega))

/-! ## A partial stamp at the end -/

section Lost

def shortBuffer : VoiceReplyStreamOptions where
  segmenter := { minSegmentLength := .finite 1, maxBufferLength := .finite 6
                 extraAbbreviations := [] }
  gate := fun _ _ => .commit
  reconcileFinalContent := true

theorem shortBuffer_floor_lt : 1 < 6 := by decide

/-- The stream of `shortBuffer`, under any lower casing. -/
def shortStream : VoiceReplyStream where
  segmenter :=
    { minSegmentLength := 1, maxBufferLength := 6, abbreviations := builtinAbbreviations ++ []
      min_pos := Nat.one_pos, min_lt_max := shortBuffer_floor_lt }
  gate := fun _ _ => .commit
  reconcileFinalContent := true

theorem create_shortBuffer : createVoiceReplyStream toLowerCase shortBuffer = .ok shortStream := by
  rfl

theorem lineFeedsOnly_partialStamp : LineFeedsOnly [text "[Mon 0"].flatten :=
  lineFeedsOnly_of_all rfl

/-- **A partial stamp at the end of a reply is lost**: six units are withheld, and the flush fills
a buffer of six and drops the segment up to the space. -/
theorem withheld_stamp_lost :
    ¬ ∀ (toLowerCase : Text → Text) (options : VoiceReplyStreamOptions) (stream : VoiceReplyStream)
      (turnId cancellationId : Text) (deltas : List Text),
      createVoiceReplyStream toLowerCase options = .ok stream →
      (∀ committed candidate, options.gate committed candidate = .commit) →
      turnId ≠ [] → cancellationId ≠ [] → LineFeedsOnly deltas.flatten →
      ∃ begun pushed, stream.begin turnId cancellationId = .ok begun ∧
        begun.pushDeltas toLowerCase deltas = .ok pushed ∧
        pushed.FinalizesWith toLowerCase (stripLeadingHistoryStamps deltas.flatten) := by
  intro h
  have hgate : ∀ committed candidate, shortBuffer.gate committed candidate = .commit :=
    fun _ _ => rfl
  have hid : text "t" ≠ [] := by decide
  obtain ⟨begun, pushed, hbegin, hpushes, hfinal⟩ := h id shortBuffer shortStream (text "t")
    (text "t") [text "[Mon 0"] (create_shortBuffer id) hgate hid hid lineFeedsOnly_partialStamp
  obtain ⟨begun', pushed', hbegin', hpushes', hsegmenter, hpushed⟩ :=
    streams_of_deltas id (create_shortBuffer id) hgate hid hid [text "[Mon 0"]
  obtain rfl := Except.ok.inj (hbegin.symm.trans hbegin')
  obtain rfl := Except.ok.inj (hpushes.symm.trans hpushes')
  have hcandidate : pushed.stripper.candidate = text "[Mon 0" := by
    rw [hpushed.stripper]
    decide
  have hbuffer : pushed.buffer = [] := by
    have hreleased : (({} : Stripper).pushAll [text "[Mon 0"]).1 = [] := by decide
    have hbuffered := hpushed.buffered
    rw [hpushed.stripped, hreleased] at hbuffered
    exact (List.append_eq_nil_iff.1 hbuffered).2
  have hkeeps := (finalizesWith_strip id hpushed lineFeedsOnly_partialStamp).1 hfinal
  rw [KeepsWithheld, hcandidate, hbuffer, hsegmenter] at hkeeps
  exact absurd hkeeps (by decide)

/-- A text without a stamp is spoken as it is. -/
theorem speaks_stripped_iff_plain :
    ∃ begun pushed, shortStream.begin (text "t") (text "t") = .ok begun ∧
      begun.pushDeltas id [text "Hi", text "."] = .ok pushed ∧
      (pushed.FinalizesWith id (stripLeadingHistoryStamps [text "Hi", text "."].flatten) ↔
        pushed.KeepsWithheld) :=
  speaks_stripped_iff id (create_shortBuffer id) (fun _ _ => rfl) (by decide) (by decide)
    (lineFeedsOnly_of_all rfl)

end Lost

end Psfn.Voice
