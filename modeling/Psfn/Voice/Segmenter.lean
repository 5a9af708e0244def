import Mathlib.Tactic.Linarith
import Psfn.Lib.Js
import Psfn.Voice.HistoryStamps

/-!
# The reply segmenter

`primitives/voice/reply-stream/segmenter.ts`: text is buffered and cut into segments at confirmed
sentence boundaries, or at a clause or word break once the buffer is full. An index that is out
of range reads `none`, as the source reads `undefined`. `toLowerCase` is the runtime's.

* `drain_append` — the segments and the buffer are the pushed text;
* `nextSegment_withheld` — when a partial stamp that follows a drained buffer lets a segment out.
-/

namespace Psfn.Voice

open Psfn.Lib

/-! ## Units -/

def sentenceTerminators : List Char := ['.', '!', '?']

def clauseTerminators : List Char := [',', ';', ':', '—', '–']

def closers : List Char := ['\x22', '\x27', '”', '’', ')', ']', '}', '»']

def isOneOf (set : List Char) (u : UInt16) : Bool := set.any fun c => u = unit c

def isDigit (ch : Option UInt16) : Bool := ch.any fun u => unit '0' ≤ u && u ≤ unit '9'

/-- `\s`. -/
def isSpace (u : UInt16) : Bool :=
  (0x9 ≤ u && u ≤ 0xd) || u = 0x20 || u = 0xa0 || u = 0x1680 || (0x2000 ≤ u && u ≤ 0x200a) ||
    u = 0x2028 || u = 0x2029 || u = 0x202f || u = 0x205f || u = 0x3000 || u = 0xfeff

def isLetter (u : UInt16) : Bool :=
  (unit 'A' ≤ u && u ≤ unit 'Z') || (unit 'a' ≤ u && u ≤ unit 'z')

def builtinAbbreviations : List Text :=
  ["mr", "mrs", "ms", "dr", "prof", "sr", "jr", "st", "vs", "etc", "eg", "ie",
    "am", "pm", "us", "uk", "inc", "ltd", "co", "corp", "dept", "fig", "no",
    "vol", "al", "approx", "gen", "gov", "sen", "rep", "capt", "col", "cmdr",
    "lt", "sgt", "rev", "hon"].map text

/-! ## `createReplySegmenter` -/

structure SegmenterConfig where
  minSegmentLength   : JsNumber
  maxBufferLength    : JsNumber
  extraAbbreviations : List Text

/-- What `createReplySegmenter` closes over. -/
structure ReplySegmenter where
  minSegmentLength : Nat
  maxBufferLength  : Nat
  abbreviations    : List Text
  min_pos          : 1 ≤ minSegmentLength
  min_lt_max       : minSegmentLength < maxBufferLength

/-- `Number.isSafeInteger(value) && value >= 1`, with the integer. -/
def positiveSafeInteger : JsNumber → Option {n : Nat // 1 ≤ n}
  | .finite q =>
    if h : q.den = 1 ∧ q ≤ 9007199254740991 ∧ 1 ≤ q.num.toNat then some ⟨q.num.toNat, h.2.2⟩
    else none
  | _ => none

def withoutDots (t : Text) : Text := t.filter (· ≠ unit '.')

variable (toLowerCase : Text → Text)

def createReplySegmenter (config : SegmenterConfig) : Except String ReplySegmenter :=
  match positiveSafeInteger config.minSegmentLength with
  | none => .error "ReplySegmenter: minSegmentLength must be a positive safe integer"
  | some minSegmentLength =>
    match positiveSafeInteger config.maxBufferLength with
    | none => .error "ReplySegmenter: maxBufferLength must be a positive safe integer"
    | some maxBufferLength =>
      if h : minSegmentLength.1 < maxBufferLength.1 then
        .ok {
          minSegmentLength := minSegmentLength.1
          maxBufferLength := maxBufferLength.1
          abbreviations := builtinAbbreviations ++
            (config.extraAbbreviations.map fun raw => toLowerCase (withoutDots raw)).filter (· ≠ [])
          min_pos := minSegmentLength.2
          min_lt_max := h }
      else .error (s!"ReplySegmenter: maxBufferLength ({maxBufferLength.1}) must be greater than " ++
        s!"minSegmentLength ({minSegmentLength.1})")

/-! ## Boundaries -/

/-- `while (k < len && p(buffer[k])) k++`. -/
def skipWhile (p : UInt16 → Bool) (buffer : Text) (k : Nat) : Nat :=
  k + ((buffer.drop k).takeWhile p).length

/-- `buffer[i - 1]`. -/
def unitBefore (buffer : Text) : Nat → Option UInt16
  | 0 => none
  | i + 1 => buffer[i]?

variable (segmenter : ReplySegmenter)

def isAbbreviationBefore (buffer : Text) (dotIndex : Nat) : Bool :=
  let token := ((buffer.take dotIndex).reverse.takeWhile fun u => isLetter u || u = unit '.').reverse
  let token := toLowerCase (withoutDots token)
  token ≠ [] && (segmenter.abbreviations.contains token || (token.length = 1 && token.all isLetter))

/-- The cut index of a boundary that starts at `i`. -/
def trySentenceCut (buffer : Text) (i : Nat) (final : Bool) : Option Nat :=
  match buffer[i]? with
  | none => none
  | some ch =>
    if ch = unit '\n' then some (skipWhile isSpace buffer i)
    else if !isOneOf sentenceTerminators ch then none
    else if ch = unit '.' && (isDigit (unitBefore buffer i) && isDigit buffer[i + 1]?
        || isAbbreviationBefore toLowerCase segmenter buffer i) then none
    else
      let terminated := skipWhile (isOneOf sentenceTerminators) buffer (i + 1)
      let closed := skipWhile (isOneOf closers) buffer terminated
      let k := skipWhile isSpace buffer closed
      if closed < k then some k -- whitespace confirms the boundary
      else if final && closed = buffer.length then some buffer.length
      else none

/-- The cut of a clause that ends at `p`. -/
def clauseCutAt (buffer : Text) (p : Nat) : Option Nat :=
  match buffer[p]? with
  | none => none
  | some ch =>
    if !isOneOf clauseTerminators ch then none
    else if ch = unit ',' && isDigit (unitBefore buffer p) && isDigit buffer[p + 1]? then none
    else if (buffer[p + 1]?).any isSpace then some (skipWhile isSpace buffer (p + 1))
    else none

/-- Under runaway: the last clause boundary, else the last word boundary. -/
def forcedBreak (buffer : Text) : Option Nat :=
  let clauseCut :=
    (List.range buffer.length).foldl (fun cut p => (clauseCutAt buffer p).or cut) none
  let lastWs := (List.range buffer.length).reverse.find? fun p => (buffer[p]?).any isSpace
  clauseCut.or (lastWs.map (· + 1))

theorem le_skipWhile (p : UInt16 → Bool) (buffer : Text) (k : Nat) : k ≤ skipWhile p buffer k :=
  Nat.le_add_right _ _

theorem trySentenceCut_gt {buffer : Text} {i cut : Nat} {final : Bool}
    (h : trySentenceCut toLowerCase segmenter buffer i final = some cut) : i < cut := by
  unfold trySentenceCut at h
  split at h
  · cases h
  · rename_i ch hch
    obtain ⟨hlt, hget⟩ := List.getElem?_eq_some_iff.1 hch
    split at h
    · rename_i hnewline
      obtain rfl := Option.some.inj h
      have hspace : isSpace ch = true := by
        rw [hnewline]
        decide
      rw [skipWhile, List.drop_eq_getElem_cons hlt, hget, List.takeWhile_cons_of_pos hspace,
        List.length_cons]
      omega
    · split at h
      · cases h
      · split at h
        · cases h
        · have hterminated := le_skipWhile (isOneOf sentenceTerminators) buffer (i + 1)
          have hclosed := le_skipWhile (isOneOf closers) buffer
            (skipWhile (isOneOf sentenceTerminators) buffer (i + 1))
          dsimp only at h
          split at h
          · rename_i hk
            obtain rfl := Option.some.inj h
            omega
          · split at h
            · obtain rfl := Option.some.inj h
              exact hlt
            · cases h

/-- The first boundary at or after `i` that is taken. -/
def scan (buffer : Text) (final : Bool) (i : Nat) : Option Nat :=
  if i < buffer.length then
    match h : trySentenceCut toLowerCase segmenter buffer i final with
    | some cut =>
      if final || segmenter.minSegmentLength ≤ cut then some cut
      else scan buffer final cut -- too short mid-stream: merge forward
    | none => scan buffer final (i + 1)
  else none
termination_by buffer.length - i
decreasing_by
  · have hcut := trySentenceCut_gt toLowerCase segmenter h
    omega
  · omega

/-- The segment that is released, and the buffer afterwards. -/
def nextSegment (final : Bool) (buffer : Text) : Option (Text × Text) :=
  if buffer = [] then none
  else
    match scan toLowerCase segmenter buffer final 0 with
    | some cut => some (buffer.take cut, buffer.drop cut)
    | none =>
      if final then some (buffer, [])
      else if segmenter.maxBufferLength ≤ buffer.length then
        (forcedBreak buffer).map fun cut => (buffer.take cut, buffer.drop cut)
      else none

theorem scan_eq (buffer : Text) (final : Bool) (i : Nat) :
    scan toLowerCase segmenter buffer final i =
      if i < buffer.length then
        (trySentenceCut toLowerCase segmenter buffer i final).elim
          (scan toLowerCase segmenter buffer final (i + 1)) fun cut =>
          if final || segmenter.minSegmentLength ≤ cut then some cut
          else scan toLowerCase segmenter buffer final cut
      else none := by
  rw [scan]
  split
  · split
    · rename_i htry
      rw [htry]
      rfl
    · rename_i htry
      rw [htry]
      rfl
  · rfl

theorem scan_pos {buffer : Text} {final : Bool} {i cut : Nat}
    (h : scan toLowerCase segmenter buffer final i = some cut) : i < cut := by
  induction i using scan.induct toLowerCase segmenter buffer final with
  | case1 i hlt next htry htaken =>
    rw [scan_eq, if_pos hlt, htry, Option.elim_some, if_pos htaken] at h
    obtain rfl := Option.some.inj h
    exact trySentenceCut_gt toLowerCase segmenter htry
  | case2 i hlt next htry hshort ih =>
    rw [scan_eq, if_pos hlt, htry, Option.elim_some, if_neg hshort] at h
    exact (trySentenceCut_gt toLowerCase segmenter htry).trans (ih h)
  | case3 i hlt htry ih =>
    rw [scan_eq, if_pos hlt, htry, Option.elim_none] at h
    exact (Nat.lt_succ_self i).trans (ih h)
  | case4 i hlt =>
    rw [scan_eq, if_neg hlt] at h
    cases h

/-- A clause ends in whitespace. -/
theorem clauseCutAt_space {buffer : Text} {p cut : Nat} (h : clauseCutAt buffer p = some cut) :
    p < cut ∧ ∃ u ∈ buffer, isSpace u = true := by
  unfold clauseCutAt at h
  split at h
  · cases h
  · split at h
    · cases h
    · split at h
      · cases h
      · split at h
        · rename_i hspace
          obtain rfl := Option.some.inj h
          obtain ⟨u, hu, hisSpace⟩ := (Option.any_eq_true _ _).1 hspace
          exact ⟨le_skipWhile isSpace buffer (p + 1), u, List.mem_of_getElem? hu, hisSpace⟩
        · cases h

theorem clauseCut_space {buffer : Text} {indices : List Nat} {start : Option Nat} {cut : Nat}
    (h : indices.foldl (fun cut p => (clauseCutAt buffer p).or cut) start = some cut) :
    start = some cut ∨ (0 < cut ∧ ∃ u ∈ buffer, isSpace u = true) := by
  induction indices generalizing start with
  | nil => exact .inl h
  | cons p rest ih =>
    rw [List.foldl_cons] at h
    rcases ih h with hstart | hspace
    · cases hcut : clauseCutAt buffer p with
      | none =>
        rw [hcut, Option.none_or] at hstart
        exact .inl hstart
      | some cut' =>
        rw [hcut, Option.some_or] at hstart
        obtain rfl := Option.some.inj hstart
        obtain ⟨hpos, hspace⟩ := clauseCutAt_space hcut
        exact .inr ⟨Nat.zero_lt_of_lt hpos, hspace⟩
    · exact .inr hspace

theorem forcedBreak_pos {buffer : Text} {cut : Nat} (h : forcedBreak buffer = some cut) :
    0 < cut := by
  unfold forcedBreak at h
  dsimp only at h
  cases hclause : (List.range buffer.length).foldl (fun cut p => (clauseCutAt buffer p).or cut)
      none with
  | some clauseCut =>
    rw [hclause, Option.some_or] at h
    obtain rfl := Option.some.inj h
    exact ((clauseCut_space hclause).resolve_left nofun).1
  | none =>
    rw [hclause, Option.none_or] at h
    obtain ⟨lastWs, -, rfl⟩ := Option.map_eq_some_iff.1 h
    exact Nat.succ_pos lastWs

/-- **A break can be forced unless the buffer is one token.** -/
theorem forcedBreak_eq_none_iff {buffer : Text} :
    forcedBreak buffer = none ↔ ∀ u ∈ buffer, isSpace u = false := by
  have hlast : ((List.range buffer.length).reverse.find? fun p => (buffer[p]?).any isSpace) = none ↔
      ∀ u ∈ buffer, isSpace u = false := by
    rw [List.find?_eq_none]
    constructor
    · intro h u hu
      obtain ⟨p, hp, rfl⟩ := List.getElem_of_mem hu
      have hno := h p (by simpa using hp)
      rw [List.getElem?_eq_getElem hp, Option.any_some] at hno
      exact Bool.eq_false_iff.2 hno
    · intro h p _ hspace
      obtain ⟨u, hu, hisSpace⟩ := (Option.any_eq_true _ _).1 hspace
      rw [h u (List.mem_of_getElem? hu)] at hisSpace
      cases hisSpace
  unfold forcedBreak
  dsimp only
  cases hclause : (List.range buffer.length).foldl (fun cut p => (clauseCutAt buffer p).or cut)
      none with
  | some clauseCut =>
    obtain ⟨-, u, hu, hspace⟩ := (clauseCut_space hclause).resolve_left nofun
    refine ⟨nofun, fun h => ?_⟩
    rw [h u hu] at hspace
    cases hspace
  | none =>
    rw [Option.none_or, Option.map_eq_none_iff]
    exact hlast

/-! ## Segments -/

/-- **A segment is a non-empty start of the buffer.** -/
theorem nextSegment_spec {final : Bool} {buffer segment rest : Text}
    (h : nextSegment toLowerCase segmenter final buffer = some (segment, rest)) :
    segment ++ rest = buffer ∧ segment ≠ [] := by
  unfold nextSegment at h
  split at h
  · cases h
  · rename_i hbuffer
    have htaken : ∀ cut, 0 < cut → buffer.take cut ≠ [] := fun cut hcut hnil => by
      rcases List.take_eq_nil_iff.1 hnil with rfl | hnil
      · exact Nat.lt_irrefl 0 hcut
      · exact hbuffer hnil
    split at h
    · rename_i cut hscan
      obtain ⟨rfl, rfl⟩ := Prod.mk.inj (Option.some.inj h)
      exact ⟨List.take_append_drop cut buffer, htaken cut (scan_pos toLowerCase segmenter hscan)⟩
    · split at h
      · obtain ⟨rfl, rfl⟩ := Prod.mk.inj (Option.some.inj h)
        exact ⟨List.append_nil buffer, hbuffer⟩
      · split at h
        · obtain ⟨cut, hcut, hpair⟩ := Option.map_eq_some_iff.1 h
          obtain ⟨rfl, rfl⟩ := Prod.mk.inj hpair
          exact ⟨List.take_append_drop cut buffer, htaken cut (forcedBreak_pos hcut)⟩
        · cases h

theorem nextSegment_shorter {final : Bool} {buffer : Text} {next : Text × Text}
    (h : nextSegment toLowerCase segmenter final buffer = some next) :
    next.2.length < buffer.length := by
  obtain ⟨hbuffer, hsegment⟩ := nextSegment_spec toLowerCase segmenter h
  rw [← hbuffer, List.length_append]
  have hpos := List.length_pos_of_ne_nil hsegment
  omega

/-- Segments until there is none: the loop of `push` and of `flush`. -/
def drain (final : Bool) (buffer : Text) : List Text × Text :=
  match _h : nextSegment toLowerCase segmenter final buffer with
  | none => ([], buffer)
  | some next =>
    let drained := drain final next.2
    (next.1 :: drained.1, drained.2)
termination_by buffer.length
decreasing_by exact nextSegment_shorter toLowerCase segmenter _h

def pushText (buffer pushed : Text) : List Text × Text :=
  drain toLowerCase segmenter false (buffer ++ pushed)

def flushText (buffer : Text) : List Text × Text := drain toLowerCase segmenter true buffer

theorem drain_none {final : Bool} {buffer : Text}
    (h : nextSegment toLowerCase segmenter final buffer = none) :
    drain toLowerCase segmenter final buffer = ([], buffer) := by
  rw [drain]
  split
  · rfl
  · rename_i hsome
    rw [h] at hsome
    cases hsome

theorem drain_some {final : Bool} {buffer : Text} {next : Text × Text}
    (h : nextSegment toLowerCase segmenter final buffer = some next) :
    drain toLowerCase segmenter final buffer =
      (next.1 :: (drain toLowerCase segmenter final next.2).1,
        (drain toLowerCase segmenter final next.2).2) := by
  rw [drain]
  split
  · rename_i hnone
    rw [h] at hnone
    cases hnone
  · rename_i next' hsome
    obtain rfl := Option.some.inj (h.symm.trans hsome)
    rfl

/-- **The segments and what stays in the buffer are the buffer.** Nothing more can be released,
and no segment is empty. -/
theorem drain_append (final : Bool) (buffer : Text) :
    (drain toLowerCase segmenter final buffer).1.flatten ++
        (drain toLowerCase segmenter final buffer).2 = buffer ∧
      nextSegment toLowerCase segmenter final (drain toLowerCase segmenter final buffer).2 = none ∧
      ∀ segment ∈ (drain toLowerCase segmenter final buffer).1, segment ≠ [] := by
  induction buffer using drain.induct toLowerCase segmenter final with
  | case1 buffer h =>
    rw [drain_none toLowerCase segmenter h]
    exact ⟨rfl, h, fun segment hsegment => absurd hsegment List.not_mem_nil⟩
  | case2 buffer next h ih =>
    obtain ⟨hflatten, hnone, hnonempty⟩ := ih
    obtain ⟨hbuffer, hsegment⟩ := nextSegment_spec toLowerCase segmenter h
    rw [drain_some toLowerCase segmenter h]
    refine ⟨?_, hnone, fun segment hmem => ?_⟩
    · rw [List.flatten_cons, List.append_assoc, hflatten, hbuffer]
    · rcases List.mem_cons.1 hmem with rfl | hmem
      · exact hsegment
      · exact hnonempty segment hmem

/-- At the end of the round everything is released. -/
theorem flushText_buffer (buffer : Text) : (flushText toLowerCase segmenter buffer).2 = [] := by
  have hnone := (drain_append toLowerCase segmenter true buffer).2.1
  by_contra hbuffer
  unfold flushText at hbuffer
  unfold nextSegment at hnone
  rw [if_neg hbuffer] at hnone
  split at hnone
  · cases hnone
  · cases hnone

/-! ## A withheld stamp -/

theorem startsWith_getElem? {classes : List UnitClass} {t : Text}
    (h : startsWith classes t = true) {i : Nat} {c : UnitClass} (hc : classes[i]? = some c) :
    ∃ u, t[i]? = some u ∧ c.matches u = true := by
  induction classes generalizing t i with
  | nil => cases hc
  | cons d classes ih =>
    cases t with
    | nil => cases h
    | cons u rest =>
      rw [startsWith, Bool.and_eq_true] at h
      cases i with
      | zero =>
        obtain rfl := Option.some.inj hc
        exact ⟨u, rfl, h.1⟩
      | succ i => exact ih h.2 hc

/-- What a stripper may withhold: a start of a stamp, from its bracket on. -/
structure Withheld (w : Text) : Prop where
  bracket  : ∃ rest, w = unit '[' :: rest
  prefixed : startsWith (historyStamp.take w.length) w = true
  short    : w.length < historyStamp.length

/-- Every unit of a withheld text is of a class of the stamp. -/
theorem Withheld.unit_class {w : Text} (h : Withheld w) {i : Nat} {u : UInt16}
    (hu : w[i]? = some u) : ∃ c, historyStamp[i]? = some c ∧ c.matches u = true := by
  obtain ⟨hlt, -⟩ := List.getElem?_eq_some_iff.1 hu
  have hbound : i < historyStamp.length := hlt.trans h.short
  have hclass : (historyStamp.take w.length)[i]? = some historyStamp[i] := by
    rw [List.getElem?_take_of_lt hlt, List.getElem?_eq_getElem hbound]
  obtain ⟨u', hu', hmatches⟩ := startsWith_getElem? h.prefixed hclass
  obtain rfl := Option.some.inj (hu.symm.trans hu')
  exact ⟨_, List.getElem?_eq_getElem hbound, hmatches⟩

/-- A withheld text has no sentence boundary. -/
theorem Withheld.no_boundary {w : Text} (h : Withheld w) {u : UInt16} (hu : u ∈ w) :
    u ≠ unit '\n' ∧ isOneOf sentenceTerminators u = false := by
  have hclasses : ∀ c ∈ historyStamp, c.matches (unit '\n') = false ∧
      ∀ t ∈ sentenceTerminators, c.matches (unit t) = false := by
    have hall : (historyStamp.all fun c => !c.matches (unit '\n') &&
        sentenceTerminators.all fun t => !c.matches (unit t)) = true := rfl
    simpa only [List.all_eq_true, Bool.and_eq_true, Bool.not_eq_true'] using hall
  obtain ⟨i, hi, rfl⟩ := List.getElem_of_mem hu
  obtain ⟨c, hc, hmatches⟩ := h.unit_class (List.getElem?_eq_getElem hi)
  obtain ⟨hnewline, hterminators⟩ := hclasses c (List.mem_of_getElem? hc)
  refine ⟨fun heq => ?_, Bool.eq_false_iff.2 fun hone => ?_⟩
  · rw [heq, hnewline] at hmatches
    cases hmatches
  · obtain ⟨t, ht, heq⟩ := List.any_eq_true.1 hone
    rw [of_decide_eq_true heq, hterminators t ht] at hmatches
    cases hmatches

theorem isSpace_printable {u : UInt16} (hlower : unit ' ' ≤ u) (hupper : u ≤ unit 'z')
    (h : isSpace u = true) : u = unit ' ' := by
  simp only [isSpace, Bool.or_eq_true, Bool.and_eq_true, decide_eq_true_eq] at h
  have hz : unit 'z' = 122 := by decide
  have hspace : unit ' ' = 32 := by decide
  rw [hspace] at hlower ⊢
  rw [hz] at hupper
  simp only [UInt16.le_iff_toNat_le, ← UInt16.toNat_inj] at h hlower hupper ⊢
  simp only [UInt16.reduceToNat] at h hlower hupper ⊢
  omega

/-- A withheld text has whitespace from the space after the day on. -/
theorem Withheld.space_iff {w : Text} (h : Withheld w) :
    (∀ u ∈ w, isSpace u = false) ↔ w.length ≤ 4 := by
  constructor
  · intro hnone
    by_contra hlong
    have hlt : 4 < w.length := by omega
    obtain ⟨c, hc, hmatches⟩ := h.unit_class (List.getElem?_eq_getElem hlt)
    obtain rfl : UnitClass.only ' ' = c := Option.some.inj hc
    have hspace := hnone _ (List.getElem_mem hlt)
    rw [of_decide_eq_true hmatches] at hspace
    exact absurd hspace (by decide)
  · intro hshort u hu
    have hclasses : ∀ c ∈ historyStamp.take 4, c.matches (unit ' ') = false := by decide
    obtain ⟨i, hi, rfl⟩ := List.getElem_of_mem hu
    obtain ⟨c, hc, hmatches⟩ := h.unit_class (List.getElem?_eq_getElem hi)
    refine Bool.eq_false_iff.2 fun hspace => ?_
    obtain ⟨hlower, hupper⟩ := printable_of_matches (List.mem_of_getElem? hc) hmatches
    have hearly : c ∈ historyStamp.take 4 := by
      refine List.mem_of_getElem? (i := i) ?_
      rw [List.getElem?_take_of_lt (by omega)]
      exact hc
    rw [isSpace_printable hlower hupper hspace, hclasses c hearly] at hmatches
    cases hmatches

theorem takeWhile_append_bracket {p : UInt16 → Bool} (hp : p (unit '[') = false) (t rest : Text) :
    (t ++ unit '[' :: rest).takeWhile p = t.takeWhile p := by
  induction t with
  | nil => rw [List.nil_append, List.takeWhile_cons, hp]; rfl
  | cons u t ih => rw [List.cons_append, List.takeWhile_cons, List.takeWhile_cons, ih]

/-- A bracket stops every loop over the buffer. -/
theorem skipWhile_append {p : UInt16 → Bool} (hp : p (unit '[') = false) {buffer w : Text}
    (hw : Withheld w) {k : Nat} (hk : k ≤ buffer.length) :
    skipWhile p (buffer ++ w) k = skipWhile p buffer k ∧ skipWhile p buffer k ≤ buffer.length := by
  obtain ⟨rest, hrest⟩ := hw.bracket
  refine ⟨?_, ?_⟩
  · rw [skipWhile, List.drop_append_of_le_length hk, hrest, takeWhile_append_bracket hp]
    rfl
  · have htaken := (List.takeWhile_sublist p (l := buffer.drop k)).length_le
    rw [List.length_drop] at htaken
    rw [skipWhile]
    omega

theorem unitBefore_append {buffer w : Text} {i : Nat} (hi : i < buffer.length) :
    unitBefore (buffer ++ w) i = unitBefore buffer i := by
  cases i with
  | zero => rfl
  | succ i => exact List.getElem?_append_left (by omega)

theorem isAbbreviationBefore_append {buffer w : Text} {i : Nat} (hi : i < buffer.length) :
    isAbbreviationBefore toLowerCase segmenter (buffer ++ w) i =
      isAbbreviationBefore toLowerCase segmenter buffer i := by
  rw [isAbbreviationBefore, isAbbreviationBefore, List.take_append_of_le_length hi.le]

theorem getLast?_of_lt {buffer : Text} (hline : ∀ u, buffer.getLast? = some u → u = unit '\n')
    {i : Nat} (hi : i < buffer.length) : buffer.getLast? = some (unit '\n') := by
  have hne : buffer ≠ [] := List.ne_nil_of_length_pos (Nat.zero_lt_of_lt hi)
  have hlast := List.getLast?_eq_some_getLast hne
  rw [hlast, hline _ hlast]

/-- The boundaries of a buffer that ends a line are the same with a withheld text behind it. -/
theorem trySentenceCut_append {buffer w : Text} (hw : Withheld w)
    (hline : buffer.getLast? = some (unit '\n')) {i : Nat} (hi : i < buffer.length) :
    trySentenceCut toLowerCase segmenter (buffer ++ w) i false =
      trySentenceCut toLowerCase segmenter buffer i false := by
  have hunit : (buffer ++ w)[i]? = buffer[i]? := List.getElem?_append_left hi
  have hget := List.getElem?_eq_getElem hi
  unfold trySentenceCut
  rw [hunit, hget]
  dsimp only
  by_cases hnewline : buffer[i] = unit '\n'
  · rw [if_pos hnewline, if_pos hnewline, (skipWhile_append (by decide) hw hi.le).1]
  · -- the last unit is the line feed, so there is a unit after this one
    have hnext : i + 1 < buffer.length := by
      refine Nat.lt_of_le_of_ne hi fun hlast => hnewline ?_
      rw [List.getLast?_eq_getElem?, show buffer.length - 1 = i by omega, hget] at hline
      exact Option.some.inj hline
    have hterminated := skipWhile_append (p := isOneOf sentenceTerminators) (by decide) hw hnext.le
    have hclosed := skipWhile_append (p := isOneOf closers) (by decide) hw hterminated.2
    have hspaced := skipWhile_append (p := isSpace) (by decide) hw hclosed.2
    rw [if_neg hnewline, if_neg hnewline, unitBefore_append hi, List.getElem?_append_left hnext,
      isAbbreviationBefore_append toLowerCase segmenter hi, hterminated.1, hclosed.1, hspaced.1]
    simp only [Bool.false_and, Bool.false_eq_true, if_false]

theorem trySentenceCut_withheld {buffer w : Text} (hw : Withheld w) {i : Nat}
    (hi : buffer.length ≤ i) :
    trySentenceCut toLowerCase segmenter (buffer ++ w) i false = none := by
  unfold trySentenceCut
  rw [List.getElem?_append_right hi]
  cases hunit : w[i - buffer.length]? with
  | none => rfl
  | some u =>
    obtain ⟨hnewline, hterminator⟩ := hw.no_boundary (List.mem_of_getElem? hunit)
    dsimp only
    rw [if_neg hnewline, hterminator]
    rfl

theorem scan_withheld {buffer w : Text} (hw : Withheld w) {i : Nat} (hi : buffer.length ≤ i) :
    scan toLowerCase segmenter (buffer ++ w) false i = none := by
  induction i using scan.induct toLowerCase segmenter (buffer ++ w) false with
  | case1 i _ cut htry _ =>
    rw [trySentenceCut_withheld toLowerCase segmenter hw hi] at htry
    cases htry
  | case2 i _ cut htry _ _ =>
    rw [trySentenceCut_withheld toLowerCase segmenter hw hi] at htry
    cases htry
  | case3 i hlt htry ih =>
    rw [scan_eq, if_pos hlt, htry, Option.elim_none]
    exact ih (by omega)
  | case4 i hlt => rw [scan_eq, if_neg hlt]

/-- **A withheld text adds no sentence boundary** to a buffer that ends a line. -/
theorem scan_append {buffer w : Text} (hw : Withheld w)
    (hline : ∀ u, buffer.getLast? = some u → u = unit '\n') (i : Nat) :
    scan toLowerCase segmenter (buffer ++ w) false i =
      scan toLowerCase segmenter buffer false i := by
  induction i using scan.induct toLowerCase segmenter buffer false with
  | case4 i hlt =>
    rw [scan_withheld toLowerCase segmenter hw (Nat.le_of_not_lt hlt), scan_eq, if_neg hlt]
  | case1 i hlt cut htry htaken =>
    have hlong : i < (buffer ++ w).length := by rw [List.length_append]; omega
    rw [scan_eq, scan_eq toLowerCase segmenter buffer, if_pos hlong, if_pos hlt,
      trySentenceCut_append toLowerCase segmenter hw (getLast?_of_lt hline hlt) hlt, htry,
      Option.elim_some, Option.elim_some, if_pos htaken, if_pos htaken]
  | case2 i hlt cut htry hshort ih =>
    have hlong : i < (buffer ++ w).length := by rw [List.length_append]; omega
    rw [scan_eq, scan_eq toLowerCase segmenter buffer, if_pos hlong, if_pos hlt,
      trySentenceCut_append toLowerCase segmenter hw (getLast?_of_lt hline hlt) hlt, htry,
      Option.elim_some, Option.elim_some, if_neg hshort, if_neg hshort, ih]
  | case3 i hlt htry ih =>
    have hlong : i < (buffer ++ w).length := by rw [List.length_append]; omega
    rw [scan_eq, scan_eq toLowerCase segmenter buffer, if_pos hlong, if_pos hlt,
      trySentenceCut_append toLowerCase segmenter hw (getLast?_of_lt hline hlt) hlt, htry,
      Option.elim_none, Option.elim_none, ih]

/-- **When a withheld text behind a drained buffer lets a segment out**: the buffer is full, and
there is a space to break at. -/
theorem nextSegment_withheld {buffer w : Text} (hw : Withheld w)
    (hline : ∀ u, buffer.getLast? = some u → u = unit '\n')
    (hdrained : nextSegment toLowerCase segmenter false buffer = none) :
    nextSegment toLowerCase segmenter false (buffer ++ w) = none ↔
      buffer.length + w.length < segmenter.maxBufferLength ∨ (buffer = [] ∧ w.length ≤ 4) := by
  obtain ⟨rest, hrest⟩ := hw.bracket
  have hne : buffer ++ w ≠ [] := by
    rw [hrest]
    simp
  have hscan : scan toLowerCase segmenter (buffer ++ w) false 0 = none := by
    rw [scan_append toLowerCase segmenter hw hline]
    unfold nextSegment at hdrained
    split at hdrained
    · rename_i hnil
      rw [hnil, scan_eq, if_neg (show ¬ 0 < ([] : Text).length from Nat.lt_irrefl 0)]
    · split at hdrained
      · cases hdrained
      · assumption
  -- a buffer that ends a line has whitespace
  have hspaces : (∀ u ∈ buffer ++ w, isSpace u = false) ↔ buffer = [] ∧ w.length ≤ 4 := by
    rw [← hw.space_iff]
    constructor
    · intro hnone
      refine ⟨?_, fun u hu => hnone u (List.mem_append_right _ hu)⟩
      rcases List.eq_nil_or_concat buffer with hnil | ⟨front, last, hlast⟩
      · exact hnil
      · have hnewline := hline last (by rw [hlast, List.concat_eq_append, List.getLast?_concat])
        have hspace := hnone last (by rw [hlast]; simp)
        rw [hnewline] at hspace
        exact absurd hspace (by decide)
    · rintro ⟨rfl, hnone⟩ u hu
      exact hnone u hu
  unfold nextSegment
  rw [if_neg hne, hscan]
  dsimp only
  rw [if_neg Bool.false_ne_true, List.length_append]
  by_cases hfull : segmenter.maxBufferLength ≤ buffer.length + w.length
  · rw [if_pos hfull, Option.map_eq_none_iff, forcedBreak_eq_none_iff, hspaces]
    exact ⟨.inr, fun h => h.resolve_left (Nat.not_lt.2 hfull)⟩
  · rw [if_neg hfull]
    exact ⟨fun _ => .inl (Nat.lt_of_not_le hfull), fun _ => rfl⟩

/-- A scan that finds no boundary to the end of a line leaves less than the floor. -/
theorem scan_none_short {buffer : Text} (hline : buffer.getLast? = some (unit '\n')) {i : Nat}
    (hi : i < buffer.length) (hscan : scan toLowerCase segmenter buffer false i = none) :
    buffer.length < segmenter.minSegmentLength := by
  induction i using scan.induct toLowerCase segmenter buffer false with
  | case1 i hlt cut htry htaken =>
    rw [scan_eq, if_pos hlt, htry, Option.elim_some, if_pos htaken] at hscan
    cases hscan
  | case2 i hlt cut htry hshort ih =>
    rw [scan_eq, if_pos hlt, htry, Option.elim_some, if_neg hshort] at hscan
    by_cases hcut : cut < buffer.length
    · exact ih hcut hscan
    · rw [Bool.false_or, decide_eq_true_eq] at hshort
      omega
  | case3 i hlt htry ih =>
    rw [scan_eq, if_pos hlt, htry, Option.elim_none] at hscan
    refine ih (Nat.lt_of_le_of_ne hlt fun hlast => ?_) hscan
    -- the last unit is a boundary
    rw [List.getLast?_eq_getElem?, show buffer.length - 1 = i by omega] at hline
    rw [trySentenceCut, hline] at htry
    cases htry
  | case4 i hlt => exact absurd hi hlt

/-- A drained buffer that ends a line is shorter than the floor. -/
theorem drained_short {buffer : Text} (hline : ∀ u, buffer.getLast? = some u → u = unit '\n')
    (hdrained : nextSegment toLowerCase segmenter false buffer = none) :
    buffer.length < segmenter.minSegmentLength := by
  have hmin := segmenter.min_pos
  rcases Nat.eq_zero_or_pos buffer.length with hempty | hpos
  · omega
  · have hne : buffer ≠ [] := List.ne_nil_of_length_pos hpos
    refine scan_none_short toLowerCase segmenter (getLast?_of_lt hline hpos) hpos ?_
    unfold nextSegment at hdrained
    rw [if_neg hne] at hdrained
    split at hdrained
    · cases hdrained
    · assumption

end Psfn.Voice
