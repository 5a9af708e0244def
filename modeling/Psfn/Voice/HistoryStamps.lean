import Mathlib.Data.List.Basic
import Mathlib.Data.List.TakeWhile

/-!
# History stamps

`shared/utils/history-stamp-hygiene.ts`: a stamp such as `[Mon 01-02-26 12:34]` at the start of a
line is removed from a reply, either from the whole text or chunk by chunk. A string is the list
of its UTF-16 code units.

* `strip_eq_lineStart` — the removal to a fixpoint is what one pass of the streaming stripper
  releases;
* `stream_strips_iff` — over any chunks, the stripper releases the stripped text exactly when no
  stamp follows a bare line terminator.
-/

namespace Psfn.Voice

abbrev Text := List UInt16

def unit (c : Char) : UInt16 := UInt16.ofNat c.toNat

def text (s : String) : Text := s.toList.map unit

/-! ## `stripLeadingHistoryStamps` -/

/-- A character class of the regular expression. -/
inductive UnitClass where
  | upper | lower | digit
  | only (c : Char)
deriving DecidableEq, Repr

def UnitClass.matches : UnitClass → UInt16 → Bool
  | .upper, u => unit 'A' ≤ u && u ≤ unit 'Z'
  | .lower, u => unit 'a' ≤ u && u ≤ unit 'z'
  | .digit, u => unit '0' ≤ u && u ≤ unit '9'
  | .only c, u => u = unit c

/-- `\[[A-Z][a-z]{2} \d{2}-\d{2}-\d{2} \d{2}:\d{2}\]`. -/
def historyStamp : List UnitClass :=
  [.only '[', .upper, .lower, .lower, .only ' ', .digit, .digit, .only '-', .digit, .digit,
    .only '-', .digit, .digit, .only ' ', .digit, .digit, .only ':', .digit, .digit, .only ']']

/-- The text starts with the classes. -/
def startsWith : List UnitClass → Text → Bool
  | [], _ => true
  | _ :: _, [] => false
  | c :: classes, u :: rest => c.matches u && startsWith classes rest

variable {classes : List UnitClass} {t : Text}

theorem length_of_startsWith (h : startsWith classes t = true) : classes.length ≤ t.length := by
  induction classes generalizing t with
  | nil => exact Nat.zero_le _
  | cons c classes ih =>
    cases t with
    | nil => cases h
    | cons u rest =>
      rw [startsWith, Bool.and_eq_true] at h
      exact Nat.succ_le_succ (ih h.2)

/-- Where `^` matches with the `m` flag, next to the start of the text. -/
def isLineTerminator (u : UInt16) : Bool :=
  u = unit '\n' || u = unit '\r' || u = 0x2028 || u = 0x2029

def dropSpaces (t : Text) : Text := t.dropWhile (· = unit ' ')

/-- What follows a stamp and its spaces. -/
def afterStamp (t : Text) : Text := dropSpaces (t.drop historyStamp.length)

theorem length_afterStamp (t : Text) : (afterStamp t).length ≤ t.length - historyStamp.length := by
  rw [afterStamp, dropSpaces]
  exact ((List.dropWhile_sublist _).length_le).trans (List.length_drop ..).le

theorem length_afterStamp_lt (h : startsWith historyStamp t = true) :
    (afterStamp t).length < t.length := by
  have hstamp := length_of_startsWith h
  have hafter := length_afterStamp t
  have hlength : historyStamp.length = 20 := rfl
  omega

/-- `text.replace(HISTORY_STAMP_LINE_PREFIX, '')`, at a line start or not. -/
def replaceStamps (lineStart : Bool) (t : Text) : Text :=
  if lineStart && startsWith historyStamp t then replaceStamps false (afterStamp t)
  else match t with
    | [] => []
    | u :: rest => u :: replaceStamps (isLineTerminator u) rest
termination_by t.length
decreasing_by
  · rename_i h
    rw [Bool.and_eq_true] at h
    exact length_afterStamp_lt h.2
  · exact Nat.lt_succ_self _

theorem replaceStamps_stamp (h : startsWith historyStamp t = true) :
    replaceStamps true t = replaceStamps false (afterStamp t) := by
  rw [replaceStamps.eq_def, Bool.true_and, if_pos h]

@[simp] theorem replaceStamps_nil : replaceStamps false [] = [] := by
  rw [replaceStamps, Bool.false_and, if_neg Bool.false_ne_true]

theorem replaceStamps_cons (u : UInt16) (rest : Text) :
    replaceStamps false (u :: rest) = u :: replaceStamps (isLineTerminator u) rest := by
  rw [replaceStamps, Bool.false_and, if_neg Bool.false_ne_true]

theorem replaceStamps_true (h : startsWith historyStamp t = false) :
    replaceStamps true t = replaceStamps false t := by
  rw [replaceStamps.eq_def true, Bool.true_and, h, if_neg Bool.false_ne_true]
  cases t with
  | nil => exact replaceStamps_nil.symm
  | cons u rest => exact (replaceStamps_cons u rest).symm

/-- A replacement that changes the text shortens it. -/
theorem replaceStamps_eq_or_shorter (lineStart : Bool) (t : Text) :
    replaceStamps lineStart t = t ∨ (replaceStamps lineStart t).length < t.length := by
  induction lineStart, t using replaceStamps.induct with
  | case1 lineStart t h ih =>
    rw [Bool.and_eq_true] at h
    rw [h.1, replaceStamps_stamp h.2]
    have hafter := length_afterStamp_lt h.2
    rcases ih with hsame | hshorter
    · rw [hsame]
      exact .inr hafter
    · exact .inr (hshorter.trans hafter)
  | case2 lineStart h =>
    rw [replaceStamps, if_neg h]
    exact .inl rfl
  | case3 lineStart u rest h ih =>
    rw [replaceStamps, if_neg h]
    rcases ih with hsame | hshorter
    · exact .inl (congrArg (u :: ·) hsame)
    · exact .inr (Nat.succ_lt_succ hshorter)

theorem length_replaceStamps (lineStart : Bool) (t : Text) :
    (replaceStamps lineStart t).length ≤ t.length := by
  rcases replaceStamps_eq_or_shorter lineStart t with hsame | hshorter
  · rw [hsame]
  · exact hshorter.le

theorem length_replaceStamps_lt (h : replaceStamps true t ≠ t) :
    (replaceStamps true t).length < t.length :=
  (replaceStamps_eq_or_shorter true t).resolve_left h

/-- A stamp that becomes line-leading after a preceding one is removed needs another pass. -/
def stripLeadingHistoryStamps (t : Text) : Text :=
  if replaceStamps true t = t then t else stripLeadingHistoryStamps (replaceStamps true t)
termination_by t.length
decreasing_by
  rename_i h
  exact length_replaceStamps_lt h

/-! ## The streaming stripper -/

def stampTemplate : List Char := "[Aaa 00-00-00 00:00]".toList

def specMatches (u : UInt16) (spec : Char) : Bool :=
  if spec = 'A' then unit 'A' ≤ u && u ≤ unit 'Z'
  else if spec = 'a' then unit 'a' ≤ u && u ≤ unit 'z'
  else if spec = '0' then unit '0' ≤ u && u ≤ unit '9'
  else u = unit spec

/-- Of a code point: no surrogate pair is between two letters or digits, or is one of the
literals. Outside of the template nothing matches. -/
def stampCharMatches (ch : Text) (index : Nat) : Bool :=
  match ch with
  | [u] => (stampTemplate[index]?).any (specMatches u)
  | _ => false

inductive StripperMode where
  /-- At the start of the text or just after a line feed. -/
  | lineStart
  /-- Inside a viable stamp prefix, which is withheld. -/
  | candidate
  /-- A stamp was dropped, and its trailing spaces are. -/
  | afterStamp
  | passthrough
deriving DecidableEq, Repr

structure Stripper where
  mode      : StripperMode := .lineStart
  candidate : Text := []
deriving DecidableEq

/-- One code point: what is released, and the stripper afterwards. -/
def Stripper.step (s : Stripper) (ch : Text) : Text × Stripper :=
  match s.mode with
  | .passthrough =>
    (ch, { s with mode := if ch = text "\n" then .lineStart else .passthrough })
  | .lineStart =>
    if ch = text "[" then ([], { mode := .candidate, candidate := text "[" })
    else (ch, { s with mode := if ch ≠ text "\n" then .passthrough else .lineStart })
  | .candidate =>
    if stampCharMatches ch s.candidate.length then
      if (s.candidate ++ ch).length = stampTemplate.length then
        ([], { mode := .afterStamp, candidate := [] })
      else ([], { s with candidate := s.candidate ++ ch })
    else
      (s.candidate ++ ch,
        { mode := if ch = text "\n" then .lineStart else .passthrough, candidate := [] })
  | .afterStamp =>
    if ch = text " " then ([], s)
    else if ch = text "[" then ([], { mode := .candidate, candidate := text "[" })
    else (ch, { s with mode := if ch = text "\n" then .lineStart else .passthrough })

/-- A string as its iterator yields it: a surrogate pair is one code point. -/
def codePoints : Text → List Text
  | [] => []
  | [u] => [[u]]
  | u :: v :: rest =>
    if 0xd800 ≤ u && u < 0xdc00 && 0xdc00 ≤ v && v < 0xe000 then [u, v] :: codePoints rest
    else [u] :: codePoints (v :: rest)

def Stripper.run (s : Stripper) : List Text → Text × Stripper
  | [] => ([], s)
  | ch :: rest =>
    let (out, s') := s.step ch
    let (more, s'') := s'.run rest
    (out ++ more, s'')

def Stripper.push (s : Stripper) (chunk : Text) : Text × Stripper := s.run (codePoints chunk)

def Stripper.flush (s : Stripper) : Text × Stripper :=
  (s.candidate, { mode := .passthrough, candidate := [] })

/-! ## Units -/

def specClass (spec : Char) : UnitClass :=
  if spec = 'A' then .upper else if spec = 'a' then .lower
  else if spec = '0' then .digit else .only spec

/-- The template is the regular expression. -/
theorem stampTemplate_class : stampTemplate.map specClass = historyStamp := by decide

theorem specMatches_eq (u : UInt16) (spec : Char) :
    specMatches u spec = (specClass spec).matches u := by
  unfold specMatches specClass
  split
  · rfl
  · split
    · rfl
    · split <;> rfl

theorem stampCharMatches_unit (u : UInt16) (index : Nat) :
    stampCharMatches [u] index = (historyStamp[index]?).any (·.matches u) := by
  rw [← stampTemplate_class, List.getElem?_map, Option.any_map]
  exact congrArg (Option.any · stampTemplate[index]?) (funext (specMatches_eq u))

def UnitClass.least : UnitClass → UInt16
  | .upper => unit 'A'
  | .lower => unit 'a'
  | .digit => unit '0'
  | .only c => unit c

def UnitClass.greatest : UnitClass → UInt16
  | .upper => unit 'Z'
  | .lower => unit 'z'
  | .digit => unit '9'
  | .only c => unit c

variable {c : UnitClass} {u : UInt16}

theorem UnitClass.bounds (h : c.matches u = true) :
    c.least ≤ u ∧ u ≤ c.greatest := by
  cases c with
  | only c =>
    obtain rfl := of_decide_eq_true h
    exact ⟨UInt16.le_refl _, UInt16.le_refl _⟩
  | upper => exact (Bool.and_eq_true _ _ ▸ h).imp of_decide_eq_true of_decide_eq_true
  | lower => exact (Bool.and_eq_true _ _ ▸ h).imp of_decide_eq_true of_decide_eq_true
  | digit => exact (Bool.and_eq_true _ _ ▸ h).imp of_decide_eq_true of_decide_eq_true

/-- A unit of a stamp is a printable one. -/
theorem printable_of_matches (hc : c ∈ historyStamp) (h : c.matches u = true) :
    unit ' ' ≤ u ∧ u ≤ unit 'z' := by
  have hbounds : ∀ c ∈ historyStamp, unit ' ' ≤ c.least ∧ c.greatest ≤ unit 'z' := by decide
  obtain ⟨hleast, hgreatest⟩ := hbounds c hc
  obtain ⟨hlower, hupper⟩ := c.bounds h
  exact ⟨UInt16.le_trans hleast hlower, UInt16.le_trans hupper hgreatest⟩

theorem not_lineTerminator_of_matches (hc : c ∈ historyStamp) (h : c.matches u = true) :
    isLineTerminator u = false := by
  obtain ⟨hlower, hupper⟩ := printable_of_matches hc h
  refine Bool.eq_false_iff.2 fun hterminator => ?_
  simp only [isLineTerminator, Bool.or_eq_true, decide_eq_true_eq] at hterminator
  rcases hterminator with ((rfl | rfl) | rfl) | rfl
  · exact absurd hlower (by decide)
  · exact absurd hlower (by decide)
  · exact absurd hupper (by decide)
  · exact absurd hupper (by decide)

/-! ## What a stripper releases -/

/-- What the stripper releases of a text that ends the stream, unit by unit. -/
def Stripper.released (s : Stripper) : Text → Text
  | [] => s.candidate
  | u :: rest => (s.step [u]).1 ++ (s.step [u]).2.released rest

def atLineStart (t : Text) : Text := ({ mode := .lineStart, candidate := [] } : Stripper).released t

def passed (t : Text) : Text := ({ mode := .passthrough, candidate := [] } : Stripper).released t

theorem passed_cons (u : UInt16) (rest : Text) :
    passed (u :: rest) = u :: if u = unit '\n' then atLineStart rest else passed rest := by
  by_cases hnewline : u = unit '\n'
  · rw [hnewline, if_pos rfl]
    rfl
  · have hne : [u] ≠ text "\n" := fun h => hnewline (List.cons.inj h).1
    rw [if_neg hnewline, passed, Stripper.released, Stripper.step]
    simp only [if_neg hne]
    rfl

theorem released_afterStamp (t : Text) :
    ({ mode := .afterStamp, candidate := [] } : Stripper).released t =
      atLineStart (dropSpaces t) := by
  induction t with
  | nil => rfl
  | cons u rest ih =>
    by_cases hspace : u = unit ' '
    · rw [hspace]
      exact ih
    · have hdropped : dropSpaces (u :: rest) = u :: rest :=
        List.dropWhile_cons_of_neg (by simpa using hspace)
      have hne : [u] ≠ text " " := fun h => hspace (List.cons.inj h).1
      rw [hdropped, atLineStart, Stripper.released, Stripper.released, Stripper.step, Stripper.step]
      simp only [if_neg hne]
      split
      · rfl
      · by_cases hnewline : [u] = text "\n"
        · simp only [hnewline, if_true, ne_eq, not_true_eq_false, if_false]
        · simp only [hnewline, if_false, ne_eq, not_false_eq_true, if_true]

theorem drop_historyStamp {index : Nat} (h : historyStamp[index]? = some c) :
    historyStamp.drop index = c :: historyStamp.drop (index + 1) := by
  obtain ⟨hlt, hget⟩ := List.getElem?_eq_some_iff.1 h
  rw [List.drop_eq_getElem_cons hlt, hget]

/-- A prefix of a stamp that does not become one is released. -/
theorem released_candidate {w : Text} (hw : w.length < historyStamp.length)
    (h : startsWith (historyStamp.drop w.length) t = false) :
    ({ mode := .candidate, candidate := w } : Stripper).released t = w ++ passed t := by
  induction t generalizing w with
  | nil => exact (List.append_nil w).symm
  | cons u rest ih =>
    have hclass := List.getElem?_eq_getElem hw
    have hmatches := stampCharMatches_unit u w.length
    rw [hclass, Option.any_some] at hmatches
    rw [drop_historyStamp hclass, startsWith] at h
    rw [Stripper.released, Stripper.step, passed_cons]
    by_cases hmatch : historyStamp[w.length].matches u = true
    · -- the candidate grows, and is not yet a stamp
      rw [hmatch, Bool.true_and] at h
      rw [hmatch] at hmatches
      have hnewline : u ≠ unit '\n' := by
        rintro rfl
        have hno := not_lineTerminator_of_matches (List.getElem_mem hw) hmatch
        exact absurd hno (by decide)
      have hlength : (w ++ [u]).length = w.length + 1 := by simp
      have hshort : w.length + 1 < historyStamp.length := by
        refine Nat.lt_of_le_of_ne hw fun hfull => ?_
        rw [hfull, List.drop_length] at h
        cases h
      have hunfinished : (w ++ [u]).length ≠ stampTemplate.length := by
        rw [hlength]
        exact Nat.ne_of_lt hshort
      simp only [hmatches, if_true, if_neg hunfinished, List.nil_append, if_neg hnewline]
      rw [ih (by rw [hlength]; exact hshort) (by rw [hlength]; exact h), List.append_assoc]
      rfl
    · rw [Bool.eq_false_iff.2 hmatch] at hmatches
      simp only [hmatches, Bool.false_eq_true, if_false, List.append_assoc]
      by_cases hnewline : u = unit '\n'
      · rw [hnewline]
        rfl
      · have hne : [u] ≠ text "\n" := fun h => hnewline (List.cons.inj h).1
        simp only [if_neg hne, if_neg hnewline]
        rfl

/-- A prefix of a stamp that becomes one is dropped. -/
theorem released_stamp {w : Text} (hw : w.length < historyStamp.length)
    (h : startsWith (historyStamp.drop w.length) t = true) :
    ({ mode := .candidate, candidate := w } : Stripper).released t =
      atLineStart (dropSpaces (t.drop (historyStamp.length - w.length))) := by
  induction t generalizing w with
  | nil =>
    rw [drop_historyStamp (List.getElem?_eq_getElem hw)] at h
    cases h
  | cons u rest ih =>
    have hclass := List.getElem?_eq_getElem hw
    have hmatches := stampCharMatches_unit u w.length
    rw [hclass, Option.any_some] at hmatches
    rw [drop_historyStamp hclass, startsWith, Bool.and_eq_true] at h
    rw [h.1] at hmatches
    have hlength : (w ++ [u]).length = w.length + 1 := by simp
    have hdrop : historyStamp.length - w.length = (historyStamp.length - (w.length + 1)) + 1 := by
      omega
    rw [Stripper.released, Stripper.step, hdrop, List.drop_succ_cons]
    simp only [hmatches, if_true]
    by_cases hfull : (w ++ [u]).length = stampTemplate.length
    · have hnone : historyStamp.length - (w.length + 1) = 0 := by
        rw [← hlength, hfull]
        rfl
      rw [if_pos hfull, hnone, List.drop_zero]
      exact released_afterStamp rest
    · have hshort : (w ++ [u]).length < historyStamp.length := by
        refine Nat.lt_of_le_of_ne ?_ hfull
        rw [hlength]
        exact hw
      rw [if_neg hfull, List.nil_append, ← hlength]
      refine ih hshort ?_
      rw [hlength]
      exact h.2

/-- **At a line start the stripper removes a stamp with its spaces, or passes.** -/
theorem atLineStart_eq (t : Text) :
    atLineStart t = if startsWith historyStamp t then atLineStart (afterStamp t) else passed t := by
  cases t with
  | nil => rfl
  | cons u rest =>
    by_cases hbracket : u = unit '['
    · have hstarts : startsWith historyStamp (u :: rest) =
          startsWith (historyStamp.drop (text "[").length) rest := by
        rw [hbracket]
        rfl
      have hcandidate : atLineStart (u :: rest) =
          ({ mode := .candidate, candidate := text "[" } : Stripper).released rest := by
        rw [hbracket]
        rfl
      rw [hcandidate]
      split
      · rename_i hstamp
        rw [hstarts] at hstamp
        rw [released_stamp (by decide) hstamp, afterStamp]
        rfl
      · rename_i hno
        rw [hstarts] at hno
        rw [released_candidate (by decide) (Bool.eq_false_iff.2 hno), passed_cons, hbracket]
        rfl
    · have hno : startsWith historyStamp (u :: rest) = false := by
        rw [historyStamp, startsWith, UnitClass.matches, decide_eq_false hbracket, Bool.false_and]
      have hne : [u] ≠ text "[" := fun h => hbracket (List.cons.inj h).1
      rw [hno, if_neg Bool.false_ne_true, passed_cons, atLineStart, Stripper.released,
        Stripper.step]
      simp only [if_neg hne]
      by_cases hnewline : u = unit '\n'
      · rw [hnewline]
        rfl
      · have hneNewline : [u] ≠ text "\n" := fun h => hnewline (List.cons.inj h).1
        simp only [ne_eq, hneNewline, not_false_eq_true, if_true, if_neg hnewline]
        rfl

/-! ## The fixpoint -/

/-- The text is over line feeds only. -/
def LineFeedsOnly (t : Text) : Prop := ∀ u ∈ t, isLineTerminator u = decide (u = unit '\n')

theorem lineFeedsOnly_of_all
    (h : (t.all fun u => isLineTerminator u == decide (u = unit '\n')) = true) : LineFeedsOnly t :=
  fun u hu => eq_of_beq (List.all_eq_true.1 h u hu)

theorem LineFeedsOnly.of_subset {t' : Text} (h : LineFeedsOnly t) (hsub : t' ⊆ t) :
    LineFeedsOnly t' := fun u hu => h u (hsub hu)

/-- Within a line a replacement changes nothing. -/
theorem startsWith_replaceStamps (h : classes ⊆ historyStamp) (t : Text) :
    startsWith classes (replaceStamps false t) = startsWith classes t := by
  induction classes generalizing t with
  | nil => rfl
  | cons c classes ih =>
    cases t with
    | nil => rw [replaceStamps_nil]
    | cons u rest =>
      rw [replaceStamps_cons, startsWith, startsWith]
      cases hmatch : c.matches u with
      | false => rw [Bool.false_and, Bool.false_and]
      | true =>
        rw [not_lineTerminator_of_matches (h List.mem_cons_self) hmatch,
          ih (List.subset_of_cons_subset h)]

theorem drop_replaceStamps (h : classes ⊆ historyStamp) (hstarts : startsWith classes t = true) :
    (replaceStamps false t).drop classes.length = replaceStamps false (t.drop classes.length) := by
  induction classes generalizing t with
  | nil => rfl
  | cons c classes ih =>
    cases t with
    | nil => cases hstarts
    | cons u rest =>
      rw [startsWith, Bool.and_eq_true] at hstarts
      rw [replaceStamps_cons, not_lineTerminator_of_matches (h List.mem_cons_self) hstarts.1,
        List.length_cons, List.drop_succ_cons, List.drop_succ_cons]
      exact ih (List.subset_of_cons_subset h) hstarts.2

theorem dropSpaces_replaceStamps (t : Text) :
    dropSpaces (replaceStamps false t) = replaceStamps false (dropSpaces t) := by
  induction t with
  | nil => rw [replaceStamps_nil, dropSpaces, List.dropWhile_nil, replaceStamps_nil]
  | cons u rest ih =>
    by_cases hspace : u = unit ' '
    · have hline : isLineTerminator u = false := by
        rw [hspace]
        decide
      rw [replaceStamps_cons, hline, hspace]
      exact ih
    · have hdropped : ∀ t', dropSpaces (u :: t') = u :: t' := fun t' =>
        List.dropWhile_cons_of_neg (by simpa using hspace)
      rw [replaceStamps_cons, hdropped, hdropped, replaceStamps_cons]

/-- The text without the stamps at its line starts, after any of the line terminators. -/
def stripped (lineStart : Bool) (t : Text) : Text :=
  if lineStart && startsWith historyStamp t then stripped true (afterStamp t)
  else match t with
    | [] => []
    | u :: rest => u :: stripped (isLineTerminator u) rest
termination_by t.length
decreasing_by
  · rename_i h
    rw [Bool.and_eq_true] at h
    exact length_afterStamp_lt h.2
  · exact Nat.lt_succ_self _

theorem stripped_stamp (h : startsWith historyStamp t = true) :
    stripped true t = stripped true (afterStamp t) := by
  rw [stripped.eq_def, Bool.true_and, if_pos h]

@[simp] theorem stripped_nil : stripped false [] = [] := by
  rw [stripped, Bool.false_and, if_neg Bool.false_ne_true]

theorem stripped_cons (u : UInt16) (rest : Text) :
    stripped false (u :: rest) = u :: stripped (isLineTerminator u) rest := by
  rw [stripped, Bool.false_and, if_neg Bool.false_ne_true]

theorem stripped_true (h : startsWith historyStamp t = false) :
    stripped true t = stripped false t := by
  rw [stripped.eq_def true, Bool.true_and, h, if_neg Bool.false_ne_true]
  cases t with
  | nil => exact stripped_nil.symm
  | cons u rest => exact (stripped_cons u rest).symm

/-- **One pass changes nothing of the stripped text**, at a line start or within. -/
theorem stripped_replaceStamps (t : Text) :
    stripped false (replaceStamps false t) = stripped false t ∧
      stripped true (replaceStamps false t) = stripped true t ∧
      stripped true (replaceStamps true t) = stripped true t := by
  induction hlength : t.length using Nat.strong_induction_on generalizing t with
  | _ n ih =>
    have hwithin : stripped false (replaceStamps false t) = stripped false t := by
      cases t with
      | nil => rw [replaceStamps_nil]
      | cons u rest =>
        obtain ⟨hpass, -, hstart⟩ := ih rest.length (hlength ▸ Nat.lt_succ_self _) rest rfl
        rw [replaceStamps_cons, stripped_cons, stripped_cons]
        cases isLineTerminator u with
        | false => rw [hpass]
        | true => rw [hstart]
    have hstarts := startsWith_replaceStamps (List.Subset.refl historyStamp) t
    by_cases hstamp : startsWith historyStamp t = true
    · -- a stamp at the head is dropped with its spaces, before or after the pass
      have hafter : afterStamp (replaceStamps false t) = replaceStamps false (afterStamp t) := by
        rw [afterStamp, drop_replaceStamps (List.Subset.refl historyStamp) hstamp,
          dropSpaces_replaceStamps]
        rfl
      obtain ⟨-, hkept, -⟩ := ih _ (hlength ▸ length_afterStamp_lt hstamp) (afterStamp t) rfl
      refine ⟨hwithin, ?_, ?_⟩
      · rw [stripped_stamp (hstarts.trans hstamp), hafter, hkept, stripped_stamp hstamp]
      · rw [replaceStamps_stamp hstamp, hkept, stripped_stamp hstamp]
    · have hno := Bool.eq_false_iff.2 hstamp
      have hkept : stripped true (replaceStamps false t) = stripped true t := by
        rw [stripped_true (hstarts.trans hno), hwithin, stripped_true hno]
      refine ⟨hwithin, hkept, ?_⟩
      rw [replaceStamps_true hno, hkept]

/-- A text that a pass leaves alone has nothing to strip. -/
theorem stripped_eq_self (t : Text) :
    (replaceStamps false t = t → stripped false t = t) ∧
      (replaceStamps true t = t → stripped true t = t) := by
  induction hlength : t.length using Nat.strong_induction_on generalizing t with
  | _ n ih =>
    have hwithin : replaceStamps false t = t → stripped false t = t := by
      intro hsame
      cases t with
      | nil => exact stripped_nil
      | cons u rest =>
        obtain ⟨hpass, hstart⟩ := ih rest.length (hlength ▸ Nat.lt_succ_self _) rest rfl
        rw [replaceStamps_cons] at hsame
        have hsame' := (List.cons.inj hsame).2
        rw [stripped_cons]
        cases hterminator : isLineTerminator u with
        | true =>
          rw [hterminator] at hsame'
          rw [hstart hsame']
        | false =>
          rw [hterminator] at hsame'
          rw [hpass hsame']
    refine ⟨hwithin, fun hsame => ?_⟩
    by_cases hstamp : startsWith historyStamp t = true
    · have hshorter := length_afterStamp_lt hstamp
      have hpass := length_replaceStamps false (afterStamp t)
      rw [replaceStamps_stamp hstamp] at hsame
      rw [hsame] at hpass
      omega
    · have hno := Bool.eq_false_iff.2 hstamp
      rw [replaceStamps_true hno] at hsame
      rw [stripped_true hno, hwithin hsame]

/-- **The fixpoint of the passes.** -/
theorem strip_eq_stripped (t : Text) : stripLeadingHistoryStamps t = stripped true t := by
  induction t using stripLeadingHistoryStamps.induct with
  | case1 t hsame =>
    rw [stripLeadingHistoryStamps, if_pos hsame, (stripped_eq_self t).2 hsame]
  | case2 t hne ih =>
    rw [stripLeadingHistoryStamps, if_neg hne, ih, (stripped_replaceStamps t).2.2]

/-! ## Bare stamps -/

/-- A stamp follows a line terminator that is no line feed. -/
def bareStamp : Text → Bool
  | [] => false
  | u :: rest =>
    (isLineTerminator u && u ≠ unit '\n' && startsWith historyStamp rest) || bareStamp rest

theorem bareStamp_of_not_lineTerminator (h : isLineTerminator u = false) (rest : Text) :
    bareStamp (u :: rest) = bareStamp rest := by
  rw [bareStamp, h, Bool.false_and, Bool.false_and, Bool.false_or]

theorem bareStamp_drop (h : classes ⊆ historyStamp) (hstarts : startsWith classes t = true) :
    bareStamp (t.drop classes.length) = bareStamp t := by
  induction classes generalizing t with
  | nil => rfl
  | cons c classes ih =>
    cases t with
    | nil => cases hstarts
    | cons u rest =>
      rw [startsWith, Bool.and_eq_true] at hstarts
      have hplain := not_lineTerminator_of_matches (h List.mem_cons_self) hstarts.1
      rw [List.length_cons, List.drop_succ_cons, ih (List.subset_of_cons_subset h) hstarts.2,
        bareStamp_of_not_lineTerminator hplain]

theorem bareStamp_dropSpaces (t : Text) : bareStamp (dropSpaces t) = bareStamp t := by
  induction t with
  | nil => rfl
  | cons u rest ih =>
    by_cases hspace : u = unit ' '
    · have hdropped : dropSpaces (u :: rest) = dropSpaces rest :=
        List.dropWhile_cons_of_pos (by simpa using hspace)
      have hplain : isLineTerminator u = false := by
        rw [hspace]
        decide
      rw [hdropped, ih, bareStamp_of_not_lineTerminator hplain]
    · have hdropped : dropSpaces (u :: rest) = u :: rest :=
        List.dropWhile_cons_of_neg (by simpa using hspace)
      rw [hdropped]

/-- A stamp that is dropped hides no bare one. -/
theorem bareStamp_afterStamp (h : startsWith historyStamp t = true) :
    bareStamp (afterStamp t) = bareStamp t := by
  rw [afterStamp, bareStamp_dropSpaces, bareStamp_drop (List.Subset.refl historyStamp) h]

theorem length_stripped_drop (h : classes ⊆ historyStamp) (hstarts : startsWith classes t = true) :
    (stripped false t).length =
      classes.length + (stripped false (t.drop classes.length)).length := by
  induction classes generalizing t with
  | nil => exact (Nat.zero_add _).symm
  | cons c classes ih =>
    cases t with
    | nil => cases hstarts
    | cons u rest =>
      rw [startsWith, Bool.and_eq_true] at hstarts
      rw [stripped_cons, not_lineTerminator_of_matches (h List.mem_cons_self) hstarts.1,
        List.length_cons, ih (List.subset_of_cons_subset h) hstarts.2, List.length_cons,
        List.drop_succ_cons]
      omega

theorem length_stripped_dropSpaces (t : Text) :
    (stripped false (dropSpaces t)).length ≤ (stripped false t).length := by
  induction t with
  | nil => exact Nat.le_refl _
  | cons u rest ih =>
    by_cases hspace : u = unit ' '
    · have hdropped : dropSpaces (u :: rest) = dropSpaces rest :=
        List.dropWhile_cons_of_pos (by simpa using hspace)
      have hplain : isLineTerminator u = false := by
        rw [hspace]
        decide
      rw [hdropped, stripped_cons, hplain, List.length_cons]
      exact Nat.le_succ_of_le ih
    · have hdropped : dropSpaces (u :: rest) = u :: rest :=
        List.dropWhile_cons_of_neg (by simpa using hspace)
      rw [hdropped]

/-- At a line start no more is left than within a line, and less of a text that starts with a
stamp. -/
theorem length_stripped (t : Text) :
    (stripped true t).length ≤ (stripped false t).length ∧
      (startsWith historyStamp t = true →
        (stripped true t).length < (stripped false t).length) := by
  induction hlength : t.length using Nat.strong_induction_on generalizing t with
  | _ n ih =>
    by_cases hstamp : startsWith historyStamp t = true
    · have hafter := (ih _ (hlength ▸ length_afterStamp_lt hstamp) (afterStamp t) rfl).1
      have hspaces := length_stripped_dropSpaces (t.drop historyStamp.length)
      have hdropped := length_stripped_drop (List.Subset.refl historyStamp) hstamp
      have hlong : historyStamp.length = 20 := rfl
      rw [← afterStamp] at hspaces
      rw [stripped_stamp hstamp]
      omega
    · rw [stripped_true (Bool.eq_false_iff.2 hstamp)]
      exact ⟨Nat.le_refl _, fun h => absurd h hstamp⟩

/-- Without a bare stamp the stripper releases the stripped text; it never releases less. -/
theorem released_stripped (t : Text) :
    (stripped false t).length ≤ (passed t).length ∧
      (stripped true t).length ≤ (atLineStart t).length ∧
      (passed t = stripped false t ↔ bareStamp t = false) ∧
      (atLineStart t = stripped true t ↔ bareStamp t = false) := by
  induction hlength : t.length using Nat.strong_induction_on generalizing t with
  | _ n ih =>
    have hwithin : (stripped false t).length ≤ (passed t).length ∧
        (passed t = stripped false t ↔ bareStamp t = false) := by
      cases t with
      | nil =>
        rw [stripped_nil]
        exact ⟨Nat.zero_le _, fun _ => rfl, fun _ => rfl⟩
      | cons u rest =>
        obtain ⟨hpass, hstart, hpassEq, hstartEq⟩ :=
          ih rest.length (hlength ▸ Nat.lt_succ_self _) rest rfl
        rw [passed_cons, stripped_cons, List.length_cons, List.length_cons, List.cons_inj_right]
        by_cases hnewline : u = unit '\n'
        · have hterminator : isLineTerminator u = true := by
            rw [hnewline]
            decide
          have hbare : bareStamp (u :: rest) = bareStamp rest := by
            rw [bareStamp, decide_eq_false (not_not.2 hnewline), Bool.and_false, Bool.false_and,
              Bool.false_or]
          rw [if_pos hnewline, hterminator, hbare]
          exact ⟨Nat.succ_le_succ hstart, hstartEq⟩
        · rw [if_neg hnewline]
          cases hterminator : isLineTerminator u with
          | false =>
            rw [bareStamp_of_not_lineTerminator hterminator]
            exact ⟨Nat.succ_le_succ hpass, hpassEq⟩
          | true =>
            have hbare : bareStamp (u :: rest) =
                (startsWith historyStamp rest || bareStamp rest) := by
              rw [bareStamp, hterminator, decide_eq_true hnewline, Bool.true_and, Bool.true_and]
            rw [hbare]
            cases hstamp : startsWith historyStamp rest with
            | false =>
              rw [stripped_true hstamp, Bool.false_or]
              exact ⟨Nat.succ_le_succ hpass, hpassEq⟩
            | true =>
              -- the stamp is released, and stripped
              have hshorter := (length_stripped rest).2 hstamp
              rw [Bool.true_or]
              refine ⟨by omega, fun hsame => ?_, nofun⟩
              rw [hsame] at hpass
              omega
    refine ⟨hwithin.1, ?_⟩
    by_cases hstamp : startsWith historyStamp t = true
    · obtain ⟨-, hafter, -, hafterEq⟩ :=
        ih _ (hlength ▸ length_afterStamp_lt hstamp) (afterStamp t) rfl
      rw [bareStamp_afterStamp hstamp] at hafterEq
      rw [atLineStart_eq, if_pos hstamp, stripped_stamp hstamp]
      exact ⟨hafter, hwithin.2, hafterEq⟩
    · rw [atLineStart_eq, if_neg hstamp, stripped_true (Bool.eq_false_iff.2 hstamp)]
      exact ⟨hwithin.1, hwithin.2, hwithin.2⟩

theorem bareStamp_of_lineFeedsOnly (h : LineFeedsOnly t) : bareStamp t = false := by
  induction t with
  | nil => rfl
  | cons u rest ih =>
    rw [bareStamp, h u List.mem_cons_self, ih (h.of_subset (List.subset_cons_self u rest))]
    by_cases hnewline : u = unit '\n'
    · rw [hnewline]
      rfl
    · rw [decide_eq_false hnewline]
      rfl

/-- **The fixpoint of the passes is what the stripper releases.** -/
theorem strip_eq_lineStart (h : LineFeedsOnly t) :
    stripLeadingHistoryStamps t = atLineStart t := by
  rw [strip_eq_stripped]
  exact ((released_stripped t).2.2.2.2 (bareStamp_of_lineFeedsOnly h)).symm

/-! ## Surrogate pairs -/

theorem stampCharMatches_surrogate (hu : 0xd800 ≤ u) (index : Nat) :
    stampCharMatches [u] index = false := by
  rw [stampCharMatches_unit, Bool.eq_false_iff]
  intro hmatch
  obtain ⟨c, hc, hmatches⟩ := (Option.any_eq_true _ _).1 hmatch
  have hupper := (printable_of_matches (List.mem_of_getElem? hc) hmatches).2
  exact absurd (UInt16.le_trans hu hupper) (by decide)

/-- A code point that is no line feed, bracket or space. -/
structure Plain (ch : Text) : Prop where
  newline : ch ≠ text "\n"
  bracket : ch ≠ text "["
  space   : ch ≠ text " "
  stamp   : ∀ index, stampCharMatches ch index = false

theorem plain_pair (u v : UInt16) : Plain [u, v] where
  newline := fun h => nomatch (List.cons.inj h).2
  bracket := fun h => nomatch (List.cons.inj h).2
  space := fun h => nomatch (List.cons.inj h).2
  stamp := fun _ => rfl

theorem plain_surrogate (hu : 0xd800 ≤ u) : Plain [u] := by
  have hne : ∀ x : UInt16, x < 0xd800 → [u] ≠ [x] := by
    intro x hx heq
    obtain rfl := (List.cons.inj heq).1
    exact absurd (UInt16.lt_of_lt_of_le hx hu) (UInt16.lt_irrefl _)
  exact ⟨hne _ (by decide), hne _ (by decide), hne _ (by decide), stampCharMatches_surrogate hu⟩

/-- A plain code point is released after what was withheld. -/
theorem step_plain (s : Stripper) {ch : Text} (h : Plain ch)
    (hwithheld : s.mode ≠ .candidate → s.candidate = []) :
    s.step ch = (s.candidate ++ ch, { mode := .passthrough, candidate := [] }) := by
  obtain ⟨mode, candidate⟩ := s
  cases mode with
  | candidate => simp only [Stripper.step, h.stamp, Bool.false_eq_true, if_false, if_neg h.newline]
  | passthrough =>
    obtain rfl : candidate = [] := hwithheld nofun
    simp only [Stripper.step, if_neg h.newline, List.nil_append]
  | lineStart =>
    obtain rfl : candidate = [] := hwithheld nofun
    simp only [Stripper.step, if_neg h.bracket, ne_eq, h.newline, not_false_eq_true, if_true,
      List.nil_append]
  | afterStamp =>
    obtain rfl : candidate = [] := hwithheld nofun
    simp only [Stripper.step, if_neg h.space, if_neg h.bracket, if_neg h.newline, List.nil_append]

/-! ## The states of a stripper -/

/-- The stripper withholds a proper prefix of a stamp, and only at a line start of what it has
released. -/
structure Stripper.Sound (out : Text) (s : Stripper) : Prop where
  withheld  : s.mode ≠ .candidate → s.candidate = []
  bracket   : s.mode = .candidate → ∃ rest, s.candidate = unit '[' :: rest
  prefixed  : startsWith (historyStamp.take s.candidate.length) s.candidate = true
  short     : s.candidate.length < historyStamp.length
  lineStart : s.mode ≠ .passthrough → ∀ u, out.getLast? = some u → u = unit '\n'

theorem Stripper.sound_initial : ({} : Stripper).Sound [] where
  withheld := fun _ => rfl
  bracket := nofun
  prefixed := rfl
  short := by decide
  lineStart := fun _ u hu => nomatch hu

theorem startsWith_append {classes' : List UnitClass} {t' : Text} (h : classes.length = t.length) :
    startsWith (classes ++ classes') (t ++ t') =
      (startsWith classes t && startsWith classes' t') := by
  induction classes generalizing t with
  | nil =>
    obtain rfl := List.length_eq_zero_iff.1 h.symm
    rfl
  | cons c classes ih =>
    cases t with
    | nil => cases h
    | cons u rest =>
      rw [List.cons_append, List.cons_append, startsWith, startsWith, ih (Nat.succ.inj h),
        Bool.and_assoc]

/-- A released unit leaves a stripper that withholds nothing. -/
theorem Stripper.sound_passed (out : Text) (u : UInt16) :
    ({ mode := if [u] = text "\n" then .lineStart else .passthrough, candidate := [] } :
      Stripper).Sound (out ++ [u]) := by
  by_cases hnewline : [u] = text "\n"
  · rw [if_pos hnewline]
    refine ⟨fun _ => rfl, nofun, rfl, (by decide), fun _ v hv => ?_⟩
    rw [List.getLast?_concat] at hv
    rw [← Option.some.inj hv]
    exact (List.cons.inj hnewline).1
  · rw [if_neg hnewline]
    exact ⟨fun _ => rfl, nofun, rfl, (by decide), fun h => absurd rfl h⟩

variable {out : Text}

theorem Stripper.sound_bracket (h : ∀ u, out.getLast? = some u → u = unit '\n') :
    ({ mode := .candidate, candidate := text "[" } : Stripper).Sound (out ++ []) := by
  refine ⟨fun hmode => absurd rfl hmode, fun _ => ⟨[], rfl⟩, (by decide), (by decide), fun _ => ?_⟩
  rw [List.append_nil]
  exact h

/-- **One unit keeps the stripper sound.** -/
theorem Stripper.Sound.step {out : Text} {s : Stripper} (h : s.Sound out) (u : UInt16) :
    (s.step [u]).2.Sound (out ++ (s.step [u]).1) := by
  obtain ⟨mode, candidate⟩ := s
  obtain ⟨hwithheld, hbracket, hprefixed, hshort, hline⟩ := h
  cases mode with
  | passthrough =>
    obtain rfl : candidate = [] := hwithheld nofun
    exact sound_passed out u
  | lineStart =>
    obtain rfl : candidate = [] := hwithheld nofun
    rw [Stripper.step]
    dsimp only
    split
    · exact sound_bracket (hline nofun)
    · rw [ite_not]
      exact sound_passed out u
  | afterStamp =>
    obtain rfl : candidate = [] := hwithheld nofun
    rw [Stripper.step]
    dsimp only
    split
    · refine ⟨hwithheld, nofun, hprefixed, hshort, fun _ => ?_⟩
      rw [List.append_nil]
      exact hline nofun
    · split
      · exact sound_bracket (hline nofun)
      · exact sound_passed out u
  | candidate =>
    rw [Stripper.step]
    dsimp only
    split
    · rename_i hmatch
      split
      · refine ⟨fun _ => rfl, nofun, rfl, (by decide), fun _ => ?_⟩
        rw [List.append_nil]
        exact hline nofun
      · rename_i hfull
        rw [stampCharMatches_unit, List.getElem?_eq_getElem hshort, Option.any_some] at hmatch
        have hlength : (candidate ++ [u]).length = candidate.length + 1 := by simp
        refine ⟨fun hmode => absurd rfl hmode, fun _ => ?_, ?_, ?_, fun _ => ?_⟩
        · obtain ⟨rest, hrest⟩ := hbracket rfl
          dsimp only at hrest
          exact ⟨rest ++ [u], by rw [hrest]; rfl⟩
        · rw [hlength, List.take_succ_eq_append_getElem hshort,
            startsWith_append (by simp [hshort.le]), hprefixed, startsWith, hmatch, startsWith]
          rfl
        · refine Nat.lt_of_le_of_ne ?_ hfull
          rw [hlength]
          exact hshort
        · rw [List.append_nil]
          exact hline nofun
    · rw [← List.append_assoc]
      exact sound_passed (out ++ candidate) u

/-! ## Chunks -/

def units (t : Text) : List Text := t.map fun u => [u]

variable {s : Stripper}

/-- The code points of a chunk go through as its units. -/
theorem push_eq_units (h : s.Sound out) (chunk : Text) :
    s.push chunk = s.run (units chunk) := by
  rw [Stripper.push]
  induction chunk using codePoints.induct generalizing s out with
  | case1 => rfl
  | case2 u => rfl
  | case3 u v rest hpair ih =>
    rw [codePoints, if_pos hpair]
    simp only [Bool.and_eq_true, decide_eq_true_eq] at hpair
    obtain ⟨⟨⟨hu, -⟩, hv⟩, -⟩ := hpair
    have hv' : (0xd800 : UInt16) ≤ v := UInt16.le_trans (by decide) hv
    have hfirst := step_plain s (plain_surrogate hu) h.withheld
    have hsecond := step_plain ⟨.passthrough, []⟩ (plain_surrogate hv') fun _ => rfl
    have hboth := step_plain s (plain_pair u v) h.withheld
    have hsound := (h.step u).step v
    rw [hfirst, hsecond] at hsound
    have hrest := ih hsound
    show s.run ([u, v] :: codePoints rest) = s.run ([u] :: [v] :: units rest)
    simp only [Stripper.run, hboth, hfirst, hsecond, hrest, List.append_assoc, List.nil_append,
      List.cons_append]
  | case4 u v rest hno ih =>
    rw [codePoints, if_neg hno]
    show s.run ([u] :: codePoints (v :: rest)) = s.run ([u] :: units (v :: rest))
    simp only [Stripper.run, ih (h.step u)]

theorem run_units_sound (h : s.Sound out) (t : Text) :
    (s.run (units t)).2.Sound (out ++ (s.run (units t)).1) := by
  induction t generalizing s out with
  | nil => exact (List.append_nil out).symm ▸ h
  | cons u rest ih =>
    show ((s.step [u]).2.run (units rest)).2.Sound
      (out ++ ((s.step [u]).1 ++ ((s.step [u]).2.run (units rest)).1))
    rw [← List.append_assoc]
    exact ih (h.step u)

theorem run_units_released (s : Stripper) (t t' : Text) :
    (s.run (units t)).1 ++ (s.run (units t)).2.released t' = s.released (t ++ t') := by
  induction t generalizing s with
  | nil => rfl
  | cons u rest ih =>
    show ((s.step [u]).1 ++ ((s.step [u]).2.run (units rest)).1) ++
      ((s.step [u]).2.run (units rest)).2.released t' = _
    rw [List.append_assoc, ih]
    rfl

/-- The chunks one after the other: all that is released, and the stripper afterwards. -/
def Stripper.pushAll (s : Stripper) : List Text → Text × Stripper
  | [] => ([], s)
  | chunk :: chunks =>
    let (out, s') := s.push chunk
    let (more, s'') := s'.pushAll chunks
    (out ++ more, s'')

theorem pushAll_sound (h : s.Sound out) (chunks : List Text) :
    (s.pushAll chunks).2.Sound (out ++ (s.pushAll chunks).1) := by
  induction chunks generalizing s out with
  | nil => exact (List.append_nil out).symm ▸ h
  | cons chunk chunks ih =>
    have hpush := run_units_sound h chunk
    rw [← push_eq_units h] at hpush
    show ((s.push chunk).2.pushAll chunks).2.Sound
      (out ++ ((s.push chunk).1 ++ ((s.push chunk).2.pushAll chunks).1))
    rw [← List.append_assoc]
    exact ih hpush

theorem pushAll_released (h : s.Sound out) (chunks : List Text) :
    (s.pushAll chunks).1 ++ (s.pushAll chunks).2.flush.1 = s.released chunks.flatten := by
  induction chunks generalizing s out with
  | nil => rfl
  | cons chunk chunks ih =>
    have hpush := run_units_sound h chunk
    rw [← push_eq_units h] at hpush
    show ((s.push chunk).1 ++ ((s.push chunk).2.pushAll chunks).1) ++
      ((s.push chunk).2.pushAll chunks).2.flush.1 = _
    rw [List.append_assoc, ih hpush, List.flatten_cons, push_eq_units h, run_units_released]

/-- **Over any chunks of a text over line feeds only, what the stripper releases is the stripped
text.** -/
theorem pushAll_flush {chunks : List Text} (h : LineFeedsOnly chunks.flatten) :
    (({} : Stripper).pushAll chunks).1 ++ (({} : Stripper).pushAll chunks).2.flush.1 =
      stripLeadingHistoryStamps chunks.flatten := by
  rw [pushAll_released Stripper.sound_initial, strip_eq_lineStart h]
  rfl

/-- **Streamed over any chunks, the text is the stripped text exactly when no stamp follows a line
terminator other than a line feed.** -/
theorem stream_strips_iff (chunks : List Text) :
    (({} : Stripper).pushAll chunks).1 ++ (({} : Stripper).pushAll chunks).2.flush.1 =
        stripLeadingHistoryStamps chunks.flatten ↔ bareStamp chunks.flatten = false := by
  rw [pushAll_released Stripper.sound_initial, strip_eq_stripped]
  exact (released_stripped chunks.flatten).2.2.2

/-- After a carriage return the stamp is stripped from the text, and not from the stream. -/
theorem stream_keeps :
    ¬ ∀ chunks : List Text,
      (({} : Stripper).pushAll chunks).1 ++ (({} : Stripper).pushAll chunks).2.flush.1 =
        stripLeadingHistoryStamps chunks.flatten := by
  intro h
  have hsame := h [text "Hi\r[Mon 01-02-26 12:34] there"]
  rw [pushAll_released Stripper.sound_initial, strip_eq_stripped] at hsame
  have hno := (released_stripped _).2.2.2.1 hsame
  exact absurd hno (by decide)

end Psfn.Voice
