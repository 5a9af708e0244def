import Psfn.Intake.ReceiptBinding
import Psfn.Scheduler.Definitions

/-!
# Tool-call scheduler — call signatures

`buildToolCallSignature` joins the name of a tool and the sorted text of the arguments with a
colon; a name may hold colons itself, and so may the text.

* `ColonScan.run` — reads a text from the left and stops at a colon outside of all brackets and
  strings, and at a backslash outside of strings;
* `balanced_writeCanonical` — the text of a JSON value is read through from outside, at any depth,
  and from inside a string it ends inside a string;
* `signature_eq_iff` — so no text of a value ends in a colon and the text of another, and a
  signature tells the name and the arguments.
-/

namespace Psfn.Scheduler

open Psfn.Lib Psfn.Lib.JsValue
open Psfn.Lib.Json (quote quoteChar)

/-- The text of a number is a parameter. -/
def stableStringify (N : NumberText) (value : JsValue) : String :=
  String.ofList (writeCanonical N value)

/-! ## Reading a text from the left -/

/-- Where a reader of JSON text stands. -/
inductive ColonScan where
  | outside (depth : Nat)
  | inside (depth : Nat)
  | escaped (depth : Nat)
deriving DecidableEq

namespace ColonScan

def step : ColonScan → Char → Option ColonScan
  | outside depth, c =>
    if c = '\x22' then some (inside depth)
    else if c = '\\' then none
    else if c = ':' then (if depth = 0 then none else some (outside depth))
    else if c = '[' ∨ c = '\x7b' then some (outside (depth + 1))
    else if c = ']' ∨ c = '\x7d' then (if depth = 0 then none else some (outside (depth - 1)))
    else some (outside depth)
  | inside depth, c =>
    if c = '\x22' then some (outside depth)
    else if c = '\\' then some (escaped depth)
    else some (inside depth)
  | escaped depth, _ => some (inside depth)

def run (place : ColonScan) (t : List Char) : Option ColonScan := t.foldlM step place

@[simp] theorem run_nil (place : ColonScan) : run place [] = some place := rfl

theorem run_cons (place : ColonScan) (c : Char) (t : List Char) :
    run place (c :: t) = (step place c).bind fun next => run next t := rfl

theorem run_append (place : ColonScan) (s t : List Char) :
    run place (s ++ t) = (run place s).bind fun next => run next t := List.foldlM_append

/-- A character that takes a reader nowhere else. -/
def Plain (c : Char) : Prop := ∀ depth, step (outside depth) c = some (outside depth) ∧
  step (inside depth) c = some (inside depth)

/-- A text that a reader inside of brackets reads through, and that leaves a reader inside of a
string in one. -/
structure Nested (t : List Char) : Prop where
  level : ∀ depth, run (outside (depth + 1)) t = some (outside (depth + 1))
  flips : ∀ depth place, run (inside depth) t = some place → ∃ depth', place = inside depth'

/-- As `Nested`, also for a reader outside of all brackets. -/
structure Balanced (t : List Char) : Prop where
  level : ∀ depth, run (outside depth) t = some (outside depth)
  flips : ∀ depth place, run (inside depth) t = some place → ∃ depth', place = inside depth'

theorem Balanced.nested {t : List Char} (h : Balanced t) : Nested t :=
  ⟨fun depth => h.level (depth + 1), h.flips⟩

theorem nested_nil : Nested [] where
  level _ := rfl
  flips depth _ h := ⟨depth, (Option.some.inj h).symm⟩

theorem Nested.append {s t : List Char} (hs : Nested s) (ht : Nested t) : Nested (s ++ t) where
  level depth := by
    rw [run_append, hs.level depth, Option.bind_some, ht.level depth]
  flips depth place h := by
    rw [run_append] at h
    obtain ⟨next, hnext, h⟩ := Option.bind_eq_some_iff.1 h
    obtain ⟨depth', rfl⟩ := hs.flips depth next hnext
    exact ht.flips depth' place h

theorem nested_comma : Nested [','] where
  level _ := rfl
  flips depth _ h := ⟨depth, (Option.some.inj h).symm⟩

theorem nested_colon : Nested [':'] where
  level _ := rfl
  flips depth _ h := ⟨depth, (Option.some.inj h).symm⟩

theorem balanced_of_plain {t : List Char} (h : ∀ c ∈ t, Plain c) : Balanced t := by
  have hread : ∀ depth, run (outside depth) t = some (outside depth) ∧
      run (inside depth) t = some (inside depth) := by
    intro depth
    induction t with
    | nil => exact ⟨rfl, rfl⟩
    | cons c t ih =>
      obtain ⟨hout, hin⟩ := h c List.mem_cons_self depth
      have hrest := ih fun d hd => h d (List.mem_cons_of_mem c hd)
      rw [run_cons, run_cons, hout, hin]
      exact hrest
  refine ⟨fun depth => (hread depth).1, fun depth place hplace => ⟨depth, ?_⟩⟩
  rw [(hread depth).2] at hplace
  exact (Option.some.inj hplace).symm

/-- The characters that a reader looks at. -/
def structural : List Char := ['\x22', '\\', ':', '[', '\x7b', ']', '\x7d']

theorem plain_of_notMem {c : Char} (h : c ∉ structural) : Plain c := by
  simp only [structural, List.mem_cons, List.not_mem_nil, or_false, not_or] at h
  obtain ⟨hquote, hescape, hcolon, hopen, hbrace, hclose, hend⟩ := h
  intro depth
  simp [step, hquote, hescape, hcolon, hopen, hbrace, hclose, hend]

theorem plain_of_isNumberChar {c : Char} (h : isNumberChar c = true) : Plain c := by
  refine plain_of_notMem fun hmem => ?_
  have hstructural : ∀ d ∈ structural, isNumberChar d = false := by
    simp [structural, isNumberChar]
  rw [hstructural c hmem] at h
  cases h

/-- The text of `null` and of a boolean. -/
theorem balanced_word {t : List Char} (h : ∀ c ∈ t, c.isAlpha = true) : Balanced t := by
  refine balanced_of_plain fun c hc => plain_of_notMem fun hmem => ?_
  have hstructural : ∀ d ∈ structural, d.isAlpha = false := by
    simp [structural]
  have halpha := h c hc
  rw [hstructural c hmem] at halpha
  cases halpha

/-- Brackets around a nested text. -/
theorem Nested.wrap {t : List Char} (h : Nested t) {a b : Char}
    (hbrackets : (a = '[' ∧ b = ']') ∨ (a = '\x7b' ∧ b = '\x7d')) : Balanced (a :: (t ++ [b])) := by
  have hopen : ∀ depth, step (outside depth) a = some (outside (depth + 1)) ∧
      step (inside depth) a = some (inside depth) := by
    rcases hbrackets with ⟨rfl, -⟩ | ⟨rfl, -⟩ <;> exact fun depth => ⟨rfl, rfl⟩
  have hclose : ∀ depth, step (outside (depth + 1)) b = some (outside depth) ∧
      step (inside depth) b = some (inside depth) := by
    rcases hbrackets with ⟨-, rfl⟩ | ⟨-, rfl⟩ <;> exact fun depth => ⟨rfl, rfl⟩
  refine ⟨fun depth => ?_, fun depth place hplace => ?_⟩
  · rw [run_cons, (hopen depth).1, Option.bind_some, run_append, h.level depth, Option.bind_some,
      run_cons, (hclose depth).1]
    rfl
  · rw [run_cons, (hopen depth).2, Option.bind_some, run_append] at hplace
    obtain ⟨next, hnext, hplace⟩ := Option.bind_eq_some_iff.1 hplace
    obtain ⟨depth', rfl⟩ := h.flips depth next hnext
    rw [run_cons, (hclose depth').2] at hplace
    exact ⟨depth', (Option.some.inj hplace).symm⟩

/-- A character of a string is an escape, which is read inside only, or stands for itself. -/
theorem run_quoteChar (c : Char) (depth : Nat) :
    run (inside depth) (quoteChar c) = some (inside depth) ∧
      ∀ place, run (outside depth) (quoteChar c) = some place → ∃ depth', place = outside depth' := by
  by_cases hquote : c = '\x22'
  · subst hquote
    exact ⟨rfl, nofun⟩
  by_cases hescape : c = '\\'
  · subst hescape
    exact ⟨rfl, nofun⟩
  have hshort : ∀ d, run (inside depth) ['\\', d] = some (inside depth) ∧
      ∀ place, run (outside depth) ['\\', d] = some place → ∃ depth', place = outside depth' :=
    fun d => ⟨rfl, nofun⟩
  rw [quoteChar, if_neg hquote, if_neg hescape]
  split
  · exact hshort 'b'
  split
  · exact hshort 't'
  split
  · exact hshort 'n'
  split
  · exact hshort 'f'
  split
  · exact hshort 'r'
  split
  · next hcontrol =>
    have hdigit : ∀ n < 16, Nat.digitChar n ≠ '\x22' ∧ Nat.digitChar n ≠ '\\' := by decide
    obtain ⟨hhigh, hhigh'⟩ := hdigit (c.toNat / 16) (by omega)
    obtain ⟨hlow, hlow'⟩ := hdigit (c.toNat % 16) (by omega)
    refine ⟨?_, nofun⟩
    simp [run_cons, step, hhigh, hhigh', hlow, hlow']
  · refine ⟨by simp [run_cons, step, hquote, hescape], fun place hplace => ?_⟩
    rw [run_cons, step, if_neg hquote, if_neg hescape] at hplace
    split at hplace
    · split at hplace
      · cases hplace
      · exact ⟨_, (Option.some.inj hplace).symm⟩
    split at hplace
    · exact ⟨_, (Option.some.inj hplace).symm⟩
    split at hplace
    · split at hplace
      · cases hplace
      · exact ⟨_, (Option.some.inj hplace).symm⟩
    · exact ⟨_, (Option.some.inj hplace).symm⟩

theorem run_quoteChars (l : List Char) (depth : Nat) :
    run (inside depth) (l.flatMap quoteChar) = some (inside depth) ∧
      ∀ place, run (outside depth) (l.flatMap quoteChar) = some place →
        ∃ depth', place = outside depth' := by
  induction l generalizing depth with
  | nil => exact ⟨rfl, fun place h => ⟨depth, (Option.some.inj h).symm⟩⟩
  | cons c l ih =>
    rw [List.flatMap_cons]
    refine ⟨?_, fun place hplace => ?_⟩
    · rw [run_append, (run_quoteChar c depth).1, Option.bind_some, (ih depth).1]
    · rw [run_append] at hplace
      obtain ⟨next, hnext, hplace⟩ := Option.bind_eq_some_iff.1 hplace
      obtain ⟨depth', rfl⟩ := (run_quoteChar c depth).2 next hnext
      exact (ih depth').2 place hplace

theorem balanced_quote (s : String) : Balanced (quote s) where
  level depth := by
    have hopen : step (outside depth) '\x22' = some (inside depth) := rfl
    rw [quote, run_cons, hopen, Option.bind_some, run_append, (run_quoteChars s.toList depth).1]
    rfl
  flips depth place h := by
    have hopen : step (inside depth) '\x22' = some (outside depth) := rfl
    rw [quote, run_cons, hopen, Option.bind_some, run_append] at h
    obtain ⟨next, hnext, h⟩ := Option.bind_eq_some_iff.1 h
    obtain ⟨depth', rfl⟩ := (run_quoteChars s.toList depth).2 next hnext
    exact ⟨depth', (Option.some.inj h).symm⟩

theorem nested_joinTexts {texts : List (List Char)} (h : ∀ t ∈ texts, Nested t) :
    Nested (joinTexts texts) := by
  cases texts with
  | nil => exact nested_nil
  | cons first rest =>
    have hrest : Nested (rest.flatMap fun t => ',' :: t) := by
      have hmem : ∀ t ∈ rest, Nested t := fun t ht => h t (List.mem_cons_of_mem first ht)
      clear h
      induction rest with
      | nil => exact nested_nil
      | cons t rest ih =>
        rw [List.forall_mem_cons] at hmem
        rw [List.flatMap_cons]
        exact (nested_comma.append hmem.1).append (ih hmem.2)
    exact (h first List.mem_cons_self).append hrest

end ColonScan

open ColonScan

theorem balanced_writeCanonical (N : NumberText) : ∀ {value : JsValue}, value.IsJson →
    Balanced (writeCanonical N value)
  | .undefined, h => h.elim
  | .null, _ => balanced_word (by simp [writeCanonical])
  | .bool b, _ => by
    cases b with
    | false => exact balanced_word (by simp [writeCanonical])
    | true => exact balanced_word (by simp [writeCanonical])
  | .number n, h => by
    rw [isJson_number] at h
    cases n with
    | finite q =>
      rw [writeCanonical]
      exact balanced_of_plain fun c hc => plain_of_isNumberChar (N.units q c hc)
    | posInf => cases h
    | negInf => cases h
    | nan => cases h
  | .string s, _ => balanced_quote s
  | .array items, h => by
    rw [writeCanonical, writeItems_eq]
    refine (nested_joinTexts fun t ht => ?_).wrap (.inl ⟨rfl, rfl⟩)
    obtain ⟨item, hitem, rfl⟩ := List.mem_map.1 ht
    have := List.sizeOf_lt_of_mem hitem
    exact (balanced_writeCanonical N (isJson_array.1 h item hitem)).nested
  | .object properties, h => by
    rw [writeCanonical_object]
    refine (nested_joinTexts fun t ht => ?_).wrap (.inr ⟨rfl, rfl⟩)
    obtain ⟨p, hp, rfl⟩ := List.mem_map.1 ht
    have hmem := (sortEntries_perm properties).mem_iff.1 hp
    have hlt := List.sizeOf_lt_of_mem hmem
    have hvalue : p.2.IsJson := isJson_object.1 h p hmem
    obtain ⟨key, value⟩ := p
    have : sizeOf (key, value) = 1 + sizeOf key + sizeOf value := rfl
    exact (balanced_quote key).nested.append
      (nested_colon.append (balanced_writeCanonical N hvalue).nested)
termination_by value => sizeOf value
decreasing_by all_goals simp_wf; omega

/-- The text of a value is not a text, a colon and the text of another value. -/
theorem ne_append_colon {s t front : List Char} (hs : Balanced s) (ht : Balanced t) :
    s ≠ front ++ ':' :: t := by
  rintro rfl
  have hread := hs.level 0
  rw [run_append] at hread
  obtain ⟨place, -, hread⟩ := Option.bind_eq_some_iff.1 hread
  rw [run_cons] at hread
  obtain ⟨next, hnext, hread⟩ := Option.bind_eq_some_iff.1 hread
  have hflipped : ∀ depth, next ≠ inside depth := by
    rintro depth rfl
    obtain ⟨depth', heq⟩ := ht.flips depth _ hread
    cases heq
  cases place with
  | outside depth =>
    cases depth with
    | zero => cases hnext
    | succ depth =>
      -- a colon inside of brackets: the text after it leaves them open
      obtain rfl := Option.some.inj hnext
      rw [ht.level] at hread
      cases hread
  | inside depth => exact hflipped depth (Option.some.inj hnext).symm
  | escaped depth => exact hflipped depth (Option.some.inj hnext).symm

/-- The two ends of a signature. -/
theorem name_arguments_inj (N : NumberText) {name name' : List Char} {a b : JsValue}
    (ha : a.IsJson) (hb : b.IsJson)
    (h : name ++ ':' :: writeCanonical N a = name' ++ ':' :: writeCanonical N b) :
    name = name' ∧ writeCanonical N a = writeCanonical N b := by
  have hleft := balanced_writeCanonical N ha
  have hright := balanced_writeCanonical N hb
  rcases List.append_eq_append_iff.1 h with ⟨front, hname, htail⟩ | ⟨front, hname, htail⟩
  · cases front with
    | nil => exact ⟨by simpa using hname.symm, (List.cons.inj htail).2⟩
    | cons c front => exact absurd (List.cons.inj htail).2 (ne_append_colon hleft hright)
  · cases front with
    | nil => exact ⟨by simpa using hname, (List.cons.inj htail).2.symm⟩
    | cons c front => exact absurd (List.cons.inj htail).2 (ne_append_colon hright hleft)

/-- A value that JSON text is read as. -/
structure IsArguments (value : JsValue) : Prop where
  json     : value.IsJson
  distinct : value.DistinctKeys

/-- **A signature tells the call**: two calls with JSON arguments have one signature exactly when
the names are equal and the arguments are, up to the order of keys at every depth. -/
theorem signature_eq_iff (N : NumberText) {call call' : ToolCall}
    (harguments : IsArguments call.arguments) (harguments' : IsArguments call'.arguments) :
    buildToolCallSignature (stableStringify N) call =
        buildToolCallSignature (stableStringify N) call' ↔
      call.name = call'.name ∧ SameJson call.arguments call'.arguments := by
  rw [sameJson_iff harguments.json harguments.distinct,
    ← writeCanonical_eq_iff N harguments.json harguments'.json]
  have htext : ∀ c : ToolCall, (buildToolCallSignature (stableStringify N) c).toList =
      c.name.toList ++ ':' :: writeCanonical N c.arguments := by
    intro c
    simp [buildToolCallSignature, stableStringify, String.toList_append]
  rw [← String.toList_inj, htext, htext]
  constructor
  · intro h
    obtain ⟨hname, hsame⟩ := name_arguments_inj N harguments.json harguments'.json h
    exact ⟨String.toList_inj.1 hname, hsame⟩
  · rintro ⟨hname, hsame⟩
    rw [hname, hsame]

/-- One call, its arguments in two orders. -/
def pathFirst : ToolCall where
  id := "1"
  name := "read"
  arguments := .object [("path", .string "a"), ("line", .number (.finite 3))]

def lineFirst : ToolCall where
  id := "2"
  name := "read"
  arguments := .object [("line", .number (.finite 3)), ("path", .string "a")]

theorem signature_eq_iff_read :
    buildToolCallSignature (stableStringify Intake.decimals) pathFirst =
        buildToolCallSignature (stableStringify Intake.decimals) lineFirst ↔
      pathFirst.name = lineFirst.name ∧ SameJson pathFirst.arguments lineFirst.arguments :=
  signature_eq_iff Intake.decimals
    ⟨by simp [pathFirst, JsNumber.isFinite],
      by simp [pathFirst, DistinctKeys, DistinctKeysOfProperties]⟩
    ⟨by simp [lineFirst, JsNumber.isFinite],
      by simp [lineFirst, DistinctKeys, DistinctKeysOfProperties]⟩

end Psfn.Scheduler
