import Psfn.Lib.JsValue

/-!
# JSON text

`JSON.stringify` on values made of strings, integers, arrays and objects, and `JSON.parse`. A
string is a sequence of Unicode scalar values: an escape that stands for half a surrogate pair is
not read.

* `parse_stringify` — a value whose keys are distinct and whose integers are safe is read back.
-/

namespace Psfn.Lib

/-- What a record with typed fields is written from. -/
inductive Json where
  | null
  | bool (b : Bool)
  | int (n : Int)
  | string (s : String)
  | array (items : List Json)
  | object (members : List (String × Json))

namespace Json

open JsString (hexValue)

mutual

/-- The value that a reader of the text meets. -/
def value : Json → JsValue
  | null => .null
  | bool b => .bool b
  | int n => .number (.finite n)
  | string s => .string s
  | array items => .array (values items)
  | object members => .object (memberValues members)

def values : List Json → List JsValue
  | [] => []
  | item :: rest => item.value :: values rest

def memberValues : List (String × Json) → List (String × JsValue)
  | [] => []
  | (key, item) :: rest => (key, item.value) :: memberValues rest

end

/-! ## Writing -/

/-- The short escapes, the other control characters, and what needs no escape. -/
def quoteChar (c : Char) : List Char :=
  if c = '\x22' then ['\\', '\x22']
  else if c = '\\' then ['\\', '\\']
  else if c = '\x08' then ['\\', 'b']
  else if c = '\x09' then ['\\', 't']
  else if c = '\x0a' then ['\\', 'n']
  else if c = '\x0c' then ['\\', 'f']
  else if c = '\x0d' then ['\\', 'r']
  else if c.toNat < 32 then
    ['\\', 'u', '0', '0', Nat.digitChar (c.toNat / 16), Nat.digitChar (c.toNat % 16)]
  else [c]

def quote (s : String) : List Char := '\x22' :: (s.toList.flatMap quoteChar ++ ['\x22'])

def intText (n : Int) : List Char :=
  if n < 0 then '-' :: Nat.toDigits 10 n.natAbs else Nat.toDigits 10 n.natAbs

mutual

/-- `JSON.stringify`; integers are below `10 ^ 21`. -/
def stringify : Json → List Char
  | null => ['n', 'u', 'l', 'l']
  | bool true => ['t', 'r', 'u', 'e']
  | bool false => ['f', 'a', 'l', 's', 'e']
  | int n => intText n
  | string s => quote s
  | array [] => ['[', ']']
  | array (item :: rest) => '[' :: (stringify item ++ stringifyItems rest ++ [']'])
  | object [] => ['\x7b', '\x7d']
  | object ((key, item) :: rest) =>
    '\x7b' :: (quote key ++ ':' :: stringify item ++ stringifyMembers rest ++ ['\x7d'])

/-- The items after the first, each after a comma. -/
def stringifyItems : List Json → List Char
  | [] => []
  | item :: rest => ',' :: (stringify item ++ stringifyItems rest)

def stringifyMembers : List (String × Json) → List Char
  | [] => []
  | (key, item) :: rest => ',' :: (quote key ++ ':' :: stringify item ++ stringifyMembers rest)

end

/-! ## Reading -/

def isJsonSpace (c : Char) : Bool := c = ' ' || c = '\x09' || c = '\x0a' || c = '\x0d'

def skipSpace (text : List Char) : List Char := text.dropWhile isJsonSpace

/-- The code unit of `\uXXXX`. -/
def hexUnit (a b c d : Char) : Option Nat := do
  let a ← hexValue a
  let b ← hexValue b
  let c ← hexValue c
  let d ← hexValue d
  return ((a * 16 + b) * 16 + c) * 16 + d

def shortEscape (c : Char) : Option Char :=
  if c = '\x22' then some '\x22'
  else if c = '\\' then some '\\'
  else if c = '/' then some '/'
  else if c = 'b' then some '\x08'
  else if c = 't' then some '\x09'
  else if c = 'n' then some '\x0a'
  else if c = 'f' then some '\x0c'
  else if c = 'r' then some '\x0d'
  else none

/-- After the opening quote. -/
def parseString : List Char → Option (List Char × List Char)
  | [] => none
  | '\\' :: 'u' :: a :: b :: c :: d :: rest =>
    match hexUnit a b c d with
    | none => none
    | some unit =>
      if 0xd800 ≤ unit ∧ unit < 0xdc00 then
        match rest with
        | '\\' :: 'u' :: a' :: b' :: c' :: d' :: rest' =>
          match hexUnit a' b' c' d' with
          | none => none
          | some low =>
            if 0xdc00 ≤ low ∧ low < 0xe000 then
              (parseString rest').map fun p =>
                (Char.ofNat (0x10000 + (unit - 0xd800) * 1024 + (low - 0xdc00)) :: p.1, p.2)
            else none
        | _ => none
      else if 0xdc00 ≤ unit ∧ unit < 0xe000 then none
      else (parseString rest).map fun p => (Char.ofNat unit :: p.1, p.2)
  | c :: rest =>
    if c = '\x22' then some ([], rest)
    else if c = '\\' then
      match rest with
      | [] => none
      | e :: rest' =>
        match shortEscape e with
        | none => none
        | some c => (parseString rest').map fun p => (c :: p.1, p.2)
    else if c.toNat < 32 then none
    else (parseString rest).map fun p => (c :: p.1, p.2)

/-- A run of digits, one at least. -/
def takeDigits (text : List Char) : Option (List Char × List Char) :=
  match text.takeWhile Char.isDigit with
  | [] => none
  | digits => some (digits, text.dropWhile Char.isDigit)

/-- `.` and digits, if there is one. -/
def takeFraction : List Char → Option (List Char × List Char)
  | '.' :: rest => takeDigits rest
  | text => some ([], text)

/-- The exponent, if there is one. -/
def takeExponent : List Char → Option (Option Int × List Char)
  | c :: rest =>
    if c = 'e' ∨ c = 'E' then
      match rest with
      | '-' :: rest =>
        (takeDigits rest).map fun p => (some (-Nat.ofDigitChars 10 p.1 0), p.2)
      | '+' :: rest =>
        (takeDigits rest).map fun p => (some (Nat.ofDigitChars 10 p.1 0), p.2)
      | rest =>
        (takeDigits rest).map fun p => (some (Nat.ofDigitChars 10 p.1 0), p.2)
    else some (none, c :: rest)
  | [] => some (none, [])

/-- A safe integer is exact; any other number is the nearest double. -/
def numberValue (negative : Bool) (digits fraction : List Char) (exponent : Option Int) :
    JsNumber :=
  let whole := Nat.ofDigitChars 10 digits 0
  let sign : Int := if negative then -1 else 1
  if fraction = [] ∧ exponent = none ∧ whole ≤ 9007199254740991 then .finite (sign * whole : Int)
  else .ofRat (sign * (whole + Nat.ofDigitChars 10 fraction 0 / 10 ^ fraction.length) *
    10 ^ (exponent.getD 0))

def parseNumber (text : List Char) : Option (JsNumber × List Char) :=
  let negative := text.head? = some '-'
  match takeDigits (if negative then text.tail else text) with
  | none => none
  | some (digits, rest) =>
    if digits.head? = some '0' ∧ digits.length ≠ 1 then none
    else match takeFraction rest with
      | none => none
      | some (fraction, rest) =>
        (takeExponent rest).map fun p =>
          (numberValue negative digits fraction p.1, p.2)

mutual

def parseValue : Nat → List Char → Option (JsValue × List Char)
  | 0, _ => none
  | fuel + 1, text =>
    match skipSpace text with
    | '\x22' :: rest => (parseString rest).map fun p => (.string (String.ofList p.1), p.2)
    | '[' :: rest =>
      match skipSpace rest with
      | ']' :: rest => some (.array [], rest)
      | rest => (parseItems fuel rest).map fun p => (.array p.1, p.2)
    | '\x7b' :: rest =>
      match skipSpace rest with
      | '\x7d' :: rest => some (.object [], rest)
      | rest =>
        (parseMembers fuel rest).map fun p =>
          (.object (JsMap.ofList p.1).entries, p.2)
    | 'n' :: 'u' :: 'l' :: 'l' :: rest => some (.null, rest)
    | 't' :: 'r' :: 'u' :: 'e' :: rest => some (.bool true, rest)
    | 'f' :: 'a' :: 'l' :: 's' :: 'e' :: rest => some (.bool false, rest)
    | text => (parseNumber text).map fun p => (.number p.1, p.2)

def parseItems : Nat → List Char → Option (List JsValue × List Char)
  | 0, _ => none
  | fuel + 1, text =>
    match parseValue fuel text with
    | none => none
    | some (item, rest) =>
      match skipSpace rest with
      | ']' :: rest => some ([item], rest)
      | ',' :: rest => (parseItems fuel rest).map fun p => (item :: p.1, p.2)
      | _ => none

def parseMembers : Nat → List Char → Option (List (String × JsValue) × List Char)
  | 0, _ => none
  | fuel + 1, text =>
    match skipSpace text with
    | '\x22' :: rest =>
      match parseString rest with
      | none => none
      | some (key, rest) =>
        match skipSpace rest with
        | ':' :: rest =>
          match parseValue fuel rest with
          | none => none
          | some (item, rest) =>
            match skipSpace rest with
            | '\x7d' :: rest => some ([(String.ofList key, item)], rest)
            | ',' :: rest =>
              (parseMembers fuel rest).map fun p =>
                ((String.ofList key, item) :: p.1, p.2)
            | _ => none
        | _ => none
    | _ => none

end

/-- `JSON.parse`. A value is never deeper than its text is long. -/
def parse (text : List Char) : Option JsValue :=
  match parseValue (text.length + 1) text with
  | some (value, rest) => if skipSpace rest = [] then some value else none
  | none => none

/-! ## Strings -/

theorem hexValue_digitChar : ∀ n < 16, hexValue (Nat.digitChar n) = some n := by decide

example : parseString [] = none := by rw [parseString]

theorem parseString_control {c : Char} (h : c.toNat < 32) (rest : List Char) :
    parseString ('\\' :: 'u' :: '0' :: '0' :: Nat.digitChar (c.toNat / 16) ::
      Nat.digitChar (c.toNat % 16) :: rest) = (parseString rest).map fun p => (c :: p.1, p.2) := by
  have hzero : hexValue '0' = some 0 := by decide
  have hunit : hexUnit '0' '0' (Nat.digitChar (c.toNat / 16)) (Nat.digitChar (c.toNat % 16)) =
      some c.toNat := by
    simp only [hexUnit, hzero, hexValue_digitChar _ (by omega : c.toNat / 16 < 16),
      hexValue_digitChar _ (by omega : c.toNat % 16 < 16), Option.bind_eq_bind, Option.bind_some,
      Option.pure_def, Option.some.injEq]
    omega
  have hhigh : ¬ (0xd800 ≤ c.toNat ∧ c.toNat < 0xdc00) := by omega
  have hlow : ¬ (0xdc00 ≤ c.toNat ∧ c.toNat < 0xe000) := by omega
  rw [parseString, hunit]
  simp only [if_neg hhigh, if_neg hlow, Char.ofNat_toNat]

theorem parseString_plain {c : Char} (hquote : c ≠ '\x22') (hslash : c ≠ '\\')
    (hcontrol : ¬ c.toNat < 32) (rest : List Char) :
    parseString (c :: rest) = (parseString rest).map fun p => (c :: p.1, p.2) := by
  rw [parseString.eq_def]
  split
  · rename_i heq
    cases heq
  · rename_i heq
    exact absurd (List.cons.inj heq).1 hslash
  · rename_i heq
    obtain ⟨rfl, rfl⟩ := List.cons.inj heq
    rw [if_neg hquote, if_neg hslash, if_neg hcontrol]

theorem parseString_short {e c : Char} (hu : e ≠ 'u') (h : shortEscape e = some c)
    (rest : List Char) :
    parseString ('\\' :: e :: rest) = (parseString rest).map fun p => (c :: p.1, p.2) := by
  have hquote : '\\' ≠ '\x22' := by decide
  rw [parseString.eq_def]
  split
  · rename_i heq
    cases heq
  · rename_i heq
    exact absurd (List.cons.inj (List.cons.inj heq).2).1 hu
  · rename_i heq
    obtain ⟨rfl, rfl⟩ := List.cons.inj heq
    rw [if_neg hquote, if_pos rfl]
    simp only [h]

/-- A character is read back from its escape. -/
theorem parseString_quoteChar (c : Char) (rest : List Char) :
    parseString (quoteChar c ++ rest) = (parseString rest).map fun p => (c :: p.1, p.2) := by
  unfold quoteChar
  by_cases hquote : c = '\x22'
  · subst hquote
    exact parseString_short (by decide) (by decide) rest
  by_cases hslash : c = '\\'
  · subst hslash
    exact parseString_short (by decide) (by decide) rest
  rw [if_neg hquote, if_neg hslash]
  -- the short escapes of control characters
  split
  · subst_vars
    exact parseString_short (by decide) (by decide) rest
  split
  · subst_vars
    exact parseString_short (by decide) (by decide) rest
  split
  · subst_vars
    exact parseString_short (by decide) (by decide) rest
  split
  · subst_vars
    exact parseString_short (by decide) (by decide) rest
  split
  · subst_vars
    exact parseString_short (by decide) (by decide) rest
  split
  · rename_i hcontrol
    exact parseString_control hcontrol rest
  · rename_i hcontrol
    exact parseString_plain hquote hslash hcontrol rest

theorem parseString_chars (chars rest : List Char) :
    parseString (chars.flatMap quoteChar ++ '\x22' :: rest) = some (chars, rest) := by
  induction chars with
  | nil => rw [List.flatMap_nil, List.nil_append, parseString.eq_def]; rfl
  | cons c chars ih =>
    rw [List.flatMap_cons, List.append_assoc, parseString_quoteChar, ih]
    rfl

/-- A quoted string is read back. -/
theorem parseString_quote (s : String) (rest : List Char) :
    ∃ text, quote s ++ rest = '\x22' :: text ∧ parseString text = some (s.toList, rest) := by
  refine ⟨_, ?_, parseString_chars s.toList rest⟩
  rw [quote, List.cons_append, List.append_assoc]
  rfl

/-! ## Numbers -/

/-- What follows a value: the end, a comma or a closing bracket. -/
def Closes (rest : List Char) : Prop :=
  ∀ c ∈ rest.head?, c = ',' ∨ c = ']' ∨ c = '\x7d'

theorem takeDigits_toDigits (n : Nat) {rest : List Char} (h : Closes rest) :
    takeDigits (Nat.toDigits 10 n ++ rest) = some (Nat.toDigits 10 n, rest) := by
  have hdigits : ∀ c ∈ Nat.toDigits 10 n, c.isDigit = true := fun c hc =>
    Nat.isDigit_of_mem_toDigits (by decide) (by decide) hc
  have hrest : rest.takeWhile Char.isDigit = [] ∧ rest.dropWhile Char.isDigit = rest := by
    cases rest with
    | nil => exact ⟨rfl, rfl⟩
    | cons c rest =>
      have hc : c.isDigit = false := by
        rcases h c rfl with rfl | rfl | rfl <;> decide
      exact ⟨List.takeWhile_cons_of_neg (by rw [hc]; decide),
        List.dropWhile_cons_of_neg (by rw [hc]; decide)⟩
  unfold takeDigits
  rw [List.takeWhile_append_of_pos hdigits, List.dropWhile_append_of_pos hdigits, hrest.1, hrest.2,
    List.append_nil]
  cases hcases : Nat.toDigits 10 n with
  | nil => exact absurd hcases Nat.toDigits_ne_nil
  | cons c rest => rfl

/-- Only zero is written with a leading zero. -/
theorem eq_zero_of_head_toDigits (n : Nat) (h : (Nat.toDigits 10 n).head? = some '0') : n = 0 := by
  induction n using Nat.strong_induction_on with
  | _ n ih =>
    by_cases hlt : n < 10
    · rw [Nat.toDigits_of_lt_base hlt, List.head?_singleton, Option.some.injEq] at h
      exact Nat.digitChar_eq_zero.1 h
    · have hge : 10 ≤ n := Nat.le_of_not_lt hlt
      rw [Nat.toDigits_of_base_le (by decide) hge,
        List.head?_append_of_ne_nil _ Nat.toDigits_ne_nil] at h
      have hzero := ih (n / 10) (by omega) h
      omega

theorem takeFraction_closes {rest : List Char} (h : Closes rest) :
    takeFraction rest = some ([], rest) := by
  unfold takeFraction
  split
  · rcases h '.' rfl with hc | hc | hc <;> cases hc
  · rfl

theorem takeExponent_closes {rest : List Char} (h : Closes rest) :
    takeExponent rest = some (none, rest) := by
  unfold takeExponent
  split
  · rename_i c rest
    rw [if_neg]
    rintro (rfl | rfl) <;> rcases h _ rfl with hc | hc | hc <;> cases hc
  · rfl

/-- A safe integer is read back. -/
theorem parseNumber_intText {n : Int} (hsafe : n.natAbs ≤ 9007199254740991) {rest : List Char}
    (h : Closes rest) : parseNumber (intText n ++ rest) = some (.finite n, rest) := by
  have hdigits : ∀ negative,
      numberValue negative (Nat.toDigits 10 n.natAbs) [] none =
        .finite ((if negative then -1 else 1 : Int) * n.natAbs : Int) := by
    intro negative
    unfold numberValue
    rw [Nat.ofDigitChars_ten_toDigits, if_pos ⟨rfl, rfl, hsafe⟩]
  have hleading : ¬ ((Nat.toDigits 10 n.natAbs).head? = some '0' ∧
      (Nat.toDigits 10 n.natAbs).length ≠ 1) := by
    rintro ⟨hhead, hlength⟩
    rw [eq_zero_of_head_toDigits _ hhead] at hlength
    exact hlength rfl
  unfold parseNumber intText
  by_cases hneg : n < 0
  · have hvalue : -1 * (n.natAbs : Int) = n := by omega
    rw [if_pos hneg]
    simp only [List.cons_append, List.head?_cons, decide_true, if_true, List.tail_cons,
      takeDigits_toDigits _ h, if_neg hleading, takeFraction_closes h, takeExponent_closes h,
      Option.map_some, hdigits, hvalue]
  · have hvalue : 1 * (n.natAbs : Int) = n := by omega
    rw [if_neg hneg]
    have hhead : (Nat.toDigits 10 n.natAbs ++ rest).head? ≠ some '-' := by
      rw [List.head?_append_of_ne_nil _ Nat.toDigits_ne_nil]
      intro hminus
      have hdigit := Nat.isDigit_of_mem_toDigits (by decide) (by decide)
        (List.mem_of_mem_head? hminus)
      revert hdigit
      decide
    simp only [hhead, decide_false, Bool.false_eq_true, if_false,
      takeDigits_toDigits _ h, if_neg hleading, takeFraction_closes h, takeExponent_closes h,
      Option.map_some, hdigits, hvalue]

/-! ## Values -/

mutual

/-- Keys are distinct and integers are safe. -/
def Plain : Json → Prop
  | int n => n.natAbs ≤ 9007199254740991
  | array items => PlainItems items
  | object members => (members.map Prod.fst).Nodup ∧ PlainMembers members
  | _ => True

def PlainItems : List Json → Prop
  | [] => True
  | item :: rest => Plain item ∧ PlainItems rest

def PlainMembers : List (String × Json) → Prop
  | [] => True
  | (_, item) :: rest => Plain item ∧ PlainMembers rest

end

theorem map_fst_memberValues (members : List (String × Json)) :
    (memberValues members).map Prod.fst = members.map Prod.fst := by
  induction members with
  | nil => rfl
  | cons member rest ih => rw [memberValues, List.map_cons, List.map_cons, ih]

theorem skipSpace_cons {c : Char} (h : isJsonSpace c = false) (rest : List Char) :
    skipSpace (c :: rest) = c :: rest :=
  List.dropWhile_cons_of_neg (by rw [h]; exact Bool.false_ne_true)

theorem intText_head (n : Int) : ∃ c rest, intText n = c :: rest ∧ (c.isDigit = true ∨ c = '-') := by
  unfold intText
  split
  · exact ⟨_, _, rfl, .inr rfl⟩
  · cases hdigits : Nat.toDigits 10 n.natAbs with
    | nil => exact absurd hdigits Nat.toDigits_ne_nil
    | cons c rest =>
      refine ⟨c, rest, rfl, .inl ?_⟩
      exact Nat.isDigit_of_mem_toDigits (by decide) (by decide) (hdigits ▸ List.mem_cons_self)

theorem isJsonSpace_of_number {c : Char} (h : c.isDigit = true ∨ c = '-') :
    isJsonSpace c = false := by
  rcases h with hdigit | rfl
  · unfold isJsonSpace
    rw [Bool.or_eq_false_iff, Bool.or_eq_false_iff, Bool.or_eq_false_iff]
    refine ⟨⟨⟨?_, ?_⟩, ?_⟩, ?_⟩ <;>
      exact decide_eq_false fun heq => absurd (heq ▸ hdigit) (by decide)
  · decide

/-- The text of a value starts with no space and no closing bracket. -/
theorem stringify_head (j : Json) :
    ∃ c rest, stringify j = c :: rest ∧ isJsonSpace c = false ∧ c ≠ ']' := by
  cases j with
  | null => exact ⟨_, _, rfl, by decide, by decide⟩
  | bool b => cases b <;> exact ⟨_, _, rfl, by decide, by decide⟩
  | int n =>
    obtain ⟨c, rest, htext, hc⟩ := intText_head n
    refine ⟨c, rest, htext, isJsonSpace_of_number hc, ?_⟩
    rintro rfl
    rcases hc with hc | hc <;> revert hc <;> decide
  | string s => exact ⟨_, _, rfl, by decide, by decide⟩
  | array items => cases items <;> exact ⟨_, _, rfl, by decide, by decide⟩
  | object members => cases members <;> exact ⟨_, _, rfl, by decide, by decide⟩

theorem parseValue_number {c : Char} (h : c.isDigit = true ∨ c = '-') (fuel : Nat)
    (rest : List Char) :
    parseValue (fuel + 1) (c :: rest) =
      (parseNumber (c :: rest)).map fun p => (.number p.1, p.2) := by
  rw [parseValue, skipSpace_cons (isJsonSpace_of_number h)]
  split
  case h_7 => rfl
  all_goals
    rename_i heq
    obtain ⟨rfl, -⟩ := List.cons.inj heq
    refine absurd h ?_
    decide

/-- The items of an array with commas between them. -/
def joinedItems : List Json → List Char
  | [] => []
  | item :: rest => stringify item ++ stringifyItems rest

def joinedMembers : List (String × Json) → List Char
  | [] => []
  | (key, item) :: rest => quote key ++ ':' :: stringify item ++ stringifyMembers rest

theorem closes_stringifyItems (rest : List Json) (more : List Char) :
    Closes (stringifyItems rest ++ ']' :: more) := by
  cases rest with
  | nil => exact fun c hc => .inr (.inl (Option.some.inj hc).symm)
  | cons item rest => exact fun c hc => .inl (Option.some.inj hc).symm

theorem closes_stringifyMembers (rest : List (String × Json)) (more : List Char) :
    Closes (stringifyMembers rest ++ '\x7d' :: more) := by
  cases rest with
  | nil => exact fun c hc => .inr (.inr (Option.some.inj hc).symm)
  | cons member rest => exact fun c hc => .inl (Option.some.inj hc).symm

mutual

/-- **A value is read back from its text**, whatever closes it. -/
theorem parseValue_stringify : ∀ j : Json, j.Plain → ∀ (fuel : Nat) (rest : List Char),
    (stringify j).length < fuel → Closes rest →
      parseValue fuel (stringify j ++ rest) = some (j.value, rest)
  | _, _, 0, _, hfuel, _ => absurd hfuel (Nat.not_lt_zero _)
  | null, _, fuel + 1, rest, _, _ => rfl
  | bool true, _, fuel + 1, rest, _, _ => rfl
  | bool false, _, fuel + 1, rest, _, _ => rfl
  | int n, hplain, fuel + 1, rest, _, hrest => by
    obtain ⟨c, text, htext, hc⟩ := intText_head n
    have hnumber := parseNumber_intText hplain hrest
    rw [stringify]
    rw [htext] at hnumber ⊢
    rw [List.cons_append] at hnumber ⊢
    rw [parseValue_number hc, hnumber]
    rfl
  | string s, _, fuel + 1, rest, _, _ => by
    obtain ⟨text, htext, hparse⟩ := parseString_quote s rest
    rw [stringify, htext, parseValue, skipSpace_cons (by decide)]
    simp only [hparse, Option.map_some, String.ofList_toList, value]
  | array [], _, fuel + 1, rest, _, _ => rfl
  | array (item :: items), hplain, fuel + 1, rest, hfuel, _ => by
    have htext : stringify (array (item :: items)) ++ rest =
        '[' :: (joinedItems (item :: items) ++ ']' :: rest) := by
      simp only [stringify, joinedItems, List.cons_append, List.append_assoc, List.nil_append]
    have hlength : (joinedItems (item :: items)).length + 1 < fuel := by
      simp only [stringify, List.length_cons, List.length_append, List.length_nil] at hfuel
      rw [joinedItems, List.length_append]
      omega
    have hitems := parseItems_stringify (item :: items) hplain (List.cons_ne_nil _ _) fuel rest
      hlength
    obtain ⟨c, more, hhead, hspace, hclose⟩ := stringify_head item
    rw [htext, parseValue, skipSpace_cons (by decide)]
    simp only [joinedItems, hhead, List.cons_append] at hitems ⊢
    rw [skipSpace_cons hspace]
    split
    · rename_i heq
      exact absurd (List.cons.inj heq).1 hclose
    · rw [hitems]
      rfl
  | object [], _, fuel + 1, rest, _, _ => rfl
  | object ((key, item) :: members), hplain, fuel + 1, rest, hfuel, _ => by
    have htext : stringify (object ((key, item) :: members)) ++ rest =
        '\x7b' :: (joinedMembers ((key, item) :: members) ++ '\x7d' :: rest) := by
      simp only [stringify, joinedMembers, List.cons_append, List.append_assoc, List.nil_append]
    have hlength : (joinedMembers ((key, item) :: members)).length + 1 < fuel := by
      simp only [stringify, List.length_cons, List.length_append, List.length_nil] at hfuel
      rw [joinedMembers]
      simp only [List.length_cons, List.length_append]
      omega
    have hmembers := parseMembers_stringify ((key, item) :: members) hplain.2
      (List.cons_ne_nil _ _) fuel rest hlength
    have hnodup : ((memberValues ((key, item) :: members)).map Prod.fst).Nodup := by
      rw [map_fst_memberValues]
      exact hplain.1
    have hentries : (JsMap.ofList (memberValues ((key, item) :: members))).entries =
        memberValues ((key, item) :: members) :=
      congrArg JsMap.entries (JsMap.ofList_entries ⟨_, hnodup⟩)
    have hskip : skipSpace (joinedMembers ((key, item) :: members) ++ '\x7d' :: rest) =
        joinedMembers ((key, item) :: members) ++ '\x7d' :: rest := skipSpace_cons (by decide) _
    rw [htext, parseValue, skipSpace_cons (by decide)]
    simp only [hskip]
    split
    · rename_i heq
      cases heq
    · rw [hmembers, Option.map_some, hentries]
      rfl

theorem parseItems_stringify : ∀ items : List Json, PlainItems items → items ≠ [] →
    ∀ (fuel : Nat) (rest : List Char), (joinedItems items).length + 1 < fuel →
      parseItems fuel (joinedItems items ++ ']' :: rest) = some (values items, rest)
  | [], _, hne, _, _, _ => absurd rfl hne
  | _, _, _, 0, _, hfuel => absurd hfuel (Nat.not_lt_zero _)
  | item :: items, hplain, _, fuel + 1, rest, hfuel => by
    rw [joinedItems, List.length_append] at hfuel
    have hitem := parseValue_stringify item hplain.1 fuel (stringifyItems items ++ ']' :: rest)
      (by omega) (closes_stringifyItems items rest)
    rw [joinedItems, List.append_assoc, parseItems, hitem]
    cases items with
    | nil =>
      simp only [stringifyItems, List.nil_append, values]
      rw [skipSpace_cons (by decide)]
      rfl
    | cons next more =>
      have hmore := parseItems_stringify (next :: more) hplain.2 (List.cons_ne_nil _ _) fuel rest
        (by simp only [stringifyItems, List.length_cons, joinedItems, List.length_append] at *; omega)
      have htext : stringifyItems (next :: more) ++ ']' :: rest =
          ',' :: (joinedItems (next :: more) ++ ']' :: rest) := rfl
      simp only [htext]
      rw [skipSpace_cons (by decide)]
      simp only [hmore, Option.map_some, values]

theorem parseMembers_stringify : ∀ members : List (String × Json), PlainMembers members →
    members ≠ [] → ∀ (fuel : Nat) (rest : List Char), (joinedMembers members).length + 1 < fuel →
      parseMembers fuel (joinedMembers members ++ '\x7d' :: rest) =
        some (memberValues members, rest)
  | [], _, hne, _, _, _ => absurd rfl hne
  | _, _, _, 0, _, hfuel => absurd hfuel (Nat.not_lt_zero _)
  | (key, item) :: members, hplain, _, fuel + 1, rest, hfuel => by
    have hlength : (stringify item).length + (stringifyMembers members).length + 2 < fuel + 1 := by
      simp only [joinedMembers, List.length_cons, List.length_append] at hfuel
      omega
    have hitem := parseValue_stringify item hplain.1 fuel
      (stringifyMembers members ++ '\x7d' :: rest) (by omega) (closes_stringifyMembers members rest)
    obtain ⟨text, hkey, hparse⟩ := parseString_quote key
      (':' :: (stringify item ++ (stringifyMembers members ++ '\x7d' :: rest)))
    have htext : joinedMembers ((key, item) :: members) ++ '\x7d' :: rest = '\x22' :: text := by
      rw [← hkey, joinedMembers]
      simp only [List.append_assoc, List.cons_append]
    rw [htext, parseMembers, skipSpace_cons (by decide)]
    simp only [hparse]
    rw [skipSpace_cons (by decide)]
    simp only [hitem]
    cases members with
    | nil =>
      simp only [stringifyMembers, List.nil_append, memberValues]
      rw [skipSpace_cons (by decide)]
      simp only [String.ofList_toList]
    | cons next more =>
      have hmore := parseMembers_stringify (next :: more) hplain.2 (List.cons_ne_nil _ _) fuel rest
        (by
          obtain ⟨nextKey, nextItem⟩ := next
          simp only [stringifyMembers, List.length_cons, joinedMembers, List.length_append] at *
          omega)
      have hnext : stringifyMembers (next :: more) ++ '\x7d' :: rest =
          ',' :: (joinedMembers (next :: more) ++ '\x7d' :: rest) := rfl
      simp only [hnext]
      rw [skipSpace_cons (by decide)]
      simp only [hmore, Option.map_some, memberValues, String.ofList_toList]

end

theorem parse_stringify {j : Json} (h : j.Plain) : parse (stringify j) = some j.value := by
  have hvalue := parseValue_stringify j h ((stringify j).length + 1) [] (Nat.lt_succ_self _) nofun
  rw [List.append_nil] at hvalue
  rw [parse, hvalue]
  rfl

end Json

end Psfn.Lib
