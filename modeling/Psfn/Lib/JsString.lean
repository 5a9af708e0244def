import Mathlib.Data.List.DropRight
import Psfn.Lib.Js

/-!
# JavaScript strings

`trim`, `slice`, `split`, `length` and `Number.parseInt` on strings, and `path.resolve`, as
the runtime computes them. A string is a sequence of Unicode scalar values here; `utf16Length` counts its
code units, which is what `length` returns. A lone surrogate has no counterpart.
-/

namespace Psfn.Lib.JsString

/-- `WhiteSpace` and `LineTerminator` of the language: what `trim` removes. -/
def isSpace (c : Char) : Bool :=
  let n := c.toNat
  (0x9 ≤ n && n ≤ 0xd) || n = 0x20 || n = 0xa0 || n = 0x1680 || (0x2000 ≤ n && n ≤ 0x200a) ||
    n = 0x2028 || n = 0x2029 || n = 0x202f || n = 0x205f || n = 0x3000 || n = 0xfeff

def trimChars (s : List Char) : List Char :=
  ((s.dropWhile isSpace).reverse.dropWhile isSpace).reverse

/-- `String.prototype.trim`. -/
def trim (s : String) : String := String.ofList (trimChars s.toList)

/-- A list that `dropWhile` leaves as it is does not start with what it drops. -/
theorem head_of_dropWhile_eq {α : Type} {p : α → Bool} {a : α} {l : List α}
    (h : (a :: l).dropWhile p = a :: l) : p a = false := by
  rw [← Bool.not_eq_true]
  intro ha
  rw [List.dropWhile_cons_of_pos ha] at h
  have hlen := congrArg List.length h
  have hle := (List.dropWhile_sublist p (l := l)).length_le
  rw [List.length_cons] at hlen
  omega

/-- Trimming the end keeps a start that is already trimmed. -/
theorem dropWhile_trimEnd {α : Type} {p : α → Bool} {l : List α} (h : l.dropWhile p = l) :
    ((l.reverse.dropWhile p).reverse).dropWhile p = (l.reverse.dropWhile p).reverse := by
  cases l with
  | nil => rfl
  | cons a l =>
    have ha : ¬ p a = true := by simp [head_of_dropWhile_eq h]
    rw [List.reverse_cons, List.dropWhile_append]
    split
    · rw [List.dropWhile_cons_of_neg ha, List.reverse_singleton, List.dropWhile_cons_of_neg ha]
    · rw [List.reverse_append, List.reverse_singleton, List.singleton_append,
        List.dropWhile_cons_of_neg ha]

theorem dropWhile_trimChars (s : List Char) : (trimChars s).dropWhile isSpace = trimChars s :=
  dropWhile_trimEnd (List.dropWhile_idempotent isSpace s)

@[simp] theorem trim_trim (s : String) : trim (trim s) = trim s := by
  have hstart : (s.toList.dropWhile isSpace).dropWhile isSpace = s.toList.dropWhile isSpace :=
    List.dropWhile_idempotent isSpace _
  simp only [trim, trimChars, String.toList_ofList]
  rw [dropWhile_trimEnd hstart, List.reverse_reverse, List.dropWhile_idempotent]

theorem trimChars_eq_self {s : List Char} (h : ∀ c ∈ s, isSpace c = false) : trimChars s = s := by
  have hdrop : ∀ l : List Char, (∀ c ∈ l, isSpace c = false) → l.dropWhile isSpace = l := by
    intro l hl
    cases l with
    | nil => rfl
    | cons c rest => rw [List.dropWhile_cons_of_neg (by simp [hl c (List.mem_cons_self ..)])]
  rw [trimChars, hdrop s h, hdrop _ fun c hc => h c (List.mem_reverse.1 hc), List.reverse_reverse]

/-- A text without any space is trimmed. -/
theorem trim_eq_self {s : String} (h : ∀ c ∈ s.toList, isSpace c = false) : trim s = s := by
  rw [trim, trimChars_eq_self h, String.ofList_toList]

/-- What `trim` leaves starts with a character that is not space. -/
theorem exists_head_trim {s : String} (h : trim s ≠ "") :
    ∃ c rest, (trim s).toList = c :: rest ∧ isSpace c = false := by
  have hfix : ((trim s).toList).dropWhile isSpace = (trim s).toList := by
    rw [trim, String.toList_ofList]
    exact dropWhile_trimChars s.toList
  cases hchars : (trim s).toList with
  | nil => exact absurd (String.toList_eq_nil_iff.1 hchars) h
  | cons c rest =>
    rw [hchars] at hfix
    exact ⟨c, rest, rfl, head_of_dropWhile_eq hfix⟩

theorem trim_ne_empty_of_mem {s : String} {c : Char} (hc : c ∈ s.toList)
    (hspace : isSpace c = false) : trim s ≠ "" := by
  intro htrim
  have hnil : trimChars s.toList = [] := by
    have := congrArg String.toList htrim
    rwa [trim, String.toList_ofList] at this
  -- nothing is left, so the start and the rest were all space
  have hrest : ∀ x ∈ s.toList.dropWhile isSpace, isSpace x = true := by
    rw [trimChars, List.reverse_eq_nil_iff, List.dropWhile_eq_nil_iff] at hnil
    exact fun x hx => hnil x (List.mem_reverse.2 hx)
  have hsplit : c ∈ s.toList.takeWhile isSpace ++ s.toList.dropWhile isSpace := by
    rwa [List.takeWhile_append_dropWhile]
  rcases List.mem_append.1 hsplit with h | h
  · exact absurd (List.mem_takeWhile_imp h) (by simp [hspace])
  · exact absurd (hrest c h) (by simp [hspace])

/-- The code units of one character. -/
def utf16Width (c : Char) : Nat := if c.toNat < 0x10000 then 1 else 2

/-- `String.prototype.length`: UTF-16 code units. -/
def utf16Length (s : String) : Nat :=
  s.toList.foldr (fun c units => utf16Width c + units) 0

theorem utf16Length_eq_length {s : String} (h : ∀ c ∈ s.toList, c.toNat < 0x10000) :
    utf16Length s = s.toList.length := by
  unfold utf16Length
  generalize s.toList = chars at h ⊢
  induction chars with
  | nil => rfl
  | cons c rest ih =>
    have hwidth : utf16Width c = 1 := if_pos (h c List.mem_cons_self)
    rw [List.foldr_cons, ih fun d hd => h d (List.mem_cons_of_mem _ hd), hwidth, List.length_cons]
    omega

/-- The characters an identifier is made of: no space, and one code unit each. -/
theorem isSpace_of_isAlphanum {c : Char} (h : c.isAlphanum = true) :
    isSpace c = false ∧ c.toNat < 0x10000 := by
  change ((decide ('A'.val ≤ c.val ∧ c.val ≤ 'Z'.val) ||
    (decide ('a'.val ≤ c.val) && decide (c.val ≤ 'z'.val))) ||
    (decide ('0'.val ≤ c.val) && decide (c.val ≤ '9'.val))) = true at h
  simp only [Bool.or_eq_true, Bool.and_eq_true, decide_eq_true_eq, UInt32.le_iff_toNat_le] at h
  simp only [isSpace, Char.toNat]
  simp at h ⊢
  omega

def takeUnits : Nat → List Char → List Char
  | _, [] => []
  | n, c :: cs => if utf16Width c ≤ n then c :: takeUnits (n - utf16Width c) cs else []

/-- `value.slice(0, end)`. A pair of surrogates that the end cuts apart is left out. -/
def sliceTo (s : String) (stop : Nat) : String := String.ofList (takeUnits stop s.toList)

/-- Cutting a trimmed text short leaves no blank text. -/
theorem trim_sliceTo_ne_empty {s : String} (h : trim s ≠ "") {stop : Nat} (hstop : 2 ≤ stop) :
    trim (sliceTo (trim s) stop) ≠ "" := by
  obtain ⟨c, rest, hchars, hspace⟩ := exists_head_trim h
  have hwidth : utf16Width c ≤ stop := by
    unfold utf16Width
    split <;> omega
  refine trim_ne_empty_of_mem ?_ hspace
  rw [sliceTo, String.toList_ofList, hchars, takeUnits, if_pos hwidth]
  exact List.mem_cons_self ..

/-- The order of `sort` on the code units of two strings. -/
def unitsLe : List Nat → List Nat → Bool
  | [], _ => true
  | _ :: _, [] => false
  | x :: xs, y :: ys => x < y || (x = y && unitsLe xs ys)

/-- The UTF-16 code units of a string, by which `sort` compares. -/
def utf16Units (s : String) : List Nat :=
  s.toList.flatMap fun c =>
    if c.toNat < 0x10000 then [c.toNat]
    else [0xD800 + (c.toNat - 0x10000) / 0x400, 0xDC00 + (c.toNat - 0x10000) % 0x400]

/-- `split` at a one-character separator. -/
def splitChars (sep : Char) : List Char → List (List Char)
  | [] => [[]]
  | c :: cs =>
    match splitChars sep cs with
    | [] => [[]]
    | head :: tail => if c = sep then [] :: head :: tail else (c :: head) :: tail

theorem splitChars_of_notMem {sep : Char} {l : List Char} (h : sep ∉ l) : splitChars sep l = [l] := by
  induction l with
  | nil => rfl
  | cons c cs ih =>
    rw [List.mem_cons, not_or] at h
    rw [splitChars, ih h.2]
    exact if_neg (Ne.symm h.1)

theorem splitChars_append {sep : Char} {l rest : List Char} (h : sep ∉ l) :
    splitChars sep (l ++ sep :: rest) = l :: splitChars sep rest := by
  have hne : ∀ r : List Char, ∃ head tail, splitChars sep r = head :: tail := by
    intro r
    induction r with
    | nil => exact ⟨[], [], rfl⟩
    | cons c cs ih =>
      obtain ⟨head, tail, hsplit⟩ := ih
      rw [splitChars, hsplit]
      by_cases hc : c = sep
      · exact ⟨[], head :: tail, by simp [hc]⟩
      · exact ⟨c :: head, tail, by simp [hc]⟩
  induction l with
  | nil =>
    obtain ⟨head, tail, hsplit⟩ := hne rest
    simp [splitChars, hsplit]
  | cons c cs ih =>
    rw [List.mem_cons, not_or] at h
    rw [List.cons_append, splitChars, ih h.2]
    exact if_neg (Ne.symm h.1)

/-! ### Paths -/

/-- One segment of a path: empty and `.` segments go, `..` takes the last one back. -/
def pathSegment (done : List (List Char)) (segment : List Char) : List (List Char) :=
  if segment = [] ∨ segment = ['.'] then done
  else if segment = ['.', '.'] then done.dropLast
  else done ++ [segment]

/-- `path.resolve(path)` on POSIX: absolute, without `.` and `..`. -/
def resolvePath (cwd path : String) : String :=
  let own := splitChars '/' path.toList
  let segments := if path.toList.head? = some '/' then own else splitChars '/' cwd.toList ++ own
  String.ofList ('/' :: ['/'].intercalate (segments.foldl pathSegment []))

/-- A path starts at the root. -/
def IsAbsolute (path : String) : Prop := ∃ rest, path.toList = '/' :: rest

theorem isAbsolute_resolvePath (cwd path : String) : IsAbsolute (resolvePath cwd path) :=
  ⟨_, String.toList_ofList⟩

theorem IsAbsolute.trim_ne_empty {path : String} (h : IsAbsolute path) : trim path ≠ "" := by
  obtain ⟨rest, hrest⟩ := h
  have hmem : '/' ∈ path.toList := by simp [hrest]
  exact trim_ne_empty_of_mem hmem rfl

/-- The first piece of a `split` at a non-empty separator. -/
def beforeSubstring (sep : List Char) : List Char → List Char
  | [] => []
  | c :: cs => if sep.isPrefixOf (c :: cs) then [] else c :: beforeSubstring sep cs

/-- The value of a hexadecimal digit, of either case. -/
def hexValue (c : Char) : Option Nat :=
  if c.isDigit then some (c.toNat - 48)
  else if 'a' ≤ c ∧ c ≤ 'f' then some (c.toNat - 87)
  else if 'A' ≤ c ∧ c ≤ 'F' then some (c.toNat - 55)
  else none

/-- The value of a run of decimal digits. -/
def decimalValue (digits : List Char) : Nat :=
  digits.foldl (fun acc c => 10 * acc + (c.toNat - '0'.toNat)) 0

/-- `Number.parseInt(value, 10)`: an optional sign and the longest run of digits. -/
def parseInt (s : List Char) : JsNumber :=
  let unsigned (cs : List Char) : JsNumber :=
    match cs.takeWhile Char.isDigit with
    | [] => .nan
    | digits => .ofNat (decimalValue digits)
  match s.dropWhile isSpace with
  | '-' :: rest => (unsigned rest).neg
  | '+' :: rest => unsigned rest
  | cs => unsigned cs

/-! ## Text order -/

theorem unitsLe_total : ∀ a b : List Nat, (unitsLe a b || unitsLe b a) = true
  | [], _ => by simp [unitsLe]
  | _ :: _, [] => by simp [unitsLe]
  | x :: xs, y :: ys => by
    have hrest := unitsLe_total xs ys
    rcases Nat.lt_trichotomy x y with hlt | rfl | hgt
    · simp [unitsLe, hlt]
    · simpa [unitsLe] using hrest
    · simp [unitsLe, hgt]

theorem unitsLe_trans : ∀ a b c : List Nat, unitsLe a b = true → unitsLe b c = true →
    unitsLe a c = true
  | [], _, _, _, _ => by simp [unitsLe]
  | _ :: _, [], _, hab, _ => by simp [unitsLe] at hab
  | _ :: _, _ :: _, [], _, hbc => by simp [unitsLe] at hbc
  | x :: xs, y :: ys, z :: zs, hab, hbc => by
    simp only [unitsLe, Bool.or_eq_true, Bool.and_eq_true, decide_eq_true_eq] at hab hbc ⊢
    rcases hab with hxy | ⟨rfl, hxs⟩
    · rcases hbc with hyz | ⟨rfl, -⟩
      · exact .inl (by omega)
      · exact .inl hxy
    · rcases hbc with hyz | ⟨rfl, hys⟩
      · exact .inl hyz
      · exact .inr ⟨rfl, unitsLe_trans xs ys zs hxs hys⟩

end Psfn.Lib.JsString
