import Psfn.Lib.Json
import Psfn.Lib.KeyOrder

/-!
# Canonical JSON text

The text that a content digest is taken of: the keys of every object in ascending code unit order,
arrays in their own order, scalars as `JSON.stringify` writes them. The text of a number is a
parameter.

* `writeCanonical_append_inj` — a text is read in one way only, whatever closes it;
* `writeCanonical_eq_iff` — two values have one text exactly when they are the same up to the
  order of keys;
-/

namespace Psfn.Lib

/-! ## The text of a number -/

def isNumberChar (c : Char) : Bool :=
  c.isDigit || c = '-' || c = '+' || c = '.' || c = 'e'

/-- `JSON.stringify` of a finite number: the number is read back from it. -/
structure NumberText where
  text : Rat → List Char
  injective : ∀ p q, text p = text q → p = q
  ne_nil : ∀ q, text q ≠ []
  units : ∀ q, ∀ c ∈ text q, isNumberChar c = true

namespace JsValue

open Json (quote Closes)
open JsString (unitsLe utf16Units)

/-! ## Writing -/

/-- `texts.join(',')`. -/
def joinTexts : List (List Char) → List Char
  | [] => []
  | t :: rest => t ++ rest.flatMap fun u => ',' :: u

def entryText (entry : String × List Char) : List Char := quote entry.1 ++ ':' :: entry.2

mutual

def writeCanonical (N : NumberText) : JsValue → List Char
  | undefined => []
  | null => ['n', 'u', 'l', 'l']
  | bool b => if b then ['t', 'r', 'u', 'e'] else ['f', 'a', 'l', 's', 'e']
  | number (.finite q) => N.text q
  | number _ => ['n', 'u', 'l', 'l']
  | string s => quote s
  | array items => '[' :: (joinTexts (writeItems N items) ++ [']'])
  | object properties =>
    '\x7b' :: (joinTexts ((sortEntries (writeProperties N properties)).map entryText) ++ ['\x7d'])

def writeItems (N : NumberText) : List JsValue → List (List Char)
  | [] => []
  | item :: rest => writeCanonical N item :: writeItems N rest

def writeProperties (N : NumberText) : List (String × JsValue) → List (String × List Char)
  | [] => []
  | (key, value) :: rest => (key, writeCanonical N value) :: writeProperties N rest

end

theorem writeItems_eq (N : NumberText) (items : List JsValue) :
    writeItems N items = items.map (writeCanonical N) := by
  induction items with
  | nil => rw [writeItems, List.map_nil]
  | cons item rest ih => rw [writeItems, ih, List.map_cons]

theorem writeProperties_eq (N : NumberText) (properties : List (String × JsValue)) :
    writeProperties N properties = properties.map fun p => (p.1, writeCanonical N p.2) := by
  induction properties with
  | nil => rw [writeProperties, List.map_nil]
  | cons p rest ih =>
    obtain ⟨key, value⟩ := p
    rw [writeProperties, ih, List.map_cons]

/-- The entries of an object in the order of its text. -/
theorem writeCanonical_object (N : NumberText) (properties : List (String × JsValue)) :
    writeCanonical N (object properties) =
      '\x7b' :: (joinTexts ((sortEntries properties).map fun p =>
        entryText (p.1, writeCanonical N p.2)) ++ ['\x7d']) := by
  rw [writeCanonical, writeProperties_eq, ← map_sortEntries, List.map_map]
  rfl

/-! ## Reading in one way -/

theorem quote_append_inj {s t : String} {r r' : List Char} (h : quote s ++ r = quote t ++ r') :
    s = t ∧ r = r' := by
  obtain ⟨text, htext, hread⟩ := Json.parseString_quote s r
  obtain ⟨text', htext', hread'⟩ := Json.parseString_quote t r'
  rw [htext, htext'] at h
  injection h with _ htail
  rw [htail, hread'] at hread
  injection hread with hpair
  injection hpair with hchars hrest
  exact ⟨(String.toList_inj.1 hchars).symm, hrest.symm⟩

/-- What closes a number is no part of one. -/
theorem takeWhile_number {t r : List Char} (ht : ∀ c ∈ t, isNumberChar c = true) (hr : Closes r) :
    (t ++ r).takeWhile isNumberChar = t := by
  induction t with
  | nil =>
    cases r with
    | nil => rfl
    | cons c r =>
      refine List.takeWhile_cons_of_neg ?_
      rcases hr c rfl with rfl | rfl | rfl <;> decide
  | cons c t ih =>
    rw [List.cons_append, List.takeWhile_cons_of_pos (ht c List.mem_cons_self),
      ih fun d hd => ht d (List.mem_cons_of_mem c hd)]

theorem number_append_inj (N : NumberText) {p q : Rat} {r r' : List Char} (hr : Closes r)
    (hr' : Closes r') (h : N.text p ++ r = N.text q ++ r') : p = q ∧ r = r' := by
  have htext : N.text p = N.text q := by
    rw [← takeWhile_number (N.units p) hr, h, takeWhile_number (N.units q) hr']
  rw [htext] at h
  exact ⟨N.injective p q htext, List.append_cancel_left h⟩

section Join

variable {α γ : Type} {f : α → List Char} {g : α → γ} {c : Char} {r r' : List Char}

theorem closes_tail (hc : c = ']' ∨ c = '\x7d') (l : List α) :
    Closes ((l.map f).flatMap (fun u => ',' :: u) ++ c :: r) := by
  cases l with
  | nil => exact fun d hd => .inr ((Option.some.inj hd) ▸ hc)
  | cons a l => exact fun d hd => .inl (Option.some.inj hd).symm

theorem tail_inj (hc : c = ']' ∨ c = '\x7d') {l l' : List α}
    (hf : ∀ a ∈ l, ∀ b ∈ l', ∀ r r', Closes r → Closes r' → f a ++ r = f b ++ r' →
      g a = g b ∧ r = r')
    (h : (l.map f).flatMap (fun u => ',' :: u) ++ c :: r =
      (l'.map f).flatMap (fun u => ',' :: u) ++ c :: r') : l.map g = l'.map g ∧ r = r' := by
  have hcomma : c ≠ ',' := by rcases hc with rfl | rfl <;> decide
  induction l generalizing l' with
  | nil =>
    cases l' with
    | nil =>
      injection h with _ hr
      exact ⟨rfl, hr⟩
    | cons b l' =>
      injection h with hhead _
      exact absurd hhead hcomma
  | cons a l ih =>
    cases l' with
    | nil =>
      injection h with hhead _
      exact absurd hhead.symm hcomma
    | cons b l' =>
      simp only [List.map_cons, List.flatMap_cons, List.cons_append, List.append_assoc] at h
      injection h with _ htail
      obtain ⟨hab, hrest⟩ := hf a List.mem_cons_self b List.mem_cons_self _ _
        (closes_tail hc l) (closes_tail hc l') htail
      obtain ⟨hl, hr⟩ := ih (fun a' ha b' hb => hf a' (List.mem_cons_of_mem a ha) b'
        (List.mem_cons_of_mem b hb)) hrest
      exact ⟨by rw [List.map_cons, List.map_cons, hab, hl], hr⟩

/-- Texts with commas between them are read in one way, if each of them is. -/
theorem join_inj (hc : c = ']' ∨ c = '\x7d') {l l' : List α}
    (hhead : ∀ a ∈ l ++ l', ∃ d t, f a = d :: t ∧ d ≠ c)
    (hf : ∀ a ∈ l, ∀ b ∈ l', ∀ r r', Closes r → Closes r' → f a ++ r = f b ++ r' →
      g a = g b ∧ r = r')
    (h : joinTexts (l.map f) ++ c :: r = joinTexts (l'.map f) ++ c :: r') :
    l.map g = l'.map g ∧ r = r' := by
  cases l with
  | nil =>
    cases l' with
    | nil =>
      injection h with _ hr
      exact ⟨rfl, hr⟩
    | cons b l' =>
      obtain ⟨d, t, hb, hne⟩ := hhead b List.mem_cons_self
      rw [List.map_cons, joinTexts, hb] at h
      injection h with heq _
      exact absurd heq.symm hne
  | cons a l =>
    cases l' with
    | nil =>
      obtain ⟨d, t, ha, hne⟩ := hhead a List.mem_cons_self
      rw [List.map_cons, joinTexts, ha] at h
      injection h with heq _
      exact absurd heq hne
    | cons b l' =>
      rw [List.map_cons, List.map_cons, joinTexts, joinTexts, List.append_assoc,
        List.append_assoc] at h
      obtain ⟨hab, hrest⟩ := hf a List.mem_cons_self b List.mem_cons_self _ _
        (closes_tail hc l) (closes_tail hc l') h
      obtain ⟨hl, hr⟩ := tail_inj hc (fun a' ha b' hb => hf a' (List.mem_cons_of_mem a ha) b'
        (List.mem_cons_of_mem b hb)) hrest
      exact ⟨by rw [List.map_cons, List.map_cons, hab, hl], hr⟩

end Join

/-- What the first unit of a text tells of its value. -/
inductive Kind where
  | null | bool | number | string | array | object
deriving DecidableEq

def kindOf : JsValue → Kind
  | undefined => .null
  | null => .null
  | bool _ => .bool
  | number _ => .number
  | string _ => .string
  | array _ => .array
  | object _ => .object

def kindOfHead (c : Char) : Kind :=
  if c = 'n' then .null
  else if c = 't' ∨ c = 'f' then .bool
  else if c = '\x22' then .string
  else if c = '[' then .array
  else if c = '\x7b' then .object
  else .number

theorem kindOfHead_number {c : Char} (h : isNumberChar c = true) : kindOfHead c = .number := by
  have hall : ∀ d ∈ ['n', 't', 'f', '\x22', '[', '\x7b'], isNumberChar d = false := by
    simp [isNumberChar]
  have hne : ∀ d ∈ ['n', 't', 'f', '\x22', '[', '\x7b'], c ≠ d := by
    rintro d hd rfl
    rw [hall _ hd] at h
    cases h
  rw [kindOfHead, if_neg (hne 'n' (by decide)),
    if_neg (not_or.2 ⟨hne 't' (by decide), hne 'f' (by decide)⟩),
    if_neg (hne '\x22' (by decide)), if_neg (hne '[' (by decide)),
    if_neg (hne '\x7b' (by decide))]

/-- A text starts as its value's kind says, and never with what closes an array or an object. -/
theorem writeCanonical_head (N : NumberText) {value : JsValue} (h : value.IsJson) :
    ∃ c t, writeCanonical N value = c :: t ∧ kindOfHead c = value.kindOf ∧ c ≠ ']' := by
  cases value with
  | undefined => exact h.elim
  | null => exact ⟨_, _, rfl, rfl, by decide⟩
  | bool b => cases b <;> exact ⟨_, _, rfl, rfl, by decide⟩
  | number n =>
    cases n with
    | finite q =>
      obtain ⟨c, t, hct⟩ := List.exists_cons_of_ne_nil (N.ne_nil q)
      have hc : isNumberChar c = true := N.units q c (by rw [hct]; exact List.mem_cons_self)
      refine ⟨c, t, hct, kindOfHead_number hc, ?_⟩
      rintro rfl
      exact absurd hc (by decide)
    | posInf => cases isJson_number.1 h
    | negInf => cases isJson_number.1 h
    | nan => cases isJson_number.1 h
  | string s => exact ⟨_, _, rfl, rfl, by decide⟩
  | array items => exact ⟨_, _, rfl, rfl, by decide⟩
  | object properties => exact ⟨_, _, rfl, rfl, by decide⟩

/-- **A text is read in one way only.** -/
theorem writeCanonical_append_inj (N : NumberText) : ∀ {a b : JsValue}, a.IsJson → b.IsJson →
    ∀ {r r' : List Char}, Closes r → Closes r' →
      writeCanonical N a ++ r = writeCanonical N b ++ r' → a.sortKeys = b.sortKeys ∧ r = r'
  | a, b, ha, hb, r, r', hr, hr', h => by
    have hkind : a.kindOf = b.kindOf := by
      obtain ⟨c, t, hc, hca, -⟩ := writeCanonical_head N ha
      obtain ⟨d, u, hd, hdb, -⟩ := writeCanonical_head N hb
      rw [hc, hd] at h
      injection h with hcd _
      rw [← hca, ← hdb, hcd]
    match a, b, hkind with
    | .undefined, _, _ => exact ha.elim
    | .null, .undefined, _ => exact hb.elim
    | .null, .null, _ => exact ⟨rfl, List.append_cancel_left h⟩
    | .bool true, .bool true, _ => exact ⟨rfl, List.append_cancel_left h⟩
    | .bool false, .bool false, _ => exact ⟨rfl, List.append_cancel_left h⟩
    | .bool true, .bool false, _ => exact absurd (List.cons.inj h).1 (by decide)
    | .bool false, .bool true, _ => exact absurd (List.cons.inj h).1 (by decide)
    | .number (.finite p), .number (.finite q), _ =>
      obtain ⟨heq, hrest⟩ := number_append_inj N hr hr' h
      exact ⟨by rw [heq], hrest⟩
    | .number .posInf, _, _ => cases isJson_number.1 ha
    | .number .negInf, _, _ => cases isJson_number.1 ha
    | .number .nan, _, _ => cases isJson_number.1 ha
    | .number _, .number .posInf, _ => cases isJson_number.1 hb
    | .number _, .number .negInf, _ => cases isJson_number.1 hb
    | .number _, .number .nan, _ => cases isJson_number.1 hb
    | .string s, .string t, _ =>
      obtain ⟨heq, hrest⟩ := quote_append_inj h
      exact ⟨by rw [heq], hrest⟩
    | .array items, .array items', _ =>
      rw [isJson_array] at ha hb
      rw [writeCanonical, writeCanonical, writeItems_eq, writeItems_eq] at h
      simp only [List.cons_append, List.append_assoc, List.nil_append] at h
      have hjoin := join_inj (g := sortKeys) (.inl rfl) ?_ ?_ (List.cons.inj h).2
      · rw [sortKeys_array, sortKeys_array, hjoin.1]
        exact ⟨rfl, hjoin.2⟩
      · intro item hitem
        have hjson : item.IsJson := (List.mem_append.1 hitem).elim (ha item) (hb item)
        obtain ⟨c, t, hct, -, hne⟩ := writeCanonical_head N hjson
        exact ⟨c, t, hct, hne⟩
      · intro item hitem item' hitem' r r' hr hr' h
        have := List.sizeOf_lt_of_mem hitem
        exact writeCanonical_append_inj N (ha item hitem) (hb item' hitem') hr hr' h
    | .object properties, .object properties', _ =>
      rw [isJson_object] at ha hb
      rw [writeCanonical_object, writeCanonical_object] at h
      simp only [List.cons_append, List.append_assoc, List.nil_append] at h
      have hjoin := join_inj (g := fun p : String × JsValue => (p.1, p.2.sortKeys)) (.inr rfl) ?_ ?_
        (List.cons.inj h).2
      · rw [sortKeys_object, sortKeys_object, hjoin.1]
        exact ⟨rfl, hjoin.2⟩
      · exact fun p _ => ⟨_, _, rfl, by decide⟩
      · intro p hp p' hp' r r' hr hr' h
        have hmem := (sortEntries_perm properties).mem_iff.1 hp
        have hmem' := (sortEntries_perm properties').mem_iff.1 hp'
        have hlt := List.sizeOf_lt_of_mem hmem
        obtain ⟨key, value⟩ := p
        have : sizeOf (key, value) = 1 + sizeOf key + sizeOf value := rfl
        rw [entryText, entryText, List.append_assoc, List.append_assoc] at h
        obtain ⟨hkey, htail⟩ := quote_append_inj h
        obtain ⟨hvalue, hrest⟩ := writeCanonical_append_inj N (ha (key, value) hmem)
          (hb p' hmem') hr hr' (List.cons.inj htail).2
        exact ⟨Prod.ext hkey hvalue, hrest⟩
termination_by a => sizeOf a
decreasing_by all_goals simp_wf; omega

/-- The text does not depend on the order of keys. -/
theorem writeCanonical_sortKeys (N : NumberText) : ∀ a : JsValue,
    writeCanonical N a.sortKeys = writeCanonical N a
  | .undefined => rfl
  | .null => rfl
  | .bool _ => rfl
  | .number _ => rfl
  | .string _ => rfl
  | .array items => by
    rw [sortKeys_array, writeCanonical, writeCanonical, writeItems_eq, writeItems_eq, List.map_map]
    refine congrArg (fun texts => '[' :: (joinTexts texts ++ [']'])) (List.map_congr_left ?_)
    intro item hitem
    have := List.sizeOf_lt_of_mem hitem
    exact writeCanonical_sortKeys N item
  | .object properties => by
    rw [sortKeys_object, map_sortEntries, writeCanonical_object, sortEntries_sortEntries,
      ← map_sortEntries, List.map_map, writeCanonical_object]
    refine congrArg (fun texts => '\x7b' :: (joinTexts texts ++ ['\x7d'])) (List.map_congr_left ?_)
    intro p hp
    have hlt := List.sizeOf_lt_of_mem ((sortEntries_perm properties).mem_iff.1 hp)
    obtain ⟨key, value⟩ := p
    have : sizeOf (key, value) = 1 + sizeOf key + sizeOf value := rfl
    exact congrArg (fun text => entryText (key, text)) (writeCanonical_sortKeys N value)
termination_by a => sizeOf a
decreasing_by all_goals simp_wf; omega

/-- **Two values have one text exactly when they are the same up to the order of keys.** -/
theorem writeCanonical_eq_iff (N : NumberText) {a b : JsValue} (ha : a.IsJson) (hb : b.IsJson) :
    writeCanonical N a = writeCanonical N b ↔ a.sortKeys = b.sortKeys := by
  constructor
  · intro h
    have hinjective := @writeCanonical_append_inj N a b ha hb [] [] nofun nofun (by rw [h])
    exact hinjective.1
  · intro h
    rw [← writeCanonical_sortKeys N a, h, writeCanonical_sortKeys]

end JsValue

namespace Json

mutual

/-- What a typed record is written from is a JSON value. -/
theorem isJson_value : ∀ j : Json, j.value.IsJson
  | .null => by rw [value]; exact JsValue.isJson_null
  | .bool b => by rw [value]; exact JsValue.isJson_bool b
  | .int n => by rw [value]; exact JsValue.isJson_number.2 rfl
  | .string s => by rw [value]; exact JsValue.isJson_string s
  | .array items => by rw [value, JsValue.IsJson]; exact areJson_values items
  | .object members => by rw [value, JsValue.IsJson]; exact haveJson_memberValues members

theorem areJson_values : ∀ items : List Json, JsValue.AreJson (values items)
  | [] => by rw [values]; trivial
  | item :: rest => by rw [values]; exact ⟨isJson_value item, areJson_values rest⟩

theorem haveJson_memberValues : ∀ members : List (String × Json),
    JsValue.HaveJson (memberValues members)
  | [] => by rw [memberValues]; trivial
  | (_, item) :: rest => by
    rw [memberValues]
    exact ⟨isJson_value item, haveJson_memberValues rest⟩

end

mutual

theorem distinctKeys_value : ∀ {j : Json}, j.Plain → j.value.DistinctKeys
  | .null, _ => trivial
  | .bool _, _ => trivial
  | .int _, _ => trivial
  | .string _, _ => trivial
  | .array _, h => by rw [value, JsValue.DistinctKeys]; exact distinctKeys_values h
  | .object members, h => by
    rw [value, JsValue.DistinctKeys, map_fst_memberValues]
    exact ⟨h.1, distinctKeys_memberValues h.2⟩

theorem distinctKeys_values : ∀ {items : List Json}, PlainItems items →
    JsValue.DistinctKeysOfItems (values items)
  | [], _ => by rw [values]; trivial
  | _ :: _, h => by
    rw [values]
    exact ⟨distinctKeys_value h.1, distinctKeys_values h.2⟩

theorem distinctKeys_memberValues : ∀ {members : List (String × Json)}, PlainMembers members →
    JsValue.DistinctKeysOfProperties (memberValues members)
  | [], _ => by rw [memberValues]; trivial
  | (_, _) :: _, h => by
    rw [memberValues]
    exact ⟨distinctKeys_value h.1, distinctKeys_memberValues h.2⟩

end

end Json

end Psfn.Lib
