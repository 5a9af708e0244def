import Psfn.Lib.JsValue

/-!
# Comparing JavaScript values

`===` and `util.isDeepStrictEqual`, the properties of an object spread over or left out, and
what each says of a property read afterwards.

Two values compared here never share an object: the one comes from a fresh `JSON.parse`. So
`===` is false between objects, whatever they hold.
-/

namespace Psfn.Lib.JsValue

/-! ## `===` -/

/-- `===`, between values that share no object. -/
def strictEquals : JsValue → JsValue → Bool
  | undefined, undefined => true
  | null, null => true
  | bool a, bool b => a = b
  | number a, number b => a.strictEq b
  | string a, string b => a = b
  | _, _ => false

theorem eq_of_strictEquals {a b : JsValue} (h : strictEquals a b = true) : a = b := by
  unfold strictEquals at h
  split at h
  · rfl
  · rfl
  · rw [of_decide_eq_true h]
  · rw [(JsNumber.strictEq_iff.1 h).1]
  · rw [of_decide_eq_true h]
  · cases h

/-- On a string, or where nothing stands, `!==` is inequality. -/
theorem strictEquals_eq_false_iff {a b : JsValue} (ha : a = undefined ∨ ∃ s, a = string s) :
    strictEquals a b = false ↔ a ≠ b := by
  constructor
  · rintro h rfl
    obtain rfl | ⟨s, rfl⟩ := ha
    · simp [strictEquals] at h
    · simp [strictEquals] at h
  · intro hne
    rw [← Bool.not_eq_true]
    exact fun h => hne (eq_of_strictEquals h)

/-! ## `isDeepStrictEqual` -/

mutual

/-- `isDeepStrictEqual`: the own properties of objects in any order, numbers by `Object.is`. -/
def deepStrictEqual : JsValue → JsValue → Bool
  | undefined, undefined => true
  | null, null => true
  | bool a, bool b => a = b
  | number a, number b => a = b
  | string a, string b => a = b
  | array as, array bs => deepStrictEqualItems as bs
  | object as, object bs =>
    deepStrictEqualProperties as bs && bs.all fun p => (JsMap.lookup p.1 as).isSome
  | _, _ => false

def deepStrictEqualItems : List JsValue → List JsValue → Bool
  | [], [] => true
  | a :: as, b :: bs => deepStrictEqual a b && deepStrictEqualItems as bs
  | _, _ => false

/-- Every property of the first is one of the second, with a value equal to its own. -/
def deepStrictEqualProperties : List (String × JsValue) → List (String × JsValue) → Bool
  | [], _ => true
  | (key, a) :: as, bs =>
    (match JsMap.lookup key bs with
      | some b => deepStrictEqual a b
      | none => false) && deepStrictEqualProperties as bs

end

example : deepStrictEqual null null = true := by rw [deepStrictEqual]

theorem deepStrictEqual_undefined {b : JsValue} (h : deepStrictEqual undefined b = true) :
    b = undefined := by
  cases b <;> simp [deepStrictEqual] at h ⊢

theorem deepStrictEqual_string {s : String} {b : JsValue}
    (h : deepStrictEqual (string s) b = true) : b = string s := by
  cases b <;> simp [deepStrictEqual] at h ⊢
  exact h.symm

theorem lookup_of_deepStrictEqualProperties {as bs : List (String × JsValue)}
    (h : deepStrictEqualProperties as bs = true) {key : String} {a : JsValue}
    (ha : JsMap.lookup key as = some a) :
    ∃ b, JsMap.lookup key bs = some b ∧ deepStrictEqual a b = true := by
  induction as with
  | nil => simp [JsMap.lookup] at ha
  | cons p rest ih =>
    obtain ⟨key', a'⟩ := p
    rw [deepStrictEqualProperties, Bool.and_eq_true] at h
    rw [JsMap.lookup] at ha
    split at ha
    · rename_i hkey
      obtain rfl := Option.some.inj ha
      subst hkey
      cases hb : JsMap.lookup key' bs with
      | none => simp [hb] at h
      | some b => exact ⟨b, rfl, by simpa [hb] using h.1⟩
    · exact ih h.2 ha

theorem mem_of_lookup {l : List (String × JsValue)} {key : String} {v : JsValue}
    (h : JsMap.lookup key l = some v) : (key, v) ∈ l := by
  induction l with
  | nil => simp [JsMap.lookup] at h
  | cons q rest ih =>
    obtain ⟨key', v'⟩ := q
    rw [JsMap.lookup] at h
    split at h
    · rename_i hkey
      obtain rfl := Option.some.inj h
      subst hkey
      exact List.mem_cons_self
    · exact List.mem_cons_of_mem _ (ih h)

/-- Deeply equal objects read deeply equal, property by property. -/
theorem deepStrictEqual_property {as bs : List (String × JsValue)}
    (h : deepStrictEqual (object as) (object bs) = true) (key : String) :
    deepStrictEqual ((object as).property key) ((object bs).property key) = true := by
  rw [deepStrictEqual, Bool.and_eq_true, List.all_eq_true] at h
  obtain ⟨hforward, hback⟩ := h
  simp only [property]
  cases ha : JsMap.lookup key as with
  | some a =>
    obtain ⟨b, hb, hab⟩ := lookup_of_deepStrictEqualProperties hforward ha
    rw [hb]
    exact hab
  | none =>
    cases hb : JsMap.lookup key bs with
    | none => simp [deepStrictEqual]
    | some b =>
      -- a property only the second has is one the first has too
      have hsome := hback (key, b) (mem_of_lookup hb)
      rw [ha] at hsome
      cases hsome

theorem deepStrictEqualProperties_of_lookup {as bs : List (String × JsValue)}
    (h : ∀ p ∈ as, JsMap.lookup p.1 bs = some p.2 ∧ p.2.deepStrictEqual p.2 = true) :
    deepStrictEqualProperties as bs = true := by
  induction as with
  | nil => rw [deepStrictEqualProperties]
  | cons p rest ih =>
    obtain ⟨key, a⟩ := p
    obtain ⟨hlookup, hself⟩ := h (key, a) List.mem_cons_self
    rw [deepStrictEqualProperties, hlookup, ih fun q hq => h q (List.mem_cons_of_mem _ hq)]
    simpa using hself

/-- An object is deeply equal to itself when its values are. -/
theorem deepStrictEqual_object_self {properties : List (String × JsValue)}
    (hnodup : (properties.map Prod.fst).Nodup)
    (hvalues : ∀ p ∈ properties, p.2.deepStrictEqual p.2 = true) :
    deepStrictEqual (object properties) (object properties) = true := by
  have hlookup : ∀ p ∈ properties, JsMap.lookup p.1 properties = some p.2 :=
    fun p hp => (JsMap.lookup_eq_some_iff hnodup).2 hp
  rw [deepStrictEqual, Bool.and_eq_true, List.all_eq_true]
  refine ⟨deepStrictEqualProperties_of_lookup fun p hp => ⟨hlookup p hp, hvalues p hp⟩, ?_⟩
  intro p hp
  rw [hlookup p hp]
  rfl

/-! ## Spreading and leaving out -/

/-- `{ ...value, key: v }`. -/
def withProperty (value : JsValue) (key : String) (v : JsValue) : JsValue :=
  match value with
  | object properties => object (JsMap.setEntries key v properties)
  | _ => object [(key, v)]

/-- The rest of `const { key, .., ...rest } = value`. -/
def without (value : JsValue) (keys : List String) : JsValue :=
  match value with
  | object properties => object (properties.filter fun p => p.1 ∉ keys)
  | _ => object []

theorem property_withProperty {value v : JsValue} {key : String} (k : String) :
    (value.withProperty key v).property k = if k = key then v else value.property k := by
  cases value with
  | object properties =>
    simp only [withProperty, property]
    by_cases h : k = key
    · rw [if_pos h, h, JsMap.lookup_setEntries_self, Option.getD_some]
    · rw [if_neg h, JsMap.lookup_setEntries_of_ne h]
  | _ => by_cases h : key = k <;> simp [withProperty, property, JsMap.lookup, h, Ne.symm]

theorem lookup_filter_notMem {properties : List (String × JsValue)} {keys : List String}
    {k : String} (hk : k ∉ keys) :
    JsMap.lookup k (properties.filter fun p => p.1 ∉ keys) = JsMap.lookup k properties := by
  induction properties with
  | nil => rfl
  | cons p rest ih =>
    obtain ⟨key', v'⟩ := p
    by_cases hkey : key' ∈ keys
    · have hne : ¬ key' = k := fun h => hk (h ▸ hkey)
      rw [List.filter_cons_of_neg (by simpa using hkey), JsMap.lookup, if_neg hne]
      exact ih
    · rw [List.filter_cons_of_pos (by simpa using hkey), JsMap.lookup, JsMap.lookup, ih]

theorem property_without {value : JsValue} {keys : List String} {k : String} (hk : k ∉ keys) :
    (value.without keys).property k = value.property k := by
  cases value with
  | object properties => simp only [without, property, lookup_filter_notMem hk]
  | _ => rfl

/-- Values deeply equal up to some keys read deeply equal at every other key. -/
theorem deepStrictEqual_property_of_without {a b : JsValue} {keys : List String}
    (h : (a.without keys).deepStrictEqual (b.without keys) = true) {k : String} (hk : k ∉ keys) :
    (a.property k).deepStrictEqual (b.property k) = true := by
  have hobject : ∀ value : JsValue, ∃ properties, value.without keys = object properties := by
    intro value
    cases value with
    | object properties => exact ⟨_, rfl⟩
    | _ => exact ⟨[], rfl⟩
  rw [← property_without hk, 
    ← (property_without hk : (b.without keys).property k = b.property k)]
  obtain ⟨as, ha⟩ := hobject a
  obtain ⟨bs, hb⟩ := hobject b
  rw [ha, hb] at h ⊢
  exact deepStrictEqual_property h k

end Psfn.Lib.JsValue
