import Psfn.Lib.JsString

/-!
# JavaScript values of unknown type

What a function declared on `unknown` can be handed: the value tree a validator
inspects with `typeof`, `Array.isArray` and property reads. Objects are own
enumerable properties in insertion order; an absent property reads as `undefined`.
-/

namespace Psfn.Lib

inductive JsValue where
  | undefined
  | null
  | bool (b : Bool)
  | number (n : JsNumber)
  | string (s : String)
  | array (items : List JsValue)
  | object (properties : List (String × JsValue))

namespace JsValue

/-- `value.key`, for a key that is not inherited. -/
def property (value : JsValue) (key : String) : JsValue :=
  match value with
  | object properties => (JsMap.lookup key properties).getD undefined
  | _ => undefined

/-- `Object.keys`. -/
def ownKeys : JsValue → List String
  | object properties => properties.map Prod.fst
  | _ => []

/-- `typeof value === 'object' && value !== null && !Array.isArray(value)`. -/
def isRecord : JsValue → Bool
  | object _ => true
  | _ => false

/-- `value === undefined`. -/
def isUndefined : JsValue → Bool
  | undefined => true
  | _ => false

/-! ### Through JSON

What `JSON.parse(JSON.stringify(value))` gives back. A number that is not finite comes back
as `null`, a property that is `undefined` is left out, and an `undefined` element of an array
comes back as `null`. -/

mutual

/-- `JSON.parse(JSON.stringify(value))`; the element of an array when `value` is one. -/
def json : JsValue → JsValue
  | undefined => null
  | null => null
  | bool b => bool b
  | number n => if n.isFinite then number n else null
  | string s => string s
  | array items => array (jsonItems items)
  | object properties => object (jsonProperties properties)

def jsonItems : List JsValue → List JsValue
  | [] => []
  | item :: rest => json item :: jsonItems rest

def jsonProperties : List (String × JsValue) → List (String × JsValue)
  | [] => []
  | (key, value) :: rest =>
    if value.isUndefined then jsonProperties rest
    else (key, json value) :: jsonProperties rest

end

example : json null = null := by rw [json]

mutual

/-- A value JSON can express: no `undefined`, and finite numbers only. -/
def IsJson : JsValue → Prop
  | undefined => False
  | null => True
  | bool _ => True
  | number n => n.isFinite = true
  | string _ => True
  | array items => AreJson items
  | object properties => HaveJson properties

def AreJson : List JsValue → Prop
  | [] => True
  | item :: rest => IsJson item ∧ AreJson rest

def HaveJson : List (String × JsValue) → Prop
  | [] => True
  | (_, value) :: rest => IsJson value ∧ HaveJson rest

end

example : ¬ IsJson undefined := by simp [IsJson]

theorem areJson_iff {items : List JsValue} : AreJson items ↔ ∀ item ∈ items, item.IsJson := by
  induction items with
  | nil => simp [AreJson]
  | cons item rest ih => simp [AreJson, ih]

theorem haveJson_iff {properties : List (String × JsValue)} :
    HaveJson properties ↔ ∀ p ∈ properties, p.2.IsJson := by
  induction properties with
  | nil => simp [HaveJson]
  | cons p rest ih =>
    obtain ⟨key, value⟩ := p
    simp [HaveJson, ih]

@[simp] theorem isJson_null : IsJson null := by simp [IsJson]

@[simp] theorem isJson_bool (b : Bool) : IsJson (bool b) := by simp [IsJson]

@[simp] theorem isJson_string (s : String) : IsJson (string s) := by simp [IsJson]

@[simp] theorem isJson_number {n : JsNumber} : IsJson (number n) ↔ n.isFinite = true := by
  simp [IsJson]

@[simp] theorem isJson_array {items : List JsValue} :
    IsJson (array items) ↔ ∀ item ∈ items, item.IsJson := by
  rw [IsJson, areJson_iff]

@[simp] theorem isJson_object {properties : List (String × JsValue)} :
    IsJson (object properties) ↔ ∀ p ∈ properties, p.2.IsJson := by
  rw [IsJson, haveJson_iff]

mutual

theorem json_eq_self : ∀ {value : JsValue}, value.IsJson → value.json = value
  | null, _ => by rw [json]
  | bool _, _ => by rw [json]
  | number n, h => by rw [json, if_pos (isJson_number.1 h)]
  | string _, _ => by rw [json]
  | array items, h => by rw [json, jsonItems_eq_self (by simpa only [IsJson] using h)]
  | object properties, h => by rw [json, jsonProperties_eq_self (by simpa only [IsJson] using h)]

theorem jsonItems_eq_self : ∀ {items : List JsValue}, AreJson items → jsonItems items = items
  | [], _ => by rw [jsonItems]
  | item :: rest, h => by
    rw [AreJson] at h
    rw [jsonItems, json_eq_self h.1, jsonItems_eq_self h.2]

theorem jsonProperties_eq_self :
    ∀ {properties : List (String × JsValue)}, HaveJson properties →
      jsonProperties properties = properties
  | [], _ => by rw [jsonProperties]
  | (key, value) :: rest, h => by
    rw [HaveJson] at h
    have hdefined : value.isUndefined = false := by
      cases value <;> simp_all [isUndefined, IsJson]
    rw [jsonProperties, hdefined, json_eq_self h.1, jsonProperties_eq_self h.2]
    simp

end

theorem jsonItems_eq_map (items : List JsValue) : jsonItems items = items.map json := by
  induction items with
  | nil => rw [jsonItems, List.map_nil]
  | cons item rest ih => rw [jsonItems, List.map_cons, ih]

/-- Where no property is `undefined`, every property comes back as its own value does. -/
theorem property_json_object {properties : List (String × JsValue)}
    (h : ∀ p ∈ properties, p.2.isUndefined = false) (key : String) :
    (object properties).json.property key =
      ((JsMap.lookup key properties).map json).getD undefined := by
  have hlookup : JsMap.lookup key (jsonProperties properties) =
      (JsMap.lookup key properties).map json := by
    induction properties with
    | nil => rw [jsonProperties]; rfl
    | cons p rest ih =>
      obtain ⟨k, v⟩ := p
      have hv : v.isUndefined = false := h (k, v) (List.mem_cons_self ..)
      rw [jsonProperties, hv, JsMap.lookup]
      by_cases hk : k = key
      · simp [JsMap.lookup, hk]
      · simpa [JsMap.lookup, hk] using ih fun p hp => h p (List.mem_cons_of_mem _ hp)
  rw [json, property, hlookup]

end JsValue

/-! ## Optional properties -/

/-- A property that is left out of the object when absent. -/
def optionalProperty {α : Type} (key : String) (toValue : α → JsValue) (value : Option α) :
    List (String × JsValue) :=
  match value with
  | none => []
  | some a => [(key, toValue a)]

section OptionalProperty

variable {α : Type} {toValue : α → JsValue} {value : Option α} {rest : List (String × JsValue)}

@[simp] theorem lookup_optionalProperty {key : String} :
    JsMap.lookup key (optionalProperty key toValue value) = value.map toValue := by
  cases value <;> simp [optionalProperty, JsMap.lookup]

@[simp] theorem lookup_optionalProperty_of_ne {key key' : String} (h : key' ≠ key) :
    JsMap.lookup key (optionalProperty key' toValue value) = none := by
  cases value <;> simp [optionalProperty, JsMap.lookup, h]

@[simp] theorem lookup_optionalProperty_append {key : String} :
    JsMap.lookup key (optionalProperty key toValue value ++ rest) =
      (value.map toValue).or (JsMap.lookup key rest) := by
  cases value <;> simp [optionalProperty, JsMap.lookup]

@[simp] theorem lookup_optionalProperty_append_of_ne {key key' : String} (h : key' ≠ key) :
    JsMap.lookup key (optionalProperty key' toValue value ++ rest) = JsMap.lookup key rest := by
  cases value <;> simp [optionalProperty, JsMap.lookup, h]

theorem forall_optionalProperty {key : String} {P : String × JsValue → Prop} :
    (∀ p ∈ optionalProperty key toValue value, P p) ↔ ∀ a, value = some a → P (key, toValue a) := by
  cases value <;> simp [optionalProperty]

end OptionalProperty

/-! ## Code that throws

A function that may throw is an `Except`. These two rules take a computation
that came through apart, one statement at a time. -/

theorem bind_eq_ok {ε α β : Type} {x : Except ε α} {f : α → Except ε β} {r : β} :
    (x >>= f) = .ok r ↔ ∃ a, x = .ok a ∧ f a = .ok r := by
  cases x <;> simp [bind, Except.bind]

/-- `if (bad) throw new Error(message)`. -/
def throwIf (bad : Bool) (message : String) : Except String Unit :=
  if bad then .error message else .ok ()

theorem throwIf_eq_ok {bad : Bool} {message : String} {r : Unit} :
    throwIf bad message = .ok r ↔ bad = false := by
  cases bad <;> simp [throwIf]

/-! ### Loops that throw -/

/-- A loop that returns nothing came through exactly when every round did. -/
theorem forM_eq_ok {ε α : Type} {f : α → Except ε PUnit} {l : List α} :
    l.forM f = .ok () ↔ ∀ a ∈ l, f a = .ok () := by
  induction l with
  | nil => simp [pure, Except.pure]
  | cons a rest ih =>
    rw [List.forall_mem_cons, ← ih]
    exact bind_eq_ok.trans ⟨fun ⟨_, ha, hrest⟩ => ⟨ha, hrest⟩, fun h => ⟨(), h⟩⟩

/-- A loop whose rounds read an element and then only compute: first every element is read. -/
theorem foldlM_read {α β γ : Type} (read : α → Except String β) (f : γ → β → γ) (l : List α)
    (init : γ) :
    (l.foldlM (fun acc a => do
        let b ← read a
        return f acc b) init : Except String γ) =
      (l.mapM read).map (List.foldl f init) := by
  induction l generalizing init with
  | nil => rfl
  | cons a rest ih =>
    rw [List.foldlM_cons, List.mapM_cons]
    cases hread : read a with
    | error e => rfl
    | ok b =>
      show List.foldlM _ (f init b) rest = _
      rw [ih]
      cases hrest : List.mapM read rest with
      | error e => rfl
      | ok bs => rfl

/-- A loop that came through accepted every element. -/
theorem foldlM_forall {ε α β : Type} {f : β → α → Except ε β} {P : α → Prop}
    (hP : ∀ b a b', f b a = .ok b' → P a) {l : List α} {b r : β} (h : l.foldlM f b = .ok r) :
    ∀ a ∈ l, P a := by
  induction l generalizing b with
  | nil => simp
  | cons a rest ih =>
    rw [List.foldlM_cons, bind_eq_ok] at h
    obtain ⟨b', hb', hrest⟩ := h
    exact List.forall_mem_cons.2 ⟨hP b a b' hb', ih hrest⟩

/-- What every round keeps, the loop keeps. -/
theorem foldlM_invariant {ε α β : Type} {f : β → α → Except ε β} {I : β → Prop}
    (hI : ∀ b a b', I b → f b a = .ok b' → I b') {l : List α} {b r : β} (hb : I b)
    (h : l.foldlM f b = .ok r) : I r := by
  induction l generalizing b with
  | nil =>
    obtain rfl := Except.ok.inj h
    exact hb
  | cons a rest ih =>
    rw [List.foldlM_cons, bind_eq_ok] at h
    obtain ⟨b', hb', hrest⟩ := h
    exact ih (hI b a b' hb hb') hrest

end Psfn.Lib
