import Psfn.Lib.Digits
import Psfn.Lib.JsValue

/-!
# JSON values up to the order of keys

Two objects are the same JSON value when they have the same entries in some order. `sortKeys`
sorts the keys of every object by code units, as `Object.keys(value).sort()` does.

* `sameJson_iff` — values with distinct keys are the same exactly when they are equal once their
  keys are sorted;
* `property_sortKeys` — a property of the sorted value is the sorted property.
-/

namespace Psfn.Lib

/-! ## Code units -/

namespace JsString

/-- One character's code units tell where they end: the first half of a surrogate pair is no
character of its own. -/
theorem utf16Units_injective {s t : String} (h : utf16Units s = utf16Units t) : s = t := by
  have hchars : ∀ l m : List Char, utf16Units (String.ofList l) = utf16Units (String.ofList m) →
      l = m := by
    intro l
    induction l with
    | nil =>
      rintro (- | ⟨d, m⟩) hl
      · rfl
      · simp only [utf16Units, String.toList_ofList, List.flatMap_nil, List.flatMap_cons] at hl
        split at hl <;> cases hl
    | cons c l ih =>
      rintro (- | ⟨d, m⟩) hl
      · simp only [utf16Units, String.toList_ofList, List.flatMap_nil, List.flatMap_cons] at hl
        split at hl <;> cases hl
      · simp only [utf16Units, String.toList_ofList, List.flatMap_cons] at hl ih
        have hc : c.toNat < 0xD800 ∨ 0xDFFF < c.toNat ∧ c.toNat < 0x110000 := c.valid
        have hd : d.toNat < 0xD800 ∨ 0xDFFF < d.toNat ∧ d.toNat < 0x110000 := d.valid
        have hcode : c.toNat = d.toNat → c = d := Char.toNat_inj.1
        split at hl <;> split at hl
        · injection hl with hunit hrest
          rw [hcode hunit, ih m hrest]
        · have hunit := (List.cons.inj hl).1
          omega
        · have hunit := (List.cons.inj hl).1
          omega
        · obtain ⟨hhigh, htail⟩ := List.cons.inj hl
          obtain ⟨hlow, hrest⟩ := List.cons.inj htail
          rw [hcode (by omega), ih m hrest]
  have := hchars s.toList t.toList (by rwa [String.ofList_toList, String.ofList_toList])
  exact String.toList_inj.1 this

end JsString

namespace JsValue

open JsString (unitsLe utf16Units)

/-! ## Sorting -/

/-- `Object.keys(value).sort()`, each key with what stands for its value. -/
def sortEntries {β : Type} (entries : List (String × β)) : List (String × β) :=
  entries.mergeSort fun a b => unitsLe (utf16Units a.1) (utf16Units b.1)

mutual

/-- The value with the keys of every object sorted. -/
def sortKeys : JsValue → JsValue
  | array items => array (sortKeysOfItems items)
  | object properties => object (sortEntries (sortKeysOfProperties properties))
  | undefined => undefined
  | null => null
  | bool b => bool b
  | number n => number n
  | string s => string s

def sortKeysOfItems : List JsValue → List JsValue
  | [] => []
  | item :: rest => sortKeys item :: sortKeysOfItems rest

def sortKeysOfProperties : List (String × JsValue) → List (String × JsValue)
  | [] => []
  | (key, value) :: rest => (key, sortKeys value) :: sortKeysOfProperties rest

end

theorem sortKeysOfItems_eq (items : List JsValue) :
    sortKeysOfItems items = items.map sortKeys := by
  induction items with
  | nil => rw [sortKeysOfItems, List.map_nil]
  | cons item rest ih => rw [sortKeysOfItems, ih, List.map_cons]

theorem sortKeysOfProperties_eq (properties : List (String × JsValue)) :
    sortKeysOfProperties properties = properties.map fun p => (p.1, sortKeys p.2) := by
  induction properties with
  | nil => rw [sortKeysOfProperties, List.map_nil]
  | cons p rest ih =>
    obtain ⟨key, value⟩ := p
    rw [sortKeysOfProperties, ih, List.map_cons]

section Entries

variable {β γ : Type}

theorem sortEntries_perm (entries : List (String × β)) :
    (sortEntries entries).Perm entries := List.mergeSort_perm entries _

theorem sortEntries_sorted (entries : List (String × β)) :
    (sortEntries entries).Pairwise fun a b => unitsLe (utf16Units a.1) (utf16Units b.1) := by
  refine List.pairwise_mergeSort ?_ ?_ entries
  · intro a b c
    exact JsString.unitsLe_trans (utf16Units a.1) (utf16Units b.1) (utf16Units c.1)
  · intro a b
    exact JsString.unitsLe_total (utf16Units a.1) (utf16Units b.1)

theorem sortEntries_sortEntries (entries : List (String × β)) :
    sortEntries (sortEntries entries) = sortEntries entries :=
  List.mergeSort_of_pairwise (sortEntries_sorted entries)

theorem map_sortEntries (f : β → γ) (entries : List (String × β)) :
    (sortEntries entries).map (fun entry => (entry.1, f entry.2)) =
      sortEntries (entries.map fun entry => (entry.1, f entry.2)) :=
  List.map_mergeSort fun _ _ _ _ => rfl

/-- Where keys are distinct, the order they come in does not matter. -/
theorem sortEntries_eq_of_perm {entries entries' : List (String × β)}
    (hdistinct : (entries.map Prod.fst).Nodup) (h : entries.Perm entries') :
    sortEntries entries = sortEntries entries' := by
  have hkey : ∀ a ∈ entries, ∀ b ∈ entries, a.1 = b.1 → a = b := by
    intro a ha b hb
    exact List.inj_on_of_nodup_map hdistinct ha hb
  have hperm := ((sortEntries_perm entries).trans h).trans (sortEntries_perm entries').symm
  refine List.Perm.eq_of_pairwise ?_ (sortEntries_sorted entries) (sortEntries_sorted entries')
    hperm
  intro a b ha hb hab hba
  have ha' := (sortEntries_perm entries).mem_iff.1 ha
  have hb' := h.mem_iff.2 ((sortEntries_perm entries').mem_iff.1 hb)
  exact hkey a ha' b hb' (JsString.utf16Units_injective (Digits.unitsLe_antisymm hab hba))

theorem lookup_sortEntries {entries : List (String × β)}
    (hdistinct : (entries.map Prod.fst).Nodup) (key : String) :
    JsMap.lookup key (sortEntries entries) = JsMap.lookup key entries := by
  have hperm := sortEntries_perm entries
  have hsorted : ((sortEntries entries).map Prod.fst).Nodup :=
    (hperm.map Prod.fst).nodup_iff.2 hdistinct
  refine Option.ext fun b => ?_
  rw [JsMap.lookup_eq_some_iff hsorted, JsMap.lookup_eq_some_iff hdistinct, hperm.mem_iff]

end Entries

theorem lookup_map {β γ : Type} (f : β → γ) (key : String) (entries : List (String × β)) :
    JsMap.lookup key (entries.map fun entry => (entry.1, f entry.2)) =
      (JsMap.lookup key entries).map f := by
  induction entries with
  | nil => rfl
  | cons p rest ih =>
    obtain ⟨k, v⟩ := p
    rw [List.map_cons, JsMap.lookup, JsMap.lookup, ih]
    split <;> rfl

theorem sortKeys_object (properties : List (String × JsValue)) :
    (object properties).sortKeys =
      object ((sortEntries properties).map fun p => (p.1, p.2.sortKeys)) := by
  rw [sortKeys, sortKeysOfProperties_eq, ← map_sortEntries]

theorem sortKeys_array (items : List JsValue) :
    (array items).sortKeys = array (items.map sortKeys) := by
  rw [sortKeys, sortKeysOfItems_eq]

/-! ## The same value -/

mutual

/-- No object of the value has a key twice. -/
def DistinctKeys : JsValue → Prop
  | array items => DistinctKeysOfItems items
  | object properties =>
    (properties.map Prod.fst).Nodup ∧ DistinctKeysOfProperties properties
  | _ => True

def DistinctKeysOfItems : List JsValue → Prop
  | [] => True
  | item :: rest => DistinctKeys item ∧ DistinctKeysOfItems rest

def DistinctKeysOfProperties : List (String × JsValue) → Prop
  | [] => True
  | (_, value) :: rest => DistinctKeys value ∧ DistinctKeysOfProperties rest

end

theorem distinctKeysOfItems_iff {items : List JsValue} :
    DistinctKeysOfItems items ↔ ∀ item ∈ items, item.DistinctKeys := by
  induction items with
  | nil => simp [DistinctKeysOfItems]
  | cons item rest ih => simp [DistinctKeysOfItems, ih]

theorem distinctKeysOfProperties_iff {properties : List (String × JsValue)} :
    DistinctKeysOfProperties properties ↔ ∀ p ∈ properties, p.2.DistinctKeys := by
  induction properties with
  | nil => simp [DistinctKeysOfProperties]
  | cons p rest ih =>
    obtain ⟨key, value⟩ := p
    simp [DistinctKeysOfProperties, ih]

theorem distinctKeys_property {value : JsValue} (h : value.DistinctKeys) (key : String) :
    (value.property key).DistinctKeys := by
  cases value with
  | object properties =>
    rw [DistinctKeys, distinctKeysOfProperties_iff] at h
    rw [property]
    cases hlookup : JsMap.lookup key properties with
    | none => trivial
    | some item => exact h.2 (key, item) ((JsMap.lookup_eq_some_iff h.1).1 hlookup)
  | _ => trivial

/-- A property of the sorted value is the sorted property. -/
theorem property_sortKeys {value : JsValue} (h : value.DistinctKeys) (key : String) :
    value.sortKeys.property key = (value.property key).sortKeys := by
  cases value with
  | object properties =>
    rw [DistinctKeys] at h
    rw [sortKeys_object, property, lookup_map, lookup_sortEntries h.1, property]
    cases JsMap.lookup key properties with
    | none => rw [Option.map_none, Option.getD_none, sortKeys]
    | some value => rfl
  | array items => rw [sortKeys_array]; rfl
  | _ => rfl

@[simp] theorem isRecord_sortKeys (value : JsValue) :
    value.sortKeys.isRecord = value.isRecord := by
  cases value <;> rw [sortKeys] <;> rfl

@[simp] theorem isUndefined_sortKeys (value : JsValue) :
    value.sortKeys.isUndefined = value.isUndefined := by
  cases value <;> rw [sortKeys] <;> rfl

mutual

/-- **The same JSON value, up to the order of keys.** -/
inductive SameJson : JsValue → JsValue → Prop where
  | null : SameJson null null
  | bool (b : Bool) : SameJson (bool b) (bool b)
  | number (n : JsNumber) : SameJson (number n) (number n)
  | string (s : String) : SameJson (string s) (string s)
  | array {items items' : List JsValue} :
      SameItems items items' → SameJson (array items) (array items')
  | object {properties members members' properties' : List (String × JsValue)} :
      properties.Perm members → SameMembers members members' → members'.Perm properties' →
      SameJson (object properties) (object properties')

inductive SameItems : List JsValue → List JsValue → Prop where
  | nil : SameItems [] []
  | cons {item item' : JsValue} {rest rest' : List JsValue} :
      SameJson item item' → SameItems rest rest' → SameItems (item :: rest) (item' :: rest')

/-- The same keys in the same order, with the same values. -/
inductive SameMembers : List (String × JsValue) → List (String × JsValue) → Prop where
  | nil : SameMembers [] []
  | cons (key : String) {value value' : JsValue} {rest rest' : List (String × JsValue)} :
      SameJson value value' → SameMembers rest rest' →
      SameMembers ((key, value) :: rest) ((key, value') :: rest')

end

mutual

theorem SameJson.sortKeys_eq : ∀ {a b : JsValue}, SameJson a b → a.DistinctKeys →
    a.sortKeys = b.sortKeys
  | _, _, .null, _ => rfl
  | _, _, .bool _, _ => rfl
  | _, _, .number _, _ => rfl
  | _, _, .string _, _ => rfl
  | _, _, .array h, hdistinct => by
    rw [DistinctKeys] at hdistinct
    rw [sortKeys_array, sortKeys_array, SameItems.sortKeys_eq h (distinctKeysOfItems_iff.1 hdistinct)]
  | _, _, @SameJson.object properties members _ _ hperm h hperm', hdistinct => by
    rw [DistinctKeys, distinctKeysOfProperties_iff] at hdistinct
    have hmembers := SameMembers.sortKeys_eq h fun p hp => hdistinct.2 p (hperm.mem_iff.2 hp)
    have hkeys : (properties.map fun p => (p.1, p.2.sortKeys)).map Prod.fst =
        properties.map Prod.fst := by
      rw [List.map_map]
      rfl
    rw [sortKeys_object, sortKeys_object, map_sortEntries, map_sortEntries]
    refine congrArg JsValue.object (sortEntries_eq_of_perm (hkeys ▸ hdistinct.1) ?_)
    refine (hperm.map _).trans ?_
    rw [hmembers]
    exact hperm'.map _

theorem SameItems.sortKeys_eq : ∀ {items items' : List JsValue}, SameItems items items' →
    (∀ item ∈ items, item.DistinctKeys) → items.map sortKeys = items'.map sortKeys
  | _, _, .nil, _ => rfl
  | _, _, .cons hitem hrest, hdistinct => by
    rw [List.forall_mem_cons] at hdistinct
    rw [List.map_cons, List.map_cons, SameJson.sortKeys_eq hitem hdistinct.1,
      SameItems.sortKeys_eq hrest hdistinct.2]

theorem SameMembers.sortKeys_eq : ∀ {members members' : List (String × JsValue)},
    SameMembers members members' → (∀ p ∈ members, p.2.DistinctKeys) →
      (members.map fun p => (p.1, p.2.sortKeys)) = members'.map fun p => (p.1, p.2.sortKeys)
  | _, _, .nil, _ => rfl
  | _, _, .cons key hvalue hrest, hdistinct => by
    rw [List.forall_mem_cons] at hdistinct
    rw [List.map_cons, List.map_cons, SameJson.sortKeys_eq hvalue hdistinct.1,
      SameMembers.sortKeys_eq hrest hdistinct.2]

end

theorem sameItems_of_map {items items' : List JsValue}
    (hsame : ∀ item ∈ items, ∀ b, item.sortKeys = b.sortKeys → SameJson item b)
    (h : items.map sortKeys = items'.map sortKeys) : SameItems items items' := by
  induction items generalizing items' with
  | nil =>
    cases items' with
    | nil => exact .nil
    | cons item' rest' => cases h
  | cons item rest ih =>
    cases items' with
    | nil => cases h
    | cons item' rest' =>
      injection h with hitem hrest
      rw [List.forall_mem_cons] at hsame
      exact .cons (hsame.1 item' hitem) (ih hsame.2 hrest)

theorem sameMembers_of_map {members members' : List (String × JsValue)}
    (hsame : ∀ p ∈ members, ∀ b, p.2.sortKeys = b.sortKeys → SameJson p.2 b)
    (h : (members.map fun p => (p.1, p.2.sortKeys)) = members'.map fun p => (p.1, p.2.sortKeys)) :
    SameMembers members members' := by
  induction members generalizing members' with
  | nil =>
    cases members' with
    | nil => exact .nil
    | cons p' rest' => cases h
  | cons p rest ih =>
    cases members' with
    | nil => cases h
    | cons p' rest' =>
      obtain ⟨key, value⟩ := p
      obtain ⟨key', value'⟩ := p'
      injection h with hp hrest
      obtain ⟨hkey, hvalue⟩ := Prod.mk.inj hp
      obtain rfl : key = key' := hkey
      rw [List.forall_mem_cons] at hsame
      exact .cons key (hsame.1 value' hvalue) (ih hsame.2 hrest)

theorem sameJson_of_sortKeys : ∀ {a b : JsValue}, a.IsJson → a.sortKeys = b.sortKeys →
    SameJson a b
  | .undefined, _, ha, _ => ha.elim
  | .null, b, _, h => by
    cases b <;> simp only [sortKeys] at h <;> cases h
    exact .null
  | .bool p, b, _, h => by
    cases b <;> simp only [sortKeys] at h <;> cases h
    exact .bool p
  | .number n, b, _, h => by
    cases b <;> simp only [sortKeys] at h <;> cases h
    exact .number n
  | .string s, b, _, h => by
    cases b <;> simp only [sortKeys] at h <;> cases h
    exact .string s
  | .array items, b, ha, h => by
    cases b with
    | array items' =>
      rw [sortKeys_array, sortKeys_array] at h
      rw [isJson_array] at ha
      refine .array (sameItems_of_map (fun item hitem b hb => ?_) (JsValue.array.inj h))
      have := List.sizeOf_lt_of_mem hitem
      exact sameJson_of_sortKeys (ha item hitem) hb
    | _ => simp only [sortKeys] at h; cases h
  | .object properties, b, ha, h => by
    cases b with
    | object properties' =>
      rw [sortKeys_object, sortKeys_object] at h
      rw [isJson_object] at ha
      have hperm := sortEntries_perm properties
      refine .object hperm.symm (sameMembers_of_map (fun p hp b hb => ?_) (JsValue.object.inj h))
        (sortEntries_perm properties')
      have hmem := hperm.mem_iff.1 hp
      have hlt := List.sizeOf_lt_of_mem hmem
      obtain ⟨key, value⟩ := p
      have : sizeOf (key, value) = 1 + sizeOf key + sizeOf value := rfl
      exact sameJson_of_sortKeys (ha (key, value) hmem) hb
    | _ => simp only [sortKeys] at h; cases h
termination_by a => sizeOf a
decreasing_by all_goals simp_wf; omega

/-- **Values with distinct keys are the same exactly when sorting their keys makes them equal.** -/
theorem sameJson_iff {a b : JsValue} (ha : a.IsJson) (hdistinct : a.DistinctKeys) :
    SameJson a b ↔ a.sortKeys = b.sortKeys :=
  ⟨fun h => h.sortKeys_eq hdistinct, sameJson_of_sortKeys ha⟩

end JsValue

end Psfn.Lib
