import Psfn.Lib.JsValue

/-!
# Validators

The building blocks of code that checks a value of unknown type and throws on the first thing
that is wrong: members of closed vocabularies, optional fields, arrays of strings. Each comes
with what it says about a value that passed, and about one it gave back unchanged.
-/

namespace Psfn.Lib

/-! ## Fields -/

/-- The member of a closed list a value names, if it is a string that names one. -/
def ofText {α : Type} (all : List α) (text : α → String) : JsValue → Option α
  | .string s => all.find? fun a => text a = s
  | _ => none

def joinTexts {α : Type} (all : List α) (text : α → String) : String :=
  ", ".intercalate (all.map text)

def orThrow {α : Type} (value : Option α) (message : String) : Except String α :=
  match value with
  | some a => .ok a
  | none => .error message

@[simp] theorem orThrow_eq_ok {α : Type} {value : Option α} {message : String} {a : α} :
    orThrow value message = .ok a ↔ value = some a := by
  cases value <;> simp [orThrow]

/-- `value === undefined ? undefined : normalize(value)`. -/
def optionalField {α : Type} (value : JsValue) (normalize : JsValue → Except String α) :
    Except String (Option α) :=
  if value.isUndefined then .ok none else (normalize value).map some

/-- An optional field that is absent, or that its normaliser returns unchanged. -/
theorem optionalField_getD {α : Type} {toValue : α → JsValue} {value : Option α}
    {normalize : JsValue → Except String α} (hdefined : ∀ a, (toValue a).isUndefined = false)
    (h : ∀ a, value = some a → normalize (toValue a) = .ok a) :
    optionalField ((value.map toValue).getD .undefined) normalize = .ok value := by
  cases value with
  | none => rfl
  | some a => simp [optionalField, hdefined a, h a rfl, Except.map]

theorem optionalField_eq_ok {α : Type} {v : JsValue} {normalize : JsValue → Except String α}
    {r : Option α} (h : optionalField v normalize = .ok r) :
    v.isUndefined = true ∧ r = none ∨ ∃ a, normalize v = .ok a ∧ r = some a := by
  unfold optionalField at h
  split at h
  · rename_i hv
    exact .inl ⟨hv, by simpa using h.symm⟩
  · cases hn : normalize v with
    | error e => simp [hn, Except.map] at h
    | ok a => exact .inr ⟨a, rfl, by simpa [hn, Except.map] using h.symm⟩

/-! ## Arrays -/

def stringsValue (items : List String) : JsValue := .array (items.map .string)

@[simp] theorem isUndefined_stringsValue (items : List String) :
    (stringsValue items).isUndefined = false := rfl

theorem isJson_stringsValue (items : List String) : (stringsValue items).IsJson := by
  simp [stringsValue]

theorem mapM_map_some {α : Type} {toValue : α → JsValue} {f : JsValue → Option α} {as : List α}
    (h : ∀ a ∈ as, f (toValue a) = some a) : (as.map toValue).mapM f = some as := by
  induction as with
  | nil => rfl
  | cons a rest ih =>
    rw [List.map_cons, List.mapM_cons, h a (List.mem_cons_self ..),
      ih fun b hb => h b (List.mem_cons_of_mem _ hb)]
    rfl

theorem mapM_map_ok {α : Type} {toValue : α → JsValue} {f : JsValue → Except String α}
    {as : List α} (h : ∀ a ∈ as, f (toValue a) = .ok a) : (as.map toValue).mapM f = .ok as := by
  induction as with
  | nil => rfl
  | cons a rest ih =>
    rw [List.map_cons, List.mapM_cons, h a (List.mem_cons_self ..),
      ih fun b hb => h b (List.mem_cons_of_mem _ hb)]
    rfl

theorem mapM_forall {α β : Type} {f : α → Except String β} {P : β → Prop} {l : List α}
    (hP : ∀ a ∈ l, ∀ b, f a = .ok b → P b) {r : List β} (h : l.mapM f = .ok r) : ∀ b ∈ r, P b := by
  induction l generalizing r with
  | nil =>
    obtain rfl := Except.ok.inj h
    simp
  | cons a rest ih =>
    rw [List.mapM_cons, bind_eq_ok] at h
    obtain ⟨b, hb, h⟩ := h
    rw [bind_eq_ok] at h
    obtain ⟨others, hothers, hr⟩ := h
    obtain rfl := Except.ok.inj hr
    refine List.forall_mem_cons.2 ⟨hP a (List.mem_cons_self ..) b hb, ?_⟩
    exact ih (fun a ha => hP a (List.mem_cons_of_mem _ ha)) hothers

/-! ## Records -/

/-- The keys of a record are all known. -/
theorem filter_ownKeys_eq_nil {properties : List (String × JsValue)} {known : List String}
    (h : ∀ p ∈ properties, p.1 ∈ known) :
    (JsValue.object properties).ownKeys.filter (· ∉ known) = [] := by
  rw [JsValue.ownKeys, List.filter_eq_nil_iff]
  intro key hkey
  obtain ⟨p, hp, rfl⟩ := List.mem_map.1 hkey
  simpa using h p hp

/-! ### Records rebuilt key by key

A normaliser of an object with free keys walks its entries and assigns each, under a
normalised key, to a fresh object. `Entry` says what it lets through. -/

section Rebuild

variable {α : Type} {assign : JsMap String α → String × JsValue → Except String (JsMap String α)}
  {Entry : String → α → Prop}

/-- One assignment keeps every entry acceptable and adds at most one. -/
theorem assignProperty_entries {m : JsMap String α} {key : String} {a : α} (ha : Entry key a)
    (hm : ∀ p ∈ m.entries, Entry p.1 p.2 ∧ p.1 ≠ "__proto__") :
    (∀ p ∈ (assignProperty m key a).entries, Entry p.1 p.2 ∧ p.1 ≠ "__proto__") ∧
      (assignProperty m key a).size ≤ m.size + 1 := by
  unfold assignProperty
  split
  · exact ⟨hm, Nat.le_succ _⟩
  · rename_i hproto
    refine ⟨fun p hp => ?_, ?_⟩
    · have hget : (m.set key a).get p.1 = some p.2 := ((m.set key a).mem_entries_iff_get _ _).1 hp
      rw [JsMap.get_set] at hget
      split at hget
      · rename_i hkey
        obtain rfl := Option.some.inj hget
        exact ⟨hkey ▸ ha, hkey ▸ hproto⟩
      · exact hm p ((m.mem_entries_iff_get _ _).2 hget)
    · have hkeys := congrArg List.length (JsMap.map_fst_setEntries key a m.entries)
      rw [List.length_map] at hkeys
      rw [JsMap.size, JsMap.set, hkeys]
      split <;> simp [JsMap.size]

theorem foldlM_assign {entries : List (String × JsValue)} {m m' : JsMap String α}
    (hassign : ∀ m p m', assign m p = .ok m' → ∃ key a, Entry key a ∧ m' = assignProperty m key a)
    (hm : ∀ p ∈ m.entries, Entry p.1 p.2 ∧ p.1 ≠ "__proto__")
    (h : entries.foldlM assign m = .ok m') :
    (∀ p ∈ m'.entries, Entry p.1 p.2 ∧ p.1 ≠ "__proto__") ∧
      m'.size ≤ m.size + entries.length := by
  induction entries generalizing m with
  | nil =>
    obtain rfl := Except.ok.inj h
    exact ⟨hm, le_rfl⟩
  | cons p rest ih =>
    rw [List.foldlM_cons, bind_eq_ok] at h
    obtain ⟨m₁, hm₁, hrest⟩ := h
    obtain ⟨key, a, ha, rfl⟩ := hassign m p m₁ hm₁
    obtain ⟨hentries, hsize⟩ := assignProperty_entries ha hm
    obtain ⟨hentries', hsize'⟩ := ih hentries hrest
    refine ⟨hentries', ?_⟩
    rw [List.length_cons]
    omega

/-- An object whose entries are all acceptable as they stand is rebuilt entry by entry. -/
theorem foldlM_rebuild {toValue : α → JsValue}
    (hassign : ∀ m key a, Entry key a → assign m (key, toValue a) = .ok (assignProperty m key a))
    {l : List (String × α)} {m r : JsMap String α} (hr : r.entries = m.entries ++ l)
    (hl : ∀ p ∈ l, Entry p.1 p.2 ∧ p.1 ≠ "__proto__") :
    (l.map fun p => (p.1, toValue p.2)).foldlM assign m = .ok r := by
  induction l generalizing m with
  | nil =>
    rw [List.append_nil] at hr
    rw [JsMap.ext hr]
    rfl
  | cons p rest ih =>
    obtain ⟨key, a⟩ := p
    obtain ⟨ha, hproto⟩ := hl (key, a) (List.mem_cons_self ..)
    -- the key is new: the finished object holds it once
    have hfresh : key ∉ m.entries.map Prod.fst := by
      have hnodup := r.nodup
      rw [hr, List.map_append, List.nodup_append] at hnodup
      exact fun hmem => hnodup.2.2 key hmem key (by simp) rfl
    have hset : (m.set key a).entries = m.entries ++ [(key, a)] :=
      JsMap.setEntries_of_notMem hfresh a
    rw [List.map_cons, List.foldlM_cons, hassign m key a ha, assignProperty, if_neg hproto]
    refine ih (m := m.set key a) ?_ fun p hp => hl p (List.mem_cons_of_mem _ hp)
    rw [hset, hr, List.append_assoc, List.singleton_append]

end Rebuild

/-! ## Checks that leave a proof behind

A parser into a type that carries its invariant keeps what each check has shown. -/

theorem ok_bind {α β : Type} (a : α) (f : α → Except String β) : (Except.ok a >>= f) = f a := rfl

/-- A parser gives back what it once returned, and JSON does not change it in between. -/
structure RoundTrips {α : Type} (parse : JsValue → Except String α) (toValue : α → JsValue) :
    Prop where
  back : ∀ a, parse (toValue a) = .ok a
  json : ∀ a, (toValue a).IsJson

namespace RoundTrips

variable {α : Type} {parse : JsValue → Except String α} {toValue : α → JsValue}

theorem defined (h : RoundTrips parse toValue) (a : α) : (toValue a).isUndefined = false := by
  have hjson := h.json a
  cases hvalue : toValue a <;> simp_all [JsValue.isUndefined, JsValue.IsJson]

theorem optional (h : RoundTrips parse toValue) (value : Option α) :
    optionalField ((value.map toValue).getD .undefined) parse = .ok value :=
  optionalField_getD h.defined fun a _ => h.back a

end RoundTrips

end Psfn.Lib
