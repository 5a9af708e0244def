import Mathlib.Data.Rat.Defs
import Mathlib.Data.List.Nodup
import Mathlib.Data.List.Perm.Basic

/-!
# JavaScript values: numbers and insertion-ordered maps

The library layer under every model of TypeScript code in this project. It names
nothing of the repository.

* `JsNumber` — a `number`, seen through the operations the models use: `===`,
  `Number.isFinite`, `Number.isInteger`, the comparisons, sums and products. A finite
  double is a rational; `NaN` is equal to nothing, itself included.
* `JsMap` — a `Map` (and, with string keys, the own enumerable properties of an
  object): entries in insertion order, each key once. `set` keeps the position of
  a key that is present and appends one that is not; `delete` drops it.

The lookup lemmas (`get_set_self`, `get_set_of_ne`, `get_delete_self`,
`get_delete_of_ne`, `mem_entries_iff_get`) are the interface the models use; the
entry list is only looked at where a program iterates over it.
-/

namespace Psfn.Lib

/-! ## Numbers -/

/-- A JavaScript `number`. Signed zeros are identified: no modelled operation
tells them apart. -/
inductive JsNumber where
  | finite (q : Rat)
  | posInf
  | negInf
  | nan
deriving DecidableEq, Repr

namespace JsNumber

/-- `===` on numbers. -/
def strictEq : JsNumber → JsNumber → Bool
  | nan, _ => false
  | _, nan => false
  | a, b => a = b

/-- `Number.isFinite`. -/
def isFinite : JsNumber → Bool
  | finite _ => true
  | _ => false

/-- `Number.isInteger`. -/
def isInteger : JsNumber → Bool
  | finite q => q.den = 1
  | _ => false

/-- `<=`. Every comparison with `NaN` is false. -/
def le : JsNumber → JsNumber → Bool
  | nan, _ => false
  | _, nan => false
  | negInf, _ => true
  | _, posInf => true
  | finite a, finite b => a ≤ b
  | _, _ => false

/-- `<`. -/
def lt (a b : JsNumber) : Bool := a.le b && !b.le a

/-- A natural number rounded to 53 significant bits, ties to even. -/
def roundToDouble (n : Nat) : Nat :=
  let unit := Nat.pow 2 (n.log2 - 52)
  let quotient := n / unit
  let twice := 2 * (n % unit)
  let rounded :=
    if twice > unit || (twice = unit && quotient % 2 = 1) then quotient + 1 else quotient
  rounded * unit

/-- The `number` a decimal literal without sign denotes. -/
def ofNat (n : Nat) : JsNumber :=
  if roundToDouble n ≥ Nat.pow 2 1024 then posInf else finite (roundToDouble n)

def neg : JsNumber → JsNumber
  | finite q => finite (-q)
  | posInf => negInf
  | negInf => posInf
  | nan => nan

/-! ### Arithmetic

Sums and products of doubles are rounded to the nearest double, ties to even, and overflow
to an infinity. -/

def pow2 (e : Int) : Rat := if 0 ≤ e then 2 ^ e.toNat else 1 / 2 ^ (-e).toNat

/-- The exponent of the leading bit of `q`. -/
def binaryExponent (q : Rat) : Int :=
  let e : Int := (q.num.natAbs.log2 : Int) - (q.den.log2 : Int)
  if pow2 e * q.den ≤ q.num.natAbs then e else e - 1

/-- The distance between the doubles around `q`; below the normal range it is constant. -/
def ulp (q : Rat) : Rat := pow2 (max (binaryExponent q) (-1022) - 52)

def roundHalfEven (q : Rat) : Int :=
  let rest := q - q.floor
  if 1 / 2 < rest || (rest = 1 / 2 && q.floor % 2 = 1) then q.floor + 1 else q.floor

/-- The double nearest to `q`. -/
def ofRat (q : Rat) : JsNumber :=
  let rounded := roundHalfEven (q / ulp q) * ulp q
  if 2 ^ 1024 ≤ rounded then posInf
  else if rounded ≤ -2 ^ 1024 then negInf
  else finite rounded

/-- `+`. -/
def add : JsNumber → JsNumber → JsNumber
  | finite a, finite b => ofRat (a + b)
  | nan, _ => nan
  | _, nan => nan
  | posInf, negInf => nan
  | negInf, posInf => nan
  | posInf, _ => posInf
  | negInf, _ => negInf
  | finite _, b => b

/-- `*`. -/
def mul : JsNumber → JsNumber → JsNumber
  | finite a, finite b => ofRat (a * b)
  | nan, _ => nan
  | _, nan => nan
  | posInf, b => if b.lt (finite 0) then negInf else if b = finite 0 then nan else posInf
  | negInf, b => if b.lt (finite 0) then posInf else if b = finite 0 then nan else negInf
  | finite a, posInf => if a < 0 then negInf else if a = 0 then nan else posInf
  | finite a, negInf => if a < 0 then posInf else if a = 0 then nan else negInf

/-- `Math.max` of two numbers. -/
def max2 (a b : JsNumber) : JsNumber :=
  if a = nan || b = nan then nan else if a.le b then b else a

/-- `Math.max(...numbers)`. -/
def maxOf (numbers : List JsNumber) : JsNumber := numbers.foldl max2 negInf

theorem le_trans {a b c : JsNumber} (hab : a.le b = true) (hbc : b.le c = true) :
    a.le c = true := by
  cases a <;> cases b <;> cases c <;> simp_all [le]
  exact Rat.le_trans hab hbc

/-- On numbers other than `NaN`, `<` is the negation of `>=`. -/
theorem lt_eq_false_iff {a b : JsNumber} (ha : a ≠ nan) (hb : b ≠ nan) :
    a.lt b = false ↔ b.le a = true := by
  cases a <;> cases b <;> simp_all [lt, le]
  exact Rat.le_total

theorem strictEq_iff {a b : JsNumber} : a.strictEq b = true ↔ a = b ∧ a ≠ nan := by
  cases a <;> cases b <;> simp [strictEq]

theorem exists_int_of_isInteger {a : JsNumber} (h : a.isInteger = true) :
    ∃ k : Int, a = finite k := by
  cases a with
  | finite q =>
    have hden : q.den = 1 := by simpa [isInteger] using h
    exact ⟨q.num, congrArg finite (Rat.coe_int_num_of_den_eq_one hden).symm⟩
  | posInf => simp [isInteger] at h
  | negInf => simp [isInteger] at h
  | nan => simp [isInteger] at h

theorem ne_nan_of_isFinite {a : JsNumber} (h : a.isFinite = true) : a ≠ nan := by
  rintro rfl
  simp [isFinite] at h

end JsNumber

/-! ## Insertion-ordered maps -/

/-- A JavaScript `Map`: entries in insertion order, each key once. -/
structure JsMap (κ ν : Type) where
  entries : List (κ × ν)
  nodup   : (entries.map Prod.fst).Nodup

namespace JsMap

variable {κ ν : Type}

@[ext] theorem ext {m m' : JsMap κ ν} (h : m.entries = m'.entries) : m = m' := by
  cases m
  cases m'
  simp_all

instance [DecidableEq κ] [DecidableEq ν] : DecidableEq (JsMap κ ν) := fun m m' =>
  decidable_of_iff (m.entries = m'.entries) ⟨JsMap.ext, fun h => h ▸ rfl⟩

def empty : JsMap κ ν := ⟨[], List.nodup_nil⟩

def size (m : JsMap κ ν) : Nat := m.entries.length

def keys (m : JsMap κ ν) : List κ := m.entries.map Prod.fst

def values (m : JsMap κ ν) : List ν := m.entries.map Prod.snd

section Lookup

variable [DecidableEq κ]

/-- First-match lookup in an entry list. -/
def lookup (k : κ) : List (κ × ν) → Option ν
  | [] => none
  | (k', v) :: rest => if k' = k then some v else lookup k rest

def get (m : JsMap κ ν) (k : κ) : Option ν := lookup k m.entries

def has (m : JsMap κ ν) (k : κ) : Bool := (m.get k).isSome

/-- Replace the value of `k` where it stands, or append the pair. -/
def setEntries (k : κ) (v : ν) : List (κ × ν) → List (κ × ν)
  | [] => [(k, v)]
  | (k', v') :: rest => if k' = k then (k, v) :: rest else (k', v') :: setEntries k v rest

theorem map_fst_setEntries (k : κ) (v : ν) (l : List (κ × ν)) :
    (setEntries k v l).map Prod.fst =
      if k ∈ l.map Prod.fst then l.map Prod.fst else l.map Prod.fst ++ [k] := by
  induction l with
  | nil => simp [setEntries]
  | cons p rest ih =>
    obtain ⟨k', v'⟩ := p
    by_cases hk : k' = k
    · subst hk
      simp [setEntries]
    · have hk' : ¬ k = k' := fun h => hk h.symm
      simp only [setEntries, hk, if_false, List.map_cons, ih, List.mem_cons, hk', false_or]
      split <;> simp

theorem nodup_setEntries {k : κ} {v : ν} {l : List (κ × ν)} (h : (l.map Prod.fst).Nodup) :
    ((setEntries k v l).map Prod.fst).Nodup := by
  rw [map_fst_setEntries]
  split
  · exact h
  · rename_i hk
    rw [List.nodup_append]
    refine ⟨h, List.nodup_singleton k, ?_⟩
    intro a ha b hb hab
    rw [List.mem_singleton] at hb
    exact hk (hb ▸ hab ▸ ha)

def set (m : JsMap κ ν) (k : κ) (v : ν) : JsMap κ ν :=
  ⟨setEntries k v m.entries, nodup_setEntries m.nodup⟩

theorem nodup_filterKey {k : κ} {l : List (κ × ν)} (h : (l.map Prod.fst).Nodup) :
    ((l.filter fun p => p.1 ≠ k).map Prod.fst).Nodup :=
  h.sublist ((List.filter_sublist).map Prod.fst)

/-- `Map.prototype.delete`. -/
def delete (m : JsMap κ ν) (k : κ) : JsMap κ ν :=
  ⟨m.entries.filter fun p => p.1 ≠ k, nodup_filterKey m.nodup⟩

/-- The map built by setting the pairs one after another. -/
def ofList (l : List (κ × ν)) : JsMap κ ν :=
  l.foldl (fun m p => m.set p.1 p.2) empty

/-! ### Lookup lemmas -/

@[simp] theorem get_empty (k : κ) : (empty : JsMap κ ν).get k = none := rfl

theorem lookup_setEntries_self (k : κ) (v : ν) (l : List (κ × ν)) :
    lookup k (setEntries k v l) = some v := by
  induction l with
  | nil => simp [setEntries, lookup]
  | cons p rest ih =>
    obtain ⟨k', v'⟩ := p
    by_cases hk : k' = k
    · simp [setEntries, lookup, hk]
    · simp [setEntries, lookup, hk, ih]

theorem lookup_setEntries_of_ne {k k₂ : κ} (hne : k₂ ≠ k) (v : ν) (l : List (κ × ν)) :
    lookup k₂ (setEntries k v l) = lookup k₂ l := by
  induction l with
  | nil => simp [setEntries, lookup, Ne.symm hne]
  | cons p rest ih =>
    obtain ⟨k', v'⟩ := p
    by_cases hk : k' = k
    · subst hk
      simp [setEntries, lookup, Ne.symm hne]
    · by_cases hk₂ : k' = k₂
      · subst hk₂
        simp [setEntries, lookup, hne]
      · simp [setEntries, lookup, hk, hk₂, ih]

@[simp] theorem get_set_self (m : JsMap κ ν) (k : κ) (v : ν) : (m.set k v).get k = some v :=
  lookup_setEntries_self k v m.entries

theorem get_set_of_ne (m : JsMap κ ν) {k k₂ : κ} (hne : k₂ ≠ k) (v : ν) :
    (m.set k v).get k₂ = m.get k₂ :=
  lookup_setEntries_of_ne hne v m.entries

theorem get_set (m : JsMap κ ν) (k k₂ : κ) (v : ν) :
    (m.set k v).get k₂ = if k₂ = k then some v else m.get k₂ := by
  by_cases h : k₂ = k
  · rw [if_pos h, h, get_set_self]
  · rw [if_neg h, get_set_of_ne m h]

theorem lookup_filterKey (k k₂ : κ) (l : List (κ × ν)) :
    lookup k₂ (l.filter fun p => p.1 ≠ k) = if k₂ = k then none else lookup k₂ l := by
  induction l with
  | nil => simp [lookup]
  | cons p rest ih =>
    obtain ⟨k', v'⟩ := p
    by_cases hk : k' = k
    · subst hk
      by_cases hk₂ : k₂ = k'
      · simp_all
      · simp_all [lookup, Ne.symm hk₂]
    · by_cases hk₂ : k' = k₂
      · subst hk₂
        simp [lookup, hk]
      · simp_all [lookup]

theorem get_delete (m : JsMap κ ν) (k k₂ : κ) :
    (m.delete k).get k₂ = if k₂ = k then none else m.get k₂ :=
  lookup_filterKey k k₂ m.entries

@[simp] theorem get_delete_self (m : JsMap κ ν) (k : κ) : (m.delete k).get k = none := by
  rw [get_delete, if_pos rfl]

theorem lookup_eq_some_iff {k : κ} {v : ν} {l : List (κ × ν)} (h : (l.map Prod.fst).Nodup) :
    lookup k l = some v ↔ (k, v) ∈ l := by
  induction l with
  | nil => simp [lookup]
  | cons p rest ih =>
    obtain ⟨k', v'⟩ := p
    rw [List.map_cons, List.nodup_cons] at h
    by_cases hk : k' = k
    · subst hk
      have hnot : (k', v) ∉ rest := fun hm => h.1 (List.mem_map.mpr ⟨_, hm, rfl⟩)
      simp [lookup, hnot, eq_comm]
    · simp [lookup, hk, Ne.symm hk, ih h.2]

theorem mem_entries_iff_get (m : JsMap κ ν) (k : κ) (v : ν) :
    (k, v) ∈ m.entries ↔ m.get k = some v :=
  (lookup_eq_some_iff m.nodup).symm

theorem mem_keys_iff (m : JsMap κ ν) (k : κ) : k ∈ m.keys ↔ ∃ v, m.get k = some v := by
  simp [keys, ← mem_entries_iff_get]

theorem has_eq_true_iff (m : JsMap κ ν) (k : κ) : m.has k = true ↔ k ∈ m.keys := by
  rw [mem_keys_iff, has, Option.isSome_iff_exists]

/-! ### What `set` does to the entries -/

theorem setEntries_of_notMem {k : κ} {l : List (κ × ν)} (h : k ∉ l.map Prod.fst) (v : ν) :
    setEntries k v l = l ++ [(k, v)] := by
  induction l with
  | nil => rfl
  | cons p rest ih =>
    obtain ⟨k', v'⟩ := p
    simp only [List.map_cons, List.mem_cons, not_or] at h
    simp [setEntries, Ne.symm h.1, ih h.2]

theorem setEntries_of_mem {k : κ} {l : List (κ × ν)} (hnodup : (l.map Prod.fst).Nodup)
    (h : k ∈ l.map Prod.fst) (v : ν) :
    setEntries k v l = l.map fun p => if p.1 = k then (k, v) else p := by
  induction l with
  | nil => cases h
  | cons p rest ih =>
    obtain ⟨k', v'⟩ := p
    rw [List.map_cons, List.nodup_cons] at hnodup
    by_cases hk : k' = k
    · subst hk
      -- the key stands nowhere else
      have hrest : rest.map (fun p => if p.1 = k' then (k', v) else p) = rest := by
        conv_rhs => rw [← List.map_id rest]
        refine List.map_congr_left fun p hp => if_neg fun hpk => hnodup.1 ?_
        exact List.mem_map.2 ⟨p, hp, hpk⟩
      simp [setEntries, hrest]
    · have hmem : k ∈ rest.map Prod.fst := by simpa [Ne.symm hk] using h
      simp [setEntries, hk, ih hnodup.2 hmem]

theorem entries_set_of_not_has {m : JsMap κ ν} {k : κ} (h : m.has k = false) (v : ν) :
    (m.set k v).entries = m.entries ++ [(k, v)] := by
  refine setEntries_of_notMem (fun hmem => ?_) v
  rw [(m.has_eq_true_iff k).2 hmem] at h
  exact Bool.noConfusion h

theorem entries_set_of_get {m : JsMap κ ν} {k : κ} {old : ν} (h : m.get k = some old) (v : ν) :
    (m.set k v).entries = m.entries.map fun p => if p.1 = k then (k, v) else p :=
  setEntries_of_mem m.nodup ((m.mem_keys_iff k).2 ⟨old, h⟩) v

/-! ### Maps built from pairs -/

theorem entries_foldl_set (l : List (κ × ν)) (m : JsMap κ ν)
    (h : ((m.entries ++ l).map Prod.fst).Nodup) :
    (l.foldl (fun m p => m.set p.1 p.2) m).entries = m.entries ++ l := by
  induction l generalizing m with
  | nil => simp
  | cons p rest ih =>
    obtain ⟨k, v⟩ := p
    have hfresh : k ∉ m.entries.map Prod.fst := by
      rw [List.map_append, List.nodup_append] at h
      exact fun hmem => h.2.2 k hmem k (by simp) rfl
    have hset : (m.set k v).entries = m.entries ++ [(k, v)] := setEntries_of_notMem hfresh v
    have happend : (m.set k v).entries ++ rest = m.entries ++ (k, v) :: rest := by
      rw [hset, List.append_assoc, List.singleton_append]
    rw [List.foldl_cons, ih (m.set k v) (by rw [happend]; exact h), happend]

/-- Pairs with distinct keys stay as they are. -/
theorem ofList_entries (m : JsMap κ ν) : ofList m.entries = m :=
  JsMap.ext (entries_foldl_set m.entries empty m.nodup)

/-- A key that was set last among the pairs, or not among them, has the value it had. -/
theorem get_foldl_set_of_notMem {k : κ} {l : List (κ × ν)} (h : k ∉ l.map Prod.fst)
    (m : JsMap κ ν) : (l.foldl (fun m p => m.set p.1 p.2) m).get k = m.get k := by
  induction l generalizing m with
  | nil => rfl
  | cons p rest ih =>
    rw [List.map_cons, List.mem_cons, not_or] at h
    rw [List.foldl_cons, ih h.2, get_set_of_ne m h.1]

/-- A value comes from the pairs or was there before. -/
theorem mem_of_get_foldl_set {k : κ} {v : ν} {l : List (κ × ν)} {m : JsMap κ ν}
    (h : (l.foldl (fun m p => m.set p.1 p.2) m).get k = some v) :
    (k, v) ∈ l ∨ m.get k = some v := by
  induction l generalizing m with
  | nil => exact .inr h
  | cons p rest ih =>
    rcases ih h with hmem | hget
    · exact .inl (List.mem_cons_of_mem _ hmem)
    · by_cases hkey : k = p.1
      · rw [hkey, get_set_self] at hget
        cases hget
        rw [hkey]
        exact .inl List.mem_cons_self
      · rw [get_set_of_ne m hkey] at hget
        exact .inr hget

/-- Every key of the pairs has the value of one of them. -/
theorem exists_get_foldl_set {k : κ} {v : ν} {l : List (κ × ν)} (h : (k, v) ∈ l)
    (m : JsMap κ ν) :
    ∃ v', (k, v') ∈ l ∧ (l.foldl (fun m p => m.set p.1 p.2) m).get k = some v' := by
  induction l generalizing m v with
  | nil => exact absurd h List.not_mem_nil
  | cons p rest ih =>
    by_cases hrest : k ∈ rest.map Prod.fst
    · obtain ⟨p', hmem, hkey⟩ := List.mem_map.1 hrest
      have hmem' : (k, p'.2) ∈ rest := hkey ▸ hmem
      obtain ⟨v', hv', hget⟩ := ih hmem' (m.set p.1 p.2)
      exact ⟨v', List.mem_cons_of_mem _ hv', hget⟩
    · rcases List.mem_cons.1 h with rfl | hmem
      · refine ⟨v, List.mem_cons_self, ?_⟩
        rw [List.foldl_cons, get_foldl_set_of_notMem hrest, get_set_self]
      · exact absurd (List.mem_map.2 ⟨_, hmem, rfl⟩) hrest

theorem get_foldl_set_of_nodup {k : κ} {v : ν} {l : List (κ × ν)} (hl : (l.map Prod.fst).Nodup)
    (h : (k, v) ∈ l) (m : JsMap κ ν) :
    (l.foldl (fun m p => m.set p.1 p.2) m).get k = some v := by
  obtain ⟨v', hv', hget⟩ := exists_get_foldl_set h m
  have hsame : (k, v) = (k, v') := List.inj_on_of_nodup_map hl h hv' rfl
  exact hget.trans (congrArg some (congrArg Prod.snd hsame).symm)

theorem mem_values_iff (m : JsMap κ ν) (v : ν) : v ∈ m.values ↔ ∃ k, m.get k = some v := by
  simp [values, ← mem_entries_iff_get]

/-! ### Entrywise relations

`Rel R m m'`: the maps have the same keys, and the values under each are related. -/

def Rel (R : ν → ν → Prop) (m m' : JsMap κ ν) : Prop := ∀ k, Option.Rel R (m.get k) (m'.get k)

theorem Rel.refl {R : ν → ν → Prop} (hR : ∀ v, R v v) (m : JsMap κ ν) : Rel R m m := by
  intro k
  cases m.get k with
  | none => exact .none
  | some v => exact .some (hR v)

theorem Rel.trans {R : ν → ν → Prop} (hR : ∀ a b c, R a b → R b c → R a c) {m m' m'' : JsMap κ ν}
    (h : Rel R m m') (h' : Rel R m' m'') : Rel R m m'' := by
  intro k
  have hk := h k
  have hk' := h' k
  generalize m.get k = x at hk
  generalize m'.get k = y at hk hk'
  generalize m''.get k = z at hk'
  cases hk with
  | none =>
    cases hk'
    exact .none
  | some hab =>
    cases hk' with
    | some hbc => exact .some (hR _ _ _ hab hbc)

theorem Rel.mono {R S : ν → ν → Prop} (hRS : ∀ a b, R a b → S a b) {m m' : JsMap κ ν}
    (h : Rel R m m') : Rel S m m' := by
  intro k
  have hk := h k
  generalize m.get k = x at hk
  generalize m'.get k = y at hk
  cases hk with
  | none => exact .none
  | some hab => exact .some (hRS _ _ hab)

theorem Rel.get_some {R : ν → ν → Prop} {m m' : JsMap κ ν} (h : Rel R m m') {k : κ} {v : ν}
    (hv : m.get k = some v) : ∃ v', m'.get k = some v' ∧ R v v' := by
  have hk := h k
  rw [hv] at hk
  generalize m'.get k = y at hk
  cases hk with
  | some hR => exact ⟨_, rfl, hR⟩

theorem Rel.get_some_right {R : ν → ν → Prop} {m m' : JsMap κ ν} (h : Rel R m m') {k : κ} {v' : ν}
    (hv' : m'.get k = some v') : ∃ v, m.get k = some v ∧ R v v' := by
  have hk := h k
  rw [hv'] at hk
  generalize m.get k = x at hk
  cases hk with
  | some hR => exact ⟨_, rfl, hR⟩

/-- Replacing one value by a related one. -/
theorem rel_set {R : ν → ν → Prop} (hR : ∀ v, R v v) {m : JsMap κ ν} {k : κ} {v v' : ν}
    (hv : m.get k = some v) (hvv' : R v v') : Rel R m (m.set k v') := by
  intro k'
  rw [get_set]
  split
  · rename_i hk
    rw [hk, hv]
    exact .some hvv'
  · exact Rel.refl hR m k'

/-- Deleting keys one after another. -/
theorem get_foldl_delete (keys : List κ) (m : JsMap κ ν) (k : κ) :
    (keys.foldl (fun m key => m.delete key) m).get k = if k ∈ keys then none else m.get k := by
  induction keys generalizing m with
  | nil => simp
  | cons key rest ih =>
    rw [List.foldl_cons, ih, get_delete]
    by_cases hk : k = key <;> simp [hk]

end Lookup

end JsMap

/-! ## Objects used as records -/

/-- `record[key] = value` on a plain object, for a primitive `value`. Every object
inherits the `__proto__` accessor, and its setter ignores primitives: assigning to
that one key creates no property. -/
def assignProperty {ν : Type} (record : JsMap String ν) (key : String) (value : ν) :
    JsMap String ν :=
  if key = "__proto__" then record else record.set key value

theorem get_assignProperty {ν : Type} (record : JsMap String ν) (key k : String) (value : ν) :
    (assignProperty record key value).get k =
      if k = key ∧ key ≠ "__proto__" then some value else record.get k := by
  unfold assignProperty
  by_cases hp : key = "__proto__"
  · simp [hp]
  · simp [hp, JsMap.get_set]

end Psfn.Lib
