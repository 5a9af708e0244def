import Mathlib.Data.List.DropRight

/-!
# Replacing the matches of a pattern

A global `String.prototype.replace` on a list of code units. A pattern is the length of its match
at the start of a text; its matches are never empty.

* `replaceAll`, `matchAll` — the text with its matches rewritten, and the matches themselves;
* `replaceAll_eq_self` — without a match, nothing is replaced;
* `replaceAll_eq_scan` — a pattern that opens at one unit and runs to the first closing unit is
  replaced by a scan with one bit of state;
* `scan_squeeze`, `scan_dropWhile`, `scan_rdropWhile` — such a scan commutes with squeezing runs
  of white space and with trimming.
-/

namespace Psfn.Lib.Replace

variable {α : Type}

/-! ## Global replacement -/

/-- The first argument counts the units that the last match still covers. -/
def replaceFrom (find : List α → Option Nat) (rewrite : List α → List α) :
    Nat → List α → List α
  | _, [] => []
  | covered + 1, _ :: t => replaceFrom find rewrite covered t
  | 0, u :: t =>
    (find (u :: t)).elim (u :: replaceFrom find rewrite 0 t) fun n =>
      rewrite ((u :: t).take n) ++ replaceFrom find rewrite (n - 1) t

/-- `text.replace(pattern, rewrite)` for a global pattern. -/
def replaceAll (find : List α → Option Nat) (rewrite : List α → List α) (t : List α) : List α :=
  replaceFrom find rewrite 0 t

/-- Some part of the text matches the pattern. -/
def contains (find : List α → Option Nat) : List α → Bool
  | [] => false
  | u :: t => (find (u :: t)).isSome || contains find t

/-- The first argument counts the units that the last match still covers. -/
def matchesFrom (find : List α → Option Nat) : Nat → List α → List (List α)
  | _, [] => []
  | covered + 1, _ :: t => matchesFrom find covered t
  | 0, u :: t =>
    (find (u :: t)).elim (matchesFrom find 0 t) fun n =>
      (u :: t).take n :: matchesFrom find (n - 1) t

/-- `text.match(pattern)` for a global pattern. -/
def matchAll (find : List α → Option Nat) (t : List α) : List (List α) := matchesFrom find 0 t

theorem matchesFrom_eq_drop (find : List α → Option Nat) (covered : Nat) (t : List α) :
    matchesFrom find covered t = matchAll find (t.drop covered) := by
  induction t generalizing covered with
  | nil =>
    rw [List.drop_nil]
    cases covered <;> rfl
  | cons u t ih =>
    cases covered with
    | zero => rfl
    | succ covered => exact ih covered

theorem replaceFrom_eq_drop (find : List α → Option Nat) (rewrite : List α → List α)
    (covered : Nat) (t : List α) :
    replaceFrom find rewrite covered t = replaceAll find rewrite (t.drop covered) := by
  induction t generalizing covered with
  | nil =>
    rw [List.drop_nil]
    cases covered <;> rfl
  | cons u t ih =>
    cases covered with
    | zero => rfl
    | succ covered => exact ih covered

theorem replaceAll_eq_self {find : List α → Option Nat} (rewrite : List α → List α) {t : List α}
    (h : contains find t = false) : replaceAll find rewrite t = t := by
  induction t with
  | nil => rfl
  | cons u t ih =>
    rw [contains, Bool.or_eq_false_iff, Option.isSome_eq_false_iff, Option.isNone_iff_eq_none] at h
    show replaceFrom find rewrite 0 (u :: t) = u :: t
    rw [replaceFrom, h.1]
    exact congrArg (u :: ·) (ih h.2)

/-! ## Delimiters -/

/-- A pattern that opens at one unit, in view of what follows it, and runs to the first closing
unit, or to the end of the text. Both delimiters are swapped. -/
structure Delimiters (α : Type) where
  opens   : α → List α → Bool
  closes  : α → Bool
  onOpen  : α → α
  onClose : α → α

namespace Delimiters

variable (d : Delimiters α)

/-- The units up to the closing one. -/
def spanLength : List α → Nat
  | [] => 0
  | u :: t => if d.closes u then 1 else spanLength t + 1

def closeUnit (u : α) : α := if d.closes u then d.onClose u else u

/-- The bit is whether a span is open. -/
def scan : Bool → List α → List α
  | _, [] => []
  | false, u :: t => if d.opens u t then d.onOpen u :: scan true t else u :: scan false t
  | true, u :: t => if d.closes u then d.onClose u :: scan false t else u :: scan true t

theorem scan_true (t : List α) :
    d.scan true t =
      (t.take (d.spanLength t)).map d.closeUnit ++ d.scan false (t.drop (d.spanLength t)) := by
  induction t with
  | nil => rfl
  | cons u t ih =>
    rw [scan, spanLength]
    by_cases h : d.closes u = true
    · simp [h, closeUnit]
    · simp [h, closeUnit, ih]

theorem length_scan (m : Bool) (t : List α) : (d.scan m t).length = t.length := by
  induction t generalizing m with
  | nil => cases m <;> rfl
  | cons u t ih =>
    cases m <;> rw [scan] <;> split <;> rw [List.length_cons, List.length_cons, ih]

theorem replaceAll_eq_scan {find : List α → Option Nat} {rewrite : List α → List α}
    (hfind : ∀ u t, find (u :: t) = if d.opens u t then some (d.spanLength t + 1) else none)
    (hrewrite : ∀ u t, d.opens u t = true →
      rewrite (u :: t.take (d.spanLength t)) =
        d.onOpen u :: (t.take (d.spanLength t)).map d.closeUnit) (t : List α) :
    replaceAll find rewrite t = d.scan false t := by
  -- by the length, as the text goes on after the whole match
  induction hn : t.length using Nat.strongRecOn generalizing t with
  | ind n ih =>
    cases t with
    | nil => rfl
    | cons u t =>
      have hlength : t.length < n := by
        rw [← hn]
        exact Nat.lt_succ_self _
      show replaceFrom find rewrite 0 (u :: t) = _
      rw [replaceFrom, hfind, scan]
      by_cases h : d.opens u t = true
      · rw [if_pos h, if_pos h, scan_true, Option.elim_some, List.take_succ_cons, hrewrite u t h,
          Nat.add_sub_cancel, replaceFrom_eq_drop, List.cons_append]
        have hdrop : (t.drop (d.spanLength t)).length < n := by
          rw [List.length_drop]
          omega
        rw [ih _ hdrop _ rfl]
      · rw [if_neg h, if_neg h, Option.elim_none]
        exact congrArg (u :: ·) (ih _ hlength t rfl)

/-- A span opens somewhere in the text. -/
def found : List α → Bool
  | [] => false
  | u :: t => d.opens u t || found t

theorem contains_eq_found {find : List α → Option Nat}
    (hfind : ∀ u t, find (u :: t) = if d.opens u t then some (d.spanLength t + 1) else none)
    (t : List α) : contains find t = d.found t := by
  induction t with
  | nil => rfl
  | cons u t ih =>
    rw [contains, found, hfind, ih]
    cases d.opens u t <;> rfl

theorem found_map {f : α → α} (hopens : ∀ u t, d.opens (f u) (t.map f) = d.opens u t)
    (t : List α) : d.found (t.map f) = d.found t := by
  induction t with
  | nil => rfl
  | cons u t ih => rw [List.map_cons, found, found, hopens, ih]

/-- Units at the end that open nothing and that no opening looks at. -/
theorem found_append {x : List α} (hopens : ∀ u t, d.opens u (t ++ x) = d.opens u t)
    (hx : d.found x = false) (t : List α) : d.found (t ++ x) = d.found t := by
  induction t with
  | nil => exact hx
  | cons u t ih => rw [List.cons_append, found, found, hopens, ih]

/-- A map of the units that the delimiters do not see. -/
theorem scan_map {f : α → α} (hopens : ∀ u t, d.opens (f u) (t.map f) = d.opens u t)
    (hcloses : ∀ u, d.closes (f u) = d.closes u)
    (hopen : ∀ u t, d.opens u t = true → d.onOpen (f u) = f (d.onOpen u))
    (hclose : ∀ u, d.closes u = true → d.onClose (f u) = f (d.onClose u))
    (m : Bool) (t : List α) : d.scan m (t.map f) = (d.scan m t).map f := by
  induction t generalizing m with
  | nil => cases m <;> rfl
  | cons u t ih =>
    cases m with
    | false =>
      rw [List.map_cons, scan, scan, hopens]
      by_cases h : d.opens u t = true
      · rw [if_pos h, if_pos h, List.map_cons, ih, hopen u t h]
      · rw [if_neg h, if_neg h, List.map_cons, ih]
    | true =>
      rw [List.map_cons, scan, scan, hcloses]
      by_cases h : d.closes u = true
      · rw [if_pos h, if_pos h, List.map_cons, ih, hclose u h]
      · rw [if_neg h, if_neg h, List.map_cons, ih]

/-- A map that undoes the swaps. -/
theorem map_scan {f : α → α} (hopen : ∀ u t, d.opens u t = true → f (d.onOpen u) = f u)
    (hclose : ∀ u, d.closes u = true → f (d.onClose u) = f u) (m : Bool) (t : List α) :
    (d.scan m t).map f = t.map f := by
  induction t generalizing m with
  | nil => cases m <;> rfl
  | cons u t ih =>
    cases m with
    | false =>
      rw [scan]
      by_cases h : d.opens u t = true
      · rw [if_pos h, List.map_cons, List.map_cons, ih, hopen u t h]
      · rw [if_neg h, List.map_cons, List.map_cons, ih]
    | true =>
      rw [scan]
      by_cases h : d.closes u = true
      · rw [if_pos h, List.map_cons, List.map_cons, ih, hclose u h]
      · rw [if_neg h, List.map_cons, List.map_cons, ih]

theorem mem_scan {m : Bool} {t : List α} {v : α} (h : v ∈ d.scan m t) :
    v ∈ t ∨ (∃ u r, d.opens u r = true ∧ v = d.onOpen u) ∨
      (∃ u, d.closes u = true ∧ v = d.onClose u) := by
  induction t generalizing m with
  | nil => cases m <;> cases h
  | cons u t ih =>
    have hrest : ∀ {m'}, v ∈ d.scan m' t → v ∈ u :: t ∨
        (∃ u r, d.opens u r = true ∧ v = d.onOpen u) ∨
          (∃ u, d.closes u = true ∧ v = d.onClose u) :=
      fun hv => (ih hv).imp_left (List.mem_cons_of_mem u)
    cases m with
    | false =>
      rw [scan] at h
      by_cases hopens : d.opens u t = true
      · rw [if_pos hopens] at h
        rcases List.mem_cons.1 h with hv | hv
        · exact .inr (.inl ⟨u, t, hopens, hv⟩)
        · exact hrest hv
      · rw [if_neg hopens] at h
        rcases List.mem_cons.1 h with hv | hv
        · exact .inl (hv ▸ List.mem_cons_self)
        · exact hrest hv
    | true =>
      rw [scan] at h
      by_cases hcloses : d.closes u = true
      · rw [if_pos hcloses] at h
        rcases List.mem_cons.1 h with hv | hv
        · exact .inr (.inr ⟨u, hcloses, hv⟩)
        · exact hrest hv
      · rw [if_neg hcloses] at h
        rcases List.mem_cons.1 h with hv | hv
        · exact .inl (hv ▸ List.mem_cons_self)
        · exact hrest hv

end Delimiters

/-! ## Squeezing and trimming -/

section Squeeze

variable (p : α → Bool) (c : α)

/-- Every run of units in the class becomes one `c`; the bit is whether the last unit was in it. -/
def squeeze : Bool → List α → List α
  | _, [] => []
  | after, u :: t =>
    if p u then (if after then squeeze true t else c :: squeeze true t) else u :: squeeze false t

variable {p c}

theorem squeeze_cons_pos {u : α} (h : p u = true) (t : List α) :
    squeeze p c false (u :: t) = c :: squeeze p c true t := by
  rw [squeeze, if_pos h, if_neg Bool.false_ne_true]

theorem squeeze_true_cons_pos {u : α} (h : p u = true) (t : List α) :
    squeeze p c true (u :: t) = squeeze p c true t := by
  rw [squeeze, if_pos h, if_pos rfl]

theorem squeeze_cons_neg {u : α} (h : ¬ p u = true) (after : Bool) (t : List α) :
    squeeze p c after (u :: t) = u :: squeeze p c false t := by
  rw [squeeze, if_neg h]

theorem length_squeeze_le (after : Bool) (t : List α) :
    (squeeze p c after t).length ≤ t.length := by
  induction t generalizing after with
  | nil => exact Nat.zero_le _
  | cons u t ih =>
    by_cases h : p u = true
    · cases after with
      | false =>
        rw [squeeze_cons_pos h]
        exact Nat.succ_le_succ (ih true)
      | true =>
        rw [squeeze_true_cons_pos h]
        exact Nat.le_succ_of_le (ih true)
    · rw [squeeze_cons_neg h]
      exact Nat.succ_le_succ (ih false)

theorem mem_squeeze {after : Bool} {t : List α} {u : α} (h : u ∈ squeeze p c after t) :
    u ∈ t ∨ u = c := by
  induction t generalizing after with
  | nil => cases h
  | cons v t ih =>
    by_cases hv : p v = true
    · cases after with
      | false =>
        rw [squeeze_cons_pos hv] at h
        rcases List.mem_cons.1 h with hu | hu
        · exact .inr hu
        · exact (ih hu).imp_left (List.mem_cons_of_mem v)
      | true =>
        rw [squeeze_true_cons_pos hv] at h
        exact (ih h).imp_left (List.mem_cons_of_mem v)
    · rw [squeeze_cons_neg hv] at h
      rcases List.mem_cons.1 h with hu | hu
      · exact .inl (hu ▸ List.mem_cons_self)
      · exact (ih hu).imp_left (List.mem_cons_of_mem v)

theorem squeeze_squeeze (hc : p c = true) (after : Bool) (t : List α) :
    squeeze p c after (squeeze p c after t) = squeeze p c after t := by
  induction t generalizing after with
  | nil => rfl
  | cons u t ih =>
    by_cases h : p u = true
    · cases after with
      | false => rw [squeeze_cons_pos h, squeeze_cons_pos hc, ih]
      | true => rw [squeeze_true_cons_pos h, ih]
    · rw [squeeze_cons_neg h, squeeze_cons_neg h, ih]

theorem squeeze_take {after : Bool} {t : List α} (h : squeeze p c after t = t) (k : Nat) :
    squeeze p c after (t.take k) = t.take k := by
  induction t generalizing after k with
  | nil =>
    rw [List.take_nil]
    rfl
  | cons u t ih =>
    cases k with
    | zero => rfl
    | succ k =>
      rw [List.take_succ_cons]
      by_cases hu : p u = true
      · cases after with
        | false =>
          rw [squeeze_cons_pos hu] at h ⊢
          injection h with hcu ht
          rw [ih ht, hcu]
        | true =>
          -- a second unit of the class would have been dropped
          rw [squeeze_true_cons_pos hu] at h
          have hlength := length_squeeze_le (p := p) (c := c) true t
          rw [h, List.length_cons] at hlength
          omega
      · rw [squeeze_cons_neg hu] at h ⊢
        injection h with _ ht
        rw [ih ht]

theorem squeeze_concat {e : α} (he : ¬ p e = true) (after : Bool) (t : List α) :
    squeeze p c after (t ++ [e]) = squeeze p c after t ++ [e] := by
  induction t generalizing after with
  | nil =>
    rw [List.nil_append, squeeze_cons_neg he]
    rfl
  | cons u t ih =>
    rw [List.cons_append]
    by_cases h : p u = true
    · cases after with
      | false => rw [squeeze_cons_pos h, squeeze_cons_pos h, ih, List.cons_append]
      | true => rw [squeeze_true_cons_pos h, squeeze_true_cons_pos h, ih]
    · rw [squeeze_cons_neg h, squeeze_cons_neg h, ih, List.cons_append]

theorem rdropWhile_cons (u : α) (t : List α) :
    (u :: t).rdropWhile p =
      if p u && (t.rdropWhile p).isEmpty then [] else u :: t.rdropWhile p := by
  rw [List.rdropWhile, List.rdropWhile, List.reverse_cons, List.dropWhile_append,
    List.isEmpty_reverse]
  by_cases hempty : (t.reverse.dropWhile p).isEmpty = true
  · rw [if_pos hempty, hempty, Bool.and_true]
    by_cases h : p u = true
    · rw [if_pos h, List.dropWhile_cons_of_pos h]
      rfl
    · rw [if_neg h, List.dropWhile_cons_of_neg h, List.isEmpty_iff.1 hempty]
      rfl
  · rw [if_neg hempty, List.reverse_append, Bool.eq_false_iff.2 hempty, Bool.and_false,
      if_neg Bool.false_ne_true]
    rfl

theorem dropWhile_squeeze (hc : p c = true) (after : Bool) (t : List α) :
    (squeeze p c after t).dropWhile p = squeeze p c false (t.dropWhile p) := by
  induction t generalizing after with
  | nil => rfl
  | cons u t ih =>
    by_cases h : p u = true
    · rw [List.dropWhile_cons_of_pos h, ← ih true]
      cases after with
      | false => rw [squeeze_cons_pos h, List.dropWhile_cons_of_pos hc]
      | true => rw [squeeze_true_cons_pos h]
    · rw [squeeze_cons_neg h, List.dropWhile_cons_of_neg h, List.dropWhile_cons_of_neg h,
        squeeze_cons_neg h]

theorem prefix_eq_self {t x : List α} (h : t.dropWhile p = t) (hx : x <+: t) :
    x.dropWhile p = x := by
  obtain ⟨y, rfl⟩ := hx
  cases x with
  | nil => rfl
  | cons u x =>
    by_cases hu : p u = true
    · have hlength := List.length_dropWhile_le p (x ++ y)
      rw [List.cons_append, List.dropWhile_cons_of_pos hu] at h
      rw [h, List.length_cons] at hlength
      omega
    · rw [List.dropWhile_cons_of_neg hu]

/-- `trim` of the squeezed text. -/
theorem squeeze_trimmed (hc : p c = true) (t : List α) :
    squeeze p c false (((squeeze p c false t).dropWhile p).rdropWhile p) =
      ((squeeze p c false t).dropWhile p).rdropWhile p := by
  rw [dropWhile_squeeze hc, List.prefix_iff_eq_take.1 (List.rdropWhile_prefix p _)]
  exact squeeze_take (squeeze_squeeze hc false _) _

end Squeeze

/-! ## A scan commutes with squeezing and trimming -/

namespace Delimiters

variable {d : Delimiters α} {p : α → Bool} {c : α}

/-- No delimiter is in the class, before or after its swap. -/
structure Apart (d : Delimiters α) (p : α → Bool) : Prop where
  opens  : ∀ u t, p u = true → d.opens u t = false
  closes : ∀ u, p u = true → d.closes u = false
  onOpen : ∀ u t, d.opens u t = true → p (d.onOpen u) = false
  onClose : ∀ u, d.closes u = true → p (d.onClose u) = false

theorem Apart.scan_cons (h : Apart d p) {u : α} (hu : p u = true) (m : Bool) (t : List α) :
    d.scan m (u :: t) = u :: d.scan m t := by
  cases m with
  | false => rw [scan, h.opens u t hu, if_neg Bool.false_ne_true]
  | true => rw [scan, h.closes u hu, if_neg Bool.false_ne_true]

/-- What a unit outside the class becomes is outside it as well. -/
theorem Apart.scan_cons_of_neg (h : Apart d p) {u : α} (hu : ¬ p u = true) (m : Bool)
    (t : List α) : ∃ v m', ¬ p v = true ∧ d.scan m (u :: t) = v :: d.scan m' t ∧
      ∀ t', d.opens u t' = d.opens u t → d.scan m (u :: t') = v :: d.scan m' t' := by
  cases m with
  | false =>
    by_cases hopens : d.opens u t = true
    · refine ⟨d.onOpen u, true, ?_, ?_, fun t' ht' => ?_⟩
      · rw [h.onOpen u t hopens]
        exact Bool.false_ne_true
      · rw [scan, if_pos hopens]
      · rw [scan, ht', if_pos hopens]
    · refine ⟨u, false, hu, ?_, fun t' ht' => ?_⟩
      · rw [scan, if_neg hopens]
      · rw [scan, ht', if_neg hopens]
  | true =>
    by_cases hcloses : d.closes u = true
    · refine ⟨d.onClose u, false, ?_, ?_, fun t' _ => ?_⟩
      · rw [h.onClose u hcloses]
        exact Bool.false_ne_true
      · rw [scan, if_pos hcloses]
      · rw [scan, if_pos hcloses]
    · refine ⟨u, true, hu, ?_, fun t' _ => ?_⟩
      · rw [scan, if_neg hcloses]
      · rw [scan, if_neg hcloses]

theorem Apart.scan_squeeze (h : Apart d p) (hc : p c = true)
    (hopens : ∀ u t, ¬ p u = true → d.opens u (squeeze p c false t) = d.opens u t)
    (m after : Bool) (t : List α) :
    d.scan m (squeeze p c after t) = squeeze p c after (d.scan m t) := by
  induction t generalizing m after with
  | nil => cases m <;> rfl
  | cons u t ih =>
    by_cases hu : p u = true
    · rw [h.scan_cons hu]
      cases after with
      | false => rw [squeeze_cons_pos hu, squeeze_cons_pos hu, h.scan_cons hc, ih]
      | true => rw [squeeze_true_cons_pos hu, squeeze_true_cons_pos hu, ih]
    · obtain ⟨v, m', hv, hscan, hother⟩ := h.scan_cons_of_neg hu m t
      rw [squeeze_cons_neg hu, hscan, squeeze_cons_neg hv, hother _ (hopens u t hu), ih]

theorem Apart.scan_dropWhile (h : Apart d p) (m : Bool) (t : List α) :
    d.scan m (t.dropWhile p) = (d.scan m t).dropWhile p := by
  induction t with
  | nil => cases m <;> rfl
  | cons u t ih =>
    by_cases hu : p u = true
    · rw [h.scan_cons hu, List.dropWhile_cons_of_pos hu, List.dropWhile_cons_of_pos hu, ih]
    · obtain ⟨v, m', hv, hscan, -⟩ := h.scan_cons_of_neg hu m t
      rw [List.dropWhile_cons_of_neg hu, hscan, List.dropWhile_cons_of_neg hv]

theorem Apart.scan_rdropWhile (h : Apart d p)
    (hopens : ∀ u t, ¬ p u = true → d.opens u (t.rdropWhile p) = d.opens u t)
    (m : Bool) (t : List α) :
    d.scan m (t.rdropWhile p) = (d.scan m t).rdropWhile p := by
  induction t generalizing m with
  | nil => cases m <;> rfl
  | cons u t ih =>
    rw [rdropWhile_cons]
    by_cases hu : p u = true
    · have hempty : (d.scan m (t.rdropWhile p)).isEmpty = (t.rdropWhile p).isEmpty := by
        rw [Bool.eq_iff_iff, List.isEmpty_iff_length_eq_zero, List.isEmpty_iff_length_eq_zero,
          length_scan]
      rw [h.scan_cons hu, rdropWhile_cons, ← ih, hempty]
      split
      · cases m <;> rfl
      · rw [h.scan_cons hu]
    · obtain ⟨v, m', hv, hscan, hother⟩ := h.scan_cons_of_neg hu m t
      rw [hscan, rdropWhile_cons, ← ih, Bool.eq_false_iff.2 hu, Bool.eq_false_iff.2 hv,
        Bool.false_and, Bool.false_and, if_neg Bool.false_ne_true, if_neg Bool.false_ne_true,
        hother _ (hopens u t hu)]

end Delimiters

end Psfn.Lib.Replace
