import Mathlib.Data.List.Nodup
import Mathlib.Data.List.Perm.Subperm

/-!
# Tables

A table is the list of its rows. `update` and `delete` are the two statements that change
rows where a condition holds; an insert appends. The lemmas say which rows there are
afterwards and that the keys stay distinct.

* `mem_update` — every row afterwards is a row before, changed if the condition held;
* `Keyed.update`, `Keyed.delete`, `Keyed.insert` — a key that is distinct on all rows
  stays so;
* `Keyed.unique`, `Keyed.find?_eq_some` — with a key, a row is found by it;
* `countP_update`, `countP_update_le`, `Keyed.countP_replace`, `Keyed.countP_update_succ`, `Keyed.countP_le` — how
  many rows have a property afterwards;
* `transaction_cases` — a transaction leaves everything as it was, or what its body made.
-/

namespace Psfn.Lib.Table

variable {α κ : Type}

/-- `UPDATE … SET set WHERE cond`. -/
def update (cond : α → Bool) (set : α → α) (rows : List α) : List α :=
  rows.map fun row => if cond row then set row else row

/-- `DELETE … WHERE cond`. -/
def delete (cond : α → Bool) (rows : List α) : List α :=
  rows.filter fun row => !cond row

theorem mem_update {cond : α → Bool} {set : α → α} {rows : List α} {row' : α} :
    row' ∈ update cond set rows ↔
      ∃ row ∈ rows, (cond row = true ∧ row' = set row) ∨ (cond row = false ∧ row' = row) := by
  rw [update, List.mem_map]
  refine exists_congr fun row => and_congr_right fun _ => ?_
  by_cases hcond : cond row = true
  · simp [hcond, eq_comm]
  · simp [hcond, eq_comm]

theorem mem_delete {cond : α → Bool} {rows : List α} {row : α} :
    row ∈ delete cond rows ↔ row ∈ rows ∧ cond row = false := by
  simp [delete, List.mem_filter]

/-- An update that changes no row is no update. -/
theorem update_eq_self {cond : α → Bool} {set : α → α} {rows : List α}
    (h : ∀ row ∈ rows, cond row = false) : update cond set rows = rows := by
  conv_rhs => rw [← List.map_id rows]
  exact List.map_congr_left fun row hrow => by simp [h row hrow]

theorem map_update {β : Type} {cond : α → Bool} {set : α → α} {f : α → β} {rows : List α}
    (h : ∀ row ∈ rows, cond row = true → f (set row) = f row) :
    (update cond set rows).map f = rows.map f := by
  rw [update, List.map_map]
  refine List.map_congr_left fun row hrow => ?_
  by_cases hcond : cond row = true
  · simp [hcond, h row hrow hcond]
  · simp [hcond]

/-! ## Keys -/

/-- No two rows have one key. -/
def Keyed (key : α → κ) (rows : List α) : Prop := (rows.map key).Nodup

theorem keyed_nil (key : α → κ) : Keyed key [] := List.nodup_nil

theorem Keyed.unique {key : α → κ} {rows : List α} (h : Keyed key rows) {row row' : α}
    (hrow : row ∈ rows) (hrow' : row' ∈ rows) (hkey : key row = key row') : row = row' :=
  List.inj_on_of_nodup_map h hrow hrow' hkey

theorem Keyed.find?_eq_some [DecidableEq κ] {key : α → κ} {rows : List α} (h : Keyed key rows)
    {row : α} (hrow : row ∈ rows) {k : κ} (hkey : key row = k) :
    rows.find? (fun other => key other = k) = some row := by
  rcases hfound : rows.find? (fun other => key other = k) with _ | found
  · exact absurd hkey (by simpa using List.find?_eq_none.1 hfound row hrow)
  · have hfoundKey := List.find?_some hfound
    rw [decide_eq_true_eq] at hfoundKey
    exact congrArg some (h.unique (List.mem_of_find?_eq_some hfound) hrow
      (hfoundKey.trans hkey.symm))

theorem Keyed.update {key : α → κ} {rows : List α} (h : Keyed key rows) {cond : α → Bool}
    {set : α → α} (hset : ∀ row, key (set row) = key row) : Keyed key (update cond set rows) := by
  rw [Keyed, map_update fun row _ _ => hset row]
  exact h

theorem Keyed.delete {key : α → κ} {rows : List α} (h : Keyed key rows) (cond : α → Bool) :
    Keyed key (delete cond rows) := h.sublist (List.filter_sublist.map key)

theorem Keyed.insert {key : α → κ} {rows : List α} (h : Keyed key rows) {row : α}
    (hnew : ∀ old ∈ rows, key old ≠ key row) : Keyed key (rows ++ [row]) := by
  rw [Keyed, List.map_append, List.nodup_append]
  refine ⟨h, by simp, ?_⟩
  intro k hk k' hk'
  obtain ⟨old, hold, rfl⟩ := List.mem_map.mp hk
  rw [List.map_singleton, List.mem_singleton] at hk'
  rw [hk']
  exact hnew old hold

/-! ## Counting -/

/-- Replacing the row of a key adds at most one to a count. -/
theorem Keyed.countP_replace [DecidableEq κ] {key : α → κ} {rows : List α} (h : Keyed key rows)
    (p : α → Bool) (new : α) :
    (Table.update (fun row => key row = key new) (fun _ => new) rows).countP p ≤
      rows.countP p + (if p new then 1 else 0) := by
  induction rows with
  | nil => exact Nat.zero_le _
  | cons row rest ih =>
    obtain ⟨hfresh, hrest⟩ := List.nodup_cons.mp h
    by_cases hkey : key row = key new
    · -- no other row has the key, so the rest stays
      have hsame : Table.update (fun row => key row = key new) (fun _ => new) rest = rest := by
        refine update_eq_self fun other hother => ?_
        have hne : key other ≠ key row := fun heq =>
          hfresh (heq ▸ List.mem_map_of_mem hother)
        simpa [← hkey] using hne
      have hhead : Table.update (fun row => key row = key new) (fun _ => new) (row :: rest) =
          new :: Table.update (fun row => key row = key new) (fun _ => new) rest := by
        simp [Table.update, hkey]
      rw [hhead, hsame, List.countP_cons, List.countP_cons]
      omega
    · have hhead : Table.update (fun row => key row = key new) (fun _ => new) (row :: rest) =
          row :: Table.update (fun row => key row = key new) (fun _ => new) rest := by
        simp [Table.update, hkey]
      have hcount := ih hrest
      rw [hhead, List.countP_cons, List.countP_cons]
      omega

/-- If every row with the property had it before, under its key, no more rows have it. -/
theorem Keyed.countP_le {key : α → κ} {rows rows' : List α} (h : Keyed key rows')
    {p : α → Bool}
    (hbefore : ∀ row' ∈ rows', p row' = true → ∃ row ∈ rows, key row = key row' ∧ p row = true) :
    rows'.countP p ≤ rows.countP p := by
  have hnodup : ((rows'.filter p).map key).Nodup := h.sublist (List.filter_sublist.map key)
  have hsubset : (rows'.filter p).map key ⊆ (rows.filter p).map key := by
    intro k hk
    obtain ⟨row', hmem, rfl⟩ := List.mem_map.mp hk
    obtain ⟨hrow', hp⟩ := List.mem_filter.mp hmem
    obtain ⟨row, hrow, hkey, hprow⟩ := hbefore row' hrow' hp
    exact List.mem_map.mpr ⟨row, List.mem_filter.mpr ⟨hrow, hprow⟩, hkey⟩
  have hlength := (hnodup.subperm hsubset).length_le
  rw [List.length_map, List.length_map] at hlength
  rw [List.countP_eq_length_filter, List.countP_eq_length_filter]
  exact hlength

/-- An update that keeps the property row by row keeps the count. -/
theorem countP_update {cond p : α → Bool} {set : α → α} {rows : List α}
    (h : ∀ row ∈ rows, cond row = true → p (set row) = p row) :
    (update cond set rows).countP p = rows.countP p := by
  rw [update, List.countP_map]
  refine List.countP_congr fun row hrow => ?_
  by_cases hcond : cond row = true
  · simp [hcond, h row hrow hcond]
  · simp [hcond]

/-- An update that gives no row the property does not add to the count. -/
theorem countP_update_le {cond p : α → Bool} {set : α → α} {rows : List α}
    (h : ∀ row ∈ rows, cond row = true → p (set row) = true → p row = true) :
    (update cond set rows).countP p ≤ rows.countP p := by
  rw [update, List.countP_map]
  refine List.countP_mono_left fun row hrow => ?_
  by_cases hcond : cond row = true
  · simpa [hcond] using h row hrow hcond
  · simp [hcond]

/-- An update of one row that gives it the property adds one. -/
theorem Keyed.countP_update_succ {key : α → κ} {rows : List α} (h : Keyed key rows)
    {cond p : α → Bool} {set : α → α} {row : α} (hrow : row ∈ rows)
    (hcond : ∀ other ∈ rows, cond other = true ↔ key other = key row)
    (hbefore : p row = false) (hafter : p (set row) = true) :
    (Table.update cond set rows).countP p = rows.countP p + 1 := by
  induction rows with
  | nil => exact absurd hrow List.not_mem_nil
  | cons head rest ih =>
    obtain ⟨hfresh, hrest⟩ := List.nodup_cons.mp h
    have hupdate : Table.update cond set (head :: rest) =
        (if cond head then set head else head) :: Table.update cond set rest := rfl
    rw [hupdate]
    rcases List.mem_cons.mp hrow with rfl | hmem
    · -- the row is the head, and no other has its key
      have hhead : cond row = true := (hcond row List.mem_cons_self).2 rfl
      have hsame : Table.update cond set rest = rest := by
        refine update_eq_self fun other hother => ?_
        rw [Bool.eq_false_iff]
        intro hother'
        have hkey := (hcond other (List.mem_cons_of_mem _ hother)).1 hother'
        exact hfresh (hkey ▸ List.mem_map_of_mem hother)
      rw [hsame, if_pos hhead, List.countP_cons_of_pos hafter,
        List.countP_cons_of_neg (by simp [hbefore])]
    · have hhead : ¬ cond head = true := by
        intro hcondHead
        have hkey := (hcond head List.mem_cons_self).1 hcondHead
        exact hfresh (hkey ▸ List.mem_map_of_mem hmem)
      have hcount := ih hrest hmem fun other hother => hcond other (List.mem_cons_of_mem _ hother)
      rw [if_neg hhead, List.countP_cons, List.countP_cons, hcount]
      omega

/-- With a key, a property that fixes it has at most one row. -/
theorem Keyed.countP_le_one {key : α → κ} {rows : List α} (h : Keyed key rows) {p : α → Bool}
    (hkey : ∀ row ∈ rows, ∀ row' ∈ rows, p row = true → p row' = true → key row = key row') :
    rows.countP p ≤ 1 := by
  rw [List.countP_eq_length_filter]
  have hnodup : ((rows.filter p).map key).Nodup := h.sublist (List.filter_sublist.map key)
  rcases hrows : rows.filter p with _ | ⟨a, _ | ⟨b, rest⟩⟩
  · exact Nat.zero_le _
  · exact Nat.le_refl _
  · rw [hrows, List.map_cons, List.map_cons, List.nodup_cons] at hnodup
    have ha : a ∈ rows.filter p := by simp [hrows]
    have hb : b ∈ rows.filter p := by simp [hrows]
    rw [List.mem_filter] at ha hb
    exact absurd (hkey a ha.1 b hb.1 ha.2 hb.2) fun heq =>
      hnodup.1 (heq ▸ List.mem_cons_self)

/-! ## Transactions -/

/-- `BEGIN … COMMIT`: what the body made, or nothing of it when it throws or a constraint
refuses a row. -/
def transaction {σ β : Type} (constraints : σ → Bool) (body : σ → Except String (σ × β)) (s : σ) :
    σ × Except String β :=
  match body s with
  | .ok (s', b) => if constraints s' then (s', .ok b) else (s, .error "constraint violation")
  | .error message => (s, .error message)

theorem transaction_cases {σ β : Type} (constraints : σ → Bool)
    (body : σ → Except String (σ × β)) (s : σ) :
    (∃ message, transaction constraints body s = (s, .error message)) ∨
      ∃ s' b, body s = .ok (s', b) ∧ constraints s' = true ∧
        transaction constraints body s = (s', .ok b) := by
  unfold transaction
  split
  · rename_i s' b hbody
    split
    · rename_i hconstraints
      exact .inr ⟨s', b, hbody, hconstraints, rfl⟩
    · exact .inl ⟨_, rfl⟩
  · exact .inl ⟨_, rfl⟩

end Psfn.Lib.Table
