import Psfn.Backups.Retention
import Psfn.Lib.Tiers

/-!
# The retention loops as tiers

`applyTieredRetention` collects the newest directory of each key in a map and goes through the
sorted keys. On directories whose keys do not decrease with their names, each loop is a tier.

* `recentKeys_toDir` — the loops visit the newest directory of each key, most recent first;
* `mem_takeUnprotected`, `mem_takeMonths`, `mem_takeRotating` — what a loop adds is what its tier
  claims;
* `keptBackupDirs_eq` — a run keeps what the tiers retain.
-/

namespace Psfn.Backups

open Psfn.Lib Psfn.Lib.Digits Psfn.Lib.Tiers

/-! ## The newest directory of each key -/

/-- Newest first, keys do not increase. -/
def Descending (key : Name → Name) (items : List Name) : Prop :=
  items.Pairwise fun d e => textLe (key e) (key d) = true

/-- Keys in the order of the loops. -/
theorem recentKeys_eq {map : JsMap Name Name} {keys : List Name} (hperm : map.keys.Perm keys)
    (hkeys : keys.Pairwise fun a b => textLe b a = true) : recentKeys map = keys := by
  have hsorted : (recentKeys map).Pairwise fun a b => textLe b a = true :=
    @List.pairwise_mergeSort Name (fun a b => textLe b a)
      (fun a b c hab hbc => textLe_trans hbc hab) (fun a b => textLe_total b a) _
  exact List.Perm.eq_of_pairwise (fun a b _ _ hab hba => textLe_antisymm hba hab) hsorted hkeys
    ((List.mergeSort_perm _ _).trans hperm)

theorem setEntries_last {k v w : Name} {l : List (Name × Name)} (h : k ∉ l.map Prod.fst) :
    JsMap.setEntries k v (l ++ [(k, w)]) = l ++ [(k, v)] := by
  induction l with
  | nil => simp [JsMap.setEntries]
  | cons p l ih =>
    rw [List.map_cons, List.mem_cons, not_or] at h
    obtain ⟨k', v'⟩ := p
    have hne : ¬ k' = k := fun heq => h.1 heq.symm
    rw [List.cons_append, JsMap.setEntries, if_neg hne, ih h.2, List.cons_append]

section Heads

variable {key : Name → Name} {items : List Name}

theorem toDir_reverse_cons (d : Name) :
    toDir key (d :: items).reverse = (toDir key items.reverse).set (key d) d := by
  rw [toDir, List.reverse_cons, List.foldl_append]
  rfl

theorem heads_none (d : Name) :
    heads key none (d :: items) = d :: heads key (some (key d)) items := by
  rw [heads, if_neg fun h => by cases h]

/-- A directory of a new key is the newest of its own. -/
theorem heads_other {k : Name} (h : ∀ d ∈ items, key d ≠ k) :
    heads key (some k) items = heads key none items := by
  cases items with
  | nil => rfl
  | cons d items =>
    have hne : some k ≠ some (key d) := fun heq =>
      h d List.mem_cons_self (Option.some_inj.1 heq).symm
    rw [heads_none, heads, if_neg hne]

theorem entries_toDir (h : Descending key items) :
    (toDir key items.reverse).entries =
      ((heads key none items).map fun d => (key d, d)).reverse := by
  induction items with
  | nil => rfl
  | cons d items ih =>
    obtain ⟨hd, hrest⟩ := List.pairwise_cons.1 h
    have hentries := ih hrest
    have hnodup := (toDir key items.reverse).nodup
    rw [toDir_reverse_cons, heads_none]
    show JsMap.setEntries (key d) d (toDir key items.reverse).entries = _
    rw [hentries] at hnodup ⊢
    by_cases hsame : ∃ e ∈ items, key e = key d
    · cases items with
      | nil =>
        obtain ⟨e, he, -⟩ := hsame
        cases he
      | cons e items =>
        -- the keys between two equal ones are equal
        have hkey : key e = key d := by
          obtain ⟨f, hf, hfd⟩ := hsame
          rcases List.mem_cons.1 hf with rfl | hf
          · exact hfd
          · have hle := (List.pairwise_cons.1 hrest).1 f hf
            rw [hfd] at hle
            exact textLe_antisymm (hd e List.mem_cons_self) hle
        have hnot : key d ∉ (((heads key (some (key e)) items).map fun d =>
            (key d, d)).reverse).map Prod.fst := by
          rw [heads_none, List.map_cons, List.reverse_cons, List.map_append,
            List.nodup_append] at hnodup
          rw [← hkey]
          intro hmem
          exact hnodup.2.2 _ hmem _ List.mem_cons_self rfl
        rw [heads_none, List.map_cons, List.reverse_cons, hkey, heads, if_pos (by rw [hkey]),
          List.map_cons, List.reverse_cons]
        rw [hkey] at hnot
        exact setEntries_last hnot
    · have hnew : ∀ e ∈ items, key e ≠ key d := fun e he heq => hsame ⟨e, he, heq⟩
      have hnot : key d ∉ (((heads key none items).map fun d => (key d, d)).reverse).map
          Prod.fst := by
        intro hmem
        rw [List.map_reverse, List.mem_reverse, List.map_map, List.mem_map] at hmem
        obtain ⟨e, he, heq⟩ := hmem
        exact hnew e ((heads_sublist key none items).subset he) heq
      rw [JsMap.setEntries_of_notMem hnot, heads_other hnew, List.map_cons, List.reverse_cons]

theorem nodup_map_heads (h : Descending key items) (last : Option Name)
    (hlast : ∀ k, last = some k → ∀ d ∈ items, textLe (key d) k = true) :
    ((heads key last items).map key).Nodup ∧
      ∀ k, last = some k → k ∉ (heads key last items).map key := by
  induction items generalizing last with
  | nil => exact ⟨List.nodup_nil, fun _ _ => List.not_mem_nil⟩
  | cons d items ih =>
    obtain ⟨hd, hrest⟩ := List.pairwise_cons.1 h
    rw [heads]
    by_cases hsame : last = some (key d)
    · rw [if_pos hsame]
      exact ih hrest last fun k hk e he => hlast k hk e (List.mem_cons_of_mem d he)
    · rw [if_neg hsame, List.map_cons]
      obtain ⟨hnodup, hnot⟩ := ih hrest (some (key d)) fun k hk e he => by
        rw [← Option.some_inj.1 hk]
        exact hd e he
      refine ⟨List.nodup_cons.2 ⟨hnot _ rfl, hnodup⟩, fun k hk hmem => ?_⟩
      rcases List.mem_cons.1 hmem with rfl | hmem
      · exact hsame hk
      · -- a later group of the key `k` would have `key d = k` in between
        obtain ⟨e, he, hek⟩ := List.mem_map.1 hmem
        have hle := hd e ((heads_sublist key _ items).subset he)
        rw [hek] at hle
        exact hsame (hk.trans (congrArg some
          (textLe_antisymm hle (hlast k hk d List.mem_cons_self))))

theorem recentKeys_toDir (h : Descending key items) :
    recentKeys (toDir key items.reverse) = (heads key none items).map key := by
  have hkeys : (toDir key items.reverse).keys = ((heads key none items).map key).reverse := by
    rw [JsMap.keys, entries_toDir h, List.map_reverse, List.map_map]
    rfl
  refine recentKeys_eq ?_ ?_
  · rw [hkeys]
    exact List.reverse_perm _
  · rw [List.pairwise_map]
    exact List.Pairwise.sublist (heads_sublist key none items) h

theorem get_toDir (h : Descending key items) {d : Name} (hd : d ∈ heads key none items) :
    (toDir key items.reverse).get (key d) = some d := by
  rw [← JsMap.mem_entries_iff_get, entries_toDir h, List.mem_reverse]
  exact List.mem_map.2 ⟨d, hd, rfl⟩

end Heads

/-! ## The loops -/

theorem claim_congr {full : Nat → Bool} {before before' : Name → Bool} {items : List Name}
    (h : ∀ d ∈ items, before d = before' d) (n : Nat) :
    claim full before n items = claim full before' n items := by
  induction items generalizing n with
  | nil => rfl
  | cons d items ih =>
    have hrest := ih fun e he => h e (List.mem_cons_of_mem d he)
    rw [claim, claim, h d List.mem_cons_self, hrest, hrest]

theorem mem_takeUnprotected (max : JsNumber) {map : JsMap Name Name} {key : Name → Name}
    {items : List Name} (hnodup : items.Nodup) (hget : ∀ d ∈ items, map.get (key d) = some d)
    (state : TierState) (d : Name) :
    d ∈ (takeUnprotected max map (items.map key) state).1 ↔
      d ∈ state.1 ∨
        d ∈ claim (fun n => max.le (.finite n)) (fun e => decide (e ∈ state.1)) state.2 items := by
  induction items generalizing state with
  | nil => exact ⟨.inl, fun h => h.resolve_right List.not_mem_nil⟩
  | cons e items ih =>
    obtain ⟨he, hrest⟩ := List.nodup_cons.1 hnodup
    have ih' := ih hrest fun d hd => hget d (List.mem_cons_of_mem e hd)
    rw [List.map_cons, takeUnprotected, claim]
    by_cases hfull : max.le (.finite state.2) = true
    · rw [if_pos hfull, if_pos hfull]
      exact ⟨.inl, fun h => h.resolve_right List.not_mem_nil⟩
    · rw [if_neg hfull, if_neg hfull, hget e List.mem_cons_self, Option.elim_some]
      by_cases hmem : e ∈ state.1
      · rw [if_pos hmem, if_pos (decide_eq_true hmem)]
        exact ih' state
      · have hsame : ∀ d ∈ items,
            decide (d ∈ JsSet.add state.1 e) = decide (d ∈ state.1) := fun d hd => by
          have hne : d ≠ e := fun h => he (h ▸ hd)
          rw [decide_eq_decide, JsSet.mem_add]
          exact or_iff_left hne
        rw [if_neg hmem, if_neg fun h => hmem (of_decide_eq_true h), ih', claim_congr hsame,
          JsSet.mem_add, List.mem_cons, or_assoc]

theorem takeUnprotected_full {max : JsNumber} {state : TierState}
    (h : max.le (.finite state.2) = true) (map : JsMap Name Name) (keys : List Name) :
    takeUnprotected max map keys state = state := by
  cases keys with
  | nil => rfl
  | cons key keys => rw [takeUnprotected, if_pos h]

theorem mem_takeMonths (max : JsNumber) {map : JsMap Name Name} {key : Name → Name}
    {items : List Name} (hget : ∀ d ∈ items, map.get (key d) = some d) (state : TierState)
    (d : Name) :
    d ∈ (takeMonths max map (items.map key) state).1 ↔
      d ∈ state.1 ∨ d ∈ claim (fun n => max.le (.finite n)) (fun _ => false) state.2 items := by
  induction items generalizing state with
  | nil => exact ⟨.inl, fun h => h.resolve_right List.not_mem_nil⟩
  | cons e items ih =>
    have ih' := ih fun d hd => hget d (List.mem_cons_of_mem e hd)
    rw [List.map_cons, takeMonths, claim]
    by_cases hfull : max.le (.finite state.2) = true
    · rw [if_pos hfull, if_pos hfull]
      exact ⟨.inl, fun h => h.resolve_right List.not_mem_nil⟩
    · rw [if_neg hfull, if_neg hfull, if_neg Bool.false_ne_true, hget e List.mem_cons_self,
        Option.elim_some, ih', JsSet.mem_add, List.mem_cons, or_assoc]

/-- Below the number of directories, the other argument of `Math.min` decides. -/
theorem lt_minNumber (max : JsNumber) {i n : Nat} (h : i < n) :
    (JsNumber.finite i).lt (minNumber max (.finite n)) = (JsNumber.finite i).lt max := by
  have hlt : ((i : Nat) : Rat) < (n : Rat) := by exact_mod_cast h
  have hle := Rat.le_of_lt hlt
  have hnot := Rat.not_le.2 hlt
  cases max with
  | nan => rfl
  | posInf => simp [minNumber, JsNumber.lt, JsNumber.le, hle, hnot]
  | negInf => rfl
  | finite q =>
    by_cases hq : q ≤ (n : Rat)
    · simp [minNumber, JsNumber.le, hq]
    · have hqi : ¬ q ≤ (i : Rat) := fun hqi => hq (Rat.le_trans hqi hle)
      have hiq := Rat.le_of_lt (Rat.not_le.1 hqi)
      simp [minNumber, JsNumber.lt, JsNumber.le, hq, hle, hnot, hqi, hiq]

theorem mem_takeRotating (max : JsNumber) {n : Nat} {protected₀ : List Name} {items : List Name}
    (i : Nat) (hlength : i + (items.filter fun d => decide (d ∉ protected₀)).length ≤ n)
    (protected_ : List Name) (d : Name) :
    d ∈ takeRotating (minNumber max (.finite n)) i
        (items.filter fun d => decide (d ∉ protected₀)) protected_ ↔
      d ∈ protected_ ∨
        d ∈ claim (fun i => !(JsNumber.finite i).lt max) (fun e => decide (e ∈ protected₀)) i
          items := by
  induction items generalizing i protected_ with
  | nil => exact ⟨.inl, fun h => h.resolve_right List.not_mem_nil⟩
  | cons e items ih =>
    rw [claim]
    by_cases hmem : e ∈ protected₀
    · have hfilter : ¬ decide (e ∉ protected₀) = true := by
        rw [decide_eq_true_eq]
        exact fun h => h hmem
      rw [List.filter_cons_of_neg (p := fun d => decide (d ∉ protected₀)) hfilter] at hlength ⊢
      rw [ih i hlength, if_pos (decide_eq_true hmem)]
      split
      · next hfull =>
        have hempty : claim (fun i => !(JsNumber.finite i).lt max)
            (fun e => decide (e ∈ protected₀)) i items = [] := claim_full _ hfull items
        rw [hempty]
      · exact Iff.rfl
    · have hfilter : decide (e ∉ protected₀) = true := decide_eq_true hmem
      rw [List.filter_cons_of_pos (p := fun d => decide (d ∉ protected₀)) hfilter] at hlength ⊢
      rw [List.length_cons] at hlength
      rw [takeRotating, lt_minNumber max (show i < n by omega),
        if_neg fun h => hmem (of_decide_eq_true h)]
      by_cases hlt : (JsNumber.finite i).lt max = true
      · have hroom : ¬ (!(JsNumber.finite (i : Nat)).lt max) = true := by
          rw [hlt]
          exact Bool.false_ne_true
        rw [if_pos hlt, if_neg hroom, ih (i + 1) (by omega), JsSet.mem_add, List.mem_cons,
          or_assoc]
      · have hfull : (!(JsNumber.finite (i : Nat)).lt max) = true := by
          rw [Bool.eq_false_iff.2 hlt]
          rfl
        rw [if_neg hlt, if_pos hfull]
        exact ⟨.inl, fun h => h.resolve_right List.not_mem_nil⟩

/-! ## The tiers of a run -/

theorem le_finite {n m : Nat} (h : n ≤ m) : (JsNumber.finite n).le (.finite m) = true := by
  have hcast : ((n : Nat) : Rat) ≤ (m : Rat) := by exact_mod_cast h
  simpa [JsNumber.le] using hcast

theorem le_stays_full (max : JsNumber) (n m : Nat) (h : n ≤ m)
    (hfull : max.le (.finite n) = true) : max.le (.finite m) = true :=
  JsNumber.le_trans hfull (le_finite h)

theorem lt_stays_full (max : JsNumber) (n m : Nat) (h : n ≤ m)
    (hfull : (!(JsNumber.finite n).lt max) = true) : (!(JsNumber.finite m).lt max) = true := by
  rw [Bool.not_eq_true', Bool.eq_false_iff] at hfull ⊢
  intro hlt
  simp only [JsNumber.lt, Bool.and_eq_true, Bool.not_eq_true'] at hlt
  refine hfull ?_
  rw [JsNumber.lt, JsNumber.le_trans (le_finite h) hlt.1, Bool.true_and, Bool.not_eq_true',
    Bool.eq_false_iff]
  intro hge
  rw [JsNumber.le_trans hge (le_finite h)] at hlt
  cases hlt.2

/-- A tier of `max` slots. -/
def keyTier (key : Name → Name) (max : JsNumber) : Tier Name Name where
  key := key
  full n := max.le (.finite n)
  stays_full := le_stays_full max

/-- Every directory is a group of its own. -/
def rotatingTier (max : JsNumber) : Tier Name Name where
  key := id
  full i := !(JsNumber.finite i).lt max
  stays_full := lt_stays_full max

def tiers (options : TieredRetentionOptions) : List (Tier Name Name) :=
  [keyTier isoMonthKey options.maxMonthlyBackups, keyTier isoWeekKey options.maxWeeklyBackups,
    keyTier isoDayKey options.maxDailyBackups, rotatingTier options.maxRotatingBackups]

theorem heads_id {items : List Name} (h : items.Nodup) (last : Option Name)
    (hlast : ∀ d ∈ items, last ≠ some d) : heads id last items = items := by
  induction items generalizing last with
  | nil => rfl
  | cons d items ih =>
    rw [List.nodup_cons] at h
    rw [heads, id, if_neg (hlast d List.mem_cons_self), ih h.2]
    rintro e he heq
    exact h.1 (Option.some_inj.1 heq ▸ he)

/-- Newest first, the names and the keys of the directories do not increase. -/
structure Ordered (items : List Name) : Prop where
  names  : items.Pairwise fun d e => textLt e d
  months : Descending isoMonthKey items
  weeks  : Descending isoWeekKey items
  days   : Descending isoDayKey items

theorem Ordered.nodup {items : List Name} (h : Ordered items) : items.Nodup :=
  h.names.imp fun hlt => hlt.ne.symm

/-- Only dated directories. -/
def directories (names : List Name) : List Entry := names.map fun name => ⟨name, true⟩

theorem listBackupDirectories_directories {items : List Name} (h : Ordered items)
    (hdated : ∀ d ∈ items, (parseDirDate d).isSome = true) :
    listBackupDirectories (directories items.reverse) = items.reverse := by
  have hall : (directories items.reverse).filter Entry.isDirectory =
      directories items.reverse := by
    refine List.filter_eq_self.2 fun entry hentry => ?_
    obtain ⟨name, -, rfl⟩ := List.mem_map.1 hentry
    rfl
  have hnames : (directories items.reverse).map Entry.name = items.reverse := by
    rw [directories, List.map_map]
    exact List.map_id _
  have hparsed : items.reverse.filter (fun name => (parseDirDate name).isSome) =
      items.reverse :=
    List.filter_eq_self.2 fun name hname => hdated name (List.mem_reverse.1 hname)
  rw [listBackupDirectories, hall, hnames, hparsed]
  refine List.mergeSort_of_pairwise ?_
  rw [List.pairwise_reverse]
  exact h.names.imp fun hlt => hlt.le

/-- **A run keeps what the tiers retain.** -/
theorem keptBackupDirs_eq {items : List Name} (h : Ordered items)
    (hdated : ∀ d ∈ items, (parseDirDate d).isSome = true) (options : TieredRetentionOptions) :
    (applyTieredRetention (directories items.reverse) options).keptBackupDirs =
        (retain (tiers options) items).reverse ∧
      ∀ d ∈ items, d ∈ (applyTieredRetention (directories items.reverse) options).prunedBackupDirs ↔
        d ∉ retain (tiers options) items := by
  have hlist := listBackupDirectories_directories h hdated
  have hnodup := h.nodup
  have hheads : ∀ {key : Name → Name}, (heads key none items).Nodup := fun {key} =>
    hnodup.sublist (heads_sublist key none items)
  generalize hmonthly : takeMonths options.maxMonthlyBackups (toDir isoMonthKey items.reverse)
    (recentKeys (toDir isoMonthKey items.reverse)) ([], 0) = monthly
  generalize hweekly : takeUnprotected options.maxWeeklyBackups (toDir isoWeekKey items.reverse)
    (recentKeys (toDir isoWeekKey items.reverse)) (monthly.1, 0) = weekly
  generalize hdaily : takeUnprotected options.maxDailyBackups (toDir isoDayKey items.reverse)
    (recentKeys (toDir isoDayKey items.reverse)) (weekly.1, 0) = daily
  generalize hrotated : takeRotating (minNumber options.maxRotatingBackups
    (.finite (items.filter fun dir => decide (dir ∉ daily.1)).length)) 0
    (items.filter fun dir => decide (dir ∉ daily.1)) daily.1 = rotated
  have hmonths : ∀ d, decide (d ∈ monthly.1) = true ↔ false = true ∨
      d ∈ (keyTier isoMonthKey options.maxMonthlyBackups).claims (fun _ => false) items := by
    intro d
    have hmem := mem_takeMonths options.maxMonthlyBackups
      (fun d hd => get_toDir h.months hd) ([], 0) d
    rw [← recentKeys_toDir h.months, hmonthly] at hmem
    rw [decide_eq_true_eq]
    exact hmem.trans (or_congr (iff_of_false List.not_mem_nil Bool.false_ne_true) Iff.rfl)
  have hweeks : ∀ d, decide (d ∈ weekly.1) = true ↔ decide (d ∈ monthly.1) = true ∨
      d ∈ (keyTier isoWeekKey options.maxWeeklyBackups).claims
        (fun e => decide (e ∈ monthly.1)) items := by
    intro d
    have hmem := mem_takeUnprotected options.maxWeeklyBackups hheads
      (fun d hd => get_toDir h.weeks hd) (monthly.1, 0) d
    rw [← recentKeys_toDir h.weeks, hweekly] at hmem
    rw [decide_eq_true_eq, decide_eq_true_eq]
    exact hmem
  have hdays : ∀ d, decide (d ∈ daily.1) = true ↔ decide (d ∈ weekly.1) = true ∨
      d ∈ (keyTier isoDayKey options.maxDailyBackups).claims
        (fun e => decide (e ∈ weekly.1)) items := by
    intro d
    have hmem := mem_takeUnprotected options.maxDailyBackups hheads
      (fun d hd => get_toDir h.days hd) (weekly.1, 0) d
    rw [← recentKeys_toDir h.days, hdaily] at hmem
    rw [decide_eq_true_eq, decide_eq_true_eq]
    exact hmem
  have hrotating : ∀ d, decide (d ∈ rotated) = true ↔ decide (d ∈ daily.1) = true ∨
      d ∈ (rotatingTier options.maxRotatingBackups).claims
        (fun e => decide (e ∈ daily.1)) items := by
    intro d
    have hmem := @mem_takeRotating options.maxRotatingBackups _ daily.1 items 0
      (Nat.le_of_eq (Nat.zero_add _)) daily.1 d
    have hself : heads (rotatingTier options.maxRotatingBackups).key none items = items :=
      heads_id hnodup none fun _ _ => nofun
    rw [decide_eq_true_eq, decide_eq_true_eq, ← hrotated, Tier.claims, hself]
    exact hmem
  have hprotect : protect (tiers options) (fun _ => false) items =
      fun d => decide (d ∈ rotated) := by
    rw [tiers, protect_cons _ _ hmonths, protect_cons _ _ hweeks, protect_cons _ _ hdays,
      protect_cons _ _ hrotating, protect]
  generalize hprotected : items.head?.elim rotated (JsSet.add rotated) = protected_
  have hmem : ∀ d, d ∈ protected_ ↔ survives (tiers options) items d = true := by
    intro d
    rw [survives, hprotect, Bool.or_eq_true, decide_eq_true_eq, decide_eq_true_eq, ← hprotected]
    cases items.head? with
    | none => simp
    | some newest =>
      rw [Option.elim_some, JsSet.mem_add, Option.some_inj]
      exact ⟨fun hd => (hd.symm.imp_left Eq.symm), fun hd => hd.symm.imp_right Eq.symm⟩
  have hkept : (fun d => decide (d ∈ protected_)) = survives (tiers options) items := by
    funext d
    rw [Bool.eq_iff_iff, decide_eq_true_eq, hmem]
  have hrun : applyTieredRetention (directories items.reverse) options =
      { prunedBackupDirs := items.reverse.filter fun dir => decide (dir ∉ protected_)
        keptBackupDirs := items.reverse.filter fun dir => decide (dir ∈ protected_)
        dailyCount := daily.2
        weeklyCount := weekly.2
        monthlyCount := monthly.2 } := by
    rw [applyTieredRetention]
    simp only [hlist, List.reverse_reverse, List.getLast?_reverse, hmonthly, hweekly, hdaily,
      hrotated, hprotected]
  rw [hrun]
  refine ⟨?_, fun d hd => ?_⟩
  · rw [hkept, retain, ← List.filter_reverse]
  · rw [List.mem_filter, List.mem_reverse, decide_eq_true_eq, hmem, retain, List.mem_filter]
    exact ⟨fun h hs => h.2 hs.2, fun h => ⟨hd, fun hs => h ⟨hd, hs⟩⟩⟩

end Psfn.Backups
