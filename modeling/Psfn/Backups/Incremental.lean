import Mathlib.Data.List.Dedup
import Psfn.Backups.RetentionTiers

/-!
# Retention after each backup

A run after each new backup, against one run over the whole history. Years are texts of their own
length in the keys, so the keys are ordered as the dates from the year 1000 on.

* `ordered_of_increasing` — names that increase have month, week and day keys that do not
  decrease;
* `incremental_retention` — after each backup or once at the end, the same directories are left;
  the newest one and the newest of each of the last months are among them.
-/

namespace Psfn.Backups

open Psfn.Lib Psfn.Lib.Calendar Psfn.Lib.Digits Psfn.Lib.Tiers
open Psfn.Lib.JsString (decimalValue)

/-! ## Timestamps -/

/-- A timestamp name; `clock` is the time of day, such as `103045123Z`. -/
structure Timestamp where
  year  : Nat
  month : Nat
  day   : Nat
  clock : Name
  year_le : year ≤ 9999
  valid   : InMonth year ((month : Int) - 1) day

def Timestamp.name (stamp : Timestamp) : Name :=
  fixed 4 stamp.year ++ fixed 2 stamp.month ++ fixed 2 stamp.day ++ 'T' :: stamp.clock

def Timestamp.date (stamp : Timestamp) : Int := makeDay stamp.year (stamp.month - 1) stamp.day

namespace Timestamp

variable (stamp : Timestamp)

theorem month_bounds : 1 ≤ stamp.month ∧ stamp.month ≤ 12 := by
  have h := stamp.valid.1
  omega

theorem day_bounds : 1 ≤ stamp.day ∧ stamp.day ≤ 31 := by
  obtain ⟨hm, hd⟩ := stamp.valid
  have hlength : daysInMonth stamp.year ((stamp.month : Int) - 1) ≤ 31 := by
    unfold daysInMonth monthStart
    cases isLeap stamp.year <;> simp only [if_true, Bool.false_eq_true, if_false] <;> omega
  omega

theorem isDated_name : isDated stamp.name = true := by
  have htake : stamp.name.take 8 =
      fixed 4 stamp.year ++ fixed 2 stamp.month ++ fixed 2 stamp.day := by
    rw [name, List.take_append_of_le_length (by simp), List.take_of_length_le (by simp)]
  have hat : stamp.name[8]? = some 'T' := by
    rw [name, List.getElem?_append_right (by simp)]
    simp
  rw [isDated, htake, hat]
  simp only [List.length_append, length_fixed, decide_true, Bool.true_and, Bool.and_true,
    List.all_append, Bool.and_eq_true, List.all_eq_true]
  exact ⟨⟨fun c hc => isDigit_of_mem_fixed hc, fun c hc => isDigit_of_mem_fixed hc⟩,
    fun c hc => isDigit_of_mem_fixed hc⟩

theorem parseDirDate_name (h : 100 ≤ stamp.year) : parseDirDate stamp.name = some stamp.date := by
  have hyear : stamp.name.take 4 = fixed 4 stamp.year := by
    rw [name, List.append_assoc, List.append_assoc, List.take_append_of_le_length (by simp),
      List.take_of_length_le (by simp)]
  have hmonth : (stamp.name.drop 4).take 2 = fixed 2 stamp.month := by
    rw [name, List.append_assoc, List.append_assoc, List.drop_append_of_le_length (by simp),
      List.drop_of_length_le (by simp), List.nil_append, List.take_append_of_le_length (by simp),
      List.take_of_length_le (by simp)]
  have hday : (stamp.name.drop 6).take 2 = fixed 2 stamp.day := by
    rw [name, List.append_assoc _ (fixed 2 stamp.day), List.drop_append_of_le_length (by simp),
      List.drop_of_length_le (by simp), List.nil_append, List.take_append_of_le_length (by simp),
      List.take_of_length_le (by simp)]
  have hmonths := stamp.month_bounds
  have hdays := stamp.day_bounds
  have hyears := stamp.year_le
  rw [parseDirDate, if_pos stamp.isDated_name, hyear, hmonth, hday,
    decimalValue_fixed (show stamp.year < count 4 from Nat.lt_succ_of_le hyears),
    decimalValue_fixed (show stamp.month < count 2 from by show stamp.month < 100; omega),
    decimalValue_fixed (show stamp.day < count 2 from by show stamp.day < 100; omega), utcDay,
    if_neg (by omega), date]

end Timestamp

/-! ## Keys -/

theorem intText_natCast (n : Nat) : Json.intText (n : Int) = Nat.toDigits 10 n := by
  rw [Json.intText, if_neg (by omega), Int.natAbs_natCast]

/-- From the year 1000 on, a year has four digits. -/
theorem intText_year {y : Int} (hlow : 1000 ≤ y) (hhigh : y ≤ 9999) :
    Json.intText y = fixed 4 y.toNat := by
  have hcast : y = (y.toNat : Int) := by omega
  have hlow' : count 3 ≤ y.toNat := by
    show 1000 ≤ y.toNat
    omega
  have hhigh' : y.toNat < count 4 := by
    show y.toNat < 10000
    omega
  rw [hcast, intText_natCast, Int.toNat_natCast, toDigits_eq_fixed hlow' hhigh']

theorem padTwo_int {n : Int} (hlow : 0 ≤ n) (hhigh : n < 100) :
    padTwo (Json.intText n) = fixed 2 n.toNat := by
  have hcast : n = (n.toNat : Int) := by omega
  rw [hcast, intText_natCast, Int.toNat_natCast, padTwo_eq_fixed (by omega)]

/-- A part of fixed width decides, or else what follows it. -/
theorem textLe_fixed {w n n' : Nat} (hn' : n' < count w) {x y : List Char}
    (h : n < n' ∨ (n = n' ∧ textLe x y = true)) :
    textLe (fixed w n ++ x) (fixed w n' ++ y) = true := by
  rcases h with hlt | ⟨rfl, hle⟩
  · exact (textLt_append (by simp) (fixed_lt hlt hn') _ _).le
  · rw [textLe_append_left]
    exact hle

theorem textLe_fixed_of_le {w n n' : Nat} (hn' : n' < count w) (h : n ≤ n') :
    textLe (fixed w n) (fixed w n') = true := by
  rcases Nat.lt_or_eq_of_le h with hlt | rfl
  · exact (fixed_lt hlt hn').le
  · exact textLe_refl _

namespace Timestamp

variable (stamp : Timestamp)

theorem monthKey_name (h : 1000 ≤ stamp.year) :
    isoMonthKey stamp.name = fixed 4 stamp.year ++ (['-'] ++ fixed 2 stamp.month) := by
  have hyears := stamp.year_le
  have hmonths := stamp.month_bounds
  rw [isoMonthKey, stamp.parseDirDate_name (by omega), Option.elim_some, date,
    yearFromDay_makeDay stamp.valid, monthFromDay_makeDay stamp.valid,
    intText_year (by omega) (by omega), padTwo_int (by omega) (by omega), List.append_assoc,
    Int.toNat_natCast]
  have hmonth : ((stamp.month : Int) - 1 + 1).toNat = stamp.month := by omega
  rw [hmonth]

theorem dayKey_name (h : 1000 ≤ stamp.year) :
    isoDayKey stamp.name =
      fixed 4 stamp.year ++ (['-'] ++ (fixed 2 stamp.month ++ (['-'] ++ fixed 2 stamp.day))) := by
  have hyears := stamp.year_le
  have hmonths := stamp.month_bounds
  have hdays := stamp.day_bounds
  rw [isoDayKey, stamp.parseDirDate_name (by omega), Option.elim_some, date,
    yearFromDay_makeDay stamp.valid, monthFromDay_makeDay stamp.valid,
    dateFromDay_makeDay stamp.valid, intText_year (by omega) (by omega),
    padTwo_int (by omega) (by omega), padTwo_int (by omega) (by omega), Int.toNat_natCast,
    Int.toNat_natCast]
  have hmonth : ((stamp.month : Int) - 1 + 1).toNat = stamp.month := by omega
  rw [hmonth]
  simp only [List.append_assoc]

/-- The calendar date is no later. -/
def DateLe (a b : Timestamp) : Prop :=
  a.year < b.year ∨ (a.year = b.year ∧ (a.month < b.month ∨ (a.month = b.month ∧ a.day ≤ b.day)))

theorem dateLe_of_name_lt {a b : Timestamp} (h : textLt a.name b.name) : DateLe a b := by
  have hyear : a.year < count 4 := Nat.lt_of_le_of_lt a.year_le (by decide)
  have hmonth : a.month < count 2 := Nat.lt_of_le_of_lt a.month_bounds.2 (by decide)
  have hday : a.day < count 2 := Nat.lt_of_le_of_lt a.day_bounds.2 (by decide)
  have hnot : ¬ textLt b.name a.name := fun hba => by
    rw [textLt, h.le] at hba
    cases hba
  unfold name at h hnot
  simp only [List.append_assoc] at h hnot
  rcases Nat.lt_trichotomy a.year b.year with hlt | heq | hgt
  · exact .inl hlt
  · rw [heq] at hnot
    rcases Nat.lt_trichotomy a.month b.month with hlt | hmeq | hgt
    · exact .inr ⟨heq, .inl hlt⟩
    · rw [hmeq] at hnot
      rcases Nat.lt_or_ge b.day a.day with hgt | hle
      · refine absurd ?_ hnot
        rw [textLt_append_left, textLt_append_left]
        exact textLt_append (by simp) (fixed_lt hgt hday) _ _
      · exact .inr ⟨heq, .inr ⟨hmeq, hle⟩⟩
    · refine absurd ?_ hnot
      rw [textLt_append_left]
      exact textLt_append (by simp) (fixed_lt hgt hmonth) _ _
  · exact absurd (textLt_append (by simp) (fixed_lt hgt hyear) _ _) hnot

theorem date_le {a b : Timestamp} (h : DateLe a b) : a.date ≤ b.date := by
  have ha := makeDay_bounds a.valid
  have hb := makeDay_bounds b.valid
  have hva := a.valid
  unfold date
  rcases h with hlt | ⟨heq, hlt | ⟨hmeq, hle⟩⟩
  · have hyears := dayFromYear_le (show (a.year : Int) + 1 ≤ b.year by omega)
    omega
  · obtain ⟨hm, hd⟩ := hva
    have hmb := b.valid.1
    have hstart := monthStart_le (isLeap a.year) (show 0 ≤ ((a.month : Int) - 1) + 1 by omega)
      (show ((a.month : Int) - 1) + 1 ≤ (b.month : Int) - 1 by omega)
    have hday := b.valid.2.1
    unfold daysInMonth at hd
    rw [makeDay_eq hm, makeDay_eq hmb, heq]
    rw [heq] at hd hstart
    omega
  · rw [makeDay_eq hva.1, makeDay_eq b.valid.1, heq, hmeq]
    omega

theorem monthKey_le {a b : Timestamp} (ha : 1000 ≤ a.year) (hb : 1000 ≤ b.year)
    (h : DateLe a b) : textLe (isoMonthKey a.name) (isoMonthKey b.name) = true := by
  have hyear : b.year < count 4 := Nat.lt_of_le_of_lt b.year_le (by decide)
  have hmonth : b.month < count 2 := Nat.lt_of_le_of_lt b.month_bounds.2 (by decide)
  rw [a.monthKey_name ha, b.monthKey_name hb]
  refine textLe_fixed hyear (h.imp_right fun hrest => ⟨hrest.1, ?_⟩)
  rw [textLe_append_left]
  refine textLe_fixed_of_le hmonth ?_
  rcases hrest.2 with hlt | ⟨heq, -⟩
  · exact Nat.le_of_lt hlt
  · exact Nat.le_of_eq heq

theorem dayKey_le {a b : Timestamp} (ha : 1000 ≤ a.year) (hb : 1000 ≤ b.year)
    (h : DateLe a b) : textLe (isoDayKey a.name) (isoDayKey b.name) = true := by
  have hyear : b.year < count 4 := Nat.lt_of_le_of_lt b.year_le (by decide)
  have hmonth : b.month < count 2 := Nat.lt_of_le_of_lt b.month_bounds.2 (by decide)
  have hday : b.day < count 2 := Nat.lt_of_le_of_lt b.day_bounds.2 (by decide)
  rw [a.dayKey_name ha, b.dayKey_name hb]
  refine textLe_fixed hyear (h.imp_right fun hrest => ⟨hrest.1, ?_⟩)
  rw [textLe_append_left]
  refine textLe_fixed hmonth (hrest.2.imp_right fun hlast => ⟨hlast.1, ?_⟩)
  rw [textLe_append_left]
  exact textLe_fixed_of_le hday hlast.2

end Timestamp

/-! ## Weeks -/

theorem thursdayOf_mono {a b : Int} (h : a ≤ b) : thursdayOf a ≤ thursdayOf b := by
  unfold thursdayOf weekday
  split <;> split <;> omega

/-- The year of an ISO week has four digits as well. -/
theorem weekYear_bounds {n : Int} (hlow : dayFromYear 1000 ≤ n) (hhigh : n < dayFromYear 10000) :
    1000 ≤ yearFromDay (thursdayOf n) ∧ yearFromDay (thursdayOf n) ≤ 9999 := by
  have hfirst : yearFromDay (thursdayOf (dayFromYear 1000)) = 1000 := by decide +kernel
  have hlast : yearFromDay (thursdayOf (dayFromYear 10000 - 1)) = 9999 := by decide +kernel
  have hstart := yearFromDay_mono (thursdayOf_mono hlow)
  have hend := yearFromDay_mono (thursdayOf_mono (show n ≤ dayFromYear 10000 - 1 by omega))
  omega

/-- The number of a week in its year, from 1. -/
def weekNumber (n : Int) : Int :=
  (thursdayOf n - dayFromYear (yearFromDay (thursdayOf n)) + 7) / 7

theorem weekNumber_bounds (n : Int) : 1 ≤ weekNumber n ∧ weekNumber n ≤ 53 := by
  have hspec := yearFromDay_spec (thursdayOf n)
  rw [dayFromYear_succ] at hspec
  have hlength : daysInYear (isLeap (yearFromDay (thursdayOf n))) ≤ 366 := by
    unfold daysInYear
    split <;> omega
  unfold weekNumber
  omega

namespace Timestamp

variable (stamp : Timestamp)

theorem date_bounds (h : 1000 ≤ stamp.year) :
    dayFromYear 1000 ≤ stamp.date ∧ stamp.date < dayFromYear 10000 := by
  have hbounds := makeDay_bounds stamp.valid
  have hyears := stamp.year_le
  have hlow := dayFromYear_le (show (1000 : Int) ≤ stamp.year by omega)
  have hhigh := dayFromYear_le (show (stamp.year : Int) + 1 ≤ 10000 by omega)
  unfold date
  omega

theorem weekKey_name (h : 1000 ≤ stamp.year) :
    isoWeekKey stamp.name = fixed 4 (yearFromDay (thursdayOf stamp.date)).toNat ++
      (['-', 'W'] ++ fixed 2 (weekNumber stamp.date).toNat) := by
  have hyear := weekYear_bounds (stamp.date_bounds h).1 (stamp.date_bounds h).2
  have hweek := weekNumber_bounds stamp.date
  have hjan1 : utcDay (yearFromDay (thursdayOf stamp.date)) 0 1 =
      dayFromYear (yearFromDay (thursdayOf stamp.date)) := by
    rw [utcDay, if_neg (by omega), makeDay_eq (by omega)]
    have hzero : monthStart (isLeap (yearFromDay (thursdayOf stamp.date))) 0 = 0 := by
      cases isLeap (yearFromDay (thursdayOf stamp.date)) <;> decide
    omega
  have hnumber : (thursdayOf stamp.date - dayFromYear (yearFromDay (thursdayOf stamp.date)) + 1 +
      6) / 7 = weekNumber stamp.date := by
    unfold weekNumber
    omega
  rw [isoWeekKey, stamp.parseDirDate_name (by omega), Option.elim_some]
  simp only [hjan1, hnumber]
  rw [intText_year hyear.1 hyear.2, padTwo_int (by omega) (by omega), List.append_assoc]

theorem weekKey_le {a b : Timestamp} (ha : 1000 ≤ a.year) (hb : 1000 ≤ b.year)
    (h : DateLe a b) : textLe (isoWeekKey a.name) (isoWeekKey b.name) = true := by
  have hthursday := thursdayOf_mono (date_le h)
  have hya := weekYear_bounds (a.date_bounds ha).1 (a.date_bounds ha).2
  have hyb := weekYear_bounds (b.date_bounds hb).1 (b.date_bounds hb).2
  have hwb := weekNumber_bounds b.date
  have hyears := yearFromDay_mono hthursday
  have hyear : (yearFromDay (thursdayOf b.date)).toNat < count 4 := by
    show _ < 10000
    omega
  have hweek : (weekNumber b.date).toNat < count 2 := by
    show _ < 100
    omega
  rw [a.weekKey_name ha, b.weekKey_name hb]
  refine textLe_fixed hyear ?_
  rcases Int.lt_or_eq_of_le hyears with hlt | heq
  · exact .inl (by omega)
  · refine .inr ⟨by rw [heq], ?_⟩
    rw [textLe_append_left]
    refine textLe_fixed_of_le hweek (Int.toNat_le_toNat ?_)
    unfold weekNumber
    rw [heq]
    omega

end Timestamp

/-! ## Runs -/

/-- A run after each new backup. -/
def backUpEach (options : TieredRetentionOptions) (names : List Name) : List Entry :=
  names.foldl (fun rootDir name => rootAfter (rootDir ++ [⟨name, true⟩]) options) []

def Increasing (history : List Timestamp) : Prop :=
  history.Pairwise fun a b => textLt a.name b.name

theorem descending_of_increasing {key : Name → Name} {history : List Timestamp}
    (hincreasing : Increasing history) (hyears : ∀ stamp ∈ history, 1000 ≤ stamp.year)
    (hkey : ∀ {a b : Timestamp}, 1000 ≤ a.year → 1000 ≤ b.year → Timestamp.DateLe a b →
      textLe (key a.name) (key b.name) = true) :
    Descending key (history.map Timestamp.name).reverse := by
  rw [Descending, List.pairwise_reverse, List.pairwise_map]
  exact List.Pairwise.imp_of_mem
    (fun ha hb hlt => hkey (hyears _ ha) (hyears _ hb) (Timestamp.dateLe_of_name_lt hlt))
    hincreasing

theorem ordered_of_increasing {history : List Timestamp} (hincreasing : Increasing history)
    (hyears : ∀ stamp ∈ history, 1000 ≤ stamp.year) :
    Ordered (history.map Timestamp.name).reverse where
  names := by
    rw [List.pairwise_reverse, List.pairwise_map]
    exact hincreasing
  months := descending_of_increasing hincreasing hyears Timestamp.monthKey_le
  weeks := descending_of_increasing hincreasing hyears Timestamp.weekKey_le
  days := descending_of_increasing hincreasing hyears Timestamp.dayKey_le

theorem Ordered.sublist {kept items : List Name} (h : Ordered items)
    (hsub : kept.Sublist items) : Ordered kept where
  names := h.names.sublist hsub
  months := List.Pairwise.sublist hsub h.months
  weeks := List.Pairwise.sublist hsub h.weeks
  days := List.Pairwise.sublist hsub h.days

def Dated (items : List Name) : Prop := ∀ d ∈ items, (parseDirDate d).isSome = true

theorem rootAfter_directories {items : List Name} (h : Ordered items) (hdated : Dated items)
    (options : TieredRetentionOptions) :
    rootAfter (directories items.reverse) options =
      directories (retain (tiers options) items).reverse := by
  have hpruned := (keptBackupDirs_eq h hdated options).2
  rw [rootAfter]
  generalize (applyTieredRetention (directories items.reverse) options).prunedBackupDirs =
    pruned at hpruned ⊢
  have hfilter : items.reverse.filter (fun d => decide (d ∉ pruned)) =
      items.reverse.filter (survives (tiers options) items) := by
    refine List.filter_congr fun d hd => ?_
    have hmem := List.mem_reverse.1 hd
    rw [Bool.eq_iff_iff, decide_eq_true_eq, hpruned d hmem, retain, List.mem_filter, not_not]
    exact and_iff_right hmem
  rw [retain, ← List.filter_reverse, ← hfilter, directories, directories, List.filter_map]
  rfl

theorem backUpEach_eq {items : List Name} (h : Ordered items) (hdated : Dated items)
    (options : TieredRetentionOptions) :
    backUpEach options items.reverse = directories (retain (tiers options) items).reverse := by
  rw [backUpEach, List.foldl_reverse]
  induction items with
  | nil => rfl
  | cons d items ih =>
    have hrest := h.sublist (List.sublist_cons_self d items)
    obtain ⟨hd, hnodup⟩ := List.nodup_cons.1 h.nodup
    have hsub : (d :: retain (tiers options) items).Sublist (d :: items) :=
      (retain_sublist _ _).cons_cons d
    have hroot : directories (retain (tiers options) items).reverse ++ [⟨d, true⟩] =
        directories (d :: retain (tiers options) items).reverse := by
      rw [directories, directories, List.reverse_cons, List.map_append]
      rfl
    rw [List.foldr_cons, ih hrest fun e he => hdated e (List.mem_cons_of_mem d he), hroot,
      rootAfter_directories (h.sublist hsub) (fun e he => hdated e (hsub.subset he)),
      retain_cons_retain _ hd hnodup]

/-! ## Months -/

def SameMonth (a b : Timestamp) : Prop := a.year = b.year ∧ a.month = b.month

/-- The months with backups after the month of a timestamp. -/
def laterMonths (history : List Timestamp) (stamp : Timestamp) : List (Nat × Nat) :=
  ((history.map fun other => (other.year, other.month)).filter fun month =>
    decide (stamp.year < month.1 ∨ (stamp.year = month.1 ∧ stamp.month < month.2))).dedup

def monthText (month : Nat × Nat) : Name := fixed 4 month.1 ++ (['-'] ++ fixed 2 month.2)

theorem sameMonth_of_key {a b : Timestamp} (ha : 1000 ≤ a.year) (hb : 1000 ≤ b.year)
    (h : isoMonthKey a.name = isoMonthKey b.name) : SameMonth a b := by
  rw [a.monthKey_name ha, b.monthKey_name hb] at h
  obtain ⟨hyear, hrest⟩ := List.append_inj h (by simp)
  have hmonth := (List.append_inj hrest rfl).2
  have hyears : ∀ t : Timestamp, t.year < count 4 := fun t =>
    Nat.lt_of_le_of_lt t.year_le (by decide)
  have hmonths : ∀ t : Timestamp, t.month < count 2 := fun t =>
    Nat.lt_of_le_of_lt t.month_bounds.2 (by decide)
  exact ⟨fixed_inj (hyears a) (hyears b) hyear, fixed_inj (hmonths a) (hmonths b) hmonth⟩

theorem newest_of_month_left {history : List Timestamp} (hincreasing : Increasing history)
    (hyears : ∀ stamp ∈ history, 1000 ≤ stamp.year) (options : TieredRetentionOptions)
    {stamp : Timestamp} (hstamp : stamp ∈ history)
    (hnewest : ∀ other ∈ history, SameMonth other stamp → textLe other.name stamp.name = true)
    (hslots : (JsNumber.finite (laterMonths history stamp).length).lt
      options.maxMonthlyBackups = true) :
    stamp.name ∈ retain (tiers options) (history.map Timestamp.name).reverse := by
  have hordered := ordered_of_increasing hincreasing hyears
  have hmem : stamp.name ∈ (history.map Timestamp.name).reverse :=
    List.mem_reverse.2 (List.mem_map.2 ⟨stamp, hstamp, rfl⟩)
  obtain ⟨newer, older, hsplit⟩ := List.append_of_mem hmem
  have hnames := hordered.names
  have hmonths := hordered.months
  rw [hsplit] at hnames hmonths
  -- a newer backup is of a later month
  have hlater : ∀ e ∈ newer, ∃ other ∈ history, other.name = e ∧
      (stamp.year < other.year ∨ (stamp.year = other.year ∧ stamp.month < other.month)) := by
    intro e he
    have hin : e ∈ (history.map Timestamp.name).reverse := by
      rw [hsplit]
      exact List.mem_append_left _ he
    obtain ⟨other, hother, rfl⟩ := List.mem_map.1 (List.mem_reverse.1 hin)
    have hlt := (List.pairwise_append.1 hnames).2.2 _ he _ List.mem_cons_self
    refine ⟨other, hother, rfl, ?_⟩
    rcases Timestamp.dateLe_of_name_lt hlt with hyear | ⟨hyear, hmonth | ⟨hmonth, -⟩⟩
    · exact .inl hyear
    · exact .inr ⟨hyear, hmonth⟩
    · have hle := hnewest other hother ⟨hyear.symm, hmonth.symm⟩
      rw [show textLe other.name stamp.name = false from hlt] at hle
      cases hle
  have hkeys : ∀ e ∈ newer, isoMonthKey e ≠ isoMonthKey stamp.name := by
    intro e he heq
    obtain ⟨other, hother, rfl, hmonth⟩ := hlater e he
    have hsame := sameMonth_of_key (hyears other hother) (hyears stamp hstamp) heq
    rw [hsame.1, hsame.2] at hmonth
    omega
  have hheads : heads isoMonthKey none (newer ++ stamp.name :: older) =
      heads isoMonthKey none newer ++
        stamp.name :: heads isoMonthKey (some (isoMonthKey stamp.name)) older :=
    heads_split hkeys nofun
  have hlength : (heads isoMonthKey none newer).length ≤ (laterMonths history stamp).length := by
    have hdescending : Descending isoMonthKey newer :=
      List.Pairwise.sublist (List.sublist_append_left _ _) hmonths
    have hnodup := (nodup_map_heads hdescending none fun _ => nofun).1
    have hsub : (heads isoMonthKey none newer).map isoMonthKey ⊆
        (laterMonths history stamp).map monthText := by
      intro key hkey
      obtain ⟨e, he, rfl⟩ := List.mem_map.1 hkey
      obtain ⟨other, hother, rfl, hmonth⟩ := hlater e ((heads_sublist _ _ _).subset he)
      refine List.mem_map.2 ⟨(other.year, other.month), ?_, ?_⟩
      · rw [laterMonths, List.mem_dedup, List.mem_filter]
        exact ⟨List.mem_map.2 ⟨other, hother, rfl⟩, decide_eq_true hmonth⟩
      · exact (other.monthKey_name (hyears other hother)).symm
    have hle := (hnodup.subperm hsub).length_le
    rw [List.length_map, List.length_map] at hle
    exact hle
  rw [retain, List.mem_filter]
  refine ⟨hmem, ?_⟩
  rw [hsplit]
  refine survives_of_head (keyTier isoMonthKey options.maxMonthlyBackups) _ hheads ?_
  show options.maxMonthlyBackups.le (.finite (heads isoMonthKey none newer).length) = false
  rw [Bool.eq_false_iff]
  intro hfull
  have hroom := le_stays_full options.maxMonthlyBackups _ _ hlength hfull
  simp only [JsNumber.lt, hroom, Bool.not_true, Bool.and_false] at hslots
  cases hslots

/-! ## One run for a whole history -/

theorem dated_of_years {history : List Timestamp}
    (hyears : ∀ stamp ∈ history, 1000 ≤ stamp.year) :
    Dated (history.map Timestamp.name).reverse := by
  intro d hd
  obtain ⟨stamp, hstamp, rfl⟩ := List.mem_map.1 (List.mem_reverse.1 hd)
  have hyear := hyears stamp hstamp
  rw [stamp.parseDirDate_name (by omega), Option.isSome_some]

/-- What one run over a whole history leaves. -/
def leftOf (options : TieredRetentionOptions) (history : List Timestamp) : List Entry :=
  rootAfter (directories (history.map Timestamp.name)) options

/-- **Incremental retention is one-shot retention.** For timestamps from the year 1000 on, a run
after each backup leaves what one run over the history leaves; the newest backup is left, a second
run prunes nothing, and the newest backup of each of the last months is left. -/
theorem incremental_retention (options : TieredRetentionOptions) (history : List Timestamp)
    (hincreasing : Increasing history) (hyears : ∀ stamp ∈ history, 1000 ≤ stamp.year) :
    backUpEach options (history.map Timestamp.name) = leftOf options history ∧
      (∀ newest, history.getLast? = some newest →
        ⟨newest.name, true⟩ ∈ leftOf options history) ∧
      (applyTieredRetention (leftOf options history) options).prunedBackupDirs = [] ∧
      ∀ stamp ∈ history,
        (∀ other ∈ history, SameMonth other stamp → textLe other.name stamp.name = true) →
        (JsNumber.finite (laterMonths history stamp).length).lt
          options.maxMonthlyBackups = true →
        ⟨stamp.name, true⟩ ∈ leftOf options history := by
  have hordered := ordered_of_increasing hincreasing hyears
  have hdated := dated_of_years hyears
  have hleft : leftOf options history = directories
      (retain (tiers options) (history.map Timestamp.name).reverse).reverse := by
    rw [← rootAfter_directories hordered hdated, List.reverse_reverse, leftOf]
  have hmem : ∀ {name}, name ∈ retain (tiers options) (history.map Timestamp.name).reverse →
      ⟨name, true⟩ ∈ leftOf options history := fun hname => by
    rw [hleft]
    exact List.mem_map.2 ⟨_, List.mem_reverse.2 hname, rfl⟩
  refine ⟨?_, fun newest hlast => hmem ?_, ?_, fun stamp hstamp hnewest hslots =>
    hmem (newest_of_month_left hincreasing hyears options hstamp hnewest hslots)⟩
  · rw [hleft, ← backUpEach_eq hordered hdated, List.reverse_reverse]
  · have hhead := head?_retain (tiers options) (history.map Timestamp.name).reverse
    rw [List.head?_reverse, List.getLast?_map, hlast] at hhead
    exact List.mem_of_mem_head? hhead
  · have hsub := retain_sublist (tiers options) (history.map Timestamp.name).reverse
    have hrun := keptBackupDirs_eq (hordered.sublist hsub)
      (fun d hd => hdated d (hsub.subset hd)) options
    rw [hleft, List.eq_nil_iff_forall_not_mem]
    intro d hd
    have hlisted := (List.mem_filter.1 hd).1
    rw [listBackupDirectories_directories (hordered.sublist hsub)
      fun d hd => hdated d (hsub.subset hd)] at hlisted
    have hin := List.mem_reverse.1 hlisted
    refine (hrun.2 d hin).1 hd ?_
    rw [retain_retain _ hordered.nodup]
    exact hin

theorem incremental_retention_twoDays :
    ∃ (options : TieredRetentionOptions) (history : List Timestamp),
      history.length = 2 ∧ Increasing history ∧ (∀ stamp ∈ history, 1000 ≤ stamp.year) ∧
        backUpEach options (history.map Timestamp.name) = leftOf options history := by
  refine ⟨⟨.finite 0, .finite 1, .finite 0, .finite 1⟩,
    [⟨2026, 3, 17, ['Z'], by decide, by decide⟩, ⟨2026, 3, 18, ['Z'], by decide, by decide⟩], rfl,
    ?_, ?_, (incremental_retention _ _ ?_ ?_).1⟩
  · exact List.pairwise_pair.2 (by unfold textLt; decide)
  · decide
  · exact List.pairwise_pair.2 (by unfold textLt; decide)
  · decide

/-- Before the year 1000 the text of a month is not ordered as the month: of the last two months
with backups, January 1000 loses its only one to December 999. -/
theorem last_month_pruned :
    ¬ ∀ (options : TieredRetentionOptions) (history : List Timestamp), Increasing history →
      ∀ stamp ∈ history,
        (∀ other ∈ history, SameMonth other stamp → textLe other.name stamp.name = true) →
        (JsNumber.finite (laterMonths history stamp).length).lt
          options.maxMonthlyBackups = true →
        ⟨stamp.name, true⟩ ∈ leftOf options history := by
  intro h
  have hincreasing : Increasing [⟨999, 12, 31, ['Z'], by decide, by decide⟩,
      ⟨1000, 1, 1, ['Z'], by decide, by decide⟩, ⟨1000, 2, 1, ['Z'], by decide, by decide⟩] := by
    refine List.Pairwise.cons ?_ (List.pairwise_pair.2 ?_)
    · unfold textLt
      decide
    · unfold textLt
      decide
  have hleft := h ⟨.finite 0, .finite 0, .finite 0, .finite 2⟩ _ hincreasing
    ⟨1000, 1, 1, ['Z'], by decide, by decide⟩ (List.mem_cons_of_mem _ List.mem_cons_self)
    (by unfold SameMonth; decide) (by decide +kernel)
  generalize hnames : ([⟨999, 12, 31, ['Z'], by decide, by decide⟩,
    ⟨1000, 1, 1, ['Z'], by decide, by decide⟩, ⟨1000, 2, 1, ['Z'], by decide, by decide⟩] :
      List Timestamp).map Timestamp.name = names at hleft
  have hlist : listBackupDirectories (directories names) = names := by
    rw [← hnames]
    refine List.mergeSort_of_pairwise ?_
    decide +kernel
  -- the text of December 999 is the greatest one
  have hkeys : recentKeys (toDir isoMonthKey names) =
      ["999-12".toList, "1000-02".toList, "1000-01".toList] := by
    rw [← hnames]
    exact recentKeys_eq (by decide +kernel) (by decide +kernel)
  have hfull : ∀ (map : JsMap Name Name) (keys protected_ : List Name),
      takeUnprotected (.finite 0) map keys (protected_, 0) = (protected_, 0) :=
    fun map keys _ => takeUnprotected_full rfl map keys
  rw [leftOf, hnames, rootAfter, applyTieredRetention] at hleft
  simp only [hlist, hkeys, hfull] at hleft
  rw [← hnames] at hleft
  revert hleft
  decide +kernel

end Psfn.Backups
