import Psfn.Lib.Calendar
import Psfn.TaskScheduler.SlotServed

/-!
# Wall-clock times of a zone

`shared/time/active-timezone.ts` on calendar fields. `Intl` shows the year of the era, so a year
before 1 appears as a positive one, and `Date.UTC` reads the years `0 .. 99` as `1900 .. 1999`.
An instant outside the range of a `Date` is `NaN`, with which formatting throws: both are `none`.

* `zonedOffsetMs_of_readable` — where the zone shows a year from 100 on, the offset is the zone's;
* `zonedWallClockToEpoch_of_readable` — there the guess and its refinement are those of the slots;
* `zonedWallClockToEpoch_iff` — a minute resolves to an instant that shows it exactly when the zone
  shows its beginning at all and both probes are readable.
-/

namespace Psfn.Time

open Psfn.Lib.Calendar
open Psfn.TaskScheduler (Zone DAY_MS HOUR_MS MINUTE_MS SECOND_MS MAX_DATE)

/-! ## Calendar fields -/

/-- `month` counts from 1, `weekday` from Sunday as 0. -/
structure ZonedWallClockParts where
  year    : Int
  month   : Int
  day     : Int
  hour    : Int
  minute  : Int
  second  : Int
  weekday : Int
deriving DecidableEq

/-- The year of the era. -/
def shownYear (year : Int) : Int := if 1 ≤ year then year else 1 - year

def isDate (t : Int) : Bool := -MAX_DATE ≤ t && t ≤ MAX_DATE

def partsOfClock (clock : Int) : ZonedWallClockParts where
  year := shownYear (yearFromDay (clock / DAY_MS))
  month := monthFromDay (clock / DAY_MS) + 1
  day := dateFromDay (clock / DAY_MS)
  hour := clock % DAY_MS / HOUR_MS
  minute := clock % HOUR_MS / MINUTE_MS
  second := clock % MINUTE_MS / SECOND_MS
  weekday := weekday (clock / DAY_MS)

def zonedWallClockParts (epochMs : Int) (zone : Zone) : Option ZonedWallClockParts :=
  if isDate epochMs then some (partsOfClock (zone.clock epochMs)) else none

def timeOf (hour minute second : Int) : Int :=
  hour * HOUR_MS + minute * MINUTE_MS + second * SECOND_MS

/-- `Date.UTC`, the month counting from 0. -/
def dateUTC (year month day hour minute second : Int) : Option Int :=
  let t := utcDay year month day * DAY_MS + timeOf hour minute second
  if isDate t then some t else none

def zonedOffsetMs (epochMs : Int) (zone : Zone) : Option Int := do
  let parts ← zonedWallClockParts epochMs zone
  let asUtc ← dateUTC parts.year (parts.month - 1) parts.day parts.hour parts.minute parts.second
  return asUtc - epochMs

def zonedWallClockToEpoch (zone : Zone) (year month day hour minute : Int) : Option Int := do
  let asUtc ← dateUTC year (month - 1) day hour minute 0
  let offset ← zonedOffsetMs asUtc zone
  let epoch := asUtc - offset
  let refinedOffset ← zonedOffsetMs epoch zone
  return if refinedOffset = offset then epoch else asUtc - refinedOffset

/-! ## Days and their fields -/

theorem makeDay_fields (n : Int) : makeDay (yearFromDay n) (monthFromDay n) (dateFromDay n) = n := by
  obtain ⟨hmonth, -, -⟩ := monthFromDay_spec n
  rw [makeDay_eq hmonth]
  unfold dateFromDay dayInYear
  omega

theorem dayFromYear_le_makeDay {y m d : Int} (hm : 0 ≤ m ∧ m < 12) (hd : 1 ≤ d) :
    dayFromYear y ≤ makeDay y m d := by
  have hfirst := monthStart_le (isLeap y) (Int.le_refl 0) hm.1
  have hzero : monthStart (isLeap y) 0 = 0 := by cases isLeap y <;> decide
  rw [makeDay_eq hm]
  omega

theorem dateFromDay_pos (n : Int) : 1 ≤ dateFromDay n := by
  obtain ⟨-, hstart, -⟩ := monthFromDay_spec n
  unfold dateFromDay
  omega

theorem le_yearFromDay {y n : Int} (h : dayFromYear y ≤ n) : y ≤ yearFromDay n := by
  have hspec := yearFromDay_spec n
  by_contra hlt
  have := dayFromYear_le (show yearFromDay n + 1 ≤ y by omega)
  omega

theorem yearFromDay_lt {y n : Int} (h : n < dayFromYear y) : yearFromDay n < y := by
  have hspec := yearFromDay_spec n
  by_contra hle
  have := dayFromYear_le (show y ≤ yearFromDay n by omega)
  omega

theorem utcDay_of_year {y m d : Int} (h : 100 ≤ y) : utcDay y m d = makeDay y m d := by
  unfold utcDay
  rw [if_neg (by omega)]

theorem shownYear_of_pos {y : Int} (h : 1 ≤ y) : shownYear y = y := if_pos h

/-! ## The offset -/

/-- The zone can be read back at `t`: instant and clock are dates, and the year has three digits or
more. -/
structure Readable (zone : Zone) (t : Int) : Prop where
  date  : t ≤ MAX_DATE
  clock : zone.clock t ≤ MAX_DATE
  year  : 100 ≤ yearFromDay (zone.clock t / DAY_MS)

instance (zone : Zone) (t : Int) : Decidable (Readable zone t) :=
  decidable_of_iff (t ≤ MAX_DATE ∧ zone.clock t ≤ MAX_DATE ∧
    100 ≤ yearFromDay (zone.clock t / DAY_MS)) ⟨fun h => ⟨h.1, h.2.1, h.2.2⟩,
      fun h => ⟨h.date, h.clock, h.year⟩⟩

section Offset

variable {zone : Zone} {t : Int}

theorem clock_fields {clock : Int} (hminutes : clock % 60000 = 0) :
    clock / DAY_MS * DAY_MS + timeOf (clock % DAY_MS / HOUR_MS) (clock % HOUR_MS / MINUTE_MS)
      (clock % MINUTE_MS / SECOND_MS) = clock := by
  simp only [timeOf, DAY_MS, HOUR_MS, MINUTE_MS, SECOND_MS]
  omega

/-- `Date.UTC` of what the zone shows, whatever the year. -/
theorem zonedOffsetMs_eq (hminutes : zone.clock t % 60000 = 0) (hdate : isDate t = true) :
    zonedOffsetMs t zone =
      let day := utcDay (shownYear (yearFromDay (zone.clock t / DAY_MS)))
        (monthFromDay (zone.clock t / DAY_MS)) (dateFromDay (zone.clock t / DAY_MS))
      let asUtc := (day - zone.clock t / DAY_MS) * DAY_MS + zone.clock t
      if isDate asUtc then some (asUtc - t) else none := by
  have hfields := clock_fields hminutes
  unfold zonedOffsetMs zonedWallClockParts
  rw [if_pos hdate]
  simp only [bind, Option.bind, partsOfClock, dateUTC, Int.add_sub_cancel]
  generalize hday : utcDay (shownYear (yearFromDay (zone.clock t / DAY_MS)))
    (monthFromDay (zone.clock t / DAY_MS)) (dateFromDay (zone.clock t / DAY_MS)) = day
  have hsum : day * DAY_MS + timeOf (zone.clock t % DAY_MS / HOUR_MS)
      (zone.clock t % HOUR_MS / MINUTE_MS) (zone.clock t % MINUTE_MS / SECOND_MS) =
      (day - zone.clock t / DAY_MS) * DAY_MS + zone.clock t := by
    rw [Int.sub_mul]
    omega
  rw [hsum]
  cases isDate ((day - zone.clock t / DAY_MS) * DAY_MS + zone.clock t) <;> rfl

theorem clock_minutes (zone : Zone) (hminutes : t % 60000 = 0) : zone.clock t % 60000 = 0 := by
  have hoffset := zone.offset_minutes t
  unfold Zone.clock
  omega

theorem clock_bounds (zone : Zone) (t : Int) :
    t - 57600000 ≤ zone.clock t ∧ zone.clock t ≤ t + 57600000 := by
  have hbounds := zone.offset_bounded t
  unfold Zone.clock
  omega

theorem isDate_iff : isDate t = true ↔ -MAX_DATE ≤ t ∧ t ≤ MAX_DATE := by
  rw [isDate, Bool.and_eq_true, decide_eq_true_iff, decide_eq_true_iff]

theorem dayFromYear_100 : dayFromYear 100 = -683003 := by decide

/-- From the year 100 on, the offset is the zone's as long as the clock shows a date. -/
theorem zonedOffsetMs_of_year (hminutes : t % 60000 = 0) (hdate : isDate t = true)
    (hyear : 100 ≤ yearFromDay (zone.clock t / DAY_MS)) :
    zonedOffsetMs t zone = if zone.clock t ≤ MAX_DATE then some (zone.offset t) else none := by
  have hday := makeDay_fields (zone.clock t / DAY_MS)
  have hspec := yearFromDay_spec (zone.clock t / DAY_MS)
  have hstart := dayFromYear_le hyear
  rw [dayFromYear_100] at hstart
  rw [zonedOffsetMs_eq (clock_minutes zone hminutes) hdate, shownYear_of_pos (by omega),
    utcDay_of_year hyear, hday]
  simp only [Int.sub_self, Int.zero_mul, Int.zero_add]
  have hlow : -MAX_DATE ≤ zone.clock t := by
    unfold DAY_MS at *
    unfold MAX_DATE
    omega
  by_cases hhigh : zone.clock t ≤ MAX_DATE
  · rw [if_pos (isDate_iff.2 ⟨hlow, hhigh⟩), if_pos hhigh]
    unfold Zone.clock
    rw [add_sub_cancel_left]
  · rw [if_neg fun h => hhigh (isDate_iff.1 h).2, if_neg hhigh]

theorem zonedOffsetMs_of_readable (hminutes : t % 60000 = 0) (h : Readable zone t) :
    zonedOffsetMs t zone = some (zone.offset t) := by
  have hspec := yearFromDay_spec (zone.clock t / DAY_MS)
  have hstart := dayFromYear_le h.year
  have hclock := clock_bounds zone t
  rw [dayFromYear_100] at hstart
  rw [zonedOffsetMs_of_year hminutes (isDate_iff.2 ⟨?_, h.date⟩) h.year, if_pos h.clock]
  unfold DAY_MS at *
  unfold MAX_DATE
  omega

/-- The days from a date in the year 99 to the one in 1999. -/
def CENTURY_DAYS : Int := 693960

/-- In the year 99 the fields are read back as those of 1999. -/
theorem zonedOffsetMs_of_year99 (hminutes : t % 60000 = 0) (hdate : isDate t = true)
    (hyear : yearFromDay (zone.clock t / DAY_MS) = 99) :
    zonedOffsetMs t zone = some (CENTURY_DAYS * DAY_MS + zone.offset t) := by
  have hday := makeDay_fields (zone.clock t / DAY_MS)
  obtain ⟨hmonth, -, -⟩ := monthFromDay_spec (zone.clock t / DAY_MS)
  have hspec := yearFromDay_spec (zone.clock t / DAY_MS)
  rw [zonedOffsetMs_eq (clock_minutes zone hminutes) hdate, hyear]
  rw [hyear] at hday hspec
  have hleap : isLeap 1999 = isLeap 99 := by decide
  have hcentury : utcDay (shownYear 99) (monthFromDay (zone.clock t / DAY_MS))
      (dateFromDay (zone.clock t / DAY_MS)) = zone.clock t / DAY_MS + CENTURY_DAYS := by
    show makeDay 1999 _ _ = _
    rw [makeDay_eq hmonth] at hday ⊢
    rw [hleap]
    have h99 : dayFromYear 99 = -683368 := by decide
    have h1999 : dayFromYear 1999 = 10592 := by decide
    unfold CENTURY_DAYS
    omega
  rw [hcentury]
  simp only [add_sub_cancel_left]
  have hnext : dayFromYear (99 + 1) = -683003 := by decide
  have h99 : dayFromYear 99 = -683368 := by decide
  rw [hnext, h99] at hspec
  rw [if_pos (isDate_iff.2 ?_)]
  · unfold Zone.clock
    exact congrArg some (by omega)
  · unfold DAY_MS at *
    unfold CENTURY_DAYS MAX_DATE
    omega

end Offset

/-! ## Local times -/

/-- What the clock shows at the beginning of a minute. -/
def localTime (year month day hour minute : Int) : Int :=
  makeDay year (month - 1) day * DAY_MS + timeOf hour minute 0

/-- A minute that the calendar has. -/
structure LocalMinute (year month day hour minute : Int) : Prop where
  date   : InMonth year (month - 1) day
  hour   : 0 ≤ hour ∧ hour ≤ 23
  minute : 0 ≤ minute ∧ minute ≤ 59

/-- `r` shows the local time, and is the beginning of the minute. -/
structure ResolvesTo (zone : Zone) (year month day hour minute r : Int) : Prop where
  result  : zonedWallClockToEpoch zone year month day hour minute = some r
  parts   : ∃ parts, zonedWallClockParts r zone = some parts ∧ parts.year = year ∧
    parts.month = month ∧ parts.day = day ∧ parts.hour = hour ∧ parts.minute = minute ∧
    parts.second = 0
  instant : zone.clock r = localTime year month day hour minute

/-- The year has three digits or more, the zone is readable at both probes, and the instant they
lead to is a date. -/
structure Resolvable (zone : Zone) (year month day hour minute : Int) : Prop where
  digits  : 100 ≤ year
  guess   : Readable zone (localTime year month day hour minute)
  refined : Readable zone (localTime year month day hour minute
    - zone.offset (localTime year month day hour minute))
  date    : localTime year month day hour minute - zone.offset
    (localTime year month day hour minute
      - zone.offset (localTime year month day hour minute)) ≤ MAX_DATE

section LocalTime

variable {zone : Zone} {year month day hour minute r : Int}

theorem localTime_eq : localTime year month day hour minute =
    TaskScheduler.dateUTC (makeDay year (month - 1) day) hour minute 0 := by
  simp only [localTime, timeOf, TaskScheduler.dateUTC]
  omega

theorem localTime_minutes : localTime year month day hour minute % 60000 = 0 := by
  rw [localTime_eq]
  exact TaskScheduler.dateUTC_minutes ..

theorem localTime_day (h : LocalMinute year month day hour minute) :
    localTime year month day hour minute / DAY_MS = makeDay year (month - 1) day := by
  have hhour := h.hour
  have hminute := h.minute
  simp only [localTime, timeOf, DAY_MS, HOUR_MS, MINUTE_MS, SECOND_MS]
  omega

theorem yearFromDay_localTime (h : LocalMinute year month day hour minute) :
    yearFromDay (localTime year month day hour minute / DAY_MS) = year := by
  rw [localTime_day h, yearFromDay_makeDay h.date]

/-- The fields of a clock that shows the minute. -/
theorem partsOfClock_localTime (h : LocalMinute year month day hour minute) (hyear : 1 ≤ year) :
    partsOfClock (localTime year month day hour minute) =
      ⟨year, month, day, hour, minute, 0, weekday (makeDay year (month - 1) day)⟩ := by
  have hhour := h.hour
  have hminute := h.minute
  have htime : localTime year month day hour minute =
      makeDay year (month - 1) day * 86400000 + (hour * 3600000 + minute * 60000) := by
    simp only [localTime, timeOf, DAY_MS, HOUR_MS, MINUTE_MS, SECOND_MS]
    omega
  unfold partsOfClock
  rw [localTime_day h, yearFromDay_makeDay h.date, monthFromDay_makeDay h.date,
    dateFromDay_makeDay h.date, shownYear_of_pos hyear]
  simp only [ZonedWallClockParts.mk.injEq, htime, DAY_MS, HOUR_MS, MINUTE_MS, SECOND_MS]
  refine ⟨trivial, by omega, trivial, by omega, by omega, by omega, trivial⟩

theorem shownYear_pos (y : Int) : 1 ≤ shownYear y := by
  unfold shownYear
  split <;> omega

theorem shownYear_of_before {y n : Int} (hy : y ≤ 0) (h : n < dayFromYear y) :
    1 - y < shownYear (yearFromDay n) := by
  have hlt := yearFromDay_lt h
  unfold shownYear
  split <;> omega

/-- The steps of the resolution; in either branch the refined offset decides. -/
theorem zonedWallClockToEpoch_eq_some :
    zonedWallClockToEpoch zone year month day hour minute = some r ↔
      ∃ asUtc offset refined, dateUTC year (month - 1) day hour minute 0 = some asUtc ∧
        zonedOffsetMs asUtc zone = some offset ∧
        zonedOffsetMs (asUtc - offset) zone = some refined ∧ r = asUtc - refined := by
  unfold zonedWallClockToEpoch
  simp only [Option.bind_eq_bind, Option.bind_eq_some_iff, pure, Option.some.injEq]
  constructor
  · rintro ⟨asUtc, hutc, offset, hoffset, refined, hrefined, hr⟩
    refine ⟨asUtc, offset, refined, hutc, hoffset, hrefined, ?_⟩
    split at hr
    · rename_i hsame
      rw [← hr, hsame]
    · exact hr.symm
  · rintro ⟨asUtc, offset, refined, hutc, hoffset, hrefined, hr⟩
    refine ⟨asUtc, hutc, offset, hoffset, refined, hrefined, ?_⟩
    split
    · rename_i hsame
      rw [hr, hsame]
    · exact hr.symm

theorem dateUTC_eq_some {t : Int} (h : dateUTC year month day hour minute 0 = some t) :
    t = utcDay year month day * DAY_MS + timeOf hour minute 0 ∧ isDate t = true := by
  unfold dateUTC at h
  dsimp only at h
  split at h
  · rename_i hin
    obtain rfl := Option.some.inj h
    exact ⟨rfl, hin⟩
  · cases h

theorem isDate_of_offset {t offset : Int} (h : zonedOffsetMs t zone = some offset) :
    isDate t = true := by
  by_contra hout
  unfold zonedOffsetMs zonedWallClockParts at h
  rw [if_neg hout] at h
  cases h

theorem readable_of_offset {t offset : Int} (hminutes : t % 60000 = 0)
    (h : zonedOffsetMs t zone = some offset)
    (hyear : 100 ≤ yearFromDay (zone.clock t / DAY_MS)) :
    Readable zone t ∧ offset = zone.offset t := by
  have hdate := isDate_of_offset h
  rw [zonedOffsetMs_of_year hminutes hdate hyear] at h
  split at h
  · rename_i hclock
    exact ⟨⟨(isDate_iff.1 hdate).2, hclock, hyear⟩, (Option.some.inj h).symm⟩
  · cases h

theorem yearFromDay_of_late {t : Int} {y : Int} (h : dayFromYear y * DAY_MS ≤ t) :
    y ≤ yearFromDay (t / DAY_MS) := by
  refine le_yearFromDay ?_
  unfold DAY_MS at *
  omega

/-- **Two readable probes find the instant.** -/
theorem zonedWallClockToEpoch_of_readable (h : LocalMinute year month day hour minute)
    (hresolvable : Resolvable zone year month day hour minute)
    (hoccurs : ∃ t, zone.clock t = localTime year month day hour minute) :
    ResolvesTo zone year month day hour minute (localTime year month day hour minute
      - zone.offset (localTime year month day hour minute
        - zone.offset (localTime year month day hour minute))) := by
  have hyear := hresolvable.digits
  have hguess := hresolvable.guess
  have hrefined := hresolvable.refined
  have hinRange := hresolvable.date
  have hminutes : localTime year month day hour minute % 60000 = 0 := localTime_minutes
  have hlate : dayFromYear 100 * DAY_MS ≤ localTime year month day hour minute := by
    have hstart := dayFromYear_le hyear
    have hday := localTime_day h
    have hmake := (makeDay_bounds h.date).1
    unfold DAY_MS at *
    omega
  rw [dayFromYear_100] at hlate
  have hutc : dateUTC year (month - 1) day hour minute 0 =
      some (localTime year month day hour minute) := by
    unfold dateUTC
    dsimp only
    rw [utcDay_of_year hyear]
    exact if_pos (isDate_iff.2 ⟨by unfold DAY_MS at hlate; unfold MAX_DATE; omega, hguess.date⟩)
  have hinstant : zone.clock (localTime year month day hour minute
      - zone.offset (localTime year month day hour minute
        - zone.offset (localTime year month day hour minute))) =
      localTime year month day hour minute := by
    rw [localTime_eq] at hoccurs ⊢
    have hclock := TaskScheduler.clock_zonedWallClockToEpoch hoccurs
    rwa [TaskScheduler.zonedWallClockToEpoch_eq] at hclock
  generalize hL : localTime year month day hour minute = L at *
  have hoffset := zonedOffsetMs_of_readable hminutes hguess
  have haligned : (L - zone.offset L) % 60000 = 0 := by
    have := zone.offset_minutes L
    omega
  have hoffset' := zonedOffsetMs_of_readable haligned hrefined
  refine ⟨zonedWallClockToEpoch_eq_some.2 ⟨L, _, _, hutc, hoffset, hoffset', rfl⟩, ?_,
    hinstant.trans hL.symm⟩
  have hbounds := zone.offset_bounded (L - zone.offset L)
  have hdate : isDate (L - zone.offset (L - zone.offset L)) = true :=
    isDate_iff.2 ⟨by unfold DAY_MS at hlate; unfold MAX_DATE; omega, hinRange⟩
  refine ⟨_, if_pos hdate, ?_⟩
  rw [hinstant, ← hL, partsOfClock_localTime h (by omega)]
  exact ⟨rfl, rfl, rfl, rfl, rfl, rfl⟩

/-- The year an instant shows is the one of its fields. -/
theorem ResolvesTo.shows (h : ResolvesTo zone year month day hour minute r) :
    isDate r = true ∧ shownYear (yearFromDay (zone.clock r / DAY_MS)) = year := by
  obtain ⟨parts, hparts, hyear, -⟩ := h.parts
  unfold zonedWallClockParts at hparts
  split at hparts
  · rename_i hdate
    obtain rfl := Option.some.inj hparts
    exact ⟨hdate, hyear⟩
  · cases hparts

theorem timeOf_nonneg (h : LocalMinute year month day hour minute) :
    0 ≤ timeOf hour minute 0 ∧ timeOf hour minute 0 % 60000 = 0 := by
  have hhour := h.hour
  have hminute := h.minute
  simp only [timeOf, HOUR_MS, MINUTE_MS, SECOND_MS]
  omega

/-- A year of two digits is resolved in the twentieth century. -/
theorem not_resolves_of_digits (h : LocalMinute year month day hour minute) (hpos : 1 ≤ year)
    (hdigits : year ≤ 99) : ¬ ResolvesTo zone year month day hour minute r := by
  intro hresolves
  obtain ⟨asUtc, offset, refined, hutc, hoffset, hrefined, rfl⟩ :=
    zonedWallClockToEpoch_eq_some.1 hresolves.result
  obtain ⟨htime, hminutes⟩ := timeOf_nonneg h
  obtain ⟨heq, -⟩ := dateUTC_eq_some hutc
  have hmake : dayFromYear (1900 + year) ≤ makeDay (1900 + year) (month - 1) day :=
    dayFromYear_le_makeDay h.date.1 h.date.2.1
  have hstart := dayFromYear_le (show 1901 ≤ 1900 + year by omega)
  have h1901 : dayFromYear 1901 = -25202 := by decide
  have h1900 : dayFromYear 1900 = -25567 := by decide
  rw [utcDay, if_pos (by omega)] at heq
  have hlate : -25202 * DAY_MS ≤ asUtc := by
    unfold DAY_MS at *
    omega
  have haligned : asUtc % 60000 = 0 := by
    unfold DAY_MS at *
    omega
  -- both probes fall into the twentieth century, where the offset is the zone's
  have hclock := clock_bounds zone asUtc
  have hyear := yearFromDay_of_late (y := 1900) (t := zone.clock asUtc)
    (by rw [h1900]; unfold DAY_MS at *; omega)
  obtain ⟨-, rfl⟩ := readable_of_offset haligned hoffset (by omega)
  have hminutes' := zone.offset_minutes asUtc
  have hbounds := zone.offset_bounded asUtc
  have hclock' := clock_bounds zone (asUtc - zone.offset asUtc)
  have hyear' := yearFromDay_of_late (y := 1900) (t := zone.clock (asUtc - zone.offset asUtc))
    (by rw [h1900]; unfold DAY_MS at *; omega)
  obtain ⟨-, rfl⟩ := readable_of_offset (by omega) hrefined (by omega)
  have hbounds' := zone.offset_bounded (asUtc - zone.offset asUtc)
  have hclock'' := clock_bounds zone (asUtc - zone.offset (asUtc - zone.offset asUtc))
  have hyear'' := yearFromDay_of_late (y := 1900)
    (t := zone.clock (asUtc - zone.offset (asUtc - zone.offset asUtc)))
    (by rw [h1900]; unfold DAY_MS at *; omega)
  have hshown := hresolves.shows.2
  rw [shownYear_of_pos (by omega)] at hshown
  omega

theorem digits_of_resolves (h : LocalMinute year month day hour minute)
    (hresolves : ResolvesTo zone year month day hour minute r) : 100 ≤ year := by
  have hpos := shownYear_pos (yearFromDay (zone.clock r / DAY_MS))
  rw [hresolves.shows.2] at hpos
  by_contra hdigits
  exact not_resolves_of_digits h hpos (by omega) hresolves

/-- The clock shows the year 99 only when the minute is one of the year 100. -/
theorem year_le_of_early (h : LocalMinute year month day hour minute)
    (hearly : localTime year month day hour minute < -683000 * DAY_MS) : year ≤ 100 := by
  have hyear := yearFromDay_localTime h
  have h101 : dayFromYear 101 = -682638 := by decide
  have hlt : localTime year month day hour minute / DAY_MS < dayFromYear 101 := by
    rw [h101]
    unfold DAY_MS at *
    omega
  have := yearFromDay_lt hlt
  omega

/-- **A minute that resolves is resolvable.** A probe that shows the year 99 is read back as 1999,
and the instant it leads to shows a year before 1. -/
theorem resolvable_of_resolves (h : LocalMinute year month day hour minute)
    (hresolves : ResolvesTo zone year month day hour minute r) :
    Resolvable zone year month day hour minute := by
  have hdigits := digits_of_resolves h hresolves
  obtain ⟨hdate, hshown⟩ := hresolves.shows
  obtain ⟨asUtc, offset, refined, hutc, hoffset, hrefined, rfl⟩ :=
    zonedWallClockToEpoch_eq_some.1 hresolves.result
  obtain ⟨heq, hin⟩ := dateUTC_eq_some hutc
  have hL : localTime year month day hour minute = asUtc := by
    rw [heq, utcDay_of_year hdigits]
    rfl
  have hminutes : asUtc % 60000 = 0 := hL ▸ localTime_minutes
  have hstart := dayFromYear_le hdigits
  have hmake := (makeDay_bounds h.date).1
  have hday := localTime_day h
  have h99 : dayFromYear 99 = -683368 := by decide
  have hearly := year_le_of_early h
  rw [dayFromYear_100] at hstart
  rw [hL] at hday hearly
  have hclock := clock_bounds zone asUtc
  have hspec := yearFromDay_spec (zone.clock asUtc / DAY_MS)
  have hlate := yearFromDay_of_late (y := 99) (t := zone.clock asUtc)
    (by rw [h99]; unfold DAY_MS at *; omega)
  by_cases hyear : 100 ≤ yearFromDay (zone.clock asUtc / DAY_MS)
  · obtain ⟨hreadable, rfl⟩ := readable_of_offset hminutes hoffset hyear
    have hminutes' := zone.offset_minutes asUtc
    have hbounds := zone.offset_bounded asUtc
    have hclock' := clock_bounds zone (asUtc - zone.offset asUtc)
    have hlate' := yearFromDay_of_late (y := 99) (t := zone.clock (asUtc - zone.offset asUtc))
      (by rw [h99]; unfold DAY_MS at *; omega)
    by_cases hyear' : 100 ≤ yearFromDay (zone.clock (asUtc - zone.offset asUtc) / DAY_MS)
    · obtain ⟨hreadable', rfl⟩ := readable_of_offset (by omega) hrefined hyear'
      refine ⟨hdigits, ?_, ?_, ?_⟩
      · rwa [hL]
      · rwa [hL]
      · rw [hL]
        exact (isDate_iff.1 hdate).2
    · exfalso
      have hyear99 : yearFromDay (zone.clock (asUtc - zone.offset asUtc) / DAY_MS) = 99 := by omega
      rw [zonedOffsetMs_of_year99 (by omega) (isDate_of_offset hrefined) hyear99] at hrefined
      obtain rfl := Option.some.inj hrefined
      have hspec' := yearFromDay_spec (zone.clock (asUtc - zone.offset asUtc) / DAY_MS)
      have h100 : dayFromYear (99 + 1) = -683003 := by decide
      rw [hyear99, h100] at hspec'
      have hbounds' := zone.offset_bounded (asUtc - zone.offset asUtc)
      have hle := hearly (by unfold DAY_MS at *; omega)
      have hclockR := clock_bounds zone
        (asUtc - (CENTURY_DAYS * DAY_MS + zone.offset (asUtc - zone.offset asUtc)))
      have h0 : dayFromYear (-1000) = -1084770 := by decide
      have hbefore := shownYear_of_before (y := -1000)
        (n := zone.clock
          (asUtc - (CENTURY_DAYS * DAY_MS + zone.offset (asUtc - zone.offset asUtc))) / DAY_MS)
        (by omega) (by rw [h0]; unfold CENTURY_DAYS at *; unfold DAY_MS at *; omega)
      omega
  · exfalso
    have hyear99 : yearFromDay (zone.clock asUtc / DAY_MS) = 99 := by omega
    rw [zonedOffsetMs_of_year99 hminutes (isDate_of_offset hoffset) hyear99] at hoffset
    obtain rfl := Option.some.inj hoffset
    have h100 : dayFromYear (99 + 1) = -683003 := by decide
    rw [hyear99, h100] at hspec
    have hle := hearly (by unfold DAY_MS at *; omega)
    have hbounds := zone.offset_bounded asUtc
    have hminutes' := zone.offset_minutes asUtc
    obtain ⟨probe, hprobe⟩ :
        ∃ probe, probe = asUtc - (CENTURY_DAYS * DAY_MS + zone.offset asUtc) := ⟨_, rfl⟩
    rw [← hprobe] at hrefined
    have hclock' := clock_bounds zone probe
    have haligned : probe % 60000 = 0 := by
      unfold CENTURY_DAYS DAY_MS at *
      omega
    rw [zonedOffsetMs_eq (clock_minutes zone haligned) (isDate_of_offset hrefined)] at hrefined
    dsimp only at hrefined
    -- the guess lies before the year 1, and its year of the era is read as one of our own
    have h1799 : dayFromYear (-1799) = -1376599 := by decide
    have hbefore := shownYear_of_before (y := -1799) (n := zone.clock probe / DAY_MS) (by omega)
      (by rw [h1799]; unfold CENTURY_DAYS at *; unfold DAY_MS at *; omega)
    obtain ⟨hmonth, -, -⟩ := monthFromDay_spec (zone.clock probe / DAY_MS)
    have hmade := dayFromYear_le_makeDay
      (y := shownYear (yearFromDay (zone.clock probe / DAY_MS))) hmonth
      (dateFromDay_pos (zone.clock probe / DAY_MS))
    have h1800 := dayFromYear_le
      (show 1800 ≤ shownYear (yearFromDay (zone.clock probe / DAY_MS)) by omega)
    have h1800' : dayFromYear 1800 = -62091 := by decide
    rw [utcDay_of_year (by omega)] at hrefined
    generalize makeDay (shownYear (yearFromDay (zone.clock probe / DAY_MS)))
      (monthFromDay (zone.clock probe / DAY_MS)) (dateFromDay (zone.clock probe / DAY_MS)) = day
      at hrefined hmade
    split at hrefined
    · obtain rfl := Option.some.inj hrefined
      have hclockR := clock_bounds zone
        (asUtc - ((day - zone.clock probe / DAY_MS) * DAY_MS + zone.clock probe - probe))
      have h0 : dayFromYear (-1000) = -1084770 := by decide
      have hbeforeR := shownYear_of_before (y := -1000)
        (n := zone.clock
          (asUtc - ((day - zone.clock probe / DAY_MS) * DAY_MS + zone.clock probe - probe)) / DAY_MS)
        (by omega) (by rw [h0]; unfold CENTURY_DAYS at *; unfold DAY_MS at *; omega)
      omega
    · cases hrefined

/-- **A minute resolves to an instant that shows it exactly when the zone shows its beginning and
both probes are readable**, from the year 100 on and within the range of dates. Where only one
instant shows the beginning, it is that one. -/
theorem zonedWallClockToEpoch_iff (h : LocalMinute year month day hour minute) :
    (∃ r, ResolvesTo zone year month day hour minute r ∧
      ∀ t, (∀ s, zone.clock s = localTime year month day hour minute ↔ s = t) → r = t) ↔
      (∃ t, zone.clock t = localTime year month day hour minute) ∧
        Resolvable zone year month day hour minute := by
  constructor
  · rintro ⟨r, hr, -⟩
    exact ⟨⟨r, hr.instant⟩, resolvable_of_resolves h hr⟩
  · rintro ⟨hoccurs, hresolvable⟩
    have hr := zonedWallClockToEpoch_of_readable h hresolvable hoccurs
    exact ⟨_, hr, fun t honly => (honly _).1 hr.instant⟩

end LocalTime

/-- Noon on the day after the clock was put forward resolves. -/
theorem zonedWallClockToEpoch_noon :
    ∃ r, ResolvesTo TaskScheduler.easternSpring2026 2026 3 9 12 0 r := by
  have hdate : LocalMinute 2026 3 9 12 0 := ⟨by decide, by decide, by decide⟩
  have hresolves := @zonedWallClockToEpoch_iff TaskScheduler.easternSpring2026 _ _ _ _ _ hdate
  obtain ⟨r, hr, -⟩ := hresolves.2 ⟨⟨1773072000000, by decide +kernel⟩, by decide, by decide +kernel, by decide +kernel,
      by decide +kernel⟩
  exact ⟨r, hr⟩

/-- The first of January of the year 50 occurs, and resolves to that of 1950. -/
theorem year_50_resolves_to_1950 :
    (∃ t, isDate t = true ∧ Zone.utc.clock t = localTime 50 1 1 0 0) ∧
      zonedWallClockToEpoch .utc 50 1 1 0 0 = some (-631152000000) ∧
      ¬ ∃ r, ResolvesTo .utc 50 1 1 0 0 r := by
  refine ⟨⟨-60589296000000, by decide +kernel, by decide +kernel⟩, by decide +kernel, ?_⟩
  rintro ⟨r, hr⟩
  exact not_resolves_of_digits ⟨by decide, by decide, by decide⟩ (by decide) (by decide) hr

end Psfn.Time
