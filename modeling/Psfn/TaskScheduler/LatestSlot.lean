import Mathlib
import Psfn.TaskScheduler.WallClock

/-!
# The latest slot that has passed

`getCurrentSlotStart` goes back by whole days of 24 hours, or by one physical hour, and reads the
clock again. That finds the latest slot unless the clock was put forward or back on the way.

* `zonedWallClockToEpoch_lt` — the slots of a time of day that exists follow the dates;
* `currentSlot_daily`, `currentSlot_weekly`, `currentSlot_hourly` — when each cadence finds it;
* `currentSlot_latest` — the three together;
* `currentSlot_monday` — on the morning after the clock was put forward, a daily slot is found that
  is two days old.
-/

namespace Psfn.TaskScheduler

/-! ## Slots -/

/-- The clock shows the time at some instant. -/
def WallTimeExists (zone : Zone) (date hour minute : Int) : Prop :=
  ∃ t, zone.clock t = dateUTC date hour minute 0

/-- The slots of a cadence. -/
def IsSlot (zone : Zone) : WallClockCadence → Int → Prop
  | .hourly minute _, t =>
    (zonedWallClockParts t zone).minute = minute ∧ (zonedWallClockParts t zone).second = 0 ∧
      t % SECOND_MS = 0
  | .daily hour minute _, t => ∃ date, t = zonedWallClockToEpoch zone date hour minute
  | .weekly dayOfWeek hour minute _, t =>
    ∃ date, weekdayOf date = dayOfWeek ∧ t = zonedWallClockToEpoch zone date hour minute

/-- The slots of a cadence are times that the clock shows. -/
def SlotsExist (zone : Zone) : WallClockCadence → Prop
  | .hourly _ _ => True
  | .daily hour minute _ => ∀ date, WallTimeExists zone date hour minute
  | .weekly dayOfWeek hour minute _ =>
    ∀ date, weekdayOf date = dayOfWeek → WallTimeExists zone date hour minute

/-- The greatest slot that is not after `now`. -/
def IsLatestSlot (zone : Zone) (cadence : WallClockCadence) (now slot : Int) : Prop :=
  IsSlot zone cadence slot ∧ slot ≤ now ∧ ∀ t, IsSlot zone cadence t → t ≤ now → t ≤ slot

/-! ## A wall-clock time as an instant -/

section WallTime

variable (zone : Zone) (date hour minute : Int)

theorem dateUTC_minutes : dateUTC date hour minute 0 % 60000 = 0 := by
  simp only [dateUTC, DAY_MS, HOUR_MS, MINUTE_MS, SECOND_MS]
  omega

theorem dateUTC_next : dateUTC (date + 1) hour minute 0 = dateUTC date hour minute 0 + DAY_MS := by
  simp only [dateUTC, DAY_MS]
  omega

/-- The first guess takes the offset that holds when the time is read as UTC, the second the
offset that holds at the first guess. -/
theorem zonedWallClockToEpoch_eq :
    zonedWallClockToEpoch zone date hour minute =
      dateUTC date hour minute 0 -
        zone.offset (dateUTC date hour minute 0 - zone.offset (dateUTC date hour minute 0)) := by
  have hutc := dateUTC_minutes date hour minute
  have hoffset := zone.offset_minutes (dateUTC date hour minute 0)
  simp only [zonedWallClockToEpoch, zonedOffsetMs_of_minute zone hutc]
  rw [zonedOffsetMs_of_minute zone (by omega)]
  split
  · rename_i heq
    rw [heq]
  · rfl

theorem zonedWallClockToEpoch_bounds :
    dateUTC date hour minute 0 - 57600000 ≤ zonedWallClockToEpoch zone date hour minute ∧
      zonedWallClockToEpoch zone date hour minute ≤ dateUTC date hour minute 0 + 57600000 := by
  have hbound := zone.offset_bounded
    (dateUTC date hour minute 0 - zone.offset (dateUTC date hour minute 0))
  rw [zonedWallClockToEpoch_eq]
  omega

variable {zone date hour minute}

/-- At three instants within 48 hours the zone has two offsets at most. -/
theorem two_offsets (zone : Zone) (lo : Int) {a b c : Int} (ha : lo ≤ a ∧ a ≤ lo + 172800000)
    (hb : lo ≤ b ∧ b ≤ lo + 172800000) (hc : lo ≤ c ∧ c ≤ lo + 172800000) :
    zone.offset a = zone.offset b ∨ zone.offset b = zone.offset c ∨
      zone.offset a = zone.offset c := by
  rcases Int.le_total a b with hab | hab <;> rcases Int.le_total b c with hbc | hbc <;>
    rcases Int.le_total a c with hac | hac
  · rcases zone.one_change hab hbc (by omega) with h | h <;> simp [h]
  · rcases zone.one_change hab hbc (by omega) with h | h <;> simp [h]
  · rcases zone.one_change hac hbc (by omega) with h | h <;> simp [h]
  · rcases zone.one_change hac hab (by omega) with h | h <;> simp [h]
  · rcases zone.one_change hab hac (by omega) with h | h <;> simp [h]
  · rcases zone.one_change hbc hac (by omega) with h | h <;> simp [h]
  · rcases zone.one_change hbc hab (by omega) with h | h <;> simp [h]
  · rcases zone.one_change hbc hab (by omega) with h | h <;> simp [h]

/-- A time that the clock shows is shown at the instant that stands for it. -/
theorem clock_zonedWallClockToEpoch (h : WallTimeExists zone date hour minute) :
    zone.clock (zonedWallClockToEpoch zone date hour minute) = dateUTC date hour minute 0 := by
  obtain ⟨t, ht⟩ := h
  unfold Zone.clock at ht ⊢
  rw [zonedWallClockToEpoch_eq]
  generalize dateUTC date hour minute 0 = L at ht ⊢
  generalize hg : zone.offset L = g
  generalize hr : zone.offset (L - g) = r
  suffices hq : zone.offset (L - r) = r by omega
  have hbL := zone.offset_bounded L
  have hbt := zone.offset_bounded t
  -- the offset at the time read as UTC, at the first guess, and at an instant that shows the time
  rcases two_offsets zone (L - 57600000) (show _ ≤ L ∧ L ≤ _ by omega)
    (show _ ≤ L - g ∧ L - g ≤ _ by omega) (show _ ≤ t ∧ t ≤ _ by omega) with h | h | h
  · rw [hg, hr] at h
    rw [← h, hr, h]
  · rw [hr] at h
    have ht' : t = L - r := by omega
    rw [← ht', ← h]
  · rw [hg] at h
    have ht' : t = L - g := by omega
    rw [ht', hr] at h
    rw [← h, hr, h]

/-- **The slots of a time of day follow the dates.** The clock would have to be put back by a
whole day between two of them. -/
theorem zonedWallClockToEpoch_lt (h : WallTimeExists zone date hour minute)
    (h' : WallTimeExists zone (date + 1) hour minute) :
    zonedWallClockToEpoch zone date hour minute < zonedWallClockToEpoch zone (date + 1) hour minute := by
  have hclock := clock_zonedWallClockToEpoch h
  have hclock' := clock_zonedWallClockToEpoch h'
  have heq := zonedWallClockToEpoch_eq zone date hour minute
  have heq' := zonedWallClockToEpoch_eq zone (date + 1) hour minute
  rw [dateUTC_next] at hclock' heq'
  unfold Zone.clock at hclock hclock'
  unfold DAY_MS at hclock' heq'
  generalize zonedWallClockToEpoch zone date hour minute = t at *
  generalize zonedWallClockToEpoch zone (date + 1) hour minute = t' at *
  generalize dateUTC date hour minute 0 = L at *
  by_contra hle
  have hbt := zone.offset_bounded t
  have hbt' := zone.offset_bounded t'
  have hbL := zone.offset_bounded L
  -- the later slot would come first, with an offset a day larger
  have hlate : zone.offset t + 86400000 ≤ zone.offset t' := by omega
  have hL : zone.offset L = zone.offset t' := by
    rcases zone.one_change (a := L) (b := t') (c := t) (by omega) (by omega) (by omega) with h | h
    · exact h
    · omega
  have hguess : zone.offset (L - zone.offset L) = zone.offset t := by omega
  rcases zone.one_change (a := L - zone.offset L) (b := L) (c := t) (by omega) (by omega)
    (by omega) with h | h
  · omega
  · omega

end WallTime

/-! ## Daily -/

/-- The local calendar date of an instant. -/
def dateAt (zone : Zone) (t : Int) : Int := (zonedWallClockParts t zone).date

variable {now : Int} {active : Zone} {timezone : RecurringCadenceTimezone}

section Daily

variable {zone : Zone} {hour minute : Int}

theorem slots_strictMono (h : ∀ date, WallTimeExists zone date hour minute) :
    StrictMono fun date => zonedWallClockToEpoch zone date hour minute :=
  strictMono_int_of_lt_succ fun date => zonedWallClockToEpoch_lt (h date) (h (date + 1))

/-- When the clock read the day before yesterday 24 hours ago, yesterday's slot has passed. -/
theorem yesterday_passed (hday : hour * HOUR_MS + minute * MINUTE_MS < DAY_MS)
    (hexist : WallTimeExists zone (dateAt zone now - 1) hour minute)
    (hdate : dateAt zone (now - DAY_MS) ≤ dateAt zone now - 2) :
    zonedWallClockToEpoch zone (dateAt zone now - 1) hour minute ≤ now := by
  by_contra hlt
  have hclock := clock_zonedWallClockToEpoch hexist
  have heq := zonedWallClockToEpoch_eq zone (dateAt zone now - 1) hour minute
  have hL : dateUTC (dateAt zone now - 1) hour minute 0 < dateAt zone now * DAY_MS := by
    simp only [dateUTC, HOUR_MS, MINUTE_MS, DAY_MS] at hday ⊢
    omega
  generalize dateUTC (dateAt zone now - 1) hour minute 0 = L at *
  generalize zonedWallClockToEpoch zone (dateAt zone now - 1) hour minute = t at *
  simp only [dateAt, zonedWallClockParts, Zone.clock, DAY_MS] at hclock hdate hL
  have hbn := zone.offset_bounded now
  have hbt := zone.offset_bounded t
  have hbd := zone.offset_bounded (now - 86400000)
  have hforward : zone.offset (now - 86400000) < zone.offset now := by omega
  have hback : zone.offset t < zone.offset now := by omega
  -- the time read as UTC has the offset of `now`, so that the first guess lies before `now`
  have hguess : zone.offset L = zone.offset now := by
    rcases Int.le_total L now with hle | hle
    · rcases zone.one_change (a := L) (b := now) (c := t) hle (by omega) (by omega) with h | h
      · exact h
      · omega
    · rcases zone.one_change (a := now - 86400000) (b := now) (c := L) (by omega) hle
        (by omega) with h | h
      · omega
      · exact h.symm
  have hfirst : zone.offset (L - zone.offset L) = zone.offset t := by omega
  rcases zone.one_change (a := L - zone.offset L) (b := now) (c := t) (by omega) (by omega)
    (by omega) with h | h
  · omega
  · omega

/-- Tomorrow's slot is still to come, and today's has passed, or yesterday's has and the clock
read yesterday's date 24 hours ago. -/
def DailyInReach (zone : Zone) (now hour minute : Int) : Prop :=
  now < zonedWallClockToEpoch zone (dateAt zone now + 1) hour minute ∧
    (zonedWallClockToEpoch zone (dateAt zone now) hour minute ≤ now ∨
      zonedWallClockToEpoch zone (dateAt zone now - 1) hour minute ≤ now ∧
        dateAt zone (now - DAY_MS) = dateAt zone now - 1)

/-- Of slots that follow the dates, today's if it has passed and another date's otherwise. -/
theorem latest_of_dates {slot : Int → Int} (hmono : StrictMono slot) {today prior : Int}
    (hyesterday : prior ≤ today - 2 → slot (today - 1) ≤ now) {found : Int}
    (hfound : found = if slot today ≤ now then slot today else slot prior) :
    ((∃ date, found = slot date) ∧ found ≤ now ∧
        ∀ t, (∃ date, t = slot date) → t ≤ now → t ≤ found) ↔
      now < slot (today + 1) ∧ (slot today ≤ now ∨ slot (today - 1) ≤ now ∧ prior = today - 1) := by
  by_cases htoday : slot today ≤ now
  · rw [if_pos htoday] at hfound
    subst hfound
    constructor
    · rintro ⟨-, -, hgreatest⟩
      refine ⟨lt_of_not_ge fun hle => ?_, .inl htoday⟩
      have hnext := hgreatest _ ⟨today + 1, rfl⟩ hle
      exact absurd hnext (not_le_of_gt (hmono (by omega)))
    · rintro ⟨hnext, -⟩
      refine ⟨⟨today, rfl⟩, htoday, ?_⟩
      rintro t ⟨date, rfl⟩ ht
      have hdate : date < today + 1 := hmono.lt_iff_lt.1 (lt_of_le_of_lt ht hnext)
      exact hmono.monotone (by omega)
  · rw [if_neg htoday] at hfound
    subst hfound
    have hahead : now < slot today := lt_of_not_ge htoday
    constructor
    · rintro ⟨-, hle, hgreatest⟩
      have hprior : prior < today := hmono.lt_iff_lt.1 (lt_of_le_of_lt hle hahead)
      have hyes : prior = today - 1 := by
        by_contra hne
        have hpassed := hgreatest _ ⟨today - 1, rfl⟩ (hyesterday (by omega))
        exact absurd hpassed (not_le_of_gt (hmono (by omega)))
      exact ⟨lt_trans hahead (hmono (by omega)), .inr ⟨hyes ▸ hle, hyes⟩⟩
    · rintro ⟨-, hcase⟩
      obtain ⟨hle, rfl⟩ := hcase.resolve_left htoday
      refine ⟨⟨today - 1, rfl⟩, hle, ?_⟩
      rintro t ⟨date, rfl⟩ ht
      have hdate : date < today := hmono.lt_iff_lt.1 (lt_of_le_of_lt ht hahead)
      exact hmono.monotone (by omega)

theorem currentSlot_daily (hzone : (WallClockCadence.daily hour minute timezone).zone active = zone)
    (hday : hour * HOUR_MS + minute * MINUTE_MS < DAY_MS)
    (hexist : ∀ date, WallTimeExists zone date hour minute) :
    IsLatestSlot zone (.daily hour minute timezone) now
        (getCurrentSlotStart active now (.daily hour minute timezone)) ↔
      DailyInReach zone now hour minute := by
  have hslot : getCurrentSlotStart active now (.daily hour minute timezone) =
      if zonedWallClockToEpoch zone (dateAt zone now) hour minute ≤ now then
        zonedWallClockToEpoch zone (dateAt zone now) hour minute
      else zonedWallClockToEpoch zone (dateAt zone (now - DAY_MS)) hour minute := by
    subst hzone
    rfl
  exact latest_of_dates (slots_strictMono hexist)
    (yesterday_passed hday (hexist (dateAt zone now - 1))) hslot

end Daily

/-! ## Weekly -/

section Weekly

variable {zone : Zone} {hour minute : Int}

/-- Slots a week apart follow each other whatever the offsets. -/
theorem slots_of_weeks {date later : Int} (h : date + 7 ≤ later) :
    zonedWallClockToEpoch zone date hour minute < zonedWallClockToEpoch zone later hour minute := by
  have hdate := zonedWallClockToEpoch_bounds zone date hour minute
  have hlater := zonedWallClockToEpoch_bounds zone later hour minute
  simp only [dateUTC, DAY_MS, HOUR_MS, MINUTE_MS, SECOND_MS] at hdate hlater
  omega

/-- The last date of the configured weekday, up to today. -/
def configuredDate (zone : Zone) (now dayOfWeek : Int) : Int :=
  dateAt zone now - (weekdayOf (dateAt zone now) - dayOfWeek + 7) % 7

/-- The slot of the date that the clock read a number of days of 24 hours ago. -/
def slotOfDaysAgo (zone : Zone) (now days hour minute : Int) : Int :=
  zonedWallClockToEpoch zone (dateAt zone (now - days * DAY_MS)) hour minute

/-- Next week's slot is still to come, and the date found is the configured one: that of this
week when its slot has passed, else that of last week. -/
def WeeklyInReach (zone : Zone) (now dayOfWeek hour minute : Int) : Prop :=
  let daysSinceSlot := (weekdayOf (dateAt zone now) - dayOfWeek + 7) % 7
  let date := configuredDate zone now dayOfWeek
  let slot := slotOfDaysAgo zone now daysSinceSlot hour minute
  now < zonedWallClockToEpoch zone (date + 7) hour minute ∧
    (slot ≤ now ∧ slot = zonedWallClockToEpoch zone date hour minute ∨
      now < slot ∧ now < zonedWallClockToEpoch zone date hour minute ∧
        zonedWallClockToEpoch zone (date - 7) hour minute ≤ now ∧
        slotOfDaysAgo zone now (daysSinceSlot + 7) hour minute =
          zonedWallClockToEpoch zone (date - 7) hour minute)

/-- The date read some days of 24 hours ago is that many dates back, give or take two. -/
theorem dateAt_daysAgo (zone : Zone) (now days : Int) :
    dateAt zone now - days - 2 ≤ dateAt zone (now - days * DAY_MS) ∧
      dateAt zone (now - days * DAY_MS) ≤ dateAt zone now - days + 2 := by
  have hnow := zone.offset_bounded now
  have hago := zone.offset_bounded (now - days * DAY_MS)
  simp only [dateAt, zonedWallClockParts, Zone.clock, DAY_MS] at *
  omega

/-- Of slots a week apart, that of the configured date if the one found has passed and that of
the week before otherwise. -/
theorem latest_of_weeks {slot : Int → Int} (hweeks : ∀ a b, a + 7 ≤ b → slot a < slot b)
    {date found prior answer dayOfWeek : Int} (hdate : weekdayOf date = dayOfWeek)
    (hfound : date - 2 ≤ found ∧ found ≤ date + 2) (hprior : date - 9 ≤ prior ∧ prior ≤ date - 5)
    (hnear : ∀ a b, slot a = slot b → a ≤ b + 2)
    (hanswer : answer = if slot found ≤ now then slot found else slot prior) :
    ((∃ d, weekdayOf d = dayOfWeek ∧ answer = slot d) ∧ answer ≤ now ∧
        ∀ t, (∃ d, weekdayOf d = dayOfWeek ∧ t = slot d) → t ≤ now → t ≤ answer) ↔
      now < slot (date + 7) ∧
        (slot found ≤ now ∧ slot found = slot date ∨
          now < slot found ∧ now < slot date ∧ slot (date - 7) ≤ now ∧
            slot prior = slot (date - 7)) := by
  unfold weekdayOf at *
  by_cases hpassed : slot found ≤ now
  · rw [if_pos hpassed] at hanswer
    subst hanswer
    constructor
    · rintro ⟨⟨d, hd, heq⟩, -, hgreatest⟩
      have hnear1 := hnear _ _ heq
      have hnear2 := hnear _ _ heq.symm
      have hsame : d = date := by omega
      rw [hsame] at heq
      refine ⟨lt_of_not_ge fun hle => ?_, .inl ⟨hpassed, heq⟩⟩
      have hlater := hgreatest _ ⟨date + 7, by omega, rfl⟩ hle
      rw [heq] at hlater
      exact absurd hlater (not_le_of_gt (hweeks _ _ (Int.le_refl _)))
    · rintro ⟨hnext, hcase⟩
      obtain ⟨-, heq⟩ | ⟨hlt, -⟩ := hcase
      · refine ⟨⟨date, hdate, heq⟩, hpassed, ?_⟩
        rintro t ⟨d, hd, rfl⟩ ht
        rw [heq]
        rcases Int.lt_trichotomy d date with hlt | rfl | hgt
        · exact le_of_lt (hweeks _ _ (by omega))
        · exact Int.le_refl _
        · refine absurd (lt_of_le_of_lt ht hnext) (not_lt_of_ge ?_)
          rcases Int.lt_or_le (date + 7) d with hmore | hle
          · exact le_of_lt (hweeks _ _ (by omega))
          · exact le_of_eq (congrArg slot (by omega))
      · exact absurd hpassed (not_le_of_gt hlt)
  · rw [if_neg hpassed] at hanswer
    subst hanswer
    have hahead : now < slot found := lt_of_not_ge hpassed
    constructor
    · rintro ⟨⟨d, hd, heq⟩, hle, hgreatest⟩
      have hnear1 := hnear _ _ heq
      have hnear2 := hnear _ _ heq.symm
      have hsame : d = date - 7 := by omega
      rw [hsame] at heq
      have hcome : now < slot date := by
        refine lt_of_not_ge fun hpast => ?_
        have hlater := hgreatest _ ⟨date, hdate, rfl⟩ hpast
        rw [heq] at hlater
        exact absurd hlater (not_le_of_gt (hweeks _ _ (by omega)))
      exact ⟨lt_trans hcome (hweeks _ _ (Int.le_refl _)), .inr ⟨hahead, hcome, heq ▸ hle, heq⟩⟩
    · rintro ⟨-, hcase⟩
      obtain ⟨hle, -⟩ | ⟨-, hcome, hle, heq⟩ := hcase
      · exact absurd hle hpassed
      · refine ⟨⟨date - 7, by omega, heq⟩, heq ▸ hle, ?_⟩
        rintro t ⟨d, hd, rfl⟩ ht
        rw [heq]
        rcases Int.lt_trichotomy d (date - 7) with hlt | rfl | hgt
        · exact le_of_lt (hweeks _ _ (by omega))
        · exact Int.le_refl _
        · refine absurd (lt_of_le_of_lt ht hcome) (not_lt_of_ge ?_)
          rcases Int.lt_or_le date d with hmore | hle'
          · exact le_of_lt (hweeks _ _ (by omega))
          · exact le_of_eq (congrArg slot (by omega))

theorem currentSlot_weekly {dayOfWeek : Int}
    (hzone : (WallClockCadence.weekly dayOfWeek hour minute timezone).zone active = zone)
    (hweekday : 0 ≤ dayOfWeek ∧ dayOfWeek ≤ 6) :
    IsLatestSlot zone (.weekly dayOfWeek hour minute timezone) now
        (getCurrentSlotStart active now (.weekly dayOfWeek hour minute timezone)) ↔
      WeeklyInReach zone now dayOfWeek hour minute := by
  have hslot : getCurrentSlotStart active now (.weekly dayOfWeek hour minute timezone) =
      if slotOfDaysAgo zone now ((weekdayOf (dateAt zone now) - dayOfWeek + 7) % 7) hour minute ≤ now
      then slotOfDaysAgo zone now ((weekdayOf (dateAt zone now) - dayOfWeek + 7) % 7) hour minute
      else slotOfDaysAgo zone now ((weekdayOf (dateAt zone now) - dayOfWeek + 7) % 7 + 7)
        hour minute := by
    subst hzone
    rfl
  have hfound := dateAt_daysAgo zone now ((weekdayOf (dateAt zone now) - dayOfWeek + 7) % 7)
  have hprior := dateAt_daysAgo zone now ((weekdayOf (dateAt zone now) - dayOfWeek + 7) % 7 + 7)
  have hconfigured : weekdayOf (configuredDate zone now dayOfWeek) = dayOfWeek := by
    unfold configuredDate weekdayOf
    omega
  have hweeks : ∀ a b, a + 7 ≤ b →
      zonedWallClockToEpoch zone a hour minute < zonedWallClockToEpoch zone b hour minute :=
    fun _ _ => slots_of_weeks
  refine latest_of_weeks hweeks hconfigured ?_ ?_ (fun a b heq => ?_) hslot
  · unfold configuredDate
    omega
  · unfold configuredDate
    omega
  · have ha := zonedWallClockToEpoch_bounds zone a hour minute
    have hb := zonedWallClockToEpoch_bounds zone b hour minute
    simp only [dateUTC, DAY_MS, HOUR_MS, MINUTE_MS, SECOND_MS] at ha hb
    omega

end Weekly

/-! ## Hourly -/

section Hourly

variable {zone : Zone} {now minute : Int}

/-- The cadence minute of the hour that the clock shows. -/
def slotOfHour (zone : Zone) (now minute : Int) : Int :=
  let nowParts := zonedWallClockParts now zone
  zonedWallClockToEpoch zone nowParts.date nowParts.hour minute

/-- At an instant the clock shows the minute, with an offset that is whole hours from that at
`now`. -/
def ShowsMinute (zone : Zone) (now minute t : Int) : Prop :=
  (zonedWallClockParts t zone).minute = minute ∧ (zone.offset t - zone.offset now) % HOUR_MS = 0

/-- The cadence minute of this hour lies less than an hour back or at most an hour ahead, and the
clock shows it there, or an hour earlier when it is still to come. -/
def HourlyInReach (zone : Zone) (now minute : Int) : Prop :=
  let slot := slotOfHour zone now minute
  now - HOUR_MS < slot ∧ slot ≤ now + HOUR_MS ∧
    (slot ≤ now → ShowsMinute zone now minute slot) ∧
    (now < slot → ShowsMinute zone now minute (slot - HOUR_MS))

/-- The zone is changed by whole hours only. -/
def ChangesByHours (zone : Zone) : Prop := ∀ s t, (zone.offset s - zone.offset t) % HOUR_MS = 0

theorem isSlot_hourly_iff {t : Int} :
    IsSlot zone (.hourly minute timezone) t ↔
      (zonedWallClockParts t zone).minute = minute ∧ t % 60000 = 0 := by
  have hoffset := zone.offset_minutes t
  simp only [IsSlot, zonedWallClockParts, Zone.clock, HOUR_MS, MINUTE_MS, SECOND_MS]
  omega

theorem slotOfHour_minutes (zone : Zone) (now minute : Int) :
    slotOfHour zone now minute % 60000 = 0 := by
  unfold slotOfHour
  rw [zonedWallClockToEpoch_eq]
  have hutc := dateUTC_minutes (zonedWallClockParts now zone).date
    (zonedWallClockParts now zone).hour minute
  have hoffset := zone.offset_minutes (dateUTC (zonedWallClockParts now zone).date
    (zonedWallClockParts now zone).hour minute 0 - zone.offset (dateUTC
      (zonedWallClockParts now zone).date (zonedWallClockParts now zone).hour minute 0))
  omega

/-- An instant of the last hour at which the clock shows the minute is the latest. -/
theorem latest_of_showsMinute {slot : Int} (hslot : slot % 60000 = 0) (hle : slot ≤ now)
    (hlt : now < slot + HOUR_MS) (h : ShowsMinute zone now minute slot) :
    IsLatestSlot zone (.hourly minute timezone) now slot := by
  obtain ⟨hminute, hhours⟩ := h
  refine ⟨isSlot_hourly_iff.2 ⟨hminute, hslot⟩, hle, fun t ht htnow => ?_⟩
  obtain ⟨htminute, htslot⟩ := isSlot_hourly_iff.1 ht
  by_contra hbefore
  have hoffset := zone.offset_minutes slot
  have htoffset := zone.offset_minutes t
  -- the zone has the offset of `slot` or of `now` at `t`, so that `t` is whole hours from `slot`
  have hsame : (zone.offset t - zone.offset slot) % 3600000 = 0 := by
    unfold HOUR_MS at hhours hlt
    rcases zone.one_change (a := slot) (b := t) (c := now) (by omega) htnow (by omega) with h | h
    · omega
    · omega
  simp only [zonedWallClockParts, Zone.clock, HOUR_MS, MINUTE_MS] at hminute htminute hlt
  omega

theorem currentSlot_hourly (hzone : (WallClockCadence.hourly minute timezone).zone active = zone)
    (h : HourlyInReach zone now minute) :
    IsLatestSlot zone (.hourly minute timezone) now
      (getCurrentSlotStart active now (.hourly minute timezone)) := by
  have hslot : getCurrentSlotStart active now (.hourly minute timezone) =
      if slotOfHour zone now minute > now then slotOfHour zone now minute - HOUR_MS
      else slotOfHour zone now minute := by
    subst hzone
    rfl
  obtain ⟨hback, hahead, hpassed, hcoming⟩ := h
  have hminutes := slotOfHour_minutes zone now minute
  rw [hslot]
  split
  · rename_i hlt
    exact latest_of_showsMinute (by unfold HOUR_MS; omega) (by omega) (by omega) (hcoming hlt)
  · exact latest_of_showsMinute hminutes (by omega) (by omega) (hpassed (by omega))

/-- In a zone that is changed by whole hours a slot is never more than an hour back. -/
theorem hourly_recent (hzone : ChangesByHours zone) (hminute : 0 ≤ minute ∧ minute ≤ 59)
    {slot : Int} (h : IsLatestSlot zone (.hourly minute timezone) now slot) :
    now < slot + HOUR_MS := by
  obtain ⟨-, -, hgreatest⟩ := h
  -- the cadence minute of the last hour, by the offset at `now`
  obtain ⟨recent, hrecent⟩ :
      ∃ recent, recent = now - (now + zone.offset now - minute * 60000) % 3600000 := ⟨_, rfl⟩
  have hnow := zone.offset_minutes now
  have hthen := hzone recent now
  unfold HOUR_MS at hthen
  have hisSlot : IsSlot zone (.hourly minute timezone) recent := by
    refine isSlot_hourly_iff.2 ⟨?_, by omega⟩
    simp only [zonedWallClockParts, Zone.clock, HOUR_MS, MINUTE_MS]
    omega
  have hle := hgreatest recent hisSlot (by omega)
  unfold HOUR_MS
  omega

theorem hourlyInReach_of_latest
    (hzone : (WallClockCadence.hourly minute timezone).zone active = zone)
    (hminute : 0 ≤ minute ∧ minute ≤ 59) (hhours : ChangesByHours zone)
    (h : IsLatestSlot zone (.hourly minute timezone) now (getCurrentSlotStart active now (.hourly
      minute timezone))) :
    HourlyInReach zone now minute := by
  have hslot : getCurrentSlotStart active now (.hourly minute timezone) =
      if slotOfHour zone now minute > now then slotOfHour zone now minute - HOUR_MS
      else slotOfHour zone now minute := by
    subst hzone
    rfl
  have hrecent := hourly_recent hhours hminute h
  obtain ⟨hisSlot, hle, -⟩ := h
  have hshows := (isSlot_hourly_iff.1 hisSlot).1
  rw [hslot] at hrecent hle hshows
  have hhour : 0 < HOUR_MS := by decide
  unfold HourlyInReach
  split at hrecent
  · rename_i hlt
    rw [if_pos hlt] at hle hshows
    exact ⟨by omega, by omega, fun hpassed => absurd hpassed (by omega),
      fun _ => ⟨hshows, hhours _ _⟩⟩
  · rename_i hlt
    rw [if_neg hlt] at hle hshows
    exact ⟨by omega, by omega, fun _ => ⟨hshows, hhours _ _⟩, fun hcoming => absurd hcoming hlt⟩

end Hourly

/-! ## All cadences -/

def SlotInReach (zone : Zone) (now : Int) : WallClockCadence → Prop
  | .hourly minute _ => HourlyInReach zone now minute
  | .daily hour minute _ => DailyInReach zone now hour minute
  | .weekly dayOfWeek hour minute _ => WeeklyInReach zone now dayOfWeek hour minute

/-- A zone whose clock is put forward or back by part of an hour only matters to hourly slots. -/
def WholeHoursIfHourly (zone : Zone) : WallClockCadence → Prop
  | .hourly _ _ => ChangesByHours zone
  | _ => True

section AllCadences

variable {active : Zone} {now : Int} {taskId : String} {cadence : WallClockCadence}

theorem latestSlot_of_inReach
    (hvalid : validateRecurringCadence taskId (.wallClock cadence) = .ok ())
    (hexist : SlotsExist (cadence.zone active) cadence)
    (hreach : SlotInReach (cadence.zone active) now cadence) :
    IsLatestSlot (cadence.zone active) cadence now (getCurrentSlotStart active now cadence) := by
  cases cadence with
  | hourly minute timezone => exact currentSlot_hourly rfl hreach
  | daily hour minute timezone =>
    simp only [validateRecurringCadence, Lib.bind_eq_ok, Lib.throwIf_eq_ok, Bool.or_eq_false_iff,
      decide_eq_false_iff_not, Int.not_lt] at hvalid
    obtain ⟨-, hhour, hminute⟩ := hvalid
    have hday : hour * HOUR_MS + minute * MINUTE_MS < DAY_MS := by
      unfold HOUR_MS MINUTE_MS DAY_MS
      omega
    exact (currentSlot_daily rfl hday hexist).2 hreach
  | weekly dayOfWeek hour minute timezone =>
    simp only [validateRecurringCadence, Lib.bind_eq_ok, Lib.throwIf_eq_ok, Bool.or_eq_false_iff,
      decide_eq_false_iff_not, Int.not_lt] at hvalid
    obtain ⟨-, hweekday, -⟩ := hvalid
    exact (currentSlot_weekly rfl (by omega)).2 hreach

theorem inReach_of_latestSlot
    (hvalid : validateRecurringCadence taskId (.wallClock cadence) = .ok ())
    (hexist : SlotsExist (cadence.zone active) cadence)
    (hhours : WholeHoursIfHourly (cadence.zone active) cadence)
    (h : IsLatestSlot (cadence.zone active) cadence now (getCurrentSlotStart active now cadence)) :
    SlotInReach (cadence.zone active) now cadence := by
  cases cadence with
  | hourly minute timezone =>
    have hminute : 0 ≤ minute ∧ minute ≤ 59 := by
      simpa [validateRecurringCadence, Lib.throwIf_eq_ok] using hvalid
    exact hourlyInReach_of_latest rfl hminute hhours h
  | daily hour minute timezone =>
    simp only [validateRecurringCadence, Lib.bind_eq_ok, Lib.throwIf_eq_ok, Bool.or_eq_false_iff,
      decide_eq_false_iff_not, Int.not_lt] at hvalid
    obtain ⟨-, hhour, hminute⟩ := hvalid
    have hday : hour * HOUR_MS + minute * MINUTE_MS < DAY_MS := by
      unfold HOUR_MS MINUTE_MS DAY_MS
      omega
    exact (currentSlot_daily rfl hday hexist).1 h
  | weekly dayOfWeek hour minute timezone =>
    simp only [validateRecurringCadence, Lib.bind_eq_ok, Lib.throwIf_eq_ok, Bool.or_eq_false_iff,
      decide_eq_false_iff_not, Int.not_lt] at hvalid
    obtain ⟨-, hweekday, -⟩ := hvalid
    exact (currentSlot_weekly rfl (by omega)).1 h

end AllCadences

/--
**The latest slot is found exactly when it is in reach** of the steps that the code takes back.
Where the clock is put back by part of an hour, an hourly slot may also be found by chance.
-/
theorem currentSlot_latest (active : Zone) (now : Int) (taskId : String)
    (cadence : WallClockCadence)
    (hvalid : validateRecurringCadence taskId (.wallClock cadence) = .ok ())
    (hexist : SlotsExist (cadence.zone active) cadence) :
    (SlotInReach (cadence.zone active) now cadence →
        IsLatestSlot (cadence.zone active) cadence now (getCurrentSlotStart active now cadence)) ∧
      (WholeHoursIfHourly (cadence.zone active) cadence →
        IsLatestSlot (cadence.zone active) cadence now (getCurrentSlotStart active now cadence) →
        SlotInReach (cadence.zone active) now cadence) :=
  ⟨latestSlot_of_inReach hvalid hexist, inReach_of_latestSlot hvalid hexist⟩

theorem slotsExist_utc_daily (hour minute : Int) (timezone : RecurringCadenceTimezone) :
    SlotsExist .utc (.daily hour minute timezone) :=
  fun date => ⟨dateUTC date hour minute 0, Zone.clock_utc _⟩

/-- At 14:00 UTC the slot of 08:00 UTC is found. -/
theorem currentSlot_latest_morning :
    IsLatestSlot .utc (.daily 8 0 .utc) 1771164000000
      (getCurrentSlotStart .utc 1771164000000 (.daily 8 0 .utc)) :=
  (currentSlot_latest .utc 1771164000000 "review" (.daily 8 0 .utc) rfl
    (slotsExist_utc_daily 8 0 .utc)).1 (by
      simp only [SlotInReach, DailyInReach]
      decide)

/-- Eastern Time around 2026-03-08, when 02:00 became 03:00. -/
def easternSpring2026 : Zone where
  offsetMinutes := fun t => if t < 1772953200000 then -300 else -240
  bounded := by
    intro t
    split <;> omega
  changesApart := by
    intro s t hst hs ht
    have hs' : s = 1772953200000 := by
      split at hs <;> split at hs <;> omega
    have ht' : t = 1772953200000 := by
      split at ht <;> split at ht <;> omega
    omega

theorem slotsExist_easternSpring :
    SlotsExist easternSpring2026 (.daily 5 0 .local) := by
  intro date
  have hutc : dateUTC date 5 0 0 = date * 86400000 + 18000000 := by
    simp only [dateUTC, DAY_MS, HOUR_MS, MINUTE_MS, SECOND_MS]
    omega
  rw [WallTimeExists, hutc]
  by_cases hdate : date < 20520
  · refine ⟨date * 86400000 + 36000000, ?_⟩
    simp only [Zone.clock, Zone.offset, easternSpring2026, MINUTE_MS]
    rw [if_pos (by omega)]
    omega
  · refine ⟨date * 86400000 + 32400000, ?_⟩
    simp only [Zone.clock, Zone.offset, easternSpring2026, MINUTE_MS]
    rw [if_neg (by omega)]
    omega

/-- **On Monday at 00:30** the daily slot of 05:00 that is found is Saturday's: Sunday had 23
hours. -/
theorem currentSlot_monday :
    SlotsExist easternSpring2026 (.daily 5 0 .local) ∧
      getCurrentSlotStart easternSpring2026 1773030600000 (.daily 5 0 .local) = 1772877600000 ∧
      IsSlot easternSpring2026 (.daily 5 0 .local) 1772960400000 ∧
      ¬ IsLatestSlot easternSpring2026 (.daily 5 0 .local) 1773030600000
        (getCurrentSlotStart easternSpring2026 1773030600000 (.daily 5 0 .local)) := by
  have hfound : getCurrentSlotStart easternSpring2026 1773030600000 (.daily 5 0 .local) =
      1772877600000 := by decide
  have hsunday : IsSlot easternSpring2026 (.daily 5 0 .local) 1772960400000 := ⟨20520, by decide⟩
  refine ⟨slotsExist_easternSpring, hfound, hsunday, ?_⟩
  rw [hfound]
  rintro ⟨-, -, hgreatest⟩
  exact absurd (hgreatest _ hsunday (by decide)) (by decide)

end Psfn.TaskScheduler
