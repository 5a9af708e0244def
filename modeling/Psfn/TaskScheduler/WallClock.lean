import Mathlib.Data.Int.Init
import Psfn.Lib.JsValue

/-!
# Wall-clock slots

The cadences of `core/scheduler/scheduler.ts` and the part of `shared/time/active-timezone.ts`
that they are computed with. An instant is a number of milliseconds, and a calendar date is the
number of its day, 1970-01-01 being 0: what `Intl` reads of an instant and what `Date.UTC` makes
of a date undo each other. A zone is its offset from UTC as a function of the instant.
-/

namespace Psfn.TaskScheduler

open Lib (throwIf)

def SECOND_MS : Int := 1000
def MINUTE_MS : Int := 60000
def HOUR_MS : Int := 3600000
def DAY_MS : Int := 86400000
def WEEK_MS : Int := 7 * DAY_MS

/-! ## Zones -/

structure Zone where
  offsetMinutes : Int → Int
  bounded       : ∀ t, -960 ≤ offsetMinutes t ∧ offsetMinutes t ≤ 960
  changesApart  : ∀ s t, s < t → offsetMinutes (s - 1) ≠ offsetMinutes s →
                    offsetMinutes (t - 1) ≠ offsetMinutes t → s + 2 * DAY_MS ≤ t

namespace Zone

def utc : Zone where
  offsetMinutes := fun _ => 0
  bounded := fun _ => ⟨by decide, by decide⟩
  changesApart := fun _ _ _ h => absurd rfl h

def offset (zone : Zone) (t : Int) : Int := zone.offsetMinutes t * MINUTE_MS

/-- What the clock on the wall shows, in milliseconds since its own 1970-01-01. -/
def clock (zone : Zone) (t : Int) : Int := t + zone.offset t

end Zone

structure ZonedWallClockParts where
  date    : Int
  hour    : Int
  minute  : Int
  second  : Int
  weekday : Int

def weekdayOf (date : Int) : Int := (date + 4) % 7

def zonedWallClockParts (epochMs : Int) (zone : Zone) : ZonedWallClockParts where
  date := zone.clock epochMs / DAY_MS
  hour := zone.clock epochMs % DAY_MS / HOUR_MS
  minute := zone.clock epochMs % HOUR_MS / MINUTE_MS
  second := zone.clock epochMs % MINUTE_MS / SECOND_MS
  weekday := weekdayOf (zone.clock epochMs / DAY_MS)

def dateUTC (date hour minute second : Int) : Int :=
  date * DAY_MS + hour * HOUR_MS + minute * MINUTE_MS + second * SECOND_MS

def zonedOffsetMs (epochMs : Int) (zone : Zone) : Int :=
  let parts := zonedWallClockParts epochMs zone
  dateUTC parts.date parts.hour parts.minute parts.second - epochMs

def zonedWallClockToEpoch (zone : Zone) (date hour minute : Int) : Int :=
  let asUtc := dateUTC date hour minute 0
  let offset := zonedOffsetMs asUtc zone
  let epoch := asUtc - offset
  let refinedOffset := zonedOffsetMs epoch zone
  if refinedOffset = offset then epoch else asUtc - refinedOffset

/-! ## Cadences -/

inductive RecurringCadenceTimezone where
  | local | utc
deriving DecidableEq

inductive WallClockCadence where
  | hourly (minute : Int) (timezone : RecurringCadenceTimezone)
  | daily (hour minute : Int) (timezone : RecurringCadenceTimezone)
  | weekly (dayOfWeek hour minute : Int) (timezone : RecurringCadenceTimezone)
deriving DecidableEq

inductive RecurringCadence where
  | relative
  | wallClock (cadence : WallClockCadence)
deriving DecidableEq

def WallClockCadence.timezone : WallClockCadence → RecurringCadenceTimezone
  | hourly _ timezone => timezone
  | daily _ _ timezone => timezone
  | weekly _ _ _ timezone => timezone

/-- The zone of a cadence, `active` being the one of the settings. -/
def WallClockCadence.zone (active : Zone) (cadence : WallClockCadence) : Zone :=
  if cadence.timezone = .utc then .utc else active

def validateRecurringCadence (taskId : String) : RecurringCadence → Except String Unit
  | .relative => .ok ()
  | .wallClock (.hourly minute _) =>
    throwIf (minute < 0 || minute > 59)
      s!"Task \"{taskId}\" cadence.minute must be an integer between 0 and 59"
  | .wallClock (.daily hour minute _) => do
    throwIf (hour < 0 || hour > 23)
      s!"Task \"{taskId}\" cadence.hour must be an integer between 0 and 23"
    throwIf (minute < 0 || minute > 59)
      s!"Task \"{taskId}\" cadence.minute must be an integer between 0 and 59"
  | .wallClock (.weekly dayOfWeek hour minute _) => do
    throwIf (dayOfWeek < 0 || dayOfWeek > 6)
      s!"Task \"{taskId}\" cadence.dayOfWeek must be an integer between 0 and 6"
    throwIf (hour < 0 || hour > 23)
      s!"Task \"{taskId}\" cadence.hour must be an integer between 0 and 23"
    throwIf (minute < 0 || minute > 59)
      s!"Task \"{taskId}\" cadence.minute must be an integer between 0 and 59"

def getCurrentSlotStart (active : Zone) (now : Int) (cadence : WallClockCadence) : Int :=
  let zone := cadence.zone active
  let nowParts := zonedWallClockParts now zone
  match cadence with
  | .hourly minute _ =>
    let slot := zonedWallClockToEpoch zone nowParts.date nowParts.hour minute
    if slot > now then slot - HOUR_MS else slot
  | .weekly dayOfWeek hour minute _ =>
    let daysSinceSlot := (nowParts.weekday - dayOfWeek + 7) % 7
    let slotDate := zonedWallClockParts (now - daysSinceSlot * DAY_MS) zone
    let slot := zonedWallClockToEpoch zone slotDate.date hour minute
    if slot ≤ now then slot
    else
      let priorDate := zonedWallClockParts (now - (daysSinceSlot + 7) * DAY_MS) zone
      zonedWallClockToEpoch zone priorDate.date hour minute
  | .daily hour minute _ =>
    let slot := zonedWallClockToEpoch zone nowParts.date hour minute
    if slot ≤ now then slot
    else
      let priorDate := zonedWallClockParts (now - DAY_MS) zone
      zonedWallClockToEpoch zone priorDate.date hour minute

/-! ## Staggered slots -/

structure FleetSlotStagger where
  manifestOrdinal : Int
  fleetSize       : Int
  windowMs        : Int

def MAX_SAFE_INTEGER : Int := 9007199254740991

def isSafeInteger (n : Int) : Bool := -MAX_SAFE_INTEGER ≤ n && n ≤ MAX_SAFE_INTEGER

def requireTimestamp (value : Int) (field : String) : Except String Int := do
  throwIf (!isSafeInteger value || value < 0)
    s!"{field} must be a non-negative safe integer timestamp"
  return value

/-- Products are taken to be below `2 ^ 53`, so that the quotient is rounded down once. -/
def staggerFleetOrdinalWithinWindow (manifestOrdinal fleetSize windowStart windowEnd : Int) :
    Except String Int := do
  let windowStartMs ← requireTimestamp windowStart "fleetSchedule.windowStartMs"
  let windowEndMs ← requireTimestamp windowEnd "fleetSchedule.windowEndMs"
  throwIf (windowEndMs ≤ windowStartMs)
    "fleetSchedule.windowEndMs must be greater than windowStartMs"
  throwIf (!isSafeInteger fleetSize || fleetSize < 1)
    "fleetSchedule.fleetSize must be a positive safe integer"
  throwIf (!isSafeInteger manifestOrdinal || manifestOrdinal < 0 || manifestOrdinal ≥ fleetSize)
    "fleetSchedule.manifestOrdinal must identify a fleet member"
  return windowStartMs + (windowEndMs - windowStartMs) * manifestOrdinal / fleetSize

def cadencePeriodMs : WallClockCadence → Int
  | .hourly .. => HOUR_MS
  | .daily .. => DAY_MS
  | .weekly .. => WEEK_MS

def WallClockCadence.kindText : WallClockCadence → String
  | hourly .. => "hourly"
  | daily .. => "daily"
  | weekly .. => "weekly"

inductive TaskType where
  | every | oneShot
deriving DecidableEq

def validateFleetStagger (taskId : String) (type : TaskType) (cadence : Option RecurringCadence) :
    Option FleetSlotStagger → Except String Unit
  | none => .ok ()
  | some stagger =>
    match type, cadence with
    | .every, some (.wallClock cadence) => do
      throwIf (!isSafeInteger stagger.fleetSize || stagger.fleetSize < 1)
        s!"Task \"{taskId}\" fleetStagger.fleetSize must be a positive safe integer"
      throwIf (!isSafeInteger stagger.manifestOrdinal || stagger.manifestOrdinal < 0
          || stagger.manifestOrdinal ≥ stagger.fleetSize)
        s!"Task \"{taskId}\" fleetStagger.manifestOrdinal must identify a fleet member"
      throwIf (!isSafeInteger stagger.windowMs || stagger.windowMs < 1)
        s!"Task \"{taskId}\" fleetStagger.windowMs must be a positive safe integer"
      let periodMs := cadencePeriodMs cadence
      let kind := cadence.kindText
      let windowMs := stagger.windowMs
      throwIf (stagger.windowMs ≥ periodMs)
        (s!"Task \"{taskId}\" fleetStagger.windowMs ({windowMs}) must be shorter than its "
          ++ s!"{kind} cadence period ({periodMs})")
    | _, _ => .error s!"Task \"{taskId}\" fleetStagger requires a wall-clock recurring cadence"

def fleetStaggeredSlotStart (slotStart : Int) : Option FleetSlotStagger → Except String Int
  | none => .ok slotStart
  | some stagger =>
    staggerFleetOrdinalWithinWindow stagger.manifestOrdinal stagger.fleetSize slotStart
      (slotStart + stagger.windowMs)

def getNextSlotStart (active : Zone) (currentSlotStart : Int) (cadence : WallClockCadence) :
    Except String Int :=
  match cadence with
  | .hourly .. => .ok (currentSlotStart + HOUR_MS)
  | .daily .. =>
    let next := getCurrentSlotStart active (currentSlotStart + 36 * HOUR_MS) cadence
    if next ≤ currentSlotStart then
      .error "Scheduler failed to resolve the next wall-clock cadence slot"
    else .ok next
  | .weekly .. =>
    let next := getCurrentSlotStart active (currentSlotStart + 8 * DAY_MS) cadence
    if next ≤ currentSlotStart then
      .error "Scheduler failed to resolve the next wall-clock cadence slot"
    else .ok next

def getCurrentStaggeredSlotStart (active : Zone) (now : Int) (cadence : WallClockCadence)
    (stagger : Option FleetSlotStagger) : Except String Int :=
  fleetStaggeredSlotStart (getCurrentSlotStart active now cadence) stagger

def getNextStaggeredSlotStart (active : Zone) (now : Int) (cadence : WallClockCadence)
    (stagger : Option FleetSlotStagger) : Except String Int := do
  let currentBase := getCurrentSlotStart active now cadence
  let currentDue ← fleetStaggeredSlotStart currentBase stagger
  if currentDue > now then return currentDue
  else
    let next ← getNextSlotStart active currentBase cadence
    fleetStaggeredSlotStart next stagger

def isWallClockTaskDue (active : Zone) (now : Int) (lastRun : Rat) (cadence : WallClockCadence)
    (stagger : Option FleetSlotStagger) : Except String Bool := do
  let currentSlotStart ← getCurrentStaggeredSlotStart active now cadence stagger
  return now ≥ currentSlotStart && lastRun < currentSlotStart

/-! ## The offset of a zone -/

theorem exists_change {f : Int → Int} {a b : Int} (hab : a ≤ b) (h : f a ≠ f b) :
    ∃ s, a < s ∧ s ≤ b ∧ f (s - 1) ≠ f s := by
  induction b, hab using Int.le_induction with
  | base => exact absurd rfl h
  | succ b hab ih =>
    by_cases hb : f a = f b
    · refine ⟨b + 1, by omega, Int.le_refl _, ?_⟩
      rw [Int.add_sub_cancel]
      exact fun heq => h (hb.trans heq)
    · obtain ⟨s, has, hsb, hs⟩ := ih hb
      exact ⟨s, has, by omega, hs⟩

namespace Zone

theorem offset_bounded (zone : Zone) (t : Int) :
    -57600000 ≤ zone.offset t ∧ zone.offset t ≤ 57600000 := by
  have h := zone.bounded t
  unfold offset MINUTE_MS
  omega

theorem offset_minutes (zone : Zone) (t : Int) : zone.offset t % 60000 = 0 := by
  unfold offset MINUTE_MS
  omega

/-- Within 48 hours the offset changes once at most. -/
theorem one_change (zone : Zone) {a b c : Int} (hab : a ≤ b) (hbc : b ≤ c)
    (hac : c ≤ a + 172800000) : zone.offset a = zone.offset b ∨ zone.offset b = zone.offset c := by
  unfold offset
  by_cases ha : zone.offsetMinutes a = zone.offsetMinutes b
  · exact .inl (congrArg (· * MINUTE_MS) ha)
  · by_cases hc : zone.offsetMinutes b = zone.offsetMinutes c
    · exact .inr (congrArg (· * MINUTE_MS) hc)
    · obtain ⟨s, has, hsb, hs⟩ := exists_change hab ha
      obtain ⟨t, hbt, htc, ht⟩ := exists_change hbc hc
      have hapart := zone.changesApart s t (by omega) hs ht
      unfold DAY_MS at hapart
      omega

@[simp] theorem offset_utc (t : Int) : utc.offset t = 0 := rfl

@[simp] theorem clock_utc (t : Int) : utc.clock t = t := Int.add_zero t

end Zone

/-- An instant without seconds is read back with the offset of its zone. -/
theorem zonedOffsetMs_of_minute {t : Int} (zone : Zone) (h : t % 60000 = 0) :
    zonedOffsetMs t zone = zone.offset t := by
  have hminutes := zone.offset_minutes t
  simp only [zonedOffsetMs, zonedWallClockParts, dateUTC, Zone.clock, DAY_MS, HOUR_MS, MINUTE_MS,
    SECOND_MS]
  omega

end Psfn.TaskScheduler
