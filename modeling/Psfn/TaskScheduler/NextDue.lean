import Mathlib.Algebra.Order.Group.MinMax
import Psfn.TaskScheduler.Scheduler
import Psfn.TaskScheduler.SlotServed

/-!
# When a task is next due

`taskNextDueAt` and the test of `runTick` are computed apart. They agree, and the due time of an
entry that is left alone never comes nearer, as long as the slots of wall-clock cadences are in
reach of the steps that the code takes: back to the latest one, and from there to the next.

* `slotsInReach_utc` — in UTC they always are;
* `nextDue_found` — the due time of a wall-clock task, from its latest and its next slot;
* `taskNextDueAt_mono` — the due time does not come nearer;
* `isTaskDue_iff` — a task is due exactly when its due time has come.
-/

namespace Psfn.TaskScheduler

open Lib (bind_eq_ok throwIf_eq_ok)

/-! ## The next slot -/

/-- The least slot after `now`. -/
def IsNextSlot (zone : Zone) (cadence : WallClockCadence) (now slot : Int) : Prop :=
  IsSlot zone cadence slot ∧ now < slot ∧ ∀ t, IsSlot zone cadence t → now < t → slot ≤ t

/-- From the latest slot, an hour ahead is the next, or 36 hours or 8 days ahead it is the
latest. -/
def NextInReach (zone : Zone) (slot next : Int) (cadence : WallClockCadence) : Prop :=
  match cadence with
  | .hourly _ _ => next = slot + HOUR_MS
  | .daily _ _ _ =>
    SlotInReach zone (slot + 36 * HOUR_MS) cadence ∧
      IsLatestSlot zone cadence (slot + 36 * HOUR_MS) next
  | .weekly _ _ _ _ =>
    SlotInReach zone (slot + 8 * DAY_MS) cadence ∧
      IsLatestSlot zone cadence (slot + 8 * DAY_MS) next

/-- The slots around `now` are in reach, and a stagger can move them: they lie between 1970 and the
last date. -/
structure SlotsInReach (active : Zone) (cadence : WallClockCadence)
    (stagger : Option FleetSlotStagger) (now slot next : Int) : Prop where
  exist   : SlotsExist (cadence.zone active) cadence
  inReach : SlotInReach (cadence.zone active) now cadence
  latest  : IsLatestSlot (cadence.zone active) cadence now slot
  coming  : IsNextSlot (cadence.zone active) cadence now next
  reached : NextInReach (cadence.zone active) slot next cadence
  since   : stagger = none ∨ 0 ≤ slot
  before  : next ≤ MAX_DATE

section Slots

variable {active : Zone} {cadence : WallClockCadence} {stagger : Option FleetSlotStagger}
  {taskId : String} {now later slot next slot' next' : Int}

theorem IsLatestSlot.unique {zone : Zone} (h : IsLatestSlot zone cadence now slot)
    (h' : IsLatestSlot zone cadence now slot') : slot = slot' :=
  Int.le_antisymm (h'.2.2 slot h.1 h.2.1) (h.2.2 slot' h'.1 h'.2.1)

/-- Up to the next slot the slots stay what they are. -/
theorem slots_later {zone : Zone} (hle : now ≤ later) (h : IsLatestSlot zone cadence now slot)
    (hnext : IsNextSlot zone cadence now next) (h' : IsLatestSlot zone cadence later slot')
    (hnext' : IsNextSlot zone cadence later next') : slot' = slot ∧ next' = next ∨ next ≤ slot' := by
  obtain ⟨hslot, hpassed, hgreatest⟩ := h
  obtain ⟨hisNext, hcoming, hleast⟩ := hnext
  obtain ⟨hslot', hpassed', hgreatest'⟩ := h'
  obtain ⟨hisNext', hcoming', hleast'⟩ := hnext'
  by_cases hreached : next ≤ later
  · exact .inr (hgreatest' next hisNext hreached)
  · left
    have hge : slot ≤ slot' := hgreatest' slot hslot (by omega)
    have hle' : slot' ≤ slot := by
      by_cases hbefore : slot' ≤ now
      · exact hgreatest slot' hslot' hbefore
      · have := hleast slot' hslot' (by omega)
        omega
    have hnextLe : next' ≤ next := hleast' next hisNext (by omega)
    have hnextGe : next ≤ next' := hleast next' hisNext' (by omega)
    exact ⟨by omega, by omega⟩

theorem currentSlot_found
    (hvalid : validateRecurringCadence taskId (.wallClock cadence) = .ok ())
    (h : SlotsInReach active cadence stagger now slot next) :
    getCurrentSlotStart active now cadence = slot :=
  (latestSlot_of_inReach hvalid h.exist h.inReach).unique h.latest

theorem nextSlot_found
    (hvalid : validateRecurringCadence taskId (.wallClock cadence) = .ok ())
    (h : SlotsInReach active cadence stagger now slot next) :
    getNextSlotStart active slot cadence = .ok next := by
  have hlt : slot < next := Int.lt_of_le_of_lt h.latest.2.1 h.coming.2.1
  have hreached := h.reached
  unfold getNextSlotStart
  unfold NextInReach at hreached
  cases cadence with
  | hourly minute timezone => exact congrArg Except.ok hreached.symm
  | daily hour minute timezone =>
    have hfound := (latestSlot_of_inReach hvalid h.exist hreached.1).unique hreached.2
    dsimp only
    rw [hfound, if_neg (by omega)]
  | weekly dayOfWeek hour minute timezone =>
    have hfound := (latestSlot_of_inReach hvalid h.exist hreached.1).unique hreached.2
    dsimp only
    rw [hfound, if_neg (by omega)]

end Slots

/-! ## Slots in UTC -/

section Utc

variable {active : Zone} {cadence : WallClockCadence} {stagger : Option FleetSlotStagger}
  {taskId : String} {now : Int}

theorem isSlot_utc_iff (hvalid : validateRecurringCadence taskId (.wallClock cadence) = .ok ())
    (t : Int) : IsSlot .utc cadence t ↔ (t - slotPhase cadence) % cadencePeriodMs cadence = 0 := by
  cases cadence with
  | hourly minute timezone =>
    simp only [validateRecurringCadence, throwIf_eq_ok, Bool.or_eq_false_iff,
      decide_eq_false_iff_not, Int.not_lt] at hvalid
    simp only [IsSlot, zonedWallClockParts, Zone.clock_utc, slotPhase, cadencePeriodMs, HOUR_MS,
      MINUTE_MS, SECOND_MS]
    omega
  | daily hour minute timezone =>
    simp only [IsSlot, zonedWallClockToEpoch_utc, dateUTC, slotPhase, cadencePeriodMs, DAY_MS,
      HOUR_MS, MINUTE_MS, SECOND_MS]
    constructor
    · rintro ⟨date, hdate⟩
      omega
    · intro h
      exact ⟨(t - (hour * 3600000 + minute * 60000)) / 86400000, by omega⟩
  | weekly dayOfWeek hour minute timezone =>
    simp only [validateRecurringCadence, bind_eq_ok, throwIf_eq_ok, Bool.or_eq_false_iff,
      decide_eq_false_iff_not, Int.not_lt] at hvalid
    obtain ⟨-, hweekday, -⟩ := hvalid
    simp only [IsSlot, zonedWallClockToEpoch_utc, dateUTC, slotPhase, cadencePeriodMs, WEEK_MS,
      DAY_MS, HOUR_MS, MINUTE_MS, SECOND_MS, weekdayOf]
    constructor
    · rintro ⟨date, hdate⟩
      omega
    · intro h
      exact ⟨(t - (hour * 3600000 + minute * 60000)) / 86400000, by omega⟩

/-- Two slots are a period apart. -/
theorem period_le_of_slots (hvalid : validateRecurringCadence taskId (.wallClock cadence) = .ok ())
    {slot slot' : Int} (hslot : IsSlot .utc cadence slot) (hslot' : IsSlot .utc cadence slot')
    (hlt : slot < slot') : slot + cadencePeriodMs cadence ≤ slot' := by
  have hdvd := Int.dvd_sub (Int.dvd_of_emod_eq_zero ((isSlot_utc_iff hvalid slot').1 hslot'))
    (Int.dvd_of_emod_eq_zero ((isSlot_utc_iff hvalid slot).1 hslot))
  have hle := Int.le_of_dvd (by omega) hdvd
  omega

theorem baseSlot_bounds (cadence : WallClockCadence) (now : Int) :
    baseSlot cadence now ≤ now ∧ now < baseSlot cadence now + cadencePeriodMs cadence := by
  have hperiod := (cadencePeriod_pos cadence).1
  have hbelow := Int.emod_nonneg (now - slotPhase cadence) (Int.ne_of_gt hperiod)
  have habove := Int.emod_lt_of_pos (now - slotPhase cadence) hperiod
  unfold baseSlot
  omega

theorem isSlot_baseSlot (hvalid : validateRecurringCadence taskId (.wallClock cadence) = .ok ()) :
    IsSlot .utc cadence (baseSlot cadence now) := by
  rw [isSlot_utc_iff hvalid]
  unfold baseSlot
  rw [show now - (now - slotPhase cadence) % cadencePeriodMs cadence - slotPhase cadence =
    now - slotPhase cadence - (now - slotPhase cadence) % cadencePeriodMs cadence by omega]
  exact Int.emod_eq_zero_of_dvd Int.dvd_self_sub_emod

theorem isSlot_nextPeriod (hvalid : validateRecurringCadence taskId (.wallClock cadence) = .ok ())
    {slot : Int} (hslot : IsSlot .utc cadence slot) :
    IsSlot .utc cadence (slot + cadencePeriodMs cadence) := by
  rw [isSlot_utc_iff hvalid] at hslot ⊢
  rw [show slot + cadencePeriodMs cadence - slotPhase cadence =
    slot - slotPhase cadence + cadencePeriodMs cadence by omega, Int.add_emod_right]
  exact hslot

/-- A slot that is less than a period back is the latest. -/
theorem latestSlot_of_recent
    (hvalid : validateRecurringCadence taskId (.wallClock cadence) = .ok ()) {slot : Int}
    (hslot : IsSlot .utc cadence slot) (hle : slot ≤ now)
    (hlt : now < slot + cadencePeriodMs cadence) : IsLatestSlot .utc cadence now slot := by
  refine ⟨hslot, hle, fun t ht hpassed => Int.not_lt.1 fun hafter => ?_⟩
  have hapart := period_le_of_slots hvalid hslot ht hafter
  omega

theorem slotInReach_utc (hutc : cadence.timezone = .utc)
    (hvalid : validateRecurringCadence taskId (.wallClock cadence) = .ok ()) :
    SlotsExist .utc cadence ∧ SlotInReach .utc now cadence := by
  have hzone : cadence.zone .utc = .utc := if_pos hutc
  have hexist : SlotsExist .utc cadence := by
    cases cadence with
    | hourly minute timezone => trivial
    | daily hour minute timezone =>
      exact fun date => ⟨dateUTC date hour minute 0, Zone.clock_utc _⟩
    | weekly dayOfWeek hour minute timezone =>
      exact fun date _ => ⟨dateUTC date hour minute 0, Zone.clock_utc _⟩
  have hhours : WholeHoursIfHourly .utc cadence := by
    cases cadence with
    | hourly minute timezone => exact fun _ _ => rfl
    | daily hour minute timezone => trivial
    | weekly dayOfWeek hour minute timezone => trivial
  refine ⟨hexist, ?_⟩
  rw [← hzone] at hexist hhours ⊢
  refine inReach_of_latestSlot hvalid hexist hhours ?_
  rw [currentSlot_utc now hutc hvalid, hzone]
  obtain ⟨hle, hlt⟩ := baseSlot_bounds cadence now
  exact latestSlot_of_recent hvalid (isSlot_baseSlot hvalid) hle hlt

/-- **In UTC the slots are in reach** at any time from the second week of 1970 on. -/
theorem slotsInReach_utc (hutc : cadence.timezone = .utc)
    (hvalid : validateRecurringCadence taskId (.wallClock cadence) = .ok ())
    (hsince : WEEK_MS ≤ now) (hbefore : now + WEEK_MS ≤ MAX_DATE) :
    SlotsInReach active cadence stagger now (baseSlot cadence now)
      (baseSlot cadence now + cadencePeriodMs cadence) := by
  have hzone : cadence.zone active = .utc := if_pos hutc
  obtain ⟨hle, hlt⟩ := baseSlot_bounds cadence now
  obtain ⟨hperiod, hweek⟩ := cadencePeriod_pos cadence
  have hslot : IsSlot .utc cadence (baseSlot cadence now) := isSlot_baseSlot hvalid
  have hnext := isSlot_nextPeriod hvalid hslot
  obtain ⟨hexist, hreach⟩ := slotInReach_utc hutc hvalid
  refine ⟨?_, ?_, ?_, ?_, ?_, .inr (by omega), by omega⟩
  · rw [hzone]
    exact hexist
  · rw [hzone]
    exact hreach
  · rw [hzone]
    exact latestSlot_of_recent hvalid hslot hle hlt
  · rw [hzone]
    refine ⟨hnext, hlt, fun t ht hcoming => ?_⟩
    exact period_le_of_slots hvalid hslot ht (Int.lt_of_le_of_lt hle hcoming)
  · rw [hzone]
    cases cadence with
    | hourly minute timezone => rfl
    | daily hour minute timezone =>
      refine ⟨(slotInReach_utc hutc hvalid).2,
        latestSlot_of_recent hvalid hnext ?_ ?_⟩
      · simp only [cadencePeriodMs, DAY_MS, HOUR_MS]
        omega
      · simp only [cadencePeriodMs, DAY_MS, HOUR_MS]
        omega
    | weekly dayOfWeek hour minute timezone =>
      refine ⟨(slotInReach_utc hutc hvalid).2,
        latestSlot_of_recent hvalid hnext ?_ ?_⟩
      · simp only [cadencePeriodMs, WEEK_MS, DAY_MS]
        omega
      · simp only [cadencePeriodMs, WEEK_MS, DAY_MS]
        omega

end Utc

/-! ## Entries -/

namespace Scheduler

/-- The cadence and the stagger of an entry have passed their checks. -/
structure Checked (entry : ScheduledTask) : Prop where
  cadence : ∀ cadence, entry.cadence = some (.wallClock cadence) →
    ∃ taskId, validateRecurringCadence taskId (.wallClock cadence) = .ok ()
  stagger : entry.fleetStagger = none ∨ ∃ taskId cadence,
    validateFleetStagger taskId .every (some (.wallClock cadence)) entry.fleetStagger = .ok ()

/-- At `now` the slots of the entry, if it has any, are in reach. -/
def InReach (active : Zone) (entry : ScheduledTask) (now : Int) : Prop :=
  entry.type = .every → ∀ cadence, entry.cadence = some (.wallClock cadence) →
    ∃ slot next, SlotsInReach active cadence entry.fleetStagger now slot next

/-- When a wall-clock task is due, its slots being moved by `offset`. -/
def dueOfSlots (now : Int) (lastRun : Rat) (slot next offset : Int) : Int :=
  if slot + offset ≤ now ∧ lastRun < ((slot + offset : Int) : Rat) then now
  else if now < slot + offset then slot + offset else next + offset

section Due

variable {active : Zone} {entry : ScheduledTask} {cadence : WallClockCadence} {now later : Int}

theorem staggered_found (h : Checked entry) {slot : Int}
    (hdated : entry.fleetStagger = none ∨ 0 ≤ slot) (hdate : slot ≤ MAX_DATE) :
    fleetStaggeredSlotStart slot entry.fleetStagger =
      .ok (slot + staggerOffset entry.fleetStagger) := by
  rcases h.stagger with hnone | ⟨taskId, cadence, hvalid⟩
  · rw [hnone]
    exact congrArg Except.ok (Int.add_zero slot).symm
  · exact fleetStaggeredSlotStart_eq hvalid hdated hdate

theorem staggerOffset_nonneg (h : Checked entry) : 0 ≤ staggerOffset entry.fleetStagger := by
  rcases h.stagger with hnone | ⟨taskId, cadence, hvalid⟩
  · rw [hnone]
    exact Int.le_refl 0
  · exact (staggerOffset_bounds hvalid).1

section WallClock

variable {slot next : Int} (hchecked : Checked entry)
  (hcadence : entry.cadence = some (.wallClock cadence))
  (h : SlotsInReach active cadence entry.fleetStagger now slot next)

include hchecked hcadence h

theorem isWallClockTaskDue_found :
    isWallClockTaskDue active now entry.lastRun cadence entry.fleetStagger =
      .ok (decide (slot + staggerOffset entry.fleetStagger ≤ now ∧
        entry.lastRun < ((slot + staggerOffset entry.fleetStagger : Int) : Rat))) := by
  obtain ⟨taskId, hvalid⟩ := hchecked.cadence cadence hcadence
  have hslot : slot ≤ MAX_DATE := by
    have hpassed := h.latest.2.1
    have hcoming := h.coming.2.1
    have hdate := h.before
    omega
  unfold isWallClockTaskDue getCurrentStaggeredSlotStart
  rw [currentSlot_found hvalid h, staggered_found hchecked h.since hslot]
  exact congrArg Except.ok (Bool.decide_and _ _).symm

theorem getNextStaggeredSlotStart_found :
    getNextStaggeredSlotStart active now cadence entry.fleetStagger =
      .ok (if now < slot + staggerOffset entry.fleetStagger then
        slot + staggerOffset entry.fleetStagger else next + staggerOffset entry.fleetStagger) := by
  obtain ⟨taskId, hvalid⟩ := hchecked.cadence cadence hcadence
  have hpassed := h.latest.2.1
  have hcoming := h.coming.2.1
  have hdate := h.before
  have hdated' : entry.fleetStagger = none ∨ 0 ≤ next := h.since.imp_right fun h => by omega
  unfold getNextStaggeredSlotStart
  refine bind_eq_ok.2 ⟨_, by
    rw [currentSlot_found hvalid h]
    exact staggered_found hchecked h.since (by omega), ?_⟩
  split
  · rfl
  · refine bind_eq_ok.2 ⟨next, ?_, staggered_found hchecked hdated' hdate⟩
    rw [currentSlot_found hvalid h]
    exact nextSlot_found hvalid h

/-- The due time of an idle wall-clock task. -/
theorem nextDue_found (htype : entry.type = .every) (hidle : entry.state = .idle) :
    taskNextDueAt active now entry = .ok (some (dueOfSlots now entry.lastRun slot next
      (staggerOffset entry.fleetStagger) : Int)) := by
  have hdue := isWallClockTaskDue_found hchecked hcadence h
  have hnext := getNextStaggeredSlotStart_found hchecked hcadence h
  unfold taskNextDueAt
  rw [if_neg (not_not.2 hidle), htype, hcadence]
  refine bind_eq_ok.2 ⟨_, hdue, ?_⟩
  unfold dueOfSlots
  split
  · rename_i hpassed
    rw [if_pos (of_decide_eq_true hpassed)]
    rfl
  · rename_i hpassed
    rw [if_neg (fun h => hpassed (decide_eq_true h))]
    exact bind_eq_ok.2 ⟨_, hnext, rfl⟩

end WallClock

theorem nextDue_relative (htype : entry.type = .every) (hidle : entry.state = .idle)
    (hwall : ¬ ∃ cadence, entry.cadence = some (.wallClock cadence)) :
    taskNextDueAt active now entry =
      .ok (some (if entry.lastRun = 0 then (now : Rat) else entry.lastRun + entry.intervalMs)) := by
  rw [taskNextDueAt, if_neg (not_not.2 hidle), htype]
  dsimp only
  split
  · rename_i cadence hcadence
    exact absurd ⟨cadence, hcadence⟩ hwall
  · rfl

theorem nextDue_oneShot (htype : entry.type = .oneShot) (hidle : entry.state = .idle) :
    taskNextDueAt active now entry = .ok entry.runAt := by
  rw [taskNextDueAt, if_neg (not_not.2 hidle), htype]

theorem dueOfSlots_mono {lastRun : Rat} {slot next slot' next' offset : Int} (hle : now ≤ later)
    (hslot : slot ≤ now ∧ now < next) (hslot' : slot' ≤ later ∧ later < next')
    (hoffset : 0 ≤ offset) (h : slot' = slot ∧ next' = next ∨ next ≤ slot') :
    dueOfSlots now lastRun slot next offset ≤ dueOfSlots later lastRun slot' next' offset := by
  unfold dueOfSlots
  rcases h with ⟨rfl, rfl⟩ | hpassed
  · -- the same slots: what is due stays due, and what is not waits for the same slot
    by_cases hrun : lastRun < ((slot' + offset : Int) : Rat)
    · simp only [hrun, and_true]
      split_ifs <;> omega
    · simp only [hrun, and_false, if_false]
      split_ifs <;> omega
  · split_ifs <;> omega

/-- **The due time does not come nearer** while the entry is left alone. -/
theorem taskNextDueAt_mono (hchecked : Checked entry) (hle : now ≤ later)
    (hnow : InReach active entry now) (hlater : InReach active entry later) :
    ∃ due due', taskNextDueAt active now entry = .ok due ∧
      taskNextDueAt active later entry = .ok due' ∧
      ∀ d' ∈ due', ∃ d ∈ due, d ≤ d' := by
  by_cases hidle : entry.state = .idle
  · cases htype : entry.type with
    | oneShot =>
      exact ⟨_, _, nextDue_oneShot htype hidle, nextDue_oneShot htype hidle,
        fun d hd => ⟨d, hd, le_refl d⟩⟩
    | every =>
      by_cases hwall : ∃ cadence, entry.cadence = some (.wallClock cadence)
      · obtain ⟨cadence, hcadence⟩ := hwall
        obtain ⟨slot, next, hslots⟩ := hnow htype cadence hcadence
        obtain ⟨slot', next', hslots'⟩ := hlater htype cadence hcadence
        refine ⟨_, _, nextDue_found hchecked hcadence hslots htype hidle,
          nextDue_found hchecked hcadence hslots' htype hidle, ?_⟩
        intro d' hd'
        cases hd'
        refine ⟨_, rfl, Int.cast_le.2 (dueOfSlots_mono hle ?_ ?_ (staggerOffset_nonneg hchecked) ?_)⟩
        · exact ⟨hslots.latest.2.1, hslots.coming.2.1⟩
        · exact ⟨hslots'.latest.2.1, hslots'.coming.2.1⟩
        · exact slots_later hle hslots.latest hslots.coming hslots'.latest hslots'.coming
      · refine ⟨_, _, nextDue_relative htype hidle hwall, nextDue_relative htype hidle hwall, ?_⟩
        intro d' hd'
        cases hd'
        refine ⟨_, rfl, ?_⟩
        split
        · exact Int.cast_le.2 hle
        · exact le_refl _
  · refine ⟨none, none, ?_, ?_, nofun⟩
    · rw [taskNextDueAt, if_pos hidle]
    · rw [taskNextDueAt, if_pos hidle]

/-- **The two agree**: an idle task is due exactly when its due time has come. -/
theorem isTaskDue_iff (hchecked : Checked entry) (hidle : entry.state = .idle)
    (hnow : InReach active entry now) :
    ∃ due, taskNextDueAt active now entry = .ok due ∧
      isTaskDue active now entry = .ok (due.any fun (due : Rat) => due ≤ now) := by
  cases htype : entry.type with
  | oneShot =>
    refine ⟨_, nextDue_oneShot htype hidle, ?_⟩
    rw [isTaskDue, htype]
  | every =>
    by_cases hwall : ∃ cadence, entry.cadence = some (.wallClock cadence)
    · obtain ⟨cadence, hcadence⟩ := hwall
      obtain ⟨slot, next, hslots⟩ := hnow htype cadence hcadence
      refine ⟨_, nextDue_found hchecked hcadence hslots htype hidle, ?_⟩
      rw [isTaskDue, htype, hcadence]
      dsimp only
      rw [isWallClockTaskDue_found hchecked hcadence hslots]
      have hoffset := staggerOffset_nonneg hchecked
      have hcoming := hslots.coming.2.1
      refine congrArg Except.ok (decide_eq_decide.2 ?_)
      rw [Int.cast_le]
      unfold dueOfSlots
      split
      · rename_i hdue
        exact iff_of_true hdue (Int.le_refl _)
      · rename_i hdue
        refine iff_of_false hdue ?_
        split <;> omega
    · refine ⟨_, nextDue_relative htype hidle hwall, ?_⟩
      rw [isTaskDue, htype]
      dsimp only
      split
      · rename_i cadence hcadence
        exact absurd ⟨cadence, hcadence⟩ hwall
      · refine congrArg Except.ok ?_
        rw [Bool.eq_iff_iff]
        simp only [Bool.or_eq_true, decide_eq_true_eq, Option.any_some]
        split
        · rename_i hnever
          exact iff_of_true (.inl hnever) (le_refl _)
        · rename_i hran
          rw [or_iff_right hran, ge_iff_le, le_sub_iff_add_le, add_comm]

end Due

end Scheduler

end Psfn.TaskScheduler
