import Mathlib.Algebra.Order.Ring.Cast
import Mathlib.Algebra.Order.Ring.Rat
import Psfn.TaskScheduler.LatestSlot

/-!
# Serving staggered slots

A wall-clock task in UTC whose slots are moved by its place in the fleet. A tick asks only whether
the current base slot, so moved, has passed and was not served: between a base slot and its moved
instant, the slot before is out of sight.

* `currentSlot_utc` — the base slots are an arithmetic progression;
* `tickTask_iff` — when a tick runs the task for the slots that it owes;
* `slots_served` — the same over all ticks of a run;
* `slots_served_missed` — a slot missed while the process was down, and a tick that leaves it so.
-/

namespace Psfn.TaskScheduler

open Lib (bind_eq_ok throwIf_eq_ok)

/-! ## Base slots -/

/-- The first base slot of a cadence in UTC, give or take whole periods. -/
def slotPhase : WallClockCadence → Int
  | .hourly minute _ => minute * MINUTE_MS
  | .daily hour minute _ => hour * HOUR_MS + minute * MINUTE_MS
  | .weekly dayOfWeek hour minute _ =>
    (dayOfWeek - 4) * DAY_MS + hour * HOUR_MS + minute * MINUTE_MS

/-- The latest term of the progression of base slots. -/
def baseSlot (cadence : WallClockCadence) (now : Int) : Int :=
  now - (now - slotPhase cadence) % cadencePeriodMs cadence

theorem zonedWallClockToEpoch_utc (date hour minute : Int) :
    zonedWallClockToEpoch .utc date hour minute = dateUTC date hour minute 0 := by
  rw [zonedWallClockToEpoch_eq, Zone.offset_utc, Int.sub_zero]

theorem currentSlot_utc {active : Zone} {cadence : WallClockCadence} {taskId : String} (now : Int)
    (hutc : cadence.timezone = .utc)
    (hvalid : validateRecurringCadence taskId (.wallClock cadence) = .ok ()) :
    getCurrentSlotStart active now cadence = baseSlot cadence now := by
  have hzone : cadence.zone active = .utc := if_pos hutc
  unfold getCurrentSlotStart
  rw [hzone]
  cases cadence with
  | hourly minute timezone =>
    simp only [validateRecurringCadence, throwIf_eq_ok, Bool.or_eq_false_iff,
      decide_eq_false_iff_not, Int.not_lt] at hvalid
    simp only [zonedWallClockToEpoch_utc, zonedWallClockParts, Zone.clock_utc, dateUTC, baseSlot,
      slotPhase, cadencePeriodMs, DAY_MS, HOUR_MS, MINUTE_MS, SECOND_MS]
    split <;> omega
  | daily hour minute timezone =>
    simp only [validateRecurringCadence, bind_eq_ok, throwIf_eq_ok, Bool.or_eq_false_iff,
      decide_eq_false_iff_not, Int.not_lt] at hvalid
    simp only [zonedWallClockToEpoch_utc, zonedWallClockParts, Zone.clock_utc, dateUTC, baseSlot,
      slotPhase, cadencePeriodMs, DAY_MS, HOUR_MS, MINUTE_MS, SECOND_MS]
    obtain ⟨-, hhour, hminute⟩ := hvalid
    split <;> omega
  | weekly dayOfWeek hour minute timezone =>
    simp only [validateRecurringCadence, bind_eq_ok, throwIf_eq_ok, Bool.or_eq_false_iff,
      decide_eq_false_iff_not, Int.not_lt] at hvalid
    obtain ⟨-, hweekday, -, hhour, hminute⟩ := hvalid
    simp only [zonedWallClockToEpoch_utc, zonedWallClockParts, Zone.clock_utc, dateUTC, baseSlot,
      slotPhase, cadencePeriodMs, WEEK_MS, DAY_MS, HOUR_MS, MINUTE_MS, SECOND_MS, weekdayOf]
    split <;> omega

/-! ## Moved slots -/

/-- How far a task's slots are moved. -/
def staggerOffset : Option FleetSlotStagger → Int
  | none => 0
  | some stagger => stagger.windowMs * stagger.manifestOrdinal / stagger.fleetSize

def slotInstant (cadence : WallClockCadence) (stagger : Option FleetSlotStagger) (k : Int) : Int :=
  slotPhase cadence + k * cadencePeriodMs cadence + staggerOffset stagger

/-- The last instant that a `Date` can hold. -/
def MAX_DATE : Int := 8640000000000000

section Stagger

variable {cadence : WallClockCadence} {stagger : Option FleetSlotStagger} {taskId : String}

theorem cadencePeriod_pos (cadence : WallClockCadence) :
    0 < cadencePeriodMs cadence ∧ cadencePeriodMs cadence ≤ WEEK_MS := by
  simp only [WEEK_MS, DAY_MS]
  cases cadence <;> simp [cadencePeriodMs, WEEK_MS, DAY_MS, HOUR_MS]

theorem staggerOffset_bounds
    (h : validateFleetStagger taskId .every (some (.wallClock cadence)) stagger = .ok ()) :
    0 ≤ staggerOffset stagger ∧ staggerOffset stagger < cadencePeriodMs cadence := by
  have hperiod := cadencePeriod_pos cadence
  cases stagger with
  | none => exact ⟨Int.le_refl _, hperiod.1⟩
  | some stagger =>
    simp only [validateFleetStagger, bind_eq_ok, throwIf_eq_ok, Bool.or_eq_false_iff,
      decide_eq_false_iff_not] at h
    obtain ⟨-, hsize, -, hordinal, -, hwindow, hfits⟩ := h
    have hsize' : 0 < stagger.fleetSize := by omega
    have hordinal' : 0 ≤ stagger.manifestOrdinal := by omega
    have hlt : stagger.manifestOrdinal < stagger.fleetSize := by omega
    have hwindow' : 0 < stagger.windowMs := by omega
    have hle : stagger.windowMs * stagger.manifestOrdinal / stagger.fleetSize ≤ stagger.windowMs := by
      refine Int.ediv_le_of_le_mul hsize' ?_
      exact Int.mul_le_mul_of_nonneg_left (Int.le_of_lt hlt) (Int.le_of_lt hwindow')
    refine ⟨Int.ediv_nonneg (Int.mul_nonneg (Int.le_of_lt hwindow') hordinal')
      (Int.le_of_lt hsize'), ?_⟩
    show stagger.windowMs * stagger.manifestOrdinal / stagger.fleetSize < _
    omega

theorem requireTimestamp_eq {value : Int} (h : 0 ≤ value) (hsafe : value ≤ MAX_SAFE_INTEGER)
    (field : String) : requireTimestamp value field = .ok value := by
  have hlow : -MAX_SAFE_INTEGER ≤ value := by
    unfold MAX_SAFE_INTEGER
    omega
  refine bind_eq_ok.2 ⟨(), throwIf_eq_ok.2 ?_, rfl⟩
  simp [isSafeInteger, hlow, hsafe, h]

/-- A base slot from 1970 on is moved by the offset. -/
theorem fleetStaggeredSlotStart_eq {slot : Int}
    (h : validateFleetStagger taskId .every (some (.wallClock cadence)) stagger = .ok ())
    (hslot : stagger = none ∨ 0 ≤ slot) (hdate : slot ≤ MAX_DATE) :
    fleetStaggeredSlotStart slot stagger = .ok (slot + staggerOffset stagger) := by
  have hperiod := cadencePeriod_pos cadence
  cases stagger with
  | none => exact congrArg Except.ok (Int.add_zero slot).symm
  | some stagger =>
    have hslot' : 0 ≤ slot := hslot.resolve_left (by nofun)
    simp only [validateFleetStagger, bind_eq_ok, throwIf_eq_ok, Bool.or_eq_false_iff,
      decide_eq_false_iff_not] at h
    obtain ⟨_, ⟨hsafe, hsize⟩, _, ⟨⟨hsafe', hordinal⟩, hlt⟩, _, ⟨-, hwindow⟩, hfits⟩ := h
    have hwindow' : 0 < stagger.windowMs := by omega
    have hweek : stagger.windowMs < WEEK_MS := by omega
    have hstart := requireTimestamp_eq hslot' (by unfold MAX_DATE at hdate; unfold MAX_SAFE_INTEGER; omega)
      "fleetSchedule.windowStartMs"
    have hsum : 0 ≤ slot + stagger.windowMs := by omega
    have hend := requireTimestamp_eq hsum
      (by unfold MAX_DATE at hdate; unfold WEEK_MS DAY_MS at hweek; unfold MAX_SAFE_INTEGER; omega)
      "fleetSchedule.windowEndMs"
    refine bind_eq_ok.2 ⟨_, hstart, bind_eq_ok.2 ⟨_, hend, bind_eq_ok.2 ⟨(), throwIf_eq_ok.2 ?_,
      bind_eq_ok.2 ⟨(), throwIf_eq_ok.2 ?_, bind_eq_ok.2 ⟨(), throwIf_eq_ok.2 ?_, ?_⟩⟩⟩⟩⟩
    · exact decide_eq_false (by omega)
    · rw [hsafe, decide_eq_false hsize]
      rfl
    · rw [hsafe', decide_eq_false hordinal, decide_eq_false hlt]
      rfl
    · rw [show slot + stagger.windowMs - slot = stagger.windowMs by omega]
      rfl

/-- Before 1970 the stagger throws. -/
theorem fleetStaggeredSlotStart_negative {slot result : Int} {stagger : FleetSlotStagger}
    (h : slot < 0) : fleetStaggeredSlotStart slot (some stagger) ≠ .ok result := by
  intro hok
  obtain ⟨_, hstart, -⟩ := bind_eq_ok.1 hok
  obtain ⟨_, hbad, -⟩ := bind_eq_ok.1 hstart
  rw [throwIf_eq_ok, Bool.or_eq_false_iff] at hbad
  exact of_decide_eq_false hbad.2 h

end Stagger

/-! ## Ticks -/

/-- Whether a tick runs the task; what throws ends the tick before that. -/
def tickTask (active : Zone) (cadence : WallClockCadence) (stagger : Option FleetSlotStagger)
    (lastRun : Rat) (now : Int) : Bool :=
  match isWallClockTaskDue active now lastRun cadence stagger with
  | .ok due => due
  | .error _ => false

structure ServedTick where
  lastRun : Rat
  now     : Int
  ran     : Bool

/-- The ticks of a run, each handler settled before the next. -/
def servedTicks (active : Zone) (cadence : WallClockCadence) (stagger : Option FleetSlotStagger) :
    Rat → List Int → List ServedTick
  | _, [] => []
  | lastRun, now :: rest =>
    let ran := tickTask active cadence stagger lastRun now
    { lastRun, now, ran } :: servedTicks active cadence stagger (if ran then now else lastRun) rest

/-- A slot has passed since the last run. -/
def Owed (cadence : WallClockCadence) (stagger : Option FleetSlotStagger) (tick : ServedTick) :
    Prop :=
  ∃ k, tick.lastRun < slotInstant cadence stagger k ∧ slotInstant cadence stagger k ≤ tick.now

/-- The latest slot that has passed. -/
def latestInstant (cadence : WallClockCadence) (stagger : Option FleetSlotStagger) (now : Int) :
    Int :=
  let slot := baseSlot cadence now + staggerOffset stagger
  if slot ≤ now then slot else slot - cadencePeriodMs cadence

/-- The slots are not moved, or the current one, from 1970 on, has passed where it was moved to, or
the latest slot was served. -/
def TickInReach (cadence : WallClockCadence) (stagger : Option FleetSlotStagger)
    (tick : ServedTick) : Prop :=
  stagger = none ∨
    0 ≤ baseSlot cadence tick.now ∧ baseSlot cadence tick.now + staggerOffset stagger ≤ tick.now ∨
    (latestInstant cadence stagger tick.now : Rat) ≤ tick.lastRun

section Ticks

variable {active : Zone} {cadence : WallClockCadence} {stagger : Option FleetSlotStagger}
  {taskId : String}

/-- The latest slot is one, has passed, and no later one has. -/
theorem latestInstant_spec (now : Int)
    (hstagger : validateFleetStagger taskId .every (some (.wallClock cadence)) stagger = .ok ()) :
    (∃ k, latestInstant cadence stagger now = slotInstant cadence stagger k) ∧
      latestInstant cadence stagger now ≤ now ∧
      ∀ k, slotInstant cadence stagger k ≤ now →
        slotInstant cadence stagger k ≤ latestInstant cadence stagger now := by
  have hoffset := staggerOffset_bounds hstagger
  have hperiod := (cadencePeriod_pos cadence).1
  have hbase : baseSlot cadence now =
      slotPhase cadence + (now - slotPhase cadence) / cadencePeriodMs cadence *
        cadencePeriodMs cadence := by
    have hdiv := Int.ediv_mul_add_emod (now - slotPhase cadence) (cadencePeriodMs cadence)
    unfold baseSlot
    omega
  have hbelow := Int.emod_nonneg (now - slotPhase cadence) (Int.ne_of_gt hperiod)
  have habove := Int.emod_lt_of_pos (now - slotPhase cadence) hperiod
  have hbase' : baseSlot cadence now =
      now - (now - slotPhase cadence) % cadencePeriodMs cadence := rfl
  unfold latestInstant slotInstant
  generalize staggerOffset stagger = offset at *
  generalize cadencePeriodMs cadence = period at *
  generalize (now - slotPhase cadence) % period = rest at *
  generalize (now - slotPhase cadence) / period = q at *
  have hnext : ∀ k, q < k → q * period + period ≤ k * period := by
    intro k hk
    calc q * period + period = (q + 1) * period := by rw [Int.add_mul, Int.one_mul]
      _ ≤ k * period := Int.mul_le_mul_of_nonneg_right hk (Int.le_of_lt hperiod)
  have hprior : ∀ k, k < q → k * period + period ≤ q * period := by
    intro k hk
    calc k * period + period = (k + 1) * period := by rw [Int.add_mul, Int.one_mul]
      _ ≤ q * period := Int.mul_le_mul_of_nonneg_right hk (Int.le_of_lt hperiod)
  have hback : (q - 1) * period = q * period - period := by rw [Int.sub_mul, Int.one_mul]
  dsimp only
  split
  · rename_i hpassed
    refine ⟨⟨q, by omega⟩, hpassed, fun k hk => ?_⟩
    rcases Int.lt_trichotomy k q with hlt | rfl | hgt
    · have := hprior k hlt
      omega
    · omega
    · have := hnext k hgt
      omega
  · rename_i hcoming
    refine ⟨⟨q - 1, by omega⟩, by omega, fun k hk => ?_⟩
    rcases Int.lt_trichotomy k (q - 1) with hlt | rfl | hgt
    · have := hprior k (by omega)
      omega
    · omega
    · rcases Int.lt_or_le q k with hmore | hle
      · have := hnext k hmore
        omega
      · obtain rfl : k = q := by omega
        omega

theorem owed_iff {tick : ServedTick}
    (hstagger : validateFleetStagger taskId .every (some (.wallClock cadence)) stagger = .ok ()) :
    Owed cadence stagger tick ↔ tick.lastRun < latestInstant cadence stagger tick.now := by
  obtain ⟨⟨k, hk⟩, hpassed, hlatest⟩ := latestInstant_spec tick.now hstagger
  constructor
  · rintro ⟨j, hafter, hbefore⟩
    exact lt_of_lt_of_le hafter (Int.cast_le.2 (hlatest j hbefore))
  · intro h
    exact ⟨k, hk ▸ h, hk ▸ hpassed⟩

/-- What a tick sees: the current base slot, moved. -/
theorem tickTask_eq_true_iff {tick : ServedTick} (hutc : cadence.timezone = .utc)
    (hvalid : validateRecurringCadence taskId (.wallClock cadence) = .ok ()) :
    tickTask active cadence stagger tick.lastRun tick.now = true ↔
      ∃ slot, fleetStaggeredSlotStart (baseSlot cadence tick.now) stagger = .ok slot ∧
        slot ≤ tick.now ∧ tick.lastRun < slot := by
  simp only [tickTask, isWallClockTaskDue, getCurrentStaggeredSlotStart,
    currentSlot_utc tick.now hutc hvalid]
  cases fleetStaggeredSlotStart (baseSlot cadence tick.now) stagger with
  | error message => simp [bind, Except.bind]
  | ok slot => simp [bind, Except.bind, pure, Except.pure]

/-- **A tick runs the task for what it owes** exactly when it is in reach. -/
theorem tickTask_iff {tick : ServedTick} (hutc : cadence.timezone = .utc)
    (hvalid : validateRecurringCadence taskId (.wallClock cadence) = .ok ())
    (hstagger : validateFleetStagger taskId .every (some (.wallClock cadence)) stagger = .ok ())
    (hdate : tick.now ≤ MAX_DATE) :
    (tickTask active cadence stagger tick.lastRun tick.now = true ↔ Owed cadence stagger tick) ↔
      TickInReach cadence stagger tick := by
  have hperiod := (cadencePeriod_pos cadence).1
  have hbase : baseSlot cadence tick.now ≤ tick.now := by
    have := Int.emod_nonneg (tick.now - slotPhase cadence) (Int.ne_of_gt hperiod)
    unfold baseSlot
    omega
  rw [tickTask_eq_true_iff hutc hvalid, owed_iff hstagger]
  by_cases hreach : stagger = none ∨ 0 ≤ baseSlot cadence tick.now
  · have hslot := fleetStaggeredSlotStart_eq hstagger hreach (by omega)
    simp only [hslot, Except.ok.injEq, exists_eq_left']
    by_cases hpassed : baseSlot cadence tick.now + staggerOffset stagger ≤ tick.now
    · have hlatest : latestInstant cadence stagger tick.now =
          baseSlot cadence tick.now + staggerOffset stagger := if_pos hpassed
      rw [hlatest]
      have hin : TickInReach cadence stagger tick :=
        hreach.imp_right fun h => .inl ⟨h, hpassed⟩
      exact iff_of_true (and_iff_right hpassed) hin
    · have hmoved : stagger ≠ none := by
        rintro rfl
        exact hpassed (by
          show baseSlot cadence tick.now + 0 ≤ tick.now
          omega)
      unfold TickInReach
      have hnot : ¬ (baseSlot cadence tick.now + staggerOffset stagger ≤ tick.now ∧
          tick.lastRun < ((baseSlot cadence tick.now + staggerOffset stagger : Int) : Rat)) :=
        fun h => hpassed h.1
      have hnot' : ¬ (0 ≤ baseSlot cadence tick.now ∧
          baseSlot cadence tick.now + staggerOffset stagger ≤ tick.now) := fun h => hpassed h.2
      rw [iff_false_left hnot, or_iff_right hmoved, or_iff_right hnot', not_lt]
  · obtain ⟨hsome, hnegative⟩ := not_or.1 hreach
    cases stagger with
    | none => exact absurd rfl hsome
    | some stagger =>
      have hnot : ¬ ∃ slot, fleetStaggeredSlotStart (baseSlot cadence tick.now) (some stagger) =
          .ok slot ∧ slot ≤ tick.now ∧ tick.lastRun < slot := by
        rintro ⟨slot, hslot, -⟩
        exact fleetStaggeredSlotStart_negative (by omega) hslot
      have hnot' : ¬ (0 ≤ baseSlot cadence tick.now ∧
          baseSlot cadence tick.now + staggerOffset (some stagger) ≤ tick.now) :=
        fun h => hnegative h.1
      unfold TickInReach
      rw [iff_false_left hnot, or_iff_right hsome, or_iff_right hnot', not_lt]

theorem mem_servedTicks {seed : Rat} {ticks : List Int} {tick : ServedTick}
    (h : tick ∈ servedTicks active cadence stagger seed ticks) :
    tick.now ∈ ticks ∧ tick.ran = tickTask active cadence stagger tick.lastRun tick.now := by
  induction ticks generalizing seed with
  | nil => exact absurd h List.not_mem_nil
  | cons now rest ih =>
    rcases List.mem_cons.1 h with rfl | hrest
    · exact ⟨List.mem_cons_self .., rfl⟩
    · obtain ⟨hnow, hran⟩ := ih hrest
      exact ⟨List.mem_cons_of_mem _ hnow, hran⟩

end Ticks

/--
**Every slot is served at the next tick** in the runs whose ticks are all in reach, and in no
others.
-/
theorem slots_served (active : Zone) (cadence : WallClockCadence)
    (stagger : Option FleetSlotStagger) (taskId : String) (hutc : cadence.timezone = .utc)
    (hvalid : validateRecurringCadence taskId (.wallClock cadence) = .ok ())
    (hstagger : validateFleetStagger taskId .every (some (.wallClock cadence)) stagger = .ok ())
    (seed : Rat) (ticks : List Int) (hdates : ∀ now ∈ ticks, now ≤ MAX_DATE) :
    (∀ tick ∈ servedTicks active cadence stagger seed ticks,
        (tick.ran = true ↔ Owed cadence stagger tick)) ↔
      ∀ tick ∈ servedTicks active cadence stagger seed ticks, TickInReach cadence stagger tick := by
  refine forall_congr' fun tick => forall_congr' fun htick => ?_
  obtain ⟨hnow, hran⟩ := mem_servedTicks htick
  rw [hran]
  exact tickTask_iff hutc hvalid hstagger (hdates _ hnow)

/-- Two ticks at which every slot is served. -/
theorem slots_served_twice :
    (servedTicks .utc (.daily 0 0 .utc) (some ⟨1, 2, 43200000⟩) 86400000
        [1771142400000, 1771164000000]).length = 2 ∧
      ∀ tick ∈ servedTicks .utc (.daily 0 0 .utc) (some ⟨1, 2, 43200000⟩) 86400000
          [1771142400000, 1771164000000],
        (tick.ran = true ↔ Owed (.daily 0 0 .utc) (some ⟨1, 2, 43200000⟩) tick) :=
  ⟨rfl, (slots_served .utc (.daily 0 0 .utc) (some ⟨1, 2, 43200000⟩) "review" rfl rfl rfl 86400000
    [1771142400000, 1771164000000] (by decide)).2 (by
      intro tick htick
      have hnow := (mem_servedTicks htick).1
      simp only [List.mem_cons, List.not_mem_nil, or_false] at hnow
      rcases hnow with hnow | hnow
      · exact .inr (.inl (hnow ▸ by decide))
      · exact .inr (.inl (hnow ▸ by decide)))⟩

/-- **A missed slot is not recovered** at the first tick after it: the slots are at 06:00, that of
Sunday was missed, and on Monday at 01:00 nothing runs. -/
theorem slots_served_missed :
    ∃ tick ∈ servedTicks .utc (.daily 0 0 .utc) (some ⟨1, 2, 43200000⟩) 1771048800000 [1771203600000],
      ¬ (tick.ran = true ↔ Owed (.daily 0 0 .utc) (some ⟨1, 2, 43200000⟩) tick) := by
  refine ⟨_, List.mem_cons_self .., fun h => ?_⟩
  have howed := h.2 ⟨20499, by decide +kernel, by decide⟩
  revert howed
  decide +kernel

end Psfn.TaskScheduler
