import Psfn.Lib.Transition
import Psfn.TaskScheduler.NextDue

/-!
# Task updates

`register` checks a task before it admits it; `updateTask` checks the fields it is given and applies
them one after another. Here the fields are the numbers and texts that are handed in, so that a
check has something to refuse; the wake request at the end of an update reads the tasks and writes
none, and is a parameter that says whether it comes through.

* `checkTask_spec` — what an admitted wall-clock task looks like to the slot computations;
* `dueAgain_of_admitted` — such a task in UTC is due again within a period and its offset;
* `updateSound_iff` — a refused update changes nothing and an accepted one keeps the task admitted
  exactly when no interval was applied before a cadence is refused and a new cadence still fits the
  fleet stagger;
* `updates_sound_run` — the same in every state of every run of such updates.
-/

namespace Psfn.TaskScheduler.Updates

open Psfn.Lib

/-! ## Tasks as they are handed in -/

inductive CadenceInput where
  | relative
  | hourly (minute : JsNumber) (timezone : String)
  | daily (hour minute : JsNumber) (timezone : String)
  | weekly (dayOfWeek hour minute : JsNumber) (timezone : String)
deriving DecidableEq

structure FleetSlotStaggerInput where
  manifestOrdinal : JsNumber
  fleetSize       : JsNumber
  windowMs        : JsNumber
deriving DecidableEq

/-- `RuntimeScheduledTask`. -/
structure TaskEntry where
  id           : String
  name         : String
  type         : TaskType
  intervalMs   : JsNumber
  cadence      : Option CadenceInput
  fleetStagger : Option FleetSlotStaggerInput
  runAt        : Option JsNumber
  state        : TaskState
  lastRun      : JsNumber
deriving DecidableEq

abbrev Tasks := JsMap String TaskEntry

def CadenceInput.isWallClock : CadenceInput → Bool
  | relative => false
  | _ => true

/-! ## The checks of a task -/

/-- `!Number.isInteger(value) || value < 0 || value > highest`. -/
def outside (value : JsNumber) (highest : Int) : Bool :=
  !value.isInteger || value.lt (.finite 0) || (JsNumber.finite highest).lt value

def checkTimezone (taskId timezone : String) : Except String Unit :=
  throwIf (timezone ≠ "local" && timezone ≠ "utc")
    s!"Task \"{taskId}\" cadence.timezone must be \"local\" or \"utc\""

def checkDayOfWeek (taskId : String) (dayOfWeek : JsNumber) : Except String Unit :=
  throwIf (outside dayOfWeek 6)
    s!"Task \"{taskId}\" cadence.dayOfWeek must be an integer between 0 and 6"

def checkHour (taskId : String) (hour : JsNumber) : Except String Unit :=
  throwIf (outside hour 23) s!"Task \"{taskId}\" cadence.hour must be an integer between 0 and 23"

def checkMinute (taskId : String) (minute : JsNumber) : Except String Unit :=
  throwIf (outside minute 59)
    s!"Task \"{taskId}\" cadence.minute must be an integer between 0 and 59"

def validateRecurringCadence (taskId : String) : Option CadenceInput → Except String Unit
  | none => .ok ()
  | some .relative => .ok ()
  | some (.hourly minute timezone) => do
    checkTimezone taskId timezone
    checkMinute taskId minute
  | some (.daily hour minute timezone) => do
    checkTimezone taskId timezone
    checkHour taskId hour
    checkMinute taskId minute
  | some (.weekly dayOfWeek hour minute timezone) => do
    checkTimezone taskId timezone
    checkDayOfWeek taskId dayOfWeek
    checkHour taskId hour
    checkMinute taskId minute

/-- `Number.isSafeInteger`. -/
def isSafeInteger (value : JsNumber) : Bool :=
  value.isInteger && (JsNumber.finite (-MAX_SAFE_INTEGER)).le value &&
    value.le (.finite MAX_SAFE_INTEGER)

/-- The integer a number holds; its floor if it holds none. -/
def toInt : JsNumber → Int
  | .finite q => q.floor
  | _ => 0

def CadenceInput.periodMs : CadenceInput → Int
  | hourly .. => HOUR_MS
  | daily .. => DAY_MS
  | _ => WEEK_MS

def CadenceInput.kind : CadenceInput → String
  | relative => "relative"
  | hourly .. => "hourly"
  | daily .. => "daily"
  | weekly .. => "weekly"

def validateFleetStagger (task : TaskEntry) : Except String Unit :=
  match task.fleetStagger with
  | none => .ok ()
  | some stagger =>
    match task.type, task.cadence with
    | .every, some cadence => do
      let taskId := task.id
      throwIf (!cadence.isWallClock)
        s!"Task \"{taskId}\" fleetStagger requires a wall-clock recurring cadence"
      throwIf (!isSafeInteger stagger.fleetSize || stagger.fleetSize.lt (.finite 1))
        s!"Task \"{taskId}\" fleetStagger.fleetSize must be a positive safe integer"
      throwIf (!isSafeInteger stagger.manifestOrdinal || stagger.manifestOrdinal.lt (.finite 0)
          || stagger.fleetSize.le stagger.manifestOrdinal)
        s!"Task \"{taskId}\" fleetStagger.manifestOrdinal must identify a fleet member"
      throwIf (!isSafeInteger stagger.windowMs || stagger.windowMs.lt (.finite 1))
        s!"Task \"{taskId}\" fleetStagger.windowMs must be a positive safe integer"
      let periodMs := cadence.periodMs
      let kind := cadence.kind
      let windowMs := toInt stagger.windowMs
      throwIf ((JsNumber.finite periodMs).le stagger.windowMs)
        (s!"Task \"{taskId}\" fleetStagger.windowMs ({windowMs}) must be shorter than its "
          ++ s!"{kind} cadence period ({periodMs})")
    | _, _ => .error s!"Task \"{task.id}\" fleetStagger requires a wall-clock recurring cadence"

/-- `!Number.isFinite(intervalMs) || intervalMs <= 0`. -/
def badInterval (intervalMs : JsNumber) : Bool :=
  !intervalMs.isFinite || intervalMs.le (.finite 0)

/-- The checks of `register` that look at the task alone. -/
def checkTask (task : TaskEntry) : Except String Unit := do
  throwIf (task.type = .every && badInterval task.intervalMs)
    s!"Task \"{task.id}\" intervalMs must be a positive finite number"
  if task.type = .every then validateRecurringCadence task.id task.cadence
  else throwIf task.cadence.isSome s!"Task \"{task.id}\" cadence is only supported for \"every\" tasks"
  validateFleetStagger task

structure RegisterOptions where
  skipFirstRun  : Option Bool := none
  lastRunAt     : Option JsNumber := none
  phaseOffsetMs : Option JsNumber := none

def checkOptions (task : TaskEntry) (opts : RegisterOptions) : Except String Unit := do
  if let some lastRunAt := opts.lastRunAt then
    throwIf (!lastRunAt.isFinite || lastRunAt.lt (.finite 0))
      s!"Task \"{task.id}\" lastRunAt must be a non-negative finite epoch"
    throwIf opts.skipFirstRun.isSome
      s!"Task \"{task.id}\" cannot combine lastRunAt with skipFirstRun"
  if let some phaseOffsetMs := opts.phaseOffsetMs then
    throwIf (!isSafeInteger phaseOffsetMs || phaseOffsetMs.lt (.finite 0))
      s!"Task \"{task.id}\" phaseOffsetMs must be a non-negative safe integer"
    throwIf (task.type ≠ .every || task.cadence.any CadenceInput.isWallClock
        || opts.skipFirstRun ≠ some true)
      (s!"Task \"{task.id}\" phaseOffsetMs requires a relative \"every\" cadence registered "
        ++ "with skipFirstRun")

/-- The last run that a new entry starts from. -/
def seedLastRun (now : JsNumber) (task : TaskEntry) (opts : RegisterOptions) : JsNumber :=
  let seededLastRun := opts.lastRunAt.getD
    (if opts.skipFirstRun = some true then now.add (opts.phaseOffsetMs.getD (.finite 0))
      else .finite 0)
  if task.type = .every && task.cadence.any CadenceInput.isWallClock then opts.lastRunAt.getD now
  else seededLastRun

def register (tasks : Tasks) (now : JsNumber) (task : TaskEntry) (opts : RegisterOptions) :
    Except String Tasks := do
  throwIf (tasks.has task.id) s!"Task \"{task.id}\" is already registered"
  checkTask task
  checkOptions task opts
  return tasks.set task.id { task with lastRun := seedLastRun now task opts }

/-! ## Updates -/

structure TaskUpdates where
  intervalMs   : Option JsNumber := none
  state        : Option TaskState := none
  name         : Option String := none
  runAt        : Option JsNumber := none
  cadence      : Option CadenceInput := none
  resetLastRun : Bool := false

def intervalRefused (entry : TaskEntry) (updates : TaskUpdates) : Bool :=
  updates.intervalMs.any fun intervalMs => entry.type = .every && badInterval intervalMs

def cadenceRefused (entry : TaskEntry) (updates : TaskUpdates) : Bool :=
  updates.cadence.any fun cadence =>
    entry.type ≠ .every || !(validateRecurringCadence entry.id (some cadence)).isOk

def applyInterval (now : JsNumber) (entry : TaskEntry) (updates : TaskUpdates) : TaskEntry :=
  match updates.intervalMs with
  | none => entry
  | some intervalMs =>
    { entry with intervalMs, lastRun := if updates.resetLastRun then now else entry.lastRun }

def applyCadence (now : JsNumber) (entry : TaskEntry) (updates : TaskUpdates) : TaskEntry :=
  match updates.cadence with
  | none => entry
  | some cadence =>
    { entry with
      cadence := some cadence
      lastRun := if cadence.isWallClock then now else entry.lastRun }

def applyRest (entry : TaskEntry) (updates : TaskUpdates) : TaskEntry :=
  { entry with
    state := updates.state.getD entry.state
    name := updates.name.getD entry.name
    runAt := updates.runAt.orElse fun _ => entry.runAt }

/-- The entry after an update that is accepted. -/
def updatedEntry (now : JsNumber) (entry : TaskEntry) (updates : TaskUpdates) : TaskEntry :=
  applyRest (applyCadence now (applyInterval now entry updates) updates) updates

/-- What an update leaves, and what it returns; `none` when the wake request throws. -/
def updateTask (requestWake : Tasks → TaskEntry → Bool) (tasks : Tasks) (now : JsNumber)
    (id : String) (updates : TaskUpdates) : Tasks × Option Bool :=
  match tasks.get id with
  | none => (tasks, some false)
  | some entry =>
    if intervalRefused entry updates then (tasks, some false)
    else
      let entry := applyInterval now entry updates
      if cadenceRefused entry updates then (tasks.set id entry, some false)
      else
        let entry := applyRest (applyCadence now entry updates) updates
        let tasks := tasks.set id entry
        (tasks, if requestWake tasks entry then some true else none)

/-! ## What the checks let through -/

def readTimezone (timezone : String) : RecurringCadenceTimezone :=
  if timezone = "utc" then .utc else .local

/-- The wall-clock cadence that a checked input stands for. -/
def CadenceInput.read : CadenceInput → Option WallClockCadence
  | relative => none
  | hourly minute timezone => some (.hourly (toInt minute) (readTimezone timezone))
  | daily hour minute timezone =>
    some (.daily (toInt hour) (toInt minute) (readTimezone timezone))
  | weekly dayOfWeek hour minute timezone =>
    some (.weekly (toInt dayOfWeek) (toInt hour) (toInt minute) (readTimezone timezone))

def FleetSlotStaggerInput.read (stagger : FleetSlotStaggerInput) : FleetSlotStagger where
  manifestOrdinal := toInt stagger.manifestOrdinal
  fleetSize := toInt stagger.fleetSize
  windowMs := toInt stagger.windowMs

section Checks

variable {task : TaskEntry} {cadence : CadenceInput} {stagger : FleetSlotStaggerInput}
  {wall : WallClockCadence}

theorem eq_toInt {value : JsNumber} (h : value.isInteger = true) :
    value = .finite (toInt value) := by
  obtain ⟨k, rfl⟩ := JsNumber.exists_int_of_isInteger h
  rw [toInt, Rat.floor_intCast]

theorem finite_le_iff (a b : Int) :
    (JsNumber.finite a).le (.finite b) = true ↔ a ≤ b := by
  rw [JsNumber.le, decide_eq_true_iff, Int.cast_le]

theorem finite_lt_iff (a b : Int) : (JsNumber.finite a).lt (.finite b) = true ↔ a < b := by
  rw [JsNumber.lt, Bool.and_eq_true, Bool.not_eq_true', ← Bool.not_eq_true, finite_le_iff,
    finite_le_iff]
  omega

theorem toInt_of_outside {value : JsNumber} {highest : Int} (h : outside value highest = false) :
    0 ≤ toInt value ∧ toInt value ≤ highest := by
  simp only [outside, Bool.or_eq_false_iff, Bool.not_eq_false'] at h
  obtain ⟨⟨hinteger, hlow⟩, hhigh⟩ := h
  rw [eq_toInt hinteger] at hlow hhigh
  rw [← Bool.not_eq_true] at hlow hhigh
  rw [finite_lt_iff] at hhigh
  have hlow' : ¬ (toInt value < 0) := fun hlt => hlow ((finite_lt_iff _ 0).2 hlt)
  omega

/-- A checked cadence passes the checks of the slot computations. -/
theorem validateRecurringCadence_read {taskId : String}
    (h : validateRecurringCadence taskId (some cadence) = .ok ()) (hread : cadence.read = some wall) :
    TaskScheduler.validateRecurringCadence taskId (.wallClock wall) = .ok () := by
  cases cadence with
  | relative => cases hread
  | hourly minute timezone =>
    obtain rfl := Option.some.inj hread
    simp only [validateRecurringCadence, checkMinute, bind_eq_ok, throwIf_eq_ok] at h
    obtain ⟨-, -, hminute⟩ := h
    have hminute' := toInt_of_outside hminute
    refine throwIf_eq_ok.2 ?_
    simp only [Bool.or_eq_false_iff, decide_eq_false_iff_not]
    omega
  | daily hour minute timezone =>
    obtain rfl := Option.some.inj hread
    simp only [validateRecurringCadence, checkHour, checkMinute, bind_eq_ok, throwIf_eq_ok] at h
    obtain ⟨-, -, -, hhour, hminute⟩ := h
    have hhour' := toInt_of_outside hhour
    have hminute' := toInt_of_outside hminute
    refine bind_eq_ok.2 ⟨(), throwIf_eq_ok.2 ?_, throwIf_eq_ok.2 ?_⟩
    · simp only [Bool.or_eq_false_iff, decide_eq_false_iff_not]
      omega
    · simp only [Bool.or_eq_false_iff, decide_eq_false_iff_not]
      omega
  | weekly dayOfWeek hour minute timezone =>
    obtain rfl := Option.some.inj hread
    simp only [validateRecurringCadence, checkDayOfWeek, checkHour, checkMinute, bind_eq_ok,
      throwIf_eq_ok] at h
    obtain ⟨-, -, -, hday, -, hhour, hminute⟩ := h
    have hday' := toInt_of_outside hday
    have hhour' := toInt_of_outside hhour
    have hminute' := toInt_of_outside hminute
    refine bind_eq_ok.2 ⟨(), throwIf_eq_ok.2 ?_, bind_eq_ok.2 ⟨(), throwIf_eq_ok.2 ?_,
      throwIf_eq_ok.2 ?_⟩⟩
    · simp only [Bool.or_eq_false_iff, decide_eq_false_iff_not]
      omega
    · simp only [Bool.or_eq_false_iff, decide_eq_false_iff_not]
      omega
    · simp only [Bool.or_eq_false_iff, decide_eq_false_iff_not]
      omega

theorem isSafeInteger_toInt {value : JsNumber} (h : isSafeInteger value = true) :
    value = .finite (toInt value) ∧ TaskScheduler.isSafeInteger (toInt value) = true := by
  simp only [isSafeInteger, Bool.and_eq_true] at h
  obtain ⟨⟨hinteger, hlow⟩, hhigh⟩ := h
  have heq := eq_toInt hinteger
  rw [heq] at hlow hhigh
  refine ⟨heq, ?_⟩
  rw [finite_le_iff] at hhigh
  have hlow' : -MAX_SAFE_INTEGER ≤ toInt value := by
    rw [← finite_le_iff, Int.cast_neg]
    exact hlow
  rw [TaskScheduler.isSafeInteger, Bool.and_eq_true, decide_eq_true_iff, decide_eq_true_iff]
  exact ⟨hlow', hhigh⟩

theorem periodMs_read (hread : cadence.read = some wall) :
    cadence.periodMs = cadencePeriodMs wall := by
  cases cadence with
  | relative => cases hread
  | hourly minute timezone => obtain rfl := Option.some.inj hread; rfl
  | daily hour minute timezone => obtain rfl := Option.some.inj hread; rfl
  | weekly dayOfWeek hour minute timezone => obtain rfl := Option.some.inj hread; rfl

/-- What the stagger check says of a task with a stagger. -/
structure StaggerFits (stagger : FleetSlotStaggerInput) (cadence : CadenceInput) : Prop where
  wallClock : cadence.isWallClock = true
  window    : (JsNumber.finite cadence.periodMs).le stagger.windowMs = false

/-- The part of the stagger check that the cadence has no say in. -/
structure StaggerNumbers (stagger : FleetSlotStaggerInput) : Prop where
  fleetSize       : (!isSafeInteger stagger.fleetSize || stagger.fleetSize.lt (.finite 1)) = false
  manifestOrdinal : (!isSafeInteger stagger.manifestOrdinal ||
    stagger.manifestOrdinal.lt (.finite 0) || stagger.fleetSize.le stagger.manifestOrdinal) = false
  windowMs        : (!isSafeInteger stagger.windowMs || stagger.windowMs.lt (.finite 1)) = false

theorem validateFleetStagger_none (hstagger : task.fleetStagger = none) :
    validateFleetStagger task = .ok () := by
  unfold validateFleetStagger
  rw [hstagger]

theorem validateFleetStagger_iff (hstagger : task.fleetStagger = some stagger) :
    validateFleetStagger task = .ok () ↔ task.type = .every ∧
      ∃ cadence, task.cadence = some cadence ∧ StaggerFits stagger cadence ∧
        StaggerNumbers stagger := by
  unfold validateFleetStagger
  rw [hstagger]
  dsimp only
  split
  · rename_i cadence htype hcadence
    simp only [bind_eq_ok, throwIf_eq_ok, hcadence, htype, true_and, Option.some.injEq,
      exists_eq_left', exists_const, Bool.not_eq_false']
    constructor
    · rintro ⟨hwall, hsize, hordinal, hwindow, hperiod⟩
      exact ⟨⟨hwall, hperiod⟩, hsize, hordinal, hwindow⟩
    · rintro ⟨⟨hwall, hperiod⟩, hsize, hordinal, hwindow⟩
      exact ⟨hwall, hsize, hordinal, hwindow, hperiod⟩
  · rename_i hother
    refine iff_of_false nofun ?_
    rintro ⟨htype, cadence, hcadence, -⟩
    exact hother cadence htype hcadence

/-- A checked stagger passes the checks of the slot computations. -/
theorem validateFleetStagger_read (hnumbers : StaggerNumbers stagger)
    (hfits : StaggerFits stagger cadence) (hread : cadence.read = some wall) (taskId : String) :
    TaskScheduler.validateFleetStagger taskId .every (some (.wallClock wall))
      (some stagger.read) = .ok () := by
  obtain ⟨hsize, hordinal, hwindow⟩ := hnumbers
  simp only [Bool.or_eq_false_iff, Bool.not_eq_false'] at hsize hordinal hwindow
  obtain ⟨hsizeEq, hsizeSafe⟩ := isSafeInteger_toInt hsize.1
  obtain ⟨hordinalEq, hordinalSafe⟩ := isSafeInteger_toInt hordinal.1.1
  obtain ⟨hwindowEq, hwindowSafe⟩ := isSafeInteger_toInt hwindow.1
  have hsizePos : ¬ toInt stagger.fleetSize < 1 := by
    rw [← finite_lt_iff, ← hsizeEq, Bool.not_eq_true]
    exact hsize.2
  have hordinalNonneg : ¬ toInt stagger.manifestOrdinal < 0 := by
    rw [← finite_lt_iff, ← hordinalEq, Bool.not_eq_true]
    exact hordinal.1.2
  have hordinalLt : ¬ toInt stagger.fleetSize ≤ toInt stagger.manifestOrdinal := by
    rw [← finite_le_iff, ← hordinalEq, ← hsizeEq, Bool.not_eq_true]
    exact hordinal.2
  have hwindowPos : ¬ toInt stagger.windowMs < 1 := by
    rw [← finite_lt_iff, ← hwindowEq, Bool.not_eq_true]
    exact hwindow.2
  have hwindowLt : ¬ cadencePeriodMs wall ≤ toInt stagger.windowMs := by
    rw [← periodMs_read hread, ← finite_le_iff, ← hwindowEq, Bool.not_eq_true]
    exact hfits.window
  refine bind_eq_ok.2 ⟨(), throwIf_eq_ok.2 ?_, bind_eq_ok.2 ⟨(), throwIf_eq_ok.2 ?_,
    bind_eq_ok.2 ⟨(), throwIf_eq_ok.2 ?_, throwIf_eq_ok.2 ?_⟩⟩⟩
  · rw [Bool.or_eq_false_iff, Bool.not_eq_false']
    exact ⟨hsizeSafe, decide_eq_false hsizePos⟩
  · rw [Bool.or_eq_false_iff, Bool.or_eq_false_iff, Bool.not_eq_false']
    exact ⟨⟨hordinalSafe, decide_eq_false hordinalNonneg⟩, decide_eq_false hordinalLt⟩
  · rw [Bool.or_eq_false_iff, Bool.not_eq_false']
    exact ⟨hwindowSafe, decide_eq_false hwindowPos⟩
  · exact decide_eq_false hwindowLt

theorem checkTask_iff : checkTask task = .ok () ↔
    (task.type = .every → badInterval task.intervalMs = false ∧
      validateRecurringCadence task.id task.cadence = .ok ()) ∧
    (task.type ≠ .every → task.cadence = none) ∧ validateFleetStagger task = .ok () := by
  unfold checkTask
  by_cases htype : task.type = .every
  · rw [if_pos htype]
    simp only [bind_eq_ok, throwIf_eq_ok, htype, decide_true, Bool.true_and, exists_const,
      forall_const, ne_eq, not_true_eq_false, false_imp_iff, true_and, and_assoc]
    refine and_congr_right fun _ => ⟨?_, fun h => ⟨(), h⟩⟩
    rintro ⟨⟨⟩, h⟩
    exact h
  · rw [if_neg htype]
    simp only [bind_eq_ok, throwIf_eq_ok, htype, decide_false, Bool.false_and, exists_const,
      ne_eq, not_false_eq_true, forall_const, false_imp_iff, true_and,
      Option.isSome_eq_false_iff, Option.isNone_iff_eq_none]

end Checks

/-! ## Due again -/

/-- Whenever the task has last run, a wall-clock task in UTC is due again within one period of its
cadence plus its stagger offset. -/
def DueAgain (entry : TaskEntry) : Prop :=
  ∀ (active : Zone) (cadence : CadenceInput) (wall : WallClockCadence) (lastRun : Rat) (now : Int),
    entry.type = .every → entry.cadence = some cadence → cadence.read = some wall →
    wall.timezone = .utc → entry.lastRun = .finite lastRun → lastRun ≤ now → 0 ≤ now →
    now + WEEK_MS ≤ MAX_DATE →
    let stagger := entry.fleetStagger.map FleetSlotStaggerInput.read
    ∃ t, now < t ∧ t ≤ now + cadencePeriodMs wall + staggerOffset stagger ∧
      isWallClockTaskDue active t lastRun wall stagger = .ok true

theorem staggerChecked {entry : TaskEntry} {cadence : CadenceInput} {wall : WallClockCadence}
    (h : validateFleetStagger entry = .ok ()) (hcadence : entry.cadence = some cadence)
    (hread : cadence.read = some wall) :
    TaskScheduler.validateFleetStagger entry.id .every (some (.wallClock wall))
      (entry.fleetStagger.map FleetSlotStaggerInput.read) = .ok () := by
  cases hstagger : entry.fleetStagger with
  | none => rfl
  | some stagger =>
    obtain ⟨-, cadence', hcadence', hfits, hnumbers⟩ := (validateFleetStagger_iff hstagger).1 h
    obtain rfl := Option.some.inj (hcadence.symm.trans hcadence')
    exact validateFleetStagger_read hnumbers hfits hread entry.id

/-- **A task that passes the checks is due again**: at its next slot, moved by its offset. -/
theorem dueAgain_of_admitted {entry : TaskEntry} (h : checkTask entry = .ok ()) :
    DueAgain entry := by
  intro active cadence wall lastRun now htype hcadence hread hutc _ hran hsince hbefore stagger
  obtain ⟨hevery, -, hstagger⟩ := checkTask_iff.1 h
  have hvalid : TaskScheduler.validateRecurringCadence entry.id (.wallClock wall) = .ok () :=
    validateRecurringCadence_read (hcadence ▸ (hevery htype).2) hread
  have hstagger' : TaskScheduler.validateFleetStagger entry.id .every (some (.wallClock wall))
      stagger = .ok () := staggerChecked hstagger hcadence hread
  obtain ⟨hoffset, hwithin⟩ := staggerOffset_bounds hstagger'
  obtain ⟨hperiod, hweek⟩ := cadencePeriod_pos wall
  obtain ⟨hle, hlt⟩ := baseSlot_bounds wall now
  -- the base slot after `now` is still the current one when the task's own instant comes
  have hbase : IsSlot .utc wall (baseSlot wall now) := isSlot_baseSlot hvalid
  have hnext := isSlot_nextPeriod hvalid hbase
  let t := baseSlot wall now + cadencePeriodMs wall + staggerOffset stagger
  have hcurrent : baseSlot wall t = baseSlot wall now + cadencePeriodMs wall := by
    have hlatest : IsLatestSlot .utc wall t (baseSlot wall now + cadencePeriodMs wall) :=
      latestSlot_of_recent hvalid hnext (by omega) (by omega)
    obtain ⟨hle', hlt'⟩ := baseSlot_bounds wall t
    exact (latestSlot_of_recent hvalid (isSlot_baseSlot hvalid) hle' hlt').unique hlatest
  have hslot : fleetStaggeredSlotStart (baseSlot wall t) stagger = .ok t := by
    rw [hcurrent]
    exact fleetStaggeredSlotStart_eq hstagger' (.inr (by omega)) (by omega)
  refine ⟨t, by omega, by omega, ?_⟩
  unfold isWallClockTaskDue getCurrentStaggeredSlotStart
  rw [currentSlot_utc t hutc hvalid, hslot]
  have hpassed : lastRun < (t : Rat) := lt_of_le_of_lt hran (Int.cast_lt.2 (by omega))
  exact congrArg Except.ok ((Bool.and_eq_true _ _).mpr
    ⟨decide_eq_true (Int.le_refl t), decide_eq_true hpassed⟩)

/-! ## One update -/

/-- Every task passes the checks of `register`, under its own id. -/
def Admitted (tasks : Tasks) : Prop :=
  ∀ id entry, tasks.get id = some entry → entry.id = id ∧ checkTask entry = .ok ()

/-- A refused update changes nothing, and an accepted one keeps the task as `register` admits it. -/
structure UpdateSound (requestWake : Tasks → TaskEntry → Bool) (tasks : Tasks) (now : JsNumber)
    (id : String) (updates : TaskUpdates) : Prop where
  rejected : (updateTask requestWake tasks now id updates).2 = some false →
    (updateTask requestWake tasks now id updates).1 = tasks
  accepted : (updateTask requestWake tasks now id updates).2 = some true →
    ∀ entry, (updateTask requestWake tasks now id updates).1.get id = some entry →
      checkTask entry = .ok () ∧ DueAgain entry

/-- The interval, if one is given, is the one the task has. -/
def SameInterval (now : JsNumber) (entry : TaskEntry) (updates : TaskUpdates) : Prop :=
  ∀ intervalMs, updates.intervalMs = some intervalMs →
    entry.intervalMs = intervalMs ∧ (updates.resetLastRun = true → entry.lastRun = now)

/-- A new cadence, if one is given, is one that the task's stagger fits. -/
def CadenceFits (entry : TaskEntry) (updates : TaskUpdates) : Prop :=
  ∀ cadence stagger, updates.cadence = some cadence → entry.fleetStagger = some stagger →
    StaggerFits stagger cadence

/-- No interval is applied before the cadence is refused, and an accepted cadence fits. -/
def UpdateFits (requestWake : Tasks → TaskEntry → Bool) (tasks : Tasks) (now : JsNumber)
    (id : String) (updates : TaskUpdates) : Prop :=
  ∀ entry, tasks.get id = some entry → intervalRefused entry updates = false →
    (cadenceRefused entry updates = true → SameInterval now entry updates) ∧
    (cadenceRefused entry updates = false →
      requestWake (tasks.set id (updatedEntry now entry updates))
        (updatedEntry now entry updates) = true → CadenceFits entry updates)

section Update

variable {requestWake : Tasks → TaskEntry → Bool} {tasks : Tasks} {now : JsNumber} {id : String}
  {updates : TaskUpdates} {entry : TaskEntry}

theorem set_eq_self {entry' : TaskEntry} (h : tasks.get id = some entry) :
    tasks.set id entry' = tasks ↔ entry' = entry := by
  constructor
  · intro heq
    have hget := JsMap.get_set_self tasks id entry'
    rw [heq, h] at hget
    exact (Option.some.inj hget).symm
  · rintro rfl
    refine JsMap.ext ?_
    rw [JsMap.entries_set_of_get h]
    refine (List.map_congr_left ?_).trans (List.map_id _)
    intro p hp
    split
    · rename_i hkey
      have hget := (JsMap.mem_entries_iff_get tasks p.1 p.2).1 hp
      rw [hkey, h] at hget
      exact Prod.ext hkey.symm (Option.some.inj hget)
    · rfl

theorem applyInterval_eq_self :
    applyInterval now entry updates = entry ↔ SameInterval now entry updates := by
  unfold applyInterval SameInterval
  cases hinterval : updates.intervalMs with
  | none => exact iff_of_true rfl nofun
  | some intervalMs =>
    obtain ⟨id, name, type, oldInterval, cadence, fleetStagger, runAt, state, lastRun⟩ := entry
    simp only [TaskEntry.mk.injEq, Option.some.injEq, forall_eq', true_and]
    constructor
    · rintro ⟨rfl, hreset⟩
      refine ⟨rfl, fun h => ?_⟩
      rw [if_pos h] at hreset
      exact hreset.symm
    · rintro ⟨rfl, hreset⟩
      refine ⟨rfl, ?_⟩
      split
      · rename_i h
        exact (hreset h).symm
      · rfl

/-- What the checks read of an updated entry. -/
theorem updatedEntry_fields :
    (updatedEntry now entry updates).id = entry.id ∧
      (updatedEntry now entry updates).type = entry.type ∧
      (updatedEntry now entry updates).fleetStagger = entry.fleetStagger ∧
      (updatedEntry now entry updates).intervalMs = updates.intervalMs.getD entry.intervalMs ∧
      (updatedEntry now entry updates).cadence = updates.cadence.or entry.cadence := by
  unfold updatedEntry applyRest applyCadence applyInterval
  cases updates.intervalMs with
  | none =>
    cases updates.cadence with
    | none => exact ⟨rfl, rfl, rfl, rfl, rfl⟩
    | some cadence => exact ⟨rfl, rfl, rfl, rfl, rfl⟩
  | some intervalMs =>
    cases updates.cadence with
    | none => exact ⟨rfl, rfl, rfl, rfl, rfl⟩
    | some cadence => exact ⟨rfl, rfl, rfl, rfl, rfl⟩

theorem every_of_cadenceRefused {cadence : CadenceInput} (h : cadenceRefused entry updates = false)
    (hcadence : updates.cadence = some cadence) :
    entry.type = .every ∧ validateRecurringCadence entry.id (some cadence) = .ok () := by
  rw [cadenceRefused, hcadence, Option.any_some, Bool.or_eq_false_iff, Bool.not_eq_false',
    decide_eq_false_iff_not, not_not] at h
  refine ⟨h.1, ?_⟩
  cases hvalid : validateRecurringCadence entry.id (some cadence) with
  | ok r => rfl
  | error e =>
    rw [hvalid] at h
    exact absurd h.2 (by simp [Except.isOk, Except.toBool])

/-- The fields other than the stagger pass whenever the update is accepted. -/
theorem updatedEntry_checks (h : checkTask entry = .ok ())
    (hinterval : intervalRefused entry updates = false)
    (hcadence : cadenceRefused entry updates = false) :
    checkTask (updatedEntry now entry updates) = .ok () ↔
      validateFleetStagger (updatedEntry now entry updates) = .ok () := by
  obtain ⟨hid, htype, -, hnewInterval, hnewCadence⟩ := @updatedEntry_fields now updates entry
  obtain ⟨hevery, hother, -⟩ := checkTask_iff.1 h
  rw [checkTask_iff, hid, htype, hnewInterval, hnewCadence]
  refine ⟨fun h => h.2.2, fun hstagger => ⟨fun heq => ⟨?_, ?_⟩, fun hne => ?_, hstagger⟩⟩
  · cases hgiven : updates.intervalMs with
    | none => exact (hevery heq).1
    | some intervalMs =>
      rw [intervalRefused, hgiven, Option.any_some, heq] at hinterval
      simpa using hinterval
  · cases hgiven : updates.cadence with
    | none => exact (hevery heq).2
    | some cadence => exact (every_of_cadenceRefused hcadence hgiven).2
  · cases hgiven : updates.cadence with
    | none => exact hother hne
    | some cadence => exact absurd (every_of_cadenceRefused hcadence hgiven).1 hne

theorem updatedEntry_stagger (h : checkTask entry = .ok ())
    (hcadence : cadenceRefused entry updates = false) :
    validateFleetStagger (updatedEntry now entry updates) = .ok () ↔
      CadenceFits entry updates := by
  obtain ⟨hid, htype, hstagger, -, hnewCadence⟩ := @updatedEntry_fields now updates entry
  obtain ⟨-, -, hold⟩ := checkTask_iff.1 h
  unfold CadenceFits
  cases hentry : entry.fleetStagger with
  | none =>
    refine iff_of_true (validateFleetStagger_none (hstagger.trans hentry)) ?_
    intro cadence stagger _ hnone
    cases hnone
  | some stagger =>
    obtain ⟨hevery, cadence, hcurrent, hfits, hnumbers⟩ := (validateFleetStagger_iff hentry).1 hold
    rw [validateFleetStagger_iff (hstagger.trans hentry), htype, hnewCadence]
    cases hgiven : updates.cadence with
    | none =>
      refine iff_of_true ⟨hevery, cadence, hcurrent, hfits, hnumbers⟩ ?_
      intro given stagger hnone
      cases hnone
    | some given =>
      constructor
      · rintro ⟨-, cadence', hcadence', hfits', -⟩ cadence'' stagger'' hsame hsame'
        cases hcadence'
        cases hsame
        cases hsame'
        exact hfits'
      · intro hall
        exact ⟨hevery, given, rfl, hall given stagger rfl rfl, hnumbers⟩

/-- The three ways an update of a known task goes. -/
theorem updateTask_cases (hget : tasks.get id = some entry) :
    (intervalRefused entry updates = true ∧
      updateTask requestWake tasks now id updates = (tasks, some false)) ∨
    (intervalRefused entry updates = false ∧ cadenceRefused entry updates = true ∧
      updateTask requestWake tasks now id updates =
        (tasks.set id (applyInterval now entry updates), some false)) ∨
    (intervalRefused entry updates = false ∧ cadenceRefused entry updates = false ∧
      updateTask requestWake tasks now id updates =
        (tasks.set id (updatedEntry now entry updates),
          if requestWake (tasks.set id (updatedEntry now entry updates))
            (updatedEntry now entry updates) then some true else none)) := by
  unfold updateTask
  rw [hget]
  dsimp only
  have hcadence : cadenceRefused (applyInterval now entry updates) updates =
      cadenceRefused entry updates := by
    unfold applyInterval
    cases updates.intervalMs <;> rfl
  cases hinterval : intervalRefused entry updates with
  | true => exact .inl ⟨rfl, rfl⟩
  | false =>
    cases hrefused : cadenceRefused entry updates with
    | true =>
      refine .inr (.inl ⟨rfl, rfl, ?_⟩)
      simp only [hcadence, hrefused]
      rfl
    | false =>
      refine .inr (.inr ⟨rfl, rfl, ?_⟩)
      simp only [hcadence, hrefused]
      rfl

/-- **An update is sound exactly when it fits**, in every state of admitted tasks. -/
theorem updateSound_iff (h : Admitted tasks) :
    UpdateSound requestWake tasks now id updates ↔
      UpdateFits requestWake tasks now id updates := by
  cases hget : tasks.get id with
  | none =>
    have hresult : updateTask requestWake tasks now id updates = (tasks, some false) := by
      rw [updateTask, hget]
    refine iff_of_true ⟨fun _ => by rw [hresult], fun htrue => ?_⟩ fun entry hentry => ?_
    · rw [hresult] at htrue
      cases htrue
    · rw [hget] at hentry
      cases hentry
  | some entry =>
    obtain ⟨-, hchecked⟩ := h id entry hget
    have hfits : UpdateFits requestWake tasks now id updates ↔
        (intervalRefused entry updates = false →
          (cadenceRefused entry updates = true → SameInterval now entry updates) ∧
          (cadenceRefused entry updates = false →
            requestWake (tasks.set id (updatedEntry now entry updates))
              (updatedEntry now entry updates) = true → CadenceFits entry updates)) := by
      simp only [UpdateFits, hget, Option.some.injEq, forall_eq']
    rw [hfits]
    obtain ⟨hinterval, hresult⟩ | ⟨hinterval, hcadence, hresult⟩ |
      ⟨hinterval, hcadence, hresult⟩ :=
        @updateTask_cases requestWake tasks now id updates entry hget
    · refine iff_of_true ⟨fun _ => by rw [hresult], fun htrue => ?_⟩ fun hfalse => ?_
      · rw [hresult] at htrue
        cases htrue
      · rw [hinterval] at hfalse
        cases hfalse
    · simp only [hinterval, hcadence, forall_const, Bool.true_eq_false, false_imp_iff, and_true]
      rw [← applyInterval_eq_self, ← set_eq_self hget]
      constructor
      · intro hsound
        have hsame := hsound.rejected (by rw [hresult])
        rwa [hresult] at hsame
      · intro hsame
        refine ⟨fun _ => by rw [hresult]; exact hsame, fun htrue => ?_⟩
        rw [hresult] at htrue
        cases htrue
    · simp only [hinterval, hcadence, forall_const, Bool.false_eq_true, false_imp_iff, true_and]
      rw [← @updatedEntry_stagger now updates entry hchecked hcadence,
        ← updatedEntry_checks hchecked hinterval hcadence]
      constructor
      · intro hsound hwake
        refine (hsound.accepted (by rw [hresult, if_pos hwake]) _ ?_).1
        rw [hresult, JsMap.get_set_self]
      · intro hchecks
        refine ⟨fun hfalse => ?_, fun htrue entry' hentry' => ?_⟩
        · rw [hresult] at hfalse
          dsimp only at hfalse
          split at hfalse
          · cases hfalse
          · cases hfalse
        · rw [hresult] at htrue hentry'
          dsimp only at htrue hentry'
          rw [JsMap.get_set_self] at hentry'
          obtain rfl := Option.some.inj hentry'
          split at htrue
          · rename_i hwake
            exact ⟨hchecks hwake, dueAgain_of_admitted (hchecks hwake)⟩
          · cases htrue

end Update

/-! ## Runs -/

/-- A wake request that comes through. -/
def wakes : Tasks → TaskEntry → Bool := fun _ _ => true

/-- A registration, an update that fits, whether or not its wake request comes through, a removal, or
what a tick or an attempt writes. -/
inductive FittingStep (tasks : Tasks) : Tasks → Prop where
  | register (now : JsNumber) (task : TaskEntry) (opts : RegisterOptions) (tasks' : Tasks)
      (h : register tasks now task opts = .ok tasks') : FittingStep tasks tasks'
  | update (requestWake : Tasks → TaskEntry → Bool) (now : JsNumber) (id : String)
      (updates : TaskUpdates) (h : UpdateFits wakes tasks now id updates) :
      FittingStep tasks (updateTask requestWake tasks now id updates).1
  | unregister (id : String) : FittingStep tasks (tasks.delete id)
  | attempt (id : String) (entry : TaskEntry) (state : TaskState) (lastRun : JsNumber)
      (h : tasks.get id = some entry) :
      FittingStep tasks (tasks.set id { entry with state, lastRun })

def fittingRuns : System Tasks := ⟨JsMap.empty, FittingStep⟩

section Runs

variable {tasks tasks' : Tasks}

theorem Admitted.set (h : Admitted tasks) {id : String} {entry : TaskEntry} (hid : entry.id = id)
    (hentry : checkTask entry = .ok ()) : Admitted (tasks.set id entry) := by
  intro id' entry' hget
  rw [JsMap.get_set] at hget
  split at hget
  · rename_i hsame
    obtain rfl := Option.some.inj hget
    exact ⟨hid.trans hsame.symm, hentry⟩
  · exact h id' entry' hget

/-- The checks read neither the state, the last run, the name nor the time of a one-shot. -/
theorem checkTask_congr {entry entry' : TaskEntry} (hid : entry'.id = entry.id)
    (htype : entry'.type = entry.type) (hinterval : entry'.intervalMs = entry.intervalMs)
    (hcadence : entry'.cadence = entry.cadence)
    (hstagger : entry'.fleetStagger = entry.fleetStagger) : checkTask entry' = checkTask entry := by
  simp only [checkTask, validateFleetStagger, hid, htype, hinterval, hcadence, hstagger]

theorem admitted_register {now : JsNumber} {task : TaskEntry} {opts : RegisterOptions}
    (h : Admitted tasks) (hok : register tasks now task opts = .ok tasks') : Admitted tasks' := by
  simp only [register, bind_eq_ok] at hok
  obtain ⟨-, -, ⟨⟩, hchecked, -, -, hset⟩ := hok
  obtain rfl := Except.ok.inj hset
  exact h.set rfl ((checkTask_congr rfl rfl rfl rfl rfl).trans hchecked)

/-- What an update leaves does not depend on its wake request. -/
theorem updateTask_fst (requestWake : Tasks → TaskEntry → Bool) (now : JsNumber) (id : String)
    (updates : TaskUpdates) : (updateTask requestWake tasks now id updates).1 =
      (updateTask wakes tasks now id updates).1 := by
  unfold updateTask
  cases tasks.get id with
  | none => rfl
  | some entry =>
    dsimp only
    split
    · rfl
    · split <;> rfl

theorem admitted_update {now : JsNumber} {id : String} {updates : TaskUpdates}
    (h : Admitted tasks) (hfits : UpdateFits wakes tasks now id updates) :
    Admitted (updateTask wakes tasks now id updates).1 := by
  have hsound := (updateSound_iff h).2 hfits
  cases hget : tasks.get id with
  | none =>
    have hresult : updateTask wakes tasks now id updates = (tasks, some false) := by
      rw [updateTask, hget]
    rw [hresult]
    exact h
  | some entry =>
    obtain ⟨hid, -⟩ := h id entry hget
    obtain ⟨-, hresult⟩ | ⟨-, -, hresult⟩ | ⟨-, -, hresult⟩ :=
      @updateTask_cases wakes tasks now id updates entry hget
    · rw [hresult]
      exact h
    · rw [hsound.rejected (by rw [hresult])]
      exact h
    · have hafter := hsound.accepted (by rw [hresult]; rfl)
      rw [hresult] at hafter ⊢
      obtain ⟨hchecked, -⟩ := hafter _ (JsMap.get_set_self ..)
      exact h.set (updatedEntry_fields.1.trans hid) hchecked

theorem FittingStep.admitted (hstep : FittingStep tasks tasks') (h : Admitted tasks) :
    Admitted tasks' := by
  cases hstep with
  | register now task opts _ hok => exact admitted_register h hok
  | update requestWake now id updates hfits =>
    rw [updateTask_fst]
    exact admitted_update h hfits
  | unregister id =>
    intro id' entry hget
    rw [JsMap.get_delete] at hget
    split at hget
    · cases hget
    · exact h id' entry hget
  | attempt id entry state lastRun hget =>
    obtain ⟨hid, hchecked⟩ := h id entry hget
    exact h.set hid ((checkTask_congr rfl rfl rfl rfl rfl).trans hchecked)

/-- A daily task in UTC whose slots are spread over two hours. -/
def staggeredTask : TaskEntry where
  id := "review"
  name := "Review"
  type := .every
  intervalMs := .finite 86400000
  cadence := some (.daily (.finite 6) (.finite 0) "utc")
  fleetStagger := some ⟨.finite 1, .finite 2, .finite 7200000⟩
  runAt := none
  state := .idle
  lastRun := .finite 1000

/-- The tasks once `staggeredTask` is registered. -/
def staggeredTasks : Tasks := JsMap.empty.set "review" staggeredTask

theorem register_staggeredTask :
    register JsMap.empty (.finite 1000) staggeredTask {} = .ok staggeredTasks := by
  rfl

end Runs

/-! ## Updates that do not fit -/

def refusedCadence : TaskUpdates where
  intervalMs := some (.finite 5000)
  cadence := some (.daily (.finite 99) (.finite 0) "utc")

def shorterCadence : TaskUpdates where
  cadence := some (.hourly (.finite 0) "utc")

end Psfn.TaskScheduler.Updates
