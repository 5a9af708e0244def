import Mathlib.Algebra.Order.Ring.Rat
import Psfn.Lib.Transition
import Psfn.TaskScheduler.WallClock

/-!
# The scheduler

The class `Scheduler` as a state machine. Code runs without interruption between two awaits: a
step is a call of a public method, the timer, a handler that settles, or a tick that goes on after
one of its awaits. A task's entry is an object that an attempt holds on to when the task is
removed from the map, so entries are kept apart from the map and named by the number of their
registration. `Map` iteration visits what is inserted on the way and leaves out what is deleted:
a tick goes through the registrations that come after the last one it visited.

What a task records of its last run for display, and the events that are emitted, feed back into
no decision and are left out.
-/

namespace Psfn.TaskScheduler

open Lib (throwIf)

inductive TaskState where
  | idle | active | paused | complete
deriving DecidableEq

/-- `RuntimeScheduledTask`. -/
structure ScheduledTask where
  type         : TaskType
  intervalMs   : Rat
  cadence      : Option RecurringCadence
  fleetStagger : Option FleetSlotStagger
  runAt        : Option Rat
  state        : TaskState
  lastRun      : Rat

/-- A handler that was started. `settled` when its promise has, `overdue` when the tick that
started it went on without it. -/
structure Attempt where
  key     : Nat
  id      : String
  entry   : Nat
  settled : Bool
  overdue : Bool

/-- What a tick waits for: an emit before its loop, the emit of a denial, the handler of an
attempt, the emits after it settled, those after its budget ran out. -/
inductive TickPhase where
  | emitting
  | denying
  | running (key : Nat)
  | booking (key : Nat)
  | expiring (key : Nat)

/-- `rearm` when the timer started the tick or fired during it. -/
structure Tick where
  now      : Int
  position : Nat
  phase    : TickPhase
  rearm    : Bool

structure Timer where
  armedAt : Int
  wakeAt  : Rat

/-- `draining` while `stop` waits, with whether it waits for a tick. -/
structure Scheduler where
  clock               : Int
  tasks               : List (String × Nat)
  entries             : Nat → ScheduledTask
  registrations       : Nat
  attempts            : List Attempt
  starts              : Nat
  tickIntervalMs      : Rat
  heartbeatIntervalMs : Rat
  isRunning           : Bool
  stopping            : Bool
  draining            : Option Bool
  tickTimer           : Option Timer
  wakeAt              : Option Rat
  tickInFlight        : Option Tick

namespace Scheduler

def setEntry (s : Scheduler) (ref : Nat) (entry : ScheduledTask) : Scheduler :=
  { s with entries := fun r => if r = ref then entry else s.entries r }

/-- `this.tasks.get(id)`. -/
def lookup (s : Scheduler) (id : String) : Option Nat := Lib.JsMap.lookup id s.tasks

/-! ## When a task is due -/

/-- The test of `runTick`. -/
def isTaskDue (active : Zone) (now : Int) (entry : ScheduledTask) : Except String Bool :=
  match entry.type with
  | .every =>
    match entry.cadence with
    | some (.wallClock cadence) =>
      isWallClockTaskDue active now entry.lastRun cadence entry.fleetStagger
    | _ => .ok (entry.lastRun = 0 || now - entry.lastRun ≥ entry.intervalMs)
  | .oneShot => .ok (entry.runAt.any fun (runAt : Rat) => runAt ≤ now)

/-- `none` for `Number.POSITIVE_INFINITY`. -/
def taskNextDueAt (active : Zone) (now : Int) (entry : ScheduledTask) :
    Except String (Option Rat) :=
  if entry.state ≠ .idle then .ok none
  else
    match entry.type with
    | .every =>
      match entry.cadence with
      | some (.wallClock cadence) => do
        let due ← isWallClockTaskDue active now entry.lastRun cadence entry.fleetStagger
        if due then return some now
        else
          let next ← getNextStaggeredSlotStart active now cadence entry.fleetStagger
          return some next
      | _ => .ok (some (if entry.lastRun = 0 then now else entry.lastRun + entry.intervalMs))
    | .oneShot => .ok entry.runAt

/-! ## The timer -/

def MIN_WAKE_MS : Rat := 50

/-- `Math.min`, a due time of `none` being infinite. -/
def earlier (earliest : Rat) (due : Option Rat) : Rat :=
  match due with
  | some due => if due < earliest then due else earliest
  | none => earliest

def computeNextWakeAt (active : Zone) (s : Scheduler) (now : Int) (hintAt : Option Rat) :
    Except String Rat :=
  s.tasks.foldlM (fun earliest task => do
      let due ← taskNextDueAt active now (s.entries task.2)
      return earlier earliest due)
    (earlier (now + s.tickIntervalMs) hintAt)

/-- The state it leaves, and whether it came through: a slot search that throws leaves the old
timer cleared. -/
def armNextWake (active : Zone) (s : Scheduler) (now : Int) (hintAt : Option Rat) :
    Scheduler × Bool :=
  if !s.isRunning || s.stopping then (s, true)
  else if s.tickInFlight.isSome then (s, true)
  else
    let s := { s with tickTimer := none }
    let ceiling := s.tickIntervalMs
    let floor := min MIN_WAKE_MS ceiling
    match computeNextWakeAt active s now hintAt with
    | .error _ => (s, false)
    | .ok earliest =>
      let delay := max floor (min (earliest - now) ceiling)
      ({ s with
          wakeAt := some (now + delay)
          tickTimer := some { armedAt := now, wakeAt := now + delay } }, true)

def requestWake (active : Zone) (s : Scheduler) (atMs : Option Rat) : Scheduler × Bool :=
  if !s.isRunning || s.stopping then (s, true)
  else if s.wakeAt.any fun wakeAt => atMs.all (wakeAt ≤ ·) then (s, true)
  else armNextWake active s s.clock atMs

def clearWakeTimer (s : Scheduler) : Scheduler := { s with tickTimer := none, wakeAt := none }

/-- `this.requestWake(this.taskNextDueAt(now, entry))`. -/
def requestTaskWake (active : Zone) (s : Scheduler) (ref : Nat) : Scheduler × Bool :=
  match taskNextDueAt active s.clock (s.entries ref) with
  | .error _ => (s, false)
  | .ok due => requestWake active s due

/-! ## Registration -/

structure RegisterOptions where
  skipFirstRun  : Option Bool
  lastRunAt     : Option Rat
  phaseOffsetMs : Option Int

def isWallClock : Option RecurringCadence → Bool
  | some (.wallClock _) => true
  | _ => false

/-- The checks of `register`. -/
def checkRegistration (s : Scheduler) (id : String) (task : ScheduledTask)
    (opts : RegisterOptions) : Except String Unit := do
  throwIf (s.lookup id).isSome s!"Task \"{id}\" is already registered"
  throwIf (task.type = .every && task.intervalMs ≤ 0)
    s!"Task \"{id}\" intervalMs must be a positive finite number"
  if task.type = .every then
    if let some cadence := task.cadence then validateRecurringCadence id cadence
  else
    throwIf task.cadence.isSome s!"Task \"{id}\" cadence is only supported for \"every\" tasks"
  validateFleetStagger id task.type task.cadence task.fleetStagger
  if let some lastRunAt := opts.lastRunAt then
    throwIf (lastRunAt < 0) s!"Task \"{id}\" lastRunAt must be a non-negative finite epoch"
    throwIf opts.skipFirstRun.isSome s!"Task \"{id}\" cannot combine lastRunAt with skipFirstRun"
  if let some phaseOffsetMs := opts.phaseOffsetMs then
    throwIf (!isSafeInteger phaseOffsetMs || phaseOffsetMs < 0)
      s!"Task \"{id}\" phaseOffsetMs must be a non-negative safe integer"
    throwIf (task.type ≠ .every || isWallClock task.cadence || opts.skipFirstRun ≠ some true)
      (s!"Task \"{id}\" phaseOffsetMs requires a relative \"every\" cadence registered "
        ++ "with skipFirstRun")

/-- The last run that a new entry starts from. -/
def seedLastRun (now : Int) (task : ScheduledTask) (opts : RegisterOptions) : Rat :=
  if task.type = .every && isWallClock task.cadence then opts.lastRunAt.getD now
  else
    opts.lastRunAt.getD (if opts.skipFirstRun = some true then now + opts.phaseOffsetMs.getD 0 else 0)

def register (active : Zone) (s : Scheduler) (id : String) (task : ScheduledTask)
    (opts : RegisterOptions) : Scheduler :=
  match s.checkRegistration id task opts with
  | .error _ => s
  | .ok () =>
    let ref := s.registrations
    let entry := { task with lastRun := seedLastRun s.clock task opts }
    let s := { s.setEntry ref entry with
      tasks := s.tasks ++ [(id, ref)]
      registrations := ref + 1 }
    (requestTaskWake active s ref).1

def unregister (s : Scheduler) (id : String) : Scheduler :=
  { s with tasks := s.tasks.filter fun task => task.1 ≠ id }

structure TaskUpdates where
  intervalMs   : Option Rat
  state        : Option TaskState
  runAt        : Option Rat
  cadence      : Option RecurringCadence
  resetLastRun : Bool

/-- The entry with a new interval; `none` when the interval is refused. -/
def applyInterval (now : Int) (entry : ScheduledTask) (updates : TaskUpdates) :
    Option ScheduledTask :=
  match updates.intervalMs with
  | none => some entry
  | some intervalMs =>
    if entry.type = .every && intervalMs ≤ 0 then none
    else some { entry with
      intervalMs
      lastRun := if updates.resetLastRun then now else entry.lastRun }

def applyCadence (id : String) (now : Int) (entry : ScheduledTask) (updates : TaskUpdates) :
    Option ScheduledTask :=
  match updates.cadence with
  | none => some entry
  | some cadence =>
    if entry.type ≠ .every then none
    else
      match validateRecurringCadence id cadence with
      | .error _ => none
      | .ok () => some { entry with
          cadence := some cadence
          lastRun := if isWallClock (some cadence) then now else entry.lastRun }

/-- What `updateTask` leaves, whether it returned `true`, and whether it came through. What was
applied before an update is refused stays. -/
def updateTask (active : Zone) (s : Scheduler) (id : String) (updates : TaskUpdates) :
    Scheduler × Bool × Bool :=
  match s.lookup id with
  | none => (s, false, true)
  | some ref =>
    match applyInterval s.clock (s.entries ref) updates with
    | none => (s, false, true)
    | some entry =>
      match applyCadence id s.clock entry updates with
      | none => (s.setEntry ref entry, false, true)
      | some entry =>
        let entry := { entry with
          state := updates.state.getD entry.state
          runAt := updates.runAt.orElse fun _ => entry.runAt }
        let woken := requestTaskWake active (s.setEntry ref entry) ref
        (woken.1, woken.2, woken.2)

def updateConfig (active : Zone) (s : Scheduler) (tickIntervalMs heartbeatIntervalMs : Option Rat) :
    Scheduler :=
  let heartbeat := heartbeatIntervalMs.getD s.heartbeatIntervalMs
  let heartbeatChanged := heartbeat ≠ s.heartbeatIntervalMs
  let s := { s with
    tickIntervalMs := tickIntervalMs.getD s.tickIntervalMs
    heartbeatIntervalMs := heartbeat }
  let updated :=
    if heartbeatChanged then
      updateTask active s "heartbeat" ⟨some heartbeat, none, none, none, false⟩
    else (s, true, true)
  let s := updated.1
  if updated.2.2 && s.isRunning then (armNextWake active s.clearWakeTimer s.clock none).1 else s

/-! ## Start and stop -/

def start (active : Zone) (s : Scheduler) : Scheduler :=
  if s.isRunning then s
  else (armNextWake active { s with isRunning := true, stopping := false } s.clock none).1

def stop (s : Scheduler) : Scheduler :=
  if s.draining.isSome then s
  else
    let hadTimer := s.tickTimer.isSome
    let s := { s with stopping := true, isRunning := false }.clearWakeTimer
    if !hadTimer && s.tickInFlight.isNone then s
    else { s with draining := some s.tickInFlight.isSome }

/-! ## Ticks -/

/-- `tick`, by the timer or from outside. -/
def tick (s : Scheduler) (rearm : Bool) : Scheduler :=
  match s.tickInFlight with
  | some tick => { s with tickInFlight := some { tick with rearm := tick.rearm || rearm } }
  | none => { s with tickInFlight := some { now := s.clock, position := 0, phase := .emitting, rearm } }

def timerFires (s : Scheduler) : Scheduler :=
  let s := s.clearWakeTimer
  if s.stopping || !s.isRunning then s else s.tick true

/-- The tick is over, and what the timer callback does after it. -/
def finishTick (active : Zone) (s : Scheduler) (tick : Tick) : Scheduler :=
  let s := { s with tickInFlight := none }
  if tick.rearm then (armNextWake active s s.clock none).1 else s

def startAttempt (s : Scheduler) (tick : Tick) (id : String) (ref : Nat) : Scheduler :=
  let entry := { s.entries ref with state := .active, lastRun := tick.now }
  { s.setEntry ref entry with
    attempts := s.attempts ++ [{ key := s.starts, id, entry := ref, settled := false, overdue := false }]
    starts := s.starts + 1
    tickInFlight := some { tick with position := ref + 1, phase := .running s.starts } }

def denyTask (s : Scheduler) (tick : Tick) (ref : Nat) : Scheduler :=
  let entry := s.entries ref
  let entry := { entry with
    lastRun := tick.now
    state := if entry.type = .oneShot then .complete else entry.state }
  { s.setEntry ref entry with
    tickInFlight := some { tick with position := ref + 1, phase := .denying } }

/-- The loop of `runTick` over what is left of the map, up to its next await. What throws ends
the tick. -/
def visitTasks (active : Zone) (allowed : String → Bool) (s : Scheduler) (tick : Tick) :
    List (String × Nat) → Scheduler
  | [] => finishTick active s tick
  | (id, ref) :: rest =>
    if (s.entries ref).state ≠ .idle then visitTasks active allowed s tick rest
    else
      match isTaskDue active tick.now (s.entries ref) with
      | .error _ => finishTick active s tick
      | .ok false => visitTasks active allowed s tick rest
      | .ok true => if allowed id then startAttempt s tick id ref else denyTask s tick ref

def continueTick (active : Zone) (allowed : String → Bool) (s : Scheduler) (tick : Tick) :
    Scheduler :=
  visitTasks active allowed s tick (s.tasks.filter fun task => tick.position ≤ task.2)

def attempt (s : Scheduler) (key : Nat) : Option Attempt := s.attempts.find? fun a => a.key = key

def dropAttempt (s : Scheduler) (key : Nat) : Scheduler :=
  { s with attempts := s.attempts.filter fun a => a.key ≠ key }

def updateAttempt (s : Scheduler) (key : Nat) (f : Attempt → Attempt) : Scheduler :=
  { s with attempts := s.attempts.map fun a => if a.key = key then f a else a }

/-- `entry.state = entry.type === 'one-shot' ? 'complete' : 'idle'`. -/
def endAttempt (s : Scheduler) (ref : Nat) : Scheduler :=
  let entry := s.entries ref
  s.setEntry ref { entry with state := if entry.type = .oneShot then .complete else .idle }

def settleOverdueAttempt (active : Zone) (s : Scheduler) (a : Attempt) : Scheduler :=
  let s := s.dropAttempt a.key
  if s.lookup a.id ≠ some a.entry then s
  else (requestTaskWake active (s.endAttempt a.entry) a.entry).1

/-! ## Steps -/

/-- `tickContinues`, when an emit that a tick waits for comes back, carries what the eligibility
gate answers for each task. -/
inductive Event where
  | advance (clock : Int)
  | register (id : String) (task : ScheduledTask) (opts : RegisterOptions)
  | unregister (id : String)
  | updateTask (id : String) (updates : TaskUpdates)
  | updateConfig (tickIntervalMs heartbeatIntervalMs : Option Rat)
  | start
  | stop
  | drained
  | timerFires
  | tick
  | tickContinues (allowed : String → Bool)
  | handlerSettles (key : Nat)
  | attemptSettled
  | budgetExpires
  | overdueSettles (key : Nat)

/-- What a step leads to, `none` when it cannot be taken. -/
def step (active : Zone) (s : Scheduler) : Event → Option Scheduler
  | .advance clock => if s.clock ≤ clock then some { s with clock } else none
  | .register id task opts => some (s.register active id task opts)
  | .unregister id => some (s.unregister id)
  | .updateTask id updates => some (s.updateTask active id updates).1
  | .updateConfig tickIntervalMs heartbeatIntervalMs =>
    some (s.updateConfig active tickIntervalMs heartbeatIntervalMs)
  | .start => some (s.start active)
  | .stop => some s.stop
  | .drained =>
    match s.draining with
    | some waits => if waits && s.tickInFlight.isSome then none else some { s with draining := none }
    | none => none
  | .timerFires =>
    match s.tickTimer with
    | some timer => if timer.wakeAt ≤ s.clock then some s.timerFires else none
    | none => none
  | .tick => some (s.tick false)
  | .tickContinues allowed =>
    match s.tickInFlight with
    | none => none
    | some tick =>
      match tick.phase with
      | .emitting => some (continueTick active allowed s tick)
      | .denying => some (continueTick active allowed s tick)
      | .running _ => none
      | .booking key =>
        match s.attempt key with
        | none => none
        | some a => some (continueTick active allowed ((s.dropAttempt key).endAttempt a.entry) tick)
      | .expiring key =>
        some (continueTick active allowed (s.updateAttempt key fun a => { a with overdue := true }) tick)
  | .handlerSettles key =>
    match s.attempt key with
    | none => none
    | some a => if a.settled then none else some (s.updateAttempt key fun a => { a with settled := true })
  | .attemptSettled =>
    match s.tickInFlight with
    | none => none
    | some tick =>
      match tick.phase with
      | .running key =>
        match s.attempt key with
        | none => none
        | some a =>
          if a.settled then some { s with tickInFlight := some { tick with phase := .booking key } }
          else none
      | _ => none
  | .budgetExpires =>
    match s.tickInFlight with
    | none => none
    | some tick =>
      match tick.phase with
      | .running key =>
        match s.attempt key with
        | none => none
        | some a =>
          if a.settled then none
          else some { s with tickInFlight := some { tick with phase := .expiring key } }
      | _ => none
  | .overdueSettles key =>
    match s.attempt key with
    | none => none
    | some a => if a.overdue && a.settled then some (settleOverdueAttempt active s a) else none

end Scheduler

end Psfn.TaskScheduler
