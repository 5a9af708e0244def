import Mathlib.Tactic.Linarith
import Psfn.TaskScheduler.NextDue
import Psfn.TaskScheduler.SingleFlight

/-!
# Neither oversleeping nor spinning

The timer is armed for the earliest due time that is known, not before a floor and not after the
tick interval. Wakes are asked for in six places and left out while a tick is in flight, which arms
the timer when it is over.

* `armNextWake_spec`, `requestTaskWake_spec` — what an armed timer is good for;
* `awake_step` — every step leaves the scheduler with a timer that wakes it in time;
* `continueTick_starts` — a tick starts the tasks whose due time has come;
* `wake_run` — both, in every run in which the slots of the tasks are in reach and no update is
  refused for its cadence after its interval was applied;
* `wake_refused` — such an update brings a due time forward and the timer does not hear of it.
-/

namespace Psfn.TaskScheduler

open Lib

namespace Scheduler

/-! ## What should hold, and when -/

/-- `min(50, tickIntervalMs)`. -/
def wakeFloor (s : Scheduler) : Rat := min MIN_WAKE_MS s.tickIntervalMs

/-- The one timer is armed, within its bounds. -/
structure Armed (s : Scheduler) (timer : Timer) : Prop where
  armed  : s.tickTimer = some timer
  past   : timer.armedAt ≤ s.clock
  floor  : timer.armedAt + s.wakeFloor ≤ timer.wakeAt
  ceiling : timer.wakeAt ≤ timer.armedAt + s.tickIntervalMs

/-- The timer goes off by the due time of an entry, or at its floor. -/
def Covers (active : Zone) (s : Scheduler) (timer : Timer) (ref : Nat) : Prop :=
  ∃ due, taskNextDueAt active s.clock (s.entries ref) = .ok due ∧
    ∀ d ∈ due, timer.wakeAt ≤ max (timer.armedAt + s.wakeFloor) d

/-- The clock readings that due times are computed for. -/
def Reads (s : Scheduler) (now : Int) : Prop :=
  now = s.clock ∨ ∃ tick, s.tickInFlight = some tick ∧ tick.now = now

/-- Ticks are driven by the timer, the slots of the tasks are in reach whenever the clock is read,
and no update has an interval besides a cadence that is refused. -/
def Wakeful (active : Zone) (s : Scheduler) : Event → Prop
  | .advance clock => ∀ task ∈ s.tasks, InReach active (s.entries task.2) clock
  | .register _ task _ => ∀ now, s.Reads now → InReach active task now
  | .updateTask id updates => ∀ ref cadence, s.lookup id = some ref →
      updates.cadence = some cadence →
      (∀ now, s.Reads now → InReach active { s.entries ref with cadence := some cadence } now) ∧
        (updates.intervalMs.isSome →
          (s.entries ref).type = .every ∧ validateRecurringCadence id cadence = .ok ())
  | .tick => False
  | _ => True

/-! ## The invariants -/

structure Sound (active : Zone) (s : Scheduler) : Prop where
  stopped : s.isRunning = true → s.stopping = false
  rearm   : ∀ tick, s.tickInFlight = some tick → tick.rearm = true
  checked : ∀ task ∈ s.tasks, Checked (s.entries task.2)
  reach   : ∀ task ∈ s.tasks, ∀ now, s.Reads now → InReach active (s.entries task.2) now
  agree   : s.wakeAt = s.tickTimer.map (·.wakeAt)

/-- With no tick in flight, the timer of a running scheduler covers every task. -/
def Awake (active : Zone) (s : Scheduler) : Prop :=
  s.isRunning = true → s.tickInFlight = none →
    ∃ timer, Armed s timer ∧ ∀ task ∈ s.tasks, Covers active s timer task.2

section Wake

variable {active : Zone} {s : Scheduler}

theorem Sound.due (h : Sound active s) {task : String × Nat} (hmem : task ∈ s.tasks) :
    ∃ due, taskNextDueAt active s.clock (s.entries task.2) = .ok due := by
  have hreach := h.reach task hmem s.clock (.inl rfl)
  obtain ⟨due, -, hdue, -⟩ :=
    taskNextDueAt_mono (h.checked task hmem) (Int.le_refl _) hreach hreach
  exact ⟨due, hdue⟩

theorem Sound.rearmed (h : Sound active s) {timer : Option Timer} :
    Sound active { s with wakeAt := timer.map (·.wakeAt), tickTimer := timer } :=
  ⟨h.stopped, h.rearm, h.checked, h.reach, rfl⟩

/-! ## Arming -/

theorem earlier_le (earliest : Rat) (due : Option Rat) :
    earlier earliest due ≤ earliest ∧ ∀ d ∈ due, earlier earliest due ≤ d := by
  cases due with
  | none => exact ⟨le_refl _, nofun⟩
  | some due =>
    unfold earlier
    dsimp only
    split
    · rename_i hlt
      refine ⟨le_of_lt hlt, ?_⟩
      rintro d ⟨⟩
      exact le_refl _
    · rename_i hge
      refine ⟨le_refl _, ?_⟩
      rintro d ⟨⟩
      exact not_lt.1 hge

theorem earliest_of_tasks {now : Int} (entries : Nat → ScheduledTask) :
    ∀ {tasks : List (String × Nat)} (start : Rat),
      (∀ task ∈ tasks, ∃ due, taskNextDueAt active now (entries task.2) = .ok due) →
      ∃ earliest, tasks.foldlM (fun earliest task => do
          let due ← taskNextDueAt active now (entries task.2)
          return earlier earliest due) start = .ok earliest ∧ earliest ≤ start ∧
        ∀ task ∈ tasks, ∀ d, taskNextDueAt active now (entries task.2) = .ok (some d) →
          earliest ≤ d
  | [], start, _ => ⟨start, rfl, le_refl _, nofun⟩
  | task :: tasks, start, h => by
    obtain ⟨⟨due, hdue⟩, hrest⟩ := List.forall_mem_cons.1 h
    obtain ⟨hstart, hearlier⟩ := earlier_le start due
    obtain ⟨earliest, hfold, hle, hall⟩ := earliest_of_tasks entries (earlier start due) hrest
    refine ⟨earliest, ?_, hle.trans hstart, ?_⟩
    · rw [List.foldlM_cons, hdue]
      exact hfold
    · refine List.forall_mem_cons.2 ⟨?_, hall⟩
      intro d hd
      rw [hdue] at hd
      cases hd
      exact hle.trans (hearlier d rfl)

theorem armNextWake_spec (hsound : Sound active s) (hint : Option Rat) :
    ∃ timer, armNextWake active s s.clock hint =
        ({ s with wakeAt := timer.map (·.wakeAt), tickTimer := timer }, true) ∧
      Awake active { s with wakeAt := timer.map (·.wakeAt), tickTimer := timer } := by
  unfold armNextWake
  split
  · rename_i hidle
    refine ⟨s.tickTimer, by rw [← hsound.agree], fun hrunning _ => ?_⟩
    have hrunning' : s.isRunning = true := hrunning
    rw [hrunning', hsound.stopped hrunning'] at hidle
    cases hidle
  · split
    · rename_i htick
      refine ⟨s.tickTimer, by rw [← hsound.agree], fun _ hnone => ?_⟩
      have hnone' : s.tickInFlight = none := hnone
      rw [hnone'] at htick
      cases htick
    · obtain ⟨hstart, -⟩ := earlier_le (s.clock + s.tickIntervalMs) hint
      obtain ⟨earliest, hfold, hle, hall⟩ := earliest_of_tasks s.entries
        (earlier (s.clock + s.tickIntervalMs) hint) fun task => hsound.due
      have hcompute : computeNextWakeAt active { s with tickTimer := none } s.clock hint =
          .ok earliest := hfold
      dsimp only
      rw [hcompute]
      refine ⟨some ⟨s.clock, _⟩, rfl, fun _ _ => ⟨_, ⟨rfl, Int.le_refl _, ?_, ?_⟩, ?_⟩⟩
      · show (s.clock : Rat) + min MIN_WAKE_MS s.tickIntervalMs ≤ s.clock + max _ _
        exact add_le_add (le_refl _) (le_max_left _ _)
      · show (s.clock : Rat) + max _ _ ≤ s.clock + s.tickIntervalMs
        exact add_le_add (le_refl _) (max_le (min_le_right _ _) (min_le_right _ _))
      · intro task hmem
        obtain ⟨due, hdue⟩ := hsound.due hmem
        refine ⟨due, hdue, ?_⟩
        rintro d ⟨⟩
        have hd := hall task hmem d hdue
        have hmin := min_le_left (earliest - s.clock) s.tickIntervalMs
        have hsoon : (s.clock : Rat) + min (earliest - s.clock) s.tickIntervalMs ≤ d := by linarith
        show (s.clock : Rat) + max (min MIN_WAKE_MS s.tickIntervalMs) _ ≤
          max ((s.clock : Rat) + min MIN_WAKE_MS s.tickIntervalMs) d
        rw [← max_add_add_left]
        exact max_le_max (le_refl _) hsoon

/-- Asking for a wake of one entry leaves a timer that covers it besides those it covered. -/
theorem requestTaskWake_spec (hsound : Sound active s) {id : String} {ref : Nat}
    (hmem : (id, ref) ∈ s.tasks) :
    ∃ timer, requestTaskWake active s ref =
        ({ s with wakeAt := timer.map (·.wakeAt), tickTimer := timer }, true) ∧
      ((s.isRunning = true → s.tickInFlight = none → ∃ timer, Armed s timer ∧
          ∀ task ∈ s.tasks, task.2 ≠ ref → Covers active s timer task.2) →
        Awake active { s with wakeAt := timer.map (·.wakeAt), tickTimer := timer }) := by
  obtain ⟨due, hdue⟩ := hsound.due hmem
  unfold requestTaskWake
  rw [hdue]
  dsimp only
  unfold requestWake
  split
  · rename_i hidle
    refine ⟨s.tickTimer, by rw [← hsound.agree], fun _ hrunning => ?_⟩
    have hrunning' : s.isRunning = true := hrunning
    rw [hrunning', hsound.stopped hrunning'] at hidle
    cases hidle
  · split
    · rename_i hsooner
      refine ⟨s.tickTimer, by rw [← hsound.agree], fun hexcept hrunning hnone => ?_⟩
      obtain ⟨timer, harmed, hcovers⟩ := hexcept hrunning hnone
      refine ⟨timer, ⟨harmed.armed, harmed.past, harmed.floor, harmed.ceiling⟩, ?_⟩
      intro task htask
      by_cases href : task.2 = ref
      · -- already waking by the due time
        rw [href]
        refine ⟨due, hdue, ?_⟩
        rintro d ⟨⟩
        rw [hsound.agree, harmed.armed] at hsooner
        have hle : timer.wakeAt ≤ d := of_decide_eq_true hsooner
        exact hle.trans (le_max_right _ _)
      · exact hcovers task htask href
    · obtain ⟨timer, heq, hawake⟩ := armNextWake_spec hsound due
      exact ⟨timer, heq, fun _ => hawake⟩

/-! ## Entries and ticks -/

theorem Checked.of_eq {entry entry' : ScheduledTask} (h : Checked entry)
    (hcadence : entry'.cadence = entry.cadence)
    (hstagger : entry'.fleetStagger = entry.fleetStagger) : Checked entry' := by
  refine ⟨?_, ?_⟩
  · rw [hcadence]
    exact h.cadence
  · rw [hstagger]
    exact h.stagger

theorem InReach.of_eq {entry entry' : ScheduledTask} {now : Int} (h : InReach active entry now)
    (htype : entry'.type = entry.type) (hcadence : entry'.cadence = entry.cadence)
    (hstagger : entry'.fleetStagger = entry.fleetStagger) : InReach active entry' now := by
  intro hevery cadence hcadence'
  rw [hstagger]
  exact h (htype ▸ hevery) cadence (hcadence ▸ hcadence')

theorem Sound.setEntry (h : Sound active s) {ref : Nat} {entry : ScheduledTask}
    (hentry : ∀ task ∈ s.tasks, task.2 = ref →
      Checked entry ∧ ∀ now, s.Reads now → InReach active entry now) :
    Sound active (s.setEntry ref entry) := by
  refine ⟨h.stopped, h.rearm, ?_, ?_, h.agree⟩
  · intro task hmem
    show Checked (if task.2 = ref then entry else s.entries task.2)
    split
    · exact (hentry task hmem ‹_›).1
    · exact h.checked task hmem
  · intro task hmem now hnow
    show InReach active (if task.2 = ref then entry else s.entries task.2) now
    split
    · exact (hentry task hmem ‹_›).2 now hnow
    · exact h.reach task hmem now hnow

/-- A state or a last run is set, as ticks and attempts do. -/
theorem Sound.setState (h : Sound active s) {ref : Nat} {entry : ScheduledTask}
    (htype : entry.type = (s.entries ref).type) (hcadence : entry.cadence = (s.entries ref).cadence)
    (hstagger : entry.fleetStagger = (s.entries ref).fleetStagger) :
    Sound active (s.setEntry ref entry) := by
  refine h.setEntry ?_
  rintro task hmem rfl
  exact ⟨(h.checked task hmem).of_eq hcadence hstagger,
    fun now hnow => (h.reach task hmem now hnow).of_eq htype hcadence hstagger⟩

theorem Sound.attempts (h : Sound active s) {attempts : List Attempt} :
    Sound active { s with attempts } :=
  ⟨h.stopped, h.rearm, h.checked, h.reach, h.agree⟩

theorem Sound.ticking (h : Sound active s) {attempts : List Attempt} {starts : Nat} {tick : Tick}
    (hrearm : tick.rearm = true) (hnow : s.Reads tick.now) :
    Sound active { s with attempts, starts, tickInFlight := some tick } := by
  refine ⟨h.stopped, ?_, h.checked, ?_, h.agree⟩
  · rintro _ ⟨⟩
    exact hrearm
  · rintro task hmem now (hclock | ⟨_, ⟨⟩, rfl⟩)
    · exact h.reach task hmem now (.inl hclock)
    · exact h.reach task hmem _ hnow

theorem Sound.ticked (h : Sound active s) : Sound active { s with tickInFlight := none } := by
  refine ⟨h.stopped, nofun, h.checked, ?_, h.agree⟩
  rintro task hmem now (hclock | ⟨_, ⟨⟩, _⟩)
  exact h.reach task hmem now (.inl hclock)

theorem awake_ticking {tick : Tick} (h : s.tickInFlight = some tick) : Awake active s := by
  intro _ hnone
  rw [h] at hnone
  cases hnone

theorem awake_armNextWake (hsound : Sound active s) (hint : Option Rat) :
    Sound active (armNextWake active s s.clock hint).1 ∧
      Awake active (armNextWake active s s.clock hint).1 := by
  obtain ⟨timer, heq, hawake⟩ := armNextWake_spec hsound hint
  rw [heq]
  exact ⟨hsound.rearmed, hawake⟩

theorem awake_finishTick {tick : Tick} (hsound : Sound active s) (hrearm : tick.rearm = true) :
    Sound active (finishTick active s tick) ∧ Awake active (finishTick active s tick) := by
  unfold finishTick
  dsimp only
  rw [if_pos hrearm]
  exact awake_armNextWake hsound.ticked none

theorem awake_visitTasks {allowed : String → Bool} {tick : Tick} {left : List (String × Nat)}
    (hsound : Sound active s) (htick : s.tickInFlight = some tick) :
    Sound active (visitTasks active allowed s tick left) ∧
      Awake active (visitTasks active allowed s tick left) := by
  have hrearm := hsound.rearm tick htick
  have hreads : ∀ {t : Scheduler}, t.tickInFlight = s.tickInFlight → t.Reads tick.now :=
    fun heq => .inr ⟨tick, heq.trans htick, rfl⟩
  induction left with
  | nil =>
    rw [visitTasks]
    exact awake_finishTick hsound hrearm
  | cons task left ih =>
    rw [visitTasks.eq_def]
    dsimp only
    split
    · exact ih
    · split
      · exact awake_finishTick hsound hrearm
      · exact ih
      · split
        · have hset : Sound active (s.setEntry task.2
              { s.entries task.2 with state := .active, lastRun := tick.now }) :=
            hsound.setState rfl rfl rfl
          have hstarted : Sound active (startAttempt s tick task.1 task.2) :=
            hset.ticking hrearm (hreads rfl)
          exact ⟨hstarted, awake_ticking rfl⟩
        · have hset : Sound active (s.setEntry task.2
              { s.entries task.2 with
                lastRun := tick.now
                state := if (s.entries task.2).type = .oneShot then .complete
                  else (s.entries task.2).state }) :=
            hsound.setState rfl rfl rfl
          have hdenied : Sound active (denyTask s tick task.2) :=
            hset.ticking hrearm (hreads rfl)
          exact ⟨hdenied, awake_ticking rfl⟩

theorem Awake.attempts (h : Awake active s) {attempts : List Attempt} :
    Awake active { s with attempts } := by
  intro hrunning hnone
  obtain ⟨timer, harmed, hcovers⟩ := h hrunning hnone
  exact ⟨timer, ⟨harmed.armed, harmed.past, harmed.floor, harmed.ceiling⟩, hcovers⟩

/-! ## Registration and updates -/

theorem cadence_of_checkRegistration {id : String} {task : ScheduledTask} {opts : RegisterOptions}
    (h : s.checkRegistration id task opts = .ok ()) :
    (∀ cadence, task.cadence = some cadence → validateRecurringCadence id cadence = .ok ()) ∧
      validateFleetStagger id task.type task.cadence task.fleetStagger = .ok () := by
  unfold checkRegistration at h
  obtain ⟨_, -, h⟩ := bind_eq_ok.1 h
  obtain ⟨_, -, h⟩ := bind_eq_ok.1 h
  dsimp only at h
  split at h
  · split at h
    · rename_i cadence heq
      obtain ⟨_, hcadence, h⟩ := bind_eq_ok.1 h
      obtain ⟨_, hstagger, -⟩ := bind_eq_ok.1 h
      refine ⟨?_, hstagger⟩
      intro cadence' heq'
      rw [heq] at heq'
      cases heq'
      exact hcadence
    · rename_i hnone
      obtain ⟨_, hstagger, -⟩ := bind_eq_ok.1 h
      exact ⟨fun cadence heq => absurd heq (hnone cadence), hstagger⟩
  · obtain ⟨_, hcadence, h⟩ := bind_eq_ok.1 h
    obtain ⟨_, hstagger, -⟩ := bind_eq_ok.1 h
    refine ⟨fun cadence heq => ?_, hstagger⟩
    rw [throwIf_eq_ok, heq] at hcadence
    cases hcadence

theorem checked_of_checkRegistration {id : String} {task : ScheduledTask} {opts : RegisterOptions}
    (h : s.checkRegistration id task opts = .ok ()) : Checked task := by
  obtain ⟨hcadence, hstagger⟩ := cadence_of_checkRegistration h
  refine ⟨fun cadence heq => ⟨id, hcadence _ heq⟩, ?_⟩
  cases hsome : task.fleetStagger with
  | none => exact .inl rfl
  | some stagger =>
    rw [hsome] at hstagger
    have hstagger' := hstagger
    unfold validateFleetStagger at hstagger'
    dsimp only at hstagger'
    split at hstagger'
    · rename_i cadence htype heq
      rw [htype, heq] at hstagger
      exact .inr ⟨id, cadence, hstagger⟩
    · cases hstagger'

theorem awake_register {id : String} {task : ScheduledTask} {opts : RegisterOptions}
    (hlinked : Linked s.core) (hsound : Sound active s) (hawake : Awake active s)
    (hreach : ∀ now, s.Reads now → InReach active task now) :
    Sound active (register active s id task opts) ∧
      Awake active (register active s id task opts) := by
  unfold register
  split
  · exact ⟨hsound, hawake⟩
  · rename_i hcheck
    have hchecked := checked_of_checkRegistration hcheck
    dsimp only
    generalize htarget : ({ s.setEntry s.registrations
      { task with lastRun := seedLastRun s.clock task opts } with
        tasks := s.tasks ++ [(id, s.registrations)]
        registrations := s.registrations + 1 } : Scheduler) = t
    have hold : ∀ old ∈ s.tasks, old.2 ≠ s.registrations :=
      fun old hmem => Nat.ne_of_lt (hlinked.below old hmem)
    have hentries : ∀ old ∈ s.tasks, t.entries old.2 = s.entries old.2 := by
      intro old hmem
      rw [← htarget]
      exact if_neg (hold old hmem)
    have hnew : t.entries s.registrations =
        { task with lastRun := seedLastRun s.clock task opts } := by
      rw [← htarget]
      exact if_pos rfl
    have hsound' : Sound active t := by
      refine ⟨?_, ?_, ?_, ?_, ?_⟩
      · rw [← htarget]
        exact hsound.stopped
      · rw [← htarget]
        exact hsound.rearm
      · intro new hmem
        rw [← htarget] at hmem
        rcases List.mem_append.1 hmem with hmem | hmem
        · rw [hentries new hmem]
          exact hsound.checked new hmem
        · rw [List.mem_singleton.1 hmem, hnew]
          exact hchecked.of_eq rfl rfl
      · intro new hmem now hnow
        rw [← htarget] at hmem hnow
        rcases List.mem_append.1 hmem with hmem | hmem
        · rw [hentries new hmem]
          exact hsound.reach new hmem now hnow
        · rw [List.mem_singleton.1 hmem, hnew]
          exact (hreach now hnow).of_eq rfl rfl rfl
      · rw [← htarget]
        exact hsound.agree
    have hmem : (id, s.registrations) ∈ t.tasks := by
      rw [← htarget]
      exact List.mem_append_right _ (List.mem_singleton.2 rfl)
    obtain ⟨timer, heq, hwake⟩ := requestTaskWake_spec hsound' hmem
    rw [heq]
    refine ⟨hsound'.rearmed, hwake ?_⟩
    intro hrunning hnone
    rw [← htarget] at hrunning hnone
    obtain ⟨timer, harmed, hcovers⟩ := hawake hrunning hnone
    refine ⟨timer, ?_, ?_⟩
    · rw [← htarget]
      exact ⟨harmed.armed, harmed.past, harmed.floor, harmed.ceiling⟩
    · intro other hmem hne
      have hmem' : other ∈ s.tasks := by
        rw [← htarget] at hmem
        refine (List.mem_append.1 hmem).resolve_right fun hlast => hne ?_
        rw [List.mem_singleton.1 hlast]
      obtain ⟨due, hdue, hle⟩ := hcovers other hmem'
      refine ⟨due, ?_, ?_⟩
      · rw [hentries other hmem', ← htarget]
        exact hdue
      · rw [← htarget]
        exact hle

/-- An entry of a task is set anew and a wake asked for it. -/
theorem awake_setEntry {id : String} {ref : Nat} {entry : ScheduledTask}
    (hsound : Sound active s) (hlookup : (id, ref) ∈ s.tasks) (hchecked : Checked entry)
    (hreach : ∀ now, s.Reads now → InReach active entry now) :
    (requestTaskWake active (s.setEntry ref entry) ref).2 = true ∧
      Sound active (requestTaskWake active (s.setEntry ref entry) ref).1 ∧
      (Awake active s → Awake active (requestTaskWake active (s.setEntry ref entry) ref).1) := by
  have hsound' : Sound active (s.setEntry ref entry) :=
    hsound.setEntry fun _ _ _ => ⟨hchecked, hreach⟩
  have hmem : (id, ref) ∈ (s.setEntry ref entry).tasks := hlookup
  obtain ⟨timer, heq, hwake⟩ := requestTaskWake_spec hsound' hmem
  rw [heq]
  refine ⟨rfl, hsound'.rearmed, fun hawake => hwake ?_⟩
  intro hrunning hnone
  obtain ⟨timer, harmed, hcovers⟩ := hawake hrunning hnone
  refine ⟨timer, ⟨harmed.armed, harmed.past, harmed.floor, harmed.ceiling⟩, ?_⟩
  intro task htask hne
  obtain ⟨due, hdue, hle⟩ := hcovers task htask
  refine ⟨due, ?_, hle⟩
  show taskNextDueAt active s.clock (if task.2 = ref then entry else s.entries task.2) = .ok due
  rw [if_neg hne]
  exact hdue

theorem setEntry_self (ref : Nat) : s.setEntry ref (s.entries ref) = s := by
  have hentries : (fun r => if r = ref then s.entries ref else s.entries r) = s.entries := by
    funext r
    split
    · rename_i heq
      rw [heq]
    · rfl
  unfold setEntry
  rw [hentries]

/-- An interval and a last run do not matter to the slots. -/
theorem applyInterval_same {now : Int} {entry entry' : ScheduledTask} {updates : TaskUpdates}
    (h : applyInterval now entry updates = some entry') :
    entry'.type = entry.type ∧ entry'.cadence = entry.cadence ∧
      entry'.fleetStagger = entry.fleetStagger ∧
      (updates.intervalMs = none → entry' = entry) := by
  unfold applyInterval at h
  split at h
  · cases h
    exact ⟨rfl, rfl, rfl, fun _ => rfl⟩
  · rename_i hsome
    split at h
    · cases h
    · cases h
      refine ⟨rfl, rfl, rfl, fun hnone => ?_⟩
      rw [hsome] at hnone
      cases hnone

/-- What an update applies: no cadence, or one that was accepted. -/
theorem applyCadence_cases {id : String} {now : Int} {entry entry' : ScheduledTask}
    {updates : TaskUpdates} (h : applyCadence id now entry updates = some entry') :
    entry' = entry ∨ ∃ cadence, updates.cadence = some cadence ∧
      validateRecurringCadence id cadence = .ok () ∧ entry'.type = entry.type ∧
      entry'.cadence = some cadence ∧ entry'.fleetStagger = entry.fleetStagger := by
  unfold applyCadence at h
  split at h
  · cases h
    exact .inl rfl
  · rename_i cadence hcadence
    split at h
    · cases h
    · split at h
      · cases h
      · rename_i hvalid
        cases h
        exact .inr ⟨cadence, hcadence, hvalid, rfl, rfl, rfl⟩

/-- Refused for its cadence, an update has no interval. -/
theorem refused_unchanged {id : String} {now : Int} {entry entry' : ScheduledTask}
    {updates : TaskUpdates} (hinterval : applyInterval now entry updates = some entry')
    (hcadence : applyCadence id now entry' updates = none)
    (hguard : ∀ cadence, updates.cadence = some cadence → updates.intervalMs.isSome →
      entry.type = .every ∧ validateRecurringCadence id cadence = .ok ()) : entry' = entry := by
  obtain ⟨htype, -, -, hsame⟩ := applyInterval_same hinterval
  refine hsame (Option.not_isSome_iff_eq_none.1 fun hsome => ?_)
  unfold applyCadence at hcadence
  split at hcadence
  · cases hcadence
  · rename_i cadence hcad
    obtain ⟨hevery, hvalid⟩ := hguard cadence hcad hsome
    rw [htype, hevery, if_neg (by decide), hvalid] at hcadence
    cases hcadence

theorem awake_updateTask {id : String} {updates : TaskUpdates} (hlinked : Linked s.core)
    (hsound : Sound active s) (hguard : Wakeful active s (.updateTask id updates)) :
    (updateTask active s id updates).2.2 = true ∧
      Sound active (updateTask active s id updates).1 ∧
      (Awake active s → Awake active (updateTask active s id updates).1) := by
  unfold updateTask
  split
  · exact ⟨rfl, hsound, fun h => h⟩
  · rename_i ref hlookup
    have hmem : (id, ref) ∈ s.tasks := hlinked.lookup_iff.1 hlookup
    split
    · exact ⟨rfl, hsound, fun h => h⟩
    · rename_i entry hinterval
      split
      · rename_i hrefused
        have hsame := refused_unchanged hinterval hrefused fun cadence hcadence =>
          (hguard ref cadence hlookup hcadence).2
        rw [hsame, setEntry_self]
        exact ⟨rfl, hsound, fun h => h⟩
      · rename_i entry' hcadence
        obtain ⟨htype, hcad, hstagger, -⟩ := applyInterval_same hinterval
        have hchecked := (hsound.checked _ hmem).of_eq hcad hstagger
        have hentry' : Checked entry' ∧ ∀ now, s.Reads now → InReach active entry' now := by
          rcases applyCadence_cases hcadence with
            rfl | ⟨cadence, hsome, hvalid, htype', hcad', hstagger'⟩
          · exact ⟨hchecked,
              fun now hnow => (hsound.reach _ hmem now hnow).of_eq htype hcad hstagger⟩
          · refine ⟨⟨fun wall heq => ⟨id, ?_⟩, by rw [hstagger']; exact hchecked.stagger⟩, ?_⟩
            · rw [hcad'] at heq
              cases heq
              exact hvalid
            · intro now hnow
              exact ((hguard ref cadence hlookup hsome).1 now hnow).of_eq (htype'.trans htype) hcad'
                (hstagger'.trans hstagger)
        exact awake_setEntry hsound hmem (hentry'.1.of_eq rfl rfl)
          fun now hnow => (hentry'.2 now hnow).of_eq rfl rfl rfl

theorem awake_updateConfig {tickIntervalMs heartbeatIntervalMs : Option Rat}
    (hlinked : Linked s.core) (hsound : Sound active s) :
    Sound active (updateConfig active s tickIntervalMs heartbeatIntervalMs) ∧
      Awake active (updateConfig active s tickIntervalMs heartbeatIntervalMs) := by
  unfold updateConfig
  dsimp only
  generalize hupdated : (if heartbeatIntervalMs.getD s.heartbeatIntervalMs ≠ s.heartbeatIntervalMs
    then _ else _ : Scheduler × Bool × Bool) = updated
  have hsound' : updated.2.2 = true ∧ Sound active updated.1 := by
    generalize hconfig : ({ s with
        tickIntervalMs := tickIntervalMs.getD s.tickIntervalMs
        heartbeatIntervalMs := heartbeatIntervalMs.getD s.heartbeatIntervalMs } : Scheduler) = c
      at hupdated
    have hconfigured : Sound active c := by
      rw [← hconfig]
      exact ⟨hsound.stopped, hsound.rearm, hsound.checked, hsound.reach, hsound.agree⟩
    have hlinked' : Linked c.core := by
      rw [← hconfig]
      exact hlinked
    rw [← hupdated]
    split
    · -- the heartbeat's interval comes without a cadence
      have hguard : Wakeful active c (.updateTask "heartbeat"
          ⟨some (heartbeatIntervalMs.getD s.heartbeatIntervalMs), none, none, none, false⟩) := nofun
      obtain ⟨hthrough, hsound', -⟩ := awake_updateTask hlinked' hconfigured hguard
      exact ⟨hthrough, hsound'⟩
    · exact ⟨rfl, hconfigured⟩
  have hcleared : Sound active updated.1.clearWakeTimer :=
    ⟨hsound'.2.stopped, hsound'.2.rearm, hsound'.2.checked, hsound'.2.reach, rfl⟩
  split
  · exact awake_armNextWake hcleared none
  · rename_i hidle
    refine ⟨hsound'.2, fun hrunning _ => ?_⟩
    rw [hsound'.1, hrunning] at hidle
    exact absurd rfl hidle

theorem awake_start (hsound : Sound active s) (hawake : Awake active s) :
    Sound active (start active s) ∧ Awake active (start active s) := by
  unfold start
  split
  · exact ⟨hsound, hawake⟩
  · have hstarted : Sound active { s with isRunning := true, stopping := false } :=
      ⟨fun _ => rfl, hsound.rearm, hsound.checked, hsound.reach, hsound.agree⟩
    exact awake_armNextWake hstarted none

theorem awake_stop (hsound : Sound active s) (hawake : Awake active s) :
    Sound active (stop s) ∧ Awake active (stop s) := by
  unfold stop
  split
  · exact ⟨hsound, hawake⟩
  · dsimp only
    split
    · exact ⟨⟨nofun, hsound.rearm, hsound.checked, hsound.reach, rfl⟩, nofun⟩
    · exact ⟨⟨nofun, hsound.rearm, hsound.checked, hsound.reach, rfl⟩, nofun⟩

theorem awake_timerFires (hsound : Sound active s) :
    Sound active (timerFires s) ∧ Awake active (timerFires s) := by
  have hcleared : Sound active s.clearWakeTimer :=
    ⟨hsound.stopped, hsound.rearm, hsound.checked, hsound.reach, rfl⟩
  unfold timerFires
  dsimp only
  split
  · rename_i hidle
    refine ⟨hcleared, fun hrunning _ => ?_⟩
    rw [hrunning, hcleared.stopped hrunning] at hidle
    cases hidle
  · unfold tick
    split
    · rename_i tick htick
      refine ⟨hcleared.ticking (Bool.or_true _) (.inr ⟨tick, htick, rfl⟩), awake_ticking rfl⟩
    · exact ⟨hcleared.ticking rfl (.inl rfl), awake_ticking rfl⟩

theorem awake_advance {clock : Int} (hsound : Sound active s) (hawake : Awake active s)
    (hle : s.clock ≤ clock)
    (hreach : ∀ task ∈ s.tasks, InReach active (s.entries task.2) clock) :
    Sound active { s with clock } ∧ Awake active { s with clock } := by
  refine ⟨⟨hsound.stopped, hsound.rearm, hsound.checked, ?_, hsound.agree⟩, ?_⟩
  · rintro task hmem now (hclock | htick)
    · rw [hclock]
      exact hreach task hmem
    · exact hsound.reach task hmem now (.inr htick)
  · intro hrunning hnone
    obtain ⟨timer, harmed, hcovers⟩ := hawake hrunning hnone
    refine ⟨timer, ⟨harmed.armed, harmed.past.trans hle, harmed.floor, harmed.ceiling⟩, ?_⟩
    intro task hmem
    obtain ⟨due, hdue, hcovered⟩ := hcovers task hmem
    obtain ⟨_, later, hbefore, hlater, hmono⟩ := taskNextDueAt_mono (hsound.checked task hmem) hle
      (hsound.reach task hmem _ (.inl rfl)) (hreach task hmem)
    obtain rfl : due = _ := Except.ok.inj (hdue.symm.trans hbefore)
    refine ⟨later, hlater, fun d hd => ?_⟩
    obtain ⟨d', hd', hled⟩ := hmono d hd
    exact (hcovered d' hd').trans (max_le_max (le_refl _) hled)

theorem awake_overdueSettles {a : Attempt} (hlinked : Linked s.core) (hsound : Sound active s)
    (hawake : Awake active s) :
    Sound active (settleOverdueAttempt active s a) ∧
      Awake active (settleOverdueAttempt active s a) := by
  unfold settleOverdueAttempt
  dsimp only
  split
  · exact ⟨hsound.attempts, hawake.attempts⟩
  · rename_i hlookup
    have hmem : (a.id, a.entry) ∈ s.tasks := hlinked.lookup_iff.1 (not_not.1 hlookup)
    have hdropped : Sound active (s.dropAttempt a.key) := hsound.attempts
    have hended : Checked { s.entries a.entry with
        state := if (s.entries a.entry).type = .oneShot then .complete else .idle } :=
      (hsound.checked _ hmem).of_eq rfl rfl
    obtain ⟨-, hsound', hawake'⟩ := awake_setEntry hdropped hmem hended
      fun now hnow => (hsound.reach _ hmem now hnow).of_eq rfl rfl rfl
    exact ⟨hsound', hawake' hawake.attempts⟩

theorem awake_tickContinues {allowed : String → Bool} {t : Scheduler} (hsound : Sound active s)
    (hstep : step active s (.tickContinues allowed) = some t) :
    Sound active t ∧ Awake active t := by
  unfold step at hstep
  dsimp only at hstep
  split at hstep
  · cases hstep
  · rename_i tick htick
    split at hstep
    · cases hstep
      exact awake_visitTasks hsound htick
    · cases hstep
      exact awake_visitTasks hsound htick
    · cases hstep
    · split at hstep
      · cases hstep
      · rename_i key _ _ a _
        cases hstep
        have hdropped : Sound active (s.dropAttempt key) := hsound.attempts
        have hended : Sound active ((s.dropAttempt key).endAttempt a.entry) :=
          hdropped.setState rfl rfl rfl
        exact awake_visitTasks hended htick
    · rename_i key _
      cases hstep
      have hmarked : Sound active (s.updateAttempt key fun a => { a with overdue := true }) :=
        hsound.attempts
      exact awake_visitTasks hmarked htick

/-- Every step keeps the invariants. -/
theorem awake_step {e : Event} {t : Scheduler} (hlinked : Linked s.core) (hsound : Sound active s)
    (hawake : Awake active s) (hguard : Wakeful active s e) (hstep : step active s e = some t) :
    Sound active t ∧ Awake active t := by
  cases e with
  | advance clock =>
    unfold step at hstep
    dsimp only at hstep
    split at hstep
    · cases hstep
      exact awake_advance hsound hawake ‹_› hguard
    · cases hstep
  | register id task opts =>
    cases hstep
    exact awake_register hlinked hsound hawake hguard
  | unregister id =>
    cases hstep
    have hkept : ∀ task ∈ (unregister s id).tasks, task ∈ s.tasks :=
      fun task hmem => (List.mem_filter.1 hmem).1
    refine ⟨⟨hsound.stopped, hsound.rearm, fun task hmem => hsound.checked task (hkept task hmem),
      fun task hmem => hsound.reach task (hkept task hmem), hsound.agree⟩, ?_⟩
    intro hrunning hnone
    obtain ⟨timer, harmed, hcovers⟩ := hawake hrunning hnone
    exact ⟨timer, ⟨harmed.armed, harmed.past, harmed.floor, harmed.ceiling⟩,
      fun task hmem => hcovers task (hkept task hmem)⟩
  | updateTask id updates =>
    cases hstep
    obtain ⟨-, hsound', hawake'⟩ := awake_updateTask hlinked hsound hguard
    exact ⟨hsound', hawake' hawake⟩
  | updateConfig tickIntervalMs heartbeatIntervalMs =>
    cases hstep
    exact awake_updateConfig hlinked hsound
  | start =>
    cases hstep
    exact awake_start hsound hawake
  | stop =>
    cases hstep
    exact awake_stop hsound hawake
  | drained =>
    have hdrained : ∀ {draining : Option Bool}, Sound active { s with draining } ∧
        Awake active { s with draining } := by
      refine ⟨⟨hsound.stopped, hsound.rearm, hsound.checked, hsound.reach, hsound.agree⟩, ?_⟩
      intro hrunning hnone
      obtain ⟨timer, harmed, hcovers⟩ := hawake hrunning hnone
      exact ⟨timer, ⟨harmed.armed, harmed.past, harmed.floor, harmed.ceiling⟩, hcovers⟩
    unfold step at hstep
    dsimp only at hstep
    split at hstep
    · split at hstep
      · cases hstep
      · cases hstep
        exact hdrained
    · cases hstep
  | timerFires =>
    unfold step at hstep
    dsimp only at hstep
    split at hstep
    · split at hstep
      · cases hstep
        exact awake_timerFires hsound
      · cases hstep
    · cases hstep
  | tick => exact hguard.elim
  | tickContinues allowed => exact awake_tickContinues hsound hstep
  | handlerSettles key =>
    unfold step at hstep
    dsimp only at hstep
    split at hstep
    · cases hstep
    · split at hstep
      · cases hstep
      · cases hstep
        exact ⟨hsound.attempts, hawake.attempts⟩
  | attemptSettled =>
    unfold step at hstep
    dsimp only at hstep
    split at hstep
    · cases hstep
    · rename_i tick htick
      split at hstep
      · split at hstep
        · cases hstep
        · split at hstep
          · cases hstep
            exact ⟨hsound.ticking (hsound.rearm tick htick) (.inr ⟨tick, htick, rfl⟩),
              awake_ticking rfl⟩
          · cases hstep
      · cases hstep
  | budgetExpires =>
    unfold step at hstep
    dsimp only at hstep
    split at hstep
    · cases hstep
    · rename_i tick htick
      split at hstep
      · split at hstep
        · cases hstep
        · split at hstep
          · cases hstep
          · cases hstep
            exact ⟨hsound.ticking (hsound.rearm tick htick) (.inr ⟨tick, htick, rfl⟩),
              awake_ticking rfl⟩
      · cases hstep
  | overdueSettles key =>
    unfold step at hstep
    dsimp only at hstep
    split at hstep
    · cases hstep
    · split at hstep
      · cases hstep
        exact awake_overdueSettles hlinked hsound hawake
      · cases hstep

/-! ## What a tick starts -/

/-- `taskNextDueAt(now, entry) <= now`. -/
def dueBy (active : Zone) (now : Int) (entry : ScheduledTask) : Bool :=
  (taskNextDueAt active now entry).toOption.join.any fun due => due ≤ (now : Rat)

/-- The first task of those a tick has not visited whose due time has come. -/
def firstDue (active : Zone) (s : Scheduler) (tick : Tick) : Option (String × Nat) :=
  (s.tasks.filter fun task => tick.position ≤ task.2).find? fun task =>
    dueBy active tick.now (s.entries task.2)

theorem visitTasks_eq {allowed : String → Bool} {tick : Tick} {left : List (String × Nat)}
    (hsound : Sound active s) (htick : s.tickInFlight = some tick)
    (hleft : ∀ task ∈ left, task ∈ s.tasks) :
    visitTasks active allowed s tick left =
      (left.find? fun task => dueBy active tick.now (s.entries task.2)).elim
        (finishTick active s tick) fun task =>
          if allowed task.1 then startAttempt s tick task.1 task.2 else denyTask s tick task.2 := by
  induction left with
  | nil => rfl
  | cons task left ih =>
    obtain ⟨hmem, hrest⟩ := List.forall_mem_cons.1 hleft
    rw [visitTasks.eq_def]
    dsimp only
    split
    · rename_i hidle
      have hnot : dueBy active tick.now (s.entries task.2) = false := by
        rw [dueBy, taskNextDueAt, if_pos hidle]
        rfl
      rw [List.find?_cons_of_neg (by rw [hnot]; exact Bool.false_ne_true)]
      exact ih hrest
    · rename_i hidle
      obtain ⟨due, hdue, htest⟩ := isTaskDue_iff (hsound.checked task hmem) (not_not.1 hidle)
        (hsound.reach task hmem tick.now (.inr ⟨tick, htick, rfl⟩))
      have hboth : isTaskDue active tick.now (s.entries task.2) =
          .ok (dueBy active tick.now (s.entries task.2)) := by
        rw [htest, dueBy, hdue]
        cases due <;> rfl
      rw [hboth]
      cases hby : dueBy active tick.now (s.entries task.2) with
      | false =>
        rw [List.find?_cons_of_neg (by rw [hby]; exact Bool.false_ne_true)]
        exact ih hrest
      | true =>
        simp only [List.find?_cons, hby]
        rfl

/-- The state in which the loop of a tick goes on: an attempt that settled is booked, and one that
ran out of its budget is left to itself. -/
def resumed (s : Scheduler) (tick : Tick) : Scheduler :=
  match tick.phase with
  | .booking key => (s.attempt key).elim s fun a => (s.dropAttempt key).endAttempt a.entry
  | .expiring key => s.updateAttempt key fun a => { a with overdue := true }
  | _ => s

/-- **A tick starts the tasks whose due time has come**: where its loop goes on, the first of those
that are left is started, or denied when it is not eligible. -/
theorem continueTick_starts {allowed : String → Bool} {t : Scheduler} (hsound : Sound active s)
    (hstep : step active s (.tickContinues allowed) = some t) :
    ∃ tick, s.tickInFlight = some tick ∧
      t = (firstDue active (s.resumed tick) tick).elim (finishTick active (s.resumed tick) tick)
        fun task =>
          if allowed task.1 then startAttempt (s.resumed tick) tick task.1 task.2
          else denyTask (s.resumed tick) tick task.2 := by
  have hleft : ∀ {s' : Scheduler} {tick : Tick},
      ∀ task ∈ s'.tasks.filter (fun task => tick.position ≤ task.2), task ∈ s'.tasks :=
    fun task hmem => (List.mem_filter.1 hmem).1
  unfold step at hstep
  dsimp only at hstep
  split at hstep
  · cases hstep
  · rename_i tick htick
    refine ⟨tick, htick, ?_⟩
    unfold resumed
    split at hstep
    · rename_i hphase
      cases hstep
      rw [hphase]
      exact visitTasks_eq hsound htick hleft
    · rename_i hphase
      cases hstep
      rw [hphase]
      exact visitTasks_eq hsound htick hleft
    · cases hstep
    · rename_i key hphase
      split at hstep
      · cases hstep
      · rename_i a hattempt
        cases hstep
        rw [hphase]
        dsimp only
        rw [hattempt]
        have hdropped : Sound active (s.dropAttempt key) := hsound.attempts
        have hended : Sound active ((s.dropAttempt key).endAttempt a.entry) :=
          hdropped.setState rfl rfl rfl
        exact visitTasks_eq hended htick hleft
    · rename_i key hphase
      cases hstep
      rw [hphase]
      have hmarked : Sound active (s.updateAttempt key fun a => { a with overdue := true }) :=
        hsound.attempts
      exact visitTasks_eq hmarked htick hleft

/-! ## Runs -/

theorem sound_init (clock : Int) (tickIntervalMs heartbeatIntervalMs : Rat) :
    Sound active (init clock tickIntervalMs heartbeatIntervalMs) ∧
      Awake active (init clock tickIntervalMs heartbeatIntervalMs) := by
  have hstopped : (init clock tickIntervalMs heartbeatIntervalMs).isRunning ≠ true :=
    Bool.false_ne_true
  have hempty : ∀ task, task ∉ (init clock tickIntervalMs heartbeatIntervalMs).tasks :=
    fun task => List.not_mem_nil
  refine ⟨⟨fun hrunning => absurd hrunning hstopped, fun tick htick => ?_,
    fun task hmem => absurd hmem (hempty task), fun task hmem => absurd hmem (hempty task), rfl⟩,
    fun hrunning => absurd hrunning hstopped⟩
  cases htick

/-- **Neither oversleeping nor spinning.** Whenever the scheduler runs with no tick in flight, its
timer is armed, within its bounds and for the due times of the idle tasks, and a tick starts the
tasks whose due time has come. -/
theorem wake_run (active : Zone) (clock : Int) (tickIntervalMs heartbeatIntervalMs : Rat)
    {s : Scheduler}
    (h : (system active (init clock tickIntervalMs heartbeatIntervalMs)
      (Wakeful active)).Reachable s) :
    (s.isRunning = true → s.tickInFlight = none → ∃ timer, Armed s timer ∧
        ∀ task ∈ s.tasks, (s.entries task.2).state = .idle → Covers active s timer task.2) ∧
      ∀ allowed t, step active s (.tickContinues allowed) = some t →
        ∃ tick, s.tickInFlight = some tick ∧
          t = (firstDue active (s.resumed tick) tick).elim (finishTick active (s.resumed tick) tick)
            fun task =>
              if allowed task.1 then startAttempt (s.resumed tick) tick task.1 task.2
              else denyTask (s.resumed tick) tick task.2 := by
  have hall : Linked s.core ∧ Sound active s ∧ Awake active s := by
    refine System.invariant (I := fun s => Linked s.core ∧ Sound active s ∧ Awake active s)
      ⟨linked_init _ _ _, sound_init _ _ _⟩ ?_ h
    rintro s t ⟨hlinked, hsound, hawake⟩ ⟨e, hguard, hstep⟩
    exact ⟨linked_next hlinked hstep, awake_step hlinked hsound hawake hguard hstep⟩
  obtain ⟨-, hsound, hawake⟩ := hall
  refine ⟨fun hrunning hnone => ?_, fun allowed t => continueTick_starts hsound⟩
  obtain ⟨timer, harmed, hcovers⟩ := hawake hrunning hnone
  exact ⟨timer, harmed, fun task hmem _ => hcovers task hmem⟩

end Wake

/-- A task of every morning. -/
def everyMorning : ScheduledTask :=
  ⟨.every, 86400000, some (.wallClock (.daily 8 0 .utc)), none, none, .idle, 0⟩

def reviewed : Scheduler :=
  start .utc (register .utc (init 1771164000000 30000 60000) "review" everyMorning
    ⟨none, none, none⟩)

theorem inReach_everyMorning {now : Int} (hsince : WEEK_MS ≤ now)
    (hbefore : now + WEEK_MS ≤ MAX_DATE) : InReach .utc everyMorning now := by
  intro _ cadence hcadence
  cases hcadence
  have hvalid : validateRecurringCadence "review" (.wallClock (.daily 8 0 .utc)) = .ok () := rfl
  exact ⟨_, _, slotsInReach_utc rfl hvalid hsince hbefore⟩

theorem wake_run_review :
    ∃ timer, Armed reviewed timer ∧ ∀ task ∈ reviewed.tasks,
      (reviewed.entries task.2).state = .idle → Covers .utc reviewed timer task.2 := by
  have hrun : (system .utc (init 1771164000000 30000 60000) (Wakeful .utc)).Reachable reviewed := by
    refine .tail (.single ⟨.register "review" everyMorning ⟨none, none, none⟩, ?_, rfl⟩)
      ⟨.start, trivial, rfl⟩
    rintro now (hclock | ⟨_, ⟨⟩, _⟩)
    rw [hclock]
    exact inReach_everyMorning (by decide) (by decide)
  have hnone : reviewed.tickInFlight.isNone = true := by decide +kernel
  exact (wake_run .utc 1771164000000 30000 60000 hrun).1 (by decide +kernel)
    (Option.isNone_iff_eq_none.1 hnone)

/-- `poll`'s interval is shortened by an update that is refused for its cadence. -/
def refusedUpdate : List Event :=
  [.start, .register "poll" ⟨.every, 60000, none, none, none, .idle, 0⟩ ⟨some true, none, none⟩,
    .updateTask "poll" ⟨some 1000, none, none, some (.wallClock (.hourly 99 .utc)), false⟩]

/-- `poll` is due at 6000, and the timer was armed at 5000 for 35000. -/
def overslept (s : Scheduler) : Bool :=
  s.isRunning && s.tickInFlight.isNone &&
    decide (s.tickTimer.map (fun timer => (timer.armedAt, timer.wakeAt)) = some (5000, 35000)) &&
    decide (s.tickIntervalMs = 30000) && decide (s.tasks = [("poll", 0)]) &&
    decide ((s.entries 0).state = .idle) &&
    decide ((taskNextDueAt .utc s.clock (s.entries 0)).toOption = some (some 6000))

theorem wake_refused :
    ∃ s, (system .utc (init 5000 30000 60000) fun _ e => e ≠ .tick).Reachable s ∧
      s.isRunning = true ∧ s.tickInFlight = none ∧ ¬ ∃ timer, Armed s timer ∧
        ∀ task ∈ s.tasks, (s.entries task.2).state = .idle → Covers .utc s timer task.2 := by
  have hsome : (steps .utc (init 5000 30000 60000) refusedUpdate).map overslept = some true := by
    decide +kernel
  obtain ⟨s, hs, hreading⟩ := Option.map_eq_some_iff.1 hsome
  simp only [overslept, Bool.and_eq_true, decide_eq_true_eq] at hreading
  obtain ⟨⟨⟨⟨⟨⟨hrunning, hnone⟩, htimer⟩, hinterval⟩, htasks⟩, hidle⟩, hdue⟩ := hreading
  have hrun : (system .utc (init 5000 30000 60000) fun _ e => e ≠ .tick).Reachable s := by
    refine runs_of_steps ?_ hs
    intro e he s
    simp only [refusedUpdate, List.mem_cons, List.not_mem_nil, or_false] at he
    rcases he with rfl | rfl | rfl <;> nofun
  refine ⟨s, hrun, hrunning, Option.isNone_iff_eq_none.1 hnone, ?_⟩
  rintro ⟨timer, harmed, hcovers⟩
  rw [harmed.armed] at htimer
  obtain ⟨harmedAt, hwakeAt⟩ := Prod.mk.inj (Option.some.inj htimer)
  obtain ⟨due, hok, hle⟩ := hcovers ("poll", 0) (by rw [htasks]; exact List.mem_singleton.2 rfl) hidle
  rw [hok] at hdue
  have hlate := hle 6000 (Option.some.inj hdue)
  rw [wakeFloor, hinterval, harmedAt, hwakeAt] at hlate
  exact absurd hlate (by decide +kernel)

end Scheduler

end Psfn.TaskScheduler
