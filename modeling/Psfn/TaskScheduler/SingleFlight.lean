import Mathlib.Data.List.Pairwise
import Mathlib.Logic.Relation
import Psfn.TaskScheduler.Scheduler

/-!
# One handler at a time

That a task does not run while it runs rests on the `active` state of its entry. What a step does
to the map, the entries and the attempts is said once (`step_core`); the timer has no part in it.

* `singleFlight_run` — one unsettled handler for each id, and no second start of a completed
  one-shot, as long as no id is registered anew while a handler of it is unsettled;
* `singleFlight_reregistered` — a task that was replaced under its id while its budget-failed
  handler hung runs twice at once;
* `pause_kept` — a pause holds when it is issued while no attempt of the task is pending;
* `pause_lost` — the end of the attempt overwrites a pause that is issued during it.
-/

namespace Psfn.TaskScheduler

open Relation (ReflTransGen)
open Lib

namespace Scheduler

/-! ## What a step does to the tasks -/

/-- The scheduler without its timer. -/
structure Core where
  tasks         : List (String × Nat)
  entries       : Nat → ScheduledTask
  registrations : Nat
  attempts      : List Attempt
  starts        : Nat

def core (s : Scheduler) : Core where
  tasks := s.tasks
  entries := s.entries
  registrations := s.registrations
  attempts := s.attempts
  starts := s.starts

def Core.lookup (c : Core) (id : String) : Option Nat := Lib.JsMap.lookup id c.tasks

def Core.setEntry (c : Core) (ref : Nat) (entry : ScheduledTask) : Core :=
  { c with entries := fun r => if r = ref then entry else c.entries r }

def TaskState.afterAttempt (type : TaskType) : TaskState :=
  if type = .oneShot then .complete else .idle

/-- The state that an update sets, if the event is one of the task. -/
def Event.stateOf (id : String) : Event → Option TaskState
  | .updateTask id' updates => if id' = id then updates.state else none
  | _ => none

inductive CoreStep (e : Event) (c : Core) : Core → Prop
  | register {id : String} {task : ScheduledTask} {opts : RegisterOptions} (lastRun : Rat)
    (he : e = .register id task opts) (hfree : c.lookup id = none) :
    CoreStep e c { c.setEntry c.registrations { task with lastRun } with
      tasks := c.tasks ++ [(id, c.registrations)], registrations := c.registrations + 1 }
  | unregister {id : String} (he : e = .unregister id) :
    CoreStep e c { c with tasks := c.tasks.filter fun task => task.1 ≠ id }
  | update {id : String} {ref : Nat} {entry : ScheduledTask} (hlookup : c.lookup id = some ref)
    (htype : entry.type = (c.entries ref).type)
    (hstate : entry.state = (c.entries ref).state ∨ e.stateOf id = some entry.state) :
    CoreStep e c (c.setEntry ref entry)
  | start {id : String} {ref : Nat} (lastRun : Rat) (hmem : (id, ref) ∈ c.tasks)
    (hidle : (c.entries ref).state = .idle) :
    CoreStep e c { c.setEntry ref { c.entries ref with state := .active, lastRun } with
      attempts := c.attempts ++
        [{ key := c.starts, id, entry := ref, settled := false, overdue := false }]
      starts := c.starts + 1 }
  | deny {ref : Nat} {entry : ScheduledTask} (hidle : (c.entries ref).state = .idle)
    (htype : entry.type = (c.entries ref).type)
    (hstate : entry.state = .idle ∨ entry.state = .complete) :
    CoreStep e c (c.setEntry ref entry)
  | mark {key : Nat} {f : Attempt → Attempt}
    (hf : ∀ a, (f a).key = a.key ∧ (f a).id = a.id ∧ (f a).entry = a.entry ∧
      ((f a).settled = false → a.settled = false)) :
    CoreStep e c { c with attempts := c.attempts.map fun a => if a.key = key then f a else a }
  | drop {key : Nat} :
    CoreStep e c { c with attempts := c.attempts.filter fun a => a.key ≠ key }
  | finish {a : Attempt} (ha : a ∈ c.attempts) :
    CoreStep e c { c.setEntry a.entry { c.entries a.entry with
        state := TaskState.afterAttempt (c.entries a.entry).type } with
      attempts := c.attempts.filter fun b => b.key ≠ a.key }

variable {id : String} {key : Nat}

section Core

variable {active : Zone} {s : Scheduler}

theorem core_armNextWake (now : Int) (hint : Option Rat) :
    (armNextWake active s now hint).1.core = s.core := by
  unfold armNextWake
  split
  · rfl
  · split
    · rfl
    · dsimp only
      split <;> rfl

theorem core_requestWake (atMs : Option Rat) : (requestWake active s atMs).1.core = s.core := by
  unfold requestWake
  split
  · rfl
  · split
    · rfl
    · exact core_armNextWake _ _

theorem core_requestTaskWake (ref : Nat) : (requestTaskWake active s ref).1.core = s.core := by
  unfold requestTaskWake
  split
  · rfl
  · exact core_requestWake _

theorem core_finishTick (tick : Tick) : (finishTick active s tick).core = s.core := by
  unfold finishTick
  dsimp only
  split
  · exact core_armNextWake _ _
  · rfl

variable {e : Event}

theorem core_visitTasks {allowed : String → Bool} {tick : Tick} {left : List (String × Nat)}
    (h : ∀ task ∈ left, task ∈ s.tasks) :
    ReflTransGen (CoreStep e) s.core (visitTasks active allowed s tick left).core := by
  induction left with
  | nil =>
    rw [visitTasks, core_finishTick]
  | cons task left ih =>
    obtain ⟨hmem, hrest⟩ := List.forall_mem_cons.1 h
    rw [visitTasks.eq_def]
    dsimp only
    split
    · exact ih hrest
    · rename_i hidle
      have hidle' : (s.entries task.2).state = .idle := not_not.1 hidle
      split
      · rw [core_finishTick]
      · exact ih hrest
      · split
        · exact .single (.start tick.now hmem hidle')
        · have hdeny : CoreStep e s.core (denyTask s tick task.2).core := by
            refine .deny hidle' rfl ?_
            dsimp only
            split
            · exact .inr rfl
            · exact .inl hidle'
          exact .single hdeny

theorem core_continueTick {allowed : String → Bool} {tick : Tick} :
    ReflTransGen (CoreStep e) s.core (continueTick active allowed s tick).core :=
  core_visitTasks fun _ htask => (List.mem_filter.1 htask).1

/-- An update changes nothing, or the entry of the task: what it was asked to when it came through,
and not the state when it was refused halfway. -/
theorem core_updateTask_cases (active : Zone) (s : Scheduler) (id : String) (updates : TaskUpdates) :
    (updateTask active s id updates).1.core = s.core ∧
        (updateTask active s id updates).2.1 = false ∨
      ∃ ref entry, s.lookup id = some ref ∧
        (updateTask active s id updates).1.core = s.core.setEntry ref entry ∧
        entry.type = (s.entries ref).type ∧
        (entry.state = updates.state.getD (s.entries ref).state ∨
          entry.state = (s.entries ref).state ∧ (updateTask active s id updates).2.1 = false) := by
  unfold updateTask
  split
  · exact .inl ⟨rfl, rfl⟩
  · rename_i ref hlookup
    split
    · exact .inl ⟨rfl, rfl⟩
    · rename_i entry hinterval
      have hentry : entry.type = (s.entries ref).type ∧ entry.state = (s.entries ref).state := by
        unfold applyInterval at hinterval
        split at hinterval
        · cases hinterval
          exact ⟨rfl, rfl⟩
        · split at hinterval
          · cases hinterval
          · cases hinterval
            exact ⟨rfl, rfl⟩
      split
      · exact .inr ⟨ref, entry, hlookup, rfl, hentry.1, .inr ⟨hentry.2, rfl⟩⟩
      · rename_i entry' hcadence
        have hentry' : entry'.type = entry.type ∧ entry'.state = entry.state := by
          unfold applyCadence at hcadence
          split at hcadence
          · cases hcadence
            exact ⟨rfl, rfl⟩
          · split at hcadence
            · cases hcadence
            · split at hcadence
              · cases hcadence
              · cases hcadence
                exact ⟨rfl, rfl⟩
        dsimp only
        refine .inr ⟨ref, _, hlookup, core_requestTaskWake ref, hentry'.1.trans hentry.1, .inl ?_⟩
        rw [← hentry.2, ← hentry'.2]

theorem core_updateTask {updates : TaskUpdates}
    (he : ∀ state, updates.state = some state → e.stateOf id = some state) :
    ReflTransGen (CoreStep e) s.core (updateTask active s id updates).1.core := by
  rcases core_updateTask_cases active s id updates with
    ⟨hcore, _⟩ | ⟨ref, entry, hlookup, hcore, htype, hstate⟩
  · rw [hcore]
  · rw [hcore]
    refine .single (.update hlookup htype ?_)
    rcases hstate with hstate | ⟨hstate, _⟩
    · cases hset : updates.state with
      | none => exact .inl (by rw [hstate, hset]; rfl)
      | some state => exact .inr (by rw [he state hset, hstate, hset]; rfl)
    · exact .inl hstate

theorem core_updateConfig (tickIntervalMs heartbeatIntervalMs : Option Rat) :
    ReflTransGen (CoreStep e) s.core
      (updateConfig active s tickIntervalMs heartbeatIntervalMs).core := by
  unfold updateConfig
  dsimp only
  generalize hupdated : (if heartbeatIntervalMs.getD s.heartbeatIntervalMs ≠ s.heartbeatIntervalMs
    then _ else _ : Scheduler × Bool × Bool) = updated
  have hcore : ReflTransGen (CoreStep e) s.core updated.1.core := by
    rw [← hupdated]
    split
    · exact core_updateTask (s := { s with
        tickIntervalMs := tickIntervalMs.getD s.tickIntervalMs
        heartbeatIntervalMs := heartbeatIntervalMs.getD s.heartbeatIntervalMs }) (by nofun)
    · exact .refl
  split
  · rw [core_armNextWake]
    exact hcore
  · exact hcore

theorem lookup_eq_none_of_checkRegistration {task : ScheduledTask} {opts : RegisterOptions}
    (h : s.checkRegistration id task opts = .ok ()) :
    s.lookup id = none := by
  obtain ⟨_, hfree, _⟩ := bind_eq_ok.1 h
  have hnone : (s.lookup id).isSome = false := throwIf_eq_ok.1 hfree
  exact Option.not_isSome_iff_eq_none.1 (by rw [hnone]; exact Bool.false_ne_true)

theorem core_register (active : Zone) (s : Scheduler) (id : String) (task : ScheduledTask)
    (opts : RegisterOptions) :
    (register active s id task opts).core = s.core ∨
      CoreStep (.register id task opts) s.core (register active s id task opts).core := by
  unfold register
  split
  · exact .inl rfl
  · rename_i hcheck
    dsimp only
    rw [core_requestTaskWake]
    exact .inr (.register _ rfl (lookup_eq_none_of_checkRegistration hcheck))

theorem core_start : (start active s).core = s.core := by
  unfold start
  split
  · rfl
  · exact core_armNextWake _ _

theorem core_stop : (stop s).core = s.core := by
  unfold stop
  split
  · rfl
  · dsimp only
    split <;> rfl

theorem core_tick (rearm : Bool) : (tick s rearm).core = s.core := by
  unfold tick
  split <;> rfl

theorem core_timerFires : (timerFires s).core = s.core := by
  unfold timerFires
  dsimp only
  split
  · rfl
  · exact core_tick true

variable {a : Attempt}

theorem attempt_eq_some (h : s.attempt key = some a) :
    a ∈ s.attempts ∧ a.key = key := by
  have hfind : s.attempts.find? (fun a => a.key = key) = some a := h
  have hkey := List.find?_some hfind
  exact ⟨List.mem_of_find?_eq_some hfind, of_decide_eq_true hkey⟩

theorem core_endAttempt (ha : a ∈ s.attempts) :
    CoreStep e s.core ((s.dropAttempt a.key).endAttempt a.entry).core :=
  .finish ha

theorem core_updateAttempt {f : Attempt → Attempt}
    (hf : ∀ a, (f a).key = a.key ∧ (f a).id = a.id ∧ (f a).entry = a.entry ∧
      ((f a).settled = false → a.settled = false)) :
    CoreStep e s.core (s.updateAttempt key f).core :=
  .mark hf

theorem core_settleOverdueAttempt (ha : a ∈ s.attempts) :
    ReflTransGen (CoreStep e) s.core (settleOverdueAttempt active s a).core := by
  unfold settleOverdueAttempt
  dsimp only
  split
  · exact .single .drop
  · rw [core_requestTaskWake]
    exact .single (core_endAttempt ha)

theorem core_tickContinues {allowed : String → Bool} {t : Scheduler}
    (h : step active s (.tickContinues allowed) = some t) :
    ReflTransGen (CoreStep e) s.core t.core := by
  unfold step at h
  dsimp only at h
  split at h
  · cases h
  · rename_i tick _
    split at h
    · cases h
      exact core_continueTick
    · cases h
      exact core_continueTick
    · cases h
    · rename_i key _
      split at h
      · cases h
      · rename_i a hattempt
        cases h
        obtain ⟨ha, rfl⟩ := attempt_eq_some hattempt
        exact .head (core_endAttempt ha) core_continueTick
    · cases h
      refine .trans (.single (core_updateAttempt ?_)) core_continueTick
      exact fun a => ⟨rfl, rfl, rfl, id⟩

/-- What a step does to the tasks, entries and attempts. -/
theorem step_core {t : Scheduler} (h : step active s e = some t) :
    ReflTransGen (CoreStep e) s.core t.core := by
  cases e with
  | advance clock =>
    unfold step at h
    dsimp only at h
    split at h
    · cases h
      exact .refl
    · cases h
  | register id task opts =>
    cases h
    rcases core_register active s id task opts with
      heq | hstep
    · rw [heq]
    · exact .single hstep
  | unregister id =>
    cases h
    exact .single (.unregister rfl)
  | updateTask id updates =>
    cases h
    exact core_updateTask fun state hstate => by rw [Event.stateOf, if_pos rfl, hstate]
  | updateConfig tickIntervalMs heartbeatIntervalMs =>
    cases h
    exact core_updateConfig _ _
  | start =>
    cases h
    rw [core_start]
  | stop =>
    cases h
    rw [core_stop]
  | drained =>
    unfold step at h
    dsimp only at h
    split at h
    · split at h
      · cases h
      · cases h
        exact .refl
    · cases h
  | timerFires =>
    unfold step at h
    dsimp only at h
    split at h
    · split at h
      · cases h
        rw [core_timerFires]
      · cases h
    · cases h
  | tick =>
    cases h
    rw [core_tick]
  | tickContinues allowed => exact core_tickContinues h
  | handlerSettles key =>
    unfold step at h
    dsimp only at h
    split at h
    · cases h
    · split at h
      · cases h
      · cases h
        exact .single (core_updateAttempt fun a => ⟨rfl, rfl, rfl, nofun⟩)
  | attemptSettled =>
    unfold step at h
    dsimp only at h
    split at h
    · cases h
    · split at h
      · split at h
        · cases h
        · split at h
          · cases h
            exact .refl
          · cases h
      · cases h
  | budgetExpires =>
    unfold step at h
    dsimp only at h
    split at h
    · cases h
    · split at h
      · split at h
        · cases h
        · split at h
          · cases h
          · cases h
            exact .refl
      · cases h
  | overdueSettles key =>
    unfold step at h
    dsimp only at h
    split at h
    · cases h
    · rename_i a hattempt
      split at h
      · cases h
        exact core_settleOverdueAttempt (attempt_eq_some hattempt).1
      · cases h

end Core

/-! ## The invariants -/

structure Linked (c : Core) : Prop where
  names   : (c.tasks.map Prod.fst).Nodup
  refs    : (c.tasks.map Prod.snd).Nodup
  below   : ∀ task ∈ c.tasks, task.2 < c.registrations
  entries : ∀ a ∈ c.attempts, a.entry < c.registrations
  keys    : ∀ a ∈ c.attempts, a.key < c.starts

/-- The entry of an attempt is active and has no other, and it is the entry of its id as long as
its handler runs. -/
structure Single (c : Core) : Prop where
  active : ∀ a ∈ c.attempts, (c.entries a.entry).state = .active
  apart  : c.attempts.Pairwise fun a b => a.entry ≠ b.entry
  own    : ∀ a ∈ c.attempts, a.settled = false → ∀ ref, c.lookup a.id = some ref → ref = a.entry
  alone  : c.attempts.Pairwise fun a b => a.settled = false → b.settled = false → a.id ≠ b.id

variable {ref : Nat}

section Invariants

variable {c c' : Core} {e : Event}

theorem Linked.lookup_iff (h : Linked c) :
    c.lookup id = some ref ↔ (id, ref) ∈ c.tasks :=
  JsMap.lookup_eq_some_iff h.names

theorem Linked.notMem_of_lookup (h : Linked c) (hnone : c.lookup id = none) :
    id ∉ c.tasks.map Prod.fst := by
  intro hmem
  obtain ⟨task, htask, rfl⟩ := List.mem_map.1 hmem
  rw [h.lookup_iff.2 htask] at hnone
  cases hnone

/-- No two ids have the same entry. -/
theorem Linked.id_eq (h : Linked c) {id' : String} (hid : c.lookup id = some ref)
    (hid' : c.lookup id' = some ref) : id = id' :=
  congrArg Prod.fst (List.inj_on_of_nodup_map h.refs (h.lookup_iff.1 hid) (h.lookup_iff.1 hid') rfl)

theorem linked_step (h : Linked c) (hstep : CoreStep e c c') : Linked c' := by
  cases hstep with
  | register lastRun he hfree =>
    rename_i id task opts
    refine ⟨?_, ?_, ?_, ?_, h.keys⟩
    · show ((c.tasks ++ [(id, c.registrations)]).map Prod.fst).Nodup
      rw [List.map_append]
      refine List.Nodup.append h.names (List.nodup_singleton _) ?_
      exact List.disjoint_singleton.2 (h.notMem_of_lookup hfree)
    · show ((c.tasks ++ [(id, c.registrations)]).map Prod.snd).Nodup
      rw [List.map_append]
      refine List.Nodup.append h.refs (List.nodup_singleton _) (List.disjoint_singleton.2 ?_)
      intro hmem
      obtain ⟨task, htask, heq⟩ := List.mem_map.1 hmem
      have hlt := h.below task htask
      dsimp only at heq
      omega
    · intro task htask
      show task.2 < c.registrations + 1
      rcases List.mem_append.1 htask with hold | hnew
      · exact Nat.lt_succ_of_lt (h.below task hold)
      · rw [List.mem_singleton.1 hnew]
        exact Nat.lt_succ_self _
    · intro a ha
      exact Nat.lt_succ_of_lt (h.entries a ha)
  | unregister he =>
    have hsub : ∀ {p : String × Nat → Bool}, (c.tasks.filter p).Sublist c.tasks :=
      List.filter_sublist
    exact ⟨h.names.sublist (hsub.map _), h.refs.sublist (hsub.map _),
      fun task htask => h.below task (List.mem_filter.1 htask).1, h.entries, h.keys⟩
  | update hlookup htype hstate => exact ⟨h.names, h.refs, h.below, h.entries, h.keys⟩
  | start lastRun hmem hidle =>
    refine ⟨h.names, h.refs, h.below, ?_, ?_⟩
    · intro a ha
      rcases List.mem_append.1 ha with hold | hnew
      · exact h.entries a hold
      · rw [List.mem_singleton.1 hnew]
        exact h.below _ hmem
    · intro a ha
      show a.key < c.starts + 1
      rcases List.mem_append.1 ha with hold | hnew
      · exact Nat.lt_succ_of_lt (h.keys a hold)
      · rw [List.mem_singleton.1 hnew]
        exact Nat.lt_succ_self _
  | deny hidle htype hstate => exact ⟨h.names, h.refs, h.below, h.entries, h.keys⟩
  | mark hf =>
    rename_i key f
    have hsame : ∀ a, (if a.key = key then f a else a).key = a.key ∧
        (if a.key = key then f a else a).entry = a.entry := by
      intro a
      split
      · exact ⟨(hf a).1, (hf a).2.2.1⟩
      · exact ⟨rfl, rfl⟩
    refine ⟨h.names, h.refs, h.below, ?_, ?_⟩
    · intro b hb
      obtain ⟨a, ha, rfl⟩ := List.mem_map.1 hb
      rw [(hsame a).2]
      exact h.entries a ha
    · intro b hb
      obtain ⟨a, ha, rfl⟩ := List.mem_map.1 hb
      rw [(hsame a).1]
      exact h.keys a ha
  | drop =>
    exact ⟨h.names, h.refs, h.below, fun a ha => h.entries a (List.mem_filter.1 ha).1,
      fun a ha => h.keys a (List.mem_filter.1 ha).1⟩
  | finish ha =>
    exact ⟨h.names, h.refs, h.below, fun a ha => h.entries a (List.mem_filter.1 ha).1,
      fun a ha => h.keys a (List.mem_filter.1 ha).1⟩

/-- An entry that is set anew keeps what the attempts rely on, if it stays active when it was. -/
theorem Single.setEntry (h : Single c) {entry : ScheduledTask}
    (hactive : (∃ a ∈ c.attempts, a.entry = ref) → entry.state = .active) :
    Single (c.setEntry ref entry) := by
  refine ⟨?_, h.apart, h.own, h.alone⟩
  intro a ha
  show (if a.entry = ref then entry else c.entries a.entry).state = .active
  split
  · rename_i hentry
    exact hactive ⟨a, ha, hentry⟩
  · exact h.active a ha

theorem single_step (hlinked : Linked c) (h : Single c) (hset : ∀ id, e.stateOf id = none)
    (hregister : ∀ id task opts, e = .register id task opts → c.lookup id = none →
      ∀ a ∈ c.attempts, a.id = id → a.settled = true)
    (hstep : CoreStep e c c') : Single c' := by
  have hlinked' := linked_step hlinked hstep
  cases hstep with
  | register lastRun he hfree =>
    rename_i id task opts
    refine ⟨?_, h.apart, ?_, h.alone⟩
    · -- the entry is a new one, of no attempt
      refine (h.setEntry ?_).active
      rintro ⟨a, ha, hentry⟩
      have hlt := hlinked.entries a ha
      omega
    · intro a ha hunsettled ref hlookup
      have hmem : (a.id, ref) ∈ c.tasks ++ [(id, c.registrations)] := hlinked'.lookup_iff.1 hlookup
      rcases List.mem_append.1 hmem with hold | hnew
      · exact h.own a ha hunsettled ref (hlinked.lookup_iff.2 hold)
      · have hid : a.id = id := congrArg Prod.fst (List.mem_singleton.1 hnew)
        rw [hregister id task opts he hfree a ha hid] at hunsettled
        cases hunsettled
  | unregister he =>
    refine ⟨h.active, h.apart, ?_, h.alone⟩
    intro a ha hunsettled ref hlookup
    have hmem := hlinked'.lookup_iff.1 hlookup
    exact h.own a ha hunsettled ref (hlinked.lookup_iff.2 (List.mem_filter.1 hmem).1)
  | update hlookup htype hstate =>
    refine h.setEntry ?_
    rintro ⟨a, ha, hentry⟩
    rcases hstate with hstate | hstate
    · rw [hstate, ← hentry]
      exact h.active a ha
    · rw [hset] at hstate
      cases hstate
  | start lastRun hmem hidle =>
    rename_i id ref
    -- the entry was idle, so that no attempt has it
    have hnew : ∀ a ∈ c.attempts, a.entry ≠ ref := by
      intro a ha hentry
      have hactive := h.active a ha
      rw [hentry, hidle] at hactive
      cases hactive
    have hself : Single (c.setEntry ref { c.entries ref with state := .active, lastRun }) :=
      h.setEntry fun _ => rfl
    refine ⟨?_, ?_, ?_, ?_⟩
    · intro a ha
      rcases List.mem_append.1 ha with hold | hnew
      · exact hself.active a hold
      · rw [List.mem_singleton.1 hnew]
        show (if ref = ref then _ else c.entries ref : ScheduledTask).state = .active
        rw [if_pos rfl]
    · refine List.pairwise_append.2 ⟨h.apart, List.pairwise_singleton _ _, ?_⟩
      intro a ha b hb
      rw [List.mem_singleton.1 hb]
      exact hnew a ha
    · intro a ha hunsettled ref' hlookup
      rcases List.mem_append.1 ha with hold | hnew
      · exact h.own a hold hunsettled ref' hlookup
      · rw [List.mem_singleton.1 hnew] at hlookup ⊢
        have hlookup' : c.lookup id = some ref' := hlookup
        rw [hlinked.lookup_iff.2 hmem] at hlookup'
        exact (Option.some.inj hlookup').symm
    · refine List.pairwise_append.2 ⟨h.alone, List.pairwise_singleton _ _, ?_⟩
      intro a ha b hb hunsettled _ hid
      rw [List.mem_singleton.1 hb] at hid
      have hlookup : c.lookup a.id = some ref := by
        rw [hid]
        exact hlinked.lookup_iff.2 hmem
      exact hnew a ha (h.own a ha hunsettled ref hlookup).symm
  | deny hidle htype hstate =>
    refine h.setEntry ?_
    rintro ⟨a, ha, hentry⟩
    have hactive := h.active a ha
    rw [hentry, hidle] at hactive
    cases hactive
  | mark hf =>
    rename_i key f
    have hsame : ∀ a, (if a.key = key then f a else a).id = a.id ∧
        (if a.key = key then f a else a).entry = a.entry ∧
        ((if a.key = key then f a else a).settled = false → a.settled = false) := by
      intro a
      split
      · exact ⟨(hf a).2.1, (hf a).2.2.1, (hf a).2.2.2⟩
      · exact ⟨rfl, rfl, fun h => h⟩
    refine ⟨?_, ?_, ?_, ?_⟩
    · intro b hb
      obtain ⟨a, ha, rfl⟩ := List.mem_map.1 hb
      rw [(hsame a).2.1]
      exact h.active a ha
    · refine List.pairwise_map.2 (h.apart.imp ?_)
      intro a b hne
      rw [(hsame a).2.1, (hsame b).2.1]
      exact hne
    · intro b hb hunsettled ref hlookup
      obtain ⟨a, ha, rfl⟩ := List.mem_map.1 hb
      rw [(hsame a).1] at hlookup
      rw [(hsame a).2.1]
      exact h.own a ha ((hsame a).2.2 hunsettled) ref hlookup
    · refine List.pairwise_map.2 (h.alone.imp ?_)
      intro a b hne ha hb
      rw [(hsame a).1, (hsame b).1]
      exact hne ((hsame a).2.2 ha) ((hsame b).2.2 hb)
  | drop =>
    exact ⟨fun a ha => h.active a (List.mem_filter.1 ha).1, h.apart.filter _,
      fun a ha => h.own a (List.mem_filter.1 ha).1, h.alone.filter _⟩
  | finish ha =>
    rename_i a
    refine ⟨?_, h.apart.filter _, fun b hb => h.own b (List.mem_filter.1 hb).1, h.alone.filter _⟩
    intro b hb
    obtain ⟨hb, hkey⟩ := List.mem_filter.1 hb
    have hsymm : Std.Symm fun a b : Attempt => a.entry ≠ b.entry := ⟨fun _ _ hne => hne.symm⟩
    have hne : b.entry ≠ a.entry := by
      refine h.apart.forall hb ha ?_
      rintro rfl
      exact of_decide_eq_true hkey rfl
    show (if b.entry = a.entry then _ else c.entries b.entry : ScheduledTask).state = .active
    rw [if_neg hne]
    exact h.active b hb

/-- The task `id` has the entry `ref`, which is not idle and which no attempt will make idle. -/
structure Held (id : String) (ref : Nat) (c : Core) : Prop where
  linked  : c.lookup id = some ref
  notIdle : (c.entries ref).state ≠ .idle
  stays   : (c.entries ref).type = .oneShot ∨ ∀ a ∈ c.attempts, a.entry ≠ ref

theorem Held.setEntry {ref' : Nat} {entry : ScheduledTask} (h : Held id ref c)
    (hset : ref = ref' → entry.type = (c.entries ref').type ∧ entry.state ≠ .idle) :
    Held id ref (c.setEntry ref' entry) := by
  refine ⟨h.linked, ?_, ?_⟩
  · show (if ref = ref' then entry else c.entries ref).state ≠ .idle
    split
    · rename_i heq
      exact (hset heq).2
    · exact h.notIdle
  · show (if ref = ref' then entry else c.entries ref).type = .oneShot ∨ _
    split
    · rename_i heq
      rw [(hset heq).1, ← heq]
      exact h.stays
    · exact h.stays

theorem Held.fewer {attempts : List Attempt} (h : Held id ref c)
    (hsub : ∀ a ∈ attempts, ∃ b ∈ c.attempts, b.entry = a.entry) :
    Held id ref { c with attempts } := by
  refine ⟨h.linked, h.notIdle, h.stays.imp_right fun hnone => ?_⟩
  intro a ha
  obtain ⟨b, hb, hentry⟩ := hsub a ha
  rw [← hentry]
  exact hnone b hb

/-- A step that neither removes the task nor sets it to idle keeps it so, and starts no attempt
of it. -/
theorem held_step (hlinked : Linked c) (h : Held id ref c) (hstay : e ≠ .unregister id)
    (hset : e.stateOf id ≠ some .idle) (hkeys : ∀ a ∈ c.attempts, a.id = id → a.key < key)
    (hstep : CoreStep e c c') :
    Held id ref c' ∧ ∀ a ∈ c'.attempts, a.id = id → a.key < key := by
  have hmem := hlinked.lookup_iff.1 h.linked
  have hlinked' := linked_step hlinked hstep
  cases hstep with
  | register lastRun he hfree =>
    rename_i id' task opts
    have hne : ref ≠ c.registrations := Nat.ne_of_lt (hlinked.below _ hmem)
    have hself : Held id ref (c.setEntry c.registrations { task with lastRun }) :=
      h.setEntry fun heq => absurd heq hne
    exact ⟨⟨hlinked'.lookup_iff.2 (List.mem_append_left _ hmem), hself.notIdle, hself.stays⟩, hkeys⟩
  | unregister he =>
    rename_i id'
    have hne : id ≠ id' := by
      rintro rfl
      exact hstay he
    have hkept : (id, ref) ∈ c.tasks.filter fun task => task.1 ≠ id' :=
      List.mem_filter.2 ⟨hmem, decide_eq_true hne⟩
    exact ⟨⟨hlinked'.lookup_iff.2 hkept, h.notIdle, h.stays⟩, hkeys⟩
  | update hlookup htype hstate =>
    refine ⟨h.setEntry ?_, hkeys⟩
    rintro rfl
    refine ⟨htype, ?_⟩
    rcases hstate with hstate | hstate
    · rw [hstate]
      exact h.notIdle
    · rename_i id' entry
      intro hidle
      rw [hidle, hlinked.id_eq hlookup h.linked] at hstate
      exact hset hstate
  | start lastRun hmem' hidle =>
    rename_i id' ref'
    have hne : ref ≠ ref' := by
      rintro rfl
      exact h.notIdle hidle
    have hself : Held id ref (c.setEntry ref' { c.entries ref' with state := .active, lastRun }) :=
      h.setEntry fun heq => absurd heq hne
    refine ⟨⟨hself.linked, hself.notIdle, hself.stays.imp_right fun hnone => ?_⟩, ?_⟩
    · intro a ha
      rcases List.mem_append.1 ha with hold | hnew
      · exact hnone a hold
      · rw [List.mem_singleton.1 hnew]
        exact hne.symm
    · intro a ha hid
      rcases List.mem_append.1 ha with hold | hnew
      · exact hkeys a hold hid
      · rw [List.mem_singleton.1 hnew] at hid
        have hid' : id' = id := hid
        have hlookup := hlinked.lookup_iff.2 hmem'
        rw [hid', h.linked] at hlookup
        exact absurd (Option.some.inj hlookup) hne
  | deny hidle htype hstate =>
    refine ⟨h.setEntry ?_, hkeys⟩
    rintro rfl
    exact absurd hidle h.notIdle
  | mark hf =>
    rename_i key' f
    refine ⟨h.fewer ?_, ?_⟩
    · intro b hb
      obtain ⟨a, ha, rfl⟩ := List.mem_map.1 hb
      refine ⟨a, ha, ?_⟩
      split
      · exact (hf a).2.2.1.symm
      · rfl
    · intro b hb hid
      obtain ⟨a, ha, rfl⟩ := List.mem_map.1 hb
      split at hid
      · rw [if_pos ‹_›, (hf a).1]
        exact hkeys a ha ((hf a).2.1.symm.trans hid)
      · rw [if_neg ‹_›]
        exact hkeys a ha hid
  | drop =>
    exact ⟨h.fewer fun a ha => ⟨a, (List.mem_filter.1 ha).1, rfl⟩,
      fun a ha => hkeys a (List.mem_filter.1 ha).1⟩
  | finish ha =>
    rename_i a
    have hself : Held id ref (c.setEntry a.entry { c.entries a.entry with
        state := TaskState.afterAttempt (c.entries a.entry).type }) := by
      refine h.setEntry ?_
      rintro rfl
      refine ⟨rfl, ?_⟩
      -- only a one-shot task has an attempt here
      rcases h.stays with hone | hnone
      · rw [hone]
        nofun
      · exact absurd rfl (hnone a ha)
    exact ⟨hself.fewer fun b hb => ⟨b, (List.mem_filter.1 hb).1, rfl⟩,
      fun b hb => hkeys b (List.mem_filter.1 hb).1⟩

end Invariants

/-! ## Runs -/

/-- A new scheduler. -/
def init (clock : Int) (tickIntervalMs heartbeatIntervalMs : Rat) : Scheduler where
  clock
  tasks := []
  entries := fun _ => ⟨.oneShot, 0, none, none, none, .complete, 0⟩
  registrations := 0
  attempts := []
  starts := 0
  tickIntervalMs
  heartbeatIntervalMs
  isRunning := false
  stopping := false
  draining := none
  tickTimer := none
  wakeAt := none
  tickInFlight := none

/-- The scheduler from `first` on, by steps that are allowed. -/
def system (active : Zone) (first : Scheduler) (allowed : Scheduler → Event → Prop) :
    System Scheduler where
  init := first
  step s t := ∃ e, allowed s e ∧ step active s e = some t

/-- What is called from outside sets no task's state. -/
def SetsNoState (e : Event) : Prop := ∀ id, e.stateOf id = none

/-- No id is registered anew while a handler that was started for it is unsettled. -/
def RegistersSettled (s : Scheduler) : Event → Prop
  | .register id _ _ => s.lookup id = none → ∀ a ∈ s.attempts, a.id = id → a.settled = true
  | _ => True

/-- A step that neither removes the task nor sets it to idle. -/
def Leaves (id : String) (e : Event) : Prop := e ≠ .unregister id ∧ e.stateOf id ≠ some .idle

/-- The handlers started for a task that have not settled. -/
def unsettled (s : Scheduler) (id : String) : List Attempt :=
  s.attempts.filter fun a => a.id = id && !a.settled

section Runs

variable {active : Zone} {s t : Scheduler} {e : Event}

theorem linked_next (h : Linked s.core) (hstep : step active s e = some t) : Linked t.core := by
  have hsteps := step_core hstep
  generalize t.core = c at hsteps
  induction hsteps with
  | refl => exact h
  | tail _ hcore ih => exact linked_step ih hcore

theorem linked_init (clock : Int) (tickIntervalMs heartbeatIntervalMs : Rat) :
    Linked (init clock tickIntervalMs heartbeatIntervalMs).core :=
  ⟨List.nodup_nil, List.nodup_nil, nofun, nofun, nofun⟩

theorem linked_of_reachable {clock : Int} {tickIntervalMs heartbeatIntervalMs : Rat}
    {allowed : Scheduler → Event → Prop}
    (h : (system active (init clock tickIntervalMs heartbeatIntervalMs) allowed).Reachable s) :
    Linked s.core := by
  refine System.invariant (I := fun s => Linked s.core) (linked_init _ _ _) ?_ h
  rintro s t hs ⟨e, _, hstep⟩
  exact linked_next hs hstep

theorem single_next (hlinked : Linked s.core) (h : Single s.core) (hset : SetsNoState e)
    (hregister : RegistersSettled s e) (hstep : step active s e = some t) : Single t.core := by
  by_cases he : ∃ id task opts, e = .register id task opts
  · obtain ⟨id, task, opts, rfl⟩ := he
    cases hstep
    rcases core_register active s id task opts with
      heq | hcore
    · rw [heq]
      exact h
    · refine single_step hlinked h hset ?_ hcore
      intro id' task' opts' heq
      cases heq
      exact hregister
  · have hsteps := step_core hstep
    have hboth : Linked t.core ∧ Single t.core := by
      generalize t.core = c at hsteps
      induction hsteps with
      | refl => exact ⟨hlinked, h⟩
      | tail _ hcore ih =>
        refine ⟨linked_step ih.1 hcore, single_step ih.1 ih.2 hset ?_ hcore⟩
        intro id task opts heq
        exact absurd ⟨id, task, opts, heq⟩ he
    exact hboth.2

theorem held_next (hlinked : Linked s.core) (h : Held id ref s.core) (hleaves : Leaves id e)
    (hkeys : ∀ a ∈ s.attempts, a.id = id → a.key < key) (hstep : step active s e = some t) :
    Held id ref t.core ∧ ∀ a ∈ t.attempts, a.id = id → a.key < key := by
  have hsteps := step_core hstep
  have hboth : Linked t.core ∧ Held id ref t.core ∧
      ∀ a ∈ t.core.attempts, a.id = id → a.key < key := by
    generalize t.core = c at hsteps
    induction hsteps with
    | refl => exact ⟨hlinked, h, hkeys⟩
    | tail _ hcore ih =>
      exact ⟨linked_step ih.1 hcore, held_step ih.1 ih.2.1 hleaves.1 hleaves.2 ih.2.2 hcore⟩
  exact hboth.2

/-- A task that is held is not started. -/
theorem held_run (hlinked : Linked s.core) (h : Held id ref s.core)
    (hrun : (system active s fun _ e => Leaves id e).Runs s t) :
    ∀ a ∈ t.attempts, a.id = id → a.key < s.starts := by
  have hboth : Held id ref t.core ∧ ∀ a ∈ t.attempts, a.id = id → a.key < s.starts := by
    refine System.stable (I := fun t => Linked t.core)
      (P := fun t => Held id ref t.core ∧ ∀ a ∈ t.attempts, a.id = id → a.key < s.starts)
      ?_ ?_ hlinked ⟨h, fun a ha _ => hlinked.keys a ha⟩ hrun
    · rintro s t hs ⟨e, _, hstep⟩
      exact linked_next hs hstep
    · rintro s t hs ⟨hheld, hkeys⟩ ⟨e, hleaves, hstep⟩
      exact held_next hs hheld hleaves hkeys hstep
  exact hboth.2

/-- The state after some events. -/
def steps (active : Zone) (s : Scheduler) : List Event → Option Scheduler
  | [] => some s
  | e :: es => (step active s e).bind fun s' => steps active s' es

theorem runs_of_steps {first : Scheduler} {allowed : Scheduler → Event → Prop} {es : List Event}
    (hes : ∀ e ∈ es, ∀ s, allowed s e) (h : steps active s es = some t) :
    (system active first allowed).Runs s t := by
  induction es generalizing s with
  | nil =>
    cases h
    exact .refl
  | cons e es ih =>
    obtain ⟨s', hstep, hrest⟩ := Option.bind_eq_some_iff.1 h
    obtain ⟨he, hes⟩ := List.forall_mem_cons.1 hes
    exact .head ⟨e, he s, hstep⟩ (ih hes hrest)

/-- **One handler at a time.** As long as no id is registered anew while a handler of it is
unsettled, each id has at most one unsettled handler, and the handler of a one-shot task that was
started is not started again before the task is removed. -/
theorem singleFlight_run (active : Zone) (clock : Int) (tickIntervalMs heartbeatIntervalMs : Rat)
    {s : Scheduler}
    (h : (system active (init clock tickIntervalMs heartbeatIntervalMs) fun s e =>
      SetsNoState e ∧ RegistersSettled s e).Reachable s) :
    (∀ id, (s.unsettled id).length ≤ 1) ∧
      ∀ id ref, s.lookup id = some ref → (s.entries ref).type = .oneShot →
        (s.entries ref).state = .active ∨ (s.entries ref).state = .complete →
        ∀ t, (system active s fun _ e => SetsNoState e ∧ e ≠ .unregister id).Runs s t →
          ∀ a ∈ t.attempts, a.id = id → a.key < s.starts := by
  have hlinked := linked_of_reachable h
  have hsingle : Linked s.core ∧ Single s.core := by
    refine System.invariant (I := fun s => Linked s.core ∧ Single s.core) ?_ ?_ h
    · exact ⟨linked_init _ _ _, nofun, List.Pairwise.nil, nofun, List.Pairwise.nil⟩
    · rintro s t ⟨hlinked, hs⟩ ⟨e, ⟨hset, hregister⟩, hstep⟩
      exact ⟨linked_next hlinked hstep, single_next hlinked hs hset hregister hstep⟩
  refine ⟨?_, ?_⟩
  · intro id
    have halone : (s.unsettled id).Pairwise fun _ _ => False := by
      refine List.Pairwise.imp_of_mem ?_ (hsingle.2.alone.filter _)
      intro a b ha hb hne
      obtain ⟨hida, hsa⟩ := (Bool.and_eq_true_iff).1 (List.mem_filter.1 ha).2
      obtain ⟨hidb, hsb⟩ := (Bool.and_eq_true_iff).1 (List.mem_filter.1 hb).2
      have hsettled : a.settled = false ∧ b.settled = false := by
        rw [← Bool.not_eq_true', ← Bool.not_eq_true']
        exact ⟨hsa, hsb⟩
      exact hne hsettled.1 hsettled.2 ((of_decide_eq_true hida).trans (of_decide_eq_true hidb).symm)
    match hlist : s.unsettled id, halone with
    | [], _ => exact Nat.zero_le 1
    | [_], _ => exact Nat.le_refl 1
    | _ :: _ :: _, h => exact (List.rel_of_pairwise_cons h List.mem_cons_self).elim
  · intro id ref hlookup htype hstate t hrun
    have hheld : Held id ref s.core := by
      refine ⟨hlookup, ?_, .inl htype⟩
      intro hidle
      rcases hstate with hstate | hstate
      · exact absurd (hidle.symm.trans hstate) (by decide)
      · exact absurd (hidle.symm.trans hstate) (by decide)
    have hrun' : (system active s fun _ e => Leaves id e).Runs s t := by
      refine ReflTransGen.mono ?_ _ _ hrun
      rintro s t ⟨e, ⟨hset, hstay⟩, hstep⟩
      refine ⟨e, ⟨hstay, ?_⟩, hstep⟩
      rw [hset id]
      nofun
    exact held_run hlinked hheld hrun'

/-- Once registered, `greet` runs to its end. -/
def ranOnce : List Event :=
  [.tick, .tickContinues fun _ => true, .handlerSettles 0, .attemptSettled,
    .tickContinues fun _ => true]

/-- A later tick. -/
def tickedAgain : List Event := [.advance 40000, .tick, .tickContinues fun _ => true]

theorem singleFlight_run_greet :
    ∃ s t : Scheduler, (∀ id, (s.unsettled id).length ≤ 1) ∧
      steps Zone.utc s tickedAgain = some t ∧ ∀ a ∈ t.attempts, a.id = "greet" → a.key < s.starts := by
  have hsome : ((steps Zone.utc (register Zone.utc (init 5000 30000 60000) "greet"
      ⟨.oneShot, 0, none, none, some 5000, .idle, 0⟩ ⟨none, none, none⟩) ranOnce).bind fun s =>
      (steps Zone.utc s tickedAgain).map fun _ => (s.lookup "greet", (s.entries 0).type,
        (s.entries 0).state)) = some (some 0, .oneShot, .complete) := by decide +kernel
  obtain ⟨s, hs, hrest⟩ := Option.bind_eq_some_iff.1 hsome
  obtain ⟨t, ht, heq⟩ := Option.map_eq_some_iff.1 hrest
  obtain ⟨hlookup, hrest⟩ := Prod.mk.inj heq
  obtain ⟨htype, hstate⟩ := Prod.mk.inj hrest
  have hreach : (system Zone.utc (init 5000 30000 60000) fun s e =>
      SetsNoState e ∧ RegistersSettled s e).Reachable s := by
    refine .head ⟨.register "greet" ⟨.oneShot, 0, none, none, some 5000, .idle, 0⟩
      ⟨none, none, none⟩, ⟨fun _ => rfl, fun _ => nofun⟩, rfl⟩ (runs_of_steps ?_ hs)
    intro e he s
    simp only [ranOnce, List.mem_cons, List.not_mem_nil, or_false] at he
    rcases he with rfl | rfl | rfl | rfl | rfl <;> exact ⟨fun _ => rfl, trivial⟩
  have hrun : (system Zone.utc s fun _ e => SetsNoState e ∧ e ≠ .unregister "greet").Runs s t := by
    refine runs_of_steps ?_ ht
    intro e he s
    simp only [tickedAgain, List.mem_cons, List.not_mem_nil, or_false] at he
    rcases he with rfl | rfl | rfl <;> exact ⟨fun _ => rfl, nofun⟩
  have hboth := singleFlight_run Zone.utc 5000 30000 60000 hreach
  exact ⟨s, t, hboth.1, ht,
    hboth.2 "greet" 0 hlookup htype (.inr hstate) t hrun⟩

/-- A task of every second. -/
def everySecond : ScheduledTask := ⟨.every, 1000, none, none, none, .idle, 0⟩

/-- A handler of `poll` runs out of its budget and hangs, and `poll` is replaced. -/
def replacedTask : List Event :=
  [.register "poll" everySecond ⟨none, none, none⟩, .tick, .tickContinues fun _ => true,
    .budgetExpires, .tickContinues fun _ => true, .unregister "poll",
    .register "poll" everySecond ⟨none, none, none⟩, .tick, .tickContinues fun _ => true]

theorem setsNoState_replacedTask : ∀ e ∈ replacedTask, SetsNoState e := by
  intro e he id
  simp only [replacedTask, List.mem_cons, List.not_mem_nil, or_false] at he
  rcases he with rfl | rfl | rfl | rfl | rfl | rfl | rfl | rfl | rfl <;> rfl

theorem singleFlight_reregistered :
    ∃ s, (system Zone.utc (init 5000 30000 60000) fun _ e => SetsNoState e).Reachable s ∧
      (s.unsettled "poll").length = 2 := by
  have hsome : ((steps Zone.utc (init 5000 30000 60000) replacedTask).map fun s =>
      (s.unsettled "poll").length) = some 2 := by decide +kernel
  obtain ⟨s, hs, hlength⟩ := Option.map_eq_some_iff.1 hsome
  exact ⟨s, runs_of_steps (fun e he _ => setsNoState_replacedTask e he) hs, hlength⟩

/-- The task of a pause that stops it is a one-shot, or no attempt of its entry is pending. -/
def AtRest (s : Scheduler) (id : String) : Prop :=
  ∀ ref, s.lookup id = some ref → (s.entries ref).type = .every →
    ∀ a ∈ s.attempts, a.entry ≠ ref

/-- **A pause is kept.** After a pause that returned `true`, issued while no attempt of the task
was pending, no handler of it is started before an update sets it to idle or it is removed. -/
theorem pause_kept (active : Zone) (clock : Int) (tickIntervalMs heartbeatIntervalMs : Rat)
    {s t : Scheduler} {id : String} {updates : TaskUpdates}
    (h : (system active (init clock tickIntervalMs heartbeatIntervalMs) fun _ _ => True).Reachable s)
    (hpause : updates.state = some .paused)
    (hreturned : (updateTask active s id updates).2.1 = true) (hrest : AtRest s id)
    (hrun : (system active (updateTask active s id updates).1 fun _ e => Leaves id e).Runs
      (updateTask active s id updates).1 t) :
    ∀ a ∈ t.attempts, a.id = id → a.key < (updateTask active s id updates).1.starts := by
  have hlinked := linked_of_reachable h
  have hlinked' : Linked (updateTask active s id updates).1.core :=
    linked_next (e := .updateTask id updates) hlinked rfl
  rcases core_updateTask_cases active s id updates with
    ⟨_, hfalse⟩ | ⟨ref, entry, hlookup, hcore, htype, hstate⟩
  · rw [hreturned] at hfalse
    cases hfalse
  · have hpaused : entry.state = .paused := by
      rcases hstate with hstate | ⟨_, hfalse⟩
      · rw [hstate, hpause]
        rfl
      · rw [hreturned] at hfalse
        cases hfalse
    refine held_run hlinked' (?_ : Held id ref _) hrun
    rw [hcore]
    refine ⟨hlookup, ?_, ?_⟩
    · show (if ref = ref then entry else _).state ≠ .idle
      rw [if_pos rfl, hpaused]
      decide
    · show (if ref = ref then entry else _).type = .oneShot ∨ _
      rw [if_pos rfl, htype]
      cases hkind : (s.entries ref).type with
      | oneShot => exact .inl rfl
      | every => exact .inr (hrest ref hlookup hkind)

def pauseUpdate : TaskUpdates := ⟨none, some .paused, none, none, false⟩

theorem pause_kept_idle :
    ∃ s t : Scheduler,
      steps Zone.utc (updateTask Zone.utc s "poll" pauseUpdate).1 tickedAgain = some t ∧
      ∀ a ∈ t.attempts, a.id = "poll" →
        a.key < (updateTask Zone.utc s "poll" pauseUpdate).1.starts := by
  have hsome : ((steps Zone.utc (init 5000 30000 60000)
      [.register "poll" everySecond ⟨none, none, none⟩]).bind fun s =>
      (steps Zone.utc (updateTask Zone.utc s "poll" pauseUpdate).1 tickedAgain).map fun _ =>
        (s.attempts.isEmpty && (updateTask Zone.utc s "poll" pauseUpdate).2.1)) = some true := by
    decide +kernel
  obtain ⟨s, hs, hrest⟩ := Option.bind_eq_some_iff.1 hsome
  obtain ⟨t, ht, hboth⟩ := Option.map_eq_some_iff.1 hrest
  obtain ⟨hempty, hreturned⟩ := Bool.and_eq_true_iff.1 hboth
  have hrest : AtRest s "poll" := by
    intro ref _ _ a ha
    rw [List.isEmpty_iff.1 hempty] at ha
    cases ha
  have hrun : (system Zone.utc (updateTask Zone.utc s "poll" pauseUpdate).1
      fun _ e => Leaves "poll" e).Runs (updateTask Zone.utc s "poll" pauseUpdate).1 t := by
    refine runs_of_steps ?_ ht
    intro e he s
    simp only [tickedAgain, List.mem_cons, List.not_mem_nil, or_false] at he
    rcases he with rfl | rfl | rfl <;> exact ⟨nofun, nofun⟩
  exact ⟨s, t, ht, pause_kept Zone.utc 5000 30000 60000
    (runs_of_steps (fun _ _ _ => trivial) hs) rfl hreturned hrest hrun⟩

/-- `poll` is paused while its handler runs, and started again. -/
def pausedMidway : List Event :=
  [.handlerSettles 0, .attemptSettled, .tickContinues fun _ => true, .advance 7000, .tick,
    .tickContinues fun _ => true]

/-- `poll` runs. -/
def startedTask : List Event :=
  [.register "poll" everySecond ⟨none, none, none⟩, .tick, .tickContinues fun _ => true]

theorem leaves_pausedMidway : ∀ e ∈ pausedMidway, Leaves "poll" e := by
  intro e he
  simp only [pausedMidway, List.mem_cons, List.not_mem_nil, or_false] at he
  rcases he with rfl | rfl | rfl | rfl | rfl | rfl <;> exact ⟨nofun, nofun⟩

theorem pause_lost :
    ∃ s t, (system Zone.utc (init 5000 30000 60000) fun _ _ => True).Reachable s ∧
      (updateTask Zone.utc s "poll" pauseUpdate).2.1 = true ∧
      (system Zone.utc (updateTask Zone.utc s "poll" pauseUpdate).1 fun _ e => Leaves "poll" e).Runs
        (updateTask Zone.utc s "poll" pauseUpdate).1 t ∧
      ∃ a ∈ t.attempts, a.id = "poll" ∧
        (updateTask Zone.utc s "poll" pauseUpdate).1.starts ≤ a.key := by
  have hsome : ((steps Zone.utc (init 5000 30000 60000) startedTask).bind fun s =>
      (steps Zone.utc (updateTask Zone.utc s "poll" pauseUpdate).1 pausedMidway).map fun t =>
        ((updateTask Zone.utc s "poll" pauseUpdate).2.1 &&
          t.attempts.any fun a => a.id = "poll" &&
            (updateTask Zone.utc s "poll" pauseUpdate).1.starts ≤ a.key)) = some true := by
    decide +kernel
  obtain ⟨s, hs, hrest⟩ := Option.bind_eq_some_iff.1 hsome
  obtain ⟨t, ht, hboth⟩ := Option.map_eq_some_iff.1 hrest
  obtain ⟨hreturned, hany⟩ := Bool.and_eq_true_iff.1 hboth
  obtain ⟨a, ha, hkey⟩ := List.any_eq_true.1 hany
  obtain ⟨hid, hkey⟩ := Bool.and_eq_true_iff.1 hkey
  exact ⟨s, t, runs_of_steps (fun _ _ _ => trivial) hs, hreturned,
    runs_of_steps (fun e he _ => leaves_pausedMidway e he) ht, a, ha, of_decide_eq_true hid, of_decide_eq_true hkey⟩

end Runs

end Scheduler

end Psfn.TaskScheduler
