import Psfn.Lib.Transition

/-!
# Claim passes

`tick` of `core/agent/background-work/supervisor.ts`: a request runs a claim pass, or is attached to
the one follow-up that is chained after the pass in flight. What a pass does is left out; it ends in
any way. The event loop may run the callbacks that are due, and settle the promises that follow
settled ones, in any order.

* `tick_sound`, `answer_sound` — a request is attached to a pass or a follow-up that is not older;
* `claimPasses_run` — passes never overlap, and a request that is settled was served.
-/

namespace Psfn.Background.ClaimPasses

open Lib (System)

/-! ## Promises -/

inductive PassPhase where
  /-- `runTick` is running. -/
  | running
  /-- It returned or threw, and its `finally` callback is due. -/
  | ended
  /-- The callback has run. -/
  | cleared
  /-- The promise that `finally` returned is settled. -/
  | settled
deriving DecidableEq

def PassPhase.completed (phase : PassPhase) : Bool := phase ≠ .running

/-- The field still holds the pass. -/
def PassPhase.open (phase : PassPhase) : Bool := phase = .running || phase = .ended

structure Pass where
  beganAt : Nat
  phase   : PassPhase

/-- What an `async` function returned: nothing more to wait for, or another promise. -/
inductive Awaited where
  | nothing
  | pass (i : Nat)
  | chained (i : Nat)

/-- A follow-up: the pass it is chained after, when its callback ran and what it follows since. -/
structure FollowUp where
  after   : Nat
  answer  : Option (Nat × Awaited)
  settled : Bool

structure Request where
  calledAt : Nat
  awaits   : Awaited
  settled  : Bool

structure Supervisor where
  stopping           : Bool
  tickPromise        : Option Nat
  chainedTickPromise : Option Nat
  passes             : List Pass
  followUps          : List FollowUp
  requests           : List Request
  clock              : Nat

def Supervisor.initial : Supervisor := ⟨false, none, none, [], [], [], 0⟩

/-! ## Steps -/

def Supervisor.tick (s : Supervisor) : Awaited × Supervisor :=
  if s.stopping then (.nothing, s)
  else
    match s.tickPromise with
    | none =>
      (.pass s.passes.length, { s with
        tickPromise := some s.passes.length
        passes := s.passes ++ [⟨s.clock, .running⟩] })
    | some inFlight =>
      match s.chainedTickPromise with
      | some followUp => (.chained followUp, s)
      | none =>
        (.chained s.followUps.length, { s with
          chainedTickPromise := some s.followUps.length
          followUps := s.followUps ++ [⟨inFlight, none, false⟩] })

/-- The promise of an awaited result is settled. -/
def Supervisor.isSettled (s : Supervisor) : Awaited → Bool
  | .nothing => true
  | .pass i => (s.passes[i]?).any fun p => p.phase = .settled
  | .chained i => (s.followUps[i]?).any (·.settled)

def Supervisor.setPhase (s : Supervisor) (i : Nat) (phase : PassPhase) : Supervisor :=
  { s with passes := s.passes.modify i fun p => { p with phase } }

/-- A call from outside. -/
def Supervisor.request (s : Supervisor) : Supervisor :=
  { s.tick.2 with requests := s.tick.2.requests ++ [⟨s.clock, s.tick.1, false⟩] }

/-- The callback of a follow-up, which calls `tick`. -/
def Supervisor.answer (s : Supervisor) (i : Nat) : Supervisor :=
  let cleared := { s with chainedTickPromise := none }
  { cleared.tick.2 with
    followUps := cleared.tick.2.followUps.modify i fun f =>
      { f with answer := some (s.clock, cleared.tick.1) } }

def Supervisor.elapse (s : Supervisor) : Supervisor := { s with clock := s.clock + 1 }

inductive Step (s : Supervisor) : Supervisor → Prop
  | request : Step s s.request.elapse
  | stop : Step s { s with stopping := true }.elapse
  | endPass {i : Nat} {p : Pass} (hp : s.passes[i]? = some p) (hphase : p.phase = .running) :
    Step s (s.setPhase i .ended).elapse
  | clearPass {i : Nat} {p : Pass} (hp : s.passes[i]? = some p) (hphase : p.phase = .ended) :
    Step s { s.setPhase i .cleared with tickPromise := none }.elapse
  | settlePass {i : Nat} {p : Pass} (hp : s.passes[i]? = some p) (hphase : p.phase = .cleared) :
    Step s (s.setPhase i .settled).elapse
  | answer {i : Nat} {f : FollowUp} (hf : s.followUps[i]? = some f) (hdue : f.answer = none)
      (hafter : s.isSettled (.pass f.after) = true) :
    Step s (s.answer i).elapse
  | settleFollowUp {i : Nat} {f : FollowUp} {answer : Nat × Awaited}
      (hf : s.followUps[i]? = some f) (hanswer : f.answer = some answer)
      (hsettled : s.isSettled answer.2 = true) :
    Step s { s with followUps := s.followUps.modify i fun f => { f with settled := true } }.elapse
  | settleRequest {i : Nat} {r : Request} (hr : s.requests[i]? = some r)
      (hsettled : s.isSettled r.awaits = true) :
    Step s { s with requests := s.requests.modify i fun r => { r with settled := true } }.elapse

def claimSystem : System Supervisor where
  init := Supervisor.initial
  step := Step

/-! ## Served requests -/

/-- The supervisor is stopping, or a pass that began since then has completed. -/
def Supervisor.served (s : Supervisor) (since : Nat) : Prop :=
  s.stopping = true ∨ ∃ p ∈ s.passes, since ≤ p.beganAt ∧ p.phase.completed = true

/-- What is awaited since then is not older. -/
def Supervisor.awaitsSince (s : Supervisor) (since : Nat) : Awaited → Prop
  | .nothing => s.stopping = true
  | .pass i => ∃ p, s.passes[i]? = some p ∧ since ≤ p.beganAt
  | .chained i => ∃ f, s.followUps[i]? = some f ∧ ∀ answer, f.answer = some answer →
    since ≤ answer.1

structure Sound (s : Supervisor) : Prop where
  current   : ∀ (i : Nat) (p : Pass), s.passes[i]? = some p → p.phase.open = true →
    s.tickPromise = some i
  waiting   : ∀ i, s.chainedTickPromise = some i → ∃ f, s.followUps[i]? = some f ∧ f.answer = none
  answers   : ∀ f ∈ s.followUps, ∀ answer, f.answer = some answer →
    answer.1 ≤ s.clock ∧ s.awaitsSince answer.1 answer.2
  followUps : ∀ f ∈ s.followUps, f.settled = true → ∃ answer, f.answer = some answer ∧
    s.served answer.1
  requests  : ∀ r ∈ s.requests, r.calledAt ≤ s.clock ∧ s.awaitsSince r.calledAt r.awaits ∧
    (r.settled = true → s.served r.calledAt)

/-- Passes and follow-ups go on from where they are. -/
structure Grows (s s' : Supervisor) : Prop where
  clock     : s.clock ≤ s'.clock
  stopping  : s.stopping = true → s'.stopping = true
  passes    : ∀ (i : Nat) (p : Pass), s.passes[i]? = some p → ∃ p', s'.passes[i]? = some p' ∧
    p'.beganAt = p.beganAt ∧ (p.phase.completed = true → p'.phase.completed = true)
  followUps : ∀ (i : Nat) (f : FollowUp), s.followUps[i]? = some f →
    ∃ f', s'.followUps[i]? = some f' ∧ ∀ answer, f'.answer = some answer →
      f.answer = some answer ∨ s.clock ≤ answer.1

section Runs

variable {s s' : Supervisor} {since : Nat} {awaited : Awaited}

theorem Grows.served (h : Grows s s') (hserved : s.served since) : s'.served since := by
  rcases hserved with hstopping | ⟨p, hmem, hsince, hcompleted⟩
  · exact .inl (h.stopping hstopping)
  · obtain ⟨i, hi⟩ := List.mem_iff_getElem?.1 hmem
    obtain ⟨p', hp', hbegan, hphase⟩ := h.passes i p hi
    exact .inr ⟨p', List.mem_of_getElem? hp', hbegan ▸ hsince, hphase hcompleted⟩

theorem Grows.awaitsSince (h : Grows s s') (hsince : since ≤ s.clock)
    (hawaits : s.awaitsSince since awaited) : s'.awaitsSince since awaited := by
  cases awaited with
  | nothing => exact h.stopping hawaits
  | pass i =>
    obtain ⟨p, hp, hbegan⟩ := hawaits
    obtain ⟨p', hp', hsame, -⟩ := h.passes i p hp
    exact ⟨p', hp', hsame ▸ hbegan⟩
  | chained i =>
    obtain ⟨f, hf, hanswer⟩ := hawaits
    obtain ⟨f', hf', hgrown⟩ := h.followUps i f hf
    refine ⟨f', hf', fun answer heq => ?_⟩
    rcases hgrown answer heq with hold | hlate
    · exact hanswer answer hold
    · exact Nat.le_trans hsince hlate

/-- **What is awaited since then is settled only when it is served.** -/
theorem Sound.served (h : Sound s) (hawaits : s.awaitsSince since awaited)
    (hsettled : s.isSettled awaited = true) : s.served since := by
  cases awaited with
  | nothing => exact .inl hawaits
  | pass i =>
    obtain ⟨p, hp, hbegan⟩ := hawaits
    rw [Supervisor.isSettled, hp, Option.any_some, decide_eq_true_eq] at hsettled
    refine .inr ⟨p, List.mem_of_getElem? hp, hbegan, ?_⟩
    rw [hsettled]
    rfl
  | chained i =>
    obtain ⟨f, hf, hanswer⟩ := hawaits
    rw [Supervisor.isSettled, hf, Option.any_some] at hsettled
    obtain ⟨answer, heq, hserved⟩ := h.followUps f (List.mem_of_getElem? hf) hsettled
    exact hserved.imp_right fun ⟨p, hp, hbegan, hcompleted⟩ =>
      ⟨p, hp, Nat.le_trans (hanswer answer heq) hbegan, hcompleted⟩

/-- What is new in a grown state is sound when what is old was. -/
theorem Sound.grow (h : Sound s) (hgrows : Grows s s')
    (hcurrent : ∀ (i : Nat) (p : Pass), s'.passes[i]? = some p → p.phase.open = true →
      s'.tickPromise = some i)
    (hwaiting : ∀ i, s'.chainedTickPromise = some i → ∃ f, s'.followUps[i]? = some f ∧
      f.answer = none)
    (hanswers : ∀ f ∈ s'.followUps, ∀ answer, f.answer = some answer →
      (∃ f₀ ∈ s.followUps, f₀.answer = some answer) ∨
        (answer.1 ≤ s'.clock ∧ s'.awaitsSince answer.1 answer.2))
    (hfollowUps : ∀ f ∈ s'.followUps, f.settled = true →
      (∃ f₀ ∈ s.followUps, f₀.settled = true ∧
        ∀ answer, f₀.answer = some answer → f.answer = some answer) ∨
        ∃ answer, f.answer = some answer ∧ s'.served answer.1)
    (hrequests : ∀ r ∈ s'.requests,
      (∃ r₀ ∈ s.requests, r₀.calledAt = r.calledAt ∧ r₀.awaits = r.awaits ∧
        (r.settled = true → r₀.settled = true ∨ s'.served r.calledAt)) ∨
        (r.calledAt ≤ s'.clock ∧ s'.awaitsSince r.calledAt r.awaits ∧ r.settled = false)) :
    Sound s' where
  current := hcurrent
  waiting := hwaiting
  answers := by
    intro f hf answer heq
    rcases hanswers f hf answer heq with ⟨f₀, hf₀, heq₀⟩ | hnew
    · obtain ⟨hsince, hawaits⟩ := h.answers f₀ hf₀ answer heq₀
      exact ⟨Nat.le_trans hsince hgrows.clock, hgrows.awaitsSince hsince hawaits⟩
    · exact hnew
  followUps := by
    intro f hf hsettled
    rcases hfollowUps f hf hsettled with ⟨f₀, hf₀, hsettled₀, hsame⟩ | hnew
    · obtain ⟨answer, heq, hserved⟩ := h.followUps f₀ hf₀ hsettled₀
      exact ⟨answer, hsame answer heq, hgrows.served hserved⟩
    · exact hnew
  requests := by
    intro r hr
    rcases hrequests r hr with ⟨r₀, hr₀, hcalled, hawaited, hsettled⟩ | ⟨hsince, hawaits, hopen⟩
    · obtain ⟨hsince, hawaits, hserved⟩ := h.requests r₀ hr₀
      rw [hcalled] at hsince hawaits hserved
      rw [hawaited] at hawaits
      refine ⟨Nat.le_trans hsince hgrows.clock, hgrows.awaitsSince hsince hawaits, fun hr => ?_⟩
      rcases hsettled hr with hold | hnow
      · exact hgrows.served (hserved hold)
      · exact hnow
    · refine ⟨hsince, hawaits, fun hr => ?_⟩
      rw [hopen] at hr
      cases hr

theorem Grows.elapse (h : Grows s s') : Grows s s'.elapse :=
  ⟨Nat.le_trans h.clock (Nat.le_succ _), h.stopping, h.passes, h.followUps⟩

theorem grows_refl (s : Supervisor) : Grows s s :=
  ⟨Nat.le_refl _, id, fun _ p hp => ⟨p, hp, rfl, id⟩, fun _ f hf => ⟨f, hf, fun _ => .inl⟩⟩

theorem Sound.elapse (h : Sound s) : Sound s.elapse :=
  h.grow (grows_refl s).elapse h.current h.waiting (fun f hf _ heq => .inl ⟨f, hf, heq⟩)
    (fun f hf hsettled => .inl ⟨f, hf, hsettled, fun _ => id⟩)
    fun r hr => .inl ⟨r, hr, rfl, rfl, .inl⟩

theorem getElem?_append_new {α : Type} {xs : List α} {x y : α} {i : Nat}
    (h : (xs ++ [x])[i]? = some y) : xs[i]? = some y ∨ (i = xs.length ∧ y = x) := by
  rw [List.getElem?_append] at h
  split at h
  · exact .inl h
  · rename_i hlong
    rw [List.getElem?_singleton] at h
    split at h
    · cases h
      exact .inr ⟨by omega, rfl⟩
    · cases h

/-- **A request is attached to a pass that begins, or to a follow-up that is still to come.** -/
theorem tick_sound (h : Sound s) :
    Sound s.tick.2 ∧ Grows s s.tick.2 ∧ s.tick.2.awaitsSince s.clock s.tick.1 ∧
      s.tick.2.clock = s.clock ∧ s.tick.2.requests = s.requests := by
  unfold Supervisor.tick
  split
  · rename_i hstopping
    exact ⟨h, grows_refl s, hstopping, rfl, rfl⟩
  · split
    · -- no pass is in flight, and one begins
      rename_i hfree
      have hgrows : Grows s { s with
          tickPromise := some s.passes.length, passes := s.passes ++ [⟨s.clock, .running⟩] } :=
        { clock := Nat.le_refl _
          stopping := id
          passes := fun i p hp => ⟨p, List.getElem?_append_left
            (List.getElem?_eq_some_iff.1 hp).1 ▸ hp, rfl, id⟩
          followUps := fun _ f hf => ⟨f, hf, fun _ => .inl⟩ }
      refine ⟨h.grow hgrows ?_ h.waiting (fun f hf _ heq => .inl ⟨f, hf, heq⟩)
        (fun f hf hsettled => .inl ⟨f, hf, hsettled, fun _ => id⟩)
        (fun r hr => .inl ⟨r, hr, rfl, rfl, .inl⟩), hgrows, ?_, rfl, rfl⟩
      · intro i p hp hopen
        rcases getElem?_append_new hp with hold | ⟨rfl, -⟩
        · have hcurrent := h.current i p hold hopen
          rw [hfree] at hcurrent
          cases hcurrent
        · rfl
      · exact ⟨⟨s.clock, .running⟩, List.getElem?_concat_length, Nat.le_refl _⟩
    · rename_i inFlight _
      split
      · -- the follow-up has not been answered yet
        rename_i followUp hchained
        obtain ⟨f, hf, hdue⟩ := h.waiting followUp hchained
        refine ⟨h, grows_refl s, ⟨f, hf, fun answer heq => ?_⟩, rfl, rfl⟩
        rw [hdue] at heq
        cases heq
      · have hgrows : Grows s { s with
            chainedTickPromise := some s.followUps.length
            followUps := s.followUps ++ [⟨inFlight, none, false⟩] } :=
          { clock := Nat.le_refl _
            stopping := id
            passes := fun _ p hp => ⟨p, hp, rfl, id⟩
            followUps := fun i f hf => ⟨f, List.getElem?_append_left
              (List.getElem?_eq_some_iff.1 hf).1 ▸ hf, fun _ => .inl⟩ }
        have hnew : (s.followUps ++ [⟨inFlight, none, false⟩])[s.followUps.length]? =
            some ⟨inFlight, none, false⟩ := List.getElem?_concat_length
        refine ⟨h.grow hgrows h.current ?_ ?_ ?_ (fun r hr => .inl ⟨r, hr, rfl, rfl, .inl⟩),
          hgrows, ⟨_, hnew, nofun⟩, rfl, rfl⟩
        · intro i hi
          cases hi
          exact ⟨_, hnew, rfl⟩
        · intro f hf answer heq
          rcases List.mem_append.1 hf with hold | hlast
          · exact .inl ⟨f, hold, heq⟩
          · rw [List.mem_singleton.1 hlast] at heq
            cases heq
        · intro f hf hsettled
          rcases List.mem_append.1 hf with hold | hlast
          · exact .inl ⟨f, hold, hsettled, fun _ => id⟩
          · rw [List.mem_singleton.1 hlast] at hsettled
            cases hsettled

theorem request_sound (h : Sound s) : Sound s.request := by
  obtain ⟨htick, hgrows, hawaits, hclock, hrequests⟩ := tick_sound h
  have hlater : Grows s.tick.2 s.request :=
    ⟨Nat.le_refl _, id, fun _ p hp => ⟨p, hp, rfl, id⟩, fun _ f hf => ⟨f, hf, fun _ => .inl⟩⟩
  refine htick.grow hlater htick.current htick.waiting
    (fun f hf _ heq => .inl ⟨f, hf, heq⟩) (fun f hf hsettled => .inl ⟨f, hf, hsettled, fun _ => id⟩)
    fun r hr => ?_
  rcases List.mem_append.1 hr with hold | hlast
  · exact .inl ⟨r, hold, rfl, rfl, .inl⟩
  · rw [List.mem_singleton.1 hlast]
    exact .inr ⟨Nat.le_of_eq hclock.symm, hawaits, rfl⟩

theorem of_getElem?_modify {α : Type} {xs : List α} {g : α → α} {i j : Nat} {y : α}
    (h : (xs.modify i g)[j]? = some y) :
    ∃ x, xs[j]? = some x ∧ ((i = j ∧ y = g x) ∨ (i ≠ j ∧ y = x)) := by
  rw [List.getElem?_modify] at h
  obtain ⟨x, hx, rfl⟩ := Option.map_eq_some_iff.1 h
  refine ⟨x, hx, ?_⟩
  by_cases hij : i = j
  · exact .inl ⟨hij, if_pos hij⟩
  · exact .inr ⟨hij, if_neg hij⟩

theorem of_mem_modify {α : Type} {xs : List α} {g : α → α} {i : Nat} {x y : α}
    (hx : xs[i]? = some x) (h : y ∈ xs.modify i g) : y ∈ xs ∨ y = g x := by
  obtain ⟨j, hj⟩ := List.mem_iff_getElem?.1 h
  obtain ⟨z, hz, ⟨rfl, rfl⟩ | ⟨-, rfl⟩⟩ := of_getElem?_modify hj
  · rw [hx] at hz
    cases hz
    exact .inr rfl
  · exact .inl (List.mem_of_getElem? hz)

/-- A request leaves the follow-ups as they are, and may chain a new one. -/
theorem tick_followUps (s : Supervisor) :
    (∀ (i : Nat) (f : FollowUp), s.followUps[i]? = some f → s.tick.2.followUps[i]? = some f) ∧
      (s.chainedTickPromise = none → ∀ j, s.tick.2.chainedTickPromise = some j →
        s.followUps[j]? = none) := by
  have hunchained : s.chainedTickPromise = none → ∀ j, s.chainedTickPromise = some j →
      s.followUps[j]? = none := by
    intro hnone j hj
    rw [hnone] at hj
    cases hj
  unfold Supervisor.tick
  split
  · exact ⟨fun _ _ => id, hunchained⟩
  · split
    · exact ⟨fun _ _ => id, hunchained⟩
    · split
      · exact ⟨fun _ _ => id, hunchained⟩
      · refine ⟨fun i f hf => ?_, fun _ j hj => ?_⟩
        · rw [List.getElem?_append_left (List.getElem?_eq_some_iff.1 hf).1]
          exact hf
        · cases hj
          exact List.getElem?_eq_none (Nat.le_refl _)

/-- **A follow-up is attached, when its callback runs, like a request that is made then.** -/
theorem answer_sound (h : Sound s) {i : Nat} {f : FollowUp} (hf : s.followUps[i]? = some f)
    (hdue : f.answer = none) : Sound (s.answer i) := by
  have hcleared : Sound { s with chainedTickPromise := none } :=
    ⟨h.current, nofun, h.answers, h.followUps, h.requests⟩
  obtain ⟨htick, hgrows, hawaits, hclock, -⟩ := tick_sound hcleared
  obtain ⟨hkept, hfresh⟩ := tick_followUps { s with chainedTickPromise := none }
  have hf' := hkept i f hf
  have hlater : Grows (Supervisor.tick { s with chainedTickPromise := none }).2 (s.answer i) :=
    { clock := Nat.le_refl _
      stopping := id
      passes := fun _ p hp => ⟨p, hp, rfl, id⟩
      followUps := by
        intro j g hg
        by_cases hij : i = j
        · subst hij
          refine ⟨_, (List.getElem?_modify_eq _ _ _).trans (congrArg _ hg), fun answer heq => ?_⟩
          cases heq
          exact .inr (Nat.le_of_eq hclock)
        · exact ⟨g, (List.getElem?_modify_ne _ _ hij).trans hg, fun _ => .inl⟩ }
  refine htick.grow hlater htick.current ?_ ?_ ?_ fun r hr => .inl ⟨r, hr, rfl, rfl, .inl⟩
  · intro j hj
    obtain ⟨g, hg, hopen⟩ := htick.waiting j hj
    have hij : i ≠ j := by
      rintro rfl
      rw [hfresh rfl i hj] at hf
      cases hf
    exact ⟨g, (List.getElem?_modify_ne _ _ hij).trans hg, hopen⟩
  · intro g hg answer heq
    rcases of_mem_modify hf' hg with hold | hnew
    · exact .inl ⟨g, hold, heq⟩
    · rw [hnew] at heq
      cases heq
      exact .inr ⟨Nat.le_of_eq hclock.symm, hlater.awaitsSince (Nat.le_of_eq hclock.symm) hawaits⟩
  · intro g hg hsettled
    rcases of_mem_modify hf' hg with hold | hnew
    · exact .inl ⟨g, hold, hsettled, fun _ => id⟩
    · -- a follow-up that is due is not settled
      rw [hnew] at hsettled
      obtain ⟨answer, heq, -⟩ := htick.followUps f (List.mem_of_getElem? hf') hsettled
      rw [hdue] at heq
      cases heq

/-- A pass that goes on from phase to phase. -/
theorem setPhase_sound (h : Sound s) {i : Nat} {p : Pass} (hp : s.passes[i]? = some p)
    {phase : PassPhase} {tickPromise : Option Nat}
    (hcompleted : p.phase.completed = true → phase.completed = true)
    (hkept : p.phase.open = false → tickPromise = s.tickPromise)
    (hopen : p.phase.open = true → tickPromise = if phase.open then s.tickPromise else none)
    (hclosed : p.phase.open = false → phase.open = false) :
    Sound { s.setPhase i phase with tickPromise } := by
  have hgrows : Grows s { s.setPhase i phase with tickPromise } :=
    { clock := Nat.le_refl _
      stopping := id
      followUps := fun _ f hf => ⟨f, hf, fun _ => .inl⟩
      passes := by
        intro j q hq
        by_cases hij : i = j
        · subst hij
          rw [hp] at hq
          cases hq
          exact ⟨_, (List.getElem?_modify_eq _ _ _).trans (congrArg _ hp), rfl, hcompleted⟩
        · exact ⟨q, (List.getElem?_modify_ne _ _ hij).trans hq, rfl, id⟩ }
  refine h.grow hgrows ?_ h.waiting (fun f hf _ heq => .inl ⟨f, hf, heq⟩)
    (fun f hf hsettled => .inl ⟨f, hf, hsettled, fun _ => id⟩)
    fun r hr => .inl ⟨r, hr, rfl, rfl, .inl⟩
  intro j q hq hqopen
  obtain ⟨q₀, hq₀, ⟨rfl, rfl⟩ | ⟨hij, rfl⟩⟩ := of_getElem?_modify hq
  · rw [hp] at hq₀
    cases hq₀
    cases hphase : p.phase.open with
    | true =>
      rw [hopen hphase, if_pos hqopen]
      exact h.current i p hp hphase
    | false =>
      rw [show phase.open = true from hqopen] at hclosed
      cases hclosed hphase
  · have hcurrent := h.current j q hq₀ hqopen
    cases hphase : p.phase.open with
    | true =>
      -- two open passes are one
      rw [h.current i p hp hphase] at hcurrent
      exact absurd (Option.some.inj hcurrent) hij
    | false => exact (hkept hphase).trans hcurrent

theorem step_sound (h : Sound s) (hstep : Step s s') : Sound s' := by
  cases hstep with
  | request => exact (request_sound h).elapse
  | stop =>
    have hgrows : Grows s { s with stopping := true } :=
      ⟨Nat.le_refl _, fun _ => rfl, fun _ p hp => ⟨p, hp, rfl, id⟩,
        fun _ f hf => ⟨f, hf, fun _ => .inl⟩⟩
    exact (h.grow hgrows h.current h.waiting (fun f hf _ heq => .inl ⟨f, hf, heq⟩)
      (fun f hf hsettled => .inl ⟨f, hf, hsettled, fun _ => id⟩)
      fun r hr => .inl ⟨r, hr, rfl, rfl, .inl⟩).elapse
  | endPass hp hphase =>
    refine Sound.elapse (setPhase_sound h hp ?_ ?_ ?_ ?_) <;>
      rw [hphase] <;> first | exact fun _ => rfl | nofun
  | clearPass hp hphase =>
    refine Sound.elapse (setPhase_sound h hp ?_ ?_ ?_ ?_) <;>
      rw [hphase] <;> first | exact fun _ => rfl | nofun
  | settlePass hp hphase =>
    refine Sound.elapse (setPhase_sound h hp ?_ ?_ ?_ ?_) <;>
      rw [hphase] <;> first | exact fun _ => rfl | nofun
  | answer hf hdue hafter => exact (answer_sound h hf hdue).elapse
  | @settleFollowUp i f answer hf hanswer hsettled =>
    have hgrows : Grows s { s with
        followUps := s.followUps.modify i fun f => { f with settled := true } } :=
      { clock := Nat.le_refl _
        stopping := id
        passes := fun _ p hp => ⟨p, hp, rfl, id⟩
        followUps := by
          intro j g hg
          by_cases hij : i = j
          · subst hij
            exact ⟨_, (List.getElem?_modify_eq _ _ _).trans (congrArg _ hg), fun _ => .inl⟩
          · exact ⟨g, (List.getElem?_modify_ne _ _ hij).trans hg, fun _ => .inl⟩ }
    have hserved := h.served (h.answers f (List.mem_of_getElem? hf) answer hanswer).2 hsettled
    refine (h.grow hgrows h.current ?_ ?_ ?_ fun r hr => .inl ⟨r, hr, rfl, rfl, .inl⟩).elapse
    · intro j hj
      obtain ⟨g, hg, hopen⟩ := h.waiting j hj
      by_cases hij : i = j
      · subst hij
        exact ⟨_, (List.getElem?_modify_eq _ _ _).trans (congrArg _ hg), hopen⟩
      · exact ⟨g, (List.getElem?_modify_ne _ _ hij).trans hg, hopen⟩
    · intro g hg answer' heq
      rcases of_mem_modify hf hg with hold | rfl
      · exact .inl ⟨g, hold, heq⟩
      · exact .inl ⟨f, List.mem_of_getElem? hf, heq⟩
    · intro g hg hsettled'
      rcases of_mem_modify hf hg with hold | rfl
      · exact .inl ⟨g, hold, hsettled', fun _ => id⟩
      · exact .inr ⟨answer, hanswer, hgrows.served hserved⟩
  | @settleRequest i r hr hsettled =>
    have hgrows : Grows s { s with
        requests := s.requests.modify i fun r => { r with settled := true } } :=
      ⟨Nat.le_refl _, id, fun _ p hp => ⟨p, hp, rfl, id⟩, fun _ f hf => ⟨f, hf, fun _ => .inl⟩⟩
    obtain ⟨-, hawaits, -⟩ := h.requests r (List.mem_of_getElem? hr)
    have hserved := h.served hawaits hsettled
    refine (h.grow hgrows h.current h.waiting (fun f hf _ heq => .inl ⟨f, hf, heq⟩)
      (fun f hf hsettled => .inl ⟨f, hf, hsettled, fun _ => id⟩) fun r' hr' => ?_).elapse
    rcases of_mem_modify hr hr' with hold | rfl
    · exact .inl ⟨r', hold, rfl, rfl, .inl⟩
    · exact .inl ⟨r, List.mem_of_getElem? hr, rfl, rfl, fun _ => .inr (hgrows.served hserved)⟩

theorem sound_initial : Sound Supervisor.initial where
  current := fun _ _ hp => nomatch hp
  waiting := fun _ hi => nomatch hi
  answers := fun _ hf => absurd hf List.not_mem_nil
  followUps := fun _ hf => absurd hf List.not_mem_nil
  requests := fun _ hr => absurd hr List.not_mem_nil

theorem sound_of_reachable (h : claimSystem.Reachable s) : Sound s :=
  System.invariant (I := Sound) sound_initial (fun _ _ hs hstep => step_sound hs hstep) h

end Runs

/-- **No wake-up is lost**: no two passes run at the same time, and a request that is settled was
served by a pass that began no earlier than it was made, or the supervisor is stopping. -/
theorem claimPasses_run {s : Supervisor} (h : claimSystem.Reachable s) :
    (∀ (i j : Nat) (p q : Pass), s.passes[i]? = some p → s.passes[j]? = some q →
      p.phase = .running → q.phase = .running → i = j) ∧
    ∀ r ∈ s.requests, r.settled = true →
      s.stopping = true ∨ ∃ p ∈ s.passes, r.calledAt ≤ p.beganAt ∧ p.phase ≠ .running := by
  have hsound := sound_of_reachable h
  constructor
  · intro i j p q hp hq hprunning hqrunning
    have hi := hsound.current i p hp (by rw [hprunning]; rfl)
    have hj := hsound.current j q hq (by rw [hqrunning]; rfl)
    exact Option.some.inj (hi.symm.trans hj)
  · intro r hr hsettled
    rcases (hsound.requests r hr).2.2 hsettled with hstopping | ⟨p, hp, hbegan, hcompleted⟩
    · exact .inl hstopping
    · exact .inr ⟨p, hp, hbegan, of_decide_eq_true hcompleted⟩

/-- A first request, a second one while its pass runs, and the follow-up's pass. -/
def twoRequests : Supervisor :=
  ((((Supervisor.initial.request.elapse).request.elapse).setPhase 0 .ended).elapse)

def firstCleared : Supervisor :=
  (({ twoRequests.setPhase 0 .cleared with tickPromise := none }).elapse.setPhase 0 .settled).elapse

def secondPass : Supervisor :=
  ((({ ((firstCleared.answer 0).elapse.setPhase 1 .ended).elapse.setPhase 1 .cleared with
    tickPromise := none }).elapse).setPhase 1 .settled).elapse

def bothServed : Supervisor :=
  { ({ secondPass with
      followUps := secondPass.followUps.modify 0 fun f => { f with settled := true } }).elapse with
    requests := secondPass.requests.modify 1 fun r => { r with settled := true } }.elapse

theorem bothServed_reachable : claimSystem.Reachable bothServed := by
  have hinit : claimSystem.Reachable Supervisor.initial := .refl
  have htwo : claimSystem.Reachable twoRequests :=
    ((hinit.next .request).next .request).next (.endPass (i := 0) (p := ⟨0, .running⟩) rfl rfl)
  have hfirst : claimSystem.Reachable firstCleared :=
    (htwo.next (.clearPass (i := 0) (p := ⟨0, .ended⟩) rfl rfl)).next
      (.settlePass (i := 0) (p := ⟨0, .cleared⟩) rfl rfl)
  have hanswered := hfirst.next (.answer (i := 0) (f := ⟨0, none, false⟩) rfl rfl rfl)
  have hsecond : claimSystem.Reachable secondPass :=
    ((hanswered.next (.endPass (i := 1) (p := ⟨5, .running⟩) rfl rfl)).next
      (.clearPass (i := 1) (p := ⟨5, .ended⟩) rfl rfl)).next
        (.settlePass (i := 1) (p := ⟨5, .cleared⟩) rfl rfl)
  exact (hsecond.next
    (.settleFollowUp (i := 0) (f := ⟨0, some (5, .pass 1), false⟩) rfl rfl rfl)).next
      (.settleRequest (i := 1) (r := ⟨1, .chained 0, false⟩) rfl rfl)

/-- The second request is settled, and the second pass served it. -/
theorem claimPasses_run_bothServed :
    (∃ r ∈ bothServed.requests, r.settled = true) ∧
    (∀ (i j : Nat) (p q : Pass), bothServed.passes[i]? = some p → bothServed.passes[j]? = some q →
      p.phase = .running → q.phase = .running → i = j) ∧
    ∀ r ∈ bothServed.requests, r.settled = true →
      bothServed.stopping = true ∨
        ∃ p ∈ bothServed.passes, r.calledAt ≤ p.beganAt ∧ p.phase ≠ .running :=
  ⟨⟨⟨1, .chained 0, true⟩, List.mem_of_getElem? (i := 1) rfl, rfl⟩,
    claimPasses_run bothServed_reachable⟩

end Psfn.Background.ClaimPasses
