import Psfn.Arbiter.EgressLeasePhase
import Psfn.Arbiter.Leases

/-!
# The speaking arbiter — one probe per recovery

The breaker is read in one store call and persisted in another. The persist does not ask what is
there: two evaluations that both read `open` both persist `half_open` and are both admitted.

* `one_probe_per_recovery` — as long as an evaluation that is admitted persists over the position
  it has read, each transition from open to half-open has one probe, and nothing is admitted while
  the breaker is open and the pressure has not decayed.
* `overlapping_evaluations_probe_twice` — two evaluations that overlap.
-/

namespace Psfn.Arbiter

open Psfn.Lib

/-! ## What should hold, and when -/

/-- The probes of a channel. -/
def World.probes (w : World) (channelId : Identifier) : List Admission :=
  w.admissions.filter fun a => a.channelId = channelId && a.probe

structure OneProbe (w : World) : Prop where
  once         : ∀ channelId, ((w.probes channelId).map (·.recovery)).Nodup
  notWhileOpen : ∀ a ∈ w.admissions, a.found = .opened → a.recovered = true

/-- An evaluation that will be admitted persists over the position it read. -/
def Undisturbed (w : World) : Action → Prop
  | .advance i answer => answer = .store → ∀ run ∈ w.runs[i]?, ∀ assessment ∈ run.stage.persisting,
      breakerAdmits assessment = true →
        readRoomEpisodeBreakerState w.db run.call.reservation.channelId = assessment.priorState
  | _ => True

instance (w : World) : (action : Action) → Decidable (Undisturbed w action)
  | .advance i answer => inferInstanceAs (Decidable (answer = .store → ∀ run ∈ w.runs[i]?,
      ∀ assessment ∈ run.stage.persisting, breakerAdmits assessment = true →
        readRoomEpisodeBreakerState w.db run.call.reservation.channelId = assessment.priorState))
  | .start _ => isTrue trivial
  | .stop _ => isTrue trivial
  | .store _ => isTrue trivial

/-! ## The breaker's position -/

/-- The position was resolved from the one that was read. -/
def Run.Resolved (run : Run) : Prop :=
  ∀ assessed pressure assessment, run.stage = .persistBreaker assessed pressure assessment →
    ∃ thresholds, assertRoomEpisodeCircuitBreakerConfig run.call.config.roomEpisodeCircuitBreaker
        run.call.config.wrapUpThreshold = .ok thresholds ∧
      assessment.state = resolveBreaker pressure thresholds assessment.priorState

theorem resolved_of_idle {call : GrantCall} {stage : Stage} (h : stage.idle = true) :
    Run.Resolved { call, stage } := by
  intro assessed pressure assessment hstage
  have hstage' : stage = .persistBreaker assessed pressure assessment := hstage
  rw [hstage'] at h
  cases h

theorem assess_state {assessed : PressureAssessment} {pressure nowMs : Rat}
    {priorState : RoomEpisodeBreakerState} {config : RoomEpisodeCircuitBreakerConfig}
    {wrapUpThreshold : JsNumber} {assessment : BreakerAssessment}
    (h : assessRoomEpisodeCircuitBreaker assessed pressure priorState config wrapUpThreshold nowMs =
      .ok assessment) :
    ∃ thresholds, assertRoomEpisodeCircuitBreakerConfig config wrapUpThreshold = .ok thresholds ∧
      assessment.state = resolveBreaker pressure thresholds assessment.priorState := by
  obtain ⟨thresholds, hconfig, hrest⟩ := bind_eq_ok.1 h
  obtain ⟨_, _, hrest⟩ := bind_eq_ok.1 hrest
  obtain ⟨_, _, hrest⟩ := bind_eq_ok.1 hrest
  obtain ⟨state, hstate, hrest⟩ := bind_eq_ok.1 hrest
  obtain ⟨thresholds', hconfig', hstate⟩ := bind_eq_ok.1 hstate
  obtain ⟨_, _, hstate⟩ := bind_eq_ok.1 hstate
  cases hrest
  cases hstate
  exact ⟨thresholds', hconfig', rfl⟩

theorem resolved_afterBreakerRead (call : GrantCall) (assessed : PressureAssessment)
    (pressure : Rat) (priorState : RoomEpisodeBreakerState) :
    Run.Resolved { call, stage := afterBreakerRead call assessed pressure priorState } := by
  intro assessed' pressure' assessment hstage
  have hstage' : afterBreakerRead call assessed pressure priorState =
      .persistBreaker assessed' pressure' assessment := hstage
  unfold afterBreakerRead at hstage'
  dsimp only at hstage'
  split at hstage'
  · rename_i hassess
    cases hstage'
    exact assess_state hassess
  · cases hstage'

/-- A position that was admitted as a probe, or over an open breaker, was recovered. -/
theorem recovered_of_opened {pressure : Rat} {config : RoomEpisodeCircuitBreakerConfig}
    {wrapUpThreshold : JsNumber} {thresholds : BreakerThresholds} {assessment : BreakerAssessment}
    (hconfig : assertRoomEpisodeCircuitBreakerConfig config wrapUpThreshold = .ok thresholds)
    (hstate : assessment.state = resolveBreaker pressure thresholds assessment.priorState)
    (hadmits : breakerAdmits assessment = true) (hprior : assessment.priorState = .opened) :
    hasRecovered pressure config wrapUpThreshold = true := by
  unfold hasRecovered
  rw [hconfig]
  rw [hprior] at hstate
  unfold resolveBreaker at hstate
  dsimp only at hstate ⊢
  split at hstate
  · rename_i hreset
    exact decide_eq_true hreset
  · -- still open, so not admitted
    simp [breakerAdmits, hstate] at hadmits

/-- The open episode of the channel has the position that was persisted. -/
theorem read_after_persist {db db' : Database} {channelId : Identifier}
    {state : RoomEpisodeBreakerState} {nowMs : JsNumber}
    (hpersist : persistRoomEpisodeBreakerState channelId state nowMs db = (db', .ok ()))
    (hopen : readRoomEpisodeBreakerState db channelId ≠ .closed) :
    readRoomEpisodeBreakerState db' channelId = state := by
  obtain ⟨row, hrow⟩ : ∃ row, loadOpenEpisodeRow db channelId = some row := by
    cases hload : loadOpenEpisodeRow db channelId with
    | none => exact absurd (by rw [readRoomEpisodeBreakerState, hload]; rfl) hopen
    | some row => exact ⟨row, rfl⟩
  have hbody : ∃ now, persistBreakerBody channelId state now db = .ok (db', ()) := by
    unfold persistRoomEpisodeBreakerState checked at hpersist
    split at hpersist
    · rename_i now hnow
      rcases Table.transaction_cases Database.constraints (persistBreakerBody channelId state now)
        db with ⟨_, hfailed⟩ | ⟨db'', _, hbody, _, hdone⟩
      · rw [withPostgresClient, hfailed] at hpersist
        cases hpersist
      · rw [withPostgresClient, hdone] at hpersist
        cases hpersist
        exact ⟨now, hbody⟩
    · cases hpersist
  obtain ⟨now, hbody⟩ := hbody
  cases hbody
  unfold loadOpenEpisodeRow at hrow
  have hcond := List.find?_some hrow
  have hfind : loadOpenEpisodeRow
      { db with
        episodes :=
          Table.update (fun e => e.channelId = channelId && e.status = .opened)
            (fun e => { e.active now with breakerState := state, revision := e.revision + 1 })
            db.episodes } channelId =
      some { row.active now with breakerState := state, revision := row.revision + 1 } := by
    unfold loadOpenEpisodeRow Table.update
    dsimp only
    rw [List.find?_map]
    -- the update moves neither the channel nor the status of an episode
    have hsame : ((fun e : EpisodeRow => decide (e.channelId = channelId) && decide (e.status = .opened))
        ∘ fun e => if (decide (e.channelId = channelId) && decide (e.status = .opened)) = true
          then { e.active now with breakerState := state, revision := e.revision + 1 } else e) =
        fun e => decide (e.channelId = channelId) && decide (e.status = .opened) := by
      funext e
      dsimp only [Function.comp_apply]
      split <;> rfl
    rw [hsame, hrow, Option.map_some, if_pos hcond]
  rw [readRoomEpisodeBreakerState, hfind]
  rfl

/-! ## The invariant -/

structure ProbesSound (w : World) : Prop where
  resolved : ∀ run ∈ w.runs, run.Resolved
  counted  : ∀ a ∈ w.admissions, a.recovery ≤ w.recoveries.count a.channelId
  probes   : OneProbe w

theorem ProbesSound.init : ProbesSound {} where
  resolved := fun _ hrun => absurd hrun List.not_mem_nil
  counted := fun _ ha => absurd ha List.not_mem_nil
  probes := ⟨fun _ => List.nodup_nil, fun _ ha => absurd ha List.not_mem_nil⟩

/-- A step that admits nobody. -/
theorem ProbesSound.quiet {w w' : World} (h : ProbesSound w)
    (hruns : ∀ run ∈ w'.runs, run ∈ w.runs ∨ run.Resolved)
    (hadmissions : w'.admissions = w.admissions) (hrecoveries : w.recoveries <+: w'.recoveries) :
    ProbesSound w' where
  resolved := fun run hrun => (hruns run hrun).elim (h.resolved run) id
  counted := by
    intro a ha
    rw [hadmissions] at ha
    exact (h.counted a ha).trans (hrecoveries.sublist.count_le _)
  probes := by
    refine ⟨fun channelId => ?_, ?_⟩
    · have honce := h.probes.once channelId
      rw [World.probes] at honce ⊢
      rw [hadmissions]
      exact honce
    · rw [hadmissions]
      exact h.probes.notWhileOpen

/-- The runs after one of them has moved. -/
theorem resolved_set {w : World} {i : Nat} {run : Run} {stage : Stage}
    (h : Run.Resolved { run with stage }) :
    ∀ r ∈ w.runs.set i { run with stage }, r ∈ w.runs ∨ r.Resolved := by
  intro r hr
  rcases List.mem_or_eq_of_mem_set hr with hold | rfl
  · exact .inl hold
  · exact .inr h

/-- A step that admits an evaluation over the position it read. -/
theorem ProbesSound.admitted {w w' : World} (h : ProbesSound w) {a : Admission}
    {recoveries : List Identifier} (hruns : ∀ run ∈ w'.runs, run ∈ w.runs ∨ run.Resolved)
    (hadmissions : w'.admissions = w.admissions ++ [a])
    (hrecoveries : w'.recoveries = w.recoveries ++ recoveries)
    (hcount : a.recovery = (w.recoveries ++ recoveries).count a.channelId)
    (hprobe : a.probe = true → recoveries = [a.channelId])
    (hopen : a.found = .opened → a.recovered = true) : ProbesSound w' where
  resolved := fun run hrun => (hruns run hrun).elim (h.resolved run) id
  counted := by
    intro b hb
    rw [hadmissions, List.mem_append, List.mem_singleton] at hb
    rw [hrecoveries]
    rcases hb with hb | rfl
    · have hbefore := h.counted b hb
      rw [List.count_append]
      omega
    · exact hcount.le
  probes := by
    refine ⟨fun channelId => ?_, ?_⟩
    · rw [World.probes, hadmissions, List.filter_append, List.map_append]
      by_cases hnew : (decide (a.channelId = channelId) && a.probe) = true
      · -- the probe's recovery is its own transition, later than those before
        rw [List.filter_cons, if_pos hnew, List.filter_nil, ← List.map_append]
        simp only [Bool.and_eq_true, decide_eq_true_eq] at hnew
        refine Table.Keyed.insert (h.probes.once channelId) fun old hold => ?_
        obtain ⟨hmem, hchannel⟩ := List.mem_filter.1 hold
        simp only [Bool.and_eq_true, decide_eq_true_eq] at hchannel
        have hbefore := h.counted old hmem
        rw [hchannel.1] at hbefore
        rw [hcount, hprobe hnew.2, hnew.1, List.count_append, List.count_singleton_self]
        omega
      · rw [List.filter_cons, if_neg hnew, List.filter_nil, List.map_nil, List.append_nil]
        exact h.probes.once channelId
    · intro b hb
      rw [hadmissions, List.mem_append, List.mem_singleton] at hb
      rcases hb with hb | rfl
      · exact h.probes.notWhileOpen b hb
      · exact hopen

theorem probesSound_act {w : World} (h : ProbesSound w) {action : Action}
    (hundisturbed : Undisturbed w action) : ProbesSound (w.act action) := by
  cases action with
  | start call =>
    refine h.quiet (fun run hrun => ?_) rfl (List.prefix_refl _)
    rcases List.mem_append.1 hrun with hold | hnew
    · exact .inl hold
    · rw [List.mem_singleton.1 hnew]
      exact .inr (resolved_of_idle (beginGrant_idle call))
  | stop i =>
    cases hrun : w.runs[i]? with
    | none =>
      have hsame : w.act (.stop i) = w := by simp only [World.act, hrun]
      rw [hsame]
      exact h
    | some run =>
      have hact : w.act (.stop i) = { w with runs := w.runs.set i { run with stage := .stopped } } := by
        simp only [World.act, hrun]
      rw [hact]
      exact h.quiet (resolved_set (resolved_of_idle rfl)) rfl (List.prefix_refl _)
  | store op => exact h.quiet (fun _ hrun => .inl hrun) rfl (List.prefix_refl _)
  | advance i answer =>
    rcases act_advance w i answer with hsame | ⟨run, db', stage, event, hrun, heffect, hact⟩
    · rw [hsame]
      exact h
    · have hmem : run ∈ w.runs := List.mem_of_getElem? hrun
      rw [hact]
      cases heffect with
      | quiet hdb hstage hevent =>
        rw [hevent]
        exact h.quiet (resolved_set (resolved_of_idle hstage)) rfl (List.prefix_append _ _)
      | assess assessed pressure prior hdb hstage hevent =>
        rw [hevent]
        refine h.quiet (resolved_set ?_) rfl (List.prefix_append _ _)
        rw [hstage]
        exact resolved_afterBreakerRead _ _ _ _
      | acquire breakerState drawnUnits leaseId hanswer hdb hstage hevent =>
        rw [hevent]
        refine h.quiet (resolved_set ?_) rfl (List.prefix_append _ _)
        intro assessed pressure assessment hpersist
        have hafter : stage = .persistBreaker assessed pressure assessment := hpersist
        rw [hstage] at hafter
        unfold afterAcquire refundUnits at hafter
        split at hafter
        · cases hafter
        · split at hafter <;> cases hafter
        · split at hafter <;> cases hafter
      | deliver breakerState lease outcome hbefore hdb hstage hevent =>
        have hresolved : Run.Resolved { run with stage } := by
          intro assessed pressure assessment hpersist
          have hafter : stage = .persistBreaker assessed pressure assessment := hpersist
          rw [hstage] at hafter
          unfold afterDelivery at hafter
          split at hafter <;> cases hafter
        rw [hevent]
        unfold deliveryEvent
        split
        · exact h.quiet (resolved_set hresolved) rfl (List.prefix_append _ _)
        · exact h.quiet (resolved_set hresolved) rfl (List.prefix_append _ _)
      | complete breakerState lease completion detail threw hbefore hdb hstage hevent =>
        rw [hevent]
        exact h.quiet (resolved_set (resolved_of_idle hstage)) rfl (List.prefix_append _ _)
      | admitted assessed pressure assessment hbefore hanswer hpersist hstage hevent =>
        have hidle : Run.Resolved { run with stage } :=
          resolved_of_idle (by rw [hstage]; exact afterBreaker_idle _ _ _)
        rw [hevent]
        unfold admission
        split
        · rename_i hadmits
          have hfound := hundisturbed hanswer run hrun assessment (by rw [hbefore]; rfl) hadmits
          obtain ⟨thresholds, hconfig, hstate⟩ :=
            h.resolved run hmem assessed pressure assessment hbefore
          refine h.admitted (resolved_set hidle) rfl rfl rfl ?_ ?_
          · -- the probe makes the transition itself
            intro hprobe
            simp only [Bool.and_eq_true, decide_eq_true_eq] at hprobe
            rw [World.recoveredChannel, if_pos]
            refine ⟨hfound.trans hprobe.1, ?_⟩
            rw [read_after_persist hpersist (by rw [hfound, hprobe.1]; decide)]
            exact hprobe.2
          · intro hopen
            exact recovered_of_opened hconfig hstate hadmits (hfound.symm.trans hopen)
        · exact h.quiet (resolved_set hidle) rfl (List.prefix_append _ _)

/-- **One probe per recovery**, in every run in which an evaluation that is admitted persists over
the position it has read. -/
theorem one_probe_per_recovery {w : World} (h : (arbiterSystem Undisturbed).Reachable w) :
    OneProbe w := by
  have hsound : ProbesSound w := by
    refine System.invariant ProbesSound.init ?_ h
    rintro s t hs ⟨action, _, hundisturbed, rfl⟩
    exact probesSound_act hs hundisturbed
  exact hsound.probes

/-! ## Evaluations that do not overlap, and evaluations that do -/

/-- The room's event as the store holds its reservation. -/
def demoReservation (companionId : Uuid) (event : Identifier) (reservationId : Uuid) :
    ReservationRow :=
  newReservation { reservationId, channelId := room, triggerEventId := event, companionId
                   nowMs := 0, expiresAtMs := 100, uuid := ari } ari

def demoConfig : EgressLeasePhaseConfig where
  mode := .on
  leaseTtlMs := 10
  minReplyConfidence := 0
  roomEpisodeCircuitBreaker := { tripThreshold := .finite 5, resetThreshold := .finite 1 }
  wrapUpThreshold := .finite 2
  replyPressureUnits := 1

def demoCall (companionId : Uuid) (event : Identifier) (reservationId : Uuid) : GrantCall where
  companionId := companionId
  config := demoConfig
  reservation := demoReservation companionId event reservationId
  confidence := 1
  trigger := { kind := .inboundRoomMessage, channelId := room.value, sourceEventId := event.value
               occurredAtMs := .finite 0 }
  nowMs := .finite 1

def demoPressure (pressure : Rat) : Answer :=
  .pressure (some { channelId := room.value, pressure := .finite pressure
                    leaseThresholdBias := 0, contributingEventCount := 0 })

/-- Ari's evaluation trips the breaker; then Bea's comes with the pressure gone. -/
def trippedThenRecovered : List Action :=
  [.store (reserveFor ari hello ari), .store (reserveFor bea hello bea),
    .store (reserveFor ari bye cyd),
    .start (demoCall ari hello ari), .advance 0 (demoPressure 5), .advance 0 .store,
    .advance 0 .store,
    .start (demoCall bea hello bea), .advance 1 (demoPressure 0), .advance 1 .store]

def beaProbes : List Action := trippedThenRecovered ++ [.advance 1 .store]

theorem one_probe_per_recovery_beaProbes :
    ((beaProbes.foldl World.act {}).probes room).map (·.recovery) = [1] ∧
      OneProbe (beaProbes.foldl World.act {}) :=
  ⟨by decide +kernel, one_probe_per_recovery (reachable_of_legal (by decide +kernel))⟩

/-- A second evaluation reads the open breaker before Bea's has persisted. -/
def bothProbe : List Action :=
  trippedThenRecovered ++
    [.start (demoCall ari bye cyd), .advance 2 (demoPressure 0), .advance 2 .store,
      .advance 1 .store, .advance 2 .store]

/-- **Evaluations that overlap both probe.** The breaker goes from open to half-open once, and two
evaluations are admitted as the probe. -/
theorem overlapping_evaluations_probe_twice :
    (arbiterSystem fun _ _ => True).Reachable (bothProbe.foldl World.act {}) ∧
      ((bothProbe.foldl World.act {}).probes room).map (·.recovery) = [1, 1] ∧
      ¬ OneProbe (bothProbe.foldl World.act {}) := by
  have hprobes : ((bothProbe.foldl World.act {}).probes room).map (·.recovery) = [1, 1] := by
    decide +kernel
  refine ⟨reachable_of_legal (by decide +kernel), hprobes, fun h => ?_⟩
  have honce := h.once room
  rw [hprobes] at honce
  exact absurd honce (by decide)

end Psfn.Arbiter
