import Psfn.Charge.Surface
import Psfn.Charge.WindowAgreement

/-!
# Run charges — the quota

A synchronous charge inspects the quota and adds to it in one go. A durable charge adds what it
was allowed before two awaits, whatever has been charged since; and it is the recorder that
says whether an event id is new.

* `quota_kept` — as long as every durable charge still finds room when it is committed, and the
  recorder answers `recorded` once for an id: no lane exceeds its quota, in the rolling window and
  in any quota account, and a durable event id is charged at most once.
* `overlapping_charges_exceed` — two durable charges that overlap do exceed it.
-/

namespace Psfn.Charge

open Psfn.Lib

variable {κ : Type} [DecidableEq κ]

/-! ## What should hold -/

namespace Process

/-- The charges of the rolling window. -/
def windowCharges (p : Process κ) (nowMs : Rat) : List (RunChargeEvent κ) :=
  (p.charges.map (·.event)).filter fun e =>
    nowMs - runChargeRollingWindowMs ≤ e.timestampMs && e.timestampMs ≤ nowMs

/-- The charges to a quota account, whenever they were made. -/
def accountCharges (p : Process κ) (account : Nat) : List (RunChargeEvent κ) :=
  (p.charges.filter fun c => c.quotaAccount = some account).map (·.event)

end Process

structure QuotaKept (policy : ChargePolicyConfig κ) (p : Process κ) : Prop where
  window  : ∀ nowMs, p.clock ≤ nowMs → ∀ lane,
    laneTotal (p.windowCharges nowMs) lane ≤ policy.runChargeQuotaByLane lane
  account : ∀ account lane,
    laneTotal (p.accountCharges account) lane ≤ policy.runChargeQuotaByLane lane
  once    : p.recordedIds.Nodup

/-- When the recorder has answered, an inspection would still find room for the charge (in the
rolling window only if the charge is not older than it by now), and the recorder has not
answered `recorded` for its id before. -/
def StillAvailable (policy : ChargePolicyConfig κ) (p : Process κ) : ChargeAction κ → Prop
  | .recorderAnswers call outcome nowMs =>
    let inspection := p.inspect policy call.context call.event.surface call.event.lane
      call.event.amount nowMs
    outcome ≠ .replayed →
      inspection.quotaSpentAfter ≤ inspection.quota ∧
      (nowMs - runChargeRollingWindowMs ≤ call.event.timestampMs →
        inspection.rollingWindowSpentAfter ≤ inspection.quota) ∧
      call.event.eventId ∉ p.recordedIds
  | _ => True

/-! ## Sums -/

theorem laneTotal_filter_le {rows : List (RunChargeEvent κ)} (hnonneg : ∀ e ∈ rows, 0 ≤ e.amount)
    (keep : RunChargeEvent κ → Bool) (lane : κ) :
    laneTotal (rows.filter keep) lane ≤ laneTotal rows lane := by
  have hrest : 0 ≤ laneTotal (rows.filter fun e => !keep e) lane :=
    laneTotal_nonneg (fun e he => hnonneg e (List.mem_filter.1 he).1) lane
  have hsplit := laneTotal_filter rows keep lane
  linarith

theorem laneTotal_eq_zero {rows : List (RunChargeEvent κ)} (hzero : ∀ e ∈ rows, e.amount = 0)
    (lane : κ) : laneTotal rows lane = 0 := by
  induction rows using List.reverseRecOn with
  | nil => rfl
  | append_singleton rows event ih =>
    rw [laneTotal_append, ih fun e he => hzero e (List.mem_append_left _ he),
      hzero event (by simp)]
    simp

variable {nowMs : Rat}

/-- The window's own sum, over rows that are not in the future. -/
theorem foldl_spent {rows : List (RunChargeEvent κ)} (hpast : ∀ e ∈ rows, e.timestampMs ≤ nowMs)
    (lane : κ) :
    (rows.map RunChargeEvent.entry).foldl (fun total entry =>
      if nowMs < entry.timestampMs ∨ entry.lane ≠ lane then total else total + entry.amount) 0 =
      laneTotal rows lane := by
  induction rows using List.reverseRecOn with
  | nil => rfl
  | append_singleton rows event ih =>
    have hevent : ¬ nowMs < event.entry.timestampMs := not_lt.2 (hpast event (by simp))
    rw [List.map_append, List.foldl_append, ih fun e he => hpast e (List.mem_append_left _ he),
      laneTotal_append]
    simp only [List.map_cons, List.map_nil, List.foldl_cons, List.foldl_nil, hevent, false_or]
    by_cases hlane : event.lane = lane
    · have hkept : ¬ event.entry.lane ≠ lane := not_not.2 hlane
      rw [if_neg hkept, if_pos hlane]
      rfl
    · have hdropped : event.entry.lane ≠ lane := hlane
      rw [if_pos hdropped, if_neg hlane, add_zero]

theorem getD_addSpentByLane (spent : JsMap κ Rat) (lane lane' : κ) {amount : Rat}
    (hamount : 0 ≤ amount) :
    ((addSpentByLane spent lane amount).get lane').getD 0 =
      (spent.get lane').getD 0 + if lane = lane' then amount else 0 := by
  rw [addSpentByLane]
  split
  · rename_i hle
    have hzero : amount = 0 := le_antisymm hle hamount
    simp [hzero]
  · rw [JsMap.get_set]
    by_cases hlane : lane' = lane
    · simp [hlane]
    · simp [hlane, Ne.symm hlane]

/-- The lanes an account has spent in are among those of the other. -/
def Covers (spent account : JsMap κ Rat) : Prop :=
  ∀ lane, account.get lane ≠ none → spent.get lane ≠ none

theorem get_addSpentByLane_ne_none {spent : JsMap κ Rat} {lane lane' : κ} {amount : Rat} :
    (addSpentByLane spent lane amount).get lane' ≠ none ↔
      spent.get lane' ≠ none ∨ lane' = lane ∧ 0 < amount := by
  rw [addSpentByLane]
  split
  · rename_i hle
    have hnot : ¬ 0 < amount := not_lt.2 hle
    simp [hnot]
  · rename_i hpos
    have hpos : 0 < amount := not_le.1 hpos
    rw [JsMap.get_set]
    by_cases hlane : lane' = lane <;> simp [hlane, hpos]

theorem Covers.add {spent account : JsMap κ Rat} (h : Covers spent account) (lane : κ)
    (amount : Rat) :
    Covers (addSpentByLane spent lane amount) (addSpentByLane account lane amount) := by
  intro lane' hne
  rw [get_addSpentByLane_ne_none] at hne ⊢
  exact hne.imp_left (h lane')

theorem Covers.add_left {spent account : JsMap κ Rat} (h : Covers spent account) (lane : κ)
    (amount : Rat) : Covers (addSpentByLane spent lane amount) account := by
  intro lane' hne
  exact get_addSpentByLane_ne_none.2 (.inl (h lane' hne))

/-- What a child folds back is spent in lanes of the parent or of the child. -/
theorem Covers.foldBack {spent : JsMap κ Rat} {parent child : RunChargeAccount κ}
    (hparent : Covers spent parent.spentByLane) (hchild : Covers spent child.spentByLane) :
    Covers spent (Process.foldChildAccountIntoParent parent child).spentByLane := by
  have hkeys : ∀ entry ∈ child.spentByLane.entries, spent.get entry.1 ≠ none := by
    intro entry hmem
    refine hchild entry.1 ?_
    rw [(child.spentByLane.mem_entries_iff_get entry.1 entry.2).1 hmem]
    exact Option.some_ne_none _
  unfold Process.foldChildAccountIntoParent
  generalize child.spentByLane.entries = entries at hkeys
  induction entries generalizing parent with
  | nil => exact hparent
  | cons entry rest ih =>
    refine ih ?_ fun e he => hkeys e (List.mem_cons_of_mem _ he)
    intro lane hne
    rcases get_addSpentByLane_ne_none.1 hne with h | ⟨rfl, -⟩
    · exact hparent lane h
    · exact hkeys entry List.mem_cons_self

/-! ## The invariant -/

/-- Events are of the past, charge no negative amount, and have an id without blanks around it. -/
structure WellFormedEvent (clock : Rat) (event : RunChargeEvent κ) : Prop where
  past    : event.timestampMs ≤ clock
  nonneg  : 0 ≤ event.amount
  trimmed : JsString.trim event.eventId = event.eventId
  named   : event.eventId ≠ ""

variable {clock : Rat}

omit [DecidableEq κ] in
theorem WellFormedEvent.later {clock' : Rat} {event : RunChargeEvent κ}
    (h : WellFormedEvent clock event) (hle : clock ≤ clock') : WellFormedEvent clock' event :=
  ⟨h.past.trans hle, h.nonneg, h.trimmed, h.named⟩

/-- The window in memory, against the charges that were made. -/
structure WindowInvariant (p : Process κ) : Prop where
  events : ∀ c ∈ p.charges, WellFormedEvent p.clock c.event
  origin : ∀ entry ∈ p.rollingChargeWindowEntries, ∃ c ∈ p.charges, entry = c.event.entry
  window : ∀ nowMs, p.clock ≤ nowMs →
    pruneRollingChargeWindow nowMs p.rollingChargeWindowEntries =
      ((p.charges.map (·.event)).filter fun e =>
        0 < e.amount && nowMs - runChargeRollingWindowMs ≤ e.timestampMs).map RunChargeEvent.entry

/-- The accounts, against the charges that were made. -/
structure AccountInvariant (p : Process κ) : Prop where
  spent    : ∀ (a : Nat) (account : JsMap κ Rat), p.quotaAccounts[a]? = some account → ∀ lane,
    (account.get lane).getD 0 = laneTotal (p.accountCharges a) lane
  known    : ∀ c ∈ p.charges, ∀ a, c.quotaAccount = some a → a < p.quotaAccounts.length
  contexts : ∀ (i : Nat) (context : RunChargeContextState κ), p.contexts[i]? = some context →
    ∃ account, p.quotaAccounts[context.quotaAccount]? = some account ∧
      Covers account context.account.spentByLane
  parents  : ∀ (i : Nat) (context : RunChargeContextState κ), p.contexts[i]? = some context →
    ∀ j, context.parent = some j → ∃ parent : RunChargeContextState κ,
      p.contexts[j]? = some parent ∧ parent.quotaAccount = context.quotaAccount

/-- A call in flight charges what it inspected, under an id that was not drawn. -/
structure WellFormedCall (p : Process κ) (call : DurableCall κ) : Prop where
  event  : WellFormedEvent p.clock call.event
  lane   : call.inspection.lane = call.event.lane
  amount : call.inspection.amount = call.event.amount
  drawn  : ∀ c ∈ p.charges, c.durable = false → c.event.eventId ≠ call.event.eventId

structure Inv (policy : ChargePolicyConfig κ) (p : Process κ) : Prop where
  kept     : QuotaKept policy p
  windows  : WindowInvariant p
  accounts : AccountInvariant p
  calls    : ∀ call ∈ p.calls, WellFormedCall p call

theorem inv_init (policy : ChargePolicyConfig κ) : Inv policy .init where
  kept := ⟨fun _ _ lane => policy.quota_nonneg lane, fun _ lane => policy.quota_nonneg lane,
    List.nodup_nil⟩
  windows := ⟨by simp [Process.init], by simp [Process.init], fun _ _ => rfl⟩
  accounts := ⟨by simp [Process.init], by simp [Process.init], by simp [Process.init],
    by simp [Process.init]⟩
  calls := by simp [Process.init]

variable {policy : ChargePolicyConfig κ} {p : Process κ}

omit [DecidableEq κ] in
theorem WindowInvariant.mem_windowCharges (h : WindowInvariant p) (hclock : p.clock ≤ nowMs) :
    p.windowCharges nowMs = (p.charges.map (·.event)).filter fun e =>
      nowMs - runChargeRollingWindowMs ≤ e.timestampMs := by
  refine List.filter_congr fun e he => ?_
  obtain ⟨c, hc, rfl⟩ := List.mem_map.1 he
  have hpast : c.event.timestampMs ≤ nowMs := (h.events c hc).past.trans hclock
  simp [hpast]

omit [DecidableEq κ] in
theorem WindowInvariant.nonneg (h : WindowInvariant p) :
    ∀ e ∈ p.windowCharges nowMs, 0 ≤ e.amount := by
  intro e he
  obtain ⟨c, hc, rfl⟩ := List.mem_map.1 (List.mem_filter.1 he).1
  exact (h.events c hc).nonneg

/-- The code's sum is the sum of the charges of the window. -/
theorem WindowInvariant.rolling (h : WindowInvariant p) (hclock : p.clock ≤ nowMs) (lane : κ) :
    getRollingWindowSpentForLane p.rollingChargeWindowEntries lane nowMs =
      laneTotal (p.windowCharges nowMs) lane := by
  rw [getRollingWindowSpentForLane, h.window nowMs hclock, foldl_spent]
  · -- what is left out charges nothing
    rw [h.mem_windowCharges hclock, ← List.filter_filter,
      laneTotal_filter ((p.charges.map (·.event)).filter _) (fun e => 0 < e.amount)]
    have hzero : ∀ rows : List (RunChargeEvent κ), (∀ e ∈ rows, e ∈ p.charges.map (·.event)) →
        laneTotal (rows.filter fun e => !decide (0 < e.amount)) lane = 0 := by
      intro rows hrows
      refine laneTotal_eq_zero (fun e he => ?_) lane
      obtain ⟨hmem, hnot⟩ := List.mem_filter.1 he
      obtain ⟨c, hc, rfl⟩ := List.mem_map.1 (hrows e hmem)
      have hle : c.event.amount ≤ 0 := by simpa using hnot
      exact le_antisymm hle (h.events c hc).nonneg
    rw [hzero _ fun e he => (List.mem_filter.1 he).1, add_zero]
  · intro e he
    obtain ⟨c, hc, rfl⟩ := List.mem_map.1 (List.mem_filter.1 he).1
    exact (h.events c hc).past.trans hclock

variable {laterMs : Rat}

/-- The window only loses charges as time goes on. -/
theorem WindowInvariant.anti (h : WindowInvariant p) (hclock : p.clock ≤ nowMs)
    (hlater : nowMs ≤ laterMs) (lane : κ) :
    laneTotal (p.windowCharges laterMs) lane ≤ laneTotal (p.windowCharges nowMs) lane := by
  have hsub : p.windowCharges laterMs = (p.windowCharges nowMs).filter fun e =>
      laterMs - runChargeRollingWindowMs ≤ e.timestampMs := by
    rw [h.mem_windowCharges hclock, h.mem_windowCharges (hclock.trans hlater), List.filter_filter]
    refine List.filter_congr fun e _ => ?_
    by_cases hin : laterMs - runChargeRollingWindowMs ≤ e.timestampMs
    · have hnow : nowMs - runChargeRollingWindowMs ≤ e.timestampMs := by linarith
      simp only [hin, hnow, decide_true, Bool.and_self]
    · simp only [hin, decide_false, Bool.false_and]
  rw [hsub]
  exact laneTotal_filter_le h.nonneg _ lane

variable {ref : Option Nat}

/-- In a context, the code's `quotaSpentBefore` is the sum of the charges to its quota account. -/
theorem AccountInvariant.quotaSpentBefore (h : AccountInvariant p)
    {context : RunChargeContextState κ} (hcontext : p.context ref = some context) (lane : κ) :
    p.quotaSpentBefore ref lane = laneTotal (p.accountCharges context.quotaAccount) lane := by
  obtain ⟨i, -, hi⟩ := Option.bind_eq_some_iff.1 hcontext
  obtain ⟨account, haccount, hcovers⟩ := h.contexts i context hi
  have hspent := h.spent _ account haccount lane
  rw [Process.quotaSpentBefore, hcontext, Option.bind_some, Process.quotaAccount, haccount,
    Option.getD_some, ← hspent]
  cases hget : account.get lane with
  | some v => rfl
  | none =>
    have hnone : context.account.spentByLane.get lane = none := by
      by_contra hne
      exact hcovers lane hne hget
    rw [Process.spentBefore, hcontext, Option.bind_some, hnone]
    rfl

/-! ## One charge -/

namespace Process

theorem addSpent_of_none (h : p.context ref = none) (lane : κ) (amount : Rat) :
    p.addSpent ref lane amount = p := by
  cases ref with
  | none => rfl
  | some i =>
    unfold addSpent
    rw [h]

theorem addSpent_of_some {i : Nat} {context : RunChargeContextState κ}
    (h : p.context (some i) = some context) (lane : κ) (amount : Rat) :
    p.addSpent (some i) lane amount =
      { p with
        contexts := p.contexts.modify i fun c =>
          { c with account := addToAccount c.account lane amount }
        quotaAccounts := p.quotaAccounts.modify context.quotaAccount fun spent =>
          addSpentByLane spent lane amount } := by
  unfold addSpent
  rw [h]

/-- Nothing but the accounts. -/
theorem addSpent_frame (p : Process κ) (ref : Option Nat) (lane : κ) (amount : Rat) :
    (p.addSpent ref lane amount).clock = p.clock ∧
      (p.addSpent ref lane amount).rollingChargeWindowEntries = p.rollingChargeWindowEntries ∧
      (p.addSpent ref lane amount).calls = p.calls := by
  cases h : p.context ref with
  | none =>
    rw [addSpent_of_none h]
    exact ⟨rfl, rfl, rfl⟩
  | some context =>
    obtain ⟨i, rfl, -⟩ := Option.bind_eq_some_iff.1 h
    rw [addSpent_of_some h]
    exact ⟨rfl, rfl, rfl⟩

omit [DecidableEq κ] in
/-- Nothing but the window. -/
theorem record_frame (p : Process κ) (event : RunChargeEvent κ) :
    (p.record event).clock = p.clock ∧ (p.record event).contexts = p.contexts ∧
      (p.record event).quotaAccounts = p.quotaAccounts ∧ (p.record event).calls = p.calls := by
  unfold record
  split <;> exact ⟨rfl, rfl, rfl, rfl⟩

/-- A charge does not read the clock. -/
theorem charge_atTime (p : Process κ) (ref : Option Nat) (inspection : ChargeSurfaceInspection κ)
    (event : RunChargeEvent κ) (durable : Bool) (nowMs laterMs : Rat) :
    ((p.atTime nowMs).charge ref inspection event durable).atTime laterMs =
      (p.charge ref inspection event durable).atTime laterMs := by
  have hspent : ∀ lane amount, (p.atTime nowMs).addSpent ref lane amount =
      (p.addSpent ref lane amount).atTime nowMs := by
    intro lane amount
    cases h : p.context ref with
    | none => rw [addSpent_of_none h, addSpent_of_none (p := p.atTime nowMs) h]
    | some context =>
      obtain ⟨i, rfl, -⟩ := Option.bind_eq_some_iff.1 h
      rw [addSpent_of_some h, addSpent_of_some (p := p.atTime nowMs) h]
      rfl
  have hrecord : ∀ q : Process κ, (q.atTime nowMs).record event = (q.record event).atTime nowMs := by
    intro q
    have hsame : (q.atTime nowMs).rollingChargeWindowEntries = q.rollingChargeWindowEntries := rfl
    unfold record
    rw [hsame]
    cases recordRollingChargeEvent q.rollingChargeWindowEntries event <;> rfl
  rw [charge, hspent, hrecord]
  rfl

section

variable (p : Process κ) (ref : Option Nat) (inspection : ChargeSurfaceInspection κ)
  (event : RunChargeEvent κ) (durable : Bool)

@[simp] theorem charge_clock : (p.charge ref inspection event durable).clock = p.clock :=
  (record_frame _ event).1.trans (p.addSpent_frame ref _ _).1

@[simp] theorem charge_calls : (p.charge ref inspection event durable).calls = p.calls :=
  (record_frame _ event).2.2.2.trans (p.addSpent_frame ref _ _).2.2

@[simp] theorem charge_contexts : (p.charge ref inspection event durable).contexts =
    (p.addSpent ref inspection.lane inspection.amount).contexts :=
  (record_frame _ event).2.1

@[simp] theorem charge_quotaAccounts : (p.charge ref inspection event durable).quotaAccounts =
    (p.addSpent ref inspection.lane inspection.amount).quotaAccounts :=
  (record_frame _ event).2.2.1

@[simp] theorem charge_charges : (p.charge ref inspection event durable).charges =
    p.charges ++ [⟨event, (p.context ref).map (·.quotaAccount), durable⟩] := rfl

end

end Process

variable {durable : Bool}

/-- The window after a charge under a new id. -/
theorem WindowInvariant.recorded (h : WindowInvariant p) {inspection : ChargeSurfaceInspection κ}
    {event : RunChargeEvent κ} (hevent : WellFormedEvent clock event)
    (hnew : ∀ c ∈ p.charges, c.event.eventId ≠ event.eventId) :
    (p.charge ref inspection event durable).rollingChargeWindowEntries =
      if 0 < event.amount then
        pruneRollingChargeWindow event.timestampMs p.rollingChargeWindowEntries ++ [event.entry]
      else p.rollingChargeWindowEntries := by
  have hentries := (p.addSpent_frame ref inspection.lane inspection.amount).2.1
  have hnamed : ¬ JsString.trim event.eventId = "" := by
    rw [hevent.trimmed]
    exact hevent.named
  have hfree : ((pruneRollingChargeWindow event.timestampMs p.rollingChargeWindowEntries).any
      fun entry => entry.eventId = JsString.trim event.eventId) = false := by
    rw [List.any_eq_false]
    intro entry hmem heq
    obtain ⟨c, hc, rfl⟩ := h.origin entry (List.mem_filter.1 hmem).1
    have htrim : JsString.trim c.event.eventId = JsString.trim event.eventId :=
      of_decide_eq_true heq
    rw [(h.events c hc).trimmed, hevent.trimmed] at htrim
    exact hnew c hc htrim
  show ((p.addSpent ref _ _).record event).rollingChargeWindowEntries = _
  rw [Process.record, hentries, recordRollingChargeEvent]
  by_cases hpos : 0 < event.amount
  · have hle : ¬ event.amount ≤ 0 := not_le.2 hpos
    simp only [hle, hnamed, hfree, hpos, if_false, if_true, Bool.false_eq_true]
  · have hle : event.amount ≤ 0 := not_lt.1 hpos
    simp only [hle, hpos, if_true, if_false]

theorem WindowInvariant.charge (h : WindowInvariant p) {inspection : ChargeSurfaceInspection κ}
    {event : RunChargeEvent κ} (hclock : p.clock ≤ clock) (hevent : WellFormedEvent clock event)
    (hnew : ∀ c ∈ p.charges, c.event.eventId ≠ event.eventId) :
    WindowInvariant ((p.charge ref inspection event durable).atTime clock) where
  events := by
    intro c hc
    rcases List.mem_append.1 hc with hc | hc
    · exact (h.events c hc).later hclock
    · rw [List.mem_singleton.1 hc]
      exact hevent
  origin := by
    intro entry hmem
    have hold : entry ∈ p.rollingChargeWindowEntries →
        ∃ c ∈ ((p.charge ref inspection event durable).atTime clock).charges,
          entry = c.event.entry := by
      intro hmem
      obtain ⟨c, hc, heq⟩ := h.origin entry hmem
      exact ⟨c, List.mem_append_left _ hc, heq⟩
    change entry ∈ (p.charge ref inspection event durable).rollingChargeWindowEntries at hmem
    rw [h.recorded hevent hnew] at hmem
    split at hmem
    · rcases List.mem_append.1 hmem with hmem | hmem
      · exact hold (List.mem_filter.1 hmem).1
      · exact ⟨_, List.mem_append_right _ (List.mem_singleton.2 rfl), List.mem_singleton.1 hmem⟩
    · exact hold hmem
  window := by
    intro nowMs hnow
    have hle : p.clock ≤ nowMs := hclock.trans hnow
    have hbefore : event.timestampMs ≤ nowMs := hevent.past.trans hnow
    show pruneRollingChargeWindow nowMs
      (p.charge ref inspection event durable).rollingChargeWindowEntries =
        (((p.charges ++ [_]).map _).filter _).map _
    rw [h.recorded hevent hnew, List.map_append, List.filter_append, List.map_append,
      ← h.window nowMs hle]
    by_cases hpos : 0 < event.amount
    · rw [if_pos hpos, pruneRollingChargeWindow, List.filter_append, pruneRollingChargeWindow,
        List.filter_filter]
      congr 1
      · -- the charge prunes nothing that is still in the window
        refine List.filter_congr fun entry _ => ?_
        by_cases hin : nowMs - runChargeRollingWindowMs ≤ entry.timestampMs
        · have hkept : event.timestampMs - runChargeRollingWindowMs ≤ entry.timestampMs := by
            linarith
          simp only [hin, hkept, decide_true, Bool.and_self]
        · simp only [hin, decide_false, Bool.false_and]
      · simp only [List.map_cons, List.map_nil, List.filter_singleton, hpos, decide_true,
          Bool.true_and]
        cases hin : decide (nowMs - runChargeRollingWindowMs ≤ event.timestampMs) with
        | true =>
          have hin' : decide (nowMs - runChargeRollingWindowMs ≤ event.entry.timestampMs) = true :=
            hin
          rw [hin']
          rfl
        | false =>
          have hin' : decide (nowMs - runChargeRollingWindowMs ≤ event.entry.timestampMs) = false :=
            hin
          rw [hin']
          rfl
    · rw [if_neg hpos]
      simp [hpos]

theorem laneTotal_accountCharges_charge (p : Process κ) (ref : Option Nat)
    (inspection : ChargeSurfaceInspection κ) (event : RunChargeEvent κ) (durable : Bool) (a : Nat)
    (lane : κ) :
    laneTotal ((p.charge ref inspection event durable).accountCharges a) lane =
      laneTotal (p.accountCharges a) lane +
        if (p.context ref).map (·.quotaAccount) = some a ∧ event.lane = lane then event.amount
        else 0 := by
  rw [Process.accountCharges, Process.charge_charges, List.filter_append, List.map_append]
  by_cases ha : (p.context ref).map (·.quotaAccount) = some a
  · simp only [List.filter_cons, List.filter_nil, ha, decide_true, if_true, List.map_cons,
      List.map_nil, true_and]
    exact laneTotal_append _ event lane
  · simp only [List.filter_cons, List.filter_nil, ha, decide_false, Bool.false_eq_true, if_false,
      List.map_nil, List.append_nil, false_and, add_zero]
    rfl

omit [DecidableEq κ] in
/-- A change to the account of a context leaves its parent and its quota account. -/
theorem frame_account (change : RunChargeAccount κ → RunChargeAccount κ) (i k : Nat)
    (context : RunChargeContextState κ) :
    (if i = k then { context with account := change context.account } else context).parent =
        context.parent ∧
      (if i = k then { context with account := change context.account } else context).quotaAccount =
        context.quotaAccount := by
  split <;> exact ⟨rfl, rfl⟩

theorem AccountInvariant.charge (h : AccountInvariant p) {inspection : ChargeSurfaceInspection κ}
    {event : RunChargeEvent κ} (hlane : inspection.lane = event.lane)
    (hamount : inspection.amount = event.amount) (hnonneg : 0 ≤ event.amount) :
    AccountInvariant (p.charge ref inspection event durable) := by
  cases hcontext : p.context ref with
  | none =>
    -- outside every context only the window changes
    have hsame := Process.addSpent_of_none hcontext inspection.lane inspection.amount
    constructor
    · intro a account haccount lane
      rw [Process.charge_quotaAccounts, hsame] at haccount
      rw [laneTotal_accountCharges_charge, hcontext, h.spent a account haccount]
      simp
    · intro c hc a ha
      rw [Process.charge_quotaAccounts, hsame]
      rcases List.mem_append.1 hc with hc | hc
      · exact h.known c hc a ha
      · rw [List.mem_singleton.1 hc, hcontext] at ha
        exact absurd ha (by simp)
    · rw [Process.charge_contexts, Process.charge_quotaAccounts, hsame]
      exact h.contexts
    · rw [Process.charge_contexts, hsame]
      exact h.parents
  | some context =>
    obtain ⟨i, rfl, hi⟩ := Option.bind_eq_some_iff.1 hcontext
    obtain ⟨account, haccount, hcovers⟩ := h.contexts i context hi
    have hspent := Process.addSpent_of_some hcontext inspection.lane inspection.amount
    constructor
    · intro a account' haccount' lane
      rw [Process.charge_quotaAccounts, hspent, List.getElem?_modify] at haccount'
      obtain ⟨before, hbefore, rfl⟩ := Option.map_eq_some_iff.1 haccount'
      rw [laneTotal_accountCharges_charge, hcontext, ← h.spent a before hbefore]
      by_cases ha : context.quotaAccount = a
      · rw [if_pos ha, getD_addSpentByLane _ _ _ (hamount ▸ hnonneg), hlane, hamount]
        simp [ha]
      · rw [if_neg ha]
        simp [ha]
    · intro c hc a ha
      rw [Process.charge_quotaAccounts, hspent, List.length_modify]
      rcases List.mem_append.1 hc with hc | hc
      · exact h.known c hc a ha
      · rw [List.mem_singleton.1 hc, hcontext] at ha
        obtain rfl : context.quotaAccount = a := Option.some.inj ha
        exact (List.getElem?_eq_some_iff.1 haccount).1
    · intro k c hc
      rw [Process.charge_contexts, hspent, List.getElem?_modify] at hc
      obtain ⟨before, hbefore, rfl⟩ := Option.map_eq_some_iff.1 hc
      rw [Process.charge_quotaAccounts, hspent]
      obtain ⟨account', haccount', hcovers'⟩ := h.contexts k before hbefore
      by_cases hk : i = k
      · subst hk
        obtain rfl : context = before := Option.some.inj (hi.symm.trans hbefore)
        rw [if_pos rfl, List.getElem?_modify, haccount]
        exact ⟨_, congrArg some (if_pos rfl), hcovers.add _ _⟩
      · rw [if_neg hk, List.getElem?_modify, haccount']
        by_cases ha : context.quotaAccount = before.quotaAccount
        · exact ⟨_, congrArg some (if_pos ha), hcovers'.add_left _ _⟩
        · exact ⟨_, congrArg some (if_neg ha), hcovers'⟩
    · intro k c hc j hj
      rw [Process.charge_contexts, hspent, List.getElem?_modify] at hc
      obtain ⟨before, hbefore, rfl⟩ := Option.map_eq_some_iff.1 hc
      have hframe := frame_account
        (fun account => Process.addToAccount account inspection.lane inspection.amount) i
      obtain ⟨parent, hparent, hsame⟩ :=
        h.parents k before hbefore j ((hframe k before).1.symm.trans hj)
      rw [Process.charge_contexts, hspent, List.getElem?_modify, hparent]
      exact ⟨_, rfl, (hframe j parent).2.trans (hsame.trans (hframe k before).2.symm)⟩

theorem QuotaKept.charge (h : QuotaKept policy p) {inspection : ChargeSurfaceInspection κ}
    {event : RunChargeEvent κ} (hclock : p.clock ≤ clock)
    (hnew : ∀ c ∈ p.charges, c.event.eventId ≠ event.eventId)
    (haccount : ∀ context, p.context ref = some context →
      laneTotal (p.accountCharges context.quotaAccount) event.lane + event.amount ≤
      policy.runChargeQuotaByLane event.lane)
    (hroom : ∀ nowMs, clock ≤ nowMs → nowMs - runChargeRollingWindowMs ≤ event.timestampMs →
      laneTotal (p.windowCharges nowMs) event.lane + event.amount ≤
      policy.runChargeQuotaByLane event.lane) :
    QuotaKept policy ((p.charge ref inspection event durable).atTime clock) where
  window := by
    intro nowMs hnow lane
    have hbefore := h.window nowMs (hclock.trans hnow) lane
    have hsplit : ((p.charge ref inspection event durable).atTime clock).windowCharges nowMs =
        p.windowCharges nowMs ++ [event].filter fun e =>
          nowMs - runChargeRollingWindowMs ≤ e.timestampMs && e.timestampMs ≤ nowMs := by
      show ((p.charges ++ [_]).map _).filter _ = _
      rw [List.map_append, List.filter_append]
      rfl
    rw [hsplit, List.filter_singleton]
    cases hin : decide (nowMs - runChargeRollingWindowMs ≤ event.timestampMs) &&
        decide (event.timestampMs ≤ nowMs) with
    | false =>
      show laneTotal (_ ++ []) lane ≤ _
      rw [List.append_nil]
      exact hbefore
    | true =>
      show laneTotal (_ ++ [event]) lane ≤ _
      rw [laneTotal_append]
      simp only [Bool.and_eq_true, decide_eq_true_eq] at hin
      split
      · rename_i heq
        subst heq
        exact hroom nowMs hnow hin.1
      · rw [add_zero]
        exact hbefore
  account := by
    intro a lane
    show laneTotal ((p.charge ref inspection event durable).accountCharges a) lane ≤ _
    rw [laneTotal_accountCharges_charge]
    split
    · rename_i hcase
      obtain ⟨context, hcontext, rfl⟩ := Option.map_eq_some_iff.1 hcase.1
      rw [← hcase.2]
      exact haccount context hcontext
    · rw [add_zero]
      exact h.account a lane
  once := by
    show ((p.charges ++ [_]).filter _ |>.map _).Nodup
    rw [List.filter_append, List.map_append, List.nodup_append]
    refine ⟨h.once, ?_, ?_⟩
    · cases durable <;> simp
    · intro id hid id' hid' heq
      obtain ⟨c, hc, rfl⟩ := List.mem_map.1 hid
      obtain ⟨c', hc', rfl⟩ := List.mem_map.1 hid'
      rw [List.mem_singleton.1 (List.mem_filter.1 hc').1] at heq
      exact hnew c (List.mem_filter.1 hc).1 heq

/-- **A charge that fits** keeps everything. -/
theorem Inv.charge (h : Inv policy p) {inspection : ChargeSurfaceInspection κ}
    {event : RunChargeEvent κ} (hclock : p.clock ≤ clock) (hevent : WellFormedEvent clock event)
    (hlane : inspection.lane = event.lane) (hamount : inspection.amount = event.amount)
    (hnew : ∀ c ∈ p.charges, c.event.eventId ≠ event.eventId)
    (hcalls : durable = false → ∀ call ∈ p.calls, event.eventId ≠ call.event.eventId)
    (haccount : p.quotaSpentBefore ref event.lane + event.amount ≤
      policy.runChargeQuotaByLane event.lane)
    (hroom : ∀ nowMs, clock ≤ nowMs → nowMs - runChargeRollingWindowMs ≤ event.timestampMs →
      laneTotal (p.windowCharges nowMs) event.lane + event.amount ≤
      policy.runChargeQuotaByLane event.lane) :
    Inv policy ((p.charge ref inspection event durable).atTime clock) where
  kept := by
    refine h.kept.charge hclock hnew (fun context hcontext => ?_) hroom
    rw [← h.accounts.quotaSpentBefore hcontext]
    exact haccount
  windows := h.windows.charge hclock hevent hnew
  accounts := by
    have hcharged : AccountInvariant (p.charge ref inspection event durable) :=
      h.accounts.charge hlane hamount hevent.nonneg
    exact ⟨hcharged.spent, hcharged.known, hcharged.contexts, hcharged.parents⟩
  calls := by
    intro call hcall
    have hmem : call ∈ p.calls := by
      change call ∈ (p.charge ref inspection event durable).calls at hcall
      rwa [Process.charge_calls] at hcall
    have hwf := h.calls call hmem
    refine ⟨hwf.event.later hclock, hwf.lane, hwf.amount, ?_⟩
    intro c hc hdrawn
    rcases List.mem_append.1 hc with hc | hc
    · exact hwf.drawn c hc hdrawn
    · rw [List.mem_singleton.1 hc] at hdrawn ⊢
      exact hcalls hdrawn call hmem

/-! ## The other steps -/

/-- The clock goes on, and what has left the window is pruned. -/
theorem Inv.prune (h : Inv policy p) (hclock : p.clock ≤ nowMs) :
    Inv policy ((p.prune nowMs).atTime nowMs) where
  kept := ⟨fun laterMs hlater => h.kept.window laterMs (hclock.trans hlater), h.kept.account,
    h.kept.once⟩
  windows := by
    refine ⟨fun c hc => (h.windows.events c hc).later hclock, ?_, ?_⟩
    · intro entry hmem
      exact h.windows.origin entry (List.mem_filter.1 hmem).1
    · intro laterMs hlater
      refine Eq.trans ?_ (h.windows.window laterMs (hclock.trans hlater))
      show (List.filter _ (List.filter _ _)) = List.filter _ _
      rw [List.filter_filter]
      refine List.filter_congr fun entry _ => ?_
      by_cases hin : laterMs - runChargeRollingWindowMs ≤ entry.timestampMs
      · have hnow : nowMs ≤ laterMs := hlater
        have hkept : nowMs - runChargeRollingWindowMs ≤ entry.timestampMs := by linarith
        simp only [hin, hkept, decide_true, Bool.and_self]
      · simp only [hin, decide_false, Bool.false_and]
  accounts := ⟨h.accounts.spent, h.accounts.known, h.accounts.contexts, h.accounts.parents⟩
  calls := by
    intro call hcall
    have hwf := h.calls call hcall
    exact ⟨hwf.event.later hclock, hwf.lane, hwf.amount, hwf.drawn⟩

theorem Inv.atTime (h : Inv policy p) (hclock : p.clock ≤ nowMs) :
    Inv policy (p.atTime nowMs) where
  kept := ⟨fun laterMs hlater => h.kept.window laterMs (hclock.trans hlater), h.kept.account,
    h.kept.once⟩
  windows := ⟨fun c hc => (h.windows.events c hc).later hclock, h.windows.origin,
    fun laterMs hlater => h.windows.window laterMs (hclock.trans hlater)⟩
  accounts := ⟨h.accounts.spent, h.accounts.known, h.accounts.contexts, h.accounts.parents⟩
  calls := by
    intro call hcall
    have hwf := h.calls call hcall
    exact ⟨hwf.event.later hclock, hwf.lane, hwf.amount, hwf.drawn⟩

theorem Inv.withCalls (h : Inv policy p) {calls : List (DurableCall κ)}
    (hcalls : ∀ call ∈ calls, WellFormedCall p call) : Inv policy { p with calls := calls } where
  kept := ⟨h.kept.window, h.kept.account, h.kept.once⟩
  windows := ⟨h.windows.events, h.windows.origin, h.windows.window⟩
  accounts := ⟨h.accounts.spent, h.accounts.known, h.accounts.contexts, h.accounts.parents⟩
  calls := by
    intro call hcall
    have hwf := hcalls call hcall
    exact ⟨hwf.event, hwf.lane, hwf.amount, hwf.drawn⟩

theorem Inv.erase (h : Inv policy p) (call : DurableCall κ) :
    Inv policy { p with calls := p.calls.erase call } :=
  h.withCalls fun c hc => h.calls c (List.mem_of_mem_erase hc)

/-- Changes to contexts and accounts that charge nothing. -/
theorem Inv.withContexts (h : Inv policy p) {contexts : List (RunChargeContextState κ)}
    {quotaAccounts : List (JsMap κ Rat)}
    (haccounts : AccountInvariant { p with contexts := contexts, quotaAccounts := quotaAccounts }) :
    Inv policy { p with contexts := contexts, quotaAccounts := quotaAccounts } where
  kept := ⟨h.kept.window, h.kept.account, h.kept.once⟩
  windows := ⟨h.windows.events, h.windows.origin, h.windows.window⟩
  accounts := haccounts
  calls := by
    intro call hcall
    have hwf := h.calls call hcall
    exact ⟨hwf.event, hwf.lane, hwf.amount, hwf.drawn⟩

theorem Covers.empty (spent : JsMap κ Rat) : Covers spent .empty := by
  intro lane hne
  exact absurd rfl hne

theorem getElem?_append_some {α : Type} {l : List α} {i : Nat} {a b : α} (h : l[i]? = some a) :
    (l ++ [b])[i]? = some a := by
  rw [List.getElem?_append_left (List.getElem?_eq_some_iff.1 h).1]
  exact h

/-- A new context, in a quota account that exists. -/
theorem AccountInvariant.openContext (h : AccountInvariant p)
    {context : RunChargeContextState κ} {account : JsMap κ Rat}
    (haccount : p.quotaAccounts[context.quotaAccount]? = some account)
    (hempty : context.account = createRunChargeAccount)
    (hparent : ∀ j, context.parent = some j → ∃ parent, p.contexts[j]? = some parent ∧
      parent.quotaAccount = context.quotaAccount) :
    AccountInvariant { p with contexts := p.contexts ++ [context] } := by
  refine ⟨h.spent, h.known, ?_, ?_⟩
  · intro i c hc
    rcases lt_or_ge i p.contexts.length with hi | hi
    · rw [List.getElem?_append_left hi] at hc
      exact h.contexts i c hc
    · rw [List.getElem?_append_right hi, List.getElem?_singleton] at hc
      obtain rfl : context = c := by
        split at hc
        · exact Option.some.inj hc
        · exact absurd hc (by simp)
      exact ⟨account, haccount, hempty ▸ Covers.empty account⟩
  · intro i c hc j hj
    rcases lt_or_ge i p.contexts.length with hi | hi
    · rw [List.getElem?_append_left hi] at hc
      obtain ⟨parent, hp, hsame⟩ := h.parents i c hc j hj
      exact ⟨parent, getElem?_append_some hp, hsame⟩
    · rw [List.getElem?_append_right hi, List.getElem?_singleton] at hc
      obtain rfl : context = c := by
        split at hc
        · exact Option.some.inj hc
        · exact absurd hc (by simp)
      obtain ⟨parent, hp, hsame⟩ := hparent j hj
      exact ⟨parent, getElem?_append_some hp, hsame⟩

/-- A new quota account, that nothing has been charged to. -/
theorem AccountInvariant.newAccount (h : AccountInvariant p) :
    AccountInvariant { p with quotaAccounts := p.quotaAccounts ++ [.empty] } := by
  refine ⟨?_, ?_, ?_, h.parents⟩
  · intro a account haccount lane
    rcases lt_or_ge a p.quotaAccounts.length with ha | ha
    · rw [List.getElem?_append_left ha] at haccount
      exact h.spent a account haccount lane
    · rw [List.getElem?_append_right ha, List.getElem?_singleton] at haccount
      split at haccount
      · obtain rfl := Option.some.inj haccount
        have hnone : p.accountCharges a = [] := by
          rw [Process.accountCharges, List.map_eq_nil_iff, List.filter_eq_nil_iff]
          intro c hc hcharged
          exact absurd (h.known c hc a (of_decide_eq_true hcharged)) (not_lt.2 ha)
        show (0 : Rat) = laneTotal (p.accountCharges a) lane
        rw [hnone]
        rfl
      · exact absurd haccount (by simp)
  · intro c hc a ha
    rw [List.length_append]
    exact (h.known c hc a ha).trans (Nat.lt_succ_self _)
  · intro i c hc
    obtain ⟨account, haccount, hcovers⟩ := h.contexts i c hc
    exact ⟨account, getElem?_append_some haccount, hcovers⟩

theorem Inv.runWithChargeContext (h : Inv policy p) (ref : Option Nat) (lane : κ) :
    Inv policy (p.runWithChargeContext ref lane) := by
  unfold Process.runWithChargeContext
  split
  · rename_i i parent hcontext
    obtain ⟨j, hj, hparent⟩ := Option.bind_eq_some_iff.1 hcontext
    obtain rfl := Option.some.inj hj
    obtain ⟨account, haccount, -⟩ := h.accounts.contexts i parent hparent
    refine h.withContexts (h.accounts.openContext haccount rfl ?_)
    intro j hj
    obtain rfl := Option.some.inj hj
    exact ⟨parent, hparent, rfl⟩
  · have hnew := h.accounts.newAccount
    have haccount : (p.quotaAccounts ++ [JsMap.empty])[p.quotaAccounts.length]? = some .empty :=
      List.getElem?_concat_length
    refine h.withContexts (hnew.openContext haccount rfl ?_)
    intro j hj
    exact absurd hj (by simp)

theorem Inv.foldBack (h : Inv policy p) (i : Nat) : Inv policy (p.foldBack i) := by
  unfold Process.foldBack
  split
  · exact h
  · rename_i child hchild
    split
    · exact h
    · rename_i j hj
      obtain ⟨parent, hparent, hsame⟩ := h.accounts.parents i child hchild j hj
      obtain ⟨account, haccount, hcovers⟩ := h.accounts.contexts i child hchild
      have hframe := frame_account
        (fun account => Process.foldChildAccountIntoParent account child.account) j
      refine h.withContexts ⟨h.accounts.spent, h.accounts.known, ?_, ?_⟩
      · intro k c hc
        rw [List.getElem?_modify] at hc
        obtain ⟨before, hbefore, rfl⟩ := Option.map_eq_some_iff.1 hc
        obtain ⟨account', haccount', hcovers'⟩ := h.accounts.contexts k before hbefore
        refine ⟨account', (congrArg _ (hframe k before).2).trans haccount', ?_⟩
        by_cases hk : j = k
        · subst hk
          obtain rfl : parent = before := Option.some.inj (hparent.symm.trans hbefore)
          obtain rfl : account = account' :=
            Option.some.inj (haccount.symm.trans (hsame ▸ haccount'))
          rw [if_pos rfl]
          exact hcovers'.foldBack hcovers
        · rw [if_neg hk]
          exact hcovers'
      · intro k c hc l hl
        rw [List.getElem?_modify] at hc
        obtain ⟨before, hbefore, rfl⟩ := Option.map_eq_some_iff.1 hc
        obtain ⟨parent', hparent', hsame'⟩ :=
          h.accounts.parents k before hbefore l ((hframe k before).1.symm.trans hl)
        rw [List.getElem?_modify, hparent']
        exact ⟨_, rfl, (hframe l parent').2.trans (hsame'.trans (hframe k before).2.symm)⟩

/-! ## Runs -/

variable {surface : String}

/-- What an inspection says of the charge it inspected. -/
theorem inspectChargeSurface_some {input : RunChargeChargeInput κ}
    {inspection : ChargeSurfaceInspection κ}
    (h : p.inspectChargeSurface policy ref surface input nowMs = .ok (some inspection)) :
    0 ≤ inspection.amount ∧
      inspection = p.inspect policy ref surface inspection.lane inspection.amount nowMs := by
  simp only [Process.inspectChargeSurface] at h
  split at h
  · exact absurd h (by simp)
  · split at h
    · exact absurd h (by simp)
    · split at h
      · exact absurd h (by simp)
      · obtain rfl := Option.some.inj (Except.ok.inj h)
        refine ⟨?_, rfl⟩
        show 0 ≤ normalizePositiveNumber _
        unfold normalizePositiveNumber
        split
        · split
          · exact le_refl _
          · exact (not_le.1 ‹_›).le
        · exact le_refl _

/-- The synchronous charge: it adds what it has just inspected. -/
theorem Inv.chargeSurface (h : Inv policy p) {input : RunChargeChargeInput κ} {uuid : String}
    (hclock : p.clock ≤ nowMs) (hlater : nowMs ≤ laterMs) (huuid : FreshUuid p uuid) :
    Inv policy
      ((p.chargeSurface policy ref surface input nowMs laterMs uuid).atTime laterMs) := by
  unfold Process.chargeSurface
  split
  · rename_i inspection hinspect
    obtain ⟨hnonneg, heq⟩ := inspectChargeSurface_some hinspect
    have hpruned := h.prune hclock
    split
    · rename_i hallowed
      rw [heq] at hallowed
      obtain ⟨hquota, hrolling⟩ := Bool.and_eq_true_iff.1 hallowed
      have hquota := of_decide_eq_true hquota
      have hrolling := of_decide_eq_true hrolling
      rw [h.windows.rolling hclock] at hrolling
      rw [← Process.charge_atTime _ ref inspection _ false nowMs]
      refine hpruned.charge hlater ⟨le_refl _, hnonneg, huuid.trimmed, huuid.notEmpty⟩ rfl rfl
        huuid.charged (fun _ call hcall => (huuid.inFlight call hcall).symm) hquota ?_
      intro laterMs' hlater' _
      have hanti := h.windows.anti hclock (hlater.trans hlater') inspection.lane
      exact (add_le_add_left hanti inspection.amount).trans hrolling
    · exact hpruned.atTime hlater
  · exact h.atTime (hclock.trans hlater)

theorem Inv.chargeSurfaceDurably (h : Inv policy p) {input : RunChargeChargeInput κ}
    {eventId : String} (hclock : p.clock ≤ nowMs) (hlater : nowMs ≤ laterMs)
    (hdrawn : JsString.trim eventId ∉ p.drawnIds) :
    Inv policy
      ((p.chargeSurfaceDurably policy ref surface input eventId nowMs laterMs).atTime laterMs) := by
  unfold Process.chargeSurfaceDurably
  split
  · exact h.atTime (hclock.trans hlater)
  · rename_i hnamed
    split
    · rename_i inspection hinspect
      have hpruned := (h.prune hclock).atTime hlater
      refine hpruned.withCalls fun call hcall => ?_
      rcases List.mem_cons.1 hcall with rfl | hcall
      · refine ⟨⟨le_refl _, (inspectChargeSurface_some hinspect).1, JsString.trim_trim _, hnamed⟩,
          rfl, rfl, ?_⟩
        intro c hc hnot heq
        refine hdrawn (List.mem_map.2 ⟨c, List.mem_filter.2 ⟨hc, ?_⟩, heq⟩)
        rw [hnot]
        rfl
      · exact hpruned.calls call hcall
    · exact h.atTime (hclock.trans hlater)

/-- A durable charge is committed, and still finds room. -/
theorem Inv.committed (h : Inv policy p) {call : DurableCall κ} {outcome : Process.CommitOutcome}
    (hclock : p.clock ≤ nowMs) (hcall : call ∈ p.calls)
    (hstill : StillAvailable policy p (.recorderAnswers call outcome nowMs)) :
    Inv policy ((p.committed call outcome).atTime nowMs) := by
  unfold Process.committed
  have herased := h.erase call
  split
  · exact herased.atTime hclock
  · rename_i houtcome
    obtain ⟨hquota, hrolling, hnew⟩ := hstill houtcome
    have hwf := h.calls call hcall
    refine herased.charge hclock (hwf.event.later hclock) hwf.lane hwf.amount ?_
      (fun hdrawn => absurd hdrawn (by simp)) hquota ?_
    · -- an id that was drawn is not in flight, and the recorder has not seen this one
      intro c hc heq
      cases hdurable : c.durable with
      | false => exact hwf.drawn c hc hdurable heq
      | true => exact hnew (List.mem_map.2 ⟨c, List.mem_filter.2 ⟨hc, hdurable⟩, heq⟩)
    · intro laterMs hlater hin
      have hnow : nowMs - runChargeRollingWindowMs ≤ call.event.timestampMs := by linarith
      have hspent := hrolling hnow
      change getRollingWindowSpentForLane p.rollingChargeWindowEntries _ nowMs + _ ≤ _ at hspent
      rw [h.windows.rolling hclock] at hspent
      have hanti := h.windows.anti hclock hlater call.event.lane
      exact (add_le_add_left hanti call.event.amount).trans hspent

theorem inv_next (h : Inv policy p) {action : ChargeAction κ} (henabled : action.Enabled p)
    (hstill : StillAvailable policy p action) : Inv policy (p.next policy action) := by
  cases action with
  | read nowMs => exact h.prune henabled
  | openContext ref lane => exact h.runWithChargeContext ref lane
  | foldBack i => exact h.foldBack i
  | charge ref surface input nowMs laterMs uuid =>
    exact h.chargeSurface henabled.1 henabled.2.1 henabled.2.2
  | chargeDurably ref surface input eventId nowMs laterMs =>
    exact h.chargeSurfaceDurably henabled.1 henabled.2.1 henabled.2.2
  | probeAnswers call outcome nowMs =>
    show Inv policy ((p.probed call outcome).atTime nowMs)
    unfold Process.probed
    split
    · exact (h.erase call).atTime henabled.1
    · refine Inv.atTime (h.withCalls fun c hc => ?_) henabled.1
      rcases List.mem_cons.1 hc with rfl | hc
      · have hwf := h.calls call henabled.2.1
        exact ⟨hwf.event, hwf.lane, hwf.amount, hwf.drawn⟩
      · exact h.calls c (List.mem_of_mem_erase hc)
  | recorderAnswers call outcome nowMs => exact h.committed henabled.1 henabled.2.1 hstill
  | fails call => exact h.erase call

/-- **The quota is kept** in every run in which every durable charge still finds room when it is
committed, and the recorder answers `recorded` once for an id. -/
theorem quota_kept (policy : ChargePolicyConfig κ) {p : Process κ}
    (h : (chargeSystem policy (StillAvailable policy)).Reachable p) : QuotaKept policy p := by
  have hinv : Inv policy p := by
    refine System.invariant (inv_init policy) ?_ h
    rintro s t hs ⟨action, henabled, hstill, rfl⟩
    exact inv_next hs henabled hstill
  exact hinv.kept

/-! ## Charges that do not overlap, and charges that do -/

/-- A quota of 1 in every lane. -/
def unitPolicy : ChargePolicyConfig String where
  surfaceCosts := .empty
  runChargeQuotaByLane := fun _ => 1
  quota_nonneg := fun _ => by decide

def unitInput : RunChargeChargeInput String where
  amount := some (.finite 1)
  chargePolicy := true
  lane := some "main"
  recordZeroCost := false

/-- The process after one more action. -/
def after (p : Process String) (action : ChargeAction String) : Process String :=
  p.next unitPolicy action

/-- A charge of 1 that found the account and the window empty. -/
def unitCall (eventId : String) (stage : CallStage) : DurableCall String :=
  let inspection := (after .init (.openContext none "main")).inspect unitPolicy (some 0) "llm"
    "main" 1 0
  ⟨some 0, inspection, Process.createChargeEvent eventId inspection 0, stage⟩

/-- One charge, from its call to its commit. -/
def oneCharged : Process String :=
  after (after (after (after .init (.openContext none "main"))
    (.chargeDurably (some 0) "llm" unitInput "a" 0 0))
    (.probeAnswers (unitCall "a" .probing) .absent 0))
    (.recorderAnswers (unitCall "a" .recording) .recorded 0)

theorem quota_kept_oneCharged :
    (chargeSystem unitPolicy (StillAvailable unitPolicy)).Reachable oneCharged ∧
      laneTotal (oneCharged.windowCharges 0) "main" = 1 ∧ QuotaKept unitPolicy oneCharged := by
  have step : ∀ {p : Process String} (action : ChargeAction String),
      (chargeSystem unitPolicy (StillAvailable unitPolicy)).Reachable p → action.Enabled p →
        StillAvailable unitPolicy p action →
        (chargeSystem unitPolicy (StillAvailable unitPolicy)).Reachable (after p action) :=
    fun _ h henabled hstill => h.next ⟨_, henabled, hstill, rfl⟩
  have hopened := step (.openContext none "main") Relation.ReflTransGen.refl trivial trivial
  have hcalled := step (.chargeDurably (some 0) "llm" unitInput "a" 0 0) hopened
    ⟨by decide +kernel, by decide +kernel, by decide +kernel⟩ trivial
  have hprobed := step (.probeAnswers (unitCall "a" .probing) .absent 0) hcalled
    ⟨by decide +kernel, by decide +kernel, rfl⟩ trivial
  have hreachable : (chargeSystem unitPolicy (StillAvailable unitPolicy)).Reachable oneCharged :=
    step _ hprobed ⟨by decide +kernel, by decide +kernel, rfl⟩
      fun _ => ⟨by decide +kernel, fun _ => by decide +kernel, by decide +kernel⟩
  exact ⟨hreachable, by decide +kernel, quota_kept unitPolicy hreachable⟩

/-- Both charges have inspected the quota before either of them is added. -/
def bothInspected : Process String :=
  after (after (after .init (.openContext none "main"))
    (.chargeDurably (some 0) "llm" unitInput "a" 0 0))
    (.chargeDurably (some 0) "llm" unitInput "b" 0 0)

def bothProbed : Process String :=
  after (after bothInspected (.probeAnswers (unitCall "a" .probing) .absent 0))
    (.probeAnswers (unitCall "b" .probing) .absent 0)

def bothCharged : Process String :=
  after (after bothProbed (.recorderAnswers (unitCall "a" .recording) .recorded 0))
    (.recorderAnswers (unitCall "b" .recording) .recorded 0)

theorem reachable_bothCharged :
    (chargeSystem unitPolicy fun _ _ => True).Reachable bothCharged := by
  have step : ∀ {p : Process String} (action : ChargeAction String),
      (chargeSystem unitPolicy fun _ _ => True).Reachable p → action.Enabled p →
        (chargeSystem unitPolicy fun _ _ => True).Reachable (after p action) :=
    fun _ h henabled => h.next ⟨_, henabled, trivial, rfl⟩
  have hopened := step (.openContext none "main") Relation.ReflTransGen.refl trivial
  have hinspected : (chargeSystem unitPolicy fun _ _ => True).Reachable bothInspected :=
    step _ (step _ hopened ⟨by decide +kernel, by decide +kernel, by decide +kernel⟩)
      ⟨by decide +kernel, by decide +kernel, by decide +kernel⟩
  have hprobed : (chargeSystem unitPolicy fun _ _ => True).Reachable bothProbed :=
    step _ (step _ hinspected ⟨by decide +kernel, by decide +kernel, rfl⟩)
      ⟨by decide +kernel, by decide +kernel, rfl⟩
  exact step _ (step _ hprobed ⟨by decide +kernel, by decide +kernel, rfl⟩)
    ⟨by decide +kernel, by decide +kernel, rfl⟩

/-- Two durable charges of 1, in flight at once, are both added to a quota of 1. -/
theorem overlapping_charges_exceed :
    ¬ ∀ p, (chargeSystem unitPolicy fun _ _ => True).Reachable p → QuotaKept unitPolicy p := by
  intro h
  have hkept := (h bothCharged reachable_bothCharged).window 0 (by decide +kernel) "main"
  exact absurd hkept (by decide +kernel)

end Psfn.Charge
