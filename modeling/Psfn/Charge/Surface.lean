import Psfn.Charge.Window
import Psfn.Lib.Transition

/-!
# Run charges — charging a surface

`shared/telemetry/run-charge.ts`: `inspectChargeSurface`, `chargeSurface` and
`chargeSurfaceDurably`, over one process. A durable charge is a call in flight: it has inspected
the quota when it was made, awaits the probe, and then the recorder. Everything else a process
does may happen in between.

What a charge has come to is also kept as a list of the charges made; the code reads nothing of
it.
-/

namespace Psfn.Charge

open Psfn.Lib

variable {κ : Type} [DecidableEq κ]

/-! ## Policy, accounts and contexts -/

structure ChargePolicyConfig (κ : Type) where
  surfaceCosts         : JsMap String JsNumber
  runChargeQuotaByLane : κ → Rat
  quota_nonneg         : ∀ lane, 0 ≤ runChargeQuotaByLane lane

structure RunChargeAccount (κ : Type) where
  spentByLane       : JsMap κ Rat
  directSpentByLane : JsMap κ Rat
  foldedSpentByLane : JsMap κ Rat

def createRunChargeAccount : RunChargeAccount κ where
  spentByLane := .empty
  directSpentByLane := .empty
  foldedSpentByLane := .empty

/-- A context refers to the quota account of its root run, and to the context it was opened in. -/
structure RunChargeContextState (κ : Type) where
  lane         : κ
  parent       : Option Nat
  account      : RunChargeAccount κ
  quotaAccount : Nat

structure RunChargeChargeInput (κ : Type) where
  amount         : Option JsNumber
  /-- The call passes the charge policy itself. -/
  chargePolicy   : Bool
  lane           : Option κ
  recordZeroCost : Bool

structure ChargeSurfaceInspection (κ : Type) where
  lane                         : κ
  surface                      : String
  amount                       : Rat
  quota                        : Rat
  spentBefore                  : Rat
  spentAfter                   : Rat
  remainingBefore              : Rat
  remainingAfter               : Rat
  quotaSpentBefore             : Rat
  quotaSpentAfter              : Rat
  rollingWindowSpentBefore     : Rat
  rollingWindowSpentAfter      : Rat
  rollingWindowRemainingBefore : Rat
  rollingWindowRemainingAfter  : Rat
  allowed                      : Bool
deriving DecidableEq

inductive CallStage where
  | probing
  | recording
deriving DecidableEq

/-- A durable charge in flight. -/
structure DurableCall (κ : Type) where
  context    : Option Nat
  inspection : ChargeSurfaceInspection κ
  event      : RunChargeEvent κ
  stage      : CallStage
deriving DecidableEq

/-- A charge that was made, and the quota account it was made to. -/
structure Charge (κ : Type) where
  event        : RunChargeEvent κ
  quotaAccount : Option Nat
  durable      : Bool

structure Process (κ : Type) where
  clock                      : Rat
  rollingChargeWindowEntries : List (RollingChargeWindowEntry κ)
  contexts                   : List (RunChargeContextState κ)
  quotaAccounts              : List (JsMap κ Rat)
  calls                      : List (DurableCall κ)
  charges                    : List (Charge κ)

def Process.init : Process κ where
  clock := 0
  rollingChargeWindowEntries := []
  contexts := []
  quotaAccounts := []
  calls := []
  charges := []

/-! ## Inspection -/

def normalizePositiveNumber : Option JsNumber → Rat
  | some (.finite q) => if q ≤ 0 then 0 else q
  | _ => 0

/-- The sum of `getRollingWindowSpentForLane`; it leaves the window pruned. -/
def getRollingWindowSpentForLane (entries : List (RollingChargeWindowEntry κ)) (lane : κ)
    (nowMs : Rat) : Rat :=
  (pruneRollingChargeWindow nowMs entries).foldl (fun total entry =>
    if nowMs < entry.timestampMs ∨ entry.lane ≠ lane then total else total + entry.amount) 0

namespace Process

def context (p : Process κ) (ref : Option Nat) : Option (RunChargeContextState κ) :=
  ref.bind fun i => p.contexts[i]?

def quotaAccount (p : Process κ) (context : RunChargeContextState κ) : JsMap κ Rat :=
  (p.quotaAccounts[context.quotaAccount]?).getD .empty

/-- `context?.account.spentByLane[lane] ?? 0`. -/
def spentBefore (p : Process κ) (ref : Option Nat) (lane : κ) : Rat :=
  ((p.context ref).bind fun context => context.account.spentByLane.get lane).getD 0

/-- `context?.quotaAccount.spentByLane[lane] ?? spentBefore`. -/
def quotaSpentBefore (p : Process κ) (ref : Option Nat) (lane : κ) : Rat :=
  ((p.context ref).bind fun context => (p.quotaAccount context).get lane).getD
    (p.spentBefore ref lane)

def inspect (policy : ChargePolicyConfig κ) (p : Process κ) (ref : Option Nat) (surface : String)
    (lane : κ) (amount nowMs : Rat) : ChargeSurfaceInspection κ :=
  let quota := policy.runChargeQuotaByLane lane
  let spentBefore := p.spentBefore ref lane
  let quotaSpentBefore := p.quotaSpentBefore ref lane
  let rollingWindowSpentBefore :=
    getRollingWindowSpentForLane p.rollingChargeWindowEntries lane nowMs
  { lane, surface, amount, quota, spentBefore
    spentAfter := spentBefore + amount
    remainingBefore := max 0 (quota - quotaSpentBefore)
    remainingAfter := max 0 (quota - (quotaSpentBefore + amount))
    quotaSpentBefore
    quotaSpentAfter := quotaSpentBefore + amount
    rollingWindowSpentBefore
    rollingWindowSpentAfter := rollingWindowSpentBefore + amount
    rollingWindowRemainingBefore := max 0 (quota - rollingWindowSpentBefore)
    rollingWindowRemainingAfter := max 0 (quota - (rollingWindowSpentBefore + amount))
    allowed := quotaSpentBefore + amount ≤ quota && rollingWindowSpentBefore + amount ≤ quota }

def inspectChargeSurface (policy : ChargePolicyConfig κ) (p : Process κ) (ref : Option Nat)
    (surface : String) (input : RunChargeChargeInput κ) (nowMs : Rat) :
    Except String (Option (ChargeSurfaceInspection κ)) :=
  let context := p.context ref
  if !input.chargePolicy && context.isNone then .ok none
  else
    match input.lane.or (context.map (·.lane)) with
    | none => .error s!"Charge surface \"{surface}\" requires a runtime lane"
    | some lane =>
      let amount := normalizePositiveNumber (input.amount.or (policy.surfaceCosts.get surface))
      if amount = 0 && !input.recordZeroCost then .ok none
      else .ok (some (p.inspect policy ref surface lane amount nowMs))

/-! ## Charging -/

/-- The window after an inspection. -/
def prune (p : Process κ) (nowMs : Rat) : Process κ :=
  { p with rollingChargeWindowEntries :=
      pruneRollingChargeWindow nowMs p.rollingChargeWindowEntries }

def addToAccount (account : RunChargeAccount κ) (lane : κ) (amount : Rat) : RunChargeAccount κ :=
  { account with
    spentByLane := addSpentByLane account.spentByLane lane amount
    directSpentByLane := addSpentByLane account.directSpentByLane lane amount }

/-- The additions to the accounts of the context a charge is made in. -/
def addSpent (p : Process κ) (ref : Option Nat) (lane : κ) (amount : Rat) : Process κ :=
  match ref, p.context ref with
  | some i, some context =>
    { p with
      contexts := p.contexts.modify i fun c => { c with account := addToAccount c.account lane amount }
      quotaAccounts := p.quotaAccounts.modify context.quotaAccount fun spent =>
        addSpentByLane spent lane amount }
  | _, _ => p

/-- `recordRollingChargeEvent` on the window of the process. -/
def record (p : Process κ) (event : RunChargeEvent κ) : Process κ :=
  match recordRollingChargeEvent p.rollingChargeWindowEntries event with
  | .ok entries => { p with rollingChargeWindowEntries := entries }
  | .error _ => p

/-- The charge itself, at the end of `chargeSurface` and of `chargeSurfaceDurably`. -/
def charge (p : Process κ) (ref : Option Nat) (inspection : ChargeSurfaceInspection κ)
    (event : RunChargeEvent κ) (durable : Bool) : Process κ :=
  let charged := (p.addSpent ref inspection.lane inspection.amount).record event
  { charged with
    charges := p.charges ++ [⟨event, (p.context ref).map (·.quotaAccount), durable⟩] }

def createChargeEvent (eventId : String) (inspection : ChargeSurfaceInspection κ)
    (timestampMs : Rat) : RunChargeEvent κ where
  eventId := eventId
  timestampMs := timestampMs
  lane := inspection.lane
  surface := inspection.surface
  amount := inspection.amount

/-- `uuid` is what `randomUUID` returned, `laterMs` the second reading of the clock. -/
def chargeSurface (policy : ChargePolicyConfig κ) (p : Process κ) (ref : Option Nat)
    (surface : String) (input : RunChargeChargeInput κ) (nowMs laterMs : Rat) (uuid : String) :
    Process κ :=
  match p.inspectChargeSurface policy ref surface input nowMs with
  | .ok (some inspection) =>
    if inspection.allowed then
      (p.prune nowMs).charge ref inspection (createChargeEvent uuid inspection laterMs) false
    else p.prune nowMs
  | _ => p

/-- `chargeSurfaceDurably` up to the await of the probe. -/
def chargeSurfaceDurably (policy : ChargePolicyConfig κ) (p : Process κ) (ref : Option Nat)
    (surface : String) (input : RunChargeChargeInput κ) (eventId : String) (nowMs laterMs : Rat) :
    Process κ :=
  if JsString.trim eventId = "" then p
  else
    match p.inspectChargeSurface policy ref surface input nowMs with
    | .ok (some inspection) =>
      { p.prune nowMs with
        calls := ⟨ref, inspection, createChargeEvent (JsString.trim eventId) inspection laterMs,
          .probing⟩ :: p.calls }
    | _ => p

inductive ProbeOutcome where
  | absent
  | replayed
deriving DecidableEq

inductive CommitOutcome where
  | recorded
  | replayed
  | void
deriving DecidableEq

/-- The call goes on after the probe has answered. -/
def probed (p : Process κ) (call : DurableCall κ) (outcome : ProbeOutcome) : Process κ :=
  let rest := p.calls.erase call
  if outcome = .replayed || !call.inspection.allowed then { p with calls := rest }
  else { p with calls := { call with stage := .recording } :: rest }

/-- The call goes on after the recorder has answered. -/
def committed (p : Process κ) (call : DurableCall κ) (outcome : CommitOutcome) : Process κ :=
  let rest := { p with calls := p.calls.erase call }
  if outcome = .replayed then rest else rest.charge call.context call.inspection call.event true

/-! ## Contexts -/

/-- `runWithChargeContext` up to the call of `fn`. -/
def runWithChargeContext (p : Process κ) (ref : Option Nat) (lane : κ) : Process κ :=
  match ref, p.context ref with
  | some i, some parent =>
    { p with contexts := p.contexts ++ [⟨lane, some i, createRunChargeAccount,
        parent.quotaAccount⟩] }
  | _, _ =>
    { p with
      contexts := p.contexts ++ [⟨lane, none, createRunChargeAccount, p.quotaAccounts.length⟩]
      quotaAccounts := p.quotaAccounts ++ [.empty] }

def foldAccount (parent : RunChargeAccount κ) (lane : κ) (amount : Rat) : RunChargeAccount κ :=
  { parent with
    spentByLane := addSpentByLane parent.spentByLane lane amount
    foldedSpentByLane := addSpentByLane parent.foldedSpentByLane lane amount }

def foldChildAccountIntoParent (parent child : RunChargeAccount κ) : RunChargeAccount κ :=
  child.spentByLane.entries.foldl (fun account spent => foldAccount account spent.1 spent.2) parent

/-- `fn` of the context has returned; runs may do this more often than the code. -/
def foldBack (p : Process κ) (i : Nat) : Process κ :=
  match p.contexts[i]? with
  | none => p
  | some child =>
    match child.parent with
    | none => p
    | some j =>
      { p with contexts := p.contexts.modify j fun c =>
          { c with account := foldChildAccountIntoParent c.account child.account } }

end Process

/-! ## Runs -/

inductive ChargeAction (κ : Type) where
  /-- The clock goes on, and perhaps a caller asks what is left. -/
  | read (nowMs : Rat)
  | openContext (ref : Option Nat) (lane : κ)
  | foldBack (i : Nat)
  | charge (ref : Option Nat) (surface : String) (input : RunChargeChargeInput κ)
      (nowMs laterMs : Rat) (uuid : String)
  | chargeDurably (ref : Option Nat) (surface : String) (input : RunChargeChargeInput κ)
      (eventId : String) (nowMs laterMs : Rat)
  | probeAnswers (call : DurableCall κ) (outcome : Process.ProbeOutcome) (nowMs : Rat)
  | recorderAnswers (call : DurableCall κ) (outcome : Process.CommitOutcome) (nowMs : Rat)
  /-- The probe or the recorder rejects. -/
  | fails (call : DurableCall κ)

namespace Process

def atTime (p : Process κ) (nowMs : Rat) : Process κ := { p with clock := nowMs }

def next (policy : ChargePolicyConfig κ) (p : Process κ) : ChargeAction κ → Process κ
  | .read nowMs => (p.prune nowMs).atTime nowMs
  | .openContext ref lane => p.runWithChargeContext ref lane
  | .foldBack i => p.foldBack i
  | .charge ref surface input nowMs laterMs uuid =>
    (p.chargeSurface policy ref surface input nowMs laterMs uuid).atTime laterMs
  | .chargeDurably ref surface input eventId nowMs laterMs =>
    (p.chargeSurfaceDurably policy ref surface input eventId nowMs laterMs).atTime laterMs
  | .probeAnswers call outcome nowMs => (p.probed call outcome).atTime nowMs
  | .recorderAnswers call outcome nowMs => (p.committed call outcome).atTime nowMs
  | .fails call => { p with calls := p.calls.erase call }

/-- The ids of the charges that were not durable: those `randomUUID` drew. -/
def drawnIds (p : Process κ) : List String :=
  (p.charges.filter fun c => !c.durable).map (·.event.eventId)

/-- The ids the recorder has answered `recorded` for. -/
def recordedIds (p : Process κ) : List String :=
  (p.charges.filter fun c => c.durable).map (·.event.eventId)

end Process

/-- A string as `randomUUID` returns them, not drawn and not in use before. -/
structure FreshUuid (p : Process κ) (uuid : String) : Prop where
  trimmed  : JsString.trim uuid = uuid
  notEmpty : uuid ≠ ""
  charged  : ∀ c ∈ p.charges, c.event.eventId ≠ uuid
  inFlight : ∀ call ∈ p.calls, call.event.eventId ≠ uuid

/-- The clock does not go back, only a call in flight is answered, and `randomUUID` draws no id
that is used anywhere else. -/
def ChargeAction.Enabled (p : Process κ) : ChargeAction κ → Prop
  | .read nowMs => p.clock ≤ nowMs
  | .openContext .. => True
  | .foldBack _ => True
  | .charge _ _ _ nowMs laterMs uuid => p.clock ≤ nowMs ∧ nowMs ≤ laterMs ∧ FreshUuid p uuid
  | .chargeDurably _ _ _ eventId nowMs laterMs =>
    p.clock ≤ nowMs ∧ nowMs ≤ laterMs ∧ JsString.trim eventId ∉ p.drawnIds
  | .probeAnswers call _ nowMs => p.clock ≤ nowMs ∧ call ∈ p.calls ∧ call.stage = .probing
  | .recorderAnswers call _ nowMs => p.clock ≤ nowMs ∧ call ∈ p.calls ∧ call.stage = .recording
  | .fails call => call ∈ p.calls

/-- Any interleaving of the allowed actions. -/
def chargeSystem (policy : ChargePolicyConfig κ) (allowed : Process κ → ChargeAction κ → Prop) :
    System (Process κ) where
  init := .init
  step p p' := ∃ action, action.Enabled p ∧ allowed p action ∧ p' = p.next policy action

end Psfn.Charge
