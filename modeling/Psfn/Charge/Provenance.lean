import Psfn.Charge.Quota
import Psfn.Lib.SumOf

/-!
# Run charges — the lineage

`shared/telemetry/run-charge.ts`: `runWithChargeContext` and what a run leaves with its parent when
it settles. A run that returns is folded into its parent; a run that throws is recorded with it as
an orphan, if it has spent anything. Siblings run side by side; a run settles after its own children.
A snapshot is taken by value, so the copies of `cloneLineageProvenance` are the records themselves.

Beside the state, the charges that were made are kept, and the accounts of the runs that were not
recorded; the code reads neither.

* `settle_sound` — what is left of a run's spend when it settles;
* `lineage_conserved_iff` — of a finished tree the root's spend and the orphans' add up to the
  charges exactly when no orphan was under a run that was not recorded;
* `lineage_dropped` — such a run; what was charged under it is in no record.
-/

namespace Psfn.Charge

open Psfn.Lib

/-! ## Records -/

inductive Disposition where
  | folded
  | orphaned
deriving DecidableEq

structure RunChargeLineage where
  runId       : String
  rootRunId   : String
  parentRunId : Option String

/-- What is kept of a run that has settled. -/
inductive RunChargeLineageProvenance (κ : Type) where
  | mk (disposition : Disposition) (lineage : RunChargeLineage)
      (spentByLane directSpentByLane foldedSpentByLane : JsMap κ Rat)
      (foldBacks orphanedChildren : List (RunChargeLineageProvenance κ))

/-- An account with the records of the runs under it. -/
structure LineageAccount (κ : Type) extends RunChargeAccount κ where
  foldBacks        : List (RunChargeLineageProvenance κ)
  orphanedChildren : List (RunChargeLineageProvenance κ)

variable {κ : Type}

def createLineageAccount : LineageAccount κ where
  toRunChargeAccount := createRunChargeAccount
  foldBacks := []
  orphanedChildren := []

def snapshotAccountLineage (lineage : RunChargeLineage) (account : LineageAccount κ)
    (disposition : Disposition) : RunChargeLineageProvenance κ :=
  .mk disposition lineage account.spentByLane account.directSpentByLane account.foldedSpentByLane
    account.foldBacks account.orphanedChildren

/-- `Object.values(childSnapshot.spentByLane).some((amount) => amount > 0)`. -/
def RunChargeAccount.hasSpend (account : RunChargeAccount κ) : Bool :=
  account.spentByLane.values.any fun amount => 0 < amount

def recordOrphanedChildAccount (parent child : LineageAccount κ)
    (childLineage : RunChargeLineage) : LineageAccount κ :=
  if child.hasSpend then
    { parent with
      orphanedChildren :=
        parent.orphanedChildren ++ [snapshotAccountLineage childLineage child .orphaned] }
  else parent

variable [DecidableEq κ]

def foldChildAccountIntoParent (parent child : LineageAccount κ) (childLineage : RunChargeLineage) :
    LineageAccount κ where
  toRunChargeAccount :=
    Process.foldChildAccountIntoParent parent.toRunChargeAccount child.toRunChargeAccount
  foldBacks := parent.foldBacks ++ [snapshotAccountLineage childLineage child .folded]
  orphanedChildren := parent.orphanedChildren

def chargeAccount (lane : κ) (amount : Rat) (account : LineageAccount κ) : LineageAccount κ :=
  { account with
    toRunChargeAccount := Process.addToAccount account.toRunChargeAccount lane amount }

/-! ## Runs of a tree -/

structure RunChargeContextInput (κ : Type) where
  lane        : κ
  runId       : Option String
  parentRunId : Option String
  rootRunId   : Option String

/-- `value?.trim()`, if it is not empty. -/
def trimmedId (value : Option String) : Option String :=
  (value.map JsString.trim).filter fun id => id ≠ ""

/-- `fallback` is the id that the request context or `randomUUID` gives. -/
def resolveRunId (input : RunChargeContextInput κ) (fallback : String) : String :=
  (trimmedId input.runId).getD fallback

def resolveLineage (parent : Option RunChargeLineage) (input : RunChargeContextInput κ)
    (runId : String) : RunChargeLineage :=
  let parentRunId := (trimmedId input.parentRunId).or (parent.map (·.runId))
  { runId
    rootRunId :=
      (((trimmedId input.rootRunId).or (parent.map (·.rootRunId))).or parentRunId).getD runId
    parentRunId }

/-- A run, by the number of the run that it was opened in. -/
structure LineageRun (κ : Type) where
  lane    : κ
  lineage : RunChargeLineage
  parent  : Option Nat
  account : LineageAccount κ
  settled : Bool

/-- The runs of one tree, which share the quota account of the root. -/
structure ChargeTree (κ : Type) where
  runs             : List (LineageRun κ)
  quotaSpentByLane : JsMap κ Rat
  charged          : List (κ × Rat)
  dropped          : List (LineageAccount κ)

inductive Outcome where
  | returned
  | threw
deriving DecidableEq

inductive LineageAction (κ : Type) where
  | runWithChargeContext (parent : Nat) (input : RunChargeContextInput κ) (fallback : String)
  /-- A charge that was allowed; `amount` and `lane` as they were passed. -/
  | charge (run : Nat) (lane : Option κ) (amount : Option JsNumber)
  | settle (run : Nat) (outcome : Outcome)

namespace ChargeTree

/-- `runWithChargeContext` outside of any run. -/
def root (input : RunChargeContextInput κ) (fallback : String) : ChargeTree κ where
  runs := [⟨input.lane, resolveLineage none input (resolveRunId input fallback), none,
    createLineageAccount, false⟩]
  quotaSpentByLane := .empty
  charged := []
  dropped := []

def modifyAccount (t : ChargeTree κ) (i : Nat) (f : LineageAccount κ → LineageAccount κ) :
    ChargeTree κ :=
  { t with runs := t.runs.modify i fun run => { run with account := f run.account } }

def openRun (t : ChargeTree κ) (j : Nat) (parent : LineageRun κ)
    (input : RunChargeContextInput κ) (fallback : String) : ChargeTree κ :=
  { t with runs := t.runs ++ [⟨input.lane,
      resolveLineage (some parent.lineage) input (resolveRunId input fallback), some j,
      createLineageAccount, false⟩] }

/-- The additions of `chargeSurface`. -/
def charge (t : ChargeTree κ) (i : Nat) (lane : κ) (amount : Rat) : ChargeTree κ :=
  { t.modifyAccount i (chargeAccount lane amount) with
    quotaSpentByLane := addSpentByLane t.quotaSpentByLane lane amount
    charged := t.charged ++ [(lane, amount)] }

/-- What a run that has settled leaves with its parent. -/
def leave (child : LineageRun κ) (outcome : Outcome) (parent : LineageAccount κ) :
    LineageAccount κ :=
  match outcome with
  | .returned => foldChildAccountIntoParent parent child.account child.lineage
  | .threw => recordOrphanedChildAccount parent child.account child.lineage

def settleInto (t : ChargeTree κ) (j : Nat) (child : LineageRun κ) (outcome : Outcome) :
    ChargeTree κ :=
  { t.modifyAccount j (leave child outcome) with
    dropped :=
      if outcome = .threw && !child.account.hasSpend then t.dropped ++ [child.account]
      else t.dropped }

def markSettled (t : ChargeTree κ) (i : Nat) : ChargeTree κ :=
  { t with runs := t.runs.modify i fun run => { run with settled := true } }

/-- The end of `runWithChargeContext`; a root run has no parent to leave anything with. -/
def settle (t : ChargeTree κ) (i : Nat) (run : LineageRun κ) (outcome : Outcome) : ChargeTree κ :=
  match run.parent with
  | none => t.markSettled i
  | some j => (t.settleInto j run outcome).markSettled i

def isOpen (t : ChargeTree κ) (i : Nat) : Prop :=
  ∃ run, t.runs[i]? = some run ∧ run.settled = false

/-- Runs are opened in open runs and charge while they are open; a run settles after those that were
opened in it. -/
def Enabled (t : ChargeTree κ) : LineageAction κ → Prop
  | .runWithChargeContext j _ _ => t.isOpen j
  | .charge i _ _ => t.isOpen i
  | .settle i _ => t.isOpen i ∧ ∀ run ∈ t.runs, run.parent = some i → run.settled = true

def next (t : ChargeTree κ) : LineageAction κ → ChargeTree κ
  | .runWithChargeContext j input fallback =>
    match t.runs[j]? with
    | none => t
    | some parent => t.openRun j parent input fallback
  | .charge i lane amount =>
    match t.runs[i]? with
    | none => t
    | some run => t.charge i (lane.getD run.lane) (normalizePositiveNumber amount)
  | .settle i outcome =>
    match t.runs[i]? with
    | none => t
    | some run => t.settle i run outcome

end ChargeTree

/-- Any interleaving of the runs of one tree. -/
def lineageSystem (input : RunChargeContextInput κ) (fallback : String) :
    System (ChargeTree κ) where
  init := .root input fallback
  step t t' := ∃ action, t.Enabled action ∧ t' = t.next action

/-! ## What the records say -/

mutual

/-- The spend of the orphaned records in a record. -/
def recordOrphaned (lane : κ) : RunChargeLineageProvenance κ → Rat
  | .mk disposition _ spentByLane _ _ foldBacks orphanedChildren =>
    (if disposition = .orphaned then (spentByLane.get lane).getD 0 else 0) +
      (recordsOrphaned lane foldBacks + recordsOrphaned lane orphanedChildren)

def recordsOrphaned (lane : κ) : List (RunChargeLineageProvenance κ) → Rat
  | [] => 0
  | record :: rest => recordOrphaned lane record + recordsOrphaned lane rest

end

mutual

/-- There is an orphaned record in the record. -/
def RunChargeLineageProvenance.hasOrphan : RunChargeLineageProvenance κ → Bool
  | .mk disposition _ _ _ _ foldBacks orphanedChildren =>
    disposition = .orphaned || (haveOrphan foldBacks || haveOrphan orphanedChildren)

def haveOrphan : List (RunChargeLineageProvenance κ) → Bool
  | [] => false
  | record :: rest => record.hasOrphan || haveOrphan rest

end

mutual

/-- No record has spent less than nothing, and an orphan has spent something. -/
def RunChargeLineageProvenance.Positive : RunChargeLineageProvenance κ → Prop
  | .mk disposition _ spentByLane _ _ foldBacks orphanedChildren =>
    (∀ lane, 0 ≤ (spentByLane.get lane).getD 0) ∧
      (disposition = .orphaned → ∃ lane, 0 < (spentByLane.get lane).getD 0) ∧
        AllPositive foldBacks ∧ AllPositive orphanedChildren

def AllPositive : List (RunChargeLineageProvenance κ) → Prop
  | [] => True
  | record :: rest => record.Positive ∧ AllPositive rest

end

mutual

theorem RunChargeLineageProvenance.Positive.orphaned :
    ∀ {record : RunChargeLineageProvenance κ}, record.Positive →
      (∀ lane, 0 ≤ recordOrphaned lane record) ∧
        ((∀ lane, recordOrphaned lane record = 0) ↔ record.hasOrphan = false)
  | .mk disposition _ spentByLane _ _ foldBacks orphanedChildren, h => by
    obtain ⟨hspent, hsome, hfold, horphan⟩ := h
    obtain ⟨hfold₀, hfoldIff⟩ := hfold.orphaned
    obtain ⟨horphan₀, horphanIff⟩ := horphan.orphaned
    have hsplit : (∀ lane, recordsOrphaned lane foldBacks +
          recordsOrphaned lane orphanedChildren = 0) ↔
        (∀ lane, recordsOrphaned lane foldBacks = 0) ∧
          ∀ lane, recordsOrphaned lane orphanedChildren = 0 := by
      constructor
      · intro hzero
        refine ⟨fun lane => ?_, fun lane => ?_⟩ <;>
          linarith [hzero lane, hfold₀ lane, horphan₀ lane]
      · rintro ⟨hzero, hzero'⟩ lane
        rw [hzero, hzero', add_zero]
    cases disposition with
    | folded =>
      refine ⟨fun lane => ?_, ?_⟩
      · simp only [recordOrphaned, reduceCtorEq, if_false]
        linarith [hfold₀ lane, horphan₀ lane]
      · simp only [recordOrphaned, RunChargeLineageProvenance.hasOrphan, reduceCtorEq, if_false,
          zero_add, decide_false, Bool.false_or, Bool.or_eq_false_iff]
        rw [hsplit, hfoldIff, horphanIff]
    | orphaned =>
      refine ⟨fun lane => ?_, ?_⟩
      · simp only [recordOrphaned, if_true]
        linarith [hspent lane, hfold₀ lane, horphan₀ lane]
      · obtain ⟨lane, hpos⟩ := hsome rfl
        refine ⟨fun hzero => ?_, fun hfalse => ?_⟩
        · have hlane := hzero lane
          simp only [recordOrphaned, if_true] at hlane
          linarith [hfold₀ lane, horphan₀ lane]
        · simp [RunChargeLineageProvenance.hasOrphan] at hfalse

theorem AllPositive.orphaned :
    ∀ {records : List (RunChargeLineageProvenance κ)}, AllPositive records →
      (∀ lane, 0 ≤ recordsOrphaned lane records) ∧
        ((∀ lane, recordsOrphaned lane records = 0) ↔ haveOrphan records = false)
  | [], _ => by
    refine ⟨fun lane => le_refl _, fun _ => rfl, fun _ lane => rfl⟩
  | record :: rest, h => by
    obtain ⟨hrecord₀, hrecordIff⟩ := h.1.orphaned
    obtain ⟨hrest₀, hrestIff⟩ := h.2.orphaned
    refine ⟨fun lane => add_nonneg (hrecord₀ lane) (hrest₀ lane), ?_⟩
    simp only [haveOrphan, Bool.or_eq_false_iff, recordsOrphaned]
    rw [← hrecordIff, ← hrestIff]
    constructor
    · intro hzero
      refine ⟨fun lane => ?_, fun lane => ?_⟩ <;>
        linarith [hzero lane, hrecord₀ lane, hrest₀ lane]
    · rintro ⟨hzero, hzero'⟩ lane
      rw [hzero, hzero', add_zero]

end

theorem recordsOrphaned_append (lane : κ) (records : List (RunChargeLineageProvenance κ))
    (record : RunChargeLineageProvenance κ) :
    recordsOrphaned lane (records ++ [record]) =
      recordsOrphaned lane records + recordOrphaned lane record := by
  induction records with
  | nil => simp [recordsOrphaned]
  | cons first rest ih =>
    rw [List.cons_append, recordsOrphaned, ih, recordsOrphaned, add_assoc]

theorem AllPositive.append {records : List (RunChargeLineageProvenance κ)}
    {record : RunChargeLineageProvenance κ} (h : AllPositive records) (hrecord : record.Positive) :
    AllPositive (records ++ [record]) := by
  induction records with
  | nil => exact ⟨hrecord, trivial⟩
  | cons first rest ih => exact ⟨h.1, ih h.2⟩

/-! ## Accounts -/

def RunChargeAccount.spent (account : RunChargeAccount κ) (lane : κ) : Rat :=
  (account.spentByLane.get lane).getD 0

/-- The spend of the orphans anywhere under the account's run. -/
def LineageAccount.orphaned (account : LineageAccount κ) (lane : κ) : Rat :=
  recordsOrphaned lane account.foldBacks + recordsOrphaned lane account.orphanedChildren

def LineageAccount.hasOrphan (account : LineageAccount κ) : Bool :=
  haveOrphan account.foldBacks || haveOrphan account.orphanedChildren

/-- The sum of the amounts in a lane. -/
def amountsIn (lane : κ) : List (κ × Rat) → Rat
  | [] => 0
  | entry :: rest => (if entry.1 = lane then entry.2 else 0) + amountsIn lane rest

/-- What is spent is what was spent directly and what was folded; nothing is spent below zero. -/
structure LineageAccount.Sound (account : LineageAccount κ) : Prop where
  nonneg   : ∀ entry ∈ account.spentByLane.entries, 0 ≤ entry.2
  split    : ∀ lane, account.spent lane =
    (account.directSpentByLane.get lane).getD 0 + (account.foldedSpentByLane.get lane).getD 0
  folded   : AllPositive account.foldBacks
  orphaned : AllPositive account.orphanedChildren

theorem amountsIn_append (lane : κ) (entries : List (κ × Rat)) (entry : κ × Rat) :
    amountsIn lane (entries ++ [entry]) =
      amountsIn lane entries + if entry.1 = lane then entry.2 else 0 := by
  induction entries with
  | nil => simp [amountsIn]
  | cons first rest ih => rw [List.cons_append, amountsIn, ih, amountsIn, add_assoc]

theorem amountsIn_of_notMem {lane : κ} {entries : List (κ × Rat)}
    (h : lane ∉ entries.map Prod.fst) : amountsIn lane entries = 0 := by
  induction entries with
  | nil => rfl
  | cons first rest ih =>
    rw [List.map_cons, List.mem_cons, not_or] at h
    rw [amountsIn, ih h.2, if_neg (Ne.symm h.1), add_zero]

theorem amountsIn_entries (spent : JsMap κ Rat) (lane : κ) :
    amountsIn lane spent.entries = (spent.get lane).getD 0 := by
  have hentries : ∀ {entries : List (κ × Rat)}, (entries.map Prod.fst).Nodup →
      amountsIn lane entries = (JsMap.lookup lane entries).getD 0 := by
    intro entries hnodup
    induction entries with
    | nil => rfl
    | cons first rest ih =>
      rw [List.map_cons, List.nodup_cons] at hnodup
      rw [amountsIn, JsMap.lookup]
      by_cases hlane : first.1 = lane
      · rw [if_pos hlane, if_pos hlane, amountsIn_of_notMem (hlane ▸ hnodup.1), add_zero]
        rfl
      · rw [if_neg hlane, if_neg hlane, zero_add, ih hnodup.2]
  exact hentries spent.nodup

namespace LineageAccount.Sound

variable {account child : LineageAccount κ} (h : account.Sound)

theorem created : (createLineageAccount : LineageAccount κ).Sound :=
  ⟨fun _ hmem => absurd hmem List.not_mem_nil, fun _ => (add_zero 0).symm, trivial, trivial⟩

include h

theorem spent_nonneg (lane : κ) : 0 ≤ account.spent lane := by
  unfold RunChargeAccount.spent
  cases hget : account.spentByLane.get lane with
  | none => exact le_refl _
  | some amount => exact h.nonneg _ ((JsMap.mem_entries_iff_get _ _ _).2 hget)

theorem orphaned_nonneg (lane : κ) : 0 ≤ account.orphaned lane :=
  add_nonneg (h.folded.orphaned.1 lane) (h.orphaned.orphaned.1 lane)

/-- No orphan is under the run just where no orphan's spend is. -/
theorem orphaned_eq_zero : (∀ lane, account.orphaned lane = 0) ↔ account.hasOrphan = false := by
  unfold LineageAccount.orphaned LineageAccount.hasOrphan
  rw [Bool.or_eq_false_iff, ← h.folded.orphaned.2, ← h.orphaned.orphaned.2]
  constructor
  · intro hzero
    refine ⟨fun lane => ?_, fun lane => ?_⟩ <;>
      linarith [hzero lane, h.folded.orphaned.1 lane, h.orphaned.orphaned.1 lane]
  · rintro ⟨hzero, hzero'⟩ lane
    rw [hzero, hzero', add_zero]

theorem spent_of_not_hasSpend (hnone : account.hasSpend = false) (lane : κ) :
    account.spent lane = 0 := by
  unfold RunChargeAccount.hasSpend at hnone
  unfold RunChargeAccount.spent
  cases hget : account.spentByLane.get lane with
  | none => rfl
  | some amount =>
    have hmem := (JsMap.mem_entries_iff_get _ _ _).2 hget
    have hle := List.any_eq_false.1 hnone amount (List.mem_map_of_mem hmem)
    exact le_antisymm (not_lt.1 fun hlt => hle (decide_eq_true hlt)) (h.nonneg _ hmem)

theorem spent_of_hasSpend (hspend : account.hasSpend = true) :
    ∃ lane, 0 < account.spent lane := by
  obtain ⟨amount, hmem, hpos⟩ := List.any_eq_true.1 hspend
  obtain ⟨entry, hentry, rfl⟩ := List.mem_map.1 hmem
  refine ⟨entry.1, ?_⟩
  unfold RunChargeAccount.spent
  rw [(JsMap.mem_entries_iff_get _ entry.1 entry.2).1 hentry]
  exact of_decide_eq_true hpos

end LineageAccount.Sound

theorem nonneg_addSpentByLane {spent : JsMap κ Rat} (h : ∀ entry ∈ spent.entries, 0 ≤ entry.2)
    (lane : κ) {amount : Rat} (hamount : 0 ≤ amount) :
    ∀ entry ∈ (addSpentByLane spent lane amount).entries, 0 ≤ entry.2 := by
  intro entry hmem
  have hget := (JsMap.mem_entries_iff_get _ entry.1 entry.2).1 hmem
  have hvalue := getD_addSpentByLane spent lane entry.1 hamount
  rw [hget, Option.getD_some] at hvalue
  rw [hvalue]
  refine add_nonneg ?_ ?_
  · cases hold : spent.get entry.1 with
    | none => exact le_refl _
    | some old => exact h _ ((JsMap.mem_entries_iff_get _ _ _).2 hold)
  · split
    · exact hamount
    · exact le_refl _

/-- A charge adds to the spend and to the direct spend. -/
theorem LineageAccount.Sound.charged {account : LineageAccount κ} (h : account.Sound) (lane : κ)
    {amount : Rat} (hamount : 0 ≤ amount) :
    (chargeAccount lane amount account).Sound := by
  refine ⟨nonneg_addSpentByLane h.nonneg lane hamount, fun lane' => ?_, h.folded, h.orphaned⟩
  have hsplit := h.split lane'
  unfold RunChargeAccount.spent at hsplit ⊢
  show ((addSpentByLane _ _ _).get _).getD 0 =
    ((addSpentByLane _ _ _).get _).getD 0 + (account.foldedSpentByLane.get lane').getD 0
  rw [getD_addSpentByLane _ _ _ hamount, getD_addSpentByLane _ _ _ hamount, hsplit]
  exact add_right_comm _ _ _

/-- What `foldChildAccountIntoParent` adds, entry by entry. -/
theorem foldAccount_entries (lane : κ) {entries : List (κ × Rat)}
    (hentries : ∀ entry ∈ entries, 0 ≤ entry.2) (parent : RunChargeAccount κ)
    (hnonneg : ∀ entry ∈ parent.spentByLane.entries, 0 ≤ entry.2) :
    let folded := entries.foldl (fun account spent =>
      Process.foldAccount account spent.1 spent.2) parent
    (∀ entry ∈ folded.spentByLane.entries, 0 ≤ entry.2) ∧
      folded.spent lane = parent.spent lane + amountsIn lane entries ∧
      folded.directSpentByLane = parent.directSpentByLane ∧
      (folded.foldedSpentByLane.get lane).getD 0 =
        (parent.foldedSpentByLane.get lane).getD 0 + amountsIn lane entries := by
  induction entries generalizing parent with
  | nil => exact ⟨hnonneg, (add_zero _).symm, rfl, (add_zero _).symm⟩
  | cons entry rest ih =>
    have hentry := hentries entry List.mem_cons_self
    obtain ⟨hnonneg', hspent, hdirect, hfolded⟩ :=
      ih (fun e he => hentries e (List.mem_cons_of_mem _ he))
        (Process.foldAccount parent entry.1 entry.2)
        (nonneg_addSpentByLane hnonneg entry.1 hentry)
    refine ⟨hnonneg', ?_, hdirect, ?_⟩
    · rw [List.foldl_cons, hspent, amountsIn, ← add_assoc]
      congr 1
      exact getD_addSpentByLane _ _ _ hentry
    · rw [List.foldl_cons, hfolded, amountsIn, ← add_assoc]
      congr 1
      exact getD_addSpentByLane _ _ _ hentry

/-- A run that returns leaves its spend and its orphans. -/
theorem LineageAccount.Sound.fold {parent child : LineageAccount κ} (h : parent.Sound)
    (hchild : child.Sound) (childLineage : RunChargeLineage) :
    (foldChildAccountIntoParent parent child childLineage).Sound ∧
      ∀ lane, (foldChildAccountIntoParent parent child childLineage).spent lane +
          (foldChildAccountIntoParent parent child childLineage).orphaned lane =
        parent.spent lane + parent.orphaned lane + (child.spent lane + child.orphaned lane) := by
  have hfold := fun lane =>
    foldAccount_entries lane hchild.nonneg parent.toRunChargeAccount h.nonneg
  have hrecord : (snapshotAccountLineage childLineage child .folded).Positive :=
    ⟨hchild.spent_nonneg, nofun, hchild.folded, hchild.orphaned⟩
  refine ⟨⟨?_, fun lane => ?_, h.folded.append hrecord, h.orphaned⟩, fun lane => ?_⟩
  · intro entry hmem
    exact (hfold entry.1).1 entry hmem
  · obtain ⟨-, hspent, hdirect, hfolded⟩ := hfold lane
    have hsplit := h.split lane
    show RunChargeAccount.spent _ lane =
      (JsMap.get (RunChargeAccount.directSpentByLane _) lane).getD 0 +
        (JsMap.get (RunChargeAccount.foldedSpentByLane _) lane).getD 0
    unfold foldChildAccountIntoParent Process.foldChildAccountIntoParent
    rw [hspent, hdirect, hfolded, hsplit]
    linarith
  · obtain ⟨-, hspent, -, -⟩ := hfold lane
    rw [amountsIn_entries] at hspent
    have hspent' : (foldChildAccountIntoParent parent child childLineage).spent lane =
      parent.spent lane + child.spent lane := hspent
    have horphaned : (foldChildAccountIntoParent parent child childLineage).orphaned lane =
        parent.orphaned lane + child.orphaned lane := by
      show recordsOrphaned lane (parent.foldBacks ++ _) + _ = _
      rw [recordsOrphaned_append]
      simp only [snapshotAccountLineage, recordOrphaned, reduceCtorEq, if_false, zero_add,
        LineageAccount.orphaned, foldChildAccountIntoParent]
      linarith
    rw [hspent', horphaned]
    linarith

/-- A run that throws leaves them too, if it has spent anything. -/
theorem LineageAccount.Sound.orphan {parent child : LineageAccount κ} (h : parent.Sound)
    (hchild : child.Sound) (childLineage : RunChargeLineage) :
    (recordOrphanedChildAccount parent child childLineage).Sound ∧
      ∀ lane, (recordOrphanedChildAccount parent child childLineage).spent lane +
          (recordOrphanedChildAccount parent child childLineage).orphaned lane =
        parent.spent lane + parent.orphaned lane +
          if child.hasSpend then child.spent lane + child.orphaned lane else 0 := by
  unfold recordOrphanedChildAccount
  cases hspend : child.hasSpend with
  | false => exact ⟨h, fun lane => (add_zero _).symm⟩
  | true =>
    have hrecord : (snapshotAccountLineage childLineage child .orphaned).Positive :=
      ⟨hchild.spent_nonneg, fun _ => hchild.spent_of_hasSpend hspend, hchild.folded,
        hchild.orphaned⟩
    refine ⟨⟨h.nonneg, h.split, h.folded, h.orphaned.append hrecord⟩, fun lane => ?_⟩
    show parent.spent lane + (recordsOrphaned lane parent.foldBacks +
      recordsOrphaned lane (parent.orphanedChildren ++ _)) = _
    rw [recordsOrphaned_append]
    simp only [snapshotAccountLineage, recordOrphaned, if_true, LineageAccount.orphaned,
      RunChargeAccount.spent]
    linarith

/-! ## The tree -/

/-- What has not been left with a parent yet: the root's and the open runs' spend, and their
orphans'. -/
def LineageRun.held (lane : κ) (run : LineageRun κ) : Rat :=
  if run.parent.isSome && run.settled then 0
  else run.account.spent lane + run.account.orphaned lane

theorem LineageRun.held_open {run : LineageRun κ} (h : run.settled = false) (lane : κ) :
    run.held lane = run.account.spent lane + run.account.orphaned lane := by
  rw [held, h, Bool.and_false, if_neg Bool.false_ne_true]

namespace ChargeTree

/-- Runs stand after their parents, and open runs in open ones. -/
structure Nested (runs : List (LineageRun κ)) : Prop where
  after  : ∀ (i : Nat) (run : LineageRun κ), runs[i]? = some run → ∀ j, run.parent = some j → j < i
  inside : ∀ (i : Nat) (run : LineageRun κ), runs[i]? = some run → run.settled = false →
    ∀ j, run.parent = some j → ∃ parent, runs[j]? = some parent ∧ parent.settled = false
  first  : ∀ (i : Nat) (run : LineageRun κ), runs[i]? = some run → (run.parent = none ↔ i = 0)

/-- The accounts add up, and what was charged is held or was dropped. -/
structure Sound (t : ChargeTree κ) : Prop where
  nested    : Nested t.runs
  accounts  : ∀ run ∈ t.runs, run.account.Sound
  quota     : ∀ lane, (t.quotaSpentByLane.get lane).getD 0 = amountsIn lane t.charged
  conserved : ∀ lane, sumOf (·.held lane) t.runs + sumOf (·.orphaned lane) t.dropped =
    amountsIn lane t.charged
  dropped   : ∀ account ∈ t.dropped, account.Sound

variable {t : ChargeTree κ}

theorem sound_root (input : RunChargeContextInput κ) (fallback : String) :
    (root input fallback).Sound := by
  have hroot : ∀ {i : Nat} {run : LineageRun κ}, (root input fallback).runs[i]? = some run →
      i = 0 ∧ run.parent = none := by
    intro i run hrun
    cases i with
    | zero => exact ⟨rfl, (Option.some.inj hrun) ▸ rfl⟩
    | succ i => cases hrun
  refine ⟨⟨?_, ?_, ?_⟩, ?_, fun _ => rfl, fun _ => ?_, nofun⟩
  · intro i run hrun j hj
    rw [(hroot hrun).2] at hj
    cases hj
  · intro i run hrun _ j hj
    rw [(hroot hrun).2] at hj
    cases hj
  · intro i run hrun
    exact ⟨fun _ => (hroot hrun).1, fun _ => (hroot hrun).2⟩
  · intro run hmem
    rw [List.mem_singleton.1 hmem]
    exact LineageAccount.Sound.created
  · show (0 + (0 + 0) : Rat) + 0 + 0 = 0
    norm_num

theorem of_getElem?_modify {α : Type} {g : α → α} {l : List α} {i k : Nat} {a' : α}
    (h : (l.modify i g)[k]? = some a') :
    ∃ a, l[k]? = some a ∧ a' = if i = k then g a else a := by
  rw [List.getElem?_modify] at h
  obtain ⟨a, ha, heq⟩ := Option.map_eq_some_iff.1 h
  exact ⟨a, ha, heq.symm⟩

/-- Only accounts are changed. -/
theorem Nested.modifyAccount (h : Nested t.runs) (i : Nat)
    (f : LineageAccount κ → LineageAccount κ) : Nested (t.modifyAccount i f).runs := by
  have hback : ∀ {k : Nat} {run' : LineageRun κ}, (t.modifyAccount i f).runs[k]? = some run' →
      ∃ run, t.runs[k]? = some run ∧ run'.parent = run.parent ∧ run'.settled = run.settled := by
    intro k run' hrun'
    obtain ⟨run, hrun, rfl⟩ := of_getElem?_modify hrun'
    refine ⟨run, hrun, ?_⟩
    split
    · exact ⟨rfl, rfl⟩
    · exact ⟨rfl, rfl⟩
  have hopen : ∀ {k : Nat}, t.isOpen k → (t.modifyAccount i f).isOpen k := by
    rintro k ⟨run, hrun, hsettled⟩
    unfold isOpen ChargeTree.modifyAccount
    rw [List.getElem?_modify, hrun]
    refine ⟨_, rfl, ?_⟩
    split
    · exact hsettled
    · exact hsettled
  refine ⟨?_, ?_, ?_⟩
  · intro k run' hrun' j hj
    obtain ⟨run, hrun, hparent, -⟩ := hback hrun'
    exact h.after k run hrun j (hparent ▸ hj)
  · intro k run' hrun' hsettled j hj
    obtain ⟨run, hrun, hparent, hsame⟩ := hback hrun'
    exact hopen (h.inside k run hrun (hsame ▸ hsettled) j (hparent ▸ hj))
  · intro k run' hrun'
    obtain ⟨run, hrun, hparent, -⟩ := hback hrun'
    rw [hparent]
    exact h.first k run hrun

/-- A run is opened in an open one. -/
theorem Nested.openRun (h : Nested t.runs) {j : Nat} {parent : LineageRun κ}
    (hparent : t.runs[j]? = some parent) (hopen : parent.settled = false)
    (input : RunChargeContextInput κ) (fallback : String) :
    Nested (t.openRun j parent input fallback).runs := by
  have hj : j < t.runs.length := (List.getElem?_eq_some_iff.1 hparent).1
  have hkept : ∀ {k : Nat}, t.isOpen k → (t.openRun j parent input fallback).isOpen k := by
    rintro k ⟨run, hrun, hsettled⟩
    exact ⟨run, List.getElem?_append_left (List.getElem?_eq_some_iff.1 hrun).1 ▸ hrun, hsettled⟩
  have hcases : ∀ {k : Nat} {run : LineageRun κ},
      (t.openRun j parent input fallback).runs[k]? = some run →
        t.runs[k]? = some run ∨ k = t.runs.length ∧ run.parent = some j := by
    intro k run hrun
    rcases Nat.lt_or_ge k t.runs.length with hlt | hge
    · exact .inl ((List.getElem?_append_left hlt).symm.trans hrun)
    · have hright : [_][k - t.runs.length]? = some run :=
        (List.getElem?_append_right hge).symm.trans hrun
      have hzero : k - t.runs.length = 0 := by
        have hlt := (List.getElem?_eq_some_iff.1 hright).1
        rw [List.length_singleton] at hlt
        omega
      rw [hzero] at hright
      exact .inr ⟨by omega, (Option.some.inj hright) ▸ rfl⟩
  refine ⟨?_, ?_, ?_⟩
  · intro k run hrun i hi
    rcases hcases hrun with hold | ⟨rfl, hnew⟩
    · exact h.after k run hold i hi
    · rw [hnew] at hi
      cases hi
      exact hj
  · intro k run hrun hsettled i hi
    rcases hcases hrun with hold | ⟨rfl, hnew⟩
    · exact hkept (h.inside k run hold hsettled i hi)
    · rw [hnew] at hi
      cases hi
      exact hkept ⟨parent, hparent, hopen⟩
  · intro k run hrun
    rcases hcases hrun with hold | ⟨rfl, hnew⟩
    · exact h.first k run hold
    · rw [hnew]
      exact ⟨nofun, fun hzero => absurd hj (by omega)⟩

/-- A run settles after its children. -/
theorem Nested.markSettled (h : Nested t.runs) {i : Nat}
    (hchildren : ∀ run ∈ t.runs, run.parent = some i → run.settled = true) :
    Nested (t.markSettled i).runs := by
  have hback : ∀ {k : Nat} {run' : LineageRun κ}, (t.markSettled i).runs[k]? = some run' →
      ∃ run, t.runs[k]? = some run ∧ run'.parent = run.parent ∧
        (run'.settled = false → run.settled = false) := by
    intro k run' hrun'
    obtain ⟨run, hrun, rfl⟩ := of_getElem?_modify hrun'
    refine ⟨run, hrun, ?_⟩
    split
    · exact ⟨rfl, nofun⟩
    · exact ⟨rfl, id⟩
  refine ⟨?_, ?_, ?_⟩
  · intro k run' hrun' j hj
    obtain ⟨run, hrun, hparent, -⟩ := hback hrun'
    exact h.after k run hrun j (hparent ▸ hj)
  · intro k run' hrun' hsettled j hj
    obtain ⟨run, hrun, hparent, hsame⟩ := hback hrun'
    rw [hparent] at hj
    obtain ⟨parent, hrunParent, hopen⟩ := h.inside k run hrun (hsame hsettled) j hj
    have hne : i ≠ j := by
      rintro rfl
      have htrue := hchildren run (List.mem_of_getElem? hrun) hj
      rw [hsame hsettled] at htrue
      cases htrue
    exact ⟨parent, (List.getElem?_modify_ne _ _ hne).trans hrunParent, hopen⟩
  · intro k run' hrun'
    obtain ⟨run, hrun, hparent, -⟩ := hback hrun'
    rw [hparent]
    exact h.first k run hrun

theorem accounts_modifyAccount {i : Nat} {run : LineageRun κ}
    {f : LineageAccount κ → LineageAccount κ} (h : ∀ run ∈ t.runs, run.account.Sound)
    (hrun : t.runs[i]? = some run) (hnew : (f run.account).Sound) :
    ∀ run ∈ (t.modifyAccount i f).runs, run.account.Sound := by
  intro run' hmem
  obtain ⟨k, hk⟩ := List.mem_iff_getElem?.1 hmem
  obtain ⟨old, hold, rfl⟩ := of_getElem?_modify hk
  split
  · rename_i heq
    rw [← heq, hrun] at hold
    cases hold
    exact hnew
  · exact h old (List.mem_of_getElem? hold)

/-- The account of an open run is changed. -/
theorem sumOf_modifyAccount {i : Nat} {run : LineageRun κ}
    {f : LineageAccount κ → LineageAccount κ} (hrun : t.runs[i]? = some run)
    (hopen : run.settled = false) (lane : κ) :
    sumOf (·.held lane) (t.modifyAccount i f).runs = sumOf (·.held lane) t.runs +
      ((f run.account).spent lane + (f run.account).orphaned lane -
        (run.account.spent lane + run.account.orphaned lane)) := by
  show sumOf _ (t.runs.modify i _) = _
  rw [sumOf_modify _ _ hrun, LineageRun.held_open hopen, LineageRun.held_open]
  exact hopen

theorem Sound.openRun (h : t.Sound) {j : Nat} {parent : LineageRun κ}
    (hparent : t.runs[j]? = some parent) (hopen : parent.settled = false)
    (input : RunChargeContextInput κ) (fallback : String) :
    (t.openRun j parent input fallback).Sound := by
  refine ⟨h.nested.openRun hparent hopen input fallback, ?_, h.quota, fun lane => ?_, h.dropped⟩
  · intro run hmem
    rcases List.mem_append.1 hmem with hold | hnew
    · exact h.accounts run hold
    · rw [List.mem_singleton.1 hnew]
      exact LineageAccount.Sound.created
  · have hconserved := h.conserved lane
    show sumOf _ (t.runs ++ [_]) + sumOf _ t.dropped = amountsIn lane t.charged
    rw [sumOf_append, ← hconserved]
    show _ + (0 + (0 + 0) : Rat) + _ = _
    linarith

theorem Sound.charge (h : t.Sound) {i : Nat} {run : LineageRun κ} (hrun : t.runs[i]? = some run)
    (hopen : run.settled = false) (lane : κ) {amount : Rat} (hamount : 0 ≤ amount) :
    (t.charge i lane amount).Sound := by
  have hsound := (h.accounts run (List.mem_of_getElem? hrun)).charged lane hamount
  refine ⟨h.nested.modifyAccount i (chargeAccount lane amount),
    accounts_modifyAccount (f := chargeAccount lane amount) h.accounts hrun hsound,
    fun lane' => ?_, fun lane' => ?_, h.dropped⟩
  · show ((addSpentByLane t.quotaSpentByLane lane amount).get lane').getD 0 =
      amountsIn lane' (t.charged ++ [(lane, amount)])
    rw [getD_addSpentByLane _ _ _ hamount, h.quota, amountsIn_append]
  · have hconserved := h.conserved lane'
    have hspent := getD_addSpentByLane run.account.spentByLane lane lane' hamount
    have hsum := sumOf_modifyAccount (f := chargeAccount lane amount) hrun hopen lane'
    show sumOf (·.held lane') (t.modifyAccount i (chargeAccount lane amount)).runs +
        sumOf _ t.dropped =
      amountsIn lane' (t.charged ++ [(lane, amount)])
    rw [hsum, amountsIn_append, ← hconserved]
    show _ + ((((addSpentByLane run.account.spentByLane lane amount).get lane').getD 0 +
      run.account.orphaned lane') - ((run.account.spentByLane.get lane').getD 0 +
        run.account.orphaned lane')) + _ = _
    rw [hspent]
    linarith

/-- Once a run is marked, it holds nothing. -/
theorem sumOf_markSettled {i : Nat} {run : LineageRun κ} {j : Nat} (hrun : t.runs[i]? = some run)
    (hopen : run.settled = false) (hparent : run.parent = some j) (lane : κ) :
    sumOf (·.held lane) (t.markSettled i).runs = sumOf (·.held lane) t.runs -
      (run.account.spent lane + run.account.orphaned lane) := by
  show sumOf _ (t.runs.modify i _) = _
  rw [sumOf_modify _ _ hrun, LineageRun.held_open hopen]
  have hnone : ({ run with settled := true } : LineageRun κ).held lane = 0 := by
    unfold LineageRun.held
    rw [hparent]
    exact if_pos rfl
  rw [hnone]
  linarith

theorem accounts_markSettled {i : Nat} (h : ∀ run ∈ t.runs, run.account.Sound) :
    ∀ run ∈ (t.markSettled i).runs, run.account.Sound := by
  intro run' hmem
  obtain ⟨k, hk⟩ := List.mem_iff_getElem?.1 hmem
  obtain ⟨old, hold, rfl⟩ := of_getElem?_modify hk
  have hsound := h old (List.mem_of_getElem? hold)
  split
  · exact hsound
  · exact hsound

/-- What a run leaves with its parent, and what it is dropped with. -/
theorem leave_sound {run : LineageRun κ} {parent : LineageAccount κ} (h : parent.Sound)
    (hrun : run.account.Sound) (outcome : Outcome) :
    (leave run outcome parent).Sound ∧
      ∀ lane, (leave run outcome parent).spent lane + (leave run outcome parent).orphaned lane =
        parent.spent lane + parent.orphaned lane +
          if outcome = .threw && !run.account.hasSpend then 0
          else run.account.spent lane + run.account.orphaned lane := by
  cases outcome with
  | returned => exact h.fold hrun run.lineage
  | threw =>
    obtain ⟨hsound, hadds⟩ := h.orphan hrun run.lineage
    refine ⟨hsound, fun lane => (hadds lane).trans ?_⟩
    cases run.account.hasSpend with
    | true => rfl
    | false => rfl

/-- The parent gets what the run held, or the run is dropped with its orphans. -/
theorem settleInto_conserved (h : t.Sound) {j : Nat} {run parent : LineageRun κ}
    (hrun : run ∈ t.runs) (hparent : t.runs[j]? = some parent) (hopen : parent.settled = false)
    (outcome : Outcome) (lane : κ) :
    sumOf (·.held lane) (t.settleInto j run outcome).runs +
        sumOf (·.orphaned lane) (t.settleInto j run outcome).dropped =
      amountsIn lane t.charged + (run.account.spent lane + run.account.orphaned lane) := by
  have hchild := h.accounts run hrun
  have hinto := h.accounts parent (List.mem_of_getElem? hparent)
  have hleft := (leave_sound hinto hchild outcome).2 lane
  have hsum := sumOf_modifyAccount (f := leave run outcome) hparent hopen lane
  show sumOf (·.held lane) (t.modifyAccount j (leave run outcome)).runs +
    sumOf (·.orphaned lane)
      (if outcome = .threw && !run.account.hasSpend then t.dropped ++ [run.account]
      else t.dropped) = _
  rw [hsum, hleft, ← h.conserved lane]
  cases hlost : decide (outcome = .threw) && !run.account.hasSpend with
  | false =>
    rw [if_neg Bool.false_ne_true, if_neg Bool.false_ne_true]
    linarith
  | true =>
    rw [Bool.and_eq_true, Bool.not_eq_true'] at hlost
    rw [if_pos rfl, if_pos rfl, sumOf_append, hchild.spent_of_not_hasSpend hlost.2]
    linarith

/-- **What is left of a run's spend when it settles**: it is with its parent, or it was dropped. -/
theorem settle_sound (h : t.Sound) {i : Nat} {run : LineageRun κ} (hrun : t.runs[i]? = some run)
    (hopen : run.settled = false)
    (hchildren : ∀ child ∈ t.runs, child.parent = some i → child.settled = true)
    (outcome : Outcome) : (t.settle i run outcome).Sound := by
  have hmem := List.mem_of_getElem? hrun
  unfold ChargeTree.settle
  split
  · rename_i hparent
    have hsame : ∀ lane, ({ run with settled := true } : LineageRun κ).held lane =
        run.held lane := by
      intro lane
      unfold LineageRun.held
      rw [hparent]
      rfl
    refine ⟨h.nested.markSettled hchildren, accounts_markSettled h.accounts, h.quota,
      fun lane => ?_, h.dropped⟩
    show sumOf (·.held lane) (t.runs.modify i _) + sumOf _ t.dropped = amountsIn lane t.charged
    rw [sumOf_modify _ _ hrun, hsame, sub_self, add_zero]
    exact h.conserved lane
  · rename_i j hparent
    obtain ⟨parent, hinto, hopen'⟩ := h.nested.inside i run hrun hopen j hparent
    have hsound := (leave_sound (h.accounts parent (List.mem_of_getElem? hinto))
      (h.accounts run hmem) outcome).1
    have hne : j ≠ i := Nat.ne_of_lt (h.nested.after i run hrun j hparent)
    have hframe : (t.settleInto j run outcome).runs[i]? = some run :=
      (List.getElem?_modify_ne _ _ hne).trans hrun
    have hkept : ∀ child ∈ (t.settleInto j run outcome).runs, child.parent = some i →
        child.settled = true := by
      intro child hchild hin
      obtain ⟨k, hk⟩ := List.mem_iff_getElem?.1 hchild
      obtain ⟨old, hold, rfl⟩ := of_getElem?_modify hk
      have hold' := hchildren old (List.mem_of_getElem? hold)
      split at hin
      · rw [if_pos ‹_›]
        exact hold' hin
      · rw [if_neg ‹_›]
        exact hold' hin
    have haccounts := accounts_modifyAccount (f := leave run outcome) h.accounts hinto hsound
    refine ⟨Nested.markSettled (h.nested.modifyAccount j (leave run outcome)) hkept,
      accounts_markSettled haccounts, h.quota, fun lane => ?_, fun account hdropped => ?_⟩
    · rw [sumOf_markSettled hframe hopen hparent]
      have hconserved := settleInto_conserved h hmem hinto hopen' outcome lane
      show _ + sumOf (·.orphaned lane) (t.settleInto j run outcome).dropped =
        amountsIn lane t.charged
      linarith
    · change account ∈ if _ then _ else _ at hdropped
      split at hdropped
      · rcases List.mem_append.1 hdropped with hold | hnew
        · exact h.dropped account hold
        · rw [List.mem_singleton.1 hnew]
          exact h.accounts run hmem
      · exact h.dropped account hdropped

theorem normalizePositiveNumber_nonneg (amount : Option JsNumber) :
    0 ≤ normalizePositiveNumber amount := by
  unfold normalizePositiveNumber
  split
  · split
    · exact le_refl _
    · exact (not_le.1 ‹_›).le
  · exact le_refl _

theorem sound_of_reachable {input : RunChargeContextInput κ} {fallback : String}
    (h : (lineageSystem input fallback).Reachable t) : t.Sound := by
  refine System.invariant (I := Sound) (sound_root input fallback) ?_ h
  rintro t t' ht ⟨action, henabled, rfl⟩
  cases action with
  | runWithChargeContext j input fallback =>
    obtain ⟨parent, hparent, hopen⟩ := henabled
    show Sound (match t.runs[j]? with | none => t | some parent => _)
    rw [hparent]
    exact ht.openRun hparent hopen input fallback
  | charge i lane amount =>
    obtain ⟨run, hrun, hopen⟩ := henabled
    show Sound (match t.runs[i]? with | none => t | some run => _)
    rw [hrun]
    exact ht.charge hrun hopen _ (normalizePositiveNumber_nonneg amount)
  | settle i outcome =>
    obtain ⟨⟨run, hrun, hopen⟩, hchildren⟩ := henabled
    show Sound (match t.runs[i]? with | none => t | some run => _)
    rw [hrun]
    exact settle_sound ht hrun hopen hchildren outcome

/-- Every nested run has settled. -/
def Finished (t : ChargeTree κ) : Prop :=
  ∀ run ∈ t.runs, run.parent ≠ none → run.settled = true

/-- Then only the root holds anything. -/
theorem sumOf_held_finished (h : Nested t.runs) (hfinished : t.Finished) {root : LineageRun κ}
    (hroot : t.runs[0]? = some root) (lane : κ) :
    sumOf (·.held lane) t.runs = root.account.spent lane + root.account.orphaned lane := by
  unfold Finished at hfinished
  cases hruns : t.runs with
  | nil =>
    rw [hruns] at hroot
    cases hroot
  | cons first rest =>
    have hnone : root.parent = none := (h.first 0 root hroot).2 rfl
    rw [hruns] at hroot
    cases hroot
    have hrest : sumOf (·.held lane) rest = 0 := by
      refine sumOf_eq_zero fun run hmem => ?_
      obtain ⟨k, hk⟩ := List.mem_iff_getElem?.1 hmem
      have hk' : t.runs[k + 1]? = some run := by
        rw [hruns]
        exact hk
      have hsome : run.parent ≠ none := fun heq => absurd ((h.first _ run hk').1 heq) (by omega)
      have hsettled := hfinished run (List.mem_of_getElem? hk') hsome
      unfold LineageRun.held
      rw [hsettled, Option.isSome_iff_ne_none.2 hsome]
      exact if_pos rfl
    rw [sumOf, hrest, add_zero]
    unfold LineageRun.held
    rw [hnone]
    exact if_neg Bool.false_ne_true

/-- Nothing is missing from the records just where nothing was dropped. -/
theorem sumOf_dropped_eq_zero (h : ∀ account ∈ t.dropped, account.Sound) :
    (∀ lane, sumOf (·.orphaned lane) t.dropped = 0) ↔
      ∀ account ∈ t.dropped, account.hasOrphan = false := by
  constructor
  · intro hzero account hmem
    refine (h account hmem).orphaned_eq_zero.1 fun lane => le_antisymm ?_ ?_
    · rw [← hzero lane]
      exact le_sumOf (f := (·.orphaned lane)) (fun a ha => (h a ha).orphaned_nonneg lane) hmem
    · exact (h account hmem).orphaned_nonneg lane
  · intro hnone lane
    exact sumOf_eq_zero fun account hmem =>
      (h account hmem).orphaned_eq_zero.2 (hnone account hmem) lane

end ChargeTree

/-- **What the charges of a tree come to.** At any time the quota account has spent all of them, and
every account what was spent directly and what was folded. Once every nested run has settled, the
spend of the root and of the orphans under it is all of them exactly when no run that threw without
any spend had an orphan under it. -/
theorem lineage_conserved_iff {input : RunChargeContextInput κ} {fallback : String}
    {t : ChargeTree κ} (h : (lineageSystem input fallback).Reachable t) :
    (∀ lane, (t.quotaSpentByLane.get lane).getD 0 = amountsIn lane t.charged) ∧
    (∀ run ∈ t.runs, ∀ lane, run.account.spent lane =
      (run.account.directSpentByLane.get lane).getD 0 +
        (run.account.foldedSpentByLane.get lane).getD 0) ∧
    ∀ root, t.runs[0]? = some root → t.Finished →
      ((∀ lane, root.account.spent lane + root.account.orphaned lane = amountsIn lane t.charged) ↔
        ∀ account ∈ t.dropped, account.hasOrphan = false) := by
  have hsound := ChargeTree.sound_of_reachable h
  refine ⟨hsound.quota, fun run hmem => (hsound.accounts run hmem).split,
    fun root hroot hfinished => ?_⟩
  rw [← ChargeTree.sumOf_dropped_eq_zero hsound.dropped]
  have hall : ∀ lane, root.account.spent lane + root.account.orphaned lane +
      sumOf (·.orphaned lane) t.dropped = amountsIn lane t.charged := by
    intro lane
    rw [← ChargeTree.sumOf_held_finished hsound.nested hfinished hroot lane]
    exact hsound.conserved lane
  constructor
  · intro hconserved lane
    linarith [hall lane, hconserved lane]
  · intro hzero lane
    linarith [hall lane, hzero lane]

/-- A turn of the interactive lane. -/
def turn : RunChargeContextInput String := ⟨"interactive", some "turn-1", none, none⟩

def shard : RunChargeContextInput String := ⟨"shard", none, none, none⟩

/-- A run in the turn that runs a shard and charges nothing of its own. -/
def shardOpened : ChargeTree String :=
  ((ChargeTree.root turn "").next (.runWithChargeContext 0 shard "turn-1-a")).next
    (.runWithChargeContext 1 shard "turn-1-b")

def shardCharged : ChargeTree String := shardOpened.next (.charge 2 none (some (.finite 8)))

/-- The shard throws, and its error ends both runs. -/
def bothThrew : ChargeTree String :=
  (shardCharged.next (.settle 2 .threw)).next (.settle 1 .threw)

/-- Only the shard throws. -/
def oneThrew : ChargeTree String :=
  (shardCharged.next (.settle 2 .threw)).next (.settle 1 .returned)

theorem shardCharged_reachable : (lineageSystem turn "").Reachable shardCharged :=
  ((Relation.ReflTransGen.single
    ⟨.runWithChargeContext 0 shard "turn-1-a", ⟨_, rfl, rfl⟩, rfl⟩).tail
    ⟨.runWithChargeContext 1 shard "turn-1-b", ⟨_, rfl, rfl⟩, rfl⟩).tail
      ⟨.charge 2 none (some (.finite 8)), ⟨_, rfl, rfl⟩, rfl⟩

theorem shard_settles (first second : Outcome) : (lineageSystem turn "").Reachable
    ((shardCharged.next (.settle 2 first)).next (.settle 1 second)) := by
  have hfirst : shardCharged.Enabled (.settle 2 first) :=
    ⟨⟨_, rfl, rfl⟩, by decide +kernel⟩
  have hsecond : (shardCharged.next (.settle 2 first)).Enabled (.settle 1 second) := by
    cases first with
    | returned => exact ⟨⟨_, rfl, rfl⟩, by decide +kernel⟩
    | threw => exact ⟨⟨_, rfl, rfl⟩, by decide +kernel⟩
  exact (shardCharged_reachable.tail ⟨_, hfirst, rfl⟩).tail ⟨_, hsecond, rfl⟩

theorem lineage_conserved_oneThrew : ∃ root, oneThrew.runs[0]? = some root ∧
    ∀ lane, root.account.spent lane + root.account.orphaned lane =
      amountsIn lane oneThrew.charged := by
  have hfinished : oneThrew.Finished := by
    unfold ChargeTree.Finished
    decide +kernel
  have hdropped : ∀ account ∈ oneThrew.dropped, account.hasOrphan = false := by decide +kernel
  exact ⟨_, rfl, ((lineage_conserved_iff (shard_settles .threw .returned)).2.2 _ rfl hfinished).2
    hdropped⟩

/-- What the shard charged is in no record: the run around it had not spent anything. -/
theorem lineage_dropped : ¬ ∀ t, (lineageSystem turn "").Reachable t → t.Finished →
    ∀ root, t.runs[0]? = some root →
      ∀ lane, root.account.spent lane + root.account.orphaned lane = amountsIn lane t.charged := by
  intro h
  have hfinished : bothThrew.Finished := by
    unfold ChargeTree.Finished
    decide +kernel
  have hshard := h bothThrew (shard_settles .threw .threw) hfinished _ rfl "shard"
  revert hshard
  decide +kernel

end Psfn.Charge
