import Mathlib.Data.List.Perm.Subperm
import Mathlib.Tactic.Linarith
import Psfn.Charge.Window

/-!
# Run charges — the two rolling windows

The window in memory remembers an event id for as long as the entry that brought it has not been
pruned, and a row prunes by its own time only. So a row of the window can find its id still
held by an older row, one that is in no window any more: it is dropped, and the older entry
is pruned afterwards. The file scan counts such a row.

* `windowOf_filter` — the rows the window in memory counts;
* `rolling_windows_agree_iff` — exactly when the two computations agree.
-/

namespace Psfn.Charge

open Psfn.Lib

variable {κ : Type} [DecidableEq κ]

/-! ## Rows that count -/

def RunChargeEvent.identity (event : RunChargeEvent κ) : String := JsString.trim event.eventId

/-- The rows hydration records: positive, not of the future, and resident. -/
def recorded (nowMs : Rat) (event : RunChargeEvent κ) : Bool :=
  0 < event.amount && event.timestampMs ≤ nowMs && nowMs - residentHorizonMs ≤ event.timestampMs

def inWindow (nowMs : Rat) (event : RunChargeEvent κ) : Bool :=
  nowMs - runChargeRollingWindowMs ≤ event.timestampMs

/-- The time under which an id is held, after one more row: a row prunes what is a window older
than itself, and takes its id if nothing holds it. -/
def holdStep (id : String) (held : Option Rat) (event : RunChargeEvent κ) : Option Rat :=
  let kept := held.filter fun t => event.timestampMs - runChargeRollingWindowMs ≤ t
  if event.identity = id then kept.or (some event.timestampMs) else kept

def heldSince (id : String) (rows : List (RunChargeEvent κ)) : Option Rat :=
  rows.foldl (holdStep id) none

/-- A row finds its id held by a row that is older than the window. -/
def blocked (nowMs : Rat) (before : List (RunChargeEvent κ)) (event : RunChargeEvent κ) : Bool :=
  ((heldSince event.identity before).filter fun t =>
    event.timestampMs - runChargeRollingWindowMs ≤ t).any
      fun t => t < nowMs - runChargeRollingWindowMs

/-- The rows before the current one, and those counted so far. -/
def countStep (nowMs : Rat) (keep : List (RunChargeEvent κ) → RunChargeEvent κ → Bool)
    (s : List (RunChargeEvent κ) × List (RunChargeEvent κ)) (event : RunChargeEvent κ) :
    List (RunChargeEvent κ) × List (RunChargeEvent κ) :=
  (s.1 ++ [event],
    if inWindow nowMs event && keep s.1 event && !s.2.any fun e => e.identity = event.identity
    then s.2 ++ [event] else s.2)

/-- Of every id, the first row of the window that is kept. -/
def firstRows (nowMs : Rat) (keep : List (RunChargeEvent κ) → RunChargeEvent κ → Bool)
    (rows : List (RunChargeEvent κ)) : List (RunChargeEvent κ) :=
  (rows.foldl (countStep nowMs keep) ([], [])).2

def anyRow (_before : List (RunChargeEvent κ)) (_event : RunChargeEvent κ) : Bool := true

def unblocked (nowMs : Rat) (before : List (RunChargeEvent κ)) (event : RunChargeEvent κ) : Bool :=
  !blocked nowMs before event

/-- What the rows spend in a lane. -/
def laneTotal (rows : List (RunChargeEvent κ)) (lane : κ) : Rat :=
  rows.foldl (fun total event => if event.lane = lane then total + event.amount else total) 0

theorem fst_foldl_countStep (nowMs : Rat)
    (keep : List (RunChargeEvent κ) → RunChargeEvent κ → Bool) (rows : List (RunChargeEvent κ)) :
    (rows.foldl (countStep nowMs keep) ([], [])).1 = rows := by
  induction rows using List.reverseRecOn with
  | nil => rfl
  | append_singleton rows event ih =>
    rw [List.foldl_append, List.foldl_cons, List.foldl_nil]
    show (List.foldl (countStep nowMs keep) ([], []) rows).1 ++ [event] = _
    rw [ih]

theorem firstRows_append (nowMs : Rat)
    (keep : List (RunChargeEvent κ) → RunChargeEvent κ → Bool) (rows : List (RunChargeEvent κ))
    (event : RunChargeEvent κ) :
    firstRows nowMs keep (rows ++ [event]) =
      if inWindow nowMs event && keep rows event &&
          !(firstRows nowMs keep rows).any fun e => e.identity = event.identity
      then firstRows nowMs keep rows ++ [event] else firstRows nowMs keep rows := by
  rw [firstRows, List.foldl_append, List.foldl_cons, List.foldl_nil]
  show (if inWindow nowMs event &&
      keep (List.foldl (countStep nowMs keep) ([], []) rows).1 event && _ then _ else _) = _
  rw [fst_foldl_countStep]
  rfl

theorem identities_nodup (nowMs : Rat)
    (keep : List (RunChargeEvent κ) → RunChargeEvent κ → Bool) (rows : List (RunChargeEvent κ)) :
    ((firstRows nowMs keep rows).map RunChargeEvent.identity).Nodup := by
  induction rows using List.reverseRecOn with
  | nil => exact List.nodup_nil
  | append_singleton rows event ih =>
    rw [firstRows_append]
    split
    · rename_i h
      simp only [Bool.and_eq_true, Bool.not_eq_true', List.any_eq_false, decide_eq_true_eq] at h
      rw [List.map_append, List.nodup_append]
      refine ⟨ih, List.nodup_singleton _, ?_⟩
      intro id hid id' hid' heq
      obtain ⟨e, he, rfl⟩ := List.mem_map.1 hid
      obtain rfl := List.mem_singleton.1 hid'
      exact h.2 e he heq
    · exact ih

variable {id : String}

theorem any_identity_iff {rows : List (RunChargeEvent κ)} :
    (rows.any fun e => e.identity = id) = true ↔ id ∈ rows.map RunChargeEvent.identity := by
  rw [List.any_eq_true, List.mem_map]
  simp only [decide_eq_true_eq]

theorem identities_append (nowMs : Rat)
    (keep : List (RunChargeEvent κ) → RunChargeEvent κ → Bool) (rows : List (RunChargeEvent κ))
    (event : RunChargeEvent κ) (id : String) :
    id ∈ (firstRows nowMs keep (rows ++ [event])).map RunChargeEvent.identity ↔
      id ∈ (firstRows nowMs keep rows).map RunChargeEvent.identity ∨
        (inWindow nowMs event = true ∧ keep rows event = true ∧ event.identity = id) := by
  rw [firstRows_append]
  split
  · rename_i h
    simp only [Bool.and_eq_true] at h
    simp only [List.map_append, List.map_cons, List.map_nil, List.mem_append, List.mem_singleton,
      h.1.1, h.1.2, true_and]
    rw [eq_comm (a := id)]
  · rename_i h
    constructor
    · exact .inl
    · rintro (hid | ⟨hin, hkeep, rfl⟩)
      · exact hid
      · -- the id has been counted before
        simp only [hin, hkeep, Bool.true_and, Bool.not_eq_true', Bool.not_eq_false] at h
        exact any_identity_iff.1 h

variable {nowMs : Rat}

/-- An id is counted when some row of the window that has it is kept. -/
theorem mem_identities {keep : List (RunChargeEvent κ) → RunChargeEvent κ → Bool}
    {rows : List (RunChargeEvent κ)} :
    id ∈ (firstRows nowMs keep rows).map RunChargeEvent.identity ↔
      ∃ before event after, rows = before ++ event :: after ∧ inWindow nowMs event = true ∧
        keep before event = true ∧ event.identity = id := by
  induction rows using List.reverseRecOn with
  | nil => simp [firstRows]
  | append_singleton rows event ih =>
    have hsplit : (∃ before e after, rows ++ [event] = before ++ e :: after ∧
        inWindow nowMs e = true ∧ keep before e = true ∧ e.identity = id) ↔
        (∃ before e after, rows = before ++ e :: after ∧
          inWindow nowMs e = true ∧ keep before e = true ∧ e.identity = id) ∨
        (inWindow nowMs event = true ∧ keep rows event = true ∧ event.identity = id) := by
      constructor
      · rintro ⟨before, e, after, heq, h⟩
        obtain rfl | ⟨after', last, rfl⟩ := List.eq_nil_or_concat' after
        · obtain ⟨rfl, hlast⟩ := List.append_inj' heq rfl
          obtain rfl := List.singleton_inj.1 hlast
          exact .inr h
        · have heq' : rows ++ [event] = (before ++ e :: after') ++ [last] := by simpa using heq
          obtain ⟨rfl, -⟩ := List.append_inj' heq' rfl
          exact .inl ⟨before, e, after', rfl, h⟩
      · rintro (⟨before, e, after, rfl, h⟩ | h)
        · exact ⟨before, e, after ++ [event], by simp, h⟩
        · exact ⟨rows, event, [], rfl, h⟩
    rw [hsplit, ← ih, identities_append]

/-! ## The window in memory -/

/-- `recordRollingChargeEvent` of a positive event with an id. -/
def windowStep (entries : List (RollingChargeWindowEntry κ)) (event : RunChargeEvent κ) :
    List (RollingChargeWindowEntry κ) :=
  let pruned := pruneRollingChargeWindow event.timestampMs entries
  if pruned.any fun entry => entry.eventId = event.identity then pruned else pruned ++ [event.entry]

def windowOf (rows : List (RunChargeEvent κ)) : List (RollingChargeWindowEntry κ) :=
  rows.foldl windowStep []

theorem windowOf_append (rows : List (RunChargeEvent κ)) (event : RunChargeEvent κ) :
    windowOf (rows ++ [event]) = windowStep (windowOf rows) event := by
  rw [windowOf, List.foldl_append]
  rfl

/-- The times of the entries that have an id. -/
def timesOf (id : String) (entries : List (RollingChargeWindowEntry κ)) : List Rat :=
  (entries.filter fun entry => entry.eventId = id).map (·.timestampMs)

theorem timesOf_prune (id : String) (cut : Rat) (entries : List (RollingChargeWindowEntry κ)) :
    timesOf id (pruneRollingChargeWindow cut entries) =
      (timesOf id entries).filter fun t => cut - runChargeRollingWindowMs ≤ t := by
  rw [timesOf, timesOf, pruneRollingChargeWindow, List.filter_filter, List.filter_map,
    List.filter_filter]
  congr 1
  refine List.filter_congr fun entry _ => ?_
  simp only [Function.comp_apply, Bool.and_comm]

theorem toList_filter (held : Option Rat) (p : Rat → Bool) :
    (held.filter p).toList = held.toList.filter p := by
  cases held with
  | none => rfl
  | some t => by_cases h : p t <;> simp [h]

theorem timesOf_append (id : String) (xs ys : List (RollingChargeWindowEntry κ)) :
    timesOf id (xs ++ ys) = timesOf id xs ++ timesOf id ys := by
  rw [timesOf, List.filter_append, List.map_append]
  rfl

theorem any_iff_timesOf {entries : List (RollingChargeWindowEntry κ)} :
    (entries.any fun entry => entry.eventId = id) = true ↔ timesOf id entries ≠ [] := by
  rw [timesOf, ne_eq, List.map_eq_nil_iff, List.filter_eq_nil_iff, List.any_eq_true]
  simp

theorem heldSince_append (id : String) (rows : List (RunChargeEvent κ)) (event : RunChargeEvent κ) :
    heldSince id (rows ++ [event]) = holdStep id (heldSince id rows) event := by
  rw [heldSince, List.foldl_append]
  rfl

/-- Of every id the window has at most one entry: the one that holds it. -/
theorem timesOf_windowOf (id : String) (rows : List (RunChargeEvent κ)) :
    timesOf id (windowOf rows) = (heldSince id rows).toList := by
  induction rows using List.reverseRecOn with
  | nil => rfl
  | append_singleton rows event ih =>
    have hpruned := timesOf_prune id event.timestampMs (windowOf rows)
    rw [ih, ← toList_filter] at hpruned
    rw [windowOf_append, heldSince_append, windowStep, holdStep]
    generalize (heldSince id rows).filter
      (fun t => event.timestampMs - runChargeRollingWindowMs ≤ t) = kept at hpruned ⊢
    by_cases hid : event.identity = id
    · subst hid
      cases kept with
      | none =>
        have hfree : ¬ ((pruneRollingChargeWindow event.timestampMs (windowOf rows)).any
            fun entry => entry.eventId = event.identity) = true := by
          rw [any_iff_timesOf, hpruned]
          simp
        rw [if_neg hfree, timesOf_append, hpruned, if_pos rfl]
        simp [timesOf, RunChargeEvent.entry, RunChargeEvent.identity]
      | some t =>
        have hfound : ((pruneRollingChargeWindow event.timestampMs (windowOf rows)).any
            fun entry => entry.eventId = event.identity) = true := by
          rw [any_iff_timesOf, hpruned]
          simp
        rw [if_pos hfound, hpruned, if_pos rfl]
        rfl
    · rw [if_neg hid]
      split
      · exact hpruned
      · have hne : ¬ event.entry.eventId = id := hid
        rw [timesOf_append, hpruned]
        simp [timesOf, hne]

/-- **The rows the window in memory counts**: of every id the first row of the window that is
not blocked. -/
theorem windowOf_filter {rows : List (RunChargeEvent κ)}
    (hpast : ∀ event ∈ rows, event.timestampMs ≤ nowMs) :
    (windowOf rows).filter (fun entry => nowMs - runChargeRollingWindowMs ≤ entry.timestampMs) =
      (firstRows nowMs (unblocked nowMs) rows).map RunChargeEvent.entry := by
  induction rows using List.reverseRecOn with
  | nil => rfl
  | append_singleton rows event ih =>
    have hpast' : ∀ e ∈ rows, e.timestampMs ≤ nowMs :=
      fun e he => hpast e (List.mem_append_left _ he)
    have hevent : event.timestampMs ≤ nowMs := hpast event (by simp)
    -- a row prunes no entry of the window
    have hkeeps : (pruneRollingChargeWindow event.timestampMs (windowOf rows)).filter
        (fun entry => nowMs - runChargeRollingWindowMs ≤ entry.timestampMs) =
        (firstRows nowMs (unblocked nowMs) rows).map RunChargeEvent.entry := by
      rw [pruneRollingChargeWindow, List.filter_filter, ← ih hpast']
      refine List.filter_congr fun entry _ => ?_
      by_cases h : nowMs - runChargeRollingWindowMs ≤ entry.timestampMs
      · have hle : event.timestampMs - runChargeRollingWindowMs ≤ entry.timestampMs := by linarith
        simp [h, hle]
      · simp [h]
    have htimes := timesOf_prune event.identity event.timestampMs (windowOf rows)
    rw [timesOf_windowOf, ← toList_filter] at htimes
    -- an id is counted exactly when the window has an entry with it
    have hcounted : ((firstRows nowMs (unblocked nowMs) rows).any
          fun e => e.identity = event.identity) = true ↔
        ∃ t, t ∈ timesOf event.identity
          (pruneRollingChargeWindow event.timestampMs (windowOf rows)) ∧
          nowMs - runChargeRollingWindowMs ≤ t := by
      have hany : ((firstRows nowMs (unblocked nowMs) rows).any
            fun e => e.identity = event.identity) =
          (((firstRows nowMs (unblocked nowMs) rows).map RunChargeEvent.entry).any
            fun entry => entry.eventId = event.identity) := by
        rw [List.any_map]
        rfl
      rw [hany, ← hkeeps, List.any_eq_true]
      simp only [timesOf, List.mem_map, List.mem_filter, decide_eq_true_eq]
      constructor
      · rintro ⟨entry, ⟨hmem, hin⟩, hid⟩
        exact ⟨entry.timestampMs, ⟨entry, ⟨hmem, hid⟩, rfl⟩, hin⟩
      · rintro ⟨t, ⟨entry, ⟨hmem, hid⟩, rfl⟩, hin⟩
        exact ⟨entry, ⟨hmem, hin⟩, hid⟩
    rw [windowOf_append, windowStep, firstRows_append, unblocked, blocked]
    rw [htimes] at hcounted
    have hfound : ((pruneRollingChargeWindow event.timestampMs (windowOf rows)).any
        fun entry => entry.eventId = event.identity) = true ↔ _ := any_iff_timesOf
    rw [htimes] at hfound
    generalize (heldSince event.identity rows).filter
      (fun t => event.timestampMs - runChargeRollingWindowMs ≤ t) = kept at hcounted hfound ⊢
    cases kept with
    | none =>
      -- nothing holds the id
      have hfree : ¬ ((pruneRollingChargeWindow event.timestampMs (windowOf rows)).any
          fun entry => entry.eventId = event.identity) = true := by
        rw [hfound]
        simp
      have hnew : ((firstRows nowMs (unblocked nowMs) rows).any
          fun e => e.identity = event.identity) = false := by
        rw [← Bool.not_eq_true, hcounted]
        simp
      have hlast : ([event.entry].filter fun entry =>
          nowMs - runChargeRollingWindowMs ≤ entry.timestampMs) =
          if inWindow nowMs event then [event.entry] else [] := by
        rw [List.filter_singleton, Bool.cond_eq_ite]
        rfl
      rw [if_neg hfree, List.filter_append, hkeeps, hnew, hlast]
      by_cases hin : inWindow nowMs event <;> simp [hin]
    | some t =>
      have hheld : ((pruneRollingChargeWindow event.timestampMs (windowOf rows)).any
          fun entry => entry.eventId = event.identity) = true := by
        rw [hfound]
        simp
      rw [if_pos hheld, hkeeps]
      by_cases hold : t < nowMs - runChargeRollingWindowMs
      · -- held by a row older than the window
        simp [hold]
      · have hold' : ((firstRows nowMs (unblocked nowMs) rows).any
            fun e => e.identity = event.identity) = true := by
          rw [hcounted]
          exact ⟨t, by simp, not_lt.1 hold⟩
        simp [hold']

/-! ## The window from the file -/

theorem laneTotal_append (rows : List (RunChargeEvent κ)) (event : RunChargeEvent κ) (lane : κ) :
    laneTotal (rows ++ [event]) lane =
      laneTotal rows lane + if event.lane = lane then event.amount else 0 := by
  rw [laneTotal, List.foldl_append, List.foldl_cons, List.foldl_nil]
  show (if event.lane = lane then laneTotal rows lane + event.amount else laneTotal rows lane) = _
  split
  · rfl
  · exact (add_zero _).symm

theorem laneTotal_filter (rows : List (RunChargeEvent κ)) (p : RunChargeEvent κ → Bool) (lane : κ) :
    laneTotal rows lane =
      laneTotal (rows.filter p) lane + laneTotal (rows.filter fun e => !p e) lane := by
  induction rows using List.reverseRecOn with
  | nil => exact (add_zero 0).symm
  | append_singleton rows event ih =>
    rw [laneTotal_append, List.filter_append, List.filter_append, ih]
    by_cases h : p event
    · simp only [List.filter_cons, h, if_true, List.filter_nil, Bool.not_true, Bool.false_eq_true,
        if_false, List.append_nil]
      rw [laneTotal_append, add_right_comm]
    · simp only [List.filter_cons, h, Bool.false_eq_true, if_false, List.filter_nil, Bool.not_false,
        if_true, List.append_nil]
      rw [laneTotal_append, add_assoc]

theorem laneTotal_nonneg {rows : List (RunChargeEvent κ)} (hpos : ∀ e ∈ rows, 0 ≤ e.amount)
    (lane : κ) : 0 ≤ laneTotal rows lane := by
  induction rows using List.reverseRecOn with
  | nil => exact le_refl _
  | append_singleton rows event ih =>
    rw [laneTotal_append]
    have hrest := ih fun e he => hpos e (List.mem_append_left _ he)
    have hevent := hpos event (by simp)
    split <;> linarith

/-- The record of spends a list of positive rows leaves. -/
def spentOf (rows : List (RunChargeEvent κ)) : JsMap κ Rat :=
  rows.foldl (fun spent event => addRecordAmount spent event.lane event.amount) .empty

theorem spentOf_append (rows : List (RunChargeEvent κ)) (event : RunChargeEvent κ) :
    spentOf (rows ++ [event]) = addRecordAmount (spentOf rows) event.lane event.amount := by
  rw [spentOf, List.foldl_append]
  rfl

theorem get_spentOf {rows : List (RunChargeEvent κ)} (hpos : ∀ e ∈ rows, 0 < e.amount) (lane : κ) :
    (spentOf rows).get lane = if laneTotal rows lane = 0 then none else some (laneTotal rows lane)
    := by
  induction rows using List.reverseRecOn with
  | nil => rfl
  | append_singleton rows event ih =>
    have hrows : ∀ e ∈ rows, 0 < e.amount := fun e he => hpos e (List.mem_append_left _ he)
    have hevent := hpos event (by simp)
    have hnonneg := laneTotal_nonneg (fun e he => (hrows e he).le)
    rw [spentOf_append, addRecordAmount, JsMap.get_set, laneTotal_append]
    by_cases hlane : event.lane = lane
    · subst hlane
      have hne : laneTotal rows event.lane + event.amount ≠ 0 := by
        linarith [hnonneg event.lane]
      rw [if_pos rfl, if_pos rfl, if_neg hne, ih hrows]
      split
      · rename_i hzero
        rw [hzero]
        rfl
      · rfl
    · rw [if_neg hlane, if_neg (fun h => hlane h.symm), add_zero, ih hrows]

theorem mem_of_mem_firstRows {keep : List (RunChargeEvent κ) → RunChargeEvent κ → Bool}
    {rows : List (RunChargeEvent κ)} :
    ∀ e ∈ firstRows nowMs keep rows, e ∈ rows := by
  induction rows using List.reverseRecOn with
  | nil => exact fun e he => he
  | append_singleton rows event ih =>
    intro e he
    rw [firstRows_append] at he
    split at he
    · rcases List.mem_append.1 he with h | h
      · exact List.mem_append_left _ (ih e h)
      · exact List.mem_append_right _ h
    · exact List.mem_append_left _ (ih e he)

/-- The callback of the scan, told which rows count. -/
def scanOf (rows : List (RunChargeEvent κ)) : LedgerScan κ where
  seenEventIds := rows.map RunChargeEvent.identity
  spentByLane := spentOf rows
  entryCount := rows.length

/-- A row of the ledger names its event: the id is not blank. -/
def RunChargeLedgerEntry.Named (entry : RunChargeLedgerEntry κ) : Prop :=
  JsString.trim entry.event.eventId ≠ ""

/-- The rows hydration keeps and records. -/
def recordedRows (nowMs : Rat) (entries : List (RunChargeLedgerEntry κ)) :
    List (RunChargeEvent κ) :=
  (entries.map (·.event)).filter (recorded nowMs)

theorem recordedRows_append (nowMs : Rat) (entries : List (RunChargeLedgerEntry κ))
    (entry : RunChargeLedgerEntry κ) :
    recordedRows nowMs (entries ++ [entry]) =
      recordedRows nowMs entries ++ [entry.event].filter (recorded nowMs) := by
  rw [recordedRows, List.map_append, List.filter_append]
  rfl

theorem recorded_of_window {event : RunChargeEvent κ} (h : outsideWindow nowMs event = false) :
    recorded nowMs event = true ∧ inWindow nowMs event = true := by
  simp only [outsideWindow, Bool.or_eq_false_iff, decide_eq_false_iff_not, not_lt, not_le] at h
  have hwindow : runChargeRollingWindowMs ≤ residentHorizonMs := by
    simp only [runChargeRollingWindowMs, residentHorizonMs]
    norm_num
  have hresident : nowMs - residentHorizonMs ≤ event.timestampMs := by linarith [h.1.1]
  simp [recorded, inWindow, h.1.1, h.1.2, h.2, hresident]

theorem not_window_of_outside {event : RunChargeEvent κ} (h : outsideWindow nowMs event = true)
    (hrec : recorded nowMs event = true) :
    inWindow nowMs event = false := by
  simp only [outsideWindow, Bool.or_eq_true, decide_eq_true_eq] at h
  simp only [recorded, Bool.and_eq_true, decide_eq_true_eq] at hrec
  simp only [inWindow, decide_eq_false_iff_not, not_le]
  rcases h with (h | h) | h
  · exact h
  · linarith [hrec.1.2]
  · linarith [hrec.1.1]

/-- **The rows the file scan counts**: of every id the first row of the window. -/
theorem foldl_scanEntry {entries : List (RunChargeLedgerEntry κ)}
    (hnamed : ∀ entry ∈ entries, entry.Named) :
    entries.foldl (scanEntry nowMs) { seenEventIds := [], spentByLane := .empty, entryCount := 0 } =
      scanOf (firstRows nowMs anyRow (recordedRows nowMs entries)) := by
  induction entries using List.reverseRecOn with
  | nil => rfl
  | append_singleton entries entry ih =>
    have hname : JsString.trim entry.event.eventId ≠ "" := hnamed entry (by simp)
    have hid : ledgerIdentity entry = entry.event.identity := if_neg hname
    rw [List.foldl_append, List.foldl_cons, List.foldl_nil,
      ih fun e he => hnamed e (List.mem_append_left _ he), recordedRows_append]
    cases hout : outsideWindow nowMs entry.event with
    | true =>
      rw [scanEntry, if_pos hout]
      cases hrec : recorded nowMs entry.event with
      | false => simp [hrec]
      | true =>
        have hin := not_window_of_outside hout hrec
        have hlast : [entry.event].filter (recorded nowMs) = [entry.event] := by simp [hrec]
        rw [hlast, firstRows_append, hin]
        rfl
    | false =>
      obtain ⟨hrec, hin⟩ := recorded_of_window hout
      have hlast : [entry.event].filter (recorded nowMs) = [entry.event] := by simp [hrec]
      rw [scanEntry, hout, hlast, firstRows_append, hin, hid]
      simp only [Bool.false_eq_true, if_false, anyRow, Bool.true_and]
      by_cases hseen : entry.event.identity ∈
          (firstRows nowMs anyRow (recordedRows nowMs entries)).map RunChargeEvent.identity
      · have hany : ((firstRows nowMs anyRow (recordedRows nowMs entries)).any
            fun e => e.identity = entry.event.identity) = true := by
          obtain ⟨e, he, heq⟩ := List.mem_map.1 hseen
          exact List.any_eq_true.2 ⟨e, he, decide_eq_true heq⟩
        rw [hany]
        exact if_pos hseen
      · have hnone : ((firstRows nowMs anyRow (recordedRows nowMs entries)).any
            fun e => e.identity = entry.event.identity) = false := by
          rw [List.any_eq_false]
          intro e he heq
          exact hseen (List.mem_map.2 ⟨e, he, of_decide_eq_true heq⟩)
        rw [hnone]
        refine (if_neg hseen).trans ?_
        simp [scanOf, spentOf_append]

/-! ## Hydration -/

def recordable (nowMs : Rat) (event : RunChargeEvent κ) : Bool :=
  0 < event.amount && event.timestampMs ≤ nowMs

theorem hydrateEvent_eq {event : RunChargeEvent κ} (hname : JsString.trim event.eventId ≠ "")
    (entries : List (RollingChargeWindowEntry κ)) :
    hydrateEvent nowMs entries event =
      .ok (if recordable nowMs event then windowStep entries event else entries) := by
  rw [hydrateEvent, recordable]
  by_cases hamount : event.amount ≤ 0
  · have hnot : ¬ 0 < event.amount := not_lt.2 hamount
    simp [hamount, hnot]
  by_cases htime : nowMs < event.timestampMs
  · have hnot : ¬ event.timestampMs ≤ nowMs := not_le.2 htime
    simp [htime, hnot]
  · have hpos : 0 < event.amount := not_le.1 hamount
    have hle : event.timestampMs ≤ nowMs := not_lt.1 htime
    simp only [hamount, htime, hpos, hle, decide_false, decide_true, Bool.or_false, Bool.and_true,
      Bool.false_eq_true, if_false, if_true, recordRollingChargeEvent, hname, windowStep,
      RunChargeEvent.identity]
    exact (apply_ite Except.ok _ _ _).symm

theorem foldlM_hydrateEvent {events : List (RunChargeEvent κ)}
    (hnamed : ∀ event ∈ events, JsString.trim event.eventId ≠ "")
    (entries : List (RollingChargeWindowEntry κ)) :
    events.foldlM (hydrateEvent nowMs) entries =
      .ok ((events.filter (recordable nowMs)).foldl windowStep entries) := by
  induction events generalizing entries with
  | nil => rfl
  | cons event rest ih =>
    rw [List.foldlM_cons, hydrateEvent_eq (hnamed event (by simp))]
    show List.foldlM (hydrateEvent nowMs) _ rest = _
    rw [ih fun e he => hnamed e (List.mem_cons_of_mem _ he), List.filter_cons]
    split <;> rfl

/-- What the snapshot makes of the rows that are counted. -/
def snapshotOf (rows : List (RunChargeEvent κ)) : RunChargeRollingWindowSnapshot κ where
  windowMs := runChargeRollingWindowMs
  spentByLane := spentOf rows
  entryCount := rows.length

theorem foldl_snapshotEntry {rows : List (RunChargeEvent κ)}
    (hrows : ∀ event ∈ rows, recordable nowMs event = true) :
    (rows.map RunChargeEvent.entry).foldl (snapshotEntry nowMs) emptySnapshot = snapshotOf rows := by
  induction rows using List.reverseRecOn with
  | nil => rfl
  | append_singleton rows event ih =>
    have hevent := hrows event (by simp)
    simp only [recordable, Bool.and_eq_true, decide_eq_true_eq] at hevent
    have hpast : ¬ nowMs < event.entry.timestampMs := not_lt.2 hevent.2
    have hpos : ¬ event.entry.amount ≤ 0 := not_le.2 hevent.1
    rw [List.map_append, List.foldl_append, ih fun e he => hrows e (List.mem_append_left _ he)]
    simp only [List.map_cons, List.map_nil, List.foldl_cons, List.foldl_nil, snapshotEntry,
      if_neg hpast, addSpentByLane, if_neg hpos]
    simp only [snapshotOf, spentOf_append, List.length_append, List.length_singleton]
    rfl

theorem recordable_of_mem {entries : List (RunChargeLedgerEntry κ)} :
    ∀ event ∈ recordedRows nowMs entries, recordable nowMs event = true := by
  intro event hmem
  have h := (List.mem_filter.1 hmem).2
  simp only [recorded, Bool.and_eq_true] at h
  simpa only [recordable, Bool.and_eq_true] using h.1

/-- The rows of the resident horizon. -/
def resident (nowMs : Rat) (entry : RunChargeLedgerEntry κ) : Bool :=
  nowMs - residentHorizonMs ≤ entry.event.timestampMs

omit [DecidableEq κ] in
theorem foldl_hydration (nowMs : Rat) (entries : List (RunChargeLedgerEntry κ)) :
    entries.foldl (fun acc entry =>
      if nowMs - residentHorizonMs ≤ entry.event.timestampMs then acc ++ [entry] else acc) [] =
      entries.filter (resident nowMs) := by
  induction entries using List.reverseRecOn with
  | nil => rfl
  | append_singleton entries entry ih =>
    rw [List.foldl_append, ih, List.filter_append]
    simp only [List.foldl_cons, List.foldl_nil]
    by_cases h : nowMs - residentHorizonMs ≤ entry.event.timestampMs
    · have hres : resident nowMs entry = true := decide_eq_true h
      rw [if_pos h, List.filter_singleton, hres]
      rfl
    · have hres : resident nowMs entry = false := decide_eq_false h
      rw [if_neg h, List.filter_singleton, hres]
      exact (List.append_nil _).symm

omit [DecidableEq κ] in
theorem recordedRows_resident (nowMs : Rat) (entries : List (RunChargeLedgerEntry κ)) :
    ((entries.filter (resident nowMs)).map (·.event)).filter (recordable nowMs) =
      recordedRows nowMs entries := by
  rw [recordedRows, List.filter_map, List.filter_map, List.filter_filter]
  rfl

/-- The window in memory, from the rows that were read. -/
theorem hydrate_snapshot {entries : List (RunChargeLedgerEntry κ)}
    (hnamed : ∀ entry ∈ entries, entry.Named) :
    (do
      let window ← hydrateRunChargeRollingWindowFromEvents []
        ((entries.filter (resident nowMs)).map (·.event)) nowMs
      return getRunChargeRollingWindowSnapshot window nowMs) =
      Except.ok (ε := String)
        (snapshotOf (firstRows nowMs (unblocked nowMs) (recordedRows nowMs entries))) := by
  have hevents : ∀ event ∈ (entries.filter (resident nowMs)).map (·.event),
      JsString.trim event.eventId ≠ "" := by
    intro event hmem
    obtain ⟨entry, hentry, rfl⟩ := List.mem_map.1 hmem
    exact hnamed entry (List.mem_filter.1 hentry).1
  have hpast : ∀ event ∈ recordedRows nowMs entries, event.timestampMs ≤ nowMs := by
    intro event hmem
    have h := recordable_of_mem event hmem
    simp only [recordable, Bool.and_eq_true, decide_eq_true_eq] at h
    exact h.2
  rw [hydrateRunChargeRollingWindowFromEvents, foldlM_hydrateEvent hevents, recordedRows_resident]
  show Except.ok (getRunChargeRollingWindowSnapshot
    (pruneRollingChargeWindow nowMs (windowOf (recordedRows nowMs entries))) nowMs) = _
  rw [getRunChargeRollingWindowSnapshot, pruneRollingChargeWindow, pruneRollingChargeWindow,
    List.filter_filter]
  simp only [Bool.and_self]
  rw [windowOf_filter hpast, foldl_snapshotEntry fun e he =>
    recordable_of_mem e (mem_of_mem_firstRows e he)]

/-! ## Rows that stand in for others -/

/-- The first row of its id in the window, and blocked. -/
def firstBlocked (nowMs : Rat) (before : List (RunChargeEvent κ)) (event : RunChargeEvent κ) :
    Bool :=
  blocked nowMs before event &&
    !before.any fun e => inWindow nowMs e && e.identity = event.identity

/-- The ids whose first row in the window is blocked. -/
def shadowedIds (nowMs : Rat) (rows : List (RunChargeEvent κ)) : List String :=
  (firstRows nowMs (firstBlocked nowMs) rows).map RunChargeEvent.identity

/-- The blocked rows the file scan counts. -/
def shadowedRows (nowMs : Rat) (rows : List (RunChargeEvent κ)) : List (RunChargeEvent κ) :=
  (firstRows nowMs anyRow rows).filter fun e => e.identity ∈ shadowedIds nowMs rows

/-- The later rows of the same ids the window in memory counts. -/
def standIns (nowMs : Rat) (rows : List (RunChargeEvent κ)) : List (RunChargeEvent κ) :=
  (firstRows nowMs (unblocked nowMs) rows).filter fun e => e.identity ∈ shadowedIds nowMs rows

theorem mem_anyRow {rows : List (RunChargeEvent κ)} :
    id ∈ (firstRows nowMs anyRow rows).map RunChargeEvent.identity ↔
      (rows.any fun e => inWindow nowMs e && e.identity = id) = true := by
  rw [mem_identities, List.any_eq_true]
  constructor
  · rintro ⟨before, event, after, rfl, hin, -, hid⟩
    exact ⟨event, by simp, by simp [hin, hid]⟩
  · rintro ⟨event, hmem, h⟩
    obtain ⟨before, after, rfl⟩ := List.append_of_mem hmem
    simp only [Bool.and_eq_true, decide_eq_true_eq] at h
    exact ⟨before, event, after, rfl, h.1, rfl, h.2⟩

theorem mem_anyRow_of_mem {keep : List (RunChargeEvent κ) → RunChargeEvent κ → Bool}
    {rows : List (RunChargeEvent κ)}
    (h : id ∈ (firstRows nowMs keep rows).map RunChargeEvent.identity) :
    id ∈ (firstRows nowMs anyRow rows).map RunChargeEvent.identity := by
  rw [mem_identities] at h ⊢
  obtain ⟨before, event, after, hrows, hin, -, hid⟩ := h
  exact ⟨before, event, after, hrows, hin, rfl, hid⟩

/-- An id of the window that the memory does not count is shadowed. -/
theorem shadowed_of_missing {rows : List (RunChargeEvent κ)}
    (hany : id ∈ (firstRows nowMs anyRow rows).map RunChargeEvent.identity)
    (hmissing : id ∉ (firstRows nowMs (unblocked nowMs) rows).map RunChargeEvent.identity) :
    id ∈ shadowedIds nowMs rows := by
  induction rows using List.reverseRecOn with
  | nil => exact absurd hany List.not_mem_nil
  | append_singleton rows event ih =>
    rw [identities_append] at hany hmissing
    rw [shadowedIds, identities_append]
    obtain ⟨hbefore, hevent⟩ := not_or.1 hmissing
    by_cases hearlier : id ∈ (firstRows nowMs anyRow rows).map RunChargeEvent.identity
    · exact .inl (ih hearlier hbefore)
    · obtain ⟨hin, -, rfl⟩ := hany.resolve_left hearlier
      have hblocked : blocked nowMs rows event = true := by
        by_contra h
        exact hevent ⟨hin, by simp [unblocked, h], rfl⟩
      have hfirst : (rows.any fun e => inWindow nowMs e && e.identity = event.identity) = false :=
        Bool.eq_false_iff.2 fun h => hearlier (mem_anyRow.2 h)
      exact .inr ⟨hin, by rw [firstBlocked, hblocked, hfirst]; rfl, rfl⟩

theorem firstRows_append_of_outside {keep : List (RunChargeEvent κ) → RunChargeEvent κ → Bool}
    {rows : List (RunChargeEvent κ)} {event : RunChargeEvent κ} (h : inWindow nowMs event = false) :
    firstRows nowMs keep (rows ++ [event]) = firstRows nowMs keep rows := by
  rw [firstRows_append, h]
  rfl

theorem firstRows_append_of_dropped {keep : List (RunChargeEvent κ) → RunChargeEvent κ → Bool}
    {rows : List (RunChargeEvent κ)} {event : RunChargeEvent κ} (h : keep rows event = false) :
    firstRows nowMs keep (rows ++ [event]) = firstRows nowMs keep rows := by
  rw [firstRows_append, h, Bool.and_false]
  rfl

theorem firstRows_append_of_counted {keep : List (RunChargeEvent κ) → RunChargeEvent κ → Bool}
    {rows : List (RunChargeEvent κ)} {event : RunChargeEvent κ}
    (h : event.identity ∈ (firstRows nowMs keep rows).map RunChargeEvent.identity) :
    firstRows nowMs keep (rows ++ [event]) = firstRows nowMs keep rows := by
  rw [firstRows_append, any_identity_iff.2 h, Bool.not_true, Bool.and_false]
  rfl

theorem firstRows_append_of_new {keep : List (RunChargeEvent κ) → RunChargeEvent κ → Bool}
    {rows : List (RunChargeEvent κ)} {event : RunChargeEvent κ} (hin : inWindow nowMs event = true)
    (hkeep : keep rows event = true)
    (h : event.identity ∉ (firstRows nowMs keep rows).map RunChargeEvent.identity) :
    firstRows nowMs keep (rows ++ [event]) = firstRows nowMs keep rows ++ [event] := by
  have hnone := Bool.eq_false_iff.2 (mt any_identity_iff.1 h)
  rw [firstRows_append, hin, hkeep, hnone]
  rfl

/-- Outside the shadowed ids the two computations count the same rows. -/
theorem filter_not_shadowed (nowMs : Rat) (rows : List (RunChargeEvent κ)) :
    (firstRows nowMs (unblocked nowMs) rows).filter
        (fun e => !decide (e.identity ∈ shadowedIds nowMs rows)) =
      (firstRows nowMs anyRow rows).filter
        (fun e => !decide (e.identity ∈ shadowedIds nowMs rows)) := by
  induction rows using List.reverseRecOn with
  | nil => rfl
  | append_singleton rows event ih =>
    rw [shadowedIds] at ih ⊢
    cases hin : inWindow nowMs event with
    | false =>
      rw [firstRows_append_of_outside hin, firstRows_append_of_outside hin,
        firstRows_append_of_outside hin]
      exact ih
    | true =>
      by_cases hany : event.identity ∈ (firstRows nowMs anyRow rows).map RunChargeEvent.identity
      · -- a later row of its id: only a stand-in is added
        have hnotfirst : firstBlocked nowMs rows event = false := by
          rw [firstBlocked, mem_anyRow.1 hany, Bool.not_true, Bool.and_false]
        rw [firstRows_append_of_counted hany, firstRows_append_of_dropped hnotfirst, ← ih]
        by_cases hcounted :
            event.identity ∈ (firstRows nowMs (unblocked nowMs) rows).map RunChargeEvent.identity
        · rw [firstRows_append_of_counted hcounted]
        cases hkeep : unblocked nowMs rows event with
        | false => rw [firstRows_append_of_dropped hkeep]
        | true =>
          have hshadowed : event.identity ∈
              (firstRows nowMs (firstBlocked nowMs) rows).map RunChargeEvent.identity :=
            shadowed_of_missing hany hcounted
          rw [firstRows_append_of_new hin hkeep hcounted, List.filter_append, List.filter_singleton,
            decide_eq_true hshadowed]
          exact List.append_nil _
      · have hunblocked := mt mem_anyRow_of_mem hany
          (a := event.identity ∈ (firstRows nowMs (unblocked nowMs) rows).map
            RunChargeEvent.identity)
        have hshadowed := mt mem_anyRow_of_mem hany
          (a := event.identity ∈ (firstRows nowMs (firstBlocked nowMs) rows).map
            RunChargeEvent.identity)
        have hfirst : (rows.any fun e => inWindow nowMs e && e.identity = event.identity) = false :=
          Bool.eq_false_iff.2 fun h => hany (mem_anyRow.2 h)
        rw [firstRows_append_of_new hin rfl hany]
        cases hblocked : blocked nowMs rows event with
        | true =>
          have hkeep : unblocked nowMs rows event = false := by rw [unblocked, hblocked]; rfl
          have hshadow : firstBlocked nowMs rows event = true := by
            rw [firstBlocked, hblocked, hfirst]
            rfl
          rw [firstRows_append_of_dropped hkeep, firstRows_append_of_new hin hshadow hshadowed,
            List.filter_append]
          -- no row counted so far has the new id
          have hsame : ∀ counted : List (RunChargeEvent κ),
              event.identity ∉ counted.map RunChargeEvent.identity →
              counted.filter (fun e => !decide (e.identity ∈
                (firstRows nowMs (firstBlocked nowMs) rows ++ [event]).map
                  RunChargeEvent.identity)) =
              counted.filter (fun e => !decide (e.identity ∈
                (firstRows nowMs (firstBlocked nowMs) rows).map RunChargeEvent.identity)) := by
            intro counted hnew
            refine List.filter_congr fun e he => ?_
            have hne : e.identity ≠ event.identity :=
              fun h => hnew (h ▸ List.mem_map_of_mem he)
            simp [hne]
          rw [hsame _ hunblocked, hsame _ hany, ih]
          simp
        | false =>
          have hkeep : unblocked nowMs rows event = true := by rw [unblocked, hblocked]; rfl
          have hshadow : firstBlocked nowMs rows event = false := by rw [firstBlocked, hblocked]; rfl
          rw [firstRows_append_of_new hin hkeep hunblocked, firstRows_append_of_dropped hshadow,
            List.filter_append, List.filter_append, ih]

/-- Every shadowed id has a stand-in, and lane by lane the stand-ins spend what the rows they
stand in for spend. -/
def StandInsMatch (nowMs : Rat) (rows : List (RunChargeEvent κ)) : Prop :=
  (∀ id ∈ shadowedIds nowMs rows, ∃ row ∈ standIns nowMs rows, row.identity = id) ∧
    ∀ lane, laneTotal (standIns nowMs rows) lane = laneTotal (shadowedRows nowMs rows) lane

theorem laneTotal_eq_iff (nowMs : Rat) (rows : List (RunChargeEvent κ)) (lane : κ) :
    laneTotal (firstRows nowMs (unblocked nowMs) rows) lane =
        laneTotal (firstRows nowMs anyRow rows) lane ↔
      laneTotal (standIns nowMs rows) lane = laneTotal (shadowedRows nowMs rows) lane := by
  rw [laneTotal_filter _ (fun e => e.identity ∈ shadowedIds nowMs rows),
    laneTotal_filter (firstRows nowMs anyRow rows) (fun e => e.identity ∈ shadowedIds nowMs rows),
    filter_not_shadowed, add_left_inj]
  rfl

theorem length_eq_iff (nowMs : Rat) (rows : List (RunChargeEvent κ)) :
    (firstRows nowMs (unblocked nowMs) rows).length = (firstRows nowMs anyRow rows).length ↔
      ∀ id ∈ shadowedIds nowMs rows, ∃ row ∈ standIns nowMs rows, row.identity = id := by
  have hsub : (firstRows nowMs (unblocked nowMs) rows).map RunChargeEvent.identity ⊆
      (firstRows nowMs anyRow rows).map RunChargeEvent.identity := fun id => mem_anyRow_of_mem
  have hsubperm := List.subperm_of_subset (identities_nodup nowMs (unblocked nowMs) rows) hsub
  constructor
  · intro hlength id hid
    have hperm := hsubperm.perm_of_length_le (by simp [hlength])
    have hmem := hperm.mem_iff.2 (mem_anyRow_of_mem hid)
    obtain ⟨row, hrow, rfl⟩ := List.mem_map.1 hmem
    exact ⟨row, List.mem_filter.2 ⟨hrow, decide_eq_true hid⟩, rfl⟩
  · intro hstand
    have hsup : (firstRows nowMs anyRow rows).map RunChargeEvent.identity ⊆
        (firstRows nowMs (unblocked nowMs) rows).map RunChargeEvent.identity := by
      intro id hid
      by_contra hmissing
      obtain ⟨row, hrow, rfl⟩ := hstand id (shadowed_of_missing hid hmissing)
      exact hmissing (List.mem_map_of_mem (List.mem_filter.1 hrow).1)
    have hge := (List.subperm_of_subset (identities_nodup nowMs anyRow rows) hsup).length_le
    have hle := hsubperm.length_le
    simp only [List.length_map] at hge hle
    omega

/-! ## The two computations -/

theorem trim_text_ne {value : JsValue} (h : (normalizeOptionalString value).isSome = true) :
    JsString.trim (text value) ≠ "" := by
  unfold normalizeOptionalString at h
  split at h
  · intro hblank
    rw [text] at hblank
    rw [if_pos hblank] at h
    exact Bool.false_ne_true h
  · exact absurd h Bool.false_ne_true

/-- A row that passes the checks names its event. -/
theorem named_of_readLedgerRow {key : JsValue → κ} {path : String} {line : LedgerLine}
    {entry : RunChargeLedgerEntry κ} (h : readLedgerRow key path line = .ok entry) :
    entry.Named := by
  rw [readLedgerRow] at h
  split at h
  · exact absurd h (by simp)
  · rename_i value _
    obtain ⟨_, hassert, hentry⟩ := bind_eq_ok.1 h
    simp only [assertLedgerEntry, bind_eq_ok, throwIf_eq_ok] at hassert
    obtain ⟨_, -, _, -, _, hid, -⟩ := hassert
    have hsome : (normalizeOptionalString (value.property "eventId")).isSome = true := by
      simpa using hid
    obtain rfl : withEventIdentity key value = entry := Except.ok.inj hentry
    rw [RunChargeLedgerEntry.Named, withEventIdentity]
    dsimp only
    split
    · exact trim_text_ne ‹_›
    · exact trim_text_ne hsome

theorem named_of_mapM {key : JsValue → κ} {path : String} {lines : List LedgerLine}
    {entries : List (RunChargeLedgerEntry κ)}
    (h : lines.mapM (readLedgerRow key path) = .ok entries) : ∀ entry ∈ entries, entry.Named := by
  induction lines generalizing entries with
  | nil =>
    obtain rfl : [] = entries := Except.ok.inj h
    exact fun _ hmem => absurd hmem List.not_mem_nil
  | cons line rest ih =>
    rw [List.mapM_cons] at h
    obtain ⟨entry, hentry, h⟩ := bind_eq_ok.1 h
    obtain ⟨more, hmore, h⟩ := bind_eq_ok.1 h
    obtain rfl : entry :: more = entries := Except.ok.inj h
    intro e he
    rcases List.mem_cons.1 he with rfl | he
    · exact named_of_readLedgerRow hentry
    · exact ih hmore e he

/-- The same answer: the same error, or the same spend in every lane and the same count. -/
def WindowsAgree :
    Except String (RunChargeRollingWindowSnapshot κ) →
      Except String (RunChargeRollingWindowSnapshot κ) → Prop
  | .error e, .error e' => e = e'
  | .ok s, .ok s' =>
    (∀ lane, s.spentByLane.get lane = s'.spentByLane.get lane) ∧ s.entryCount = s'.entryCount
  | _, _ => False

theorem hydratedWindow_eq (key : JsValue → κ) (path : String) (nowMs : Rat)
    (lines : List LedgerLine) :
    hydratedWindow key path nowMs lines =
      (lines.mapM (readLedgerRow key path)).map fun entries =>
        snapshotOf (firstRows nowMs (unblocked nowMs) (recordedRows nowMs entries)) := by
  rw [hydratedWindow, readLedgerHydration]
  have hread : lines.foldlM (hydrationVisitor key path nowMs) [] = _ :=
    foldlM_read (readLedgerRow key path) (fun acc entry =>
      if nowMs - residentHorizonMs ≤ entry.event.timestampMs then acc ++ [entry] else acc) lines []
  rw [hread]
  cases hentries : lines.mapM (readLedgerRow key path) with
  | error e => rfl
  | ok entries =>
    show (do
      let window ← hydrateRunChargeRollingWindowFromEvents [] (List.map _ (List.foldl _ _ _)) nowMs
      return getRunChargeRollingWindowSnapshot window nowMs) = _
    rw [foldl_hydration]
    exact hydrate_snapshot (named_of_mapM hentries)

theorem readRunChargeRollingWindowFromLedger_eq (key : JsValue → κ) (path : String) (nowMs : Rat)
    (lines : List LedgerLine) :
    readRunChargeRollingWindowFromLedger key path nowMs lines =
      (lines.mapM (readLedgerRow key path)).map fun entries =>
        snapshotOf (firstRows nowMs anyRow (recordedRows nowMs entries)) := by
  rw [readRunChargeRollingWindowFromLedger]
  have hread : lines.foldlM (scanLine key path nowMs) _ = _ :=
    foldlM_read (readLedgerRow key path) (scanEntry nowMs) lines
      { seenEventIds := [], spentByLane := .empty, entryCount := 0 }
  rw [hread]
  cases hentries : lines.mapM (readLedgerRow key path) with
  | error e => rfl
  | ok entries =>
    show Except.ok (RunChargeRollingWindowSnapshot.mk _
      (List.foldl (scanEntry nowMs) _ entries).spentByLane
      (List.foldl (scanEntry nowMs) _ entries).entryCount) = _
    rw [foldl_scanEntry (named_of_mapM hentries)]
    rfl

theorem get_spentOf_eq_iff {rows rows' : List (RunChargeEvent κ)}
    (hpos : ∀ e ∈ rows, 0 < e.amount) (hpos' : ∀ e ∈ rows', 0 < e.amount) (lane : κ) :
    (spentOf rows).get lane = (spentOf rows').get lane ↔
      laneTotal rows lane = laneTotal rows' lane := by
  rw [get_spentOf hpos, get_spentOf hpos']
  constructor
  · intro h
    split at h <;> split at h <;> simp_all
  · intro h
    rw [h]

/-- A row of the ledger that charges 1. -/
def chargeRow (line : Nat) (eventId : String) (timestampMs : Rat) : LedgerLine where
  line := line
  parsed := .ok (.object
    [("schemaVersion", .number (.finite 1)), ("recordType", .string "charge_event"),
     ("eventId", .string eventId), ("recordedAtMs", .number (.finite timestampMs)),
     ("event", .object
       [("eventId", .string eventId), ("timestampMs", .number (.finite timestampMs)),
        ("lane", .string "model"), ("amount", .number (.finite 1)),
        ("lineage", .object [("runId", .string "r"), ("rootRunId", .string "r")])])])

/-- The id was charged a millisecond before the window opened, and again inside it: the file
scan counts the second row, the window in memory does not. -/
theorem repeated_id_before_window :
    ¬ WindowsAgree
      (hydratedWindow text "charges.jsonl" 100000000
        [chargeRow 1 "a" 13599999, chargeRow 2 "a" 20000000])
      (readRunChargeRollingWindowFromLedger text "charges.jsonl" 100000000
        [chargeRow 1 "a" 13599999, chargeRow 2 "a" 20000000]) := by
  intro h
  have hmemory : (hydratedWindow text "charges.jsonl" 100000000
      [chargeRow 1 "a" 13599999, chargeRow 2 "a" 20000000]).map (·.entryCount) = .ok 0 := by
    decide +kernel
  have hfile : (readRunChargeRollingWindowFromLedger text "charges.jsonl" 100000000
      [chargeRow 1 "a" 13599999, chargeRow 2 "a" 20000000]).map (·.entryCount) = .ok 1 := by
    decide +kernel
  revert h hmemory hfile
  cases hydratedWindow text "charges.jsonl" 100000000
      [chargeRow 1 "a" 13599999, chargeRow 2 "a" 20000000] with
  | error e => exact fun _ hmemory => absurd hmemory (by simp [Except.map])
  | ok memory =>
    cases readRunChargeRollingWindowFromLedger text "charges.jsonl" 100000000
        [chargeRow 1 "a" 13599999, chargeRow 2 "a" 20000000] with
    | error e => exact fun _ _ hfile => absurd hfile (by simp [Except.map])
    | ok file =>
      intro h hmemory hfile
      have hcount : memory.entryCount = file.entryCount := h.2
      have hzero : memory.entryCount = 0 := Except.ok.inj hmemory
      have hone : file.entryCount = 1 := Except.ok.inj hfile
      omega

/-- **The rolling windows agree** on a ledger exactly when every row of the window that finds its
id held by a row older than the window is made up for by the rows that stand in. -/
theorem rolling_windows_agree_iff (key : JsValue → κ) (path : String) (nowMs : Rat)
    (lines : List LedgerLine) :
    WindowsAgree (hydratedWindow key path nowMs lines)
        (readRunChargeRollingWindowFromLedger key path nowMs lines) ↔
      ∀ entries, lines.mapM (readLedgerRow key path) = .ok entries →
        StandInsMatch nowMs (recordedRows nowMs entries) := by
  rw [hydratedWindow_eq, readRunChargeRollingWindowFromLedger_eq]
  cases hentries : lines.mapM (readLedgerRow key path) with
  | error e =>
    constructor
    · intro _ entries h
      exact absurd h (by simp)
    · intro _
      exact rfl
  | ok entries =>
    have hpos : ∀ keep, ∀ e ∈ firstRows nowMs keep (recordedRows nowMs entries), 0 < e.amount := by
      intro keep e he
      have h := recordable_of_mem e (mem_of_mem_firstRows e he)
      simp only [recordable, Bool.and_eq_true, decide_eq_true_eq] at h
      exact h.1
    have hiff : WindowsAgree
        (.ok (snapshotOf (firstRows nowMs (unblocked nowMs) (recordedRows nowMs entries))))
        (.ok (snapshotOf (firstRows nowMs anyRow (recordedRows nowMs entries)))) ↔
        StandInsMatch nowMs (recordedRows nowMs entries) := by
      rw [StandInsMatch, ← length_eq_iff, and_comm]
      refine and_congr ?_ Iff.rfl |>.trans and_comm |>.trans and_comm
      refine forall_congr' fun lane => ?_
      rw [← laneTotal_eq_iff]
      exact get_spentOf_eq_iff (hpos _) (hpos _) lane
    constructor
    · intro h entries' heq
      obtain rfl : entries = entries' := by simpa using heq
      exact hiff.1 h
    · intro h
      exact hiff.2 (h entries rfl)

end Psfn.Charge
