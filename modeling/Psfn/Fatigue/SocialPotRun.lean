import Psfn.Fatigue.SocialPot

/-!
# The social pot — runs

Every operation regenerates first, and regenerating twice, at the later time last, is
regenerating once. So what a read persists is what the next operation would have found, provided
that it reads with the same configuration and not ahead of it.

* `social_pot_accounting` — bounds, refusals, reads, backward clocks and the total of what is
  drawn, over all runs.
* `read_ahead_changes_draw` — a read with a clock that is ahead credits what is not due yet.
-/

namespace Psfn.Fatigue

open Psfn.Lib

/-! ## Ticks -/

theorem elapsedTicks_eq (lastRegenAtMs nowMs tickMs : Nat) :
    elapsedTicks lastRegenAtMs nowMs tickMs = (nowMs - lastRegenAtMs) / tickMs := by
  unfold elapsedTicks
  split
  · rfl
  · have hzero : nowMs - lastRegenAtMs = 0 := by omega
    rw [hzero, Nat.zero_div]

/-- The ticks after a boundary are those of before, less the ones up to it. -/
theorem elapsedTicks_boundary (lastRegenAtMs nowMs tickMs ticks : Nat) :
    elapsedTicks (lastRegenAtMs + ticks * tickMs) nowMs tickMs =
      elapsedTicks lastRegenAtMs nowMs tickMs - ticks := by
  rw [elapsedTicks_eq, elapsedTicks_eq, Nat.sub_add_eq, Nat.mul_comm, Nat.sub_mul_div]

theorem elapsedTicks_mono (lastRegenAtMs tickMs : Nat) {nowMs laterMs : Nat}
    (h : nowMs ≤ laterMs) :
    elapsedTicks lastRegenAtMs nowMs tickMs ≤ elapsedTicks lastRegenAtMs laterMs tickMs := by
  rw [elapsedTicks_eq, elapsedTicks_eq]
  exact Nat.div_le_div_right (Nat.sub_le_sub_right h _)

/-- Less than a tick is left over. -/
theorem elapsedTicks_rest (lastRegenAtMs nowMs : Nat) {tickMs : Nat} (htick : 0 < tickMs) :
    nowMs < lastRegenAtMs + elapsedTicks lastRegenAtMs nowMs tickMs * tickMs + tickMs := by
  rw [elapsedTicks_eq]
  have hrest := Nat.mod_lt (nowMs - lastRegenAtMs) htick
  have hdiv := Nat.div_add_mod (nowMs - lastRegenAtMs) tickMs
  rw [Nat.mul_comm] at hdiv
  omega

theorem elapsedTicks_eq_zero {lastRegenAtMs nowMs tickMs : Nat}
    (h : nowMs < lastRegenAtMs + tickMs) : elapsedTicks lastRegenAtMs nowMs tickMs = 0 := by
  rw [elapsedTicks_eq]
  by_cases hlt : nowMs - lastRegenAtMs < tickMs
  · exact Nat.div_eq_of_lt hlt
  · have hzero : nowMs - lastRegenAtMs = 0 := by omega
    rw [hzero, Nat.zero_div]

theorem min_add_min (cap balance a b : Rat) (hb : 0 ≤ b) :
    min cap (min cap (balance + a) + b) = min cap (balance + (a + b)) := by
  rcases le_total cap (balance + a) with h | h
  · rw [min_eq_left h, min_eq_left (by linarith), min_eq_left (by linarith)]
  · rw [min_eq_right h, add_assoc]

/-! ## What an operation leaves -/

@[simp] theorem persistIfChanged_balance (current : SocialPotRow) (balance : Rat) (lastMs : Nat)
    (h : 0 ≤ balance) : (persistIfChanged current balance lastMs h).balance = balance := by
  unfold persistIfChanged
  split
  · rename_i hsame
    exact hsame.1.symm
  · rfl

@[simp] theorem persistIfChanged_lastRegenAtMs (current : SocialPotRow) (balance : Rat)
    (lastMs : Nat) (h : 0 ≤ balance) :
    (persistIfChanged current balance lastMs h).lastRegenAtMs = lastMs := by
  unfold persistIfChanged
  split
  · rename_i hsame
    exact hsame.2.symm
  · rfl

namespace PotOp

/-- The balance an operation makes of the regenerated one. -/
def nextBalance (balance : Rat) : PotOp → Rat
  | readPot _ _ => balance
  | draw _ _ amount maxDrawFraction =>
    drawBalance (isSufficient maxDrawFraction amount.1 balance) balance amount.1
  | refund _ config amount => min (balance + amount.1) config.capUnits

/-- The row an operation starts from, regenerated. -/
def regenerated (row : Option SocialPotRow) (op : PotOp) : SocialPotRegenerationResult :=
  regenerateRow (loadOrInitialize row op.nowMs op.config) op.nowMs op.config

theorem run_balance (row : Option SocialPotRow) (op : PotOp) :
    (op.run row).1.balance = op.nextBalance (op.regenerated row).balance := by
  cases op <;> exact persistIfChanged_balance _ _ _ _

theorem run_lastRegenAtMs (row : Option SocialPotRow) (op : PotOp) :
    (op.run row).1.lastRegenAtMs = (op.regenerated row).lastRegenAtMs := by
  cases op <;> exact persistIfChanged_lastRegenAtMs _ _ _ _

theorem nextBalance_le (op : PotOp) {balance : Rat} (h : balance ≤ op.config.capUnits) :
    op.nextBalance balance ≤ op.config.capUnits := by
  cases op with
  | readPot nowMs config => exact h
  | draw nowMs config amount maxDrawFraction =>
    show drawBalance _ balance amount.1 ≤ _
    unfold drawBalance
    split
    · have hpos := amount.2
      have hcap : balance ≤ config.capUnits := h
      show balance - amount.1 ≤ config.capUnits
      linarith
    · exact h
  | refund nowMs config amount => exact min_le_right _ _

end PotOp

/-- What is drawn by an operation. -/
def drawnBy : PotResult → Rat
  | .snapshot _ => 0
  | .draw result => result.drawn

/-- What an operation gives back. -/
def refundedBy : PotOp → Rat
  | .refund _ _ amount => amount.1
  | _ => 0

/-- No operation makes units. -/
theorem nextBalance_add_drawnBy (row : Option SocialPotRow) (op : PotOp) :
    op.nextBalance (op.regenerated row).balance + drawnBy (op.run row).2 ≤
      (op.regenerated row).balance + refundedBy op := by
  cases op with
  | readPot nowMs config => exact le_refl _
  | draw nowMs config amount maxDrawFraction =>
    generalize hbalance : ((PotOp.draw nowMs config amount maxDrawFraction).regenerated row).balance
      = balance
    have hdrawn : drawnBy ((PotOp.draw nowMs config amount maxDrawFraction).run row).2 =
        if isSufficient maxDrawFraction amount.1 balance then amount.1 else 0 := by
      rw [← hbalance]
      rfl
    rw [hdrawn]
    show drawBalance _ balance amount.1 + _ ≤ balance + 0
    unfold drawBalance
    split <;> linarith
  | refund nowMs config amount =>
    show min (_ + amount.1) config.capUnits + 0 ≤ _ + amount.1
    rw [add_zero]
    exact min_le_left _ _

/-! ## What should hold -/

/-- After every operation the balance lies between 0 and the cap of the operation. -/
def BalanceBounded : Prop :=
  ∀ (row : Option SocialPotRow) (ops : List PotOp) (op : PotOp),
    ∃ after, potAfter row (ops ++ [op]) = some after ∧
      0 ≤ after.balance ∧ after.balance ≤ op.config.capUnits

/-- A draw that is refused draws nothing, and leaves the pot as a read at its place would. -/
def RefusalsOnlyRegenerate : Prop :=
  ∀ (row : Option SocialPotRow) (nowMs : Nat) (config : PotConfig) (amount : {q : Rat // 0 < q})
    (maxDrawFraction : Option {q : Rat // 0 < q ∧ q ≤ 1}),
    (draw row nowMs config amount maxDrawFraction).2.outcome ≠ .drawn →
      (draw row nowMs config amount maxDrawFraction).2.drawn = 0 ∧
      (draw row nowMs config amount maxDrawFraction).1 = (readPot row nowMs config).1

/-- A result without the row's write counter. -/
def observed : PotResult → PotResult
  | .snapshot s => .snapshot { s with revision := 0 }
  | .draw r =>
    .draw { r with before := { r.before with revision := 0 }, after := { r.after with revision := 0 } }

/-- The outcomes of a list of operations. -/
def outcomes : SocialPotRow → List PotOp → List PotResult
  | _, [] => []
  | row, op :: rest => observed (op.run (some row)).2 :: outcomes (op.run (some row)).1 rest

/-- The outcomes of the operations when each comes after extra reads, at the given times and with
the operation's own configuration. -/
def outcomesWithReads : SocialPotRow → List (List Nat × PotOp) → List PotResult
  | _, [] => []
  | row, (reads, op) :: rest =>
    let before := reads.foldl (fun row nowMs => (readPot (some row) nowMs op.config).1) row
    observed (op.run (some before)).2 :: outcomesWithReads (op.run (some before)).1 rest

/-- Extra reads of a pot, none of them ahead of the operation they come before, change no
outcome. -/
def ReadsTransparent : Prop :=
  ∀ (row : SocialPotRow) (padded : List (List Nat × PotOp)),
    (∀ entry ∈ padded, ∀ nowMs ∈ entry.1, nowMs ≤ entry.2.nowMs) →
      outcomesWithReads row padded = outcomes row (padded.map Prod.snd)

/-- Regeneration credits nothing, and leaves the last boundary where it is. -/
def CreditsNothing (row : SocialPotRow) (op : PotOp) : Prop :=
  (regenerateRow row op.nowMs op.config).balance = min op.config.capUnits row.balance ∧
    (regenerateRow row op.nowMs op.config).lastRegenAtMs = row.lastRegenAtMs

/-- An operation credits nothing when its clock is not past the last boundary, nor when an earlier
operation, with ticks that were not longer, had seen the same time or a later one. -/
def BackwardClockCreditsNothing : Prop :=
  (∀ (row : SocialPotRow) (op : PotOp), op.nowMs ≤ row.lastRegenAtMs → CreditsNothing row op) ∧
  ∀ (row : Option SocialPotRow) (ops : List PotOp) (earlier op : PotOp), earlier ∈ ops →
    op.nowMs ≤ earlier.nowMs →
    earlier.config.regenerationTickMs ≤ op.config.regenerationTickMs →
      ∃ after, potAfter row ops = some after ∧ CreditsNothing after op

def totalDrawn : Option SocialPotRow → List PotOp → Rat
  | _, [] => 0
  | row, op :: rest => drawnBy (op.run row).2 + totalDrawn (some (op.run row).1) rest

def totalRefunded : List PotOp → Rat
  | [] => 0
  | op :: rest => refundedBy op + totalRefunded rest

def latestMs : List PotOp → Nat
  | [] => 0
  | op :: rest => max op.nowMs (latestMs rest)

/-- With one configuration, what is drawn from a pot since its first operation is at most the cap,
what was refunded, and the units of the whole ticks up to the latest time seen. -/
def DrawsBounded : Prop :=
  ∀ (config : PotConfig) (first : PotOp) (rest : List PotOp),
    (∀ op ∈ first :: rest, op.config = config) →
      totalDrawn none (first :: rest) ≤
        config.capUnits + totalRefunded (first :: rest) +
          config.regenerationUnitsPerTick *
            (((latestMs (first :: rest) - first.nowMs) / config.regenerationTickMs : Nat) : Rat)

/-! ## Bounds and refusals -/

theorem potAfter_append (row : Option SocialPotRow) (ops : List PotOp) (op : PotOp) :
    potAfter row (ops ++ [op]) = some (op.run (potAfter row ops)).1 := by
  rw [potAfter, List.foldl_append]
  rfl

theorem balanceBounded : BalanceBounded := by
  intro row ops op
  refine ⟨_, potAfter_append row ops op, SocialPotRow.nonneg _, ?_⟩
  rw [PotOp.run_balance]
  exact op.nextBalance_le (min_le_left _ _)

theorem refusalsOnlyRegenerate : RefusalsOnlyRegenerate := by
  intro row nowMs config amount maxDrawFraction hrefused
  generalize hsufficient : isSufficient maxDrawFraction amount.1
    (regenerateRow (loadOrInitialize row nowMs config) nowMs config).balance = sufficient
  cases sufficient with
  | true =>
    refine absurd ?_ hrefused
    show (if isSufficient _ _ _ then _ else _) = _
    rw [hsufficient]
    rfl
  | false =>
    refine ⟨?_, ?_⟩
    · show (if isSufficient _ _ _ then _ else _) = _
      rw [hsufficient]
      rfl
    · show persistIfChanged _ (drawBalance (isSufficient _ _ _) _ _) _ _ = _
      simp only [hsufficient]
      rfl

/-! ## Extra reads -/

/-- The rows agree in all but the write counter. -/
def SameUnits (row row' : SocialPotRow) : Prop :=
  row.balance = row'.balance ∧ row.lastRegenAtMs = row'.lastRegenAtMs

theorem regenerateRow_congr {row row' : SocialPotRow} (h : SameUnits row row') (nowMs : Nat)
    (config : PotConfig) : regenerateRow row nowMs config = regenerateRow row' nowMs config := by
  rw [regenerateRow, regenerateRow, h.1, h.2]

/-- What an operation does is decided by the regenerated row. -/
theorem run_congr {row row' : SocialPotRow} {op : PotOp}
    (h : regenerateRow row op.nowMs op.config = regenerateRow row' op.nowMs op.config) :
    SameUnits (op.run (some row)).1 (op.run (some row')).1 ∧
      observed (op.run (some row)).2 = observed (op.run (some row')).2 := by
  have hregenerated : op.regenerated (some row) = op.regenerated (some row') := h
  have hunits : SameUnits (op.run (some row)).1 (op.run (some row')).1 := by
    refine ⟨?_, ?_⟩
    · rw [PotOp.run_balance, PotOp.run_balance, hregenerated]
    · rw [PotOp.run_lastRegenAtMs, PotOp.run_lastRegenAtMs, hregenerated]
  refine ⟨hunits, ?_⟩
  -- the snapshots show the row, and the draw also what it found
  have hsnapshot : ∀ cap, ({ toSnapshot (op.run (some row)).1 cap with revision := 0 } :
      SocialPotSnapshot) = { toSnapshot (op.run (some row')).1 cap with revision := 0 } := by
    intro cap
    simp only [toSnapshot, hunits.1, hunits.2]
  cases op with
  | readPot nowMs config => exact congrArg PotResult.snapshot (hsnapshot config.capUnits)
  | refund nowMs config amount => exact congrArg PotResult.snapshot (hsnapshot config.capUnits)
  | draw nowMs config amount maxDrawFraction =>
    have hafter := hsnapshot config.capUnits
    change regenerateRow row nowMs config = regenerateRow row' nowMs config at h
    have hbefore : (regenerateRow row nowMs config).balance =
        (regenerateRow row' nowMs config).balance := congrArg _ h
    have hlast : (regenerateRow row nowMs config).lastRegenAtMs =
        (regenerateRow row' nowMs config).lastRegenAtMs := congrArg _ h
    show PotResult.draw _ = PotResult.draw _
    rw [PotResult.draw.injEq, SocialPotDrawResult.mk.injEq]
    refine ⟨?_, ?_, ?_, hafter⟩
    · show (if isSufficient _ _ (regenerateRow row nowMs config).balance then _
        else if isCapped _ _ (regenerateRow row nowMs config).balance then _ else _) = _
      rw [hbefore]
      rfl
    · show (if isSufficient _ _ (regenerateRow row nowMs config).balance then _ else _) = _
      rw [hbefore]
      rfl
    · show SocialPotSnapshot.mk (regenerateRow row nowMs config).balance _
        (regenerateRow row nowMs config).lastRegenAtMs _ = _
      rw [hbefore, hlast]
      rfl

/-- **Regenerating twice** is regenerating once, at the later time. -/
theorem regenerateRow_readPot {row : SocialPotRow} {readMs nowMs : Nat} (config : PotConfig)
    (h : readMs ≤ nowMs) :
    regenerateRow (readPot (some row) readMs config).1 nowMs config =
      regenerateRow row nowMs config := by
  have hbalance := PotOp.run_balance (some row) (.readPot readMs config)
  have hlast := PotOp.run_lastRegenAtMs (some row) (.readPot readMs config)
  change (readPot (some row) readMs config).1.balance =
    (regenerateRow row readMs config).balance at hbalance
  change (readPot (some row) readMs config).1.lastRegenAtMs =
    (regenerateRow row readMs config).lastRegenAtMs at hlast
  rw [regenerateRow, hbalance, hlast, regenerateRow, regenerateRow]
  generalize htick : config.regenerationTickMs = tick
  have hle := elapsedTicks_mono row.lastRegenAtMs tick h
  have hsplit := elapsedTicks_boundary row.lastRegenAtMs nowMs tick
    (elapsedTicks row.lastRegenAtMs readMs tick)
  simp only [regenerateSocialPot, htick, hsplit]
  generalize elapsedTicks row.lastRegenAtMs readMs tick = before at hle
  generalize elapsedTicks row.lastRegenAtMs nowMs tick = total at hle
  obtain ⟨more, rfl⟩ := Nat.exists_eq_add_of_le hle
  have hcredit : 0 ≤ (more : Rat) * config.regenerationUnitsPerTick :=
    mul_nonneg (Nat.cast_nonneg _) config.units_pos.le
  rw [Nat.add_sub_cancel_left, min_add_min _ _ _ _ hcredit, Nat.cast_add]
  congr 1
  · rw [add_mul]
  · rw [Nat.add_mul, Nat.add_assoc]

theorem regenerateRow_reads (op : PotOp) {reads : List Nat} (row : SocialPotRow)
    (h : ∀ nowMs ∈ reads, nowMs ≤ op.nowMs) :
    regenerateRow (reads.foldl (fun row nowMs => (readPot (some row) nowMs op.config).1) row)
        op.nowMs op.config = regenerateRow row op.nowMs op.config := by
  induction reads generalizing row with
  | nil => rfl
  | cons nowMs rest ih =>
    rw [List.foldl_cons, ih _ fun t ht => h t (List.mem_cons_of_mem _ ht)]
    exact regenerateRow_readPot op.config (h nowMs List.mem_cons_self)

theorem outcomes_congr {row row' : SocialPotRow} (h : SameUnits row row') (ops : List PotOp) :
    outcomes row ops = outcomes row' ops := by
  induction ops generalizing row row' with
  | nil => rfl
  | cons op rest ih =>
    obtain ⟨hunits, hobserved⟩ := run_congr (regenerateRow_congr h op.nowMs op.config)
    rw [outcomes, outcomes, hobserved, ih hunits]

theorem readsTransparent : ReadsTransparent := by
  intro row padded h
  induction padded generalizing row with
  | nil => rfl
  | cons entry rest ih =>
    obtain ⟨reads, op⟩ := entry
    have hreads := regenerateRow_reads op row (h (reads, op) List.mem_cons_self)
    obtain ⟨hunits, hobserved⟩ := run_congr hreads
    rw [outcomesWithReads, List.map_cons, outcomes, hobserved,
      ih _ fun e he => h e (List.mem_cons_of_mem _ he), outcomes_congr hunits]

/-! ## Clocks that go back -/

theorem creditsNothing_of_ticks {row : SocialPotRow} {op : PotOp}
    (h : elapsedTicks row.lastRegenAtMs op.nowMs op.config.regenerationTickMs = 0) :
    CreditsNothing row op := by
  refine ⟨?_, ?_⟩
  · simp [regenerateRow, regenerateSocialPot, h]
  · simp [regenerateRow, regenerateSocialPot, h]

/-- Once a time has been seen, less than a tick is left over from the last boundary to it. -/
def Caught (timeMs tickMs : Nat) (row : SocialPotRow) : Prop := timeMs < row.lastRegenAtMs + tickMs

theorem caught_run (row : Option SocialPotRow) (op : PotOp) :
    Caught op.nowMs op.config.regenerationTickMs (op.run row).1 := by
  rw [Caught, PotOp.run_lastRegenAtMs]
  exact elapsedTicks_rest _ _ op.config.tick_pos

theorem Caught.run {timeMs tickMs : Nat} {row : SocialPotRow} (h : Caught timeMs tickMs row)
    (op : PotOp) : Caught timeMs tickMs (op.run (some row)).1 := by
  rw [Caught, PotOp.run_lastRegenAtMs]
  have hlast : row.lastRegenAtMs ≤ (op.regenerated (some row)).lastRegenAtMs := Nat.le_add_right _ _
  rw [Caught] at h
  omega

theorem caught_potAfter (row : Option SocialPotRow) {ops : List PotOp} {earlier : PotOp}
    (h : earlier ∈ ops) :
    ∃ after, potAfter row ops = some after ∧
      Caught earlier.nowMs earlier.config.regenerationTickMs after := by
  induction ops using List.reverseRecOn with
  | nil => exact absurd h List.not_mem_nil
  | append_singleton ops op ih =>
    refine ⟨_, potAfter_append row ops op, ?_⟩
    rcases List.mem_append.1 h with h | h
    · obtain ⟨after, hafter, hcaught⟩ := ih h
      rw [hafter]
      exact hcaught.run op
    · rw [List.mem_singleton.1 h]
      exact caught_run _ op

theorem backwardClockCreditsNothing : BackwardClockCreditsNothing := by
  refine ⟨?_, ?_⟩
  · intro row op h
    refine creditsNothing_of_ticks (elapsedTicks_eq_zero ?_)
    have htick := op.config.tick_pos
    omega
  · intro row ops earlier op hmem hclock htick
    obtain ⟨after, hafter, hcaught⟩ := caught_potAfter row hmem
    refine ⟨after, hafter, creditsNothing_of_ticks (elapsedTicks_eq_zero ?_)⟩
    rw [Caught] at hcaught
    omega

/-! ## What is drawn -/

/-- What can still be drawn: the balance, what will be refunded, and what will be credited. -/
theorem totalDrawn_le {config : PotConfig} {ops : List PotOp} (row : SocialPotRow)
    (h : ∀ op ∈ ops, op.config = config) :
    totalDrawn (some row) ops ≤ row.balance + totalRefunded ops +
      config.regenerationUnitsPerTick *
        (elapsedTicks row.lastRegenAtMs (latestMs ops) config.regenerationTickMs : Rat) := by
  have hunits := config.units_pos
  induction ops generalizing row with
  | nil =>
    have hcredit : 0 ≤ config.regenerationUnitsPerTick *
        (elapsedTicks row.lastRegenAtMs (latestMs []) config.regenerationTickMs : Rat) :=
      mul_nonneg hunits.le (Nat.cast_nonneg _)
    have hbalance := row.nonneg
    show (0 : Rat) ≤ row.balance + 0 + _
    linarith
  | cons op rest ih =>
    obtain rfl := h op List.mem_cons_self
    have hrest := ih (op.run (some row)).1 fun e he => h e (List.mem_cons_of_mem _ he)
    have hnext := nextBalance_add_drawnBy (some row) op
    rw [PotOp.run_balance, PotOp.run_lastRegenAtMs] at hrest
    have hbalance : (op.regenerated (some row)).balance ≤ row.balance +
        (elapsedTicks row.lastRegenAtMs op.nowMs op.config.regenerationTickMs : Rat) *
          op.config.regenerationUnitsPerTick := min_le_right _ _
    change _ ≤ _ + _ + op.config.regenerationUnitsPerTick *
      ((elapsedTicks (row.lastRegenAtMs + elapsedTicks row.lastRegenAtMs op.nowMs _ * _)
        (latestMs rest) _ : Nat) : Rat) at hrest
    rw [elapsedTicks_boundary] at hrest
    have hnow := elapsedTicks_mono row.lastRegenAtMs op.config.regenerationTickMs
      (le_max_left op.nowMs (latestMs rest))
    have hlater := elapsedTicks_mono row.lastRegenAtMs op.config.regenerationTickMs
      (le_max_right op.nowMs (latestMs rest))
    show drawnBy _ + totalDrawn _ rest ≤ row.balance + (refundedBy op + totalRefunded rest) +
      op.config.regenerationUnitsPerTick *
        ((elapsedTicks row.lastRegenAtMs (max op.nowMs (latestMs rest)) _ : Nat) : Rat)
    generalize elapsedTicks row.lastRegenAtMs op.nowMs op.config.regenerationTickMs = now at *
    generalize elapsedTicks row.lastRegenAtMs (latestMs rest) op.config.regenerationTickMs =
      later at *
    generalize elapsedTicks row.lastRegenAtMs (max op.nowMs (latestMs rest))
      op.config.regenerationTickMs = total at *
    -- the ticks credited now and those still to come are among all of them
    have hticks : ((now + (later - now) : Nat) : Rat) ≤ (total : Rat) := by
      refine Nat.cast_le.2 ?_
      omega
    rw [Nat.cast_add] at hticks
    have hcredits := mul_le_mul_of_nonneg_left hticks hunits.le
    rw [mul_add] at hcredits
    linarith

theorem drawsBounded : DrawsBounded := by
  intro config first rest h
  have hconfig : first.config = config := h first List.mem_cons_self
  have hbound := totalDrawn_le (loadOrInitialize none first.nowMs first.config) h
  rw [elapsedTicks_eq] at hbound
  have hsame : totalDrawn none (first :: rest) =
      totalDrawn (some (loadOrInitialize none first.nowMs first.config)) (first :: rest) := by
    have hrun : first.run none = first.run (some (loadOrInitialize none first.nowMs first.config)) := by
      cases first <;> rfl
    rw [totalDrawn, totalDrawn, hrun]
  rw [hsame]
  rw [hconfig] at hbound ⊢
  exact hbound

/-- **Social pot accounting**, over every run of reads, draws and refunds. -/
theorem social_pot_accounting :
    BalanceBounded ∧ RefusalsOnlyRegenerate ∧ ReadsTransparent ∧ BackwardClockCreditsNothing ∧
      DrawsBounded :=
  ⟨balanceBounded, refusalsOnlyRegenerate, readsTransparent, backwardClockCreditsNothing,
    drawsBounded⟩

/-- A cap of 60 units, one of them every tick. -/
def sixtyUnits (tickMs : Nat) (h : 0 < tickMs) : PotConfig where
  capUnits := 60
  regenerationTickMs := tickMs
  regenerationUnitsPerTick := 1
  cap_pos := by decide
  tick_pos := h
  units_pos := by decide
  units_le := by decide +kernel

def emptied (config : PotConfig) : SocialPotRow :=
  ((PotOp.draw 0 config ⟨60, by decide⟩ none).run none).1

/-- A read whose clock is ahead credits what is not due yet, and lets a later draw through. And
after a time was seen with long ticks, an earlier time is credited with short ones. -/
theorem read_ahead_changes_draw :
    (¬ ∀ (row : SocialPotRow) (padded : List (List Nat × PotOp)),
      outcomesWithReads row padded = outcomes row (padded.map Prod.snd)) ∧
    ¬ ∀ (row : SocialPotRow) (earlier op : PotOp), op.nowMs ≤ earlier.nowMs →
      CreditsNothing (earlier.run (some row)).1 op := by
  refine ⟨fun h => ?_, fun h => ?_⟩
  · have hread := h (emptied (sixtyUnits 1 (by decide)))
      [([1], .draw 0 (sixtyUnits 1 (by decide)) ⟨1, by decide⟩ none)]
    exact absurd hread (by decide +kernel)
  · have hback := h (emptied (sixtyUnits 60 (by decide)))
      (.readPot 59 (sixtyUnits 60 (by decide))) (.readPot 58 (sixtyUnits 1 (by decide))) (by decide)
    exact absurd hback.2 (by decide +kernel)

end Psfn.Fatigue
