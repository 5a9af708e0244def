import Psfn.Automata.TerminalClaim

/-!
# When a terminal claim is read back

The serializer joins free text with line breaks, and the reader cuts the failure off at the first
line that starts like one. So a field is read back as it was written when nothing in an earlier
field looks like the line it is looked for on.

* `cutAt_tailText` — where the first such line is, field by field;
* `parse_terminalClaim_iff` — a claim is read back exactly when its state reason is one line, no
  summary and no model name has a line that starts like a failure, and the failure is not blank.
-/

namespace Psfn.Automata

open Lib (throwIf bind_eq_ok throwIf_eq_ok)
open Lib.JsString (trim trimChars splitChars isSpace)

/-! ## Cutting at a mark -/

section Cut

variable {sep l r : List Char} {c : Char}

/-- A mark found in a text is found there whatever follows. -/
theorem cutAt_append_of_some {cut : List Char × List Char} (h : cutAt sep l = some cut) :
    cutAt sep (l ++ r) = some (cut.1, cut.2 ++ r) := by
  induction l generalizing cut with
  | nil => cases h
  | cons d l ih =>
    rw [cutAt] at h
    rw [List.cons_append, cutAt]
    split at h
    · rename_i hstart
      have hfront := List.isPrefixOf_iff_prefix.1 hstart
      have hstart' : sep.isPrefixOf (d :: (l ++ r)) = true :=
        List.isPrefixOf_iff_prefix.2 (hfront.trans (List.prefix_append (d :: l) r))
      obtain rfl := Option.some.inj h
      rw [if_pos hstart', ← List.cons_append, List.drop_append_of_le_length hfront.length_le]
    · rename_i hstart
      obtain ⟨cut', hcut', rfl⟩ := Option.map_eq_some_iff.1 h
      have hstart' : ¬ sep.isPrefixOf (d :: (l ++ r)) = true := by
        intro hstart'
        have hboth := List.prefix_or_prefix_of_prefix (List.isPrefixOf_iff_prefix.1 hstart')
          (List.prefix_append (d :: l) r)
        rcases hboth with hshort | hlong
        · exact hstart (List.isPrefixOf_iff_prefix.2 hshort)
        · have hlength := congrArg List.length (eq_of_cutAt hcut')
          have := hlong.length_le
          simp only [List.length_append, List.length_cons] at hlength this
          omega
      rw [if_neg hstart', ih hcut']
      rfl

/-- A text without the mark does not take part in one, if what follows cannot go on with it. -/
theorem cutAt_append_of_none (h : cutAt (c :: sep) l = none) (hr : ∀ d ∈ r.head?, d ∉ sep) :
    cutAt (c :: sep) (l ++ r) = (cutAt (c :: sep) r).map fun cut => (l ++ cut.1, cut.2) := by
  induction l with
  | nil => simp
  | cons d l ih =>
    rw [cutAt] at h
    split at h
    · cases h
    · rename_i hstart
      have hrest := ih (Option.map_eq_none_iff.1 h)
      have hstart' : ¬ (c :: sep).isPrefixOf (d :: (l ++ r)) = true := by
        intro hstart'
        obtain ⟨hcd, hsep⟩ := List.cons_prefix_cons.1 (List.isPrefixOf_iff_prefix.1 hstart')
        rcases List.prefix_or_prefix_of_prefix hsep (List.prefix_append l r) with hshort | hlong
        · exact hstart (List.isPrefixOf_iff_prefix.2 (List.cons_prefix_cons.2 ⟨hcd, hshort⟩))
        · -- the mark would run on into what follows
          obtain ⟨more, rfl⟩ := hlong
          rw [List.prefix_append_right_inj] at hsep
          cases more with
          | nil =>
            rw [List.append_nil] at hstart
            exact hstart (List.isPrefixOf_iff_prefix.2 (List.cons_prefix_cons.2
              ⟨hcd, List.prefix_refl l⟩))
          | cons e more =>
            obtain ⟨rest, hrest⟩ := hsep
            rw [← hrest, List.cons_append] at hr
            exact hr e rfl (List.mem_append_right l List.mem_cons_self)
      rw [List.cons_append, cutAt, if_neg hstart', hrest, Option.map_map]
      rfl

theorem cutAt_of_notMem (h : c ∉ l) : cutAt (c :: sep) l = none := by
  have happend : cutAt (c :: sep) (l ++ []) = (cutAt (c :: sep) []).map _ := cutAt_append h
  rwa [List.append_nil] at happend

theorem cutAt_eq_none_iff : cutAt (c :: sep) l = none ↔ ¬ (c :: sep) <:+: l := by
  induction l with
  | nil => simp [cutAt]
  | cons d l ih =>
    rw [cutAt, List.infix_cons_iff, not_or, ← ih]
    split
    · rename_i hstart
      exact iff_of_false (fun h => by cases h) fun h => h.1 (List.isPrefixOf_iff_prefix.1 hstart)
    · rename_i hstart
      rw [Option.map_eq_none_iff]
      exact ⟨fun h => ⟨fun hfront => hstart (List.isPrefixOf_iff_prefix.2 hfront), h⟩,
        fun h => h.2⟩

end Cut

/-! ## Trimming -/

/-- Trimming drops no character that is not space. -/
theorem filter_trimChars (l : List Char) :
    (trimChars l).filter (fun c => !isSpace c) = l.filter fun c => !isSpace c := by
  have hdrop : ∀ m : List Char, (m.dropWhile isSpace).filter (fun c => !isSpace c) =
      m.filter fun c => !isSpace c := by
    intro m
    induction m with
    | nil => rfl
    | cons c m ih =>
      cases hc : isSpace c with
      | true =>
        rw [List.dropWhile_cons_of_pos hc, ih, List.filter_cons_of_neg (by simp [hc])]
      | false => rw [List.dropWhile_cons_of_neg (by simp [hc])]
  rw [trimChars, List.filter_reverse, hdrop, List.filter_reverse, List.reverse_reverse, hdrop]

/-- A text that goes on with a failure line is not the same as the failure, trimmed or not. -/
theorem trim_ne_of_failure (before failure : List Char) :
    trim (String.ofList (before ++ '\n' :: "Failure: ".toList ++ failure)) ≠
      trim (String.ofList failure) := by
  intro h
  have hchars := congrArg (fun s => s.toList.filter fun c => !isSpace c) h
  simp only [trim, String.toList_ofList, filter_trimChars, List.filter_append] at hchars
  have hmark : ('\n' :: "Failure: ".toList).filter (fun c => !isSpace c) = "Failure:".toList := by
    decide
  have hlength := congrArg List.length hchars
  rw [hmark] at hlength
  simp only [List.length_append] at hlength
  have : "Failure:".toList.length = 8 := by decide
  omega

/-! ## The lines after the first six -/

def mark : List Char := '\n' :: "Failure: ".toList

/-- Some line of the text after its first starts like a failure. -/
def Marked (text : String) : Prop := mark <:+: text.toList

instance (text : String) : Decidable (Marked text) :=
  inferInstanceAs (Decidable (_ <:+: _))

/-- Lines that each start on a new one. -/
def tailText (lines : List String) : List Char := lines.flatMap fun line => '\n' :: line.toList

theorem toList_joinLines_append {a : List String} (ha : a ≠ []) (b : List String) :
    (joinLines (a ++ b)).toList = (joinLines a).toList ++ tailText b := by
  induction b generalizing a with
  | nil => simp [tailText]
  | cons line b ih =>
    have hsplit : a ++ line :: b = (a ++ [line]) ++ b := by simp
    have htail : tailText (line :: b) = '\n' :: line.toList ++ tailText b := List.flatMap_cons
    rw [hsplit, ih (by simp), joinLines_append ha (List.cons_ne_nil line []), htail,
      List.append_assoc]
    rfl

theorem head_tailText {lines : List String} {rest : List Char} (hrest : ∀ d ∈ rest.head?, d = '\n') :
    ∀ d ∈ (tailText lines ++ rest).head?, d = '\n' := by
  cases lines with
  | nil => exact hrest
  | cons line lines => exact fun d hd => (Option.some.inj hd).symm

theorem newline_notMem : '\n' ∉ "Failure: ".toList := by decide

/-- A new line that starts unlike a failure, up to the first mark after its label. -/
theorem cutAt_line {label text : List Char} (hlabel : '\n' ∉ label)
    (hstart : "Failure: ".toList.isPrefixOf (label ++ text) = false) :
    cutAt mark ('\n' :: (label ++ text)) =
      (cutAt mark text).map fun cut => ('\n' :: (label ++ cut.1), cut.2) := by
  rw [mark, cutAt_cons hstart, cutAt_append hlabel, Option.map_map]
  rfl

theorem natDigits_unbroken (n : Nat) : '\n' ∉ (toString n).toList := by
  intro h
  have hdigit : '\n'.isDigit = true :=
    Nat.isDigit_of_mem_toDigits (b := 10) (by decide) (by decide) (n := n)
      (by simpa [toString, Nat.repr] using h)
  exact absurd hdigit (by decide)

theorem intDigits_unbroken (n : Int) : '\n' ∉ (toString n).toList := by
  cases n with
  | ofNat n => exact natDigits_unbroken n
  | negSucc n =>
    have htext : (toString (Int.negSucc n)).toList = '-' :: (toString (n + 1)).toList :=
      String.toList_append
    rw [htext, List.mem_cons, not_or]
    exact ⟨by decide, natDigits_unbroken (n + 1)⟩

/-- What follows the model name on the usage line. -/
def usageRest (usage : AutomataWorkerTerminalUsage) : String :=
  s!"; inputTokens={usage.inputTokens}; "
    ++ s!"outputTokens={usage.outputTokens}; turns={usage.turns}; durationMs={usage.durationMs}"

theorem toList_usageLine (usage : AutomataWorkerTerminalUsage) :
    (usageLine usage).toList = "Usage: model=".toList ++ (usage.model.toList ++
      (usageRest usage).toList) := by
  rw [← String.toList_append, ← String.toList_append, usageLine, usageRest]
  congr 1
  simp only [String.append_assoc]
  rfl

theorem usageRest_unbroken (usage : AutomataWorkerTerminalUsage) :
    '\n' ∉ (usageRest usage).toList := by
  simp only [usageRest, String.toList_append, List.mem_append, not_or]
  and_intros <;> first | exact intDigits_unbroken _ | decide

/-! ## Where the first mark is -/

section Parts

variable (input : RecordAutomataTerminalHandoffInput)

/-- `...(input.summary ? [...] : [])`, each line on a new one. -/
def summaryText : List Char :=
  match input.summary with
  | none => []
  | some summary => if summary = "" then [] else '\n' :: ("Summary: " ++ trim summary).toList

def usageText : List Char := tailText (input.usage.toList.map usageLine)

def failureText : List Char := tailText (failureLines input.failureReason)

/-- No field before the failure looks like one, and the failure is not blank. -/
structure ReadBack : Prop where
  oneLine : '\n' ∉ (trim input.stateReason).toList
  summary : ∀ summary, input.summary = some summary → ¬ Marked (trim summary)
  usage   : ∀ usage, input.usage = some usage → ¬ Marked usage.model
  failure : ∀ failure, input.failureReason = some failure → failure ≠ "" → trim failure ≠ ""

/-- What the reader should give back. -/
def terminalOutcome : PersistedAutomataTerminalOutcome where
  lifecycleState := input.lifecycleState
  outcome := input.outcome
  stateReason := trim input.stateReason
  failureReason := (input.failureReason.filter fun failure => failure ≠ "").map trim

variable {input}

theorem cutAt_summaryText : cutAt mark (summaryText input) = none ↔
    ∀ summary, input.summary = some summary → ¬ Marked (trim summary) := by
  have hblank : ¬ Marked (trim "") := by decide
  unfold summaryText
  cases hsummary : input.summary with
  | none => exact iff_of_true rfl nofun
  | some summary =>
    dsimp only
    split
    · rename_i hempty
      subst hempty
      refine iff_of_true rfl fun summary h => ?_
      obtain rfl := Option.some.inj h
      exact hblank
    · have hstart : "Failure: ".toList.isPrefixOf ("Summary: ".toList ++ (trim summary).toList) =
          false := rfl
      rw [String.toList_append, cutAt_line (by decide) hstart, Option.map_eq_none_iff, mark,
        cutAt_eq_none_iff]
      constructor
      · rintro h summary' h'
        obtain rfl := Option.some.inj h'
        exact h
      · exact fun h => h summary rfl

theorem cutAt_usageText : cutAt mark (usageText input) = none ↔
    ∀ usage, input.usage = some usage → ¬ Marked usage.model := by
  unfold usageText
  cases husage : input.usage with
  | none => exact iff_of_true rfl nofun
  | some usage =>
    have htext : tailText ((some usage).toList.map usageLine) =
        '\n' :: ("Usage: model=".toList ++ (usage.model.toList ++ (usageRest usage).toList)) := by
      rw [← toList_usageLine]
      simp [tailText]
    have hstart : "Failure: ".toList.isPrefixOf
        ("Usage: model=".toList ++ (usage.model.toList ++ (usageRest usage).toList)) = false := rfl
    have hfirst : (usageRest usage).toList.head? = some ';' := by
      simp [usageRest, String.toList_append, toString]
    have hhead : ∀ d ∈ (usageRest usage).toList.head?, d ∉ "Failure: ".toList := by
      intro d hd
      rw [hfirst] at hd
      obtain rfl := Option.some.inj hd
      decide
    rw [htext, cutAt_line (by decide) hstart, Option.map_eq_none_iff]
    have hnone : cutAt mark usage.model.toList = none ↔ ¬ Marked usage.model := cutAt_eq_none_iff
    constructor
    · rintro h usage' h'
      obtain rfl := Option.some.inj h'
      refine hnone.1 ?_
      cases hcut : cutAt mark usage.model.toList with
      | none => rfl
      | some cut =>
        rw [cutAt_append_of_some hcut] at h
        cases h
    · intro h
      rw [mark, cutAt_append_of_none (hnone.2 (h usage rfl)) hhead,
        cutAt_of_notMem (usageRest_unbroken usage)]
      rfl

/-- The first mark is the one that starts the failure, or it is inside an earlier field. -/
theorem cutAt_tailText :
    cutAt mark (summaryText input ++ (usageText input ++ failureText input)) =
      match cutAt mark (summaryText input) with
      | some cut => some (cut.1, cut.2 ++ (usageText input ++ failureText input))
      | none =>
        match cutAt mark (usageText input) with
        | some cut => some (summaryText input ++ cut.1, cut.2 ++ failureText input)
        | none => (cutAt mark (failureText input)).map fun cut =>
            (summaryText input ++ (usageText input ++ cut.1), cut.2) := by
  have hnewline : ∀ rest : List Char, (∀ d ∈ rest.head?, d = '\n') →
      ∀ d ∈ rest.head?, d ∉ "Failure: ".toList := by
    intro rest hrest d hd
    rw [hrest d hd]
    exact newline_notMem
  have hfailure : ∀ d ∈ (failureText input).head?, d = '\n' := by
    have hempty : ∀ d ∈ (tailText (failureLines input.failureReason) ++ []).head?, d = '\n' :=
      head_tailText nofun
    rwa [List.append_nil] at hempty
  have hboth : ∀ d ∈ (usageText input ++ failureText input).head?, d = '\n' :=
    head_tailText hfailure
  cases hsummary : cutAt mark (summaryText input) with
  | some cut => exact cutAt_append_of_some hsummary
  | none =>
    rw [mark] at hsummary
    rw [mark, cutAt_append_of_none hsummary (hnewline _ hboth)]
    cases husage : cutAt ('\n' :: "Failure: ".toList) (usageText input) with
    | some cut =>
      rw [cutAt_append_of_some husage]
      rfl
    | none =>
      rw [cutAt_append_of_none husage (hnewline _ hfailure), Option.map_map]
      rfl

end Parts

/-! ## Reading back -/

section Reading

variable {input : RecordAutomataTerminalHandoffInput} {claim expected : String}
  {outcome : PersistedAutomataTerminalOutcome}

theorem busText_eq_ok {value field text : String} (h : busText value field = .ok text) :
    trim value ≠ "" ∧ text = trim value := by
  obtain ⟨_, hblank, htext⟩ := bind_eq_ok.1 h
  exact ⟨by simpa using throwIf_eq_ok.1 hblank, (Except.ok.inj htext).symm⟩

theorem tailText_summaryLines {summary : List String}
    (h : summaryLines input.summary = .ok summary) : tailText summary = summaryText input := by
  unfold summaryText
  cases hsummary : input.summary with
  | none =>
    rw [hsummary] at h
    cases h
    rfl
  | some text =>
    rw [hsummary] at h
    dsimp only [summaryLines] at h
    dsimp only
    split at h
    · rename_i hempty
      cases h
      rw [if_pos hempty]
      rfl
    · rename_i hempty
      obtain ⟨trimmed, htrimmed, h⟩ := bind_eq_ok.1 h
      obtain ⟨-, rfl⟩ := busText_eq_ok htrimmed
      cases h
      rw [if_neg hempty]
      simp [tailText]

/-- What was written, with the line breaks that join it. -/
theorem terminalClaim_text (h : terminalClaim input = .ok claim) :
    trim input.stateReason ≠ "" ∧
      claim.toList = (joinLines (headLines input (trim input.stateReason))).toList ++
        (summaryText input ++ (usageText input ++ failureText input)) := by
  obtain ⟨stateReason, hstate, h⟩ := bind_eq_ok.1 h
  obtain ⟨summary, hsummary, h⟩ := bind_eq_ok.1 h
  obtain ⟨hne, rfl⟩ := busText_eq_ok hstate
  have hhead : headLines input (trim input.stateReason) ≠ [] := List.cons_ne_nil _ _
  refine ⟨hne, ?_⟩
  rw [← Except.ok.inj h, List.append_assoc, List.append_assoc, toList_joinLines_append hhead,
    ← tailText_summaryLines hsummary]
  simp only [tailText, List.flatMap_append, usageText, failureText]

theorem continues_tail :
    Continues (summaryText input ++ (usageText input ++ failureText input)) := by
  have hhead : ∀ d ∈ (summaryText input ++ (usageText input ++ failureText input)).head?,
      d = '\n' := by
    have hfailure : ∀ d ∈ (tailText (failureLines input.failureReason) ++ []).head?, d = '\n' :=
      head_tailText nofun
    rw [List.append_nil] at hfailure
    have hboth : ∀ d ∈ (usageText input ++ failureText input).head?, d = '\n' :=
      head_tailText hfailure
    unfold summaryText
    split
    · exact hboth
    · split
      · exact hboth
      · exact fun d hd => (Option.some.inj hd).symm
  cases htext : summaryText input ++ (usageText input ++ failureText input) with
  | nil => exact .inl rfl
  | cons d rest =>
    rw [htext] at hhead
    exact .inr ⟨rest, by rw [hhead d rfl]⟩

/-- A line has no line break in it. -/
theorem unbroken_of_mem_splitChars {line l : List Char} (h : line ∈ splitChars '\n' l) :
    '\n' ∉ line := by
  induction l generalizing line with
  | nil =>
    obtain rfl := List.mem_singleton.1 h
    exact List.not_mem_nil
  | cons c cs ih =>
    rw [splitChars] at h
    cases hsplit : splitChars '\n' cs with
    | nil =>
      rw [hsplit] at h
      obtain rfl := List.mem_singleton.1 h
      exact List.not_mem_nil
    | cons head tail =>
      rw [hsplit] at h ih
      have hhead := ih List.mem_cons_self
      dsimp only at h
      split at h
      · rcases List.mem_cons.1 h with rfl | h
        · exact List.not_mem_nil
        · exact ih h
      · rename_i hc
        rcases List.mem_cons.1 h with rfl | h
        · rw [List.mem_cons, not_or]
          exact ⟨Ne.symm hc, hhead⟩
        · exact ih (List.mem_cons_of_mem _ h)

theorem mem_trim {s : String} {c : Char} (h : c ∈ (trim s).toList) : c ∈ s.toList := by
  rw [trim, String.toList_ofList, trimChars, List.mem_reverse] at h
  have hinner := (List.dropWhile_sublist _).mem h
  rw [List.mem_reverse] at hinner
  exact (List.dropWhile_sublist _).mem hinner

theorem readClaimField_unbroken {line : Option (List Char)} {start label text : String}
    (hline : ∀ l, line = some l → '\n' ∉ l) (h : readClaimField line start label = .ok text) :
    '\n' ∉ text.toList := by
  unfold readClaimField at h
  split at h
  · obtain ⟨-, rfl⟩ := busText_eq_ok h
    intro hmem
    have hdrop := mem_trim hmem
    rw [String.toList_ofList] at hdrop
    cases line with
    | none => exact absurd ((List.drop_sublist _ _).mem hdrop) List.not_mem_nil
    | some l => exact hline l rfl ((List.drop_sublist _ _).mem hdrop)
  · cases h

theorem parseClaimHead_unbroken {text : List Char} {failureReason : Option String}
    (h : parseClaimHead (splitChars '\n' text) failureReason expected = .ok outcome) :
    '\n' ∉ outcome.stateReason.toList := by
  unfold parseClaimHead at h
  obtain ⟨_, -, h⟩ := bind_eq_ok.1 h
  split at h
  · cases h
  · obtain ⟨_, -, h⟩ := bind_eq_ok.1 h
    obtain ⟨_, -, h⟩ := bind_eq_ok.1 h
    obtain ⟨_, -, h⟩ := bind_eq_ok.1 h
    split at h
    · cases h
    · obtain ⟨stateReason, hstate, h⟩ := bind_eq_ok.1 h
      obtain ⟨_, -, h⟩ := bind_eq_ok.1 h
      obtain ⟨_, -, h⟩ := bind_eq_ok.1 h
      obtain rfl := Except.ok.inj h
      exact readClaimField_unbroken
        (fun l hl => unbroken_of_mem_splitChars (List.mem_of_getElem? hl)) hstate

/-- The state reason that is read back is one line. -/
theorem parseTerminalClaim_unbroken (h : parseTerminalClaim claim expected = .ok outcome) :
    '\n' ∉ outcome.stateReason.toList := by
  unfold parseTerminalClaim at h
  split at h
  · exact parseClaimHead_unbroken h
  · obtain ⟨_, -, h⟩ := bind_eq_ok.1 h
    exact parseClaimHead_unbroken h

/-- What is read as the failure when the mark is in an earlier field is not the failure. -/
theorem failure_ne_of_mark {read : String} {before : List Char}
    (hread : read = trim (String.ofList (before ++ failureText input))) :
    (terminalOutcome input).failureReason ≠ some read := by
  intro h
  obtain ⟨failure, hfailure, htrim⟩ := Option.map_eq_some_iff.1 h
  obtain ⟨hsome, hne⟩ := Option.filter_eq_some_iff.1 hfailure
  have hne' : failure ≠ "" := by simpa using hne
  have htext : failureText input = '\n' :: "Failure: ".toList ++ failure.toList := by
    simp [failureText, failureLines, hsome, hne', tailText]
  rw [hread, htext, ← List.append_assoc] at htrim
  have hfail := trim_ne_of_failure before failure.toList
  rw [String.ofList_toList] at hfail
  exact hfail htrim.symm

theorem cutAt_failureText {failure : String} (h : input.failureReason = some failure)
    (hne : failure ≠ "") : cutAt mark (failureText input) = some ([], failure.toList) := by
  have htext : failureText input = mark ++ failure.toList := by
    simp [failureText, failureLines, h, hne, tailText, mark]
  have hstart : mark.isPrefixOf (mark ++ failure.toList) = true :=
    List.isPrefixOf_iff_prefix.2 (List.prefix_append _ _)
  have hcons : mark ++ failure.toList = '\n' :: ("Failure: ".toList ++ failure.toList) := rfl
  rw [htext, hcons, cutAt, ← hcons, if_pos hstart, List.drop_left]

/-- **A terminal claim is read back as it was written exactly when its state reason is one line, no
summary and no model name has a line that starts like a failure, and the failure is not blank.** -/
theorem parse_terminalClaim_iff (h : terminalClaim input = .ok claim) :
    parseTerminalClaim claim input.lineage.automatonClass.text = .ok (terminalOutcome input) ↔
      ReadBack input := by
  obtain ⟨hne, hclaim⟩ := terminalClaim_text h
  by_cases honeLine : '\n' ∈ (trim input.stateReason).toList
  · exact iff_of_false (fun hparse => parseTerminalClaim_unbroken hparse honeLine)
      fun hback => hback.oneLine honeLine
  have hcontinues : Continues (summaryText input ++ (usageText input ++ failureText input)) :=
    continues_tail
  rw [parse_headLines claim honeLine (Lib.JsString.trim_trim _) hne hclaim hcontinues, ← mark,
    cutAt_tailText]
  cases hsummary : cutAt mark (summaryText input) with
  | some cut =>
    refine iff_of_false (fun hparse => ?_) fun hback => ?_
    · obtain ⟨read, hread, hparse⟩ := bind_eq_ok.1 hparse
      obtain ⟨-, hread⟩ := busText_eq_ok hread
      rw [← List.append_assoc] at hread
      exact failure_ne_of_mark hread
        (congrArg PersistedAutomataTerminalOutcome.failureReason (Except.ok.inj hparse)).symm
    · rw [cutAt_summaryText.2 hback.summary] at hsummary
      cases hsummary
  | none =>
    cases husage : cutAt mark (usageText input) with
    | some cut =>
      refine iff_of_false (fun hparse => ?_) fun hback => ?_
      · obtain ⟨read, hread, hparse⟩ := bind_eq_ok.1 hparse
        obtain ⟨-, hread⟩ := busText_eq_ok hread
        exact failure_ne_of_mark hread
          (congrArg PersistedAutomataTerminalOutcome.failureReason (Except.ok.inj hparse)).symm
      · rw [cutAt_usageText.2 hback.usage] at husage
        cases husage
    | none =>
      have hback : ReadBack input ↔
          ∀ failure, input.failureReason = some failure → failure ≠ "" → trim failure ≠ "" :=
        ⟨ReadBack.failure, fun hfailure =>
          ⟨honeLine, cutAt_summaryText.1 hsummary, cutAt_usageText.1 husage, hfailure⟩⟩
      rw [hback]
      cases hfailure : input.failureReason with
      | none =>
        have hnone : cutAt mark (failureText input) = none := by
          simp [failureText, failureLines, hfailure, tailText, cutAt]
        rw [hnone]
        refine iff_of_true ?_ fun _ h => by cases h
        simp [terminalOutcome, hfailure, Option.filter_some]
      | some failure =>
        by_cases hempty : failure = ""
        · subst hempty
          have hnone : cutAt mark (failureText input) = none := by
            simp [failureText, failureLines, hfailure, tailText, cutAt]
          rw [hnone]
          refine iff_of_true ?_ fun failure h hne => absurd (Option.some.inj h).symm hne
          simp [terminalOutcome, hfailure, Option.filter_some]
        · rw [cutAt_failureText hfailure hempty]
          dsimp only [Option.map_some]
          rw [String.ofList_toList]
          constructor
          · rintro hparse failure' hsome - hblank
            obtain rfl := Option.some.inj hsome
            obtain ⟨read, hread, -⟩ := bind_eq_ok.1 hparse
            exact (busText_eq_ok hread).1 hblank
          · intro hall
            rw [busText_eq (hall failure rfl hempty)]
            simp [terminalOutcome, hfailure, Option.filter_some, hempty, bind, Except.bind, pure,
              Except.pure]

end Reading

/-- A run that completed, with this summary. -/
def completedHandoff (summary : String) : RecordAutomataTerminalHandoffInput where
  lineage := { automatonClass := .subagentBounded, runId := "run-1", taskId := "task-1", workerId := "worker-1"
               parentRunId := none, sourceRunId := none, sessionIds := ["session-1"] }
  lifecycleState := .completed
  outcome := .completed
  stateReason := "worker finished"
  failureReason := none
  resultKind := .final
  handoffKind := .useful
  summary := some summary
  usage := none
  outputRefs := []
  parentHandoffRef := none
  occurredAtMs := 1

theorem exists_claim {input : RecordAutomataTerminalHandoffInput}
    (h : (terminalClaim input).toOption.isSome = true) : ∃ claim, terminalClaim input = .ok claim := by
  cases hclaim : terminalClaim input with
  | error e =>
    rw [hclaim] at h
    cases h
  | ok claim => exact ⟨claim, rfl⟩

theorem parse_terminalClaim_iff_completed :
    ∃ claim, terminalClaim (completedHandoff "two notes\nwere merged") = .ok claim ∧
      (parseTerminalClaim claim "subagent.bounded" =
        .ok (terminalOutcome (completedHandoff "two notes\nwere merged")) ↔
          ReadBack (completedHandoff "two notes\nwere merged")) := by
  have hwritten : ∃ claim, terminalClaim (completedHandoff "two notes\nwere merged") = .ok claim :=
    exists_claim (by decide +kernel)
  obtain ⟨claim, hclaim⟩ := hwritten
  exact ⟨claim, hclaim, parse_terminalClaim_iff hclaim⟩

/-- A summary that quotes a failure makes a completed run read as one that failed for it. -/
theorem quoted_failure_misread :
    ¬ ∀ input claim, terminalClaim input = .ok claim →
      parseTerminalClaim claim input.lineage.automatonClass.text = .ok (terminalOutcome input) := by
  intro h
  have hwritten : ∃ claim,
      terminalClaim (completedHandoff "retried\nFailure: none left") = .ok claim :=
    exists_claim (by decide +kernel)
  obtain ⟨claim, hclaim⟩ := hwritten
  have hread : ((terminalClaim (completedHandoff "retried\nFailure: none left")).toOption.bind
      fun claim => (parseTerminalClaim claim "subagent.bounded").toOption.bind
        PersistedAutomataTerminalOutcome.failureReason) = some "none left" := by
    decide +kernel
  have hparse : parseTerminalClaim claim "subagent.bounded" = .ok _ := h _ claim hclaim
  rw [hclaim] at hread
  simp only [Except.toOption, Option.bind_some, hparse] at hread
  exact absurd hread (by decide +kernel)

end Psfn.Automata
