import Psfn.Lib.JsString
import Psfn.Lib.JsValue
import Psfn.Intake.SinkGates

/-!
# Screening of tool results

`executeSingleToolCall` of `core/agent/tool-call-scheduler.ts`, from what a tool call came to up to
the message that enters the turn, with the outcomes of `shared/contracts/tool-call-outcome.ts`.
What runs before (the guard's skips, the corrections, the tool itself) is an `Attempt`; the screener
is any function that may throw.

* `delivered_of_threw`, `delivered_of_enforced` — what the turn receives when the screener throws
  or enforces;
* `screening_failsClosed_iff` — the recorded outcome agrees with the delivery, except on a
  text-only result that the screener withholds and whose effective text is the result's own.
-/

namespace Psfn.Intake.ToolResult

open Psfn.Lib

/-! ## Tool results -/

/-- A block of a result's content: a text, an image, or a kind the firewall has no verdict for. -/
structure ContentBlock where
  type     : String
  text     : Option String
  data     : Option String
  mimeType : Option String
deriving DecidableEq, Repr

def textBlock (text : String) : ContentBlock :=
  { type := "text", text := some text, data := none, mimeType := none }

/-- `content` is `none` when the tool's result has none. -/
structure AgentToolResult where
  content : Option (List ContentBlock)
  details : JsValue

def AgentToolResult.blocks (result : AgentToolResult) : List ContentBlock :=
  result.content.getD []

def toolResultText (result : AgentToolResult) : String :=
  "\n".intercalate ((result.blocks.map fun entry => entry.text.getD "").filter fun text =>
    text ≠ "")

def hasNonTextToolResultContent (result : AgentToolResult) : Bool :=
  result.blocks.any fun block => block.type ≠ "text"

def deliversToolResultEvidence (result : AgentToolResult) : Bool :=
  hasNonTextToolResultContent result || JsString.trim (toolResultText result) ≠ ""

def replaceToolResultTextContent (result : AgentToolResult) (effectiveText : String)
    (withheld : Bool) : AgentToolResult :=
  if withheld then { result with content := some [textBlock effectiveText] }
  else
    let nonTextBlocks := result.blocks.filter fun block => block.type ≠ "text"
    { result with content := some (textBlock effectiveText :: nonTextBlocks) }

/-! ## Outcomes -/

inductive ToolCallOutcome where
  | success | execution_failure | validation_rejection | policy_denial | duplicate_skip
  | dependency_skip | content_withheld | screening_unavailable | partial_result
deriving DecidableEq, Repr

def isToolCallErrorOutcome : ToolCallOutcome → Bool
  | .success | .content_withheld | .partial_result => false
  | _ => true

/-- `value === true`. -/
def isTrue : JsValue → Bool
  | .bool true => true
  | _ => false

/-- `value === text`. -/
def isText (value : JsValue) (text : String) : Bool :=
  match value with
  | .string s => s == text
  | _ => false

def isInferredErrorClass (details : JsValue) : Bool :=
  isText (details.property "classSource") "inferred"

def isPolicyDenialDetails (details : JsValue) : Bool :=
  details.isRecord &&
    (isTrue (details.property "capabilityDenied") || isTrue (details.property "egressGated") ||
      isTrue (details.property "policyDenied") ||
      (!isInferredErrorClass details &&
        (isText (details.property "errorClass") "permission_denied" ||
          isText (details.property "errorClass") "policy_blocked")))

def isValidationRejectionDetails (details : JsValue) : Bool :=
  details.isRecord && !isInferredErrorClass details &&
    isText (details.property "errorClass") "invalid_input"

def isDeclaredPartialResultDetails (details : JsValue) : Bool :=
  details.isRecord && isTrue (details.property "partialResult")

/-- An array has no property `isError`. -/
def toolResultDetailsFlagError (result : AgentToolResult) : Bool :=
  isTrue (result.details.property "isError")

def classifyExecutedToolCallOutcome (details : JsValue) (isError : Bool) : ToolCallOutcome :=
  if isPolicyDenialDetails details then .policy_denial
  else if isValidationRejectionDetails details then .validation_rejection
  else if isError then .execution_failure
  else if isDeclaredPartialResultDetails details then .partial_result
  else .success

/-! ## What a call came to -/

/-- The outcomes that `skipToolCall` takes. -/
inductive SkipOutcome where
  | validation_rejection | duplicate_skip | dependency_skip
deriving DecidableEq, Repr

def SkipOutcome.outcome : SkipOutcome → ToolCallOutcome
  | .validation_rejection => .validation_rejection
  | .duplicate_skip => .duplicate_skip
  | .dependency_skip => .dependency_skip

/-- What happened to a tool call before its result is screened. -/
inductive Attempt where
  /-- the guard skipped it, for the reason given -/
  | skipped (reasonText : String) (outcome : SkipOutcome)
  /-- an unknown tool, malformed arguments or arguments that fail the schema -/
  | corrected (text : String)
  /-- `tool.execute` returned -/
  | returned (result : AgentToolResult)
  /-- `tool.execute` threw, and the notice for a cancelled or a failed call stands in its place -/
  | threw (failure : AgentToolResult)

/-- The variables of the function when its screening block is reached. -/
structure Ran where
  result    : AgentToolResult
  outcome   : ToolCallOutcome
  isError   : Bool
  corrected : Bool

def Ran.ofText (text : String) (outcome : ToolCallOutcome) : Ran :=
  { result := { content := some [textBlock text], details := .object [] }
    outcome, isError := true, corrected := true }

/-- Skips and corrections are internally authored text, which is not screened. -/
def runAttempt : Attempt → Ran
  | .skipped reasonText outcome => Ran.ofText reasonText outcome.outcome
  | .corrected text => Ran.ofText text .validation_rejection
  | .returned result =>
    let outcome :=
      classifyExecutedToolCallOutcome result.details (toolResultDetailsFlagError result)
    { result, outcome, isError := isToolCallErrorOutcome outcome, corrected := false }
  | .threw failure =>
    { result := failure, outcome := .execution_failure, isError := true, corrected := false }

/-! ## Screening -/

structure ToolResultIntakeScreeningOutcome where
  mode          : EnforcementPosture
  withheld      : Bool
  effectiveText : String
  snapshot      : IntakeEnvelopeSnapshot

structure ToolCall where
  id        : String
  name      : String
  arguments : JsValue

structure ScreenerInput where
  toolName   : String
  toolCallId : String
  arguments  : JsValue
  text       : String

/-- A screener throws an error text, has no verdict, or answers one. -/
abbrev ToolResultIntakeScreener :=
  ScreenerInput → Except String (Option ToolResultIntakeScreeningOutcome)

def NON_TEXT_TOOL_RESULT_WITHHELD_NOTICE : String :=
  "[System notice] Non-text tool content was withheld because no intake screener admitted it."

def screenFailedNotice (toolName : String) : String :=
  s!"Internal tool status: the {toolName} result was withheld because intake screening failed. " ++
    "This is not a Participant-facing message."

def hasOnlyNonTextContent (result : AgentToolResult) : Bool :=
  hasNonTextToolResultContent result && JsString.trim (toolResultText result) = ""

/-- `resultContentWithheld`: the verdict withholds the result, or it holds a block the screener has
no verdict for. -/
def resultContentWithheld (result : AgentToolResult) (screened : ToolResultIntakeScreeningOutcome) :
    Bool :=
  screened.mode = .enforce && (screened.withheld || hasNonTextToolResultContent result)

def deliveredText (result : AgentToolResult) (screened : ToolResultIntakeScreeningOutcome) :
    String :=
  if hasOnlyNonTextContent result then NON_TEXT_TOOL_RESULT_WITHHELD_NOTICE
  else screened.effectiveText

structure Screened where
  result          : AgentToolResult
  outcome         : ToolCallOutcome
  isError         : Bool
  intakeScreening : Option ToolResultIntakeScreeningOutcome

def Ran.unscreened (ran : Ran) : Screened :=
  { result := ran.result, outcome := ran.outcome, isError := ran.isError, intakeScreening := none }

/-- What the turn is told when the delivery was changed: only a success or a partial result is
named anew. -/
def Ran.renamed (ran : Ran) (withheld : Bool) : ToolCallOutcome :=
  if ran.outcome = .success || ran.outcome = .partial_result then
    if withheld then .content_withheld else .partial_result
  else ran.outcome

/-- The delivery differs from the tool's own result. -/
def replacesContent (result : AgentToolResult) (screened : ToolResultIntakeScreeningOutcome) :
    Bool :=
  screened.mode = .enforce &&
    (screened.effectiveText ≠ toolResultText result || hasNonTextToolResultContent result)

def applyVerdict (ran : Ran) (screened : ToolResultIntakeScreeningOutcome) : Screened :=
  let withheld := resultContentWithheld ran.result screened
  let delivered := deliveredText ran.result screened
  let stashed := if withheld && !screened.withheld then
    { screened with withheld := true, effectiveText := delivered } else screened
  if replacesContent ran.result screened then
    let outcome := ran.renamed withheld
    { result := replaceToolResultTextContent ran.result delivered withheld
      outcome
      isError := if ran.outcome = .success || ran.outcome = .partial_result then
        isToolCallErrorOutcome outcome else ran.isError
      intakeScreening := some stashed }
  else
    { ran.unscreened with intakeScreening := some stashed }

/-- The screener's own error text can quote the content it failed on, so it does not ride back. -/
def screeningFailed (call : ToolCall) : Screened :=
  { result := { content := some [textBlock (screenFailedNotice call.name)], details := .object [] }
    outcome := .screening_unavailable
    isError := isToolCallErrorOutcome .screening_unavailable
    intakeScreening := none }

/-- What the screener answers, `none` when it is not asked: there is none, the text is internally
authored, or the result has no content. -/
def screenerAnswer (call : ToolCall) (toolResultScreener : Option ToolResultIntakeScreener)
    (ran : Ran) : Option (Except String (Option ToolResultIntakeScreeningOutcome)) :=
  match toolResultScreener with
  | none => none
  | some screener =>
    if !ran.corrected && !ran.result.blocks.isEmpty then
      some (screener { toolName := call.name, toolCallId := call.id, arguments := call.arguments
                       text := toolResultText ran.result })
    else none

def screenToolResult (call : ToolCall) (toolResultScreener : Option ToolResultIntakeScreener)
    (ran : Ran) : Screened :=
  match screenerAnswer call toolResultScreener ran with
  | none => ran.unscreened
  | some (.ok none) => ran.unscreened
  | some (.ok (some screened)) => applyVerdict ran screened
  | some (.error _) => screeningFailed call

/-- A partial result that delivered nothing at all is a hold. -/
def nameMissingEvidence (screened : Screened) : Screened :=
  if screened.outcome = .partial_result && !deliversToolResultEvidence screened.result then
    { screened with outcome := .content_withheld
                    isError := isToolCallErrorOutcome .content_withheld }
  else screened

structure ToolResultMessage where
  toolCallId          : String
  toolName            : String
  content             : Option (List ContentBlock)
  details             : JsValue
  isError             : Bool
  outcome             : ToolCallOutcome
  psfnIntakeScreening : Option ToolResultIntakeScreeningOutcome

def executeSingleToolCall (call : ToolCall) (toolResultScreener : Option ToolResultIntakeScreener)
    (attempt : Attempt) : ToolResultMessage :=
  let final := nameMissingEvidence (screenToolResult call toolResultScreener (runAttempt attempt))
  { toolCallId := call.id, toolName := call.name, content := final.result.content
    details := final.result.details, isError := final.isError, outcome := final.outcome
    psfnIntakeScreening := final.intakeScreening }

/-! ## What the turn receives -/

/-- The content that a call came to, before its screening. -/
def rawContent (attempt : Attempt) : Option (List ContentBlock) :=
  (runAttempt attempt).result.content

theorem nameMissingEvidence_result (screened : Screened) :
    (nameMissingEvidence screened).result = screened.result := by
  unfold nameMissingEvidence
  split <;> rfl

theorem content_executeSingleToolCall (call : ToolCall)
    (toolResultScreener : Option ToolResultIntakeScreener) (attempt : Attempt) :
    (executeSingleToolCall call toolResultScreener attempt).content
      = (screenToolResult call toolResultScreener (runAttempt attempt)).result.content := by
  show (nameMissingEvidence _).result.content = _
  rw [nameMissingEvidence_result]

variable {ran : Ran} {screened : ToolResultIntakeScreeningOutcome}

theorem applyVerdict_of_kept (h : replacesContent ran.result screened = false) :
    (applyVerdict ran screened).result = ran.result ∧
      (applyVerdict ran screened).outcome = ran.outcome := by
  unfold applyVerdict
  simp only [h, Bool.false_eq_true, if_false]
  exact ⟨rfl, rfl⟩

theorem outcome_applyVerdict_of_replaced (h : replacesContent ran.result screened = true) :
    (applyVerdict ran screened).outcome
      = ran.renamed (resultContentWithheld ran.result screened) := by
  unfold applyVerdict
  simp only [h, if_true]

variable {result : AgentToolResult}

/-- An enforcing verdict that does not withhold is about a result of texts only. -/
theorem hasNonText_of_not_withheld (hmode : screened.mode = .enforce)
    (h : resultContentWithheld result screened = false) :
    hasNonTextToolResultContent result = false := by
  simp only [resultContentWithheld, hmode, decide_true, Bool.true_and, Bool.or_eq_false_iff] at h
  exact h.2

/-- A replaced result is one text block, whatever else stood in it. -/
theorem content_applyVerdict_of_replaced (h : replacesContent ran.result screened = true) :
    (applyVerdict ran screened).result.content
      = some [textBlock (deliveredText ran.result screened)] := by
  have hmode : screened.mode = .enforce := by
    simp only [replacesContent, Bool.and_eq_true, decide_eq_true_eq] at h
    exact h.1
  have hresult : (applyVerdict ran screened).result = replaceToolResultTextContent ran.result
      (deliveredText ran.result screened) (resultContentWithheld ran.result screened) := by
    unfold applyVerdict
    simp only [h, if_true]
  rw [hresult, replaceToolResultTextContent]
  cases hheld : resultContentWithheld ran.result screened with
  | true => rfl
  | false =>
    -- Without a hold every block is a text, so that no block is left beside the effective text.
    have hnone : (ran.result.blocks.filter fun block => block.type ≠ "text") = [] := by
      have hall := hasNonText_of_not_withheld hmode hheld
      rw [hasNonTextToolResultContent, List.any_eq_false] at hall
      rw [List.filter_eq_nil_iff]
      exact hall
    simp only [Bool.false_eq_true, if_false, hnone]

/-- The answer asks to hold the result back. -/
def Withheld (result : AgentToolResult)
    (answer : Option (Except String (Option ToolResultIntakeScreeningOutcome))) : Prop :=
  (∃ error, answer = some (.error error)) ∨
    ∃ screened, answer = some (.ok (some screened)) ∧ resultContentWithheld result screened = true

/-- What the turn receives of a tool result, and what the recorded outcome says of it. -/
structure FailsClosed (call : ToolCall) (toolResultScreener : Option ToolResultIntakeScreener)
    (attempt : Attempt) : Prop where
  threw : ∀ error, screenerAnswer call toolResultScreener (runAttempt attempt)
      = some (.error error) →
    (executeSingleToolCall call toolResultScreener attempt).content
      = some [textBlock (screenFailedNotice call.name)]
  enforced : ∀ screened, screenerAnswer call toolResultScreener (runAttempt attempt)
      = some (.ok (some screened)) → screened.mode = .enforce →
    (executeSingleToolCall call toolResultScreener attempt).content
        = some [textBlock screened.effectiveText] ∨
      (executeSingleToolCall call toolResultScreener attempt).content
        = some [textBlock NON_TEXT_TOOL_RESULT_WITHHELD_NOTICE] ∨
      (executeSingleToolCall call toolResultScreener attempt).content = rawContent attempt ∧
        screened.effectiveText = toolResultText (runAttempt attempt).result ∧
        hasNonTextToolResultContent (runAttempt attempt).result = false
  delivered : (executeSingleToolCall call toolResultScreener attempt).outcome = .success ∨
      (executeSingleToolCall call toolResultScreener attempt).outcome = .partial_result →
    ¬Withheld (runAttempt attempt).result
      (screenerAnswer call toolResultScreener (runAttempt attempt))
  unmodified : (executeSingleToolCall call toolResultScreener attempt).outcome = .success →
    (executeSingleToolCall call toolResultScreener attempt).content = rawContent attempt

/-- The screener withholds a result of texts only, its effective text is the result's own text, and
the result counts as a success, or as a partial result with something to read. -/
def HeldAsItself (result : AgentToolResult) (outcome : ToolCallOutcome)
    (answer : Option (Except String (Option ToolResultIntakeScreeningOutcome))) : Prop :=
  ∃ screened, answer = some (.ok (some screened)) ∧ screened.mode = .enforce ∧
    screened.withheld = true ∧ screened.effectiveText = toolResultText result ∧
    hasNonTextToolResultContent result = false ∧
    (outcome = .success ∨ outcome = .partial_result ∧ JsString.trim (toolResultText result) ≠ "")

theorem outcome_nameMissingEvidence_success {screened : Screened} :
    (nameMissingEvidence screened).outcome = .success ↔ screened.outcome = .success := by
  unfold nameMissingEvidence
  split
  · rename_i h
    simp only [Bool.and_eq_true, decide_eq_true_eq] at h
    simp [h.1]
  · exact Iff.rfl

theorem outcome_nameMissingEvidence_partial {screened : Screened} :
    (nameMissingEvidence screened).outcome = .partial_result ↔
      screened.outcome = .partial_result ∧ deliversToolResultEvidence screened.result = true := by
  unfold nameMissingEvidence
  split
  · rename_i h
    simp only [Bool.and_eq_true, Bool.not_eq_true', decide_eq_true_eq] at h
    simp [h.2]
  · rename_i h
    simp only [Bool.and_eq_true, Bool.not_eq_true', decide_eq_true_eq, not_and] at h
    constructor
    · intro hshort
      exact ⟨hshort, by simpa using h hshort⟩
    · exact And.left

section Screening

variable {call : ToolCall} {toolResultScreener : Option ToolResultIntakeScreener}
  {attempt : Attempt}

theorem screenToolResult_of_error {error : String}
    (h : screenerAnswer call toolResultScreener ran = some (.error error)) :
    screenToolResult call toolResultScreener ran = screeningFailed call := by
  simp only [screenToolResult, h]

theorem screenToolResult_of_verdict
    (h : screenerAnswer call toolResultScreener ran = some (.ok (some screened))) :
    screenToolResult call toolResultScreener ran = applyVerdict ran screened := by
  simp only [screenToolResult, h]

theorem delivered_of_threw {error : String}
    (h : screenerAnswer call toolResultScreener (runAttempt attempt) = some (.error error)) :
    (executeSingleToolCall call toolResultScreener attempt).content
      = some [textBlock (screenFailedNotice call.name)] := by
  rw [content_executeSingleToolCall, screenToolResult_of_error h]
  rfl

theorem delivered_of_enforced
    (h : screenerAnswer call toolResultScreener (runAttempt attempt) = some (.ok (some screened)))
    (hmode : screened.mode = .enforce) :
    (executeSingleToolCall call toolResultScreener attempt).content
        = some [textBlock screened.effectiveText] ∨
      (executeSingleToolCall call toolResultScreener attempt).content
        = some [textBlock NON_TEXT_TOOL_RESULT_WITHHELD_NOTICE] ∨
      (executeSingleToolCall call toolResultScreener attempt).content = rawContent attempt ∧
        screened.effectiveText = toolResultText (runAttempt attempt).result ∧
        hasNonTextToolResultContent (runAttempt attempt).result = false := by
  rw [content_executeSingleToolCall, screenToolResult_of_verdict h]
  cases hreplaced : replacesContent (runAttempt attempt).result screened with
  | true =>
    rw [content_applyVerdict_of_replaced hreplaced, deliveredText]
    split
    · exact Or.inr (Or.inl rfl)
    · exact Or.inl rfl
  | false =>
    rw [(applyVerdict_of_kept hreplaced).1]
    simp only [replacesContent, hmode, decide_true, Bool.true_and, Bool.or_eq_false_iff,
      decide_eq_false_iff_not, not_not] at hreplaced
    exact Or.inr (Or.inr ⟨rfl, hreplaced⟩)

/-- A changed delivery is never recorded as a success. -/
theorem renamed_ne_success {withheld : Bool} : ran.renamed withheld ≠ .success := by
  unfold Ran.renamed
  split
  · cases withheld <;> nofun
  · rename_i h
    simp only [Bool.or_eq_true, decide_eq_true_eq, not_or] at h
    exact h.1

theorem shortened_of_renamed {withheld : Bool} (h : ran.renamed withheld = .partial_result) :
    withheld = false := by
  unfold Ran.renamed at h
  split at h
  · cases withheld with
    | true => cases h
    | false => rfl
  · rename_i hother
    simp only [Bool.or_eq_true, decide_eq_true_eq, not_or] at hother
    exact absurd h hother.2

theorem unmodified_of_success
    (h : (executeSingleToolCall call toolResultScreener attempt).outcome = .success) :
    (executeSingleToolCall call toolResultScreener attempt).content = rawContent attempt := by
  have hscreened : (screenToolResult call toolResultScreener (runAttempt attempt)).outcome
      = .success := outcome_nameMissingEvidence_success.mp h
  rw [content_executeSingleToolCall]
  unfold screenToolResult at hscreened ⊢
  split at hscreened
  · rfl
  · rfl
  · rename_i screened _
    cases hreplaced : replacesContent (runAttempt attempt).result screened with
    | true =>
      rw [outcome_applyVerdict_of_replaced hreplaced] at hscreened
      exact absurd hscreened renamed_ne_success
    | false =>
      show (applyVerdict _ _).result.content = _
      rw [(applyVerdict_of_kept hreplaced).1]
      rfl
  · cases hscreened

theorem outcome_executeSingleToolCall_iff :
    (executeSingleToolCall call toolResultScreener attempt).outcome = .success ∨
        (executeSingleToolCall call toolResultScreener attempt).outcome = .partial_result ↔
      (screenToolResult call toolResultScreener (runAttempt attempt)).outcome = .success ∨
        (screenToolResult call toolResultScreener (runAttempt attempt)).outcome = .partial_result ∧
          deliversToolResultEvidence
            (screenToolResult call toolResultScreener (runAttempt attempt)).result = true :=
  or_congr outcome_nameMissingEvidence_success outcome_nameMissingEvidence_partial

/-- What a verdict that changes nothing and yet withholds looks like. -/
theorem replacesContent_eq_false_iff (hmode : screened.mode = .enforce) :
    replacesContent result screened = false ↔
      screened.effectiveText = toolResultText result ∧
        hasNonTextToolResultContent result = false := by
  simp [replacesContent, hmode]

theorem resultContentWithheld_of_texts (hmode : screened.mode = .enforce)
    (htexts : hasNonTextToolResultContent result = false) :
    resultContentWithheld result screened = screened.withheld := by
  simp [resultContentWithheld, hmode, htexts]

theorem deliversToolResultEvidence_of_texts (htexts : hasNonTextToolResultContent result = false) :
    deliversToolResultEvidence result = true ↔ JsString.trim (toolResultText result) ≠ "" := by
  simp [deliversToolResultEvidence, htexts]

/-- A hold that changes nothing leaves the outcome of the tool in place. -/
theorem delivered_of_heldAsItself
    (h : HeldAsItself (runAttempt attempt).result (runAttempt attempt).outcome
      (screenerAnswer call toolResultScreener (runAttempt attempt))) :
    ((executeSingleToolCall call toolResultScreener attempt).outcome = .success ∨
        (executeSingleToolCall call toolResultScreener attempt).outcome = .partial_result) ∧
      Withheld (runAttempt attempt).result
        (screenerAnswer call toolResultScreener (runAttempt attempt)) := by
  obtain ⟨screened, hanswer, hmode, hheld, htext, htexts, houtcome⟩ := h
  have hkept := applyVerdict_of_kept ((replacesContent_eq_false_iff hmode).mpr ⟨htext, htexts⟩)
  constructor
  · rw [outcome_executeSingleToolCall_iff, screenToolResult_of_verdict hanswer, hkept.1, hkept.2,
      deliversToolResultEvidence_of_texts htexts]
    exact houtcome
  · refine Or.inr ⟨screened, hanswer, ?_⟩
    rw [resultContentWithheld_of_texts hmode htexts]
    exact hheld

theorem heldAsItself_of_delivered
    (houtcome : (executeSingleToolCall call toolResultScreener attempt).outcome = .success ∨
        (executeSingleToolCall call toolResultScreener attempt).outcome = .partial_result)
    (hwithheld : Withheld (runAttempt attempt).result
      (screenerAnswer call toolResultScreener (runAttempt attempt))) :
    HeldAsItself (runAttempt attempt).result (runAttempt attempt).outcome
      (screenerAnswer call toolResultScreener (runAttempt attempt)) := by
  rw [outcome_executeSingleToolCall_iff] at houtcome
  obtain ⟨error, hanswer⟩ | ⟨screened, hanswer, hheld⟩ := hwithheld
  · -- A screener that throws is named, whatever the tool came to.
    rw [screenToolResult_of_error hanswer] at houtcome
    obtain h | ⟨h, _⟩ := houtcome <;> cases h
  · have hmode : screened.mode = .enforce := by
      simp only [resultContentWithheld, Bool.and_eq_true, decide_eq_true_eq] at hheld
      exact hheld.1
    rw [screenToolResult_of_verdict hanswer] at houtcome
    cases hreplaced : replacesContent (runAttempt attempt).result screened with
    | true =>
      -- A changed delivery under a hold is neither a success nor a partial result.
      rw [outcome_applyVerdict_of_replaced hreplaced, hheld] at houtcome
      obtain h | ⟨h, _⟩ := houtcome
      · exact absurd h renamed_ne_success
      · exact absurd (shortened_of_renamed h) (by simp)
    | false =>
      obtain ⟨htext, htexts⟩ := (replacesContent_eq_false_iff hmode).mp hreplaced
      rw [resultContentWithheld_of_texts hmode htexts] at hheld
      rw [(applyVerdict_of_kept hreplaced).1, (applyVerdict_of_kept hreplaced).2,
        deliversToolResultEvidence_of_texts htexts] at houtcome
      exact ⟨screened, hanswer, hmode, hheld, htext, htexts, houtcome⟩

end Screening

/-- **Screening fails closed**, for every attempt and every screener, except on a result of texts
only that the screener withholds while its effective text is the result's own: that one is
delivered as it is and keeps the outcome of the tool. -/
theorem screening_failsClosed_iff (call : ToolCall)
    (toolResultScreener : Option ToolResultIntakeScreener) (attempt : Attempt) :
    FailsClosed call toolResultScreener attempt ↔
      ¬HeldAsItself (runAttempt attempt).result (runAttempt attempt).outcome
        (screenerAnswer call toolResultScreener (runAttempt attempt)) := by
  constructor
  · intro h hheld
    obtain ⟨houtcome, hwithheld⟩ := delivered_of_heldAsItself hheld
    exact h.delivered houtcome hwithheld
  · intro h
    exact { threw := fun error hanswer => delivered_of_threw hanswer
            enforced := fun screened hanswer hmode => delivered_of_enforced hanswer hmode
            delivered := fun houtcome hwithheld => h (heldAsItself_of_delivered houtcome hwithheld)
            unmodified := unmodified_of_success }

/-- A screener that holds back everything behind one notice. -/
def holdingScreener (notice : String) : ToolResultIntakeScreener := fun _ =>
  .ok (some { mode := .enforce, withheld := true, effectiveText := notice
              snapshot := { envelopeId := "env-1", sourceClass := .toolOutput
                            sourceRiskTier := .untrusted, state := .quarantined, riskLabels := []
                            enforcementPosture := some .enforce, subject := .body } })

/-- A tool whose result reads as the notice is held back and recorded as a success. -/
theorem held_notice_is_success : ¬FailsClosed ⟨"call-1", "fs", .object []⟩
    (some (holdingScreener "kept aside"))
    (.returned ⟨some [textBlock "kept aside"], .object []⟩) := by
  intro h
  refine h.delivered (Or.inl ?_) (Or.inr ⟨_, rfl, ?_⟩)
  · decide
  · decide

end Psfn.Intake.ToolResult
