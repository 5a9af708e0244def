import Psfn.Lib.JsSet
import Psfn.Lib.JsValue

/-!
# Tool-call scheduler — executable definitions

`core/agent/tool-call-scheduler.ts` and the outcome taxonomy of
`shared/contracts/tool-call-outcome.ts`.

`executeSingleToolCall` awaits the tool between two stretches of code that run without
interruption. They are two functions here: `startToolCall` (the guard's checks, up to
the call) and `finishToolCall` (classification, screening, the guard's bookkeeping, the
result). What the tool and the screener answer is data the environment supplies.

Telemetry, stream events, timestamps and the invocation audit do not feed back into any
decision and are left out. Two string functions nothing here looks into are parameters:
`stableStringify`, which builds call signatures, and `parseMissingArgumentRequirement`,
which reads a failure text.
-/

namespace Psfn.Scheduler

open Psfn.Lib

/-! ## Outcomes (`tool-call-outcome.ts`) -/

inductive ToolCallOutcome where
  | success | executionFailure | validationRejection | policyDenial | duplicateSkip
  | dependencySkip | contentWithheld | screeningUnavailable | partialResult
deriving DecidableEq, Repr

inductive ToolCallEvidenceDependency where
  | required
  | optional
deriving DecidableEq, Repr

def isDegradedEvidenceToolCallOutcome : ToolCallOutcome → Bool
  | .contentWithheld | .screeningUnavailable | .partialResult => true
  | _ => false

def isToolCallErrorOutcome : ToolCallOutcome → Bool
  | .success | .contentWithheld | .partialResult => false
  | _ => true

def blocksSequentialDependents (outcome : ToolCallOutcome)
    (evidenceDependency : ToolCallEvidenceDependency) : Bool :=
  if outcome = .success || outcome = .partialResult then false
  else if isDegradedEvidenceToolCallOutcome outcome then evidenceDependency = .required
  else true

/-- `value === true`. -/
def isTrue : JsValue → Bool
  | .bool true => true
  | _ => false

/-- `value === text`. -/
def isText (text : String) : JsValue → Bool
  | .string s => s = text
  | _ => false

def isInferredErrorClass (details : JsValue) : Bool := isText "inferred" (details.property "classSource")

def isPolicyDenialDetails (details : JsValue) : Bool :=
  if !details.isRecord then false
  else if isTrue (details.property "capabilityDenied") || isTrue (details.property "egressGated") ||
      isTrue (details.property "policyDenied") then true
  else if isInferredErrorClass details then false
  else isText "permission_denied" (details.property "errorClass") ||
    isText "policy_blocked" (details.property "errorClass")

def isValidationRejectionDetails (details : JsValue) : Bool :=
  details.isRecord && !isInferredErrorClass details &&
    isText "invalid_input" (details.property "errorClass")

def isDeclaredPartialResultDetails (details : JsValue) : Bool :=
  details.isRecord && isTrue (details.property "partialResult")

def classifyExecutedToolCallOutcome (details : JsValue) (isError : Bool) : ToolCallOutcome :=
  if isPolicyDenialDetails details then .policyDenial
  else if isValidationRejectionDetails details then .validationRejection
  else if isError then .executionFailure
  else if isDeclaredPartialResultDetails details then .partialResult
  else .success

/-- A held call did not perform its action and may be retried. -/
def isHeldToolCallResult (details : JsValue) : Bool :=
  details.isRecord && isText "held" (details.property "status")

def toolResultDetailsFlagError (details : JsValue) : Bool := isTrue (details.property "isError")

def idempotencyOf : JsValue → Option Bool
  | .string "idempotent" => some true
  | .string "effectful" => some false
  | _ => none

/-- `resolveToolCallIdempotency(parameters, arguments) === 'idempotent'`. -/
def resolveToolCallIdempotency (parameters argumentsValue : JsValue) : Bool :=
  let declaration := parameters.property "x-psfn-tool-call-idempotency"
  let actions := declaration.property "actions"
  let defaultAction := declaration.property "defaultAction"
  match idempotencyOf (declaration.property "default") with
  | none => false
  | some byDefault =>
    let badDefaultAction := match defaultAction with
      | .undefined => false
      | .string s => JsString.trim s = ""
      | _ => true
    let badActions := match actions with
      | .undefined => false
      | .object entries => entries.any fun p => (idempotencyOf p.2).isNone
      | _ => true
    if badDefaultAction || badActions then false
    else
      let declared := if argumentsValue.isRecord then argumentsValue.property "action" else .undefined
      let action := match declared, defaultAction with
        | .string s, _ => JsString.trim s
        | _, .string s => JsString.trim s
        | _, _ => ""
      if action = "" || actions.isUndefined then byDefault
      else (idempotencyOf (actions.property action)).getD false

/-! ## Descriptors -/

structure ToolCall where
  id        : String
  name      : String
  arguments : JsValue

inductive ToolConcurrencyClass where
  | exclusive | readOnly | spawnSubagent
deriving DecidableEq, Repr

inductive ToolExclusivityKeyPolicy where
  | none | categoryToolName | staticKey
deriving DecidableEq, Repr

/-- The metadata the scheduler reads; `interruptibility` and `eligibility` are only
checked for validity. -/
structure ToolConcurrencyMeta where
  concurrencyClass     : ToolConcurrencyClass
  exclusivityKeyPolicy : ToolExclusivityKeyPolicy
  exclusivityKey       : Option String := none
  maxParallel          : Option JsNumber := none

inductive MetadataIssue where
  | missing
  | invalid
deriving DecidableEq, Repr

structure ToolCallDescriptor where
  toolCall      : ToolCall
  metadata      : ToolConcurrencyMeta
  metadataIssue : Option MetadataIssue := none

/-! ## Batches -/

def canRunConcurrently (a b : ToolCallDescriptor) : Bool :=
  if a.metadataIssue.isSome || b.metadataIssue.isSome then false
  else if a.metadata.concurrencyClass ≠ b.metadata.concurrencyClass then false
  else if a.metadata.concurrencyClass ≠ .spawnSubagent then false
  else if a.metadata.exclusivityKeyPolicy ≠ .none || b.metadata.exclusivityKeyPolicy ≠ .none ||
      a.metadata.exclusivityKey.isSome || b.metadata.exclusivityKey.isSome then false
  else true

/-- The loop of `collectCompatibleBatch`, over the descriptors after the first. -/
def extendBatch (batch : List ToolCallDescriptor) : List ToolCallDescriptor → List ToolCallDescriptor
  | [] => batch
  | candidate :: rest =>
    if batch.any fun entry => !canRunConcurrently entry candidate then batch
    else extendBatch (batch ++ [candidate]) rest

def collectCompatibleBatch (descriptors : List ToolCallDescriptor) (startIndex : Nat) :
    List ToolCallDescriptor :=
  match descriptors.drop startIndex with
  | [] => []
  | first :: rest =>
    if first.metadata.concurrencyClass = .exclusive then [first] else extendBatch [first] rest

/-- `Math.max(1, Math.floor(n))` for a finite `n`, else the fallback. -/
def atLeastOne (n : JsNumber) (fallback : Nat) : Nat :=
  match n with
  | .finite q => (max 1 q.floor).toNat
  | _ => fallback

def boundByMetadata (current : Nat) (descriptor : ToolCallDescriptor) : Nat :=
  match descriptor.metadata.maxParallel with
  | some (.finite q) =>
    if (JsNumber.finite q).isInteger && 1 ≤ q then min current q.floor.toNat else current
  | _ => current

def resolveBatchParallelLimit (batch : List ToolCallDescriptor) (maxParallelToolCalls : JsNumber) :
    Nat :=
  let boundedGlobal := atLeastOne maxParallelToolCalls 1
  let boundedByMetadata := batch.foldl boundByMetadata boundedGlobal
  max 1 (min boundedGlobal boundedByMetadata)

/-! ## Results -/

inductive ContentBlock where
  | text (s : String)
  | nonText
deriving DecidableEq

structure AgentToolResult where
  content : List ContentBlock
  details : JsValue

structure ToolResultMessage where
  toolCallId : String
  toolName   : String
  content    : List ContentBlock
  details    : JsValue
  isError    : Bool
  outcome    : ToolCallOutcome

def toolResultText (result : AgentToolResult) : String :=
  "\n".intercalate (result.content.filterMap fun
    | .text s => if s = "" then none else some s
    | .nonText => none)

def hasNonTextToolResultContent (result : AgentToolResult) : Bool :=
  result.content.any fun
    | .text _ => false
    | .nonText => true

def deliversToolResultEvidence (result : AgentToolResult) : Bool :=
  hasNonTextToolResultContent result || JsString.trim (toolResultText result) ≠ ""

def replaceToolResultTextContent (result : AgentToolResult) (effectiveText : String)
    (withheld : Bool) : AgentToolResult :=
  if withheld then { result with content := [.text effectiveText] }
  else { result with content := .text effectiveText :: result.content.filter (· = .nonText) }

def skipToolCall (toolCall : ToolCall) (reasonText : String) (outcome : ToolCallOutcome) :
    ToolResultMessage where
  toolCallId := toolCall.id
  toolName := toolCall.name
  content := [.text reasonText]
  details := .object []
  isError := true
  outcome := outcome

/-! ## The guard -/

structure MissingArgumentRequirement where
  label        : String
  alternatives : List String
  all          : Bool
deriving DecidableEq

structure ToolCallExecutionGuard where
  inFlightSignatures                : List String
  successfulSignatures              : List String
  failureCountsBySignature          : JsMap String Nat
  malformedArgumentFailuresByAction : JsMap String (List MissingArgumentRequirement)
  correctedToolNames                : List String

def createToolCallExecutionGuard : ToolCallExecutionGuard where
  inFlightSignatures := []
  successfulSignatures := []
  failureCountsBySignature := JsMap.empty
  malformedArgumentFailuresByAction := JsMap.empty
  correctedToolNames := []

def resolveToolCallAction (toolCall : ToolCall) : String :=
  match toolCall.arguments.property "action" with
  | .string s => JsString.trim s
  | _ => ""

def buildMalformedActionKey (toolCall : ToolCall) : String :=
  toolCall.name ++ ":" ++ resolveToolCallAction toolCall

def hasUsefulArgumentValue : JsValue → Bool
  | .string s => JsString.trim s ≠ ""
  | .undefined => false
  | .null => false
  | _ => true

def satisfiesRequirement (toolCall : ToolCall) (requirement : MissingArgumentRequirement) : Bool :=
  let checker (field : String) : Bool := hasUsefulArgumentValue (toolCall.arguments.property field)
  toolCall.arguments.isRecord &&
    (if requirement.all then requirement.alternatives.all checker
     else requirement.alternatives.any checker)

def missingRequirementLabel (toolCall : ToolCall) (requirement : MissingArgumentRequirement) :
    String :=
  if !requirement.all || !toolCall.arguments.isRecord then requirement.label
  else
    match requirement.alternatives.filter fun field =>
      !hasUsefulArgumentValue (toolCall.arguments.property field) with
    | [] => requirement.label
    | absent => ", ".intercalate absent

/-- The first recorded requirement of the same tool and action the call still misses. -/
def resolveRepeatedMalformedArgumentSkip (toolCall : ToolCall) (guard : ToolCallExecutionGuard) :
    Option MissingArgumentRequirement :=
  ((guard.malformedArgumentFailuresByAction.get (buildMalformedActionKey toolCall)).getD []).find?
    fun requirement => !satisfiesRequirement toolCall requirement

def failureCount (guard : ToolCallExecutionGuard) (signature : String) : Nat :=
  (guard.failureCountsBySignature.get signature).getD 0

structure ToolCallSchedulerOptions where
  maxParallelToolCalls    : JsNumber
  maxFailuresPerSignature : Option JsNumber := none

def maxFailures (options : ToolCallSchedulerOptions) : Nat :=
  match options.maxFailuresPerSignature with
  | some n => atLeastOne n 2
  | none => 2

/-! ## One call: from the first check to the tool -/

/-- A call whose tool is running: what the second half needs of the first. -/
structure Running where
  toolCall    : ToolCall
  signature   : String
  deduplicate : Bool

inductive Start where
  | skipped (result : ToolResultMessage)
  | running (guard : Option ToolCallExecutionGuard) (call : Running)

def duplicateInFlightText : String :=
  "Internal tool status: skipped duplicate tool call because the same tool/action/input is already in flight. This is not a Participant-facing message."

/-- `DUPLICATE_TOOL_CALL_SKIP_RESULT`. -/
def duplicateToolCallSkipResult : String :=
  "Internal tool status: skipped duplicate tool call because the same tool/action/input already succeeded this turn. This is not a Participant-facing message."

def degradedText (toolName : String) (failures : Nat) : String :=
  s!"Internal tool status: {toolName} is degraded for this action/input after {failures} failed attempts this turn. Stop retrying it for now and notify the Operator if it affects the conversation. This is not a Participant-facing message."

def repeatedMalformedText (toolCall : ToolCall) (requirement : MissingArgumentRequirement) : String :=
  let action := resolveToolCallAction toolCall
  "Internal tool status: skipped repeated malformed " ++ toolCall.name
    ++ (if action = "" then "" else " action=" ++ action)
    ++ " call because required field(s) are still missing: "
    ++ missingRequirementLabel toolCall requirement
    ++ ". Use one minimal valid JSON call with all required fields before retrying. This is not a Participant-facing message."

section Parameters

variable (stableStringify : JsValue → String)

def buildToolCallSignature (toolCall : ToolCall) : String :=
  toolCall.name ++ ":" ++ stableStringify toolCall.arguments

/-- The first half of `executeSingleToolCall`. `parameters` is the parameter schema of the
tool the name resolves to at that moment, `undefined` when there is none. -/
def startToolCall (options : ToolCallSchedulerOptions) (guard : Option ToolCallExecutionGuard)
    (toolCall : ToolCall) (parameters : JsValue) : Start :=
  let signature := buildToolCallSignature stableStringify toolCall
  let deduplicate := resolveToolCallIdempotency parameters toolCall.arguments
  match guard with
  | none => .running none { toolCall, signature, deduplicate }
  | some guard =>
    match resolveRepeatedMalformedArgumentSkip toolCall guard with
    | some requirement =>
      .skipped (skipToolCall toolCall (repeatedMalformedText toolCall requirement)
        .validationRejection)
    | none =>
      if deduplicate && signature ∈ guard.inFlightSignatures then
        .skipped (skipToolCall toolCall duplicateInFlightText .duplicateSkip)
      else if deduplicate && signature ∈ guard.successfulSignatures then
        .skipped (skipToolCall toolCall duplicateToolCallSkipResult .duplicateSkip)
      else
        let failures := failureCount guard signature
        if failures ≥ maxFailures options then
          .skipped (skipToolCall toolCall (degradedText toolCall.name failures) .dependencySkip)
        else
          .running
            (some (if deduplicate then
              { guard with inFlightSignatures := JsSet.add guard.inFlightSignatures signature }
            else guard))
            { toolCall, signature, deduplicate }

end Parameters

/-! ## One call: from the tool's answer to the result -/

/-- What came back: a correction for a defective call, a result, or an exception
(with the result the scheduler makes of it). -/
inductive RawExecution where
  | correction (text : String)
  | returned (result : AgentToolResult)
  | threw (result : AgentToolResult)

/-- What the intake screener said about the result: nothing, a verdict, or it failed. -/
inductive Screening where
  | none
  | screened (enforce withheld : Bool) (effectiveText : String)
  | failed

structure Execution where
  raw       : RawExecution
  screening : Screening

/-- Result and outcome before screening. -/
def rawOutcome : RawExecution → AgentToolResult × ToolCallOutcome
  | .correction text => ({ content := [.text text], details := .object [] }, .validationRejection)
  | .returned result =>
    (result, classifyExecutedToolCallOutcome result.details
      (toolResultDetailsFlagError result.details))
  | .threw result => (result, .executionFailure)

def nonTextToolResultWithheldNotice : String :=
  "[System notice] Non-text tool content was withheld because no intake screener admitted it."

def screeningFailedText (toolName : String) : String :=
  s!"Internal tool status: the {toolName} result was withheld because intake screening failed. This is not a Participant-facing message."

/-- The screening step of `executeSingleToolCall`; corrections skip it. -/
def applyScreening (toolName : String) (execution : Execution) : AgentToolResult × ToolCallOutcome :=
  let (result, outcome) := rawOutcome execution.raw
  match execution.raw, execution.screening with
  | .correction _, _ => (result, outcome)
  | _, .none => (result, outcome)
  | _, .failed =>
    if result.content.isEmpty then (result, outcome)
    else ({ content := [.text (screeningFailedText toolName)], details := .object [] },
      .screeningUnavailable)
  | _, .screened enforce withheld effectiveText =>
    let hasNonTextContent := hasNonTextToolResultContent result
    if result.content.isEmpty || !enforce ||
        (effectiveText = toolResultText result && !hasNonTextContent) then (result, outcome)
    else
      let resultContentWithheld := withheld || hasNonTextContent
      let deliveredText :=
        if hasNonTextContent && JsString.trim (toolResultText result) = "" then
          nonTextToolResultWithheldNotice
        else effectiveText
      let replaced := replaceToolResultTextContent result deliveredText resultContentWithheld
      if outcome = .success || outcome = .partialResult then
        (replaced, if resultContentWithheld then .contentWithheld else .partialResult)
      else (replaced, outcome)

/-- Result and outcome of a call that ran. A partial result that delivers nothing is a
hold. -/
def classifyExecution (toolName : String) (execution : Execution) :
    AgentToolResult × ToolCallOutcome :=
  let (result, outcome) := applyScreening toolName execution
  if outcome = .partialResult && !deliversToolResultEvidence result then (result, .contentWithheld)
  else (result, outcome)

section Parameters

variable (parseMissingArgumentRequirement : String → Option MissingArgumentRequirement)

def recordMalformedArgumentFailure (guard : ToolCallExecutionGuard) (toolCall : ToolCall)
    (result : AgentToolResult) : ToolCallExecutionGuard :=
  match parseMissingArgumentRequirement (toolResultText result) with
  | none => guard
  | some requirement =>
    let key := buildMalformedActionKey toolCall
    let existing := (guard.malformedArgumentFailuresByAction.get key).getD []
    if existing.any fun entry => entry.label = requirement.label then guard
    else { guard with malformedArgumentFailuresByAction :=
             guard.malformedArgumentFailuresByAction.set key (existing ++ [requirement]) }

def isCorrection : RawExecution → Bool
  | .correction _ => true
  | _ => false

/-- The guard's bookkeeping once a call has run. -/
def settleGuard (guard : ToolCallExecutionGuard) (call : Running) (result : AgentToolResult)
    (outcome : ToolCallOutcome) : ToolCallExecutionGuard :=
  let guard := if call.deduplicate then
    { guard with inFlightSignatures := JsSet.delete guard.inFlightSignatures call.signature }
    else guard
  if isToolCallErrorOutcome outcome then
    recordMalformedArgumentFailure parseMissingArgumentRequirement
      { guard with failureCountsBySignature :=
          guard.failureCountsBySignature.set call.signature (failureCount guard call.signature + 1) }
      call.toolCall result
  else if outcome = .success && !isHeldToolCallResult result.details then
    { guard with
      successfulSignatures :=
        if call.deduplicate then JsSet.add guard.successfulSignatures call.signature
        else guard.successfulSignatures
      correctedToolNames := JsSet.delete guard.correctedToolNames call.toolCall.name }
  else guard

/-- The second half of `executeSingleToolCall`. -/
def finishToolCall (guard : Option ToolCallExecutionGuard) (call : Running) (execution : Execution) :
    Option ToolCallExecutionGuard × ToolResultMessage :=
  let corrected := guard.map fun guard =>
    if isCorrection execution.raw then
      { guard with correctedToolNames := JsSet.add guard.correctedToolNames call.toolCall.name }
    else guard
  let (result, outcome) := classifyExecution call.toolCall.name execution
  (corrected.map fun guard =>
      settleGuard parseMissingArgumentRequirement guard call result outcome,
    { toolCallId := call.toolCall.id, toolName := call.toolCall.name, content := result.content
      details := result.details, isError := isToolCallErrorOutcome outcome, outcome })

end Parameters

/-! ## Interruptions -/

/-- The four kinds of queued message the skip text tells apart. -/
inductive AgentMessage where
  | user | systemNote | internalWhisper | other
deriving DecidableEq, Repr

def resolveQueuedMessageAttribution (queued : List AgentMessage) : String :=
  if .user ∈ queued then "Skipped due to queued Participant message."
  else if .systemNote ∈ queued then "Skipped due to queued system message."
  else if .internalWhisper ∈ queued then "Skipped due to queued internal note."
  else "Skipped due to queued message."

/-- `SEQUENTIAL_DEPENDENCY_SKIP_RESULT`. -/
def sequentialDependencySkipResult : String :=
  "Skipped because an earlier sequential tool call failed. Read the tool result and retry only the needed follow-up call."

/-- `SEQUENTIAL_DEGRADED_EVIDENCE_SKIP_RESULT`. -/
def sequentialDegradedEvidenceSkipResult : String :=
  "Skipped because an earlier sequential tool call returned no usable evidence: its content was "
    ++ "withheld or could not be screened. Nothing failed. Continue from what you already have, or "
    ++ "retry only the follow-up call that does not depend on that read."

def haltReasonText (outcome : ToolCallOutcome) : String :=
  if isDegradedEvidenceToolCallOutcome outcome then sequentialDegradedEvidenceSkipResult
  else sequentialDependencySkipResult

/-- The skipped results of the calls a run never gets to. -/
def skipRemaining (remaining : List ToolCallDescriptor) (resultText : String) :
    List ToolResultMessage :=
  remaining.map fun descriptor => skipToolCall descriptor.toolCall resultText .dependencySkip

end Psfn.Scheduler
