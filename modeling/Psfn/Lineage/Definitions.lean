import Psfn.Lib.JsValue

/-!
# CogSec lineage — executable definitions

How a CogSec case finds the derivatives of the messages it affects: the affected
ranges an event carries (`core/cogsec/events.ts`), the spans they are normalised to,
and the two matchers of `core/cogsec/lineage.ts` that classify a structured reference
string and a memory's provenance against those spans.
-/

namespace Psfn.Lineage

open Psfn.Lib

/-! ## Affected ranges (`events.ts`) -/

structure CogSecAffectedMessageRange where
  sourceChannelId   : Option String := none
  logicalSessionId  : Option String := none
  startEntryId      : Option JsNumber := none
  endEntryId        : Option JsNumber := none
  messageIds        : Option (List JsNumber) := none
  sourceMessageIds  : Option (List String) := none
  discordMessageIds : Option (List String) := none

/-- `MESSAGE_RANGE_KEYS`. -/
def messageRangeKeys : List String :=
  ["sourceChannelId", "logicalSessionId", "startEntryId", "endEntryId", "messageIds",
    "sourceMessageIds", "discordMessageIds"]

def assertKnownKeys (value : JsValue) (allowed : List String) (field : String) :
    Except String Unit :=
  value.ownKeys.forM fun key =>
    if key ∈ allowed then .ok () else .error s!"{field} contains unknown field \"{key}\""

def normalizeRequiredString (value : JsValue) (field : String) : Except String String :=
  match value with
  | .string s =>
    let normalized := JsString.trim s
    if normalized = "" then .error s!"{field} must be non-empty" else .ok normalized
  | _ => .error s!"{field} must be a string"

def parsePositiveInteger (value : JsValue) (field : String) : Except String JsNumber :=
  match value with
  | .number n =>
    if !n.isInteger || n.le (.finite 0) then .error s!"{field} must be a positive integer" else .ok n
  | _ => .error s!"{field} must be a positive integer"

/-- `value.map((item, index) => parse(item, field[index]))`. -/
def parseItems {α : Type} (parse : JsValue → String → Except String α) (field : String) :
    Nat → List JsValue → Except String (List α)
  | _, [] => .ok []
  | index, item :: rest => do
    let parsed ← parse item s!"{field}[{index}]"
    let parsedRest ← parseItems parse field (index + 1) rest
    .ok (parsed :: parsedRest)

def parseStringArray (value : JsValue) (field : String) : Except String (List String) :=
  match value with
  | .array items => parseItems normalizeRequiredString field 0 items
  | _ => .error s!"{field} must be an array"

def parseNumberArray (value : JsValue) (field : String) : Except String (List JsNumber) :=
  match value with
  | .array items => parseItems parsePositiveInteger field 0 items
  | _ => .error s!"{field} must be an array"

/-- `value === undefined ? undefined : parse(value, field)`. -/
def parseOptional {α : Type} (parse : JsValue → String → Except String α) (value : JsValue)
    (field : String) : Except String (Option α) :=
  if value.isUndefined then .ok none else (parse value field).map some

/-- `endEntryId < startEntryId`, when both bounds are given. -/
def boundsReversed : Option JsNumber → Option JsNumber → Bool
  | some startEntryId, some endEntryId => endEntryId.lt startEntryId
  | _, _ => false

def parseMessageRange (value : JsValue) (field : String) :
    Except String CogSecAffectedMessageRange := do
  throwIf (!value.isRecord) s!"{field} must be an object"
  assertKnownKeys value messageRangeKeys field
  let startEntryId ← parseOptional parsePositiveInteger (value.property "startEntryId")
    s!"{field}.startEntryId"
  let endEntryId ← parseOptional parsePositiveInteger (value.property "endEntryId")
    s!"{field}.endEntryId"
  throwIf (boundsReversed startEntryId endEntryId)
    s!"{field}.endEntryId must be greater than or equal to startEntryId"
  let sourceChannelId ← parseOptional normalizeRequiredString (value.property "sourceChannelId")
    s!"{field}.sourceChannelId"
  let logicalSessionId ← parseOptional normalizeRequiredString (value.property "logicalSessionId")
    s!"{field}.logicalSessionId"
  let messageIds ← parseOptional parseNumberArray (value.property "messageIds")
    s!"{field}.messageIds"
  let sourceMessageIds ← parseOptional parseStringArray (value.property "sourceMessageIds")
    s!"{field}.sourceMessageIds"
  let discordMessageIds ← parseOptional parseStringArray (value.property "discordMessageIds")
    s!"{field}.discordMessageIds"
  return { sourceChannelId, logicalSessionId, startEntryId, endEntryId, messageIds,
           sourceMessageIds, discordMessageIds }

/-! ## Spans -/

/-- The fields of an event (or of a `CogSecLineageSource`) the matchers read. -/
structure CogSecLineageSource where
  sourceChannelId           : String
  affectedLogicalSessionIds : List String
  affectedMessageRanges     : List CogSecAffectedMessageRange

structure AffectedSpan where
  sourceChannelId  : Option String
  logicalSessionId : String
  messageIds       : List JsNumber
  startEntryId     : Option JsNumber
  endEntryId       : Option JsNumber
  sessionWide      : Bool
deriving DecidableEq

def isPositiveInteger (n : JsNumber) : Bool := n.isInteger && (JsNumber.finite 0).lt n

/-- `toPositiveInteger` on a `number | undefined`. -/
def toPositiveInteger (value : Option JsNumber) : Option JsNumber :=
  value.filter isPositiveInteger

def normalizeRange (range : CogSecAffectedMessageRange) (fallbackLogicalSessionId : String)
    (fallbackSourceChannelId : String) : AffectedSpan :=
  let messageIds := ((range.messageIds.getD []).filter isPositiveInteger).eraseDups
  let startEntryId := toPositiveInteger range.startEntryId
  let endEntryId := toPositiveInteger range.endEntryId
  let sourceChannelId := range.sourceChannelId.getD fallbackSourceChannelId
  { sourceChannelId := if sourceChannelId = "" then none else some sourceChannelId
    logicalSessionId := range.logicalSessionId.getD fallbackLogicalSessionId
    messageIds
    startEntryId
    endEntryId
    sessionWide := messageIds.isEmpty && startEntryId.isNone && endEntryId.isNone }

/-- `uniqueStrings` of `shared/utils/strings.ts`. -/
def uniqueStrings (values : List String) : List String :=
  ((values.map JsString.trim).filter (· ≠ "")).eraseDups

def buildAffectedSpans (event : CogSecLineageSource) : List AffectedSpan :=
  if event.affectedMessageRanges.length > 0 then
    event.affectedMessageRanges.map fun range =>
      normalizeRange range (range.logicalSessionId.getD event.sourceChannelId) event.sourceChannelId
  else
    (uniqueStrings (event.affectedLogicalSessionIds ++ [event.sourceChannelId])).map fun sessionId =>
      { sourceChannelId := some event.sourceChannelId
        logicalSessionId := sessionId
        messageIds := []
        startEntryId := none
        endEntryId := none
        sessionWide := true }

def spanHasMessageGranularity (span : AffectedSpan) : Bool :=
  !span.messageIds.isEmpty || span.startEntryId.isSome || span.endEntryId.isSome

def messageIdInSpan (id : JsNumber) (span : AffectedSpan) : Bool :=
  if span.sessionWide then true
  else if id ∈ span.messageIds then true
  else if span.startEntryId.any fun start => id.lt start then false
  else if span.endEntryId.any fun last => last.lt id then false
  else span.startEntryId.isSome || span.endEntryId.isSome

/-- `Number.MAX_SAFE_INTEGER`. -/
def maxSafeInteger : JsNumber := .finite 9007199254740991

/-- `a ?? b ?? c`. -/
def orElse (a b : Option JsNumber) (c : JsNumber) : JsNumber := (a <|> b).getD c

def rangesIntersect (leftStart leftEnd rightStart rightEnd : Option JsNumber) : Bool :=
  if leftStart = none ∧ leftEnd = none then true
  else if rightStart = none ∧ rightEnd = none then true
  else
    let normalizedLeftStart := orElse leftStart leftEnd (.finite 1)
    let normalizedLeftEnd := orElse leftEnd leftStart maxSafeInteger
    let normalizedRightStart := orElse rightStart rightEnd (.finite 1)
    let normalizedRightEnd := orElse rightEnd rightStart maxSafeInteger
    normalizedLeftStart.le normalizedRightEnd && normalizedRightStart.le normalizedLeftEnd

/-! ## Structured references -/

structure ParsedRef where
  sessionId    : Option String := none
  channelId    : Option String := none
  messageIds   : List JsNumber := []
  startEntryId : Option JsNumber := none
  endEntryId   : Option JsNumber := none
deriving DecidableEq

/-- `/^(\d+)(?:-(\d+))?$/`: the first group and, when it took part, the second. -/
def matchLineRange (s : List Char) : Option (List Char × Option (List Char)) :=
  match s.takeWhile Char.isDigit, s.dropWhile Char.isDigit with
  | [], _ => none
  | first, [] => some (first, none)
  | first, '-' :: rest =>
    if rest ≠ [] ∧ rest.all Char.isDigit then some (first, some rest) else none
  | _, _ => none

/-- The bounds a `lines:` token sets; a bound that is not positive is left out. -/
def parseLineRange (value : List Char) : Option JsNumber × Option JsNumber :=
  match matchLineRange (JsString.trimChars value) with
  | none => (none, none)
  | some (first, second) =>
    let startEntryId := JsString.parseInt first
    let endEntryId := JsString.parseInt (second.getD first)
    (if (JsNumber.finite 0).lt startEntryId then some startEntryId else none,
      if (JsNumber.finite 0).lt endEntryId then some endEntryId else none)

/-- Key and value of a token, when it has a non-empty key. -/
def splitToken (token : List Char) : Option (String × List Char) :=
  match token.takeWhile (· ≠ ':'), token.dropWhile (· ≠ ':') with
  | [], _ => none
  | _, [] => none
  | key, _ :: value => some (String.ofList key, JsString.trimChars value)

def addMessageId (ids : List JsNumber) (id : JsNumber) : List JsNumber :=
  if isPositiveInteger id ∧ id ∉ ids then ids ++ [id] else ids

/-- One round of the token loop of `parseStructuredRef`. -/
def parseRefToken (parsed : ParsedRef) (token : List Char) : ParsedRef :=
  match splitToken token with
  | none => parsed
  | some (key, value) =>
    if value = [] then parsed
    else if key = "session" then { parsed with sessionId := some (String.ofList value) }
    else if key = "channel" then { parsed with channelId := some (String.ofList value) }
    else if key = "message" ∨ key = "messageId" then
      { parsed with messageIds := addMessageId parsed.messageIds (JsString.parseInt value) }
    else if key = "lines" then
      -- `Object.assign`: only the bounds the range sets replace earlier ones
      let (startEntryId, endEntryId) := parseLineRange value
      { parsed with
        startEntryId := startEntryId <|> parsed.startEntryId
        endEntryId := endEntryId <|> parsed.endEntryId }
    else parsed

/-- The channel a reference opens with, before any `:extract` suffix. -/
def leadingChannel (ref : String) (tokens : List (List Char)) : Option String :=
  let channel := String.ofList (JsString.trimChars
    (JsString.beforeSubstring ":extract".toList (tokens.headD [])))
  if channel ≠ "" ∧ channel ≠ ref then some channel else none

def parseStructuredRef (ref : String) : ParsedRef :=
  let tokens := JsString.splitChars '|' ref.toList
  tokens.foldl parseRefToken { channelId := leadingChannel ref tokens }

/-! ## The two matchers -/

inductive CogSecLineageClassification where
  | tainted
  | uncertain
deriving DecidableEq, Repr

structure MatchResult where
  classification : CogSecLineageClassification
  reason         : String
deriving DecidableEq

/-- `sessionMatches` of both matchers. A reference without a channel matches a span
without one. -/
def sessionMatches (sessionId channelId : Option String) (span : AffectedSpan) : Bool :=
  sessionId = some span.logicalSessionId || channelId = some span.logicalSessionId ||
    channelId = span.sourceChannelId

def ParsedRef.hasLineRangeRef (parsed : ParsedRef) : Bool :=
  parsed.startEntryId.isSome || parsed.endEntryId.isSome

/-- One round of the loop of `refMatchesSpans`: the value it returns, if it returns. -/
def refMatchesSpan (parsed : ParsedRef) (span : AffectedSpan) : Option MatchResult :=
  let hasSessionRef := parsed.sessionId.any (· ≠ "") || parsed.channelId.any (· ≠ "")
  let hasMessageIdRef := !parsed.messageIds.isEmpty
  let hasMessageRef := hasMessageIdRef || parsed.hasLineRangeRef
  if !sessionMatches parsed.sessionId parsed.channelId span then none
  else if !spanHasMessageGranularity span then
    some ⟨.tainted, "structured_ref_matches_affected_session"⟩
  else if hasMessageIdRef && parsed.messageIds.any (messageIdInSpan · span) then
    some ⟨.tainted, "structured_ref_message_id_intersects_affected_range"⟩
  else if parsed.hasLineRangeRef &&
      rangesIntersect parsed.startEntryId parsed.endEntryId span.startEntryId span.endEntryId then
    some ⟨.tainted, "structured_ref_line_range_intersects_affected_range"⟩
  else if hasSessionRef && !hasMessageRef then
    some ⟨.uncertain, "structured_ref_session_match_without_message_granularity"⟩
  else none

def refMatchesSpans (ref : String) (spans : List AffectedSpan) : Option MatchResult :=
  spans.findSome? (refMatchesSpan (parseStructuredRef ref))

/-- The fields of a memory's provenance the matcher reads. -/
structure MemoryProvenance where
  sessionId                : Option String := none
  channelId                : Option String := none
  sourceMessageIds         : Option (List JsNumber) := none
  sourceSpanStartMessageId : Option JsNumber := none
  sourceSpanEndMessageId   : Option JsNumber := none
deriving DecidableEq

def MemoryProvenance.hasSourceSpan (provenance : MemoryProvenance) : Bool :=
  provenance.sourceSpanStartMessageId.isSome || provenance.sourceSpanEndMessageId.isSome

/-- The loop of `provenanceMatchesSpans`, with `sessionMatchWithoutGranularity`. -/
def provenanceLoop (provenance : MemoryProvenance) :
    Option MatchResult → List AffectedSpan → Option MatchResult
  | sessionMatchWithoutGranularity, [] => sessionMatchWithoutGranularity
  | sessionMatchWithoutGranularity, span :: rest =>
    let hasSourceMessageIds := !(provenance.sourceMessageIds.getD []).isEmpty
    if !sessionMatches provenance.sessionId provenance.channelId span then
      provenanceLoop provenance sessionMatchWithoutGranularity rest
    else if !spanHasMessageGranularity span then
      some ⟨.tainted, "provenance_matches_affected_session"⟩
    else if (provenance.sourceMessageIds.getD []).any (messageIdInSpan · span) then
      some ⟨.tainted, "provenance_message_id_intersects_affected_range"⟩
    else if provenance.hasSourceSpan &&
        rangesIntersect provenance.sourceSpanStartMessageId provenance.sourceSpanEndMessageId
          span.startEntryId span.endEntryId then
      some ⟨.tainted, "provenance_span_intersects_affected_range"⟩
    else if hasSourceMessageIds || provenance.hasSourceSpan then
      provenanceLoop provenance sessionMatchWithoutGranularity rest
    else
      provenanceLoop provenance
        (some ⟨.uncertain, "provenance_session_match_without_message_granularity"⟩) rest

def provenanceMatchesSpans (provenance : Option MemoryProvenance) (spans : List AffectedSpan) :
    Option MatchResult :=
  match provenance with
  | none => none
  | some provenance => provenanceLoop provenance none spans

end Psfn.Lineage
