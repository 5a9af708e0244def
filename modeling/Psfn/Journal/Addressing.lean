import Psfn.Lib.JsEqual
import Psfn.Lib.Validate

/-!
# Session journal — the addressing contract

`parseMessageAddressingMetadata` of `shared/contracts/message-addressing.ts`, `classifyRow` of
`persistence/sessions/message-addressing-migration-policy.ts` and the canonical migration of
`persistence/sessions/message-addressing-journal-policy.ts`, with the text of every error.

A journal entry is here the object its row holds, with every property: the migration compares
all of them.
-/

namespace Psfn.Journal.Addressing

open Psfn.Lib

/-! ## The envelope -/

structure MessageAddressingParticipant where
  authorId   : String
  authorName : String
deriving DecidableEq, Repr

inductive MessageAuthorSourceClass where
  | operator | companionSelf | primaryUser | trustedContact | regularContact | publicContact
deriving DecidableEq, Repr

def MessageAuthorSourceClass.text : MessageAuthorSourceClass → String
  | operator => "operator"
  | companionSelf => "companion_self"
  | primaryUser => "primary_user"
  | trustedContact => "trusted_contact"
  | regularContact => "regular_contact"
  | publicContact => "public_contact"

/-- `MESSAGE_AUTHOR_SOURCE_CLASSES`. -/
def messageAuthorSourceClasses : List MessageAuthorSourceClass :=
  [.operator, .companionSelf, .primaryUser, .trustedContact, .regularContact, .publicContact]

inductive MessageAuthorRoomRole where
  | owner | moderator | member | guest | unknown
deriving DecidableEq, Repr

def MessageAuthorRoomRole.text : MessageAuthorRoomRole → String
  | owner => "owner"
  | moderator => "moderator"
  | member => "member"
  | guest => "guest"
  | unknown => "unknown"

/-- `MESSAGE_AUTHOR_ROOM_ROLES`. -/
def messageAuthorRoomRoles : List MessageAuthorRoomRole :=
  [.owner, .moderator, .member, .guest, .unknown]

inductive MessageRoomSizeBand where
  | small | large | unknown
deriving DecidableEq, Repr

def MessageRoomSizeBand.text : MessageRoomSizeBand → String
  | small => "small"
  | large => "large"
  | unknown => "unknown"

/-- `MESSAGE_ROOM_SIZE_BANDS`. -/
def messageRoomSizeBands : List MessageRoomSizeBand := [.small, .large, .unknown]

structure MessageAddressingAuthorClass where
  sourceClass : MessageAuthorSourceClass
  roomRole    : MessageAuthorRoomRole
  roomSize    : MessageRoomSizeBand
deriving DecidableEq, Repr

structure MessageAddressingReplyTarget where
  messageId : String
  author    : Option MessageAddressingParticipant
deriving DecidableEq, Repr

inductive ChannelScope where
  | direct | group
deriving DecidableEq, Repr

def ChannelScope.text : ChannelScope → String
  | direct => "direct"
  | group => "group"

structure MessageAddressingChannel where
  scope     : ChannelScope
  channelId : String
  threadId  : Option String
deriving DecidableEq, Repr

inductive MessageAddresseeEvidence where
  | mention | reply | directMessage
deriving DecidableEq, Repr

def MessageAddresseeEvidence.text : MessageAddresseeEvidence → String
  | mention => "mention"
  | reply => "reply"
  | directMessage => "direct_message"

structure MessageResolvedParticipant extends MessageAddressingParticipant where
  evidence : List MessageAddresseeEvidence
deriving DecidableEq, Repr

inductive MessageResolvedAddressee where
  | participants (participants : List MessageResolvedParticipant)
  | room (channelId : String) (threadId : Option String)
  | unresolvedReply (messageId : String)
deriving DecidableEq, Repr

inductive MessageAddressingSource where
  | discord | buzz | telegram | external
deriving DecidableEq, Repr

def MessageAddressingSource.text : MessageAddressingSource → String
  | discord => "discord"
  | buzz => "buzz"
  | telegram => "telegram"
  | external => "external"

/-- `MESSAGE_ADDRESSING_SOURCES`. -/
def messageAddressingSources : List MessageAddressingSource :=
  [.discord, .buzz, .telegram, .external]

structure MessageAddressingMetadata where
  source            : MessageAddressingSource
  author            : MessageAddressingParticipant
  observer          : MessageAddressingParticipant
  mentionedTargets  : List MessageAddressingParticipant
  replyTarget       : Option MessageAddressingReplyTarget
  channel           : MessageAddressingChannel
  resolvedAddressee : MessageResolvedAddressee
  authorClass       : Option MessageAddressingAuthorClass
deriving DecidableEq, Repr

/-! ## The envelope as an object -/

def MessageAddressingParticipant.toValue (participant : MessageAddressingParticipant) : JsValue :=
  .object [("authorId", .string participant.authorId),
    ("authorName", .string participant.authorName)]

def MessageAddressingReplyTarget.toValue (target : MessageAddressingReplyTarget) : JsValue :=
  .object <| ("messageId", .string target.messageId) ::
    optionalProperty "author" MessageAddressingParticipant.toValue target.author

def MessageAddressingChannel.toValue (channel : MessageAddressingChannel) : JsValue :=
  .object <| [("scope", .string channel.scope.text), ("channelId", .string channel.channelId)] ++
    optionalProperty "threadId" .string channel.threadId

def MessageResolvedParticipant.toValue (participant : MessageResolvedParticipant) : JsValue :=
  .object [("authorId", .string participant.authorId),
    ("authorName", .string participant.authorName),
    ("evidence", stringsValue (participant.evidence.map MessageAddresseeEvidence.text))]

def MessageResolvedAddressee.toValue : MessageResolvedAddressee → JsValue
  | participants list => .object [("kind", .string "participants"),
      ("participants", .array (list.map MessageResolvedParticipant.toValue))]
  | room channelId threadId => .object <|
      [("kind", .string "room"), ("channelId", .string channelId)] ++
        optionalProperty "threadId" .string threadId
  | unresolvedReply messageId => .object [("kind", .string "unresolved_reply"),
      ("messageId", .string messageId)]

def MessageAddressingAuthorClass.toValue (authorClass : MessageAddressingAuthorClass) : JsValue :=
  .object [("sourceClass", .string authorClass.sourceClass.text),
    ("roomRole", .string authorClass.roomRole.text),
    ("roomSize", .string authorClass.roomSize.text)]

def MessageAddressingMetadata.toValue (metadata : MessageAddressingMetadata) : JsValue :=
  .object <|
    [("schemaVersion", .number (.finite 2)), ("source", .string metadata.source.text),
      ("author", metadata.author.toValue), ("observer", metadata.observer.toValue),
      ("mentionedTargets",
        .array (metadata.mentionedTargets.map MessageAddressingParticipant.toValue))] ++
    optionalProperty "replyTarget" MessageAddressingReplyTarget.toValue metadata.replyTarget ++
    [("channel", metadata.channel.toValue),
      ("resolvedAddressee", metadata.resolvedAddressee.toValue)] ++
    optionalProperty "authorClass" MessageAddressingAuthorClass.toValue metadata.authorClass

/-! ## `parseMessageAddressingMetadata` -/

/-- `value.trim()` of a string that is not blank. -/
def nonBlank : JsValue → Option String
  | .string s => if JsString.trim s = "" then none else some (JsString.trim s)
  | _ => none

def parseRequiredText (value : JsValue) (fieldName : String) : Except String String :=
  orThrow (nonBlank value) s!"Message addressing field \"{fieldName}\" must be a non-empty string"

def parseParticipant (value : JsValue) (fieldName : String) :
    Except String MessageAddressingParticipant := do
  throwIf (!value.isRecord) s!"Message addressing field \"{fieldName}\" must be an object"
  let authorId ← parseRequiredText (value.property "authorId") (fieldName ++ ".authorId")
  let authorName ← parseRequiredText (value.property "authorName") (fieldName ++ ".authorName")
  return { authorId, authorName }

/-- The callback of `value.map` in `parseParticipants`, from one index on. -/
def parseParticipantsFrom (fieldName : String) : Nat → List String → List JsValue →
    Except String (List MessageAddressingParticipant)
  | _, _, [] => .ok []
  | index, seen, participant :: rest => do
    let parsed ← parseParticipant participant s!"{fieldName}[{index}]"
    throwIf (seen.contains parsed.authorId)
      s!"Message addressing field \"{fieldName}\" duplicates \"{parsed.authorId}\""
    let others ← parseParticipantsFrom fieldName (index + 1) (parsed.authorId :: seen) rest
    return parsed :: others

def parseParticipants (value : JsValue) (fieldName : String) :
    Except String (List MessageAddressingParticipant) :=
  match value with
  | .array items => parseParticipantsFrom fieldName 0 [] items
  | _ => .error s!"Message addressing field \"{fieldName}\" must be an array"

def parseChannel (value : JsValue) : Except String MessageAddressingChannel := do
  throwIf (!value.isRecord) "Message addressing field \"channel\" must be an object"
  let scope ← orThrow (ofText [.direct, .group] ChannelScope.text (value.property "scope"))
    "Message addressing field \"channel.scope\" must be \"direct\" or \"group\""
  let channelId ← parseRequiredText (value.property "channelId") "channel.channelId"
  let threadId ← optionalField (value.property "threadId")
    fun v => parseRequiredText v "channel.threadId"
  throwIf (scope = .direct && threadId.isSome)
    "Message addressing direct channel cannot declare a thread"
  return { scope, channelId, threadId }

def parseReplyTargetObject (value : JsValue) : Except String MessageAddressingReplyTarget := do
  throwIf (!value.isRecord) "Message addressing field \"replyTarget\" must be an object"
  let messageId ← parseRequiredText (value.property "messageId") "replyTarget.messageId"
  let author ← optionalField (value.property "author")
    fun v => parseParticipant v "replyTarget.author"
  return { messageId, author }

def parseReplyTarget (value : JsValue) : Except String (Option MessageAddressingReplyTarget) :=
  optionalField value parseReplyTargetObject

/-- The callback of `value.map` in `parseEvidence`, from one index on. -/
def parseEvidenceFrom (fieldName : String) : Nat → List JsValue →
    Except String (List MessageAddresseeEvidence)
  | _, [] => .ok []
  | index, item :: rest => do
    let evidence ← orThrow
      (ofText [.mention, .reply, .directMessage] MessageAddresseeEvidence.text item)
      s!"Message addressing field \"{fieldName}[{index}]\" is unsupported"
    let others ← parseEvidenceFrom fieldName (index + 1) rest
    return evidence :: others

def parseEvidence (value : JsValue) (fieldName : String) :
    Except String (List MessageAddresseeEvidence) :=
  match value with
  | .array (item :: rest) => do
    let evidence ← parseEvidenceFrom fieldName 0 (item :: rest)
    throwIf (!decide evidence.Nodup)
      s!"Message addressing field \"{fieldName}\" contains duplicate evidence"
    return evidence
  | _ => .error s!"Message addressing field \"{fieldName}\" must be a non-empty array"

/-- What the evidence of a resolved participant is checked against. -/
structure AddresseeContext where
  channel          : MessageAddressingChannel
  observer         : MessageAddressingParticipant
  mentionedTargets : List MessageAddressingParticipant
  replyTarget      : Option MessageAddressingReplyTarget

def parseResolvedParticipant (context : AddresseeContext) (seen : List String) (index : Nat)
    (item : JsValue) : Except String MessageResolvedParticipant := do
  let participant ← parseParticipant item s!"resolvedAddressee.participants[{index}]"
  let evidence ← parseEvidence (item.property "evidence")
    s!"resolvedAddressee.participants[{index}].evidence"
  throwIf (seen.contains participant.authorId)
    s!"Message addressing resolved participant duplicates \"{participant.authorId}\""
  throwIf (evidence.contains .mention && !context.mentionedTargets.contains participant)
    "Message addressing mention evidence must match mentionedTargets"
  throwIf (evidence.contains .reply &&
      (context.replyTarget.bind MessageAddressingReplyTarget.author) ≠ some participant)
    "Message addressing reply evidence must match replyTarget.author"
  throwIf (evidence.contains .directMessage &&
      (context.channel.scope ≠ .direct || participant ≠ context.observer))
    "Message addressing direct-message evidence must match observer"
  return { participant with evidence }

def parseResolvedParticipantsFrom (context : AddresseeContext) : Nat → List String →
    List JsValue → Except String (List MessageResolvedParticipant)
  | _, _, [] => .ok []
  | index, seen, item :: rest => do
    let participant ← parseResolvedParticipant context seen index item
    let others ← parseResolvedParticipantsFrom context (index + 1) (participant.authorId :: seen)
      rest
    return participant :: others

def parseParticipantsAddressee (context : AddresseeContext) (value : JsValue) :
    Except String MessageResolvedAddressee :=
  match value.property "participants" with
  | .array (item :: rest) => do
    let participants ← parseResolvedParticipantsFrom context 0 [] (item :: rest)
    throwIf (context.channel.scope = .direct &&
        !participants.any fun participant => participant.evidence.contains .directMessage)
      "Message addressing direct channel must resolve the authenticated observer"
    return .participants participants
  | _ => .error "Message addressing resolved participant list must be non-empty"

def parseRoomAddressee (context : AddresseeContext) (value : JsValue) :
    Except String MessageResolvedAddressee := do
  throwIf (context.channel.scope ≠ .group)
    "Message addressing direct channel cannot resolve a room addressee"
  let channelId ← parseRequiredText (value.property "channelId") "resolvedAddressee.channelId"
  let threadId ← optionalField (value.property "threadId")
    fun v => parseRequiredText v "resolvedAddressee.threadId"
  throwIf (channelId ≠ context.channel.channelId || threadId ≠ context.channel.threadId)
    "Message addressing room addressee must match channel identity"
  return .room channelId threadId

def parseUnresolvedReplyAddressee (context : AddresseeContext) (value : JsValue) :
    Except String MessageResolvedAddressee := do
  throwIf (context.channel.scope ≠ .group)
    "Message addressing direct channel cannot resolve an unresolved reply"
  let messageId ← parseRequiredText (value.property "messageId") "resolvedAddressee.messageId"
  throwIf (context.replyTarget ≠ some { messageId, author := none })
    "Message addressing unresolved reply must match an authorless replyTarget"
  return .unresolvedReply messageId

def parseResolvedAddressee (value : JsValue) (context : AddresseeContext) :
    Except String MessageResolvedAddressee := do
  throwIf (!value.isRecord) "Message addressing field \"resolvedAddressee\" must be an object"
  match value.property "kind" with
  | .string "participants" => parseParticipantsAddressee context value
  | .string "room" => parseRoomAddressee context value
  | .string "unresolved_reply" => parseUnresolvedReplyAddressee context value
  | _ => .error "Message addressing resolvedAddressee.kind is unsupported"

def parseEnumMember {α : Type} (value : JsValue) (allowed : List α) (text : α → String)
    (fieldName : String) : Except String α :=
  orThrow (ofText allowed text value)
    s!"Message addressing field \"{fieldName}\" must be one of {joinTexts allowed text}"

def parseAuthorClassObject (value : JsValue) : Except String MessageAddressingAuthorClass := do
  throwIf (!value.isRecord) "Message addressing field \"authorClass\" must be an object"
  let sourceClass ← parseEnumMember (value.property "sourceClass") messageAuthorSourceClasses
    MessageAuthorSourceClass.text "authorClass.sourceClass"
  let roomRole ← parseEnumMember (value.property "roomRole") messageAuthorRoomRoles
    MessageAuthorRoomRole.text "authorClass.roomRole"
  let roomSize ← parseEnumMember (value.property "roomSize") messageRoomSizeBands
    MessageRoomSizeBand.text "authorClass.roomSize"
  return { sourceClass, roomRole, roomSize }

def parseAuthorClass (value : JsValue) : Except String (Option MessageAddressingAuthorClass) :=
  optionalField value parseAuthorClassObject

def parseMessageAddressingMetadata (value : JsValue) : Except String MessageAddressingMetadata := do
  throwIf (!(value.isRecord && (value.property "schemaVersion").strictEquals (.number (.finite 2))))
    "Message addressing must be a schemaVersion 2 object"
  let source ← orThrow
    (ofText messageAddressingSources MessageAddressingSource.text (value.property "source"))
    ("Message addressing source must be one of " ++
      joinTexts messageAddressingSources MessageAddressingSource.text)
  let author ← parseParticipant (value.property "author") "author"
  let observer ← parseParticipant (value.property "observer") "observer"
  let mentionedTargets ← parseParticipants (value.property "mentionedTargets") "mentionedTargets"
  let replyTarget ← parseReplyTarget (value.property "replyTarget")
  let channel ← parseChannel (value.property "channel")
  let resolvedAddressee ← parseResolvedAddressee (value.property "resolvedAddressee")
    { channel, observer, mentionedTargets, replyTarget }
  let authorClass ← parseAuthorClass (value.property "authorClass")
  return { source, author, observer, mentionedTargets, replyTarget, channel, resolvedAddressee,
           authorClass }

/-! ## `classifyRow` -/

inductive MessageAddressingQuarantineReason where
  | invalidV2
  | legacyV1AmbiguousChannelScope
  | legacyV1EmptyMentions
  | legacyV1InvalidMentions
  | legacyV1MissingAuthor
  | legacyV1NonUserRow
  | legacyV1UnknownFields
  | unsupportedSchemaVersion
deriving DecidableEq, Repr

def MessageAddressingQuarantineReason.text : MessageAddressingQuarantineReason → String
  | invalidV2 => "invalid_v2"
  | legacyV1AmbiguousChannelScope => "legacy_v1_ambiguous_channel_scope"
  | legacyV1EmptyMentions => "legacy_v1_empty_mentions"
  | legacyV1InvalidMentions => "legacy_v1_invalid_mentions"
  | legacyV1MissingAuthor => "legacy_v1_missing_author"
  | legacyV1NonUserRow => "legacy_v1_non_user_row"
  | legacyV1UnknownFields => "legacy_v1_unknown_fields"
  | unsupportedSchemaVersion => "unsupported_schema_version"

structure PersistedAddressingRow where
  channelId         : JsValue
  role              : JsValue
  authorId          : JsValue
  authorName        : JsValue
  channelVisibility : JsValue
  metadataJson      : JsValue

inductive RowDisposition where
  | current
  | migrate (addressing : MessageAddressingMetadata)
  | quarantine (reason : MessageAddressingQuarantineReason)
  | unchanged
deriving DecidableEq

def normalizedParticipant (value : JsValue) : Option MessageAddressingParticipant := do
  if !value.isRecord then failure
  let authorId ← nonBlank (value.property "authorId")
  let authorName ← nonBlank (value.property "authorName")
  if value.ownKeys.any fun key => key ≠ "authorId" && key ≠ "authorName" then failure
  return { authorId, authorName }

def legacyMentionTargetsFrom : List String → List JsValue →
    Option (List MessageAddressingParticipant)
  | _, [] => some []
  | seen, candidate :: rest => do
    let participant ← normalizedParticipant candidate
    if seen.contains participant.authorId then failure
    let others ← legacyMentionTargetsFrom (participant.authorId :: seen) rest
    return participant :: others

def legacyMentionTargets : JsValue → Option (List MessageAddressingParticipant)
  | .array items => legacyMentionTargetsFrom [] items
  | _ => none

/-- The `replyTarget` part of the migrated envelope. -/
def parseLegacyReplyTarget (metadata : JsValue) : Option MessageAddressingReplyTarget :=
  let turn := metadata.property "turn"
  if turn.isRecord then
    (nonBlank (turn.property "replyToMessageId")).map fun messageId => { messageId, author := none }
  else none

/-- `value?.trim()` of a value that is null or has a `trim` of its own. -/
def optionalTrim (name : String) : JsValue → Except String String
  | .undefined | .null => .ok ""
  | .string s => .ok (JsString.trim s)
  | _ => .error s!"{name}?.trim is not a function"

def migratedEnvelope (row : PersistedAddressingRow) (author : MessageAddressingParticipant)
    (observer : JsValue) (mentionedTargets : List MessageAddressingParticipant) : JsValue :=
  .object <|
    [("schemaVersion", .number (.finite 2)), ("source", .string "discord"),
      ("author", author.toValue), ("observer", observer),
      ("mentionedTargets", .array (mentionedTargets.map MessageAddressingParticipant.toValue))] ++
    optionalProperty "replyTarget" MessageAddressingReplyTarget.toValue
      (parseLegacyReplyTarget row.metadataJson) ++
    [("channel", .object [("scope", .string "group"), ("channelId", row.channelId)]),
      ("resolvedAddressee", .object [("kind", .string "participants"),
        ("participants", .array (mentionedTargets.map fun target =>
          target.toValue.withProperty "evidence" (stringsValue ["mention"])))])]

/-- What `classifyRow` does with an addressing object of schema version 1. -/
def classifyLegacyRow (row : PersistedAddressingRow) (addressing observer : JsValue) :
    Except String RowDisposition := do
  if addressing.ownKeys.any fun key => key ≠ "schemaVersion" && key ≠ "mentionedTargets" then
    return .quarantine .legacyV1UnknownFields
  if !row.role.strictEquals (.string "user") then
    return .quarantine .legacyV1NonUserRow
  let authorId ← optionalTrim "row.author_id" row.authorId
  if authorId = "" then
    return .quarantine .legacyV1MissingAuthor
  let authorName ← optionalTrim "row.author_name" row.authorName
  if authorName = "" then
    return .quarantine .legacyV1MissingAuthor
  if !row.channelVisibility.strictEquals (.string "invite_only") &&
      !row.channelVisibility.strictEquals (.string "public") then
    return .quarantine .legacyV1AmbiguousChannelScope
  match legacyMentionTargets (addressing.property "mentionedTargets") with
  | none => return .quarantine .legacyV1InvalidMentions
  | some [] => return .quarantine .legacyV1EmptyMentions
  | some mentionedTargets =>
    let migrated ← parseMessageAddressingMetadata
      (migratedEnvelope row { authorId, authorName } observer mentionedTargets)
    return .migrate migrated

def classifyRow (row : PersistedAddressingRow) (observer : JsValue) :
    Except String RowDisposition :=
  let metadata := row.metadataJson
  let addressing := metadata.property "messageAddressing"
  let schemaVersion := addressing.property "schemaVersion"
  if !metadata.isRecord then .ok .unchanged
  else if metadata.ownKeys.contains "messageAddressingQuarantine" then .ok .unchanged
  else if !metadata.ownKeys.contains "messageAddressing" then .ok .unchanged
  else if addressing.isRecord && schemaVersion.strictEquals (.number (.finite 2)) then
    match parseMessageAddressingMetadata addressing with
    | .ok _ => .ok .current
    | .error _ => .ok (.quarantine .invalidV2)
  else if !addressing.isRecord || !schemaVersion.strictEquals (.number (.finite 1)) then
    .ok (.quarantine .unsupportedSchemaVersion)
  else classifyLegacyRow row addressing observer

/-! ## The canonical migration -/

/-- `JSON` and template literals: what the code takes from the language and no proof looks
into. -/
structure JsonRuntime where
  /-- `JSON.parse`; the text of its `SyntaxError`. -/
  parseJson     : JsValue → Except String JsValue
  stringifyJson : JsValue → String
  /-- `String(value)`. -/
  toText        : JsValue → String

/-- `value ?? fallback`. -/
def orElse (value fallback : JsValue) : JsValue :=
  match value with
  | .undefined | .null => fallback
  | v => v

/-- The first check of `migrateJournalAddressingEntry`. -/
def validMigration (migration : JsValue) : Bool :=
  let observer := migration.property "observer"
  (migration.property "kind").strictEquals (.string "message-addressing-v1-to-v2") &&
    !(migration.ownKeys.any fun key => key ≠ "kind" && key ≠ "observer") &&
    (((normalizedParticipant observer).map MessageAddressingParticipant.toValue).getD
      .null).deepStrictEqual observer

def addressingRow (entry metadata : JsValue) : PersistedAddressingRow where
  channelId := entry.property "channelId"
  role := orElse (entry.property "role") (.string "")
  authorId := orElse (entry.property "authorId") .null
  authorName := orElse (entry.property "authorName") .null
  channelVisibility := orElse (entry.property "channelVisibility") (.string "")
  metadataJson := metadata

/-- `current.observer.authorId !== migration.observer.authorId`. -/
def checkObserver (current : MessageAddressingMetadata) (observer : JsValue) : Except String Unit :=
  match observer with
  | .undefined => .error "Cannot read properties of undefined (reading 'authorId')"
  | .null => .error "Cannot read properties of null (reading 'authorId')"
  | _ => throwIf (!(JsValue.string current.observer.authorId).strictEquals
        (observer.property "authorId"))
      "Canonical addressing observer conflicts with supplied observer"

/-- The entry a disposition leads to. -/
def migratedEntry (rt : JsonRuntime) (entry metadata observer : JsValue) :
    RowDisposition → Except String JsValue
  | .quarantine reason => .error reason.text
  | .unchanged => .ok entry
  | .current => do
    let current ← parseMessageAddressingMetadata (metadata.property "messageAddressing")
    checkObserver current observer
    return entry
  | .migrate addressing => do
    throwIf (!(entry.property "type").strictEquals (.string "message"))
      "Canonical addressing migration requires a message"
    return entry.withProperty "metadata"
      (.string (rt.stringifyJson (metadata.withProperty "messageAddressing" addressing.toValue)))

def migrateJournalAddressingEntry (rt : JsonRuntime) (entry migration : JsValue) :
    Except String JsValue :=
  if !validMigration migration then
    .error "Invalid canonical addressing migration observer or contract"
  else if (entry.property "metadata").isUndefined then .ok entry
  else do
    let metadata ← rt.parseJson (entry.property "metadata")
    throwIf (!metadata.isRecord) "Canonical journal metadata must be an object"
    throwIf (metadata.ownKeys.contains "messageAddressingQuarantine")
      "Canonical addressing quarantine requires separate evidence review"
    let observer := migration.property "observer"
    let disposition ← classifyRow (addressingRow entry metadata) observer
    migratedEntry rt entry metadata observer disposition

def hmacKeys : List String := ["_hmac", "_hmacKeyVersion"]

def assertJournalAddressingMigration (rt : JsonRuntime) (original replacement migration : JsValue) :
    Except String Unit := do
  let expected ← migrateJournalAddressingEntry rt original migration
  throwIf (!(expected.without hmacKeys).deepStrictEqual (replacement.without hmacKeys))
    "Canonical addressing migration may only replace the proven v1 addressing field"

/-! ## What it changes -/

/-- Only an addressing object of schema version 1 is migrated. -/
theorem schemaVersion_of_migrate {row : PersistedAddressingRow} {observer : JsValue}
    {addressing : MessageAddressingMetadata}
    (h : classifyRow row observer = .ok (.migrate addressing)) :
    (row.metadataJson.property "messageAddressing").property "schemaVersion" =
      .number (.finite 1) := by
  unfold classifyRow at h
  dsimp only at h
  split_ifs at h with hrecord hquarantined habsent hv2 hv1
  · cases h
  · cases h
  · cases h
  · split at h <;> cases h
  · cases h
  · rw [Bool.or_eq_true, not_or, Bool.not_eq_true, Bool.not_eq_false', Bool.not_eq_true',
      Bool.not_eq_false] at hv1
    exact JsValue.eq_of_strictEquals hv1.2

theorem migrateJournalAddressingEntry_cases {rt : JsonRuntime} {entry migration expected : JsValue}
    (h : migrateJournalAddressingEntry rt entry migration = .ok expected) :
    entry = expected ∨
      ∃ metadata addressing, rt.parseJson (entry.property "metadata") = .ok metadata ∧
        (metadata.property "messageAddressing").property "schemaVersion" = .number (.finite 1) ∧
        entry.withProperty "metadata"
          (.string (rt.stringifyJson (metadata.withProperty "messageAddressing" addressing))) =
          expected := by
  unfold migrateJournalAddressingEntry at h
  split_ifs at h
  · exact .inl (Except.ok.inj h)
  · obtain ⟨metadata, hparse, h⟩ := bind_eq_ok.1 h
    obtain ⟨_, -, h⟩ := bind_eq_ok.1 h
    obtain ⟨_, -, h⟩ := bind_eq_ok.1 h
    obtain ⟨disposition, hclass, h⟩ := bind_eq_ok.1 h
    cases disposition with
    | quarantine reason => cases h
    | unchanged => exact .inl (Except.ok.inj h)
    | current =>
      obtain ⟨_, -, h⟩ := bind_eq_ok.1 h
      obtain ⟨_, -, h⟩ := bind_eq_ok.1 h
      exact .inl (Except.ok.inj h)
    | migrate addressing =>
      obtain ⟨_, -, h⟩ := bind_eq_ok.1 h
      exact .inr ⟨metadata, addressing.toValue, hparse, schemaVersion_of_migrate hclass,
        Except.ok.inj h⟩

end Psfn.Journal.Addressing
