import Psfn.Journal.Definitions
import Psfn.Journal.Addressing

/-!
# Session journal — what a chain rewrite may change

`assertRedactionOnlyChainRewrite` of `persistence/journals/journal/chain-transaction.ts`, over
`parseJournalText` of `file-io.ts`, and the checks its caller `rewriteJournalChainTransaction`
makes before it. A row is the object it holds, with every property.

* `redaction_only_chain_rewrite` — what acceptance says about the two chains: without a
  migration, only the payload of an entry may differ, and its metadata only where the content
  or the summary does; under the addressing migration, nothing but the addressing field of the
  metadata.
-/

namespace Psfn.Journal.Redaction

open Psfn.Lib
open Psfn.Journal.Addressing (JsonRuntime migrateJournalAddressingEntry
  assertJournalAddressingMigration hmacKeys)

/-! ## Rows -/

/-- `keyof JournalEntry`. -/
inductive JournalField where
  | type | id | channelId | role | content | authorId | authorName | timestamp
  | discordMessageId | metadata | originChannelId | channelVisibility | summary | coveredUpTo
  | marker | tombstoneTargetType | tombstoneTargetId | tombstoneAction | tombstoneActor
  | tombstoneReason | hmac | hmacKeyVersion
deriving DecidableEq, Repr

def JournalField.key : JournalField → String
  | type => "type"
  | id => "id"
  | channelId => "channelId"
  | role => "role"
  | content => "content"
  | authorId => "authorId"
  | authorName => "authorName"
  | timestamp => "timestamp"
  | discordMessageId => "discordMessageId"
  | metadata => "metadata"
  | originChannelId => "originChannelId"
  | channelVisibility => "channelVisibility"
  | summary => "summary"
  | coveredUpTo => "coveredUpTo"
  | marker => "marker"
  | tombstoneTargetType => "tombstoneTargetType"
  | tombstoneTargetId => "tombstoneTargetId"
  | tombstoneAction => "tombstoneAction"
  | tombstoneActor => "tombstoneActor"
  | tombstoneReason => "tombstoneReason"
  | hmac => "_hmac"
  | hmacKeyVersion => "_hmacKeyVersion"

/-- `entry[field]`. -/
def read (entry : JsValue) (field : JournalField) : JsValue := entry.property field.key

structure QuarantinedJournalEntry where
  lineNumber : Nat
  error      : String
  raw        : String

structure ReadJournalResult where
  entries     : List JsValue := []
  maxId       : JsNumber := .finite 0
  quarantined : List QuarantinedJournalEntry := []

def isFiniteNumber : JsValue → Bool
  | .number n => n.isFinite
  | _ => false

def isString : JsValue → Bool
  | .string _ => true
  | _ => false

def isNonEmptyString : JsValue → Bool
  | .string s => s ≠ ""
  | _ => false

def isOneOf (texts : List String) : JsValue → Bool
  | .string s => texts.contains s
  | _ => false

def checkMarker (entry : JsValue) : Except String Unit := do
  throwIf (!isOneOf ["extraction", "graceful_shutdown"] (entry.property "marker"))
    "marker entry marker must be \"extraction\" or \"graceful_shutdown\""
  throwIf (isOneOf ["extraction"] (entry.property "marker") &&
      !isFiniteNumber (entry.property "coveredUpTo"))
    "extraction marker entry coveredUpTo must be a finite number"

def checkMessage (entry : JsValue) : Except String Unit := do
  throwIf (!isOneOf ["user", "assistant", "system", "tool"] (entry.property "role"))
    "message entry role must be \"user\", \"assistant\", \"system\", or \"tool\""
  throwIf (!isString (entry.property "content")) "message entry content must be a string"

/-- `parseTurnId(entry.tombstoneTargetId, 'tombstoneTargetId')` and the test of its result. -/
def checkTombstoneTarget : JsValue → Except String Unit
  | .string value =>
    let normalized := (JsString.trim value).toLower
    if normalized = "" then .error "tombstone entry target id must be a valid TurnID"
    else throwIf (!isTurnId normalized)
      s!"Invalid tombstoneTargetId: expected UUIDv7, received \"{value}\""
  | _ => .error "tombstone entry target id must be a valid TurnID"

def checkTombstone (entry : JsValue) : Except String Unit := do
  throwIf (!isOneOf ["turn"] (entry.property "tombstoneTargetType"))
    "tombstone entry target type must be \"turn\""
  checkTombstoneTarget (entry.property "tombstoneTargetId")
  throwIf (!isOneOf ["redact", "restore"] (entry.property "tombstoneAction"))
    "tombstone entry action must be \"redact\" or \"restore\""
  throwIf (!isOptionalString (entry.property "tombstoneActor"))
    "tombstone entry actor must be a string when present"
  throwIf (!isOptionalString (entry.property "tombstoneReason"))
    "tombstone entry reason must be a string when present"

def isObject : JsValue → Bool
  | .object _ | .array _ => true
  | _ => false

/-- The checks `parseJournalLine` makes for the type of the entry. -/
def checkBody (entry : JsValue) : Except String Unit :=
  match entry.property "type" with
  | .string "marker" => checkMarker entry
  | .string "message" => checkMessage entry
  | .string "tombstone" => checkTombstone entry
  | _ => .ok ()

def parseJournalLine (rt : JsonRuntime) (line : String) : Except String JsValue := do
  let entry ← rt.parseJson (.string line)
  throwIf (!isObject entry) "entry is not an object"
  throwIf (!isOneOf ["message", "compaction", "marker", "tombstone"] (entry.property "type"))
    "entry type must be \"message\", \"compaction\", \"marker\", or \"tombstone\""
  throwIf (!isFiniteNumber (entry.property "id")) "entry id must be a finite number"
  throwIf (!isNonEmptyString (entry.property "channelId"))
    "entry channelId must be a non-empty string"
  throwIf (!isFiniteNumber (entry.property "timestamp")) "entry timestamp must be a finite number"
  checkBody entry
  return entry

/-- `Math.max` as the loop of `parseJournalText` takes it. -/
def raiseMaxId (maxId : JsNumber) (entry : JsValue) : JsNumber :=
  match entry.property "id" with
  | .number n => if maxId.lt n then n else maxId
  | _ => maxId

/-- One round of the loop of `parseJournalText`. -/
def parseJournalRow (rt : JsonRuntime) (result : ReadJournalResult) (row : List Char × Nat) :
    ReadJournalResult :=
  let line := String.ofList row.1
  if JsString.trim line = "" then result
  else match parseJournalLine rt line with
    | .ok entry => { result with entries := result.entries ++ [entry],
                                 maxId := raiseMaxId result.maxId entry }
    | .error error => { result with
        quarantined := result.quarantined ++ [{ lineNumber := row.2 + 1, error, raw := line }] }

def parseJournalText (rt : JsonRuntime) (raw : String) : ReadJournalResult :=
  (JsString.splitChars '\n' raw.toList).zipIdx.foldl (parseJournalRow rt) {}

/-- A file of one line holds the entry of that line. -/
theorem parseJournalText_single {rt : JsonRuntime} {raw : String} {entry : JsValue}
    (hline : '\n' ∉ raw.toList) (hblank : JsString.trim raw ≠ "")
    (h : parseJournalLine rt raw = .ok entry) :
    (parseJournalText rt raw).entries = [entry] ∧ (parseJournalText rt raw).quarantined = [] := by
  have hraw : String.ofList raw.toList = raw := String.ofList_toList
  rw [parseJournalText, JsString.splitChars_of_notMem hline]
  simp only [List.zipIdx_singleton, List.foldl_cons, List.foldl_nil, parseJournalRow, hraw, hblank,
    if_false, h, List.nil_append, and_self]

/-! ## `assertRedactionOnlyChainRewrite` -/

/-- The segments of an absolute path, as characters. -/
def pathSegments (path : String) : List (List Char) :=
  (JsString.splitChars '/' path.toList).filter (· ≠ [])

/-- `path.basename`. -/
def basename (path : String) : String := String.ofList ((pathSegments path).getLastD [])

/-- `path.dirname` of a resolved path. -/
def dirname (path : String) : String :=
  String.ofList ('/' :: ['/'].intercalate (pathSegments path).dropLast)

/-- `REDACTION_IMMUTABLE_FIELDS`. -/
def redactionImmutableFields : List JournalField :=
  [.type, .id, .channelId, .timestamp, .role, .authorId, .authorName, .discordMessageId,
    .originChannelId, .channelVisibility, .coveredUpTo, .marker, .tombstoneTargetType,
    .tombstoneTargetId, .tombstoneAction, .tombstoneActor, .tombstoneReason]

/-- `original[field] !== replacement[field]`. -/
def changed (original replacement : JsValue) (field : JournalField) : Bool :=
  !(read original field).strictEquals (read replacement field)

section Checks

variable (rt : JsonRuntime)

def checkImmutableField (targetPath : String) (original replacement : JsValue)
    (field : JournalField) : Except String Unit :=
  let id := rt.toText (read original .id)
  throwIf (changed original replacement field)
    (s!"L0 chain rewrite may not alter '{field.key}' on entry id={id}; " ++
      s!"only redaction of an entry's content/summary is permitted: {basename targetPath}")

/-- The body of the loop, without a migration. -/
def checkRedaction (targetPath : String) (original replacement : JsValue) : Except String Unit := do
  redactionImmutableFields.forM (checkImmutableField rt targetPath original replacement)
  let id := rt.toText (read original .id)
  throwIf (changed original replacement .metadata && !changed original replacement .content &&
      !changed original replacement .summary)
    (s!"L0 chain rewrite may not alter metadata without redacting content on entry id={id}: " ++
      basename targetPath)

/-- The body of the loop of `assertRedactionOnlyRewrite`. -/
def checkEntry (targetPath : String) (addressingMigration : Option JsValue)
    (original replacement : JsValue) : Except String Unit :=
  match addressingMigration with
  | some migration => assertJournalAddressingMigration rt original replacement migration
  | none => checkRedaction rt targetPath original replacement

def assertRedactionOnlyRewrite (original replacement : List JsValue) (targetPath : String)
    (addressingMigration : Option JsValue) : Except String Unit := do
  throwIf (original.length ≠ replacement.length)
    ("L0 chain rewrite must preserve entry count " ++
      s!"(redaction supersedes entries in place; growth is append-only): {basename targetPath}")
  (original.zip replacement).forM fun pair =>
    checkEntry rt targetPath addressingMigration pair.1 pair.2

/-- What the checks read and call: the file system, and the callbacks of the caller. -/
structure Environment where
  cwd                      : String
  readFile                 : String → Except String String
  readDirectory            : String → Except String (List String)
  fileExists               : String → Bool
  /-- The call after each target. -/
  renewLease               : Option (Nat → Except String Unit)
  onMalformedRowQuarantine : Option (String → List QuarantinedJournalEntry → Except String Unit)

variable (env : Environment)

/-- What happens to malformed rows before the entries are compared. -/
def disposeMalformedRows (addressingMigration : Option JsValue) (targetPath : String)
    (quarantined : List QuarantinedJournalEntry) : Except String Unit :=
  if quarantined.isEmpty then .ok ()
  else match env.onMalformedRowQuarantine, addressingMigration with
    | some hook, none => hook targetPath quarantined
    | _, _ => .error
        s!"Refusing L0 chain rewrite over a malformed journal file: {basename targetPath}"

/-- `renewLease?.()`. -/
def renew (index : Nat) : Except String Unit :=
  match env.renewLease with
  | some renewLease => renewLease index
  | none => .ok ()

/-- The callback of `targetPaths.forEach`. -/
def checkTarget (replacementByTarget : List (List JsValue)) (addressingMigration : Option JsValue)
    (targetPath : String) (index : Nat) : Except String Unit := do
  let raw ← env.readFile targetPath
  let parsed := parseJournalText rt raw
  disposeMalformedRows env addressingMigration targetPath parsed.quarantined
  let replacement ← orThrow replacementByTarget[index]?
    "Cannot read properties of undefined (reading 'length')"
  assertRedactionOnlyRewrite rt parsed.entries replacement targetPath addressingMigration
  renew env index

def assertRedactionOnlyChainRewrite (targetPaths : List String)
    (replacementByTarget : List (List JsValue)) (addressingMigration : Option JsValue) :
    Except String Unit :=
  targetPaths.zipIdx.forM fun target =>
    checkTarget rt env replacementByTarget addressingMigration target.1 target.2

/-! ## The checks before it -/

def stripSuffix (suffix path : String) : String :=
  String.ofList (path.toList.take (path.toList.length - suffix.toList.length))

/-- `(index + 1).toString().padStart(4, '0')`. -/
def segmentNumber (index : Nat) : String :=
  String.ofList ((index + 1).toDigits 10 |> fun digits =>
    List.replicate (4 - digits.length) '0' ++ digits)

def expectedChainTargetPath (rootPath : String) (index : Nat) : String :=
  if index = 0 then rootPath
  else stripSuffix ".jsonl" rootPath ++ ".segment-" ++ segmentNumber index ++ ".jsonl"

def targetsFormJournalChain (rootPath : String) (targetPaths : List String) : Bool :=
  rootPath.endsWith ".jsonl" &&
    targetPaths.zipIdx.all fun target => target.1 = expectedChainTargetPath rootPath target.2

/-- The filenames of `journalChainTargetsOnDisk`: the root file and its numbered segments. -/
def isChainFilename (rootFilename filename : String) : Bool :=
  let start := stripSuffix ".jsonl" rootFilename ++ ".segment-"
  let number := (stripSuffix ".jsonl" filename).toList.drop start.toList.length
  filename = rootFilename ||
    (filename.startsWith start && filename.endsWith ".jsonl" &&
      number.length = 4 && number.all Char.isDigit)

def journalChainTargetsOnDisk (rootPath : String) : Except String (List String) := do
  let filenames ← env.readDirectory (dirname rootPath)
  let sorted := (filenames.filter (isChainFilename (basename rootPath))).mergeSort
    fun a b => JsString.unitsLe (JsString.utf16Units a) (JsString.utf16Units b)
  return sorted.map fun filename => JsString.resolvePath (dirname rootPath) filename

structure ChainRewrite where
  targetPaths         : List String
  entriesByTarget     : List (List JsValue)
  addressingMigration : Option JsValue

def isAbsolute (path : String) : Bool := path.toList.head? = some '/'

def orderedTargets (rootPath : String) (targetPaths : List String) : Bool :=
  isAbsolute rootPath &&
    (targetPaths.all fun targetPath => isAbsolute targetPath &&
      JsString.resolvePath env.cwd targetPath = targetPath &&
      dirname targetPath = dirname rootPath) &&
    decide targetPaths.Nodup && targetsFormJournalChain rootPath targetPaths

/-- The checks `rewriteJournalChainTransaction` makes before it creates an artifact. -/
def checkChainRewrite (params : ChainRewrite) : Except String Unit := do
  let rootPath ← orThrow
    (if params.targetPaths.length = params.entriesByTarget.length
      then params.targetPaths.head? else none)
    "L0 chain rewrite requires one non-empty entry set list aligned to target files"
  throwIf (!orderedTargets env rootPath params.targetPaths)
    "L0 chain rewrite targets must be one ordered journal chain of unique absolute paths"
  let diskTargets ← journalChainTargetsOnDisk env rootPath
  throwIf (diskTargets ≠ params.targetPaths)
    s!"L0 chain changed before rewrite; refusing a partial transaction for {basename rootPath}"
  throwIf (env.fileExists (rootPath ++ ".chain-rewrite-manifest.json"))
    (s!"L0 session {rootPath} has a pending chain rewrite; " ++
      "refusing to read or append until recovery")
  assertRedactionOnlyChainRewrite rt env params.targetPaths params.entriesByTarget
    params.addressingMigration

/-! ## What acceptance says -/

/-- The fields a redaction may replace: the payload of an entry and its signature. -/
def payloadFields : List JournalField := [.content, .summary, .metadata, .hmac, .hmacKeyVersion]

/-- An entry and its redaction: identity and authorship are the same, and the metadata differs
only where the content or the summary does. -/
structure RedactionOnly (original replacement : JsValue) : Prop where
  fields   : ∀ field, field ∉ payloadFields → read original field = read replacement field
  metadata : read original .metadata ≠ read replacement .metadata →
    changed original replacement .content = true ∨ changed original replacement .summary = true

/-- An entry and its migration: every property but the metadata and the signature is the same,
and the metadata is the same or has had its version 1 addressing replaced. -/
structure AddressingMigrated (original replacement : JsValue) : Prop where
  properties : ∀ key, key ∉ "metadata" :: hmacKeys →
    (original.property key).deepStrictEqual (replacement.property key) = true
  metadata   : (read original .metadata).deepStrictEqual (read replacement .metadata) = true ∨
    ∃ metadata addressing, rt.parseJson (read original .metadata) = .ok metadata ∧
      ((metadata.property "messageAddressing").property "schemaVersion") = .number (.finite 1) ∧
      read replacement .metadata =
        .string (rt.stringifyJson (metadata.withProperty "messageAddressing" addressing))

def Accepted : Option JsValue → JsValue → JsValue → Prop
  | none => RedactionOnly
  | some _ => AddressingMigrated rt

/-- Every field is immutable or payload: the list in the source forgets none. -/
theorem mem_immutable_or_payload (field : JournalField) :
    field ∈ redactionImmutableFields ∨ field ∈ payloadFields := by
  cases field <;> decide

theorem read_eq_of_not_changed {original replacement : JsValue} {field : JournalField}
    (h : changed original replacement field = false) :
    read original field = read replacement field :=
  JsValue.eq_of_strictEquals (by simpa [changed] using h)

theorem checkRedaction_sound {targetPath : String} {original replacement : JsValue}
    (h : checkRedaction rt targetPath original replacement = .ok ()) :
    RedactionOnly original replacement := by
  obtain ⟨_, hfields, hmetadata⟩ := bind_eq_ok.1 h
  rw [throwIf_eq_ok] at hmetadata
  rw [forM_eq_ok] at hfields
  refine ⟨fun field hfield => ?_, fun hne => ?_⟩
  · have himmutable := (mem_immutable_or_payload field).resolve_right hfield
    exact read_eq_of_not_changed (throwIf_eq_ok.1 (hfields field himmutable))
  · have hchanged : changed original replacement .metadata = true := by
      rw [← Bool.not_eq_false]
      exact fun hsame => hne (read_eq_of_not_changed hsame)
    -- the last check lets changed metadata through only with a changed payload
    by_contra hpayload
    rw [not_or, Bool.not_eq_true, Bool.not_eq_true] at hpayload
    rw [hchanged, hpayload.1, hpayload.2] at hmetadata
    cases hmetadata

theorem assertJournalAddressingMigration_sound {original replacement migration : JsValue}
    (h : assertJournalAddressingMigration rt original replacement migration = .ok ()) :
    AddressingMigrated rt original replacement := by
  obtain ⟨expected, hexpected, hequal⟩ := bind_eq_ok.1 h
  rw [throwIf_eq_ok, Bool.not_eq_false'] at hequal
  have hread : ∀ key, key ∉ hmacKeys →
      (expected.property key).deepStrictEqual (replacement.property key) = true :=
    fun key hkey => JsValue.deepStrictEqual_property_of_without hequal hkey
  obtain rfl | ⟨metadata, addressing, hparse, hversion, rfl⟩ :=
    Addressing.migrateJournalAddressingEntry_cases hexpected
  · exact ⟨fun key hkey => hread key (fun h => hkey (List.mem_cons_of_mem _ h)),
      .inl (hread "metadata" (by decide))⟩
  · refine ⟨fun key hkey => ?_, .inr ⟨metadata, addressing, hparse, hversion, ?_⟩⟩
    · rw [List.mem_cons, not_or] at hkey
      have hsame := hread key hkey.2
      rwa [JsValue.property_withProperty, if_neg hkey.1] at hsame
    · have hsame := hread "metadata" (by decide)
      rw [JsValue.property_withProperty, if_pos rfl] at hsame
      exact JsValue.deepStrictEqual_string hsame

theorem checkEntry_sound {targetPath : String} {addressingMigration : Option JsValue}
    {original replacement : JsValue}
    (h : checkEntry rt targetPath addressingMigration original replacement = .ok ()) :
    Accepted rt addressingMigration original replacement := by
  cases addressingMigration with
  | none => exact checkRedaction_sound rt h
  | some migration => exact assertJournalAddressingMigration_sound rt h

theorem assertRedactionOnlyRewrite_sound {original replacement : List JsValue}
    {targetPath : String} {addressingMigration : Option JsValue}
    (h : assertRedactionOnlyRewrite rt original replacement targetPath addressingMigration =
      .ok ()) :
    List.Forall₂ (Accepted rt addressingMigration) original replacement := by
  obtain ⟨_, hlength, hentries⟩ := bind_eq_ok.1 h
  have hlen : original.length = replacement.length := by simpa [throwIf_eq_ok] using hlength
  rw [forM_eq_ok] at hentries
  exact List.forall₂_iff_zip.2 ⟨hlen, fun hpair => checkEntry_sound rt (hentries _ hpair)⟩

/-- Every target of an accepted rewrite is a file whose entries the replacement redacts, one by
one. -/
theorem assertRedactionOnlyChainRewrite_sound {targetPaths : List String}
    {replacementByTarget : List (List JsValue)} {addressingMigration : Option JsValue}
    (h : assertRedactionOnlyChainRewrite rt env targetPaths replacementByTarget
      addressingMigration = .ok ()) {i : Nat} {targetPath : String}
    (hi : targetPaths[i]? = some targetPath) :
    ∃ raw replacement, env.readFile targetPath = .ok raw ∧
      replacementByTarget[i]? = some replacement ∧
      List.Forall₂ (Accepted rt addressingMigration) (parseJournalText rt raw).entries
        replacement := by
  rw [assertRedactionOnlyChainRewrite, forM_eq_ok] at h
  have htarget := h (targetPath, i) (List.mem_zipIdx_iff_getElem?.2 hi)
  obtain ⟨raw, hraw, hrest⟩ := bind_eq_ok.1 htarget
  obtain ⟨_, -, hrest⟩ := bind_eq_ok.1 hrest
  obtain ⟨replacement, hreplacement, hrest⟩ := bind_eq_ok.1 hrest
  obtain ⟨_, hcheck, -⟩ := bind_eq_ok.1 hrest
  exact ⟨raw, replacement, hraw, orThrow_eq_ok.1 hreplacement,
    assertRedactionOnlyRewrite_sound rt hcheck⟩

theorem checkChainRewrite_cases {params : ChainRewrite}
    (h : checkChainRewrite rt env params = .ok ()) :
    assertRedactionOnlyChainRewrite rt env params.targetPaths params.entriesByTarget
        params.addressingMigration = .ok () ∧
      params.entriesByTarget.length = params.targetPaths.length ∧
      ∃ rootPath, params.targetPaths.head? = some rootPath ∧
        journalChainTargetsOnDisk env rootPath = .ok params.targetPaths := by
  obtain ⟨rootPath, hroot, h⟩ := bind_eq_ok.1 h
  obtain ⟨_, -, h⟩ := bind_eq_ok.1 h
  obtain ⟨diskTargets, hdisk, h⟩ := bind_eq_ok.1 h
  obtain ⟨_, hsame, h⟩ := bind_eq_ok.1 h
  obtain ⟨_, -, hassert⟩ := bind_eq_ok.1 h
  have htargets : diskTargets = params.targetPaths := by simpa [throwIf_eq_ok] using hsame
  rw [orThrow_eq_ok] at hroot
  split_ifs at hroot with haligned
  exact ⟨hassert, haligned.symm, rootPath, hroot, htargets ▸ hdisk⟩

/-- **An accepted chain rewrite is a redaction, or the addressing migration.** Every target file
has a replacement with as many entries, in the same order, each of them its counterpart
redacted or migrated; and the caller has seen to it that the targets are the chain on disk and
that there is no further replacement. -/
theorem redaction_only_chain_rewrite (params : ChainRewrite) :
    (assertRedactionOnlyChainRewrite rt env params.targetPaths params.entriesByTarget
        params.addressingMigration = .ok () →
      ∀ (i : Nat) (targetPath : String), params.targetPaths[i]? = some targetPath →
        ∃ raw replacement, env.readFile targetPath = .ok raw ∧
          params.entriesByTarget[i]? = some replacement ∧
          List.Forall₂ (Accepted rt params.addressingMigration)
            (parseJournalText rt raw).entries replacement) ∧
    (checkChainRewrite rt env params = .ok () →
      assertRedactionOnlyChainRewrite rt env params.targetPaths params.entriesByTarget
          params.addressingMigration = .ok () ∧
        params.entriesByTarget.length = params.targetPaths.length ∧
        ∃ rootPath, params.targetPaths.head? = some rootPath ∧
          journalChainTargetsOnDisk env rootPath = .ok params.targetPaths) := by
  refine ⟨fun h i targetPath hi => ?_, fun h => ?_⟩
  · exact assertRedactionOnlyChainRewrite_sound rt env h hi
  · exact checkChainRewrite_cases rt env h

end Checks

/-! ## A migrated entry -/

/-! A journal of one message with version 1 addressing, and its migration. `JSON` is given on the
three texts it is asked about. -/

def legacyMetadataText : String :=
  "\x7b\"messageAddressing\":\x7b\"schemaVersion\":1,\"mentionedTargets\":[\x7b\"authorId\":\"b\",\"authorName\":\"Bo\"\x7d]\x7d\x7d"

def legacyMetadata : JsValue :=
  .object [("messageAddressing", .object [("schemaVersion", .number (.finite 1)),
    ("mentionedTargets",
      .array [.object [("authorId", .string "b"), ("authorName", .string "Bo")]])])]

def migratedMetadataText : String :=
  "\x7b\"messageAddressing\":\x7b\"schemaVersion\":2,\"source\":\"discord\",\"author\":\x7b\"authorId\":\"u\",\"authorName\":\"Ann\"\x7d,\"observer\":\x7b\"authorId\":\"o\",\"authorName\":\"Otto\"\x7d,\"mentionedTargets\":[\x7b\"authorId\":\"b\",\"authorName\":\"Bo\"\x7d],\"channel\":\x7b\"scope\":\"group\",\"channelId\":\"c\"\x7d,\"resolvedAddressee\":\x7b\"kind\":\"participants\",\"participants\":[\x7b\"authorId\":\"b\",\"authorName\":\"Bo\",\"evidence\":[\"mention\"]\x7d]\x7d\x7d\x7d"

def legacyRowText : String :=
  "\x7b\"type\":\"message\",\"id\":1,\"channelId\":\"c\",\"role\":\"user\",\"content\":\"hi\",\"authorId\":\"u\",\"authorName\":\"Ann\",\"timestamp\":5,\"metadata\":\"\x7b\\\"messageAddressing\\\":\x7b\\\"schemaVersion\\\":1,\\\"mentionedTargets\\\":[\x7b\\\"authorId\\\":\\\"b\\\",\\\"authorName\\\":\\\"Bo\\\"\x7d]\x7d\x7d\",\"channelVisibility\":\"public\"\x7d"

def messageRow (metadata : String) : JsValue :=
  .object [("type", .string "message"), ("id", .number (.finite 1)), ("channelId", .string "c"),
    ("role", .string "user"), ("content", .string "hi"), ("authorId", .string "u"),
    ("authorName", .string "Ann"), ("timestamp", .number (.finite 5)),
    ("metadata", .string metadata), ("channelVisibility", .string "public")]

def migrationRuntime : JsonRuntime where
  parseJson
    | .string text =>
      if text = legacyRowText then .ok (messageRow legacyMetadataText)
      else if text = legacyMetadataText then .ok legacyMetadata
      else .error "Unexpected end of JSON input"
    | _ => .error "Unexpected end of JSON input"
  stringifyJson _ := migratedMetadataText
  toText _ := "1"

def migrationEnvironment : Environment where
  cwd := "/"
  readFile _ := .ok legacyRowText
  readDirectory _ := .ok ["c.jsonl"]
  fileExists _ := false
  renewLease := none
  onMalformedRowQuarantine := none

def addressingMigration : JsValue :=
  .object [("kind", .string "message-addressing-v1-to-v2"),
    ("observer", .object [("authorId", .string "o"), ("authorName", .string "Otto")])]

set_option maxRecDepth 4000 in
/-- What the runs below use of the texts: one line, not blank, and not each other. -/
theorem legacyRowText_line :
    '\n' ∉ legacyRowText.toList ∧ JsString.trim legacyRowText ≠ "" := by
  obtain ⟨chars, htext, hnewline, hletter⟩ :
      ∃ chars, legacyRowText = String.ofList chars ∧ '\n' ∉ chars ∧ 'm' ∈ chars := by
    unfold legacyRowText
    refine ⟨_, rfl, ?_, ?_⟩
    · decide
    · decide
  have hchars : legacyRowText.toList = chars := by rw [htext, String.toList_ofList]
  rw [hchars]
  exact ⟨hnewline, JsString.trim_ne_empty_of_mem (hchars ▸ hletter) rfl⟩

set_option maxRecDepth 4000 in
theorem legacyMetadataText_ne_row : legacyMetadataText ≠ legacyRowText := by
  unfold legacyMetadataText legacyRowText
  intro h
  have hchars : String.ofList _ = String.ofList _ := h
  rw [String.ofList_inj] at hchars
  revert hchars
  decide

set_option maxRecDepth 4000 in
theorem legacyMetadataText_ne_migrated : legacyMetadataText ≠ migratedMetadataText := by
  unfold legacyMetadataText migratedMetadataText
  intro h
  have hchars : String.ofList _ = String.ofList _ := h
  rw [String.ofList_inj] at hchars
  revert hchars
  decide

theorem parseJournalLine_legacyRowText :
    parseJournalLine migrationRuntime legacyRowText = .ok (messageRow legacyMetadataText) := by
  have hparse : migrationRuntime.parseJson (.string legacyRowText) =
      .ok (messageRow legacyMetadataText) := by
    simp only [migrationRuntime, if_true]
  rw [parseJournalLine, hparse]
  rfl

theorem migrateJournalAddressingEntry_messageRow :
    migrateJournalAddressingEntry migrationRuntime (messageRow legacyMetadataText)
      addressingMigration = .ok (messageRow migratedMetadataText) := by
  have hread : (messageRow legacyMetadataText).property "metadata" = .string legacyMetadataText :=
    rfl
  have hparse : migrationRuntime.parseJson (.string legacyMetadataText) = .ok legacyMetadata := by
    simp only [migrationRuntime, legacyMetadataText_ne_row, if_false, if_true]
  have hvalid : Addressing.validMigration addressingMigration = true := by decide +kernel
  rw [migrateJournalAddressingEntry, hvalid, hread, hparse]
  rfl

theorem deepStrictEqual_messageRow (metadata : String) :
    (messageRow metadata).deepStrictEqual (messageRow metadata) = true := by
  refine JsValue.deepStrictEqual_object_self (by simp) fun p hp => ?_
  simp only [List.mem_cons, List.not_mem_nil, or_false] at hp
  rcases hp with rfl | rfl | rfl | rfl | rfl | rfl | rfl | rfl | rfl | rfl <;>
    simp only [JsValue.deepStrictEqual, decide_true]

theorem checkEntry_messageRow (targetPath : String) :
    checkEntry migrationRuntime targetPath (some addressingMigration)
      (messageRow legacyMetadataText) (messageRow migratedMetadataText) = .ok () := by
  rw [checkEntry, assertJournalAddressingMigration, migrateJournalAddressingEntry_messageRow]
  refine bind_eq_ok.2 ⟨_, rfl, throwIf_eq_ok.2 ?_⟩
  have hunsigned : (messageRow migratedMetadataText).without hmacKeys =
      messageRow migratedMetadataText := rfl
  rw [hunsigned, deepStrictEqual_messageRow]
  rfl

theorem checkTarget_messageRow (targetPath : String) :
    checkTarget migrationRuntime migrationEnvironment [[messageRow migratedMetadataText]]
      (some addressingMigration) targetPath 0 = .ok () := by
  have hparsed := parseJournalText_single legacyRowText_line.1 legacyRowText_line.2
    parseJournalLine_legacyRowText
  rw [checkTarget]
  refine bind_eq_ok.2 ⟨legacyRowText, rfl, bind_eq_ok.2 ⟨(), ?_, bind_eq_ok.2
    ⟨[messageRow migratedMetadataText], rfl, bind_eq_ok.2 ⟨(), ?_, rfl⟩⟩⟩⟩
  · rw [hparsed.2]
    rfl
  · rw [hparsed.1]
    refine bind_eq_ok.2 ⟨(), rfl, forM_eq_ok.2 fun pair hpair => ?_⟩
    obtain rfl := List.mem_singleton.1 hpair
    exact checkEntry_messageRow targetPath

/-- The migration changes the metadata of an entry whose content and summary stay. -/
theorem migration_alters_metadata_alone :
    checkChainRewrite migrationRuntime migrationEnvironment
        { targetPaths := ["/s/c.jsonl"], entriesByTarget := [[messageRow migratedMetadataText]],
          addressingMigration := some addressingMigration } = .ok () ∧
      (parseJournalText migrationRuntime legacyRowText).entries =
        [messageRow legacyMetadataText] ∧
      ¬ RedactionOnly (messageRow legacyMetadataText) (messageRow migratedMetadataText) := by
  refine ⟨?_, (parseJournalText_single legacyRowText_line.1 legacyRowText_line.2
    parseJournalLine_legacyRowText).1, fun h => ?_⟩
  · have hordered : orderedTargets migrationEnvironment "/s/c.jsonl" ["/s/c.jsonl"] = true := by
      decide +kernel
    have hdisk : journalChainTargetsOnDisk migrationEnvironment "/s/c.jsonl" =
        .ok ["/s/c.jsonl"] := by
      decide +kernel
    refine bind_eq_ok.2 ⟨"/s/c.jsonl", rfl, bind_eq_ok.2 ⟨(), throwIf_eq_ok.2 ?_, bind_eq_ok.2
      ⟨_, hdisk, bind_eq_ok.2 ⟨(), throwIf_eq_ok.2 ?_, bind_eq_ok.2 ⟨(), rfl, ?_⟩⟩⟩⟩⟩
    · rw [hordered]
      rfl
    · decide
    · refine forM_eq_ok.2 fun target htarget => ?_
      obtain rfl := List.mem_singleton.1 htarget
      exact checkTarget_messageRow _
  · have hne : read (messageRow legacyMetadataText) .metadata ≠
        read (messageRow migratedMetadataText) .metadata :=
      fun heq => legacyMetadataText_ne_migrated (JsValue.string.inj heq)
    have hpayload := h.metadata hne
    revert hpayload
    decide +kernel

end Psfn.Journal.Redaction
