import Mathlib.Data.List.Sort
import Psfn.Lib.JsSet
import Psfn.Lib.Traced
import Psfn.Intake.Envelope

/-!
# Quarantine store — executable definitions

`core/cogsec/intake/quarantine-store.ts`: the one file that keeps held intake items until a
human decides on them, and the operations every process runs against it. An operation
reloads the file under a cross-process lock, expires what is due, changes the entries in
memory and writes them back; the loader re-checks every entry and rejects the whole file
when one is malformed.

The disk holds the map that was last persisted; what the next process reads of it is its
JSON text (`Disk.file`). The clock, the file system an operation sees and the expiry
observer are arguments. Observers of holds and decisions cannot fail an operation and are
left out.
-/

namespace Psfn.Intake

open Psfn.Lib

/-! ## Entries -/

inductive IntakeQuarantineEntryStatus where
  | held | releasedRaw | releasedSanitized | discarded | expired
deriving DecidableEq, Repr

namespace IntakeQuarantineEntryStatus

/-- `INTAKE_QUARANTINE_ENTRY_STATUSES`. -/
def all : List IntakeQuarantineEntryStatus :=
  [held, releasedRaw, releasedSanitized, discarded, expired]

def text : IntakeQuarantineEntryStatus → String
  | held => "held"
  | releasedRaw => "released_raw"
  | releasedSanitized => "released_sanitized"
  | discarded => "discarded"
  | expired => "expired"

end IntakeQuarantineEntryStatus

inductive IntakeQuarantineDecisionAction where
  | releaseRaw | releaseSanitized | discard
deriving DecidableEq, Repr

namespace IntakeQuarantineDecisionAction

/-- `INTAKE_QUARANTINE_DECISION_ACTIONS`. -/
def all : List IntakeQuarantineDecisionAction := [releaseRaw, releaseSanitized, discard]

def text : IntakeQuarantineDecisionAction → String
  | releaseRaw => "release_raw"
  | releaseSanitized => "release_sanitized"
  | discard => "discard"

/-- `DECISION_TO_ENVELOPE_STATE`. -/
def envelopeState : IntakeQuarantineDecisionAction → IntakeEnvelopeState
  | releaseRaw => .humanReleased
  | releaseSanitized => .humanReleasedSanitized
  | discard => .discarded

/-- `DECISION_TO_STATUS`. -/
def status : IntakeQuarantineDecisionAction → IntakeQuarantineEntryStatus
  | releaseRaw => .releasedRaw
  | releaseSanitized => .releasedSanitized
  | discard => .discarded

end IntakeQuarantineDecisionAction

inductive IntakeQuarantineMode where
  | shadow | enforce
deriving DecidableEq, Repr

def IntakeQuarantineMode.text : IntakeQuarantineMode → String
  | shadow => "shadow"
  | enforce => "enforce"

structure IntakeQuarantineDecisionRecord where
  action : IntakeQuarantineDecisionAction
  actor  : String
  reason : String
  atMs   : JsNumber
deriving DecidableEq

/-- An `entryId` may be absent, `null` or a number. -/
structure IntakeQuarantineRedeliveryRecord where
  delivered        : Bool
  attemptedAtMs    : JsNumber
  channelId        : Option String := none
  logicalSessionId : Option String := none
  entryId          : Option (Option JsNumber) := none
  reason           : Option String := none
deriving DecidableEq

structure IntakeQuarantineAccessAttempt where
  path : String
  via  : String
  atMs : JsNumber
deriving DecidableEq

structure IntakeQuarantineEntry where
  id                             : String
  envelope                       : IntakeEnvelope
  /-- Present and `true`, or absent. -/
  ruleMatchProvenanceUnavailable : Bool := false
  mode                           : IntakeQuarantineMode
  rawText                        : String
  rawTextTruncated               : Bool
  safeRepresentationText         : Option String := none
  canonicalContactId             : Option String := none
  sourceChannelId                : Option String := none
  cogSecCaseId                   : Option String := none
  heldAtMs                       : JsNumber
  expiresAtMs                    : JsNumber
  status                         : IntakeQuarantineEntryStatus
  decision                       : Option IntakeQuarantineDecisionRecord := none
  redelivery                     : Option IntakeQuarantineRedeliveryRecord := none
  artifactPaths                  : Option (List String) := none
  artifactIdentities             : Option (List String) := none
  accessAttempts                 : Option (List IntakeQuarantineAccessAttempt) := none
deriving DecidableEq

def IntakeQuarantineDecisionRecord.value (d : IntakeQuarantineDecisionRecord) : JsValue :=
  .object [("action", .string d.action.text), ("actor", .string d.actor),
    ("reason", .string d.reason), ("atMs", .number d.atMs)]

def entryIdValue : Option JsNumber → JsValue
  | none => .null
  | some n => .number n

def IntakeQuarantineRedeliveryRecord.value (r : IntakeQuarantineRedeliveryRecord) : JsValue :=
  .object ([("delivered", .bool r.delivered), ("attemptedAtMs", .number r.attemptedAtMs)]
    ++ (optionalProperty "channelId" .string r.channelId
    ++ (optionalProperty "logicalSessionId" .string r.logicalSessionId
    ++ (optionalProperty "entryId" entryIdValue r.entryId
    ++ optionalProperty "reason" .string r.reason))))

def IntakeQuarantineAccessAttempt.value (a : IntakeQuarantineAccessAttempt) : JsValue :=
  .object [("path", .string a.path), ("via", .string a.via), ("atMs", .number a.atMs)]

def attemptsValue (items : List IntakeQuarantineAccessAttempt) : JsValue :=
  .array (items.map (·.value))

/-- A flag that is left out of the object unless it is set. -/
def flagProperty (key : String) (flag : Bool) : List (String × JsValue) :=
  optionalProperty key .bool (if flag then some true else none)

def IntakeQuarantineEntry.properties (e : IntakeQuarantineEntry) : List (String × JsValue) :=
  [("id", .string e.id), ("envelope", e.envelope.value), ("mode", .string e.mode.text),
      ("rawText", .string e.rawText), ("rawTextTruncated", .bool e.rawTextTruncated),
      ("heldAtMs", .number e.heldAtMs), ("expiresAtMs", .number e.expiresAtMs),
      ("status", .string e.status.text)]
    ++ (flagProperty "ruleMatchProvenanceUnavailable" e.ruleMatchProvenanceUnavailable
    ++ (optionalProperty "safeRepresentationText" .string e.safeRepresentationText
    ++ (optionalProperty "canonicalContactId" .string e.canonicalContactId
    ++ (optionalProperty "sourceChannelId" .string e.sourceChannelId
    ++ (optionalProperty "cogSecCaseId" .string e.cogSecCaseId
    ++ (optionalProperty "artifactPaths" stringsValue e.artifactPaths
    ++ (optionalProperty "artifactIdentities" stringsValue e.artifactIdentities
    ++ (optionalProperty "decision" (·.value) e.decision
    ++ (optionalProperty "redelivery" (·.value) e.redelivery
    ++ optionalProperty "accessAttempts" attemptsValue e.accessAttempts)))))))))

def IntakeQuarantineEntry.value (e : IntakeQuarantineEntry) : JsValue := .object e.properties

/-! ## Bounds -/

/-- `INTAKE_QUARANTINE_MAX_RAW_CHARS`. -/
def maxRawChars : Nat := 400000
/-- `INTAKE_QUARANTINE_MAX_ARTIFACT_PATHS`. -/
def maxArtifactPaths : Nat := 16
/-- `INTAKE_QUARANTINE_MAX_ACCESS_ATTEMPTS`. -/
def maxAccessAttempts : Nat := 50
def maxArtifactPathChars : Nat := 2048
def maxAccessAttemptViaChars : Nat := 256
def maxTerminalEntries : Nat := 200
def ttlActor : String := "system:intake-quarantine"

/-! ## Artifacts on disk -/

/-- What a system call gave: `ENOENT` and `ENOTDIR` are told from other errors. -/
inductive FsResult (α : Type) where
  | ok (a : α)
  | missing
  | failed (message : String)

structure FileStats where
  dev         : Nat
  ino         : Nat
  birthtimeNs : Nat
deriving DecidableEq

/-- An open descriptor: its stats, and the path its `/proc/self/fd` entry resolves to. -/
structure OpenFile where
  stats    : FileStats
  realpath : FsResult { path : String // JsString.IsAbsolute path }

def normalizeQuarantineArtifactPath (cwd path : String) : String :=
  JsString.resolvePath cwd (JsString.trim path)

/-- The path a descriptor is registered under, when there is one: an unlinked file keeps the
spelling it was opened by. -/
def registeredPath (cwd fallbackPath : String) (file : OpenFile) : Except String String :=
  match file.realpath with
  | .ok path => .ok path.1
  | .missing => .ok (normalizeQuarantineArtifactPath cwd fallbackPath)
  | .failed message => .error message

/-- The file system as one operation sees it. A path names one file: descriptors registered
under the same path have the same stats. -/
structure FileSystem where
  cwd      : String
  openRead : String → FsResult OpenFile
  stat     : String → FsResult FileStats
  oneFile  : ∀ p q f g path, openRead p = .ok f → openRead q = .ok g →
    registeredPath cwd p f = .ok path → registeredPath cwd q g = .ok path → f.stats = g.stats

/-- `dev:ino:birthtimeNs`. -/
def FileStats.identity (s : FileStats) : String :=
  String.ofList (s.dev.repr.toList ++ ':' :: (s.ino.repr.toList ++ ':' :: s.birthtimeNs.repr.toList))

/-- `/^\d+:\d+:\d+$/u`. -/
def isArtifactIdentity (s : String) : Bool :=
  match JsString.splitChars ':' s.toList with
  | [dev, ino, birth] =>
    [dev, ino, birth].all fun digits => !digits.isEmpty && digits.all Char.isDigit
  | _ => false

structure ArtifactRegistration where
  path     : String
  identity : Option String

def captureOpenArtifactRegistration (fs : FileSystem) (file : OpenFile) (fallbackPath : String) :
    Except String ArtifactRegistration := do
  let path ← registeredPath fs.cwd fallbackPath file
  return { path, identity := some file.stats.identity }

def canonicalizeArtifactForRegistration (fs : FileSystem) (path : String) :
    Except String ArtifactRegistration :=
  let resolved := normalizeQuarantineArtifactPath fs.cwd path
  match fs.openRead resolved with
  | .ok file => captureOpenArtifactRegistration fs file resolved
  | .missing => .ok { path := resolved, identity := none }
  | .failed message => .error message

def artifactIdentity (fs : FileSystem) (path : String) : Except String (Option String) :=
  match fs.stat path with
  | .ok stats => .ok (some stats.identity)
  | .missing => .ok none
  | .failed message => .error message

/-- The `Set` of paths and the `Set` of identities a hold collects. -/
structure ArtifactSets where
  paths      : List String
  identities : List String

def registerArtifactPath (fs : FileSystem) (sets : ArtifactSets) (path : String) :
    Except String ArtifactSets := do
  throwIf (JsString.trim path = "") "Intake quarantine artifact paths must be non-empty strings"
  let artifact ← canonicalizeArtifactForRegistration fs path
  throwIf (JsString.utf16Length artifact.path > maxArtifactPathChars)
    s!"Intake quarantine artifact path exceeds {maxArtifactPathChars} chars"
  return {
    paths := JsSet.add sets.paths artifact.path
    identities := match artifact.identity with
      | some identity => JsSet.add sets.identities identity
      | none => sets.identities }

def normalizeArtifactPathsForHold (fs : FileSystem) (paths : List String) :
    Except String ArtifactSets := do
  let sets ← paths.foldlM (registerArtifactPath fs) ⟨[], []⟩
  let size := sets.paths.length
  throwIf (size > maxArtifactPaths)
    (s!"Intake quarantine hold registered {size} artifact paths; max {maxArtifactPaths}")
  return sets

/-! ## Loading -/

def invalidEntry (filePath detail : String) : String :=
  "Invalid intake quarantine entry in " ++ filePath ++ ": " ++ detail

/-- A string that is not blank. -/
def nonBlank : JsValue → Option String
  | .string s => if JsString.trim s = "" then none else some s
  | _ => none

def finiteNumber : JsValue → Option JsNumber
  | .number n => if n.isFinite then some n else none
  | _ => none

def anyString : JsValue → Option String
  | .string s => some s
  | _ => none

def anyBoolean : JsValue → Option Bool
  | .bool b => some b
  | _ => none

def entryKnownKeys : List String :=
  ["id", "envelope", "ruleMatchProvenanceUnavailable", "mode", "rawText", "rawTextTruncated",
    "safeRepresentationText", "canonicalContactId", "sourceChannelId", "cogSecCaseId", "heldAtMs",
    "expiresAtMs", "status", "decision", "redelivery", "artifactPaths", "artifactIdentities",
    "accessAttempts"]

def redeliveryKnownKeys : List String :=
  ["delivered", "attemptedAtMs", "channelId", "logicalSessionId", "entryId", "reason"]

def ruleProvenanceKeys : List String := ["ruleMatches", "ruleMatchTotalCount", "ruleMatchesTruncated"]

/-- The envelope without its rule evidence, when its decision carries any. -/
def withoutRuleProvenance (rawEnvelope : JsValue) : Option JsValue :=
  match rawEnvelope, rawEnvelope.property "decision" with
  | .object properties, .object decision =>
    if ruleProvenanceKeys.any fun key => decide (key ∈ decision.map Prod.fst) then
      let kept := decision.filter fun p => decide (p.1 ∉ ruleProvenanceKeys)
      some (.object (JsMap.setEntries "decision" (.object kept) properties))
    else none
  | _, _ => none

/-- The envelope of an entry, and whether malformed rule evidence had to be set aside. -/
def loadEnvelope (rawEnvelope : JsValue) : Except String (IntakeEnvelope × Bool) :=
  match validateIntakeEnvelope rawEnvelope with
  | .ok envelope => .ok (envelope, false)
  | .error error =>
    match withoutRuleProvenance rawEnvelope with
    | none => .error error
    | some isolated =>
      match validateIntakeEnvelope isolated with
      | .ok envelope => .ok (envelope, true)
      | .error _ => .error error

def loadMode (value : JsValue) : Option IntakeQuarantineMode :=
  ofText [.shadow, .enforce] IntakeQuarantineMode.text value

def loadStrings (accepts : String → Bool) (filePath field detail : String) (value : JsValue) :
    Except String (List String) := do
  let items ← orThrow
    (match value with
      | .array items => items.mapM fun item => (anyString item).filter accepts
      | _ => none)
    (invalidEntry filePath (field ++ " " ++ detail))
  throwIf (items.length > maxArtifactPaths)
    (invalidEntry filePath (field ++ s!" exceeds max {maxArtifactPaths}"))
  return items

def loadAttempt (filePath : String) (attempt : JsValue) :
    Except String IntakeQuarantineAccessAttempt := do
  throwIf (!attempt.isRecord) (invalidEntry filePath "accessAttempts entries must be objects")
  let path ← orThrow (nonBlank (attempt.property "path"))
    (invalidEntry filePath "accessAttempts entries require a non-empty path")
  let via ← orThrow (nonBlank (attempt.property "via"))
    (invalidEntry filePath "accessAttempts entries require a non-empty via")
  let atMs ← orThrow (finiteNumber (attempt.property "atMs"))
    (invalidEntry filePath "accessAttempts entries require a finite atMs")
  return { path, via, atMs }

def loadAttempts (filePath : String) (value : JsValue) :
    Except String (List IntakeQuarantineAccessAttempt) :=
  match value with
  | .array items => items.mapM (loadAttempt filePath)
  | _ => .error (invalidEntry filePath "accessAttempts must be an array")

def loadDecision (filePath : String) (decision : JsValue) :
    Except String IntakeQuarantineDecisionRecord := do
  throwIf (!decision.isRecord) (invalidEntry filePath "decision must be an object")
  let action ← orThrow
    (ofText IntakeQuarantineDecisionAction.all IntakeQuarantineDecisionAction.text
      (decision.property "action"))
    (invalidEntry filePath ("decision.action must be one of: "
      ++ joinTexts IntakeQuarantineDecisionAction.all IntakeQuarantineDecisionAction.text))
  let actor ← orThrow (nonBlank (decision.property "actor"))
    (invalidEntry filePath "decision.actor must be a non-empty string")
  let reason ← orThrow (nonBlank (decision.property "reason"))
    (invalidEntry filePath "decision.reason must be a non-empty string")
  let atMs ← orThrow (finiteNumber (decision.property "atMs"))
    (invalidEntry filePath "decision.atMs must be a finite number")
  return { action, actor, reason, atMs }

/-- `null` or an integer. -/
def loadEntryId : JsValue → Option (Option JsNumber)
  | .null => some none
  | .number n => if n.isInteger then some (some n) else none
  | _ => none

def loadRedelivery (filePath : String) (status : IntakeQuarantineEntryStatus)
    (redelivery : JsValue) : Except String IntakeQuarantineRedeliveryRecord := do
  throwIf (!redelivery.isRecord) (invalidEntry filePath "redelivery must be an object")
  let unknownKeys := redelivery.ownKeys.filter (· ∉ redeliveryKnownKeys)
  throwIf (!unknownKeys.isEmpty) (invalidEntry filePath
    ("redelivery has unsupported keys: " ++ ", ".intercalate unknownKeys))
  let delivered ← orThrow (anyBoolean (redelivery.property "delivered"))
    (invalidEntry filePath "redelivery.delivered must be a boolean")
  let attemptedAtMs ← orThrow (finiteNumber (redelivery.property "attemptedAtMs"))
    (invalidEntry filePath "redelivery.attemptedAtMs must be a finite number")
  let channelId ← optionalField (redelivery.property "channelId") fun v => orThrow (nonBlank v)
    (invalidEntry filePath "redelivery.channelId must be a non-empty string when present")
  let logicalSessionId ← optionalField (redelivery.property "logicalSessionId") fun v =>
    orThrow (nonBlank v)
      (invalidEntry filePath "redelivery.logicalSessionId must be a non-empty string when present")
  let entryId ← optionalField (redelivery.property "entryId") fun v => orThrow (loadEntryId v)
    (invalidEntry filePath "redelivery.entryId must be an integer or null when present")
  let reason ← optionalField (redelivery.property "reason") fun v => orThrow (nonBlank v)
    (invalidEntry filePath "redelivery.reason must be a non-empty string when present")
  throwIf (status ≠ .releasedRaw && status ≠ .releasedSanitized)
    (invalidEntry filePath "redelivery is only valid on released entries")
  return { delivered, attemptedAtMs, channelId, logicalSessionId, entryId, reason }

/-- Statuses other than `held` need an envelope that has left quarantine. -/
def checkStatus (filePath : String) (status : IntakeQuarantineEntryStatus)
    (state : IntakeEnvelopeState) : Except String Unit :=
  if status ≠ .held then
    throwIf (state = .quarantined) (invalidEntry filePath
      ("status '" ++ status.text ++ "' with envelope still 'quarantined'"))
  else
    throwIf (state ≠ .quarantined) (invalidEntry filePath
      ("status 'held' requires envelope state 'quarantined', got '" ++ state.text ++ "'"))

def assertEntryShape (filePath : String) (entry : JsValue) :
    Except String IntakeQuarantineEntry := do
  throwIf (!entry.isRecord) (invalidEntry filePath "entry must be an object")
  let unknownKeys := entry.ownKeys.filter (· ∉ entryKnownKeys)
  throwIf (!unknownKeys.isEmpty)
    (invalidEntry filePath ("unsupported keys: " ++ ", ".intercalate unknownKeys))
  let id ← orThrow (nonBlank (entry.property "id")) (invalidEntry filePath "missing id")
  let loaded ← loadEnvelope (entry.property "envelope")
  let envelope := loaded.1
  let unavailable ← optionalField (entry.property "ruleMatchProvenanceUnavailable") fun v =>
    orThrow ((anyBoolean v).filter (· = true))
      (invalidEntry filePath "ruleMatchProvenanceUnavailable must be true when present")
  throwIf (envelope.id ≠ id) (invalidEntry filePath
    ("entry id '" ++ id ++ "' does not match envelope id '" ++ envelope.id ++ "'"))
  let mode ← orThrow (loadMode (entry.property "mode"))
    (invalidEntry filePath "mode must be 'shadow' or 'enforce'")
  let rawText ← orThrow (anyString (entry.property "rawText"))
    (invalidEntry filePath "rawText must be a string")
  let rawTextTruncated ← orThrow (anyBoolean (entry.property "rawTextTruncated"))
    (invalidEntry filePath "rawTextTruncated must be a boolean")
  let optionalText (key : String) : Except String (Option String) :=
    optionalField (entry.property key) fun v => orThrow (anyString v)
      (invalidEntry filePath (key ++ " must be a string when present"))
  let safeRepresentationText ← optionalText "safeRepresentationText"
  let canonicalContactId ← optionalText "canonicalContactId"
  let sourceChannelId ← optionalText "sourceChannelId"
  let cogSecCaseId ← optionalText "cogSecCaseId"
  let heldAtMs ← orThrow (finiteNumber (entry.property "heldAtMs"))
    (invalidEntry filePath "heldAtMs must be a finite number")
  let expiresAtMs ← orThrow (finiteNumber (entry.property "expiresAtMs"))
    (invalidEntry filePath "expiresAtMs must be a finite number")
  let status ← orThrow
    (ofText IntakeQuarantineEntryStatus.all IntakeQuarantineEntryStatus.text
      (entry.property "status"))
    (invalidEntry filePath ("status must be one of: "
      ++ joinTexts IntakeQuarantineEntryStatus.all IntakeQuarantineEntryStatus.text))
  checkStatus filePath status envelope.state
  let artifactPaths ← optionalField (entry.property "artifactPaths")
    (loadStrings (fun s => JsString.trim s ≠ "") filePath "artifactPaths"
      "must be an array of non-empty strings")
  let artifactIdentities ← optionalField (entry.property "artifactIdentities")
    (loadStrings isArtifactIdentity filePath "artifactIdentities"
      "must be device:inode:birthtime strings")
  let accessAttempts ← optionalField (entry.property "accessAttempts") (loadAttempts filePath)
  let decision ← optionalField (entry.property "decision") (loadDecision filePath)
  let redelivery ← optionalField (entry.property "redelivery") (loadRedelivery filePath status)
  return { id, envelope, mode, rawText, rawTextTruncated, safeRepresentationText
           ruleMatchProvenanceUnavailable := unavailable.isSome || loaded.2
           canonicalContactId, sourceChannelId, cogSecCaseId, heldAtMs, expiresAtMs, status
           decision, redelivery, artifactPaths, artifactIdentities, accessAttempts }

/-- The entries of the file, by id. -/
abbrev Entries := JsMap String IntakeQuarantineEntry

/-- One round of the loop of `load`. -/
def loadEntry (filePath : String) (entries : Entries) (value : JsValue) : Except String Entries := do
  let entry ← assertEntryShape filePath value
  let id := entry.id
  throwIf (entries.has id) (invalidEntry filePath s!"duplicate entry id '{id}'")
  return entries.set id entry

/-- `load`; an absent file is an empty store. -/
def load (filePath : String) (file : Option JsValue) : Except String Entries :=
  match file with
  | none => .ok JsMap.empty
  | some parsed => do
    let values ← (match parsed.property "version", parsed.property "entries" with
      | .number n, .array values =>
        if n.strictEq (.finite 1) then .ok values
        else .error s!"Unsupported intake quarantine file shape at {filePath}"
      | _, _ => .error s!"Unsupported intake quarantine file shape at {filePath}")
    values.foldlM (loadEntry filePath) JsMap.empty

/-! ## The disk -/

/-- `QuarantineFileShape`. -/
def fileShape (entries : Entries) : JsValue :=
  .object [("version", .number (.finite 1)), ("entries", .array (entries.values.map (·.value)))]

/-- The store's two files: the entries, as the map that was last persisted, and the gate
revision, `0` when absent. -/
structure Disk where
  persisted    : Option Entries
  gateRevision : Nat
deriving DecidableEq

namespace Disk

def empty : Disk := ⟨none, 0⟩

/-- What the next reader parses. -/
def file (d : Disk) : Option JsValue := d.persisted.map fun entries => (fileShape entries).json

end Disk

def persist (entries : Entries) : Traced Disk Unit :=
  Traced.write fun d => { d with persisted := some entries }

def advanceGateRevision : Traced Disk Unit :=
  Traced.write fun d => { d with gateRevision := d.gateRevision + 1 }

/-! ## The store -/

/-- One process's instance: its options, checked when it was created. -/
structure IntakeQuarantineStore where
  filePath     : String
  itemTtlHours : JsNumber
  maxHeldItems : Nat
  positive     : 0 < maxHeldItems
  /-- The expiry observer; it may throw. -/
  onExpired    : IntakeQuarantineEntry → JsNumber → String → Except String Unit

def createIntakeQuarantineStore (filePath : String) (itemTtlHours maxHeldItems : JsNumber)
    (onExpired : IntakeQuarantineEntry → JsNumber → String → Except String Unit) :
    Except String IntakeQuarantineStore := do
  throwIf (!itemTtlHours.isFinite || itemTtlHours.le (.finite 0))
    "Intake quarantine store requires a positive itemTtlHours"
  match maxHeldItems with
  | .finite q =>
    if h : q.den = 1 ∧ 0 < q.num.toNat then
      return { filePath, itemTtlHours, maxHeldItems := q.num.toNat, positive := h.2, onExpired }
    else .error "Intake quarantine store requires a positive integer maxHeldItems"
  | _ => .error "Intake quarantine store requires a positive integer maxHeldItems"

def IntakeQuarantineStore.ttlMs (store : IntakeQuarantineStore) : JsNumber :=
  store.itemTtlHours.mul (.finite 3600000)

def loadLocked (store : IntakeQuarantineStore) : Traced Disk Entries := do
  let disk ← Traced.get
  Traced.ofExcept (load store.filePath disk.file)

/-! ## Expiry -/

def expireEntry (entry : IntakeQuarantineEntry) (atMs : JsNumber) (reason : String) :
    Except String IntakeQuarantineEntry := do
  let envelope ← transitionIntakeEnvelope atMs entry.envelope
    { target := .expired, actor := ttlActor, reason, atMs := some atMs }
  return { entry with
    envelope
    status := .expired
    rawText := ""
    safeRepresentationText := entry.safeRepresentationText.map fun _ => "" }

/-- Expires entries one after another; also gives what they became. -/
def expireEach (atMs : JsNumber) (reason : String) :
    List (String × IntakeQuarantineEntry) → Entries →
      Except String (Entries × List IntakeQuarantineEntry)
  | [], entries => .ok (entries, [])
  | (id, entry) :: rest, entries => do
    let expired ← expireEntry entry atMs reason
    let (after, others) ← expireEach atMs reason rest (entries.set id expired)
    return (after, expired :: others)

/-- `status === 'held' && !(expiresAtMs > atMs)`. -/
def isDue (atMs : JsNumber) (entry : IntakeQuarantineEntry) : Bool :=
  entry.status = .held && !atMs.lt entry.expiresAtMs

def sweepExpired (store : IntakeQuarantineStore) (entries : Entries) (atMs : JsNumber) :
    Traced Disk Entries := do
  let reason := "quarantine TTL elapsed"
  let due := entries.entries.filter fun p => isDue atMs p.2
  let swept ← Traced.ofExcept (expireEach atMs reason due entries)
  if swept.2.isEmpty then return entries
  else do
    persist swept.1
    -- the observers run after the transition is durable, and may throw
    Traced.ofExcept (swept.2.forM fun expired => store.onExpired expired atMs reason)
    return swept.1

def hasExpiredEntries (entries : Entries) (atMs : JsNumber) : Bool :=
  entries.values.any fun entry => entry.status = .held && entry.expiresAtMs.le atMs

/-- `withWriteLock(() => { const lockedEntries = load(); sweepExpired(lockedEntries, atMs) … })`. -/
def lazySweep (store : IntakeQuarantineStore) (atMs : JsNumber) : Traced Disk Entries := do
  let entries ← loadLocked store
  sweepExpired store entries atMs

inductive LazyExpiryReadMode where
  | persistTransition | projectOnly
deriving DecidableEq, Repr

/-- What a read sees: due entries are expired, durably or only in the projection. -/
def loadAfterLazySweep (store : IntakeQuarantineStore) (mode : LazyExpiryReadMode)
    (atMs : JsNumber) : Traced Disk Entries := do
  let entries ← loadLocked store
  if !hasExpiredEntries entries atMs then return entries
  else
    match mode with
    | .projectOnly => do
      let due := entries.entries.filter fun p => isDue atMs p.2
      let projected ← Traced.ofExcept (expireEach atMs "quarantine TTL elapsed" due entries)
      return projected.1
    | .persistTransition => lazySweep store atMs

/-! ## Terminal history -/

def anchorsLiveArtifact (entry : IntakeQuarantineEntry) : Bool :=
  !isIntakeSinkConsumableState entry.envelope.state && (entry.artifactPaths.getD []).length > 0

/-- `left.heldAtMs - right.heldAtMs <= 0`, the order both sorts go by. -/
def heldNoLater (left right : IntakeQuarantineEntry) : Prop :=
  left.heldAtMs.le right.heldAtMs = true

instance : DecidableRel heldNoLater := fun left right =>
  inferInstanceAs (Decidable (left.heldAtMs.le right.heldAtMs = true))

def pruneTerminalHistory (entries : Entries) : Entries :=
  let terminal := (entries.values.filter fun entry =>
    entry.status ≠ .held && !anchorsLiveArtifact entry).insertionSort heldNoLater
  -- nothing is dropped up to the cap
  (terminal.take (terminal.length - maxTerminalEntries)).foldl (fun m entry => m.delete entry.id)
    entries

/-! ## Artifact lookups -/

/-- A held entry is the strongest match; otherwise a hold that was not released outranks one
that was; among equals the later hold wins. -/
def outranks (entry candidate : IntakeQuarantineEntry) : Bool :=
  let consumable (e : IntakeQuarantineEntry) : Bool := isIntakeSinkConsumableState e.envelope.state
  let later := candidate.heldAtMs.lt entry.heldAtMs
  (candidate.status ≠ .held && entry.status = .held)
  || (candidate.status = .held && entry.status = .held && later)
  || (candidate.status ≠ .held && entry.status ≠ .held && consumable candidate && !consumable entry)
  || (candidate.status ≠ .held && entry.status ≠ .held && consumable candidate == consumable entry
      && later)

/-- One entry against the matches found so far. -/
def matchArtifacts (needles : List String) (matched : JsMap String IntakeQuarantineEntry)
    (entry : IntakeQuarantineEntry) : JsMap String IntakeQuarantineEntry :=
  (entry.artifactPaths.getD []).foldl (fun found artifactPath =>
    if artifactPath ∈ needles then
      match found.get artifactPath with
      | none => found.set artifactPath entry
      | some candidate => if outranks entry candidate then found.set artifactPath entry else found
    else found) matched

def findArtifactMatches (cwd : String) (entries : Entries) (paths : List String) :
    JsMap String IntakeQuarantineEntry :=
  entries.values.foldl
    (matchArtifacts ((paths.map (normalizeQuarantineArtifactPath cwd)).filter (· ≠ "")))
    JsMap.empty

/-- The identities an entry gates: those captured at hold time, and those its paths have now. -/
def knownIdentities (fs : FileSystem) (entry : IntakeQuarantineEntry) :
    Except String (List String) :=
  (entry.artifactPaths.getD []).foldlM (fun known path => do
    match ← artifactIdentity fs path with
    | some identity => return JsSet.add known identity
    | none => return known) (entry.artifactIdentities.getD [])

def findArtifactMatch (fs : FileSystem) (entries : Entries) (paths identities : List String) :
    Except String (Option IntakeQuarantineEntry) :=
  entries.values.foldlM (fun found entry => do
    let known ← knownIdentities fs entry
    let id := entry.id
    throwIf (entry.artifactIdentities.isNone && (entry.artifactPaths.getD []).length > 0 &&
        known.isEmpty && !isIntakeSinkConsumableState entry.envelope.state)
      (s!"Legacy intake quarantine entry '{id}' has no reachable artifact identity; " ++
        "refusing artifact access until the held path can be verified")
    let matchesPath := (entry.artifactPaths.getD []).any (· ∈ paths)
    let matchesIdentity := known.any (· ∈ identities)
    if !matchesPath && !matchesIdentity then return found
    else
      match found with
      | none => return some entry
      | some candidate => return some (if outranks entry candidate then entry else candidate)) none

def listActiveArtifactPaths (entries : Entries) : List String :=
  entries.values.foldl (fun paths entry =>
    if isIntakeSinkConsumableState entry.envelope.state then paths
    else (entry.artifactPaths.getD []).foldl JsSet.add paths) []

/-! ## Operations -/

structure IntakeQuarantineHoldInput where
  envelope               : IntakeEnvelope
  mode                   : IntakeQuarantineMode
  rawText                : String
  safeRepresentationText : Option String := none
  canonicalContactId     : Option String := none
  sourceChannelId        : Option String := none
  cogSecCaseId           : Option String := none
  artifactPaths          : Option (List String) := none
  atMs                   : Option JsNumber := none

def holdArtifacts (fs : FileSystem) (paths : Option (List String)) :
    Except String (Option ArtifactSets) :=
  match paths with
  | some (path :: rest) => (normalizeArtifactPathsForHold fs (path :: rest)).map some
  | _ => .ok none

/-- The entry a hold puts into the store. -/
def heldEntry (store : IntakeQuarantineStore) (input : IntakeQuarantineHoldInput)
    (artifacts : Option ArtifactSets) (atMs : JsNumber) : IntakeQuarantineEntry :=
  let truncated : Bool := JsString.utf16Length input.rawText > maxRawChars
  { id := input.envelope.id
    envelope := input.envelope
    mode := input.mode
    rawText := if truncated then JsString.sliceTo input.rawText maxRawChars else input.rawText
    rawTextTruncated := truncated
    safeRepresentationText := input.safeRepresentationText
    canonicalContactId := input.canonicalContactId
    sourceChannelId := input.sourceChannelId
    cogSecCaseId := input.cogSecCaseId
    artifactPaths := artifacts.map (·.paths)
    artifactIdentities := artifacts.map (·.identities)
    heldAtMs := atMs
    expiresAtMs := atMs.add store.ttlMs
    status := .held }

/-- The held entries that make room for one more, oldest first. -/
def overCapacity (store : IntakeQuarantineStore) (entries : Entries) :
    List IntakeQuarantineEntry :=
  let held := (entries.values.filter fun entry => entry.status = .held).insertionSort heldNoLater
  held.take (held.length - (store.maxHeldItems - 1))

def hold (store : IntakeQuarantineStore) (fs : FileSystem) (now : JsNumber)
    (input : IntakeQuarantineHoldInput) : Traced Disk IntakeQuarantineEntry := do
  Traced.ofExcept (throwIf (input.envelope.state ≠ .quarantined)
    ("Intake quarantine hold requires an envelope in state 'quarantined', got '"
      ++ input.envelope.state.text ++ "'"))
  let atMs := input.atMs.getD now
  let artifacts ← Traced.ofExcept (holdArtifacts fs input.artifactPaths)
  let loaded ← loadLocked store
  let swept ← sweepExpired store loaded atMs
  Traced.ofExcept (throwIf (swept.has input.envelope.id)
    ("Intake quarantine already holds envelope '" ++ input.envelope.id ++ "'"))
  let capped ← Traced.ofExcept (expireEach atMs "quarantine capacity cap reached"
    ((overCapacity store swept).map fun entry => (entry.id, entry)) swept)
  let entry := heldEntry store input artifacts atMs
  advanceGateRevision
  persist (pruneTerminalHistory (capped.1.set entry.id entry))
  return entry

structure IntakeQuarantineDecisionInput where
  id     : String
  action : IntakeQuarantineDecisionAction
  actor  : String
  reason : String
  atMs   : Option JsNumber := none

/-- The human decision a release puts on the envelope; a discard carries none. -/
def envelopeDecision (action : IntakeQuarantineDecisionAction) (reason : String)
    (atMs : JsNumber) : Option IntakeDecision :=
  match action with
  | .discard => none
  | .releaseRaw => some { action := .pass, reason, decidedBy := .human, decidedAtMs := atMs }
  | .releaseSanitized =>
    some { action := .sanitize, reason, decidedBy := .human, decidedAtMs := atMs }

/-- The checks and the transition of `applyDecision` on the entry it found. -/
def decideEntry (input : IntakeQuarantineDecisionInput) (actor reason : String) (atMs : JsNumber)
    (entry : IntakeQuarantineEntry) : Except String IntakeQuarantineEntry := do
  let id := input.id
  throwIf (entry.status ≠ .held)
    (s!"Intake quarantine entry '{id}' is '" ++ entry.status.text
      ++ "', not 'held'; only held items take decisions")
  throwIf (entry.ruleMatchProvenanceUnavailable && input.action ≠ .discard)
    (s!"Intake quarantine entry '{id}' rule-match provenance is unavailable; "
      ++ "only discard is permitted (release fails closed)")
  throwIf (input.action = .releaseSanitized && entry.safeRepresentationText.getD "" = "")
    (s!"Intake quarantine entry '{id}' has no safe representation; "
      ++ "release_sanitized is unavailable for it (release raw or discard instead)")
  let envelope ← transitionIntakeEnvelope atMs entry.envelope
    { target := input.action.envelopeState, actor, reason, atMs := some atMs
      decision := envelopeDecision input.action reason atMs }
  return { entry with
    envelope
    status := input.action.status
    decision := some { action := input.action, actor, reason, atMs }
    rawText := if input.action = .discard then "" else entry.rawText
    safeRepresentationText := if input.action = .discard
      then entry.safeRepresentationText.map fun _ => "" else entry.safeRepresentationText }

def applyDecision (store : IntakeQuarantineStore) (now : JsNumber)
    (input : IntakeQuarantineDecisionInput) : Traced Disk IntakeQuarantineEntry := do
  let reason := JsString.trim input.reason
  Traced.ofExcept (throwIf (reason = "") "Intake quarantine decision requires a non-empty reason")
  let actor := JsString.trim input.actor
  Traced.ofExcept (throwIf (actor = "") "Intake quarantine decision requires a non-empty actor")
  let atMs := input.atMs.getD now
  let loaded ← loadLocked store
  let swept ← sweepExpired store loaded atMs
  let id := input.id
  let entry ← Traced.ofExcept
    (orThrow (swept.get id) s!"Intake quarantine entry not found: {id}")
  let decided ← Traced.ofExcept (decideEntry input actor reason atMs entry)
  if isIntakeSinkConsumableState decided.envelope.state then advanceGateRevision else pure ()
  persist (swept.set entry.id decided)
  return decided

structure IntakeQuarantineRedeliveryInput extends IntakeQuarantineRedeliveryRecord where
  id : String

def checkRedelivery (input : IntakeQuarantineRedeliveryInput) : Except String Unit := do
  let blank (text : Option String) : Bool := text.any fun s => JsString.trim s = ""
  throwIf (!input.attemptedAtMs.isFinite)
    "Intake quarantine redelivery attemptedAtMs must be finite"
  throwIf (blank input.channelId)
    "Intake quarantine redelivery channelId must be non-empty when present"
  throwIf (blank input.logicalSessionId)
    "Intake quarantine redelivery logicalSessionId must be non-empty when present"
  throwIf (blank input.reason) "Intake quarantine redelivery reason must be non-empty when present"

/-- The record kept of a redelivery: its texts trimmed, its `entryId` as given. -/
def redeliveryRecord (input : IntakeQuarantineRedeliveryInput) : IntakeQuarantineRedeliveryRecord :=
  { delivered := input.delivered
    attemptedAtMs := input.attemptedAtMs
    channelId := input.channelId.map JsString.trim
    logicalSessionId := input.logicalSessionId.map JsString.trim
    entryId := input.entryId
    reason := input.reason.map JsString.trim }

def recordRedelivery (store : IntakeQuarantineStore) (input : IntakeQuarantineRedeliveryInput) :
    Traced Disk IntakeQuarantineEntry := do
  Traced.ofExcept (checkRedelivery input)
  let entries ← loadLocked store
  let id := input.id
  let entry ← Traced.ofExcept
    (orThrow (entries.get id) s!"Intake quarantine entry not found: {id}")
  Traced.ofExcept (throwIf (entry.status ≠ .releasedRaw && entry.status ≠ .releasedSanitized)
    (s!"Intake quarantine entry '{id}' is '" ++ entry.status.text
      ++ "'; only released items record re-delivery"))
  let updated := { entry with redelivery := some (redeliveryRecord input) }
  persist (entries.set entry.id updated)
  return updated

/-! ### Access attempts -/

/-- Appends one attempt and keeps the newest ones. -/
def addAttempt (entry : IntakeQuarantineEntry) (attempt : IntakeQuarantineAccessAttempt) :
    IntakeQuarantineEntry :=
  let all := entry.accessAttempts.getD [] ++ [attempt]
  { entry with accessAttempts := some (all.drop (all.length - maxAccessAttempts)) }

structure IntakeQuarantineAccessAttemptInput where
  id   : String
  path : String
  via  : String
  atMs : Option JsNumber := none

def normalizeAttempt (now : JsNumber) (input : IntakeQuarantineAccessAttemptInput) :
    Except String (String × IntakeQuarantineAccessAttempt) := do
  let via := JsString.trim input.via
  throwIf (via = "") "Intake quarantine access attempt requires a non-empty via"
  let path := JsString.trim input.path
  throwIf (path = "") "Intake quarantine access attempt requires a non-empty path"
  return (input.id, { path := JsString.sliceTo path maxArtifactPathChars
                      via := JsString.sliceTo via maxAccessAttemptViaChars
                      atMs := input.atMs.getD now })

/-- Adds attempts to entries that are there; others are passed over. -/
def addAttempts (entries : Entries) (attempts : List (String × IntakeQuarantineAccessAttempt)) :
    Entries :=
  attempts.foldl (fun m p =>
    match m.get p.1 with
    | some entry => m.set entry.id (addAttempt entry p.2)
    | none => m) entries

def recordAccessAttempts (store : IntakeQuarantineStore) (now : JsNumber)
    (inputs : List IntakeQuarantineAccessAttemptInput) :
    Traced Disk (List IntakeQuarantineEntry) := do
  if inputs.isEmpty then return []
  else do
    let attempts ← Traced.ofExcept (inputs.mapM (normalizeAttempt now))
    let loaded ← loadLocked store
    let latestAtMs := JsNumber.maxOf (attempts.map fun p => p.2.atMs)
    let swept ← sweepExpired store loaded latestAtMs
    -- every input must name an entry before any of them is recorded
    Traced.ofExcept (attempts.forM fun p =>
      let id := p.1
      throwIf (!swept.has id) s!"Intake quarantine entry not found: {id}")
    let updated := addAttempts swept attempts
    persist updated
    return attempts.filterMap fun p => updated.get p.1

structure ArtifactAccessRequest where
  requestedPath    : String
  lookupPaths      : List String
  lookupIdentities : Option (List String) := none

structure IntakeQuarantineArtifactAccessBatchInput where
  requests : List ArtifactAccessRequest
  via      : String
  atMs     : Option JsNumber := none

def normalizeRequest (cwd : String) (request : ArtifactAccessRequest) :
    Except String (String × List String × List String) := do
  let requestedPath := JsString.trim request.requestedPath
  throwIf (requestedPath = "")
    "Intake quarantine artifact batch requires non-empty requested paths"
  let lookupPaths := (request.lookupPaths.map (normalizeQuarantineArtifactPath cwd)).filter (· ≠ "")
  let lookupIdentities := (request.lookupIdentities.getD []).map JsString.trim
  throwIf (lookupIdentities.any fun identity => !isArtifactIdentity identity)
    "Intake quarantine artifact batch received an invalid device:inode:birthtime identity"
  throwIf (lookupPaths.isEmpty && lookupIdentities.isEmpty)
    "Intake quarantine artifact batch requires a lookup path or physical identity"
  return (requestedPath, lookupPaths, lookupIdentities)

/-- The attempts a batch records: one for each request whose match is not released. -/
def deniedAttempts (via : String) (atMs : JsNumber)
    (found : List (String × Option IntakeQuarantineEntry)) :
    List (String × IntakeQuarantineAccessAttempt) :=
  found.filterMap fun p =>
    match p.2 with
    | some entry =>
      if isIntakeSinkConsumableState entry.envelope.state then none
      else some (entry.id, { path := JsString.sliceTo p.1 maxArtifactPathChars
                             via := JsString.sliceTo via maxAccessAttemptViaChars, atMs })
    | none => none

def checkArtifactAccesses (store : IntakeQuarantineStore) (fs : FileSystem) (now : JsNumber)
    (input : IntakeQuarantineArtifactAccessBatchInput) :
    Traced Disk (List (Option IntakeQuarantineEntry) × Nat) := do
  let via := JsString.trim input.via
  Traced.ofExcept (throwIf (via = "")
    "Intake quarantine artifact batch requires a non-empty via")
  let requests ← Traced.ofExcept (input.requests.mapM (normalizeRequest fs.cwd))
  let atMs := input.atMs.getD now
  let loaded ← loadLocked store
  let swept ← sweepExpired store loaded atMs
  let found ← Traced.ofExcept (requests.mapM fun request => do
    let entry ← findArtifactMatch fs swept request.2.1 request.2.2
    return (request.1, entry))
  let attempts := deniedAttempts via atMs found
  let updated := addAttempts swept attempts
  if attempts.isEmpty then pure () else persist updated
  let disk ← Traced.get
  return (found.map fun p => p.2.bind fun entry => updated.get entry.id, disk.gateRevision)

end Psfn.Intake
