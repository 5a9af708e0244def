import Psfn.Lib.Transition
import Psfn.Journal.TailRefines

/-!
# Session journal — signing, and the chain it makes

`signJournalEntry` and `buildSessionHmacKeyring` of `integrity.ts`, the writers
`writeJournalEntry`, `rewriteJournalArchiveChain` and `rollSessionArchiveIfNeeded`, and the
journals they produce under a keyring that is rotated without losing a key.

The text that is signed is left open (`stableStringify`), and so is the digest
(`createHmac`). An entry is written as JSON and read back as it was. The writers hold the
session's lock: before a write the cache is as the last write or load left it.

* `Chained` — every row verifies against the signature stored in the row before;
* `SessionJournal.WellFormed.step` — the writers keep it so, across archives, rewrites and
  rotations;
* `buildSessionHmacKeyring_wellFormed` — a keyring that is built can sign.
-/

namespace Psfn.Journal

open Psfn.Lib

/-! ## Signing -/

/-- `unsignedJournalEntry`. -/
def JournalEntry.unsigned (entry : JournalEntry) : JournalEntry :=
  { entry with hmac := .undefined, hmacKeyVersion := .undefined }

/-- What a digest is computed over; `entry` is the text of the unsigned entry. -/
structure SignedPayload where
  keyVersion   : String
  previousHmac : JsValue
  entry        : String

/-- The runtime, with the HMAC taken apart. -/
structure SigningRuntime where
  parseJson            : JsValue → Option JsValue
  backfillLegacyTurnId : String → Rat → Rat → SessionEntryRole → String
  /-- The stable text of an unsigned entry: sorted keys, no undefined fields. -/
  stableStringify      : JournalEntry → String
  /-- `createHmac('sha256', key).update(payload).digest('hex')`. -/
  createHmac           : String → SignedPayload → Digest

namespace SigningRuntime

variable (sr : SigningRuntime)

/-- The text of the covered fields. -/
def covered (entry : JournalEntry) : String := sr.stableStringify entry.unsigned

def payload (entry : JournalEntry) (keyVersion : String) (previousHmac : JsValue) : SignedPayload where
  keyVersion := keyVersion
  previousHmac := match previousHmac with
    | .undefined => .null
    | previous => previous
  entry := sr.covered entry

def computeJournalEntryHmac (entry : JournalEntry) (key keyVersion : String)
    (previousHmac : JsValue) : Digest :=
  sr.createHmac key (sr.payload entry keyVersion previousHmac)

def toRuntime : Runtime where
  parseJson := sr.parseJson
  backfillLegacyTurnId := sr.backfillLegacyTurnId
  computeJournalEntryHmac := sr.computeJournalEntryHmac

end SigningRuntime

/-! ## Keyrings -/

/-- A keyring with the version it signs under. -/
structure ActiveKeyring extends SessionHmacKeyring where
  activeVersion : String

/-- The active version is named and has a key. -/
def ActiveKeyring.WellFormed (keyring : ActiveKeyring) : Prop :=
  keyring.activeVersion ≠ "" ∧ ∃ key, keyring.keys.get keyring.activeVersion = some key ∧ key ≠ ""

structure SessionHmacKeyringInput where
  serializedKeys : Option String := none
  singleKey      : Option String := none
  activeVersion  : Option String := none
  defaultVersion : Option String := none

/-- `value?.trim()` where it is truthy. -/
def trimmed (value : Option String) : Option String :=
  (value.map JsString.trim).filter (· ≠ "")

/-- One `version:key` or `version=key` part. -/
def addSerializedKey (keys : JsMap String String) (part : List Char) : JsMap String String :=
  let separator := if ':' ∈ part then ':' else '='
  let idx := part.idxOf separator
  if idx = 0 || idx = part.length then keys
  else
    let version := JsString.trim (String.ofList (part.take idx))
    let key := JsString.trim (String.ofList (part.drop (idx + 1)))
    if version = "" || key = "" then keys else assignProperty keys version key

def parseSerializedVersionedKeys (serialized : String) : JsMap String String :=
  let parts := ((JsString.splitChars ',' serialized.toList).map JsString.trimChars).filter (· ≠ [])
  parts.foldl addSerializedKey .empty

/-- `keys[version]` where it is truthy. -/
def hasKey (keys : JsMap String String) (version : String) : Bool :=
  ((keys.get version).filter (· ≠ "")).isSome

def resolveActiveVersion (input : SessionHmacKeyringInput) (keys : JsMap String String) :
    Option String :=
  match trimmed input.activeVersion with
  | some explicit => if hasKey keys explicit then some explicit else none
  | none =>
    let preferred := (trimmed input.defaultVersion).getD "v1"
    if hasKey keys preferred then some preferred
    else (keys.keys.insertionSort fun a b =>
      JsString.unitsLe (JsString.utf16Units a) (JsString.utf16Units b)).head?

/-- `none` for no keyring. -/
def buildSessionHmacKeyring (input : SessionHmacKeyringInput) :
    Except String (Option ActiveKeyring) :=
  let keysFromList := match trimmed input.serializedKeys with
    | some _ => parseSerializedVersionedKeys (input.serializedKeys.getD "")
    | none => .empty
  let fallbackVersion := (trimmed input.defaultVersion).getD "v1"
  let keys := match trimmed input.singleKey with
    | some fallbackKey =>
      if hasKey keysFromList fallbackVersion then keysFromList
      else assignProperty keysFromList fallbackVersion fallbackKey
    | none => keysFromList
  if keys.keys = [] then .ok none
  else
    match resolveActiveVersion input keys with
    | some activeVersion => .ok (some { keys, activeVersion })
    | none => .error "Active HMAC key version is missing from keyring"

/-! ## Writers -/

/-- A journal as its writer sees it: the chain, `cache.lastHmac` and the keyring in force. -/
structure SessionJournal where
  archives : List Archive
  lastHmac : Option String
  keyring  : { keyring : ActiveKeyring // keyring.WellFormed }

section Writers

variable (sr : SigningRuntime)

/-- `none` where it throws. -/
def signJournalEntry (keyring : ActiveKeyring) (entry : JournalEntry) (previousHmac : Option String) :
    Option JournalEntry :=
  ((keyring.keys.get keyring.activeVersion).filter (· ≠ "")).map fun key =>
    { entry.unsigned with
      hmac := .string (sr.computeJournalEntryHmac entry.unsigned key keyring.activeVersion
        (candidateOf previousHmac)).value
      hmacKeyVersion := .string keyring.activeVersion }

/-- The row goes to the end of the last archive's own file. -/
def appendJournalEntry (entry : JournalEntry) : List Archive → List Archive
  | [] => []
  | [archive] => [{ archive with active := some (archive.active.getD [] ++ [.entry entry]) }]
  | archive :: rest => archive :: appendJournalEntry entry rest

def writeJournalEntry (s : SessionJournal) (journal : JournalEntry) : Option SessionJournal := do
  let signed ← signJournalEntry sr s.keyring.1 journal s.lastHmac
  return { s with
    archives := appendJournalEntry signed s.archives
    lastHmac := (textOrNull signed.hmac).or s.lastHmac }

/-- The rows of a rewrite, signed one after the other, and the last signature. -/
def signEntries (keyring : ActiveKeyring) (previousHmac : Option String) :
    List JournalEntry → Option (List JournalEntry × Option String)
  | [] => some ([], previousHmac)
  | entry :: rest => do
    let signed ← signJournalEntry sr keyring entry previousHmac
    let (rewritten, last) ← signEntries keyring ((textOrNull signed.hmac).or previousHmac) rest
    return (signed :: rewritten, last)

/-- The archive loop of a rewrite: the signature goes on across archives. -/
def signArchives (keyring : ActiveKeyring) (previousHmac : Option String) :
    List (List JournalEntry) → Option (List Archive)
  | [] => some []
  | entries :: rest => do
    let (rewritten, last) ← signEntries sr keyring previousHmac entries
    let archives ← signArchives keyring last rest
    return { active := some (rewritten.map .entry) } :: archives

def rewriteJournalArchiveChain (keyring : ActiveKeyring) (archives : List Archive)
    (entriesByArchive : List (List JournalEntry)) : Option (List Archive) :=
  if archives.length ≠ entriesByArchive.length then none
  else signArchives sr keyring none entriesByArchive

/-- `cache.lastHmac` after a full load of a chain whose files are there. -/
def loadedLastHmac (keyring : ActiveKeyring) (archives : List Archive) : Option String :=
  match (scanArchives sr.toRuntime (some keyring.toSessionHmacKeyring) loadStart
    archives).1.previousHmacCandidates with
  | previous :: _ => textOrNull previous
  | [] => none

/-- `rollSessionArchiveIfNeeded` once it rolls: the file it leaves is not empty. -/
def rollSessionArchive (s : SessionJournal) : SessionJournal :=
  { s with archives := s.archives ++ [{ active := some [] }] }

end Writers

/-- Every key of the old keyring is in the new one. -/
def Retains (old new : ActiveKeyring) : Prop :=
  ∀ version key, old.keys.get version = some key → new.keys.get version = some key

/-- What can happen to a journal, and whether it is a rewrite, after which the session is
loaded again. -/
inductive JournalStep (sr : SigningRuntime) : Bool → SessionJournal → SessionJournal → Prop where
  | append {s s' : SessionJournal} (journal : JournalEntry)
      (h : writeJournalEntry sr s journal = some s') : JournalStep sr false s s'
  | roll {s : SessionJournal} (hfile : (s.archives.getLast?.bind (·.active)).isSome = true) :
      JournalStep sr false s (rollSessionArchive s)
  | rewrite {s : SessionJournal} {entriesByArchive : List (List JournalEntry)}
      {archives : List Archive}
      (h : rewriteJournalArchiveChain sr s.keyring.1 s.archives entriesByArchive = some archives) :
      JournalStep sr true s
        { s with archives, lastHmac := loadedLastHmac sr s.keyring.1 archives }
  | rotate {s : SessionJournal} (keyring : { keyring : ActiveKeyring // keyring.WellFormed })
      (h : Retains s.keyring.1 keyring.1) : JournalStep sr false s { s with keyring }
  | load {s : SessionJournal} :
      JournalStep sr false s { s with lastHmac := loadedLastHmac sr s.keyring.1 s.archives }

/-! ## What the keyring builder guarantees -/

/-- No key and no version of the map is empty. -/
def NonEmptyKeys (keys : JsMap String String) : Prop :=
  ∀ version key, keys.get version = some key → version ≠ "" ∧ key ≠ ""

variable {keys : JsMap String String} {version : String}

theorem NonEmptyKeys.assign (h : NonEmptyKeys keys) {key : String} (hversion : version ≠ "")
    (hkey : key ≠ "") :
    NonEmptyKeys (assignProperty keys version key) := by
  intro v k hget
  rw [get_assignProperty] at hget
  split at hget
  · rename_i hv
    obtain rfl := Option.some.inj hget
    exact ⟨hv.1 ▸ hversion, hkey⟩
  · exact h v k hget

theorem nonEmptyKeys_empty : NonEmptyKeys .empty := by
  intro v k hget
  simp [JsMap.get, JsMap.empty, JsMap.lookup] at hget

theorem NonEmptyKeys.addSerializedKey (h : NonEmptyKeys keys) (part : List Char) :
    NonEmptyKeys (addSerializedKey keys part) := by
  unfold Journal.addSerializedKey
  generalize (if ':' ∈ part then ':' else '=') = separator
  dsimp only
  split
  · exact h
  · split
    · exact h
    · rename_i hparts
      simp only [Bool.or_eq_true, decide_eq_true_eq, not_or] at hparts
      exact h.assign hparts.1 hparts.2

theorem nonEmptyKeys_parse (serialized : String) :
    NonEmptyKeys (parseSerializedVersionedKeys serialized) := by
  unfold parseSerializedVersionedKeys
  dsimp only
  generalize List.filter _ _ = parts
  have hfold : ∀ keys, NonEmptyKeys keys → NonEmptyKeys (parts.foldl addSerializedKey keys) := by
    induction parts with
    | nil => exact fun keys h => h
    | cons part rest ih => exact fun keys h => ih _ (h.addSerializedKey part)
  exact hfold _ nonEmptyKeys_empty

theorem trimmed_ne_empty {value : Option String} {text : String} (h : trimmed value = some text) :
    text ≠ "" := by
  simpa using (Option.filter_eq_some_iff.mp h).2

theorem fallbackVersion_ne_empty (value : Option String) : (trimmed value).getD "v1" ≠ "" := by
  cases h : trimmed value with
  | none => simp
  | some text => simpa using trimmed_ne_empty h

theorem get_of_hasKey (h : hasKey keys version = true) :
    ∃ key, keys.get version = some key ∧ key ≠ "" := by
  obtain ⟨key, hkey⟩ := Option.isSome_iff_exists.mp h
  obtain ⟨hget, hne⟩ := Option.filter_eq_some_iff.mp hkey
  exact ⟨key, hget, by simpa using hne⟩

/-- A version that resolves has a key. -/
theorem resolveActiveVersion_wellFormed {input : SessionHmacKeyringInput}
    (hkeys : NonEmptyKeys keys) (h : resolveActiveVersion input keys = some version) :
    version ≠ "" ∧ ∃ key, keys.get version = some key ∧ key ≠ "" := by
  have hsome : ∃ key, keys.get version = some key ∧ key ≠ "" := by
    unfold resolveActiveVersion at h
    split at h
    · split at h
      · obtain rfl := Option.some.inj h
        exact get_of_hasKey ‹_›
      · exact absurd h (by simp)
    · dsimp only at h
      split at h
      · obtain rfl := Option.some.inj h
        exact get_of_hasKey ‹_›
      · have hmem : version ∈ keys.keys := (List.mem_insertionSort _).mp (List.mem_of_head? h)
        obtain ⟨key, hkey⟩ := (JsMap.mem_keys_iff keys version).mp hmem
        exact ⟨key, hkey, (hkeys version key hkey).2⟩
  obtain ⟨key, hget, hne⟩ := hsome
  exact ⟨(hkeys version key hget).1, key, hget, hne⟩

variable {keyring : ActiveKeyring}

/-- **Every keyring that is built can sign.** -/
theorem buildSessionHmacKeyring_wellFormed {input : SessionHmacKeyringInput}
    (h : buildSessionHmacKeyring input = .ok (some keyring)) :
    keyring.WellFormed := by
  unfold buildSessionHmacKeyring at h
  dsimp only at h
  generalize hlist : (match trimmed input.serializedKeys with
    | some _ => parseSerializedVersionedKeys (input.serializedKeys.getD "")
    | none => .empty) = keysFromList at h
  have hlistKeys : NonEmptyKeys keysFromList := by
    rw [← hlist]
    split
    · exact nonEmptyKeys_parse _
    · exact nonEmptyKeys_empty
  generalize hall : (match trimmed input.singleKey with
    | some fallbackKey =>
      if hasKey keysFromList ((trimmed input.defaultVersion).getD "v1") then keysFromList
      else assignProperty keysFromList ((trimmed input.defaultVersion).getD "v1") fallbackKey
    | none => keysFromList) = keys at h
  have hkeys : NonEmptyKeys keys := by
    rw [← hall]
    split
    · rename_i fallbackKey hfallback
      split
      · exact hlistKeys
      · exact hlistKeys.assign (fallbackVersion_ne_empty _) (trimmed_ne_empty hfallback)
    · exact hlistKeys
  split at h
  · exact absurd h (by simp)
  · split at h
    · rename_i version hversion
      cases h
      exact resolveActiveVersion_wellFormed hkeys hversion
    · exact absurd h (by simp)

/-! ## Chains -/

variable {previous : JsValue} {entry : JournalEntry} {rows : List JournalEntry}

section Chains

variable {rt : Runtime} {keyring : SessionHmacKeyring}

/-- The row verifies against this predecessor. -/
def Verifies (rt : Runtime) (keyring : SessionHmacKeyring) (previous : JsValue)
    (entry : JournalEntry) : Prop :=
  (verifyJournalEntryIntegrity rt keyring entry previous).verified = true

/-- Its signature is whole, its key is known and the digest is the one computed. -/
theorem verifies_iff :
    Verifies rt keyring previous entry ↔
      ∃ observed version key, nonEmptyText entry.hmac = some observed ∧
        nonEmptyText entry.hmacKeyVersion = some version ∧
        (keyring.keys.get version).filter (· ≠ "") = some key ∧ isHexSha256 observed = true ∧
        hexNibbles (rt.computeJournalEntryHmac entry key version previous).value =
          hexNibbles observed := by
  unfold Verifies verifyJournalEntryIntegrity
  dsimp only
  constructor
  · intro h
    split at h
    · rename_i observed version hobserved hversion
      split at h
      · exact absurd h (by simp)
      · rename_i key hkey
        split at h
        · exact absurd h (by simp)
        · split at h
          · exact absurd h (by simp)
          · split at h
            · rename_i hhex _ hsame
              exact ⟨observed, version, key, hobserved, hversion, hkey, by simpa using hhex, hsame⟩
            · exact absurd h (by simp)
    · exact absurd h (by simp)
  · rintro ⟨observed, version, key, hobserved, hversion, hkey, hhex, hsame⟩
    simp only [hobserved, hversion, hkey, hhex]
    simp [hsame]

theorem Verifies.hmac (h : Verifies rt keyring previous entry) :
    ∃ observed, entry.hmac = .string observed := by
  obtain ⟨observed, -, -, hobserved, -⟩ := verifies_iff.mp h
  cases hhmac : entry.hmac <;> simp [nonEmptyText, hhmac] at hobserved
  exact ⟨_, rfl⟩

/-- The predecessor signature a row leaves. -/
def anchorOf (entry : JournalEntry) : JsValue := candidateOf (textOrNull entry.hmac)

/-- The predecessor signature some rows leave. -/
def anchorAfter (previous : JsValue) (rows : List JournalEntry) : JsValue :=
  (rows.getLast?.map anchorOf).getD previous

/-- Every row verifies against the signature stored in the row before it. -/
def Chained (rt : Runtime) (keyring : SessionHmacKeyring) : JsValue → List JournalEntry → Prop
  | _, [] => True
  | previous, entry :: rest =>
    Verifies rt keyring previous entry ∧ Chained rt keyring (anchorOf entry) rest

theorem anchorAfter_cons (previous : JsValue) (entry : JournalEntry) (rest : List JournalEntry) :
    anchorAfter previous (entry :: rest) = anchorAfter (anchorOf entry) rest := by
  cases h : rest.getLast? <;> simp [anchorAfter, List.getLast?_cons, h]

theorem chained_append {xs ys : List JournalEntry} :
    Chained rt keyring previous (xs ++ ys) ↔
      Chained rt keyring previous xs ∧ Chained rt keyring (anchorAfter previous xs) ys := by
  induction xs generalizing previous with
  | nil => simp [Chained, anchorAfter]
  | cons x xs ih =>
    rw [List.cons_append, Chained, Chained, ih, anchorAfter_cons, and_assoc]

/-- A scan from one predecessor verifies exactly the chains from it. -/
theorem allVerified_iff_chained {b : Bool} :
    AllVerified rt (some keyring) { previousHmacCandidates := [previous], runNoticeRendered := b }
      rows ↔ Chained rt keyring previous rows := by
  induction rows generalizing previous b with
  | nil => simp [AllVerified, scanRows, Chained]
  | cons row rest ih =>
    rw [allVerified_cons, Chained]
    have hrow : (ScanState.normalize rt (some keyring)
        { previousHmacCandidates := [previous], runNoticeRendered := b } row).verified = true ↔
        Verifies rt keyring previous row := by
      unfold Verifies ScanState.normalize verifyAndNormalizeEntry
      cases h : (verifyJournalEntryIntegrity rt keyring row previous).verified <;> simp [h]
    rw [hrow]
    refine and_congr_right fun hverifies => ?_
    have hnext : (ScanState.normalize rt (some keyring)
        { previousHmacCandidates := [previous], runNoticeRendered := b } row).nextHmacCandidates =
        [anchorOf row] := next_of_verified hverifies _ _
    rw [ScanState.after, hnext]
    exact ih

theorem candidates_of_chained {b : Bool} (h : Chained rt keyring previous rows) :
    (scanRows rt (some keyring) { previousHmacCandidates := [previous], runNoticeRendered := b }
      rows).1.previousHmacCandidates = [anchorAfter previous rows] := by
  induction rows generalizing previous b with
  | nil => rfl
  | cons row rest ih =>
    have hnext : (ScanState.normalize rt (some keyring)
        { previousHmacCandidates := [previous], runNoticeRendered := b } row).nextHmacCandidates =
        [anchorOf row] := next_of_verified h.1 _ _
    rw [anchorAfter_cons]
    show (scanRows rt (some keyring) (ScanState.after _ _) rest).1.previousHmacCandidates = _
    rw [ScanState.after, hnext]
    exact ih h.2

end Chains

/-! ## Every journal that is written is a chain -/

section Written

variable {sr : SigningRuntime}

theorem Retains.verifies {old new : ActiveKeyring} (h : Retains old new)
    (hverifies : Verifies sr.toRuntime old.toSessionHmacKeyring previous entry) :
    Verifies sr.toRuntime new.toSessionHmacKeyring previous entry := by
  obtain ⟨observed, version, key, hobserved, hversion, hkey, hhex, hsame⟩ := verifies_iff.mp hverifies
  obtain ⟨hget, hne⟩ := Option.filter_eq_some_iff.mp hkey
  exact verifies_iff.mpr ⟨observed, version, key, hobserved, hversion,
    Option.filter_eq_some_iff.mpr ⟨h version key hget, hne⟩, hhex, hsame⟩

theorem Retains.chained {old new : ActiveKeyring} (h : Retains old new)
    (hchained : Chained sr.toRuntime old.toSessionHmacKeyring previous rows) :
    Chained sr.toRuntime new.toSessionHmacKeyring previous rows := by
  induction rows generalizing previous with
  | nil => trivial
  | cons row rest ih => exact ⟨h.verifies hchained.1, ih hchained.2⟩

theorem Digest.ne_empty (d : Digest) : d.value ≠ "" := by
  intro h
  have hhex := d.isHex
  rw [h] at hhex
  exact absurd hhex (by decide)

theorem nonEmptyText_string {s : String} (h : s ≠ "") : nonEmptyText (.string s) = some s := by
  simp [nonEmptyText, h]

/-- A signed row verifies against the predecessor it was signed with. -/
theorem signJournalEntry_spec (hkeyring : keyring.WellFormed) (entry : JournalEntry)
    (previousHmac : Option String) :
    ∃ signed, signJournalEntry sr keyring entry previousHmac = some signed ∧
      Verifies sr.toRuntime keyring.toSessionHmacKeyring (candidateOf previousHmac) signed := by
  obtain ⟨hversion, key, hget, hkey⟩ := hkeyring
  have hfilter : (keyring.keys.get keyring.activeVersion).filter (· ≠ "") = some key :=
    Option.filter_eq_some_iff.mpr ⟨hget, by simpa using hkey⟩
  refine ⟨_, by rw [signJournalEntry, hfilter, Option.map_some], ?_⟩
  exact verifies_iff.mpr ⟨_, _, key, nonEmptyText_string (Digest.ne_empty _),
    nonEmptyText_string hversion, hfilter, Digest.isHex _, rfl⟩

theorem textOrNull_or {rt : Runtime} {keyring : SessionHmacKeyring} {signed : JournalEntry}
    (h : Verifies rt keyring previous signed) (last : Option String) :
    candidateOf ((textOrNull signed.hmac).or last) = anchorOf signed := by
  obtain ⟨observed, hobserved⟩ := h.hmac
  rw [anchorOf, hobserved]
  rfl

/-- The rows of a rewrite, from the signature before them to the one they leave. -/
theorem signEntries_spec (hkeyring : keyring.WellFormed) {previousHmac : Option String}
    {entries rewritten : List JournalEntry} {last : Option String}
    (h : signEntries sr keyring previousHmac entries = some (rewritten, last)) :
    Chained sr.toRuntime keyring.toSessionHmacKeyring (candidateOf previousHmac) rewritten ∧
      candidateOf last = anchorAfter (candidateOf previousHmac) rewritten := by
  induction entries generalizing previousHmac rewritten with
  | nil =>
    cases h
    exact ⟨trivial, rfl⟩
  | cons entry rest ih =>
    simp only [signEntries, Option.bind_eq_bind, Option.bind_eq_some_iff, Option.pure_def] at h
    obtain ⟨signed, hsigned, ⟨tail, final⟩, htail, h⟩ := h
    cases h
    obtain ⟨signed', hsigned', hverifies⟩ := signJournalEntry_spec hkeyring entry previousHmac
    obtain rfl := Option.some.inj (hsigned.symm.trans hsigned')
    obtain ⟨hchained, hlast⟩ := ih htail
    rw [textOrNull_or hverifies] at hchained hlast
    exact ⟨⟨hverifies, hchained⟩, by rw [hlast, anchorAfter_cons]⟩

theorem filterMap_map_entry (rows : List JournalEntry) :
    (rows.map Line.entry).filterMap Line.toEntry = rows := by
  simp [List.filterMap_map, Function.comp_def, Line.toEntry]

variable {archives : List Archive}

theorem signArchives_spec (hkeyring : keyring.WellFormed) {previousHmac : Option String}
    {entriesByArchive : List (List JournalEntry)}
    (h : signArchives sr keyring previousHmac entriesByArchive = some archives) :
    Chained sr.toRuntime keyring.toSessionHmacKeyring (candidateOf previousHmac)
        (rowsOf archives) ∧
      archives.length = entriesByArchive.length ∧
      ∀ archive ∈ archives, archive.active.isSome = true := by
  induction entriesByArchive generalizing previousHmac archives with
  | nil =>
    cases h
    exact ⟨trivial, rfl, by simp⟩
  | cons entries rest ih =>
    simp only [signArchives, Option.bind_eq_bind, Option.bind_eq_some_iff, Option.pure_def] at h
    obtain ⟨⟨rewritten, last⟩, hentries, tail, htail, h⟩ := h
    cases h
    obtain ⟨hchained, hlast⟩ := signEntries_spec hkeyring hentries
    obtain ⟨hrest, hlength, hfiles⟩ := ih htail
    refine ⟨?_, by simp [hlength], by simpa using hfiles⟩
    have hentriesOf : Archive.entries { active := some (rewritten.map Line.entry) } = rewritten := by
      rw [Archive.entries, Archive.lines, List.flatten_nil, List.nil_append]
      exact filterMap_map_entry rewritten
    rw [rowsOf_cons, hentriesOf, chained_append]
    exact ⟨hchained, hlast ▸ hrest⟩

theorem rowsOf_appendJournalEntry (hne : archives ≠ []) (entry : JournalEntry) :
    rowsOf (appendJournalEntry entry archives) = rowsOf archives ++ [entry] := by
  induction archives with
  | nil => exact absurd rfl hne
  | cons archive rest ih =>
    cases rest with
    | nil => cases h : archive.active <;> simp [appendJournalEntry, rowsOf, Archive.entries,
        Archive.lines, h, Line.toEntry]
    | cons next rest =>
      rw [appendJournalEntry, rowsOf_cons, ih (by simp), rowsOf_cons archive]
      · simp
      · simp

/-- The last archive has its file after a write, and the others keep theirs. -/
theorem appendJournalEntry_files (hne : archives ≠ []) (entry : JournalEntry)
    (h : archives.length = 1 ∨ ∀ archive ∈ archives, archive.active.isSome = true) :
    appendJournalEntry entry archives ≠ [] ∧
      ∀ archive ∈ appendJournalEntry entry archives, archive.active.isSome = true := by
  induction archives with
  | nil => exact absurd rfl hne
  | cons archive rest ih =>
    cases rest with
    | nil => exact ⟨by simp [appendJournalEntry], by simp [appendJournalEntry]⟩
    | cons next rest =>
      have hall : ∀ a ∈ archive :: next :: rest, a.active.isSome = true :=
        h.resolve_left (by simp)
      rw [appendJournalEntry]
      · refine ⟨by simp, ?_⟩
        intro a ha
        rcases List.mem_cons.mp ha with rfl | ha
        · exact hall a (by simp)
        · exact (ih (by simp) (Or.inr fun b hb => hall b (List.mem_cons_of_mem _ hb))).2 a ha
      · simp

/-- The invariant of a journal: its rows are a chain, `lastHmac` is what they leave, and only a
journal nothing was written to has no file. -/
structure SessionJournal.WellFormed (sr : SigningRuntime) (s : SessionJournal) : Prop where
  archives_ne : s.archives ≠ []
  chained     : Chained sr.toRuntime s.keyring.1.toSessionHmacKeyring .null (rowsOf s.archives)
  lastHmac    : candidateOf s.lastHmac = anchorAfter .null (rowsOf s.archives)
  files       : s.archives.length = 1 ∨ ∀ archive ∈ s.archives, archive.active.isSome = true

/-- What a load leaves in the cache is what the writer had there. -/
theorem loadedLastHmac_eq
    (h : Chained sr.toRuntime keyring.toSessionHmacKeyring .null (rowsOf archives)) :
    candidateOf (loadedLastHmac sr keyring archives) = anchorAfter .null (rowsOf archives) := by
  have hcandidates : (scanRows sr.toRuntime (some keyring.toSessionHmacKeyring) loadStart
      (rowsOf archives)).1.previousHmacCandidates = [anchorAfter .null (rowsOf archives)] :=
    candidates_of_chained h
  rw [loadedLastHmac, scanArchives_eq_scanRows, hcandidates]
  dsimp only
  unfold anchorAfter
  cases hlast : (rowsOf archives).getLast? with
  | none => rfl
  | some row =>
    show candidateOf (textOrNull (anchorOf row)) = anchorOf row
    rw [anchorOf]
    cases textOrNull row.hmac <;> rfl

/-- **Every write keeps the chain.** -/
theorem SessionJournal.WellFormed.step {rewrites : Bool} {s s' : SessionJournal}
    (h : s.WellFormed sr) (hstep : JournalStep sr rewrites s s') : s'.WellFormed sr := by
  cases hstep with
  | append journal hwrite =>
    simp only [writeJournalEntry, Option.bind_eq_bind, Option.bind_eq_some_iff,
      Option.pure_def] at hwrite
    obtain ⟨signed, hsigned, hs'⟩ := hwrite
    cases hs'
    obtain ⟨signed', hsigned', hverifies⟩ := signJournalEntry_spec s.keyring.2 journal s.lastHmac
    obtain rfl := Option.some.inj (hsigned.symm.trans hsigned')
    rw [h.lastHmac] at hverifies
    have hrows := rowsOf_appendJournalEntry h.archives_ne signed
    obtain ⟨hne, hfiles⟩ := appendJournalEntry_files h.archives_ne signed h.files
    refine ⟨hne, ?_, ?_, Or.inr hfiles⟩
    · rw [hrows, chained_append]
      exact ⟨h.chained, hverifies, trivial⟩
    · rw [hrows]
      simp [textOrNull_or hverifies, anchorAfter]
  | roll hfile =>
    have hrows : rowsOf (s.archives ++ [{ active := some [] }]) = rowsOf s.archives := by
      rw [rowsOf_append]
      simp [rowsOf, Archive.entries, Archive.lines]
    refine ⟨by simp [rollSessionArchive], ?_, ?_, Or.inr ?_⟩
    · rw [rollSessionArchive, hrows]
      exact h.chained
    · rw [rollSessionArchive, hrows]
      exact h.lastHmac
    · intro archive harchive
      rcases List.mem_append.mp harchive with hold | hnew
      · rcases h.files with hone | hall
        · obtain ⟨only, honly⟩ := List.length_eq_one_iff.mp hone
          rw [honly] at hfile hold
          obtain rfl := List.mem_singleton.mp hold
          simpa using hfile
        · exact hall archive hold
      · obtain rfl := List.mem_singleton.mp hnew
        rfl
  | rewrite hrewrite =>
    rw [rewriteJournalArchiveChain] at hrewrite
    split at hrewrite
    · exact absurd hrewrite (by simp)
    · rename_i entriesByArchive archives hlength
      obtain ⟨hchained, hcount, hfiles⟩ := signArchives_spec s.keyring.2 hrewrite
      refine ⟨?_, hchained, loadedLastHmac_eq hchained, Or.inr hfiles⟩
      intro hnil
      have hzero : s.archives.length = 0 := by
        dsimp only at hnil
        rw [hnil] at hcount
        simpa [← hcount] using hlength
      exact h.archives_ne (List.eq_nil_of_length_eq_zero hzero)
  | rotate keyring hretains =>
    exact ⟨h.archives_ne, hretains.chained h.chained, h.lastHmac, h.files⟩
  | load => exact ⟨h.archives_ne, h.chained, loadedLastHmac_eq h.chained, h.files⟩

end Written

end Psfn.Journal
