import Psfn.Intake.QuarantineStore

/-!
# Quarantine store — the artifact gate

Which artifacts may be read. A lookup picks one entry among those that register a path or an
identity, and only an operator release lets it through. Several entries may register the
same path; the rank they are compared by makes the lookup deny as soon as one of them is
not released.

* `findArtifactMatches_denies_iff`, `findArtifactMatch_denies_iff` — a lookup denies exactly
  when some entry that matches is not released.
* `gate_views_agree` — the lookups, the deny list and the entries' statuses say the same of
  every normalized path.
* `gateRevision_sound` — equal gate revisions mean equal answers, between operations.
-/

namespace Psfn.Intake

open Psfn.Lib

/-! ## What an entry gates -/

/-- The operator has not let the item through. -/
def IntakeQuarantineEntry.Blocks (e : IntakeQuarantineEntry) : Prop :=
  isIntakeSinkConsumableState e.envelope.state = false

def IntakeQuarantineEntry.Registers (e : IntakeQuarantineEntry) (path : String) : Prop :=
  path ∈ e.artifactPaths.getD []

/-- Some entry that registers the path is not released. -/
def Denied (entries : Entries) (path : String) : Prop :=
  ∃ id e, entries.get id = some e ∧ e.Registers path ∧ e.Blocks

/-- What a lookup reported blocks. -/
def BlockedBy (found : Option IntakeQuarantineEntry) : Prop := ∃ e, found = some e ∧ e.Blocks

/-- A held entry is never consumable. -/
def Coherent (e : IntakeQuarantineEntry) : Prop := e.status = .held → e.Blocks

variable {e : IntakeQuarantineEntry}

theorem IntakeQuarantineEntry.Tracked.coherent (h : e.Tracked) : Coherent e := by
  intro hheld
  rw [IntakeQuarantineEntry.Blocks, h.state, hheld]
  rfl

theorem IntakeQuarantineEntry.Tracked.not_blocks_iff (h : e.Tracked) :
    ¬ e.Blocks ↔ e.status = .releasedRaw ∨ e.status = .releasedSanitized := by
  rw [IntakeQuarantineEntry.Blocks, h.state]
  cases e.status <;>
    simp [IntakeQuarantineEntryStatus.envelopeState, isIntakeSinkConsumableState]

variable {entries : Entries}

theorem Entries.All.coherent (h : entries.All IntakeQuarantineEntry.Tracked) :
    ∀ e ∈ entries.values, Coherent e := by
  intro e he
  obtain ⟨id, hget⟩ := (entries.mem_values_iff e).1 he
  exact (h id e hget).2.coherent

/-- The better of two entries blocks as soon as one of them does. -/
theorem blocks_better_iff {c : IntakeQuarantineEntry} (he : Coherent e) (hc : Coherent c) :
    (if outranks e c then e else c).Blocks ↔ e.Blocks ∨ c.Blocks := by
  unfold Coherent IntakeQuarantineEntry.Blocks at *
  by_cases hheld : e.status = .held <;> by_cases hheld' : c.status = .held <;>
    cases hb : isIntakeSinkConsumableState e.envelope.state <;>
    cases hb' : isIntakeSinkConsumableState c.envelope.state <;>
    cases hlater : c.heldAtMs.lt e.heldAtMs <;>
    simp_all [outranks]

theorem coherent_better {c : IntakeQuarantineEntry} (he : Coherent e) (hc : Coherent c) :
    Coherent (if outranks e c then e else c) := by
  split
  · exact he
  · exact hc

/-! ## Lookup by path -/

/-- Candidates found so far are coherent. -/
def AllCoherent (found : JsMap String IntakeQuarantineEntry) : Prop :=
  ∀ path c, found.get path = some c → Coherent c

/-- One registered path of an entry against the matches so far. -/
def matchArtifact (needles : List String) (entry : IntakeQuarantineEntry)
    (found : JsMap String IntakeQuarantineEntry) (artifactPath : String) :
    JsMap String IntakeQuarantineEntry :=
  if artifactPath ∈ needles then
    match found.get artifactPath with
    | none => found.set artifactPath entry
    | some candidate => if outranks entry candidate then found.set artifactPath entry else found
  else found

theorem get_matchArtifact (needles : List String) {entry : IntakeQuarantineEntry}
    {found : JsMap String IntakeQuarantineEntry} (hentry : Coherent entry)
    (hfound : AllCoherent found) (artifactPath path : String) :
    AllCoherent (matchArtifact needles entry found artifactPath) ∧
      (BlockedBy ((matchArtifact needles entry found artifactPath).get path) ↔
        BlockedBy (found.get path) ∨
          (path ∈ needles ∧ path = artifactPath ∧ entry.Blocks)) := by
  unfold matchArtifact
  by_cases hneedle : artifactPath ∈ needles
  · rw [if_pos hneedle]
    have hset : AllCoherent (found.set artifactPath entry) := by
      intro p c hget
      rw [JsMap.get_set] at hget
      split at hget
      · obtain rfl := Option.some.inj hget
        exact hentry
      · exact hfound p c hget
    cases hcandidate : found.get artifactPath with
    | none =>
      refine ⟨hset, ?_⟩
      rw [JsMap.get_set]
      by_cases hpath : path = artifactPath
      · subst hpath
        simp [BlockedBy, hcandidate, hneedle]
      · simp [hpath]
    | some candidate =>
      have hbetter := blocks_better_iff hentry (hfound _ _ hcandidate)
      dsimp only
      by_cases houtranks : outranks entry candidate = true
      · rw [if_pos houtranks] at hbetter ⊢
        refine ⟨hset, ?_⟩
        rw [JsMap.get_set]
        by_cases hpath : path = artifactPath
        · subst hpath
          simp only [BlockedBy, hcandidate, hneedle, if_true, Option.some.injEq, exists_eq_left',
            true_and]
          rw [or_comm]
          exact hbetter
        · simp [hpath]
      · rw [if_neg houtranks] at hbetter ⊢
        refine ⟨hfound, ?_⟩
        by_cases hpath : path = artifactPath
        · subst hpath
          simp only [BlockedBy, hcandidate, hneedle, Option.some.injEq, exists_eq_left', true_and]
          rw [hbetter]
          tauto
        · simp [hpath]
  · rw [if_neg hneedle]
    refine ⟨hfound, ?_⟩
    have hnot : ¬ (path ∈ needles ∧ path = artifactPath ∧ entry.Blocks) := by
      rintro ⟨hmem, rfl, -⟩
      exact hneedle hmem
    rw [or_iff_left hnot]

theorem get_matchArtifacts (needles : List String) {entry : IntakeQuarantineEntry}
    {found : JsMap String IntakeQuarantineEntry} (hentry : Coherent entry)
    (hfound : AllCoherent found) (path : String) :
    AllCoherent (matchArtifacts needles found entry) ∧
      (BlockedBy ((matchArtifacts needles found entry).get path) ↔
        BlockedBy (found.get path) ∨ (path ∈ needles ∧ entry.Registers path ∧ entry.Blocks)) := by
  change AllCoherent ((entry.artifactPaths.getD []).foldl (matchArtifact needles entry) found) ∧
    (BlockedBy (((entry.artifactPaths.getD []).foldl (matchArtifact needles entry) found).get path) ↔
      BlockedBy (found.get path) ∨
        (path ∈ needles ∧ path ∈ entry.artifactPaths.getD [] ∧ entry.Blocks))
  induction entry.artifactPaths.getD [] generalizing found with
  | nil => simpa using hfound
  | cons artifactPath rest ih =>
    obtain ⟨hnext, hstep⟩ := get_matchArtifact needles hentry hfound artifactPath path
    obtain ⟨hall, hrest⟩ := ih hnext
    refine ⟨hall, ?_⟩
    rw [List.foldl_cons, hrest, hstep, List.mem_cons]
    tauto

/-- The normalized paths a lookup searches for. -/
def lookupNeedles (cwd : String) (paths : List String) : List String :=
  (paths.map (normalizeQuarantineArtifactPath cwd)).filter (· ≠ "")

variable {cwd path : String}

/-- A lookup denies a path it searches for exactly when some entry that registers it is not
released. -/
theorem findArtifactMatches_denies_iff (hentries : entries.All IntakeQuarantineEntry.Tracked)
    {paths : List String} :
    BlockedBy ((findArtifactMatches cwd entries paths).get path) ↔
      path ∈ lookupNeedles cwd paths ∧ Denied entries path := by
  -- what the loop over the entries has found so far
  have hfold : ∀ (l : List IntakeQuarantineEntry) (found : JsMap String IntakeQuarantineEntry),
      (∀ e ∈ l, Coherent e) → AllCoherent found →
      (BlockedBy ((l.foldl (matchArtifacts (lookupNeedles cwd paths)) found).get path) ↔
        BlockedBy (found.get path) ∨
          (path ∈ lookupNeedles cwd paths ∧ ∃ e ∈ l, e.Registers path ∧ e.Blocks)) := by
    intro l
    induction l with
    | nil => simp
    | cons e rest ih =>
      intro found hl hfound
      obtain ⟨hnext, hstep⟩ := get_matchArtifacts (lookupNeedles cwd paths)
        (hl e (List.mem_cons_self ..)) hfound path
      rw [List.foldl_cons, ih _ (fun e he => hl e (List.mem_cons_of_mem _ he)) hnext, hstep]
      simp only [List.mem_cons, exists_eq_or_imp, and_or_left, or_assoc]
  have hstart : AllCoherent JsMap.empty := fun _ _ hget => by cases hget
  rw [findArtifactMatches, ← lookupNeedles, hfold _ _ hentries.coherent hstart]
  simp only [BlockedBy, JsMap.get_empty, reduceCtorEq, false_and, exists_false, false_or, Denied,
    JsMap.mem_values_iff]
  refine and_congr_right fun _ => ?_
  constructor
  · rintro ⟨e, ⟨id, hget⟩, hblocks⟩
    exact ⟨id, e, hget, hblocks⟩
  · rintro ⟨id, e, hget, hblocks⟩
    exact ⟨e, ⟨id, hget⟩, hblocks⟩

/-! ## Lookup by path or identity -/

/-- A record without identities none of whose paths can be reached any more. -/
def legacyUnreachable (e : IntakeQuarantineEntry) (known : List String) : Bool :=
  e.artifactIdentities.isNone && (e.artifactPaths.getD []).length > 0 &&
    known.isEmpty && !isIntakeSinkConsumableState e.envelope.state

/-- One of the paths or identities asked for is the entry's. -/
def matchesEntry (paths identities : List String) (e : IntakeQuarantineEntry)
    (known : List String) : Bool :=
  (e.artifactPaths.getD []).any (· ∈ paths) || known.any (· ∈ identities)

/-- The match so far against one more entry. -/
def nextMatch (found : Option IntakeQuarantineEntry) (e : IntakeQuarantineEntry)
    (matched : Bool) : Option IntakeQuarantineEntry :=
  if matched then
    match found with
    | none => some e
    | some candidate => some (if outranks e candidate then e else candidate)
  else found

/-- One round of the loop of `findArtifactMatch`. -/
def matchStep (fs : FileSystem) (paths identities : List String)
    (found : Option IntakeQuarantineEntry) (entry : IntakeQuarantineEntry) :
    Except String (Option IntakeQuarantineEntry) := do
  let known ← knownIdentities fs entry
  let id := entry.id
  throwIf (entry.artifactIdentities.isNone && (entry.artifactPaths.getD []).length > 0 &&
      known.isEmpty && !isIntakeSinkConsumableState entry.envelope.state)
    (s!"Legacy intake quarantine entry '{id}' has no reachable artifact identity; " ++
      "refusing artifact access until the held path can be verified")
  let matchesPath := (entry.artifactPaths.getD []).any (· ∈ paths)
  let matchesIdentity := known.any (· ∈ identities)
  if !matchesPath && !matchesIdentity then return found
  else
    match found with
    | none => return some entry
    | some candidate => return some (if outranks entry candidate then entry else candidate)

/-- The identities the lookup checks an entry by, once it did not refuse. -/
def Checked (fs : FileSystem) (e : IntakeQuarantineEntry) (known : List String) : Prop :=
  knownIdentities fs e = .ok known ∧ legacyUnreachable e known = false

section Lookup

variable {fs : FileSystem} {paths identities : List String}

variable {found : Option IntakeQuarantineEntry}

theorem matchStep_eq_ok {next : Option IntakeQuarantineEntry} :
    matchStep fs paths identities found e = .ok next ↔
      ∃ known, Checked fs e known ∧
        next = nextMatch found e (matchesEntry paths identities e known) := by
  simp only [matchStep, bind_eq_ok, throwIf_eq_ok, Checked]
  constructor
  · rintro ⟨known, hknown, _, hlegacy, hnext⟩
    refine ⟨known, ⟨hknown, hlegacy⟩, ?_⟩
    unfold nextMatch matchesEntry
    cases hpath : (e.artifactPaths.getD []).any (· ∈ paths) <;>
      cases hidentity : known.any (· ∈ identities) <;>
      cases found <;>
      · simp only [hpath, hidentity] at hnext
        exact (Except.ok.inj hnext).symm
  · rintro ⟨known, ⟨hknown, hlegacy⟩, rfl⟩
    refine ⟨known, hknown, (), hlegacy, ?_⟩
    unfold nextMatch matchesEntry
    cases hpath : (e.artifactPaths.getD []).any (· ∈ paths) <;>
      cases hidentity : known.any (· ∈ identities) <;>
      cases found <;> rfl

theorem blockedBy_nextMatch (hfound : ∀ c, found = some c → Coherent c) (he : Coherent e)
    (matched : Bool) :
    (∀ c, nextMatch found e matched = some c → Coherent c) ∧
      (BlockedBy (nextMatch found e matched) ↔
        BlockedBy found ∨ (matched = true ∧ e.Blocks)) := by
  unfold nextMatch
  cases matched with
  | false => simpa using hfound
  | true =>
    cases found with
    | none => simpa [BlockedBy] using he
    | some candidate =>
      have hcandidate := hfound candidate rfl
      refine ⟨?_, ?_⟩
      · intro c hc
        obtain rfl := Option.some.inj hc
        exact coherent_better he hcandidate
      · simp only [BlockedBy, if_true, Option.some.injEq, exists_eq_left', true_and]
        rw [blocks_better_iff he hcandidate, or_comm]

/-- Some entry that matches is not released. -/
def BlockingMatch (fs : FileSystem) (paths identities : List String)
    (l : List IntakeQuarantineEntry) : Prop :=
  ∃ e ∈ l, e.Blocks ∧ ∃ known, Checked fs e known ∧
    matchesEntry paths identities e known = true

theorem Checked.unique {known known' : List String} (h : Checked fs e known)
    (h' : Checked fs e known') : known = known' :=
  Except.ok.inj (h.1.symm.trans h'.1)

/-- The loop of `findArtifactMatch`: it comes through when every entry can be checked, and
then blocks exactly on a blocking match. -/
theorem foldlM_matchStep {l : List IntakeQuarantineEntry} (hl : ∀ e ∈ l, Coherent e)
    (hfound : ∀ c, found = some c → Coherent c) {r : Option IntakeQuarantineEntry}
    (h : l.foldlM (matchStep fs paths identities) found = .ok r) :
    (∀ e ∈ l, ∃ known, Checked fs e known) ∧
      (BlockedBy r ↔ BlockedBy found ∨ BlockingMatch fs paths identities l) := by
  induction l generalizing found with
  | nil =>
    obtain rfl := Except.ok.inj h
    simp [BlockingMatch]
  | cons e rest ih =>
    rw [List.foldlM_cons, bind_eq_ok] at h
    obtain ⟨next, hnext, hrun⟩ := h
    obtain ⟨known, hchecked, rfl⟩ := matchStep_eq_ok.1 hnext
    obtain ⟨hcoherent, hblocked⟩ := blockedBy_nextMatch hfound (hl e (List.mem_cons_self ..))
      (matchesEntry paths identities e known)
    obtain ⟨hrest, hiff⟩ := ih (fun e he => hl e (List.mem_cons_of_mem _ he)) hcoherent hrun
    refine ⟨?_, ?_⟩
    · intro x hx
      rcases List.mem_cons.1 hx with rfl | hx
      · exact ⟨known, hchecked⟩
      · exact hrest x hx
    · have hhead : (e.Blocks ∧ ∃ known, Checked fs e known ∧
          matchesEntry paths identities e known = true) ↔
          matchesEntry paths identities e known = true ∧ e.Blocks := by
        constructor
        · rintro ⟨hblocks, known', hchecked', hmatch⟩
          obtain rfl := hchecked.unique hchecked'
          exact ⟨hmatch, hblocks⟩
        · rintro ⟨hmatch, hblocks⟩
          exact ⟨hblocks, known, hchecked, hmatch⟩
      rw [hiff, hblocked]
      simp only [BlockingMatch, List.mem_cons, exists_eq_or_imp, hhead, or_assoc]

theorem foldlM_matchStep_total {l : List IntakeQuarantineEntry}
    (h : ∀ e ∈ l, ∃ known, Checked fs e known) (found : Option IntakeQuarantineEntry) :
    ∃ r, l.foldlM (matchStep fs paths identities) found = .ok r := by
  induction l generalizing found with
  | nil => exact ⟨found, rfl⟩
  | cons e rest ih =>
    obtain ⟨known, hchecked⟩ := h e (List.mem_cons_self ..)
    obtain ⟨r, hr⟩ := ih (fun e he => h e (List.mem_cons_of_mem _ he))
      (nextMatch found e (matchesEntry paths identities e known))
    refine ⟨r, ?_⟩
    rw [List.foldlM_cons, bind_eq_ok]
    exact ⟨_, matchStep_eq_ok.2 ⟨known, hchecked, rfl⟩, hr⟩

/-- The lookup came through and found nothing, or only something released. -/
def Allows (fs : FileSystem) (entries : Entries) (paths identities : List String) : Prop :=
  ∃ found, findArtifactMatch fs entries paths identities = .ok found ∧ ¬ BlockedBy found

/-- A lookup that comes through denies exactly when some entry that matches is not released. -/
theorem findArtifactMatch_denies_iff (hentries : entries.All IntakeQuarantineEntry.Tracked)
    (h : findArtifactMatch fs entries paths identities = .ok found) :
    (∀ e ∈ entries.values, ∃ known, Checked fs e known) ∧
      (BlockedBy found ↔ BlockingMatch fs paths identities entries.values) := by
  obtain ⟨hchecked, hiff⟩ := foldlM_matchStep hentries.coherent (fun _ hc => by cases hc) h
  refine ⟨hchecked, hiff.trans (or_iff_right ?_)⟩
  rintro ⟨e, he, -⟩
  cases he

theorem allows_iff (hentries : entries.All IntakeQuarantineEntry.Tracked) :
    Allows fs entries paths identities ↔
      (∀ e ∈ entries.values, ∃ known, Checked fs e known) ∧
        ¬ BlockingMatch fs paths identities entries.values := by
  constructor
  · rintro ⟨found, hfound, hnot⟩
    obtain ⟨hchecked, hiff⟩ := findArtifactMatch_denies_iff hentries hfound
    exact ⟨hchecked, fun h => hnot (hiff.2 h)⟩
  · rintro ⟨hchecked, hnot⟩
    obtain ⟨found, hfound⟩ :=
      @foldlM_matchStep_total fs paths identities _ hchecked none
    refine ⟨found, hfound, fun h => hnot ?_⟩
    exact (findArtifactMatch_denies_iff hentries hfound).2.1 h

end Lookup

/-! ## The deny list -/

theorem mem_listActiveArtifactPaths :
    path ∈ listActiveArtifactPaths entries ↔ Denied entries path := by
  have hadd : ∀ (more paths : List String),
      path ∈ more.foldl JsSet.add paths ↔ path ∈ paths ∨ path ∈ more := by
    intro more
    induction more with
    | nil => simp
    | cons p rest ih =>
      intro paths
      rw [List.foldl_cons, ih, JsSet.mem_add, List.mem_cons, or_assoc]
  have hfold : ∀ (l : List IntakeQuarantineEntry) (paths : List String),
      path ∈ l.foldl (fun paths entry =>
        if isIntakeSinkConsumableState entry.envelope.state then paths
        else (entry.artifactPaths.getD []).foldl JsSet.add paths) paths ↔
        path ∈ paths ∨ ∃ e ∈ l, e.Registers path ∧ e.Blocks := by
    intro l
    induction l with
    | nil => simp
    | cons e rest ih =>
      intro paths
      rw [List.foldl_cons, ih]
      cases hstate : isIntakeSinkConsumableState e.envelope.state <;>
        simp [hstate, hadd, IntakeQuarantineEntry.Registers, IntakeQuarantineEntry.Blocks, or_assoc]
  rw [listActiveArtifactPaths, hfold]
  simp only [List.not_mem_nil, false_or, Denied, JsMap.mem_values_iff]
  constructor
  · rintro ⟨e, ⟨id, hget⟩, hblocks⟩
    exact ⟨id, e, hget, hblocks⟩
  · rintro ⟨id, e, hget, hblocks⟩
    exact ⟨e, ⟨id, hget⟩, hblocks⟩

theorem not_denied_iff (hentries : entries.All IntakeQuarantineEntry.Tracked) :
    ¬ Denied entries path ↔ ∀ id e, entries.get id = some e → e.Registers path →
      e.status = .releasedRaw ∨ e.status = .releasedSanitized := by
  constructor
  · intro hnot id e hget hregisters
    rw [← (hentries id e hget).2.not_blocks_iff]
    exact fun hblocks => hnot ⟨id, e, hget, hregisters, hblocks⟩
  · rintro hreleased ⟨id, e, hget, hregisters, hblocks⟩
    exact (hentries id e hget).2.not_blocks_iff.2 (hreleased id e hget hregisters) hblocks

/-- By path alone, a blocking match is an entry that denies the path. -/
theorem blockingMatch_path_iff {fs : FileSystem}
    (hchecked : ∀ e ∈ entries.values, ∃ known, Checked fs e known) :
    BlockingMatch fs [path] [] entries.values ↔ Denied entries path := by
  simp only [BlockingMatch, Denied, JsMap.mem_values_iff, matchesEntry]
  constructor
  · rintro ⟨e, ⟨id, hget⟩, hblocks, known, -, hmatch⟩
    refine ⟨id, e, hget, ?_, hblocks⟩
    simpa [IntakeQuarantineEntry.Registers] using hmatch
  · rintro ⟨id, e, hget, hregisters, hblocks⟩
    obtain ⟨known, hknown⟩ := hchecked e ((entries.mem_values_iff e).2 ⟨id, hget⟩)
    refine ⟨e, ⟨id, hget⟩, hblocks, known, hknown, ?_⟩
    simpa [IntakeQuarantineEntry.Registers] using hregisters

/-! ## What keeps the gate -/

variable {e' : IntakeQuarantineEntry}

theorem Retains.blocks_iff (h : Retains e e') :
    e'.Blocks ↔ e.Blocks := by
  rw [IntakeQuarantineEntry.Blocks, h.2, IntakeQuarantineEntry.Blocks]

theorem Retains.registers_iff (h : Retains e e') (path : String) :
    e'.Registers path ↔ e.Registers path := by
  rw [IntakeQuarantineEntry.Registers, h.1.artifactPaths, IntakeQuarantineEntry.Registers]

theorem Retains.checked_iff (h : Retains e e') {fs : FileSystem} {known : List String} :
    Checked fs e' known ↔ Checked fs e known := by
  have hgate : isIntakeSinkConsumableState e'.envelope.state =
      isIntakeSinkConsumableState e.envelope.state := h.2
  rw [Checked, Checked, knownIdentities, knownIdentities, legacyUnreachable, legacyUnreachable,
    h.1.artifactPaths, h.1.artifactIdentities, hgate]

theorem Retains.matchesEntry_eq (h : Retains e e') (paths identities known : List String) :
    matchesEntry paths identities e' known = matchesEntry paths identities e known := by
  rw [matchesEntry, h.1.artifactPaths, matchesEntry]

/-- Maps of retained entries deny the same paths. -/
theorem denied_iff_of_retains {m m' : Entries} (h : m.Rel Retains m') (path : String) :
    Denied m' path ↔ Denied m path := by
  constructor
  · rintro ⟨id, e', hget', hregisters, hblocks⟩
    obtain ⟨e, hget, hretains⟩ := h.get_some_right hget'
    exact ⟨id, e, hget, (hretains.registers_iff path).1 hregisters, hretains.blocks_iff.1 hblocks⟩
  · rintro ⟨id, e, hget, hregisters, hblocks⟩
    obtain ⟨e', hget', hretains⟩ := h.get_some hget
    exact ⟨id, e', hget', (hretains.registers_iff path).2 hregisters,
      hretains.blocks_iff.2 hblocks⟩

/-- Maps of retained entries answer every lookup alike. -/
theorem allows_iff_of_retains {m m' : Entries} (h : m.Rel Retains m')
    (hm : m.All IntakeQuarantineEntry.Tracked) (hm' : m'.All IntakeQuarantineEntry.Tracked)
    (fs : FileSystem) (paths identities : List String) :
    Allows fs m' paths identities ↔ Allows fs m paths identities := by
  rw [allows_iff hm, allows_iff hm']
  simp only [BlockingMatch, JsMap.mem_values_iff]
  refine and_congr ?_ (not_congr ?_)
  · constructor
    · rintro hall e ⟨id, hget⟩
      obtain ⟨e', hget', hretains⟩ := h.get_some hget
      obtain ⟨known, hknown⟩ := hall e' ⟨id, hget'⟩
      exact ⟨known, hretains.checked_iff.1 hknown⟩
    · rintro hall e' ⟨id, hget'⟩
      obtain ⟨e, hget, hretains⟩ := h.get_some_right hget'
      obtain ⟨known, hknown⟩ := hall e ⟨id, hget⟩
      exact ⟨known, hretains.checked_iff.2 hknown⟩
  · constructor
    · rintro ⟨e', ⟨id, hget'⟩, hblocks, known, hknown, hmatch⟩
      obtain ⟨e, hget, hretains⟩ := h.get_some_right hget'
      refine ⟨e, ⟨id, hget⟩, hretains.blocks_iff.1 hblocks, known,
        hretains.checked_iff.1 hknown, ?_⟩
      rwa [← hretains.matchesEntry_eq]
    · rintro ⟨e, ⟨id, hget⟩, hblocks, known, hknown, hmatch⟩
      obtain ⟨e', hget', hretains⟩ := h.get_some hget
      refine ⟨e', ⟨id, hget'⟩, hretains.blocks_iff.2 hblocks, known,
        hretains.checked_iff.2 hknown, ?_⟩
      rwa [hretains.matchesEntry_eq]

/-! ## What a reader has in hand -/

/-- The entries some reader gets from the disk, due ones swept or projected. -/
def Reads (d : Disk) (entries : Entries) : Prop :=
  ∃ store mode atMs, (loadAfterLazySweep store mode atMs d).result = .ok entries

section Read

open Traced

variable {K : Kept} {d : Disk}

theorem triple_loadAfterLazySweep {store : IntakeQuarantineStore} {mode : LazyExpiryReadMode}
    {atMs : JsNumber} (hd : d.Keeps K) :
    Triple (fun s => s = d) (loadAfterLazySweep store mode atMs) (Swept K d)
      (fun m _ => Found K d m) := by
  refine triple_bind (triple_loadLocked hd _) fun m => triple_and fun hm => ?_
  dsimp only
  split
  · exact triple_pure fun _ _ => hm
  · cases mode with
    | projectOnly =>
      refine triple_check ?_
      rintro ⟨projected, expired⟩ hexpire
      obtain ⟨hnodup, hdue⟩ := due_spec atMs m
      obtain ⟨hkeeps, hrel, -, -⟩ := expireEach_spec hm.keeps hnodup hdue hexpire
      exact triple_pure fun _ _ => ⟨hkeeps, Retains.rel_trans hm.retains hrel⟩
    | persistTransition =>
      refine triple_bind (triple_loadLocked hd _) fun m' => triple_and fun hm' => ?_
      exact triple_post (triple_sweepExpired hd hm' atMs) fun _ _ h => h.2

theorem Reads.found (h : Reads d entries) (hd : d.Keeps K) :
    Found K d entries := by
  obtain ⟨store, mode, atMs, hresult⟩ := h
  exact (triple_loadAfterLazySweep hd d rfl).2 entries hresult

end Read

/-! ## The views agree -/

/-- A path that is its own normalized form is searched for as it is. -/
theorem lookupNeedles_singleton (h : normalizeQuarantineArtifactPath cwd path = path) :
    lookupNeedles cwd [path] = [path] := by
  have hne : path ≠ "" := by
    rintro rfl
    obtain ⟨rest, hrest⟩ := JsString.isAbsolute_resolvePath cwd (JsString.trim "")
    rw [normalizeQuarantineArtifactPath] at h
    rw [h] at hrest
    cases hrest
  simp [lookupNeedles, h, hne]

theorem mem_lookupNeedles {paths : List String}
    (h : normalizeQuarantineArtifactPath cwd path = path) (hmem : path ∈ paths) :
    path ∈ lookupNeedles cwd paths := by
  have hsingle : path ∈ lookupNeedles cwd [path] := by simp [lookupNeedles_singleton h]
  simp only [lookupNeedles, List.mem_filter, List.mem_map] at hsingle ⊢
  exact ⟨⟨path, hmem, h⟩, hsingle.2⟩

theorem anchorsLiveArtifact_of_blocks (hregisters : e.Registers path) (hblocks : e.Blocks) :
    anchorsLiveArtifact e = true := by
  have hpos : 0 < (e.artifactPaths.getD []).length := List.length_pos_of_mem hregisters
  have hstate : isIntakeSinkConsumableState e.envelope.state = false := hblocks
  simp [anchorsLiveArtifact, hstate, hpos]

/-- Pruning drops nothing that denies a path. -/
theorem denied_pruneTerminalHistory (hentries : entries.All IntakeQuarantineEntry.Tracked)
    (path : String) :
    Denied (pruneTerminalHistory entries) path ↔ Denied entries path := by
  constructor
  · rintro ⟨id, e, hget, hdenies⟩
    exact ⟨id, e, get_of_get_pruneTerminalHistory hget, hdenies⟩
  · rintro ⟨id, e, hget, hregisters, hblocks⟩
    have hanchors := anchorsLiveArtifact_of_blocks hregisters hblocks
    exact ⟨id, e, get_pruneTerminalHistory_of_anchors hentries hget hanchors, hregisters, hblocks⟩

/-- The disk a hold leaves denies what the disk it found denied. -/
theorem KeepsAnchors.denied {d d' : Disk} (h : KeepsAnchors d d')
    (hdenied : Denied d.entries path) : Denied d'.entries path := by
  obtain ⟨id, e, hget, hregisters, hblocks⟩ := hdenied
  have hanchors := anchorsLiveArtifact_of_blocks hregisters hblocks
  obtain ⟨e', hget', hretains⟩ := h id e hget hanchors
  exact ⟨id, e', hget', (hretains.registers_iff path).2 hregisters, hretains.blocks_iff.2 hblocks⟩

/-- **The views of the gate agree.** Whatever calls were made, and whoever reads: a path that is
its own normalized form is not blocked by either lookup exactly when the deny list leaves it
out, exactly when every entry that registers it is released. Another order of the same entries
gives the same answers, and neither pruning nor a hold lifts a denial. -/
theorem gate_views_agree {d : Disk} (h : (storeSystem fun _ => True).Reachable d)
    {fs : FileSystem} {path : String}
    (hpath : normalizeQuarantineArtifactPath fs.cwd path = path) {entries : Entries}
    (hread : Reads d entries) :
    (∀ paths, path ∈ paths →
        (¬ BlockedBy ((findArtifactMatches fs.cwd entries paths).get path) ↔
          path ∉ listActiveArtifactPaths entries)) ∧
      (∀ found, findArtifactMatch fs entries (lookupNeedles fs.cwd [path]) [] = .ok found →
        (¬ BlockedBy found ↔ path ∉ listActiveArtifactPaths entries)) ∧
      (path ∉ listActiveArtifactPaths entries ↔
        ∀ id e, entries.get id = some e → e.Registers path →
          e.status = .releasedRaw ∨ e.status = .releasedSanitized) ∧
      (∀ entries' : Entries, (∀ id, entries'.get id = entries.get id) →
        (path ∈ listActiveArtifactPaths entries' ↔ path ∈ listActiveArtifactPaths entries) ∧
          (∀ paths, BlockedBy ((findArtifactMatches fs.cwd entries' paths).get path) ↔
            BlockedBy ((findArtifactMatches fs.cwd entries paths).get path)) ∧
          ∀ paths identities,
            Allows fs entries' paths identities ↔ Allows fs entries paths identities) ∧
      (Denied (pruneTerminalHistory entries) path ↔ Denied entries path) ∧
      ∀ (c : Call) input, c.operation = .hold input → ∀ d' ∈ (c.run d).written,
        Denied d.entries path → Denied d'.entries path := by
  have hd := reachable_keeps (K := Kept.states) (fun c _ => c.respects_states) h
  have hentries : entries.All IntakeQuarantineEntry.Tracked := (hread.found hd).keeps
  refine ⟨?_, ?_, ?_, ?_, denied_pruneTerminalHistory hentries path, ?_⟩
  · intro paths hmem
    rw [findArtifactMatches_denies_iff hentries, mem_listActiveArtifactPaths,
      and_iff_right (mem_lookupNeedles hpath hmem)]
  · intro found hfound
    rw [lookupNeedles_singleton hpath] at hfound
    obtain ⟨hchecked, hiff⟩ := findArtifactMatch_denies_iff hentries hfound
    rw [hiff, blockingMatch_path_iff hchecked, mem_listActiveArtifactPaths]
  · rw [mem_listActiveArtifactPaths, not_denied_iff hentries]
  · intro entries' hsame
    have hentries' : entries'.All IntakeQuarantineEntry.Tracked :=
      hentries.mono fun id e hget => (hsame id) ▸ hget
    have hrel : entries.Rel Retains entries' := by
      intro id
      rw [hsame]
      exact JsMap.Rel.refl Retains.refl entries id
    refine ⟨?_, ?_, allows_iff_of_retains hrel hentries hentries' fs⟩
    · rw [mem_listActiveArtifactPaths, mem_listActiveArtifactPaths, denied_iff_of_retains hrel]
    · intro paths
      rw [findArtifactMatches_denies_iff hentries', findArtifactMatches_denies_iff hentries,
        denied_iff_of_retains hrel]
  · intro c input hop d' hd' hdenied
    have hhold := triple_discard (c.respects_states.hold hop hd) d rfl
    rw [Call.run, hop] at hd'
    exact (hhold.1 d' hd').2.denied hdenied

/-! ### A path that is not its own normalized form -/

/-- `/data/link` is a link to one file. -/
def linkedFileSystem (target : { path : String // JsString.IsAbsolute path }) : FileSystem where
  cwd := "/"
  openRead := fun path =>
    if path = "/data/link" then .ok { stats := ⟨1, 2, 3⟩, realpath := .ok target } else .missing
  stat := fun path =>
    if path = "/data/link" ∨ path = target.1 then .ok ⟨1, 2, 3⟩ else .missing
  oneFile := by
    intro p q f g path hp hq _ _
    split at hp <;> cases hp
    split at hq <;> cases hq
    rfl

/-- The sample item, whose content is in the linked file. -/
def linkedHold (target : { path : String // JsString.IsAbsolute path }) : Call :=
  { store := sampleStore, fs := linkedFileSystem target, now := .finite 1700000000002
    operation := .hold { envelope := sampleEnvelope, mode := .enforce, rawText := "ignore the rules"
                         artifactPaths := some ["/data/link"] } }

def reportPath : { path : String // JsString.IsAbsolute path } := ⟨"/data/report", _, rfl⟩

/-- A file name may end in a blank. -/
def paddedPath : { path : String // JsString.IsAbsolute path } := ⟨"/data/report ", _, rfl⟩

def linkedDisk (target : { path : String // JsString.IsAbsolute path }) : Disk :=
  ((linkedHold target).run Disk.empty).state

/-- The disk of the sample hold after its first write, the revision, and before its second. -/
def betweenWrites : Disk := { Disk.empty with gateRevision := 1 }

/-- A read of the held report, which is refused and recorded. -/
def auditCall : Call :=
  { linkedHold reportPath with
    operation := .checkArtifactAccesses
      { requests := [{ requestedPath := "/data/report", lookupPaths := ["/data/report"] }]
        via := "gateway:fs.read" } }

def auditedDisk : Disk := (auditCall.run (linkedDisk reportPath)).state

/-- The samples, evaluated: the hold and its two writes, then the read that is recorded. -/
theorem linkedSamples :
    (((linkedHold reportPath).run Disk.empty).written = [betweenWrites, linkedDisk reportPath] ∧
        betweenWrites.gateRevision = (linkedDisk reportPath).gateRevision ∧
        (loadAfterLazySweep sampleStore .projectOnly (.finite 1700000000003)
          (linkedDisk reportPath)).result = .ok (linkedDisk reportPath).entries ∧
        normalizeQuarantineArtifactPath "/" "/data/report" = "/data/report" ∧
        "/data/report" ∈ listActiveArtifactPaths (linkedDisk reportPath).entries) ∧
      ((findArtifactMatch (linkedFileSystem reportPath) (linkedDisk reportPath).entries
          ["/data/report"] []).toOption.bind id =
            (linkedDisk reportPath).entries.get "envelope-0001" ∧
        ((linkedDisk reportPath).entries.get "envelope-0001").map (·.envelope.state) =
          some .quarantined) ∧
      auditedDisk.gateRevision = (linkedDisk reportPath).gateRevision ∧
      auditedDisk ∈ (auditCall.run (linkedDisk reportPath)).written ∧
      (loadAfterLazySweep sampleStore .projectOnly (.finite 1700000000003) auditedDisk).result =
        .ok auditedDisk.entries := by
  decide +kernel

theorem linkedHold_written :
    ((linkedHold reportPath).run Disk.empty).written = [betweenWrites, linkedDisk reportPath] :=
  linkedSamples.1.1

theorem linkedDisk_reachable :
    (storeSystem fun _ => True).Reachable (linkedDisk reportPath) := by
  have hwritten : linkedDisk reportPath ∈ ((linkedHold reportPath).run Disk.empty).written := by
    rw [linkedHold_written]
    exact List.mem_cons_of_mem _ (List.mem_singleton_self _)
  exact System.Reachable.next .refl ⟨linkedHold reportPath, trivial, hwritten⟩

theorem linkedDisk_read : Reads (linkedDisk reportPath) (linkedDisk reportPath).entries :=
  ⟨sampleStore, .projectOnly, .finite 1700000000003, linkedSamples.1.2.2.1⟩

/-- A report held under its own name is on the deny list, so the lookup blocks it. -/
theorem gate_views_agree_report :
    BlockedBy ((findArtifactMatches "/" (linkedDisk reportPath).entries
      ["/data/report"]).get "/data/report") := by
  obtain ⟨-, -, -, hpath, hlisted⟩ := linkedSamples.1
  obtain ⟨hlookup, -⟩ := @gate_views_agree _ linkedDisk_reachable (linkedFileSystem reportPath) _
    hpath _ linkedDisk_read
  by_contra hnot
  exact (hlookup _ (List.mem_singleton_self _)).1 hnot hlisted

/-- Registered with its blank, listed with its blank, and looked up without it: the lookup of a
held file finds nothing. -/
theorem paddedPath_views_disagree :
    (storeSystem fun _ => True).Reachable (linkedDisk paddedPath) ∧
      Reads (linkedDisk paddedPath) (linkedDisk paddedPath).entries ∧
      "/data/report " ∈ listActiveArtifactPaths (linkedDisk paddedPath).entries ∧
      ¬ BlockedBy ((findArtifactMatches "/" (linkedDisk paddedPath).entries
        ["/data/report "]).get "/data/report ") := by
  have hsamples : linkedDisk paddedPath ∈ ((linkedHold paddedPath).run Disk.empty).written ∧
      (loadAfterLazySweep sampleStore .projectOnly (.finite 1700000000003)
        (linkedDisk paddedPath)).result = .ok (linkedDisk paddedPath).entries ∧
      "/data/report " ∈ listActiveArtifactPaths (linkedDisk paddedPath).entries ∧
      (findArtifactMatches "/" (linkedDisk paddedPath).entries
        ["/data/report "]).get "/data/report " = none := by decide +kernel
  obtain ⟨hwritten, hread, hlisted, hnone⟩ := hsamples
  refine ⟨System.Reachable.next .refl ⟨linkedHold paddedPath, trivial, hwritten⟩,
    ⟨sampleStore, .projectOnly, .finite 1700000000003, hread⟩, hlisted, ?_⟩
  rintro ⟨e, he, -⟩
  rw [hnone] at he
  cases he

/-! ## The gate revision -/

/-- Along a run the gate revision never goes back, and while it stands every entry is
retained. -/
theorem gateRevision_run {d d' : Disk} (hd : d.Keeps Kept.states)
    (hrun : (storeSystem fun _ => True).Runs d d') :
    d'.Keeps Kept.states ∧ d.gateRevision ≤ d'.gateRevision ∧
      (d'.gateRevision = d.gateRevision → d.entries.Rel Retains d'.entries) := by
  induction hrun with
  | refl => exact ⟨hd, le_refl _, fun _ => JsMap.Rel.refl Retains.refl _⟩
  | @tail d₁ d₂ _ hstep ih =>
    obtain ⟨hd₁, hle, hgate⟩ := ih
    obtain ⟨c, -, hwritten⟩ := hstep
    have hreaches := c.respects_states.reaches hd₁ d₂ hwritten
    refine ⟨hreaches.keeps, hle.trans hreaches.monotone, ?_⟩
    -- an unchanged revision at the end was unchanged at every step
    intro heq
    have hmid : d₁.gateRevision = d.gateRevision := by
      have hmonotone := hreaches.monotone
      omega
    exact Retains.rel_trans (hgate hmid) (hreaches.gate (by omega))

/-- **The gate revision is a sound cache key** for what was read while no operation was between
its two writes: at any later point of the run where the revision is still the same, even between
two writes, every lookup and the deny list answer as before. -/
theorem gateRevision_sound {d d' : Disk} (h : (storeSystem fun _ => True).Reachable d)
    (hrun : (storeSystem fun _ => True).Runs d d') (hsame : d'.gateRevision = d.gateRevision)
    {entries entries' : Entries} (hread : Reads d entries) (hread' : Reads d' entries')
    (fs : FileSystem) :
    (∀ paths identities,
        Allows fs entries' paths identities ↔ Allows fs entries paths identities) ∧
      (∀ paths path, BlockedBy ((findArtifactMatches fs.cwd entries' paths).get path) ↔
        BlockedBy ((findArtifactMatches fs.cwd entries paths).get path)) ∧
      ∀ path, path ∈ listActiveArtifactPaths entries' ↔ path ∈ listActiveArtifactPaths entries := by
  have hd := reachable_keeps (K := Kept.states) (fun c _ => c.respects_states) h
  obtain ⟨hd', -, hgate⟩ := gateRevision_run hd hrun
  have hfound := hread.found hd
  have hfound' := hread'.found hd'
  have hdisk : d.entries.Rel Retains entries' := Retains.rel_trans (hgate hsame) hfound'.retains
  have hdenied : ∀ path, Denied entries' path ↔ Denied entries path := by
    intro path
    rw [denied_iff_of_retains hdisk, denied_iff_of_retains hfound.retains]
  refine ⟨?_, ?_, ?_⟩
  · intro paths identities
    rw [allows_iff_of_retains hdisk hd hfound'.keeps,
      allows_iff_of_retains hfound.retains hd hfound.keeps]
  · intro paths path
    rw [findArtifactMatches_denies_iff hfound'.keeps, findArtifactMatches_denies_iff hfound.keeps,
      hdenied]
  · intro path
    rw [mem_listActiveArtifactPaths, mem_listActiveArtifactPaths, hdenied]

/-- The recorded attempt leaves the revision, and the report stays denied. -/
theorem gateRevision_sound_audited :
    auditedDisk.gateRevision = (linkedDisk reportPath).gateRevision ∧
      "/data/report" ∈ listActiveArtifactPaths auditedDisk.entries := by
  obtain ⟨hsame, hwritten, hloads⟩ := linkedSamples.2.2
  have hrun : (storeSystem fun _ => True).Runs (linkedDisk reportPath) auditedDisk :=
    Relation.ReflTransGen.single ⟨auditCall, trivial, hwritten⟩
  have hread : Reads auditedDisk auditedDisk.entries :=
    ⟨sampleStore, .projectOnly, .finite 1700000000003, hloads⟩
  obtain ⟨-, -, hlist⟩ := gateRevision_sound linkedDisk_reachable hrun hsame linkedDisk_read hread
    (linkedFileSystem reportPath)
  exact ⟨hsame, (hlist _).2 linkedSamples.1.2.2.2.2⟩

/-- Between the two writes of a hold the disk has the new revision and the old entries: a reader
there sees the revision of the finished hold, and a report that is still allowed. -/
theorem gateRevision_between_writes :
    ((linkedHold reportPath).run Disk.empty).written = [betweenWrites, linkedDisk reportPath] ∧
      betweenWrites.gateRevision = (linkedDisk reportPath).gateRevision ∧
      Reads betweenWrites betweenWrites.entries ∧
      Reads (linkedDisk reportPath) (linkedDisk reportPath).entries ∧
      Allows (linkedFileSystem reportPath) betweenWrites.entries ["/data/report"] [] ∧
      ¬ Allows (linkedFileSystem reportPath) (linkedDisk reportPath).entries
        ["/data/report"] [] := by
  have hallowed : ∀ fs paths identities, Allows fs betweenWrites.entries paths identities :=
    fun _ _ _ => ⟨none, rfl, by rintro ⟨e, he, -⟩; cases he⟩
  refine ⟨linkedHold_written, linkedSamples.1.2.1,
    ⟨sampleStore, .projectOnly, .finite 1700000000003, rfl⟩, linkedDisk_read, hallowed _ _ _, ?_⟩
  rintro ⟨found, hfound, hnot⟩
  obtain ⟨hsome, hstate⟩ := linkedSamples.2.1
  rw [hfound] at hsome
  obtain ⟨e, he, hquarantined⟩ := Option.map_eq_some_iff.1 hstate
  refine hnot ⟨e, hsome.trans he, ?_⟩
  rw [IntakeQuarantineEntry.Blocks, hquarantined]
  rfl

end Psfn.Intake
