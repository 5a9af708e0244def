import Psfn.Intake.QuarantineRun

/-!
# Quarantine store — any number of processes over one file

A call is one operation of one process: the store instance it goes through, the file system
and the clock it sees. Mutations are serialised by the write lock, and a process may die
after any of its writes, so a step of the whole system is any one write of any call.

* `store_state_machine` — in every run of admitted calls, every state loads as the entries
  that were persisted, statuses and envelope states match, terminal entries stay terminal,
  discarded and expired ones are empty, and a hold respects the capacity.
* `fractionalEntryId_unloadable` — a redelivery with a fractional `entryId`, which the
  store writes but the loader rejects, makes the file unreadable.
-/

namespace Psfn.Intake

open Psfn.Lib

/-! ## Calls -/

inductive Operation where
  | hold (input : IntakeQuarantineHoldInput)
  | applyDecision (input : IntakeQuarantineDecisionInput)
  | recordRedelivery (input : IntakeQuarantineRedeliveryInput)
  | recordAccessAttempts (inputs : List IntakeQuarantineAccessAttemptInput)
  | checkArtifactAccesses (input : IntakeQuarantineArtifactAccessBatchInput)
  | lazySweep (atMs : JsNumber)

structure Call where
  store     : IntakeQuarantineStore
  fs        : FileSystem
  now       : JsNumber
  operation : Operation

namespace Call

def run (c : Call) : Traced Disk Unit :=
  match c.operation with
  | .hold input => do
    let _ ← hold c.store c.fs c.now input
    return ()
  | .applyDecision input => do
    let _ ← applyDecision c.store c.now input
    return ()
  | .recordRedelivery input => do
    let _ ← recordRedelivery c.store input
    return ()
  | .recordAccessAttempts inputs => do
    let _ ← recordAccessAttempts c.store c.now inputs
    return ()
  | .checkArtifactAccesses input => do
    let _ ← checkArtifactAccesses c.store c.fs c.now input
    return ()
  | .lazySweep atMs => do
    let _ ← lazySweep c.store atMs
    return ()

/-- What the store leaves unchecked of its inputs and the loader then insists on: the held
envelope passes its own validator, times are finite, and an `entryId` is an integer. -/
def Admitted (c : Call) : Prop :=
  match c.operation with
  | .hold input =>
    validateIntakeEnvelope input.envelope.value = .ok input.envelope ∧
      (input.atMs.getD c.now).isFinite = true ∧
      ((input.atMs.getD c.now).add c.store.ttlMs).isFinite = true
  | .applyDecision _ => True
  | .recordRedelivery input => IsEntryId input.entryId
  | .recordAccessAttempts inputs => ∀ input ∈ inputs, (input.atMs.getD c.now).isFinite = true
  | .checkArtifactAccesses input => (input.atMs.getD c.now).isFinite = true
  | .lazySweep _ => True

end Call

/-- The processes over one file, starting without it. -/
def storeSystem (calls : Call → Prop) : System Disk where
  init := Disk.empty
  step d d' := ∃ c, calls c ∧ d' ∈ (c.run d).written

/-! ## Every run -/

section Discard

variable {σ α : Type} {P V : σ → Prop} {Q : α → σ → Prop} {m : Traced σ α}

theorem triple_discard (h : Traced.Triple P m V Q) :
    Traced.Triple P (m >>= fun _ => Pure.pure ()) V (fun _ _ => True) :=
  Traced.triple_bind h fun _ => Traced.triple_pure fun _ _ => trivial

end Discard

/-- What a call must respect for its writes to keep `K`. -/
def Call.Respects (K : Kept) (c : Call) : Prop :=
  match c.operation with
  | .hold input => ∀ artifacts, input.envelope.state = .quarantined →
      holdArtifacts c.fs input.artifactPaths = .ok artifacts →
        K.entry (heldEntry c.store input artifacts (input.atMs.getD c.now))
  | .applyDecision _ => True
  | .recordRedelivery input => ∀ e, K.entry e → checkRedelivery input = .ok () →
      e.status = .releasedRaw ∨ e.status = .releasedSanitized →
        K.entry { e with redelivery := some (redeliveryRecord input) }
  | .recordAccessAttempts inputs => ∀ input ∈ inputs, ∀ p, normalizeAttempt c.now input = .ok p →
      K.attempt p.2
  | .checkArtifactAccesses input => ∀ s, JsString.trim s ≠ "" → JsString.trim input.via ≠ "" →
      K.attempt { path := JsString.sliceTo (JsString.trim s) maxArtifactPathChars
                  via := JsString.sliceTo (JsString.trim input.via) maxAccessAttemptViaChars
                  atMs := input.atMs.getD c.now }
  | .lazySweep _ => True

/-- Every call keeps statuses and envelope states in step. -/
theorem Call.respects_states (c : Call) : c.Respects Kept.states := by
  unfold Call.Respects
  cases c.operation with
  | hold input => exact fun artifacts hstate _ => ⟨rfl, hstate⟩
  | recordRedelivery input => exact fun e he _ _ => ⟨he.envelopeId, he.state⟩
  | recordAccessAttempts inputs => exact fun _ _ _ _ => trivial
  | checkArtifactAccesses input => exact fun _ _ _ => trivial
  | applyDecision input => trivial
  | lazySweep atMs => trivial

/-- Admitted calls also keep every entry acceptable to the loader. -/
theorem Call.Admitted.respects {c : Call} (hc : c.Admitted) : c.Respects Kept.wellFormed := by
  unfold Call.Respects
  unfold Call.Admitted at hc
  cases hop : c.operation with
  | hold input =>
    simp only [hop] at hc
    obtain ⟨henvelope, hatMs, hexpires⟩ := hc
    intro artifacts hstate hartifacts
    exact heldEntry_wellFormed (validateIntakeEnvelope_value_iff.1 henvelope) hstate hatMs hexpires
      hartifacts
  | recordRedelivery input =>
    simp only [hop] at hc
    exact fun e he hcheck hstatus => redeliver_wellFormed he hcheck hc hstatus
  | recordAccessAttempts inputs =>
    simp only [hop] at hc
    exact fun input hinput p hp => normalizeAttempt_spec (hc input hinput) hp
  | checkArtifactAccesses input =>
    simp only [hop] at hc
    exact fun s hs hvia => ⟨JsString.trim_sliceTo_ne_empty hs (by decide),
      JsString.trim_sliceTo_ne_empty hvia (by decide), hc⟩
  | applyDecision input => trivial
  | lazySweep atMs => trivial

section Reach

variable {K : Kept} {c : Call} {d : Disk}

theorem Call.Respects.hold (hc : c.Respects K) {input : IntakeQuarantineHoldInput}
    (hop : c.operation = .hold input) (hd : d.Keeps K) :
    Traced.Triple (fun s => s = d) (Intake.hold c.store c.fs c.now input)
      (fun s => Reaches K d s ∧ KeepsAnchors d s)
      (fun _ s => (heldEntries s.entries).length ≤ c.store.maxHeldItems) := by
  simp only [Call.Respects, hop] at hc
  exact triple_hold hd hc

/-- One call, from a disk that keeps `K`. -/
theorem Call.Respects.reaches (hc : c.Respects K) (hd : d.Keeps K) :
    ∀ d' ∈ (c.run d).written, Reaches K d d' := by
  have hrun : Traced.Triple (fun s => s = d) c.run (Reaches K d) (fun _ _ => True) := by
    unfold Call.run
    cases hop : c.operation with
    | hold input =>
      exact triple_discard (Traced.triple_written (hc.hold hop hd) fun _ => And.left)
    | applyDecision input => exact triple_discard (triple_applyDecision hd)
    | recordRedelivery input =>
      simp only [Call.Respects, hop] at hc
      exact triple_discard (triple_recordRedelivery hd hc)
    | recordAccessAttempts inputs =>
      simp only [Call.Respects, hop] at hc
      exact triple_discard (triple_recordAccessAttempts hd hc)
    | checkArtifactAccesses input =>
      simp only [Call.Respects, hop] at hc
      exact triple_discard (triple_checkArtifactAccesses hd hc)
    | lazySweep atMs => exact triple_discard (triple_lazySweep hd)
  exact (hrun d rfl).1

theorem reachable_keeps {calls : Call → Prop} (hcalls : ∀ c, calls c → c.Respects K)
    (h : (storeSystem calls).Reachable d) : d.Keeps K := by
  refine System.invariant (I := Disk.Keeps K) ?_ ?_ h
  · intro id e hget
    cases hget
  · rintro d d' hd ⟨c, hc, hwritten⟩
    exact ((hcalls c hc).reaches hd d' hwritten).keeps

end Reach

/-- A disk of well-formed entries loads as the entries that were persisted. -/
theorem Disk.Keeps.load {d : Disk} (h : d.Keeps Kept.wellFormed) (filePath : String) :
    load filePath d.file = .ok d.entries := by
  cases hp : d.persisted with
  | none => simp [Disk.file, Disk.entries, hp, Intake.load]
  | some entries =>
    have hentries : d.entries = entries := by rw [Disk.entries, hp]; rfl
    rw [Disk.Keeps, hentries] at h
    rw [Disk.file, hp, hentries]
    exact load_file h

/-- **The store as a state machine.** In every state a run of admitted calls can leave, the
file is accepted by the next load as the entries that were persisted; every entry's status
matches its envelope's state; discarded and expired entries carry no text; no later write
takes an entry out of a terminal status; and after a hold no more entries are held than its
store allows. -/
theorem store_state_machine {d : Disk} (h : (storeSystem Call.Admitted).Reachable d) :
    (∀ filePath, load filePath d.file = .ok d.entries) ∧
      (∀ id e, d.entries.get id = some e →
        e.id = id ∧ (e.status = .held ↔ e.envelope.state = .quarantined) ∧
          e.envelope.state = e.status.envelopeState ∧
          (e.status = .discarded ∨ e.status = .expired → e.Scrubbed)) ∧
      (∀ c : Call, c.Admitted → ∀ d' ∈ (c.run d).written, ∀ id e e',
        d.entries.get id = some e → e.status ≠ .held → d'.entries.get id = some e' →
          e'.status = e.status) ∧
      (∀ (c : Call) input entry, c.Admitted → c.operation = .hold input →
        (hold c.store c.fs c.now input d).result = .ok entry →
          (heldEntries (hold c.store c.fs c.now input d).state.entries).length ≤
            c.store.maxHeldItems) := by
  have hd := reachable_keeps (K := Kept.wellFormed) (fun _ hc => hc.respects) h
  refine ⟨hd.load, ?_, ?_, ?_⟩
  · intro id e hget
    obtain ⟨hid, he⟩ := hd id e hget
    refine ⟨hid, ?_, he.state, he.scrubbed⟩
    rw [he.state]
    cases e.status <;> simp [IntakeQuarantineEntryStatus.envelopeState]
  · intro c hc d' hd' id e e' he hterminal he'
    exact (hc.respects.reaches hd d' hd').terminal id e e' he he' hterminal
  · intro c input entry hc hop hresult
    exact ((hc.respects.hold hop hd) d rfl).2 entry hresult

/-! ## A run -/

def sampleEnvelope : IntakeEnvelope where
  id := "envelope-0001"
  sourceClass := .webFetch
  provenance := [{ kind := .source .webFetch, ref := "https://example.test/page"
                   atMs := .finite 1700000000000 }]
  sourceRiskTier := .untrusted
  contentRef := { store := "intake-quarantine", ref := "item-1" }
  extractedFields := JsMap.empty
  riskLabels := [.injectionIndirect]
  scores := JsMap.empty
  decision := some { action := .quarantine, reason := "indirect injection", decidedBy := .screening
                     decidedAtMs := .finite 1700000000001 }
  state := .quarantined
  createdAtMs := .finite 1700000000000
  transitions :=
    [{ source := .received, target := .screened, atMs := .finite 1700000000001
       actor := "gateway:l1", reason := "rules" },
     { source := .screened, target := .quarantined, atMs := .finite 1700000000001
       actor := "gateway:l1", reason := "rules" }]

def sampleStore : IntakeQuarantineStore where
  filePath := "state/intake-quarantine.json"
  itemTtlHours := .finite 72
  maxHeldItems := 1
  positive := by decide
  onExpired := fun _ _ _ => .ok ()

/-- No file is where an artifact was. -/
def emptyFileSystem : FileSystem where
  cwd := "/"
  openRead := fun _ => .missing
  stat := fun _ => .missing
  oneFile := by
    intro p q f g path hopen
    cases hopen

def sampleCall (operation : Operation) : Call :=
  { store := sampleStore, fs := emptyFileSystem, now := .finite 1700000000002, operation }

def sampleHold : Call :=
  sampleCall (.hold { envelope := sampleEnvelope, mode := .enforce, rawText := "ignore the rules" })

def sampleRelease : Call :=
  sampleCall (.applyDecision { id := "envelope-0001", action := .releaseRaw
                               actor := "operator:garden", reason := "reviewed" })

def sampleRedelivery (entryId : JsNumber) : Call :=
  sampleCall (.recordRedelivery
    { id := "envelope-0001", delivered := true, attemptedAtMs := .finite 1700000000003
      entryId := some (some entryId) })

def heldDisk : Disk := (sampleHold.run Disk.empty).state

def releasedDisk : Disk := (sampleRelease.run heldDisk).state

/-- Every sample call writes the disk it leaves, and after a fractional `entryId` the file does not
load. -/
theorem samples_written :
    heldDisk ∈ (sampleHold.run Disk.empty).written ∧
      releasedDisk ∈ (sampleRelease.run heldDisk).written ∧
      ((sampleRedelivery (.finite 7)).run releasedDisk).state ∈
        ((sampleRedelivery (.finite 7)).run releasedDisk).written ∧
      ((sampleRedelivery (.finite (3 / 2))).run releasedDisk).state ∈
        ((sampleRedelivery (.finite (3 / 2))).run releasedDisk).written ∧
      ((sampleRedelivery (.finite (3 / 2))).run releasedDisk).result = .ok () ∧
      (load sampleStore.filePath
        ((sampleRedelivery (.finite (3 / 2))).run releasedDisk).state.file).toOption = none ∧
      ((JsNumber.finite 1700000000002).add sampleStore.ttlMs).isFinite = true := by
  decide +kernel

theorem sampleHold_admitted : sampleHold.Admitted := by
  obtain ⟨-, -, -, -, -, -, hexpires⟩ := samples_written
  exact ⟨rfl, rfl, hexpires⟩

theorem releasedDisk_reachable {calls : Call → Prop} (hhold : calls sampleHold)
    (hrelease : calls sampleRelease) : (storeSystem calls).Reachable releasedDisk := by
  obtain ⟨hheld, hreleased, -⟩ := samples_written
  have hreachable : (storeSystem calls).Reachable heldDisk :=
    System.Reachable.next .refl ⟨sampleHold, hhold, hheld⟩
  exact hreachable.next ⟨sampleRelease, hrelease, hreleased⟩

/-- The released item's redelivery names a session entry by an integer: the file loads. -/
theorem store_state_machine_redelivered :
    (storeSystem Call.Admitted).Reachable ((sampleRedelivery (.finite 7)).run releasedDisk).state ∧
      load sampleStore.filePath ((sampleRedelivery (.finite 7)).run releasedDisk).state.file =
        .ok ((sampleRedelivery (.finite 7)).run releasedDisk).state.entries := by
  have hreachable : (storeSystem Call.Admitted).Reachable
      ((sampleRedelivery (.finite 7)).run releasedDisk).state := by
    obtain ⟨-, -, hwritten, -⟩ := samples_written
    refine (releasedDisk_reachable sampleHold_admitted trivial).next
      ⟨sampleRedelivery (.finite 7), ?_, hwritten⟩
    rintro n hn
    obtain rfl := Option.some.inj (Option.some.inj hn)
    decide
  exact ⟨hreachable, (store_state_machine hreachable).1 _⟩

/-- A redelivery with a fractional `entryId` is written, and then no process can load the file. -/
theorem fractionalEntryId_unloadable :
    (storeSystem fun _ => True).Reachable
        ((sampleRedelivery (.finite (3 / 2))).run releasedDisk).state ∧
      ((sampleRedelivery (.finite (3 / 2))).run releasedDisk).result = .ok () ∧
      ¬ ∃ entries, load sampleStore.filePath
        ((sampleRedelivery (.finite (3 / 2))).run releasedDisk).state.file = .ok entries := by
  obtain ⟨-, -, -, hwritten, hresult, hfails, -⟩ := samples_written
  refine ⟨?_, hresult, ?_⟩
  · exact (releasedDisk_reachable trivial trivial).next
      ⟨sampleRedelivery (.finite (3 / 2)), trivial, hwritten⟩
  · rintro ⟨entries, hload⟩
    rw [hload] at hfails
    cases hfails

end Psfn.Intake
