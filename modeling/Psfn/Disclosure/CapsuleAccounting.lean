import Psfn.Lib.Transition
import Psfn.Disclosure.CapsuleCustody

/-!
# Share capsules — the accounting of uses

Any number of processes mint, replay and revoke over one custody file. Each locked mutation
is one step; a replay is two, and anything may happen in between.

* `CustodyInvariant` — counts, caps and coverage, in every reachable state.
* `Continues`        — how one record may change along a run.
* `capsule_use_accounting` — the accounting of uses over every run.
-/

namespace Psfn.Disclosure

open Psfn.Lib

variable {η : Type} [DecidableEq η] {platform : Platform η}

/-! ## Any interleaving of processes -/

/-- A replay between its two halves. -/
structure InFlight (η : Type) where
  input  : AuthorizeReplayInput
  state  : ShareCapsuleCustodyState η
  reason : String

/-- The file, the replays of all processes that are between their two halves, and every replay
authorized so far, in the order of their commits. -/
structure Custody (η : Type) where
  file       : CustodyFile η
  inFlight   : List (InFlight η)
  authorized : List AuthorizeReplayInput

def CapsuleReplayDecision.isAuthorized : CapsuleReplayDecision → Bool
  | .authorized _ _ => true
  | .denied _ _ => false

/-- One step of any process. An operation that throws changes nothing and is no step; a
process may die between the two halves of a replay. -/
inductive CustodyStep (platform : Platform η) : Custody η → Custody η → Prop
  | mint (w : Custody η) (store : ShareCapsuleCustodyStore) (capsule : ApprovedShareCapsule η)
      (mintedAtMs : JsNumber) (record : ShareCapsuleCustodyRecord η) (file' : CustodyFile η)
      (h : putApprovedCapsule platform store w.file capsule mintedAtMs = .ok (record, file')) :
      CustodyStep platform w { w with file := file' }
  | judge (w : Custody η) (store : ShareCapsuleCustodyStore) (input : AuthorizeReplayInput)
      (state : ShareCapsuleCustodyState η) (reason : String)
      (h : judgeReplay platform store w.file input = .ok (.inr (state, reason))) :
      CustodyStep platform w { w with inFlight := w.inFlight ++ [⟨input, state, reason⟩] }
  | consume (w : Custody η) (store : ShareCapsuleCustodyStore) (before after : List (InFlight η))
      (replay : InFlight η) (decision : CapsuleReplayDecision) (file' : CustodyFile η)
      (hreplay : w.inFlight = before ++ replay :: after)
      (h : consumeReplay platform store w.file replay.input replay.state replay.reason
        = (decision, file')) :
      CustodyStep platform w
        { file := file', inFlight := before ++ after,
          authorized := if decision.isAuthorized then w.authorized ++ [replay.input]
            else w.authorized }
  | abandon (w : Custody η) (before after : List (InFlight η)) (replay : InFlight η)
      (hreplay : w.inFlight = before ++ replay :: after) :
      CustodyStep platform w { w with inFlight := before ++ after }
  | revoke (w : Custody η) (store : ShareCapsuleCustodyStore) (input : RevokeCapsuleInput)
      (capsule : ApprovedShareCapsule η) (file' : CustodyFile η)
      (h : revokeCapsule platform store w.file input = .ok (capsule, file')) :
      CustodyStep platform w { w with file := file' }

def custodySystem (platform : Platform η) : System (Custody η) where
  init := ⟨[], [], []⟩
  step := CustodyStep platform

/-- The replays authorized for one capsule. -/
def Custody.replays (w : Custody η) (capsuleId : String) : List AuthorizeReplayInput :=
  w.authorized.filter fun a => a.capsuleId = capsuleId

/-- What holds of the file and of the replays, whatever has happened. -/
structure CustodyInvariant (platform : Platform η) (w : Custody η) : Prop where
  settled    : ∀ r ∈ w.file, Settled platform r
  nodup      : (w.file.map (·.capsuleId)).Nodup
  counted    : ∀ r ∈ w.file, (w.replays r.capsuleId).length = r.useCount
  capped     : ∀ r ∈ w.file, ∀ cap, r.capsule.expiry.maxUseCount = some cap →
    (count r.useCount).le cap = true
  authorized : ∀ a ∈ w.authorized,
    ∃ r ∈ w.file, r.capsuleId = a.capsuleId ∧ Covers platform r.capsule a
  inFlight   : ∀ f ∈ w.inFlight,
    ∃ r ∈ w.file, r.capsuleId = f.input.capsuleId ∧ Covers platform r.capsule f.input

/-- How a record may change: its approval never does, its count only grows, and a revocation
stays. -/
structure Continues (r r' : ShareCapsuleCustodyRecord η) : Prop where
  id_eq   : r'.capsuleId = r.capsuleId
  terms   : r'.capsule = { r.capsule with revocation := r'.capsule.revocation }
  count   : r.useCount ≤ r'.useCount
  revoked : r.capsule.revocation.revoked = true → r'.capsule.revocation.revoked = true

/-! ## Files -/

omit [DecidableEq η] in
theorem Continues.refl (r : ShareCapsuleCustodyRecord η) : Continues r r :=
  ⟨rfl, rfl, le_rfl, id⟩

omit [DecidableEq η] in
theorem Continues.trans {a b c : ShareCapsuleCustodyRecord η} (hab : Continues a b)
    (hbc : Continues b c) : Continues a c where
  id_eq := hbc.id_eq.trans hab.id_eq
  terms := by rw [hbc.terms, hab.terms]
  count := hab.count.trans hbc.count
  revoked := hbc.revoked ∘ hab.revoked

omit [DecidableEq η] in
theorem Continues.covers {r r' : ShareCapsuleCustodyRecord η} (h : Continues r r')
    {input : AuthorizeReplayInput} (hc : Covers platform r.capsule input) :
    Covers platform r'.capsule input := by
  rw [h.terms]
  exact ⟨hc.content, hc.destination, hc.sensitivity⟩

omit [DecidableEq η] in
/-- Replacing a record keeps the others, and continues the one it replaces. -/
theorem replaceRecord_continues {file : CustodyFile η} {old new : ShareCapsuleCustodyRecord η}
    (hnodup : (file.map (·.capsuleId)).Nodup) (hold : old ∈ file) (h : Continues old new)
    {r : ShareCapsuleCustodyRecord η} (hr : r ∈ file) :
    ∃ r' ∈ replaceRecord file new, Continues r r' := by
  by_cases hid : r.capsuleId = new.capsuleId
  · have hsame : r = old := List.inj_on_of_nodup_map hnodup hr hold (hid.trans h.id_eq)
    exact ⟨new, List.mem_map.2 ⟨r, hr, if_pos hid⟩, hsame ▸ h⟩
  · exact ⟨r, List.mem_map.2 ⟨r, hr, if_neg hid⟩, Continues.refl r⟩

omit [DecidableEq η] in
theorem mem_replaceRecord {file : CustodyFile η} {new r : ShareCapsuleCustodyRecord η}
    (h : r ∈ replaceRecord file new) : r = new ∨ r ∈ file ∧ r.capsuleId ≠ new.capsuleId := by
  obtain ⟨old, hold, rfl⟩ := List.mem_map.1 h
  split
  · exact .inl rfl
  · rename_i hne
    exact .inr ⟨hold, hne⟩

omit [DecidableEq η] in
theorem replaceRecord_ids (file : CustodyFile η) (new : ShareCapsuleCustodyRecord η) :
    (replaceRecord file new).map (·.capsuleId) = file.map (·.capsuleId) := by
  rw [replaceRecord, List.map_map]
  refine List.map_congr_left fun r _ => ?_
  simp only [Function.comp_apply]
  split
  · rename_i h
    exact h.symm
  · rfl

/-! ## Caps -/

/-- The cap of a settled capsule is an integer, at least one. -/
theorem Settled.cap {r : ShareCapsuleCustodyRecord η} (h : Settled platform r) {cap : JsNumber}
    (hcap : r.capsule.expiry.maxUseCount = some cap) : ∃ k : Int, cap = .finite k ∧ 1 ≤ k := by
  have hparsed := (parseApprovedShareCapsule_eq_some platform).1 h.parsed
  exact parseCapsuleExpiry_cap platform hparsed.2.2.2.2.2.2.2.2.2.2.2.2.1 hcap

/-- A count below an integer cap stays within it when one is added. -/
theorem count_succ_le {n : Nat} {k : Int} (h : JsNumber.le (.finite k) (count n) = false) :
    (count (n + 1)).le (.finite k) = true := by
  simp only [count, JsNumber.le, decide_eq_false_iff_not, decide_eq_true_eq] at h ⊢
  have hlt : ¬ k ≤ (n : Int) := by exact_mod_cast h
  have hle : ((n + 1 : Nat) : Int) ≤ k := by omega
  exact_mod_cast hle

/-! ## Every step keeps the invariant -/

omit [DecidableEq η] in
/-- A new file in which every record goes on keeps the coverage of all replays. -/
theorem coverage_continues {file file' : CustodyFile η}
    (hfile : ∀ r ∈ file, ∃ r' ∈ file', Continues r r') {input : AuthorizeReplayInput}
    (hinput : ∃ r ∈ file, r.capsuleId = input.capsuleId ∧ Covers platform r.capsule input) :
    ∃ r ∈ file', r.capsuleId = input.capsuleId ∧ Covers platform r.capsule input := by
  obtain ⟨r, hr, hid, hcovers⟩ := hinput
  obtain ⟨r', hr', hcont⟩ := hfile r hr
  exact ⟨r', hr', hcont.id_eq.trans hid, hcont.covers hcovers⟩

theorem mint_invariant {w : Custody η} (h : CustodyInvariant platform w)
    {store : ShareCapsuleCustodyStore} {capsule : ApprovedShareCapsule η} {mintedAtMs : JsNumber}
    {record : ShareCapsuleCustodyRecord η} {file' : CustodyFile η}
    (hput : putApprovedCapsule platform store w.file capsule mintedAtMs = .ok (record, file')) :
    CustodyInvariant platform { w with file := file' } := by
  obtain ⟨rfl, hsettled, hzero, -, hfresh, -⟩ := putApprovedCapsule_spec h.settled hput
  have hkeep : ∀ r ∈ w.file, ∃ r' ∈ w.file ++ [record], Continues r r' :=
    fun r hr => ⟨r, List.mem_append_left _ hr, Continues.refl r⟩
  have hsplit : ∀ {p : ShareCapsuleCustodyRecord η → Prop}, (∀ r ∈ w.file, p r) → p record →
      ∀ r ∈ w.file ++ [record], p r := by
    intro p hold hnew r hr
    rcases List.mem_append.1 hr with hr | hr
    · exact hold r hr
    · exact List.mem_singleton.1 hr ▸ hnew
  refine ⟨hsplit h.settled hsettled, ?_, hsplit h.counted ?_, hsplit h.capped ?_, ?_, ?_⟩
  · rw [List.map_append, List.nodup_append]
    refine ⟨h.nodup, List.nodup_singleton _, ?_⟩
    intro id hid id' hid' heq
    obtain ⟨r, hr, rfl⟩ := List.mem_map.1 hid
    exact hfresh r hr (heq.trans (List.mem_singleton.1 hid'))
  · -- no replay was authorized for an id that was in no file
    rw [hzero, List.length_eq_zero_iff, Custody.replays, List.filter_eq_nil_iff]
    intro a ha heq
    obtain ⟨r, hr, hid, -⟩ := h.authorized a ha
    exact hfresh r hr (hid.trans (by simpa using heq))
  · intro cap hcap
    obtain ⟨k, rfl, hk⟩ := hsettled.cap hcap
    rw [hzero]
    simp only [count, JsNumber.le, decide_eq_true_eq]
    exact_mod_cast (show (0 : Int) ≤ k by omega)
  · exact fun a ha => coverage_continues hkeep (h.authorized a ha)
  · exact fun f hf => coverage_continues hkeep (h.inFlight f hf)

theorem revoke_continues {w : Custody η} (h : CustodyInvariant platform w)
    {r : ShareCapsuleCustodyRecord η} (hr : r ∈ w.file) {capsule : ApprovedShareCapsule η}
    (hrevoked : capsule.revocation.revoked = true)
    (hterms : capsule = { r.capsule with revocation := capsule.revocation }) :
    ∀ r' ∈ w.file, ∃ r'' ∈ replaceRecord w.file { r with capsule := capsule }, Continues r' r'' :=
  have hcont : Continues r { r with capsule := capsule } :=
    ⟨rfl, hterms, le_rfl, fun _ => hrevoked⟩
  fun _ => replaceRecord_continues h.nodup hr hcont

theorem revoke_invariant {w : Custody η} (h : CustodyInvariant platform w)
    {store : ShareCapsuleCustodyStore} {input : RevokeCapsuleInput}
    {capsule : ApprovedShareCapsule η} {file' : CustodyFile η}
    (hrevoke : revokeCapsule platform store w.file input = .ok (capsule, file')) :
    CustodyInvariant platform { w with file := file' } := by
  obtain ⟨r, hr, -, hrevoked, hterms, hsettled, rfl⟩ := revokeCapsule_spec h.settled hrevoke
  have hkeep := revoke_continues h hr hrevoked hterms
  have hsplit : ∀ {p : ShareCapsuleCustodyRecord η → Prop}, (∀ r ∈ w.file, p r) →
      p { r with capsule := capsule } → ∀ r' ∈ replaceRecord w.file { r with capsule := capsule },
        p r' := by
    intro p hold hnew r' hr'
    rcases mem_replaceRecord hr' with rfl | ⟨hr', -⟩
    · exact hnew
    · exact hold r' hr'
  refine ⟨hsplit h.settled hsettled, ?_, hsplit h.counted (h.counted r hr), hsplit h.capped ?_, ?_, ?_⟩
  · rw [replaceRecord_ids]
    exact h.nodup
  · intro cap hcap
    rw [hterms] at hcap
    exact h.capped r hr cap hcap
  · exact fun a ha => coverage_continues hkeep (h.authorized a ha)
  · exact fun f hf => coverage_continues hkeep (h.inFlight f hf)

omit [DecidableEq η] in
theorem replays_append (w : Custody η) (a : AuthorizeReplayInput) (id : String)
    (file : CustodyFile η) (inFlight : List (InFlight η)) :
    ({ file, inFlight, authorized := w.authorized ++ [a] } : Custody η).replays id =
      w.replays id ++ if a.capsuleId = id then [a] else [] := by
  rw [Custody.replays, List.filter_append]
  congr 1
  by_cases h : a.capsuleId = id <;> simp [h]

theorem use_continues {w : Custody η} (h : CustodyInvariant platform w)
    {r : ShareCapsuleCustodyRecord η} (hr : r ∈ w.file) :
    ∀ r' ∈ w.file, ∃ r'' ∈ replaceRecord w.file { r with useCount := r.useCount + 1 },
      Continues r' r'' :=
  have hcont : Continues r { r with useCount := r.useCount + 1 } := ⟨rfl, rfl, Nat.le_succ _, id⟩
  fun _ => replaceRecord_continues h.nodup hr hcont

/-- A use consumed by a replay in flight: the count and the replays grow by the same one. -/
theorem consume_invariant {w : Custody η} (h : CustodyInvariant platform w)
    {before after : List (InFlight η)} {replay : InFlight η}
    (hreplay : w.inFlight = before ++ replay :: after) {r : ShareCapsuleCustodyRecord η}
    (hr : r ∈ w.file) (hid : r.capsuleId = replay.input.capsuleId)
    (hcap : (r.capsule.expiry.maxUseCount.any fun cap => cap.le (count r.useCount)) = false) :
    CustodyInvariant platform
      { file := replaceRecord w.file { r with useCount := r.useCount + 1 },
        inFlight := before ++ after, authorized := w.authorized ++ [replay.input] } := by
  have hkeep := use_continues h hr
  have hmem : replay ∈ w.inFlight := by simp [hreplay]
  have hsub : ∀ f ∈ before ++ after, f ∈ w.inFlight := by
    intro f hf
    rw [hreplay]
    rcases List.mem_append.1 hf with hf | hf
    · exact List.mem_append_left _ hf
    · exact List.mem_append_right _ (List.mem_cons_of_mem _ hf)
  refine ⟨?_, ?_, ?_, ?_, ?_, ?_⟩
  · intro r' hr'
    rcases mem_replaceRecord hr' with rfl | ⟨hr', -⟩
    · exact ⟨(h.settled r hr).parsed, (h.settled r hr).id_eq⟩
    · exact h.settled r' hr'
  · rw [replaceRecord_ids]
    exact h.nodup
  · intro r' hr'
    rw [replays_append, List.length_append]
    rcases mem_replaceRecord hr' with rfl | ⟨hr', hne⟩
    · rw [if_pos hid.symm, h.counted r hr, List.length_singleton]
    · have hother : ¬ replay.input.capsuleId = r'.capsuleId := fun heq => hne (heq.symm.trans hid.symm)
      rw [if_neg hother, h.counted r' hr', List.length_nil, Nat.add_zero]
  · intro r' hr' cap hcap'
    rcases mem_replaceRecord hr' with rfl | ⟨hr', -⟩
    · obtain ⟨k, rfl, -⟩ := (h.settled r hr).cap hcap'
      refine count_succ_le ?_
      rw [show r.capsule.expiry.maxUseCount = some (.finite k) from hcap'] at hcap
      exact hcap
    · exact h.capped r' hr' cap hcap'
  · intro a ha
    rcases List.mem_append.1 ha with ha | ha
    · exact coverage_continues hkeep (h.authorized a ha)
    · rw [List.mem_singleton.1 ha]
      exact coverage_continues hkeep (h.inFlight replay hmem)
  · exact fun f hf => coverage_continues hkeep (h.inFlight f (hsub f hf))

theorem step_invariant {w w' : Custody η} (h : CustodyInvariant platform w)
    (hstep : CustodyStep platform w w') : CustodyInvariant platform w' := by
  cases hstep with
  | mint store capsule mintedAtMs record file' hput => exact mint_invariant h hput
  | judge store input state reason hjudge =>
    refine { h with inFlight := ?_ }
    intro f hf
    rcases List.mem_append.1 hf with hf | hf
    · exact h.inFlight f hf
    · rw [List.mem_singleton.1 hf]
      exact judgeReplay_spec h.settled hjudge
  | consume store before after replay decision file' hreplay hconsume =>
    rcases consumeReplay_spec h.settled hconsume with
      ⟨code, message, rfl, rfl⟩ | ⟨⟨text, n, rfl⟩, r, hr, hid, -, hcap, rfl⟩
    · refine { h with inFlight := fun f hf => h.inFlight f ?_ }
      rw [hreplay]
      rcases List.mem_append.1 hf with hf | hf
      · exact List.mem_append_left _ hf
      · exact List.mem_append_right _ (List.mem_cons_of_mem _ hf)
    · exact consume_invariant h hreplay hr hid hcap
  | abandon before after replay hreplay =>
    refine { h with inFlight := fun f hf => h.inFlight f ?_ }
    rw [hreplay]
    rcases List.mem_append.1 hf with hf | hf
    · exact List.mem_append_left _ hf
    · exact List.mem_append_right _ (List.mem_cons_of_mem _ hf)
  | revoke store input capsule file' hrevoke => exact revoke_invariant h hrevoke

theorem custody_invariant {w : Custody η} (h : (custodySystem platform).Reachable w) :
    CustodyInvariant platform w := by
  refine System.invariant ?_ (fun _ _ => step_invariant) h
  constructor <;> simp [custodySystem]

/-- Along every step each record goes on, and a step that authorizes a replay for a capsule
finds it not revoked. -/
theorem step_continues {w w' : Custody η} (h : CustodyInvariant platform w)
    (hstep : CustodyStep platform w w') :
    (∀ r ∈ w.file, ∃ r' ∈ w'.file, Continues r r') ∧
      ∀ r ∈ w.file, r.capsule.revocation.revoked = true →
        w'.replays r.capsuleId = w.replays r.capsuleId := by
  have hidle : ∀ r ∈ w.file, ∃ r' ∈ w.file, Continues r r' :=
    fun r hr => ⟨r, hr, Continues.refl r⟩
  cases hstep with
  | mint store capsule mintedAtMs record file' hput =>
    obtain ⟨rfl, -⟩ := putApprovedCapsule_spec h.settled hput
    exact ⟨fun r hr => ⟨r, List.mem_append_left _ hr, Continues.refl r⟩, fun _ _ _ => rfl⟩
  | judge store input state reason hjudge => exact ⟨hidle, fun _ _ _ => rfl⟩
  | consume store before after replay decision file' hreplay hconsume =>
    rcases consumeReplay_spec h.settled hconsume with
      ⟨code, message, rfl, rfl⟩ | ⟨⟨text, n, rfl⟩, r, hr, hid, hlive, -, rfl⟩
    · exact ⟨hidle, fun _ _ _ => rfl⟩
    · refine ⟨use_continues h hr, fun r' hr' hrevoked => ?_⟩
      change Custody.replays { file := _, inFlight := _, authorized := w.authorized ++ [replay.input] }
        r'.capsuleId = _
      rw [replays_append, if_neg, List.append_nil]
      intro heq
      have hsame : r' = r := List.inj_on_of_nodup_map h.nodup hr' hr (heq.symm.trans hid.symm)
      rw [hsame, hlive] at hrevoked
      exact Bool.noConfusion hrevoked
  | abandon before after replay hreplay => exact ⟨hidle, fun _ _ _ => rfl⟩
  | revoke store input capsule file' hrevoke =>
    obtain ⟨r, hr, -, hrevoked, hterms, -, rfl⟩ := revokeCapsule_spec h.settled hrevoke
    exact ⟨revoke_continues h hr hrevoked hterms, fun _ _ _ => rfl⟩

/-- Along every run each record goes on. -/
theorem runs_continues {w w' : Custody η} (h : CustodyInvariant platform w)
    (hrun : (custodySystem platform).Runs w w') {r : ShareCapsuleCustodyRecord η} (hr : r ∈ w.file) :
    ∃ r' ∈ w'.file, Continues r r' := by
  refine System.stable (P := fun t => ∃ r' ∈ t.file, Continues r r')
    (fun _ _ => step_invariant) ?_ h ⟨r, hr, Continues.refl r⟩ hrun
  rintro s t hs ⟨r', hr', hcont⟩ hstep
  obtain ⟨r'', hr'', hcont'⟩ := (step_continues hs hstep).1 r' hr'
  exact ⟨r'', hr'', hcont.trans hcont'⟩

/-- After the commit of a revocation no run authorizes another replay. -/
theorem runs_revoked {w w' : Custody η} (h : CustodyInvariant platform w)
    (hrun : (custodySystem platform).Runs w w') {r : ShareCapsuleCustodyRecord η} (hr : r ∈ w.file)
    (hrevoked : r.capsule.revocation.revoked = true) :
    w'.replays r.capsuleId = w.replays r.capsuleId := by
  suffices hboth : (∃ r' ∈ w'.file, Continues r r') ∧
      w'.replays r.capsuleId = w.replays r.capsuleId from hboth.2
  refine System.stable (P := fun t => (∃ r' ∈ t.file, Continues r r') ∧
    t.replays r.capsuleId = w.replays r.capsuleId)
    (fun _ _ => step_invariant) ?_ h ⟨⟨r, hr, Continues.refl r⟩, rfl⟩ hrun
  rintro s t hs ⟨⟨r', hr', hcont⟩, heq⟩ hstep
  obtain ⟨hgoes, hquiet⟩ := step_continues hs hstep
  obtain ⟨r'', hr'', hcont'⟩ := hgoes r' hr'
  refine ⟨⟨r'', hr'', hcont.trans hcont'⟩, ?_⟩
  rw [← hcont.id_eq, hquiet r' hr' (hcont.revoked hrevoked), hcont.id_eq, heq]

/-! ## The accounting -/

omit [DecidableEq η] in
/-- Without collisions the hash determines the content. -/
theorem hashShareContent_injective (hcollision : Function.Injective platform.sha256) :
    Function.Injective (hashShareContent platform) := by
  rintro ⟨body, mediaRefs⟩ ⟨body', mediaRefs'⟩ h
  obtain ⟨-, rfl, rfl⟩ := CanonicalContent.mk.inj (hcollision h)
  rfl

theorem Covers.content_eq (hcollision : Function.Injective platform.sha256)
    {r : ShareCapsuleCustodyRecord η} (hr : Settled platform r) {input : AuthorizeReplayInput}
    (h : Covers platform r.capsule input) : input.content = r.capsule.content := by
  have hparsed := (parseApprovedShareCapsule_eq_some platform).1 hr.parsed
  exact hashShareContent_injective hcollision (h.content.trans hparsed.2.2.2.2.2.2.2.1)

/-- A revocation keeps every count. -/
theorem revokeCapsule_counts {w : Custody η} (h : CustodyInvariant platform w)
    {store : ShareCapsuleCustodyStore} {input : RevokeCapsuleInput}
    {capsule : ApprovedShareCapsule η} {file' : CustodyFile η}
    (hrevoke : revokeCapsule platform store w.file input = .ok (capsule, file')) :
    file'.map (fun r => (r.capsuleId, r.useCount)) =
      w.file.map fun r => (r.capsuleId, r.useCount) := by
  obtain ⟨r, hr, -, -, -, -, rfl⟩ := revokeCapsule_spec h.settled hrevoke
  rw [replaceRecord, List.map_map]
  refine List.map_congr_left fun r' hr' => ?_
  simp only [Function.comp_apply]
  split
  · rename_i hid
    have hsame : r' = r := List.inj_on_of_nodup_map h.nodup hr' hr hid
    rw [hsame]
  · rfl

/-- After a mint the capsules active at its time are within the store's maximum. -/
theorem putApprovedCapsule_active {w : Custody η} (h : CustodyInvariant platform w)
    {filePath : String} {max : Option JsNumber} {store : ShareCapsuleCustodyStore}
    (hstore : createShareCapsuleCustodyStore filePath max = .ok store)
    {capsule : ApprovedShareCapsule η} {mintedAtMs : JsNumber}
    {record : ShareCapsuleCustodyRecord η} {file' : CustodyFile η}
    (hput : putApprovedCapsule platform store w.file capsule mintedAtMs = .ok (record, file')) :
    (count (file'.filter (capsuleIsActive platform mintedAtMs)).length).le store.maxActiveCapsules
      = true := by
  obtain ⟨rfl, -, -, -, -, hroom⟩ := putApprovedCapsule_spec h.settled hput
  obtain ⟨k, hk⟩ : ∃ k : Int, store.maxActiveCapsules = .finite k := by
    simp only [createShareCapsuleCustodyStore, bind_eq_ok, throwIf_eq_ok] at hstore
    obtain ⟨_, hmax, hstore⟩ := hstore
    obtain rfl := Except.ok.inj hstore
    simp only [Bool.or_eq_false_iff, Bool.not_eq_false'] at hmax
    exact JsNumber.exists_int_of_isInteger hmax.1
  rw [hk] at hroom ⊢
  refine JsNumber.le_trans ?_ (count_succ_le hroom)
  have hlen : ((w.file ++ [record]).filter (capsuleIsActive platform mintedAtMs)).length ≤
      (w.file.filter (capsuleIsActive platform mintedAtMs)).length + 1 := by
    rw [List.filter_append, List.length_append]
    exact Nat.add_le_add_left (List.length_filter_le _ [record]) _
  simp only [count, JsNumber.le, decide_eq_true_eq]
  exact_mod_cast hlen

/-- **Share-capsule use accounting.** In every state that any interleaving of mints, replays and
revocations reaches: as many replays were authorized for a capsule as its count says, and no
more than its cap allows; each carried the approved content, to a destination and at a
sensitivity the approval covers. Along every later run the approval stays as it is, and after a
revocation no further replay is authorized. A revocation keeps every count, and a mint leaves no
more active capsules than its store allows. -/
theorem capsule_use_accounting (hcollision : Function.Injective platform.sha256) {w : Custody η}
    (hw : (custodySystem platform).Reachable w) :
    (∀ r ∈ w.file, (w.replays r.capsuleId).length = r.useCount ∧
      ∀ cap, r.capsule.expiry.maxUseCount = some cap → (count r.useCount).le cap = true) ∧
    (∀ a ∈ w.authorized, ∃ r ∈ w.file, r.capsuleId = a.capsuleId ∧
      a.content = r.capsule.content ∧
      destinationPermitted r.capsule.permittedDestinations a.destination = true ∧
      sensitivityOrd a.currentEffectiveSensitivity ≤ sensitivityOrd r.capsule.effectiveSensitivity) ∧
    (∀ w', (custodySystem platform).Runs w w' → ∀ r ∈ w.file,
      (∃ r' ∈ w'.file, Continues r r') ∧
      (r.capsule.revocation.revoked = true → w'.replays r.capsuleId = w.replays r.capsuleId)) ∧
    (∀ store input capsule file',
      revokeCapsule platform store w.file input = .ok (capsule, file') →
      file'.map (fun r => (r.capsuleId, r.useCount)) =
        w.file.map fun r => (r.capsuleId, r.useCount)) ∧
    (∀ filePath max store capsule mintedAtMs record file',
      createShareCapsuleCustodyStore filePath max = .ok store →
      putApprovedCapsule platform store w.file capsule mintedAtMs = .ok (record, file') →
      (count (file'.filter (capsuleIsActive platform mintedAtMs)).length).le store.maxActiveCapsules
        = true) := by
  have h := custody_invariant hw
  refine ⟨fun r hr => ⟨h.counted r hr, h.capped r hr⟩, ?_, ?_, ?_, ?_⟩
  · intro a ha
    obtain ⟨r, hr, hid, hcovers⟩ := h.authorized a ha
    exact ⟨r, hr, hid, hcovers.content_eq hcollision (h.settled r hr), hcovers.destination,
      hcovers.sensitivity⟩
  · intro w' hrun r hr
    exact ⟨runs_continues h hrun hr, runs_revoked h hrun hr⟩
  · intro store input capsule file' hrevoke
    exact revokeCapsule_counts h hrevoke
  · intro filePath max store capsule mintedAtMs record file' hstore hput
    exact putApprovedCapsule_active h hstore hput

/-- A platform whose digest is the content itself. -/
def plainPlatform : Platform CanonicalContent where
  dateParse s := if s = "2026-03-01T00:00:00.000Z" then .finite 1772323200000 else .nan
  sha256 := id
  numberText n := if n = .finite 2 then "2" else "3"

def sampleCapsule : ApprovedShareCapsule CanonicalContent where
  capsuleId := "capsule-1"
  candidateId := "candidate-1"
  content := ⟨"hello", ["media-1"]⟩
  contentHash := ⟨1, "hello", ["media-1"]⟩
  permittedDestinations := [{ kind := .publication }]
  effectiveSensitivity := .personal
  provenanceRefs := []
  subjectContactIds := []
  approval := ⟨"operator", "2026-03-01T00:00:00.000Z"⟩
  expiry := { maxUseCount := some (.finite 2) }
  revocation := { revoked := false }

def sampleRecord (useCount : Nat) : ShareCapsuleCustodyRecord CanonicalContent :=
  ⟨"capsule-1", sampleCapsule, useCount, .finite 1772323200000⟩

def sampleReplay : InFlight CanonicalContent where
  input := ⟨"capsule-1", ⟨"hello", ["media-1"]⟩, .publication, "2026-03-01T00:00:00.000Z", .personal⟩
  state := ⟨sampleCapsule, 0⟩
  reason := "exact-replay of approved content to a permitted destination"

/-- Two processes judge a replay against the same count; one of them consumes a use. -/
theorem sampleReplay_accounting :
    ∃ w : Custody CanonicalContent, (custodySystem plainPlatform).Reachable w ∧
      w.file = [sampleRecord 1] ∧ w.authorized = [sampleReplay.input] ∧
      (w.replays "capsule-1").length = 1 := by
  let store : ShareCapsuleCustodyStore := ⟨"share-capsules.json", .finite 3⟩
  have hinit : (custodySystem plainPlatform).Reachable ⟨[], [], []⟩ := Relation.ReflTransGen.refl
  have hminted : (custodySystem plainPlatform).Reachable ⟨[sampleRecord 0], [], []⟩ :=
    hinit.next (.mint _ store sampleCapsule (.finite 1772323200000) (sampleRecord 0) _ rfl)
  have hjudged : (custodySystem plainPlatform).Reachable
      ⟨[sampleRecord 0], [sampleReplay, sampleReplay], []⟩ :=
    (hminted.next (.judge _ store sampleReplay.input _ _ rfl)).next
      (.judge _ store sampleReplay.input _ _ rfl)
  have hconsumed : (custodySystem plainPlatform).Reachable
      ⟨[sampleRecord 1], [sampleReplay], [sampleReplay.input]⟩ :=
    hjudged.next (.consume _ store [] [sampleReplay] sampleReplay (.authorized _ 1) _ rfl rfl)
  have hlate : (custodySystem plainPlatform).Reachable
      ⟨[sampleRecord 1], [], [sampleReplay.input]⟩ :=
    hconsumed.next (.consume _ store [] [] sampleReplay
      (.denied (.capsule .useCountExhausted) _) _ rfl rfl)
  have haccount := (capsule_use_accounting (fun _ _ h => h) hlate).1 (sampleRecord 1)
    (List.mem_singleton.2 rfl)
  exact ⟨_, hlate, rfl, rfl, haccount.1⟩

end Psfn.Disclosure
