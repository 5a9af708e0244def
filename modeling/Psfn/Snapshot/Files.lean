import Mathlib.Data.List.Nodup
import Mathlib.Logic.Relation
import Psfn.Snapshot.LineBefore

/-!
# The files of a JSONL source

A source is an active file and its sealed segments. Rows are appended to the active file; a
rotation renames it to the next segment; a new active file is created later.

* `Evolves` — any number of appends, rotations and creations;
* `Evolves.file`, `Evolves.take_files` — a file keeps its place and its identity and only grows,
  and only the last one grows;
* `Evolves.moment` — between two moments there is one at which the source ended with the `n`-th
  file, for each `n` between their numbers of files.
-/

namespace Psfn.Snapshot

structure JsonlFile where
  identity : Nat
  bytes    : Bytes
deriving DecidableEq

/-- The files of a source: `<stem>.00001.jsonl` first. -/
structure Directory where
  sealed : List JsonlFile
  active : Option JsonlFile
  /-- An identity names one file, now and later. -/
  identities : ((sealed ++ active.toList).map (·.identity)).Nodup

namespace Directory

/-- The files in the order in which they were created. A rotation does not change it. -/
def files (dir : Directory) : List JsonlFile := dir.sealed ++ dir.active.toList

def rows (dir : Directory) : List Bytes := dir.files.flatMap fun file => Snapshot.rows file.bytes

/-- What an open handle reads. -/
def bytesOf (dir : Directory) (identity : Nat) : Bytes :=
  ((dir.files.find? fun file => file.identity = identity).map (·.bytes)).getD []

variable {dir : Directory}

theorem bytesOf_eq {i : Nat} {file : JsonlFile} (h : dir.files[i]? = some file) :
    dir.bytesOf file.identity = file.bytes := by
  have hmem : file ∈ dir.files := List.mem_of_getElem? h
  have hfound : dir.files.find? (fun other => other.identity = file.identity) = some file := by
    cases hfind : dir.files.find? (fun other => other.identity = file.identity) with
    | none =>
      rw [List.find?_eq_none] at hfind
      simp at hfind
      exact absurd rfl (hfind file hmem)
    | some other =>
      have hid : other.identity = file.identity := by simpa using List.find?_some hfind
      rw [List.inj_on_of_nodup_map dir.identities (List.mem_of_find?_eq_some hfind) hmem hid]
  rw [bytesOf, hfound]
  rfl

theorem files_unique {i j : Nat} {file other : JsonlFile} (h : dir.files[i]? = some file)
    (h' : dir.files[j]? = some other) (hid : file.identity = other.identity) : i = j := by
  have hi : i < (dir.files.map (·.identity)).length := by
    rw [List.length_map]
    exact (List.getElem?_eq_some_iff.1 h).1
  refine (List.getElem?_inj hi dir.identities).1 ?_
  rw [List.getElem?_map, List.getElem?_map, h, h', Option.map_some, Option.map_some, hid]

theorem active_file {file : JsonlFile} (h : dir.active = some file) :
    dir.files[dir.sealed.length]? = some file := by
  rw [files, h, List.getElem?_append_right (Nat.le_refl _), Nat.sub_self]
  rfl

theorem sealed_file {i : Nat} {file : JsonlFile} (h : dir.sealed[i]? = some file) :
    dir.files[i]? = some file := by
  rw [files, List.getElem?_append_left (List.getElem?_eq_some_iff.1 h).1, h]

theorem length_files (dir : Directory) :
    dir.files.length = dir.sealed.length + dir.active.toList.length := List.length_append

theorem length_active_le (dir : Directory) : dir.active.toList.length ≤ 1 := by
  cases dir.active with
  | none => exact Nat.zero_le _
  | some file => exact Nat.le_refl _

theorem take_files {n : Nat} (h : n ≤ dir.sealed.length) :
    dir.files.take n = dir.sealed.take n := List.take_append_of_le_length h

end Directory

/-! ## Appends, rotations and creations -/

inductive Step : Directory → Directory → Prop
  | append {sealed : List JsonlFile} {file : JsonlFile} {bytes : Bytes} {h h'} :
    Step ⟨sealed, some file, h⟩ ⟨sealed, some { file with bytes := file.bytes ++ bytes }, h'⟩
  | rotate {sealed : List JsonlFile} {file : JsonlFile} {h h'} :
    Step ⟨sealed, some file, h⟩ ⟨sealed ++ [file], none, h'⟩
  | create {sealed : List JsonlFile} {identity : Nat} {h h'} :
    Step ⟨sealed, none, h⟩ ⟨sealed, some ⟨identity, []⟩, h'⟩

def Evolves (dir dir' : Directory) : Prop := Relation.ReflTransGen Step dir dir'

theorem Step.sealed_front {dir dir' : Directory} (h : Step dir dir') :
    dir.sealed <+: dir'.sealed := by
  cases h with
  | append => exact List.prefix_rfl
  | rotate => exact List.prefix_append _ _
  | create => exact List.prefix_rfl

theorem Step.file {dir dir' : Directory} (h : Step dir dir') {i : Nat} {file : JsonlFile}
    (hfile : dir.files[i]? = some file) :
    ∃ file', dir'.files[i]? = some file' ∧ file'.identity = file.identity ∧
      file.bytes <+: file'.bytes := by
  cases h with
  | @append sealed last bytes _ _ =>
    by_cases hi : i < sealed.length
    · refine ⟨file, ?_, rfl, List.prefix_rfl⟩
      rw [Directory.files, List.getElem?_append_left hi] at hfile ⊢
      exact hfile
    · have hle := Nat.le_of_not_lt hi
      rw [Directory.files, List.getElem?_append_right hle] at hfile
      cases hzero : i - sealed.length with
      | zero =>
        rw [hzero] at hfile
        obtain rfl := Option.some.inj hfile
        refine ⟨{ last with bytes := last.bytes ++ bytes }, ?_, rfl, List.prefix_append _ _⟩
        rw [Directory.files, List.getElem?_append_right hle, hzero]
        rfl
      | succ k =>
        rw [hzero] at hfile
        cases hfile
  | rotate =>
    rw [Directory.files] at hfile ⊢
    exact ⟨file, by rw [List.append_assoc]; exact hfile, rfl, List.prefix_rfl⟩
  | create =>
    rw [Directory.files, Option.toList_none, List.append_nil] at hfile
    refine ⟨file, ?_, rfl, List.prefix_rfl⟩
    rw [Directory.files, List.getElem?_append_left (List.getElem?_eq_some_iff.1 hfile).1, hfile]

/-- All files but the last were there before the step. -/
theorem Step.before {dir dir' : Directory} (h : Step dir dir') {n : Nat}
    (hn : n < dir'.files.length) :
    n ≤ dir.files.length ∧ dir.files.take n = dir'.files.take n := by
  have hsealed : n ≤ dir'.sealed.length := by
    have hlength := dir'.length_files
    have hactive := dir'.length_active_le
    omega
  cases h with
  | append | create =>
    dsimp only at hsealed
    refine ⟨?_, ?_⟩
    · rw [Directory.length_files]
      exact Nat.le_add_right_of_le hsealed
    · rw [Directory.take_files hsealed, Directory.take_files hsealed]
  | @rotate sealed file _ _ =>
    have hfiles : sealed ++ (some file).toList = sealed ++ [file] ++ (none : Option _).toList := by
      rw [List.append_assoc]
      rfl
    rw [Directory.files, Directory.files, hfiles]
    exact ⟨Nat.le_of_lt hn, rfl⟩

namespace Evolves

variable {dir dir' dir'' : Directory}

theorem refl : Evolves dir dir := Relation.ReflTransGen.refl

theorem trans (h : Evolves dir dir') (h' : Evolves dir' dir'') : Evolves dir dir'' :=
  Relation.ReflTransGen.trans h h'

theorem sealed_front (h : Evolves dir dir') : dir.sealed <+: dir'.sealed := by
  induction h with
  | refl => exact List.prefix_rfl
  | tail _ hstep ih => exact ih.trans hstep.sealed_front

/-- **A file keeps its place and its identity**, and only grows. -/
theorem file (h : Evolves dir dir') {i : Nat} {file : JsonlFile}
    (hfile : dir.files[i]? = some file) :
    ∃ file', dir'.files[i]? = some file' ∧ file'.identity = file.identity ∧
      file.bytes <+: file'.bytes := by
  induction h with
  | refl => exact ⟨file, hfile, rfl, List.prefix_rfl⟩
  | tail _ hstep ih =>
    obtain ⟨file', hfile', hid', hfront'⟩ := ih
    obtain ⟨file'', hfile'', hid'', hfront''⟩ := hstep.file hfile'
    exact ⟨file'', hfile'', hid''.trans hid', hfront'.trans hfront''⟩

/-- Only the last file grows. -/
theorem take_files (h : Evolves dir dir') {n : Nat} (hn : n < dir.files.length) :
    dir'.files.take n = dir.files.take n := by
  have hsealed : n ≤ dir.sealed.length := by
    have hlength := dir.length_files
    have hactive := dir.length_active_le
    omega
  have hle := h.sealed_front.length_le
  rw [Directory.take_files hsealed, Directory.take_files (hsealed.trans hle)]
  obtain ⟨more, hmore⟩ := h.sealed_front
  rw [← hmore, List.take_append_of_le_length hsealed]

/-- **There was a moment** at which the source ended with the `n`-th file, as it is now. -/
theorem moment (h : Evolves dir dir') {n : Nat} (hlow : dir.files.length ≤ n)
    (hhigh : n ≤ dir'.files.length) :
    ∃ mid, Evolves dir mid ∧ Evolves mid dir' ∧ mid.files = dir'.files.take n := by
  induction h with
  | refl => exact ⟨dir, refl, refl, (List.take_of_length_le hlow).symm⟩
  | @tail early late hearly hstep ih =>
    by_cases hall : n = late.files.length
    · exact ⟨late, hearly.tail hstep, refl, by rw [hall, List.take_length]⟩
    · -- the last file of `late` came after the moment
      have hbefore := hstep.before (Nat.lt_of_le_of_ne hhigh hall)
      obtain ⟨mid, hmid, hlate, hfiles⟩ := ih hbefore.1
      exact ⟨mid, hmid, hlate.tail hstep, hfiles.trans hbefore.2⟩

end Evolves

end Psfn.Snapshot
