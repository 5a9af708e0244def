import Psfn.Lib.Crash

/-!
# Session journal — the chain rewrite

`rewriteJournalChainTransaction` and `recoverJournalChainRewrite` of
`persistence/journals/journal/chain-transaction.ts`, over a disk whose metadata changes
(create, rename, unlink) are atomic and durable at once, and whose file contents are
durable after `fsync`: a crash may replace any content not synced by anything.

The transaction's paths are told apart by name: targets, their staged and backup siblings
(whose names carry the fresh transaction id), the manifest and its temporaries, each under a
fresh name. A manifest is the record it encodes. The checks before the first artifact, the
fingerprint comparison and the callbacks read only; they pass or throw.
-/

namespace Psfn.Journal.Rewrite

open Psfn.Lib.Crash

variable {ι α : Type} [DecidableEq ι]

/-! ## The disk -/

inductive Path (ι : Type) where
  | target (i : ι)
  | staged (i : ι)
  | backup (i : ι)
  | manifest
  | temp (n : Nat)
deriving DecidableEq

inductive Phase where
  | staging | prepared | committed | rolledBack
deriving DecidableEq, Repr

structure ChainRewriteManifest (ι : Type) where
  phase : Phase
  files : List ι

inductive Content (ι α : Type) where
  | journal (entries : α)
  | manifest (m : ChainRewriteManifest ι)

structure File (ι α : Type) where
  content : Content ι α
  synced  : Bool

/-- The files, the manifests ever renamed into place, in order, and how many temporary names
have been drawn. -/
structure Disk (ι α : Type) where
  files     : Path ι → Option (File ι α)
  published : List (ChainRewriteManifest ι) := []
  drawn     : Nat := 0

def Disk.set (d : Disk ι α) (p : Path ι) (f : Option (File ι α)) : Disk ι α :=
  { d with files := fun q => if q = p then f else d.files q }

/-- How far an interrupted operation got, and what unsynced contents turn into. -/
structure Tear (ι α : Type) where
  happened : Bool
  garbage  : Path ι → Content ι α

/-- What a crash leaves: synced contents, and anything in the place of others. -/
def lose (t : Tear ι α) (d : Disk ι α) : Disk ι α :=
  { d with files := fun q => (d.files q).map fun f =>
      if f.synced then f else { content := t.garbage q, synced := false } }

/-! ## Operations -/

/-- An operation that takes effect at once or not at all. -/
def atomicOp (effect : Disk ι α → Option (Disk ι α)) : Op (Disk ι α) (Tear ι α) where
  effect := effect
  torn t d := if t.happened then (effect d).getD d else d

/-- An operation that fills a file; interrupted, it may leave anything there. -/
def fillOp (p : Path ι) (effect : Disk ι α → Option (Disk ι α)) : Op (Disk ι α) (Tear ι α) where
  effect := effect
  torn t d := if t.happened then d.set p (some { content := t.garbage p, synced := false }) else d

def writeFile (p : Path ι) (c : Content ι α) : Op (Disk ι α) (Tear ι α) :=
  fillOp p fun d => some (d.set p (some { content := c, synced := false }))

/-- `openSync(tempPath, 'wx')` and the write, under a name no earlier call has drawn. -/
def createTemp (n : Nat) (c : Content ι α) : Op (Disk ι α) (Tear ι α) where
  effect d := some ({ d with drawn := n + 1 }.set (.temp n) (some { content := c, synced := false }))
  torn t d :=
    let d' := { d with drawn := n + 1 }
    if t.happened then d'.set (.temp n) (some { content := t.garbage (.temp n), synced := false })
    else d'

def copyFile (source destination : Path ι) : Op (Disk ι α) (Tear ι α) :=
  fillOp destination fun d => (d.files source).map fun f =>
    d.set destination (some { content := f.content, synced := false })

def fsync (p : Path ι) : Op (Disk ι α) (Tear ι α) :=
  atomicOp fun d => (d.files p).map fun f => d.set p (some { f with synced := true })

def unlink (p : Path ι) : Op (Disk ι α) (Tear ι α) :=
  atomicOp fun d => (d.files p).map fun _ => d.set p none

def renameFile (source destination : Path ι) : Op (Disk ι α) (Tear ι α) :=
  atomicOp fun d => (d.files source).map fun f =>
    { (d.set destination (some f)).set source none with
      published := match destination, f.content with
        | .manifest, .manifest m => d.published ++ [m]
        | _, _ => d.published }

/-- `syncDirectory`, a check or a callback: nothing on the disk changes. -/
def readOnly : Op (Disk ι α) (Tear ι α) := atomicOp some

abbrev Program (ι α β : Type) := Prog (Disk ι α) (Tear ι α) β

def perform (op : Op (Disk ι α) (Tear ι α)) : Program ι α Unit := Prog.perform lose op

/-! ## `chain-transaction.ts` -/

def removeIfPresent (p : Path ι) : Program ι α Unit := do
  let disk ← Prog.get
  if (disk.files p).isSome then perform (unlink p) else pure ()

def syncFile (p : Path ι) : Program ι α Unit := perform (fsync p)

def syncDirectory : Program ι α Unit := perform readOnly

def renewLease : Program ι α Unit := perform readOnly

def onDurablePhase : Program ι α Unit := perform readOnly

def writeManifestDurable (m : ChainRewriteManifest ι) : Program ι α Unit := do
  let disk ← Prog.get
  let tempPath := Path.temp disk.drawn
  Prog.tryCatch
    (do
      perform (createTemp disk.drawn (.manifest m))
      syncFile tempPath
      perform (renameFile tempPath .manifest)
      syncDirectory)
    (do
      removeIfPresent tempPath
      Prog.throw)

/-- What `parseManifest` and `rewriteJournalChainTransaction` both ask of the targets. -/
def validTargets (files : List ι) : Bool := !files.isEmpty && decide files.Nodup

def parseManifest : Program ι α (ChainRewriteManifest ι) := do
  let disk ← Prog.get
  match (disk.files .manifest).map File.content with
  | some (.manifest m) => if validTargets m.files then pure m else Prog.throw
  | _ => Prog.throw

def removeArtifacts (i : ι) : Program ι α Unit := do
  removeIfPresent (.staged i)
  removeIfPresent (.backup i)

def cleanTransactionFiles (files : List ι) : Program ι α Unit := do
  Prog.each removeArtifacts files
  removeIfPresent .manifest
  syncDirectory

def restoreTarget (i : ι) : Program ι α Unit := do
  perform (copyFile (.backup i) (.target i))
  syncFile (.target i)

/-- The part of recovery that depends on the phase. -/
def rollBack (m : ChainRewriteManifest ι) : Program ι α Unit :=
  match m.phase with
  | .prepared => do
    let disk ← Prog.get
    if m.files.any fun i => (disk.files (.backup i)).isNone then Prog.throw
    else do
      Prog.each restoreTarget m.files
      syncDirectory
      writeManifestDurable { m with phase := .rolledBack }
  | .staging => writeManifestDurable { m with phase := .rolledBack }
  | .committed | .rolledBack => pure ()

def recoverJournalChainRewrite : Program ι α Unit := do
  let disk ← Prog.get
  if (disk.files .manifest).isSome then do
    let m ← parseManifest
    rollBack m
    cleanTransactionFiles m.files
  else pure ()

def stageFile (replacement : ι → α) (i : ι) : Program ι α Unit := do
  perform (writeFile (.staged i) (.journal (replacement i)))
  syncFile (.staged i)
  renewLease
  perform (copyFile (.target i) (.backup i))
  syncFile (.backup i)
  renewLease

def installFile (i : ι) : Program ι α Unit := do
  perform (renameFile (.staged i) (.target i))
  renewLease

/-- The body of the `try` block. -/
def stageAndInstall (targets : List ι) (replacement : ι → α) : Program ι α Unit := do
  writeManifestDurable { phase := .staging, files := targets }
  onDurablePhase
  renewLease
  Prog.each (stageFile replacement) targets
  syncDirectory
  -- `fingerprintTarget` comparison
  perform readOnly
  writeManifestDurable { phase := .prepared, files := targets }
  onDurablePhase
  renewLease
  Prog.each installFile targets
  syncDirectory
  writeManifestDurable { phase := .committed, files := targets }
  onDurablePhase
  renewLease
  Prog.tryCatch (cleanTransactionFiles targets) (pure ())

/-- The `catch` block. -/
def recoverOrRethrow : Program ι α Unit := do
  let disk ← Prog.get
  if (disk.files .manifest).isSome then do
    let m ← parseManifest
    recoverJournalChainRewrite
    if m.phase = .committed then pure () else Prog.throw
  else Prog.throw

def rewriteJournalChainTransaction (targets : List ι) (replacement : ι → α) : Program ι α Unit := do
  if !validTargets targets then Prog.throw
  else do
    let disk ← Prog.get
    if (disk.files .manifest).isSome then Prog.throw
    else do
      -- `assertRedactionOnlyChainRewrite` and the first fingerprints
      perform readOnly
      Prog.tryCatch (stageAndInstall targets replacement) recoverOrRethrow

end Psfn.Journal.Rewrite
