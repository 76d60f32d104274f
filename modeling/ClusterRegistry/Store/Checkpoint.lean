import ClusterRegistry.Store
import ClusterRegistry.Tree.Snapshot

/-!
A checkpoint replaces the log by one batch that rebuilds the published tree.  The batch is
written under a name that no reader takes for a log file, renamed to follow every log file there
is, and only then are the older files removed, oldest first.  At each step the log still leads to
the same tree.
-/
namespace ClusterRegistry.Store

structure Checkpoint where
  sequence : Nat
  records : Nat
  removed : Nat
  replacedSize : Nat
  compactedSize : Nat
deriving DecidableEq, Repr

namespace Checkpoint

def fileName (checkpoint : Checkpoint) : String :=
  Log.fileName checkpoint.sequence

def saved (checkpoint : Checkpoint) : Nat :=
  checkpoint.replacedSize - checkpoint.compactedSize

end Checkpoint

/-- The name of the new log file while it is written. -/
def draftName (sequence : Nat) : String :=
  Log.fileName sequence ++ ".compact"

def fileSize (file : Log.File) : Nat :=
  match file.entry with
  | .file contents => contents.length
  | .folder _ => 0

def totalSize (files : List Log.File) : Nat :=
  files.foldr (fun file total => fileSize file + total) 0

/-- One above every log file and above the writer's own. -/
def checkpointSequence (writer : Log.Writer) (existing : List Log.File) : Nat :=
  max ((existing.getLast?.map Log.File.sequence).getD 0) writer.sequence + 1

def writeDraft (sequence : Nat) (data : Bytes) : DiskM Unit :=
  let path := Log.pathOf (draftName sequence)
  .edit (Folder.write path fun _ => data) path "Failed to create checkpoint file"

def installDraft (sequence : Nat) : DiskM Unit :=
  let path := Log.pathOf (Log.fileName sequence)
  .change (Disk.rename (Log.pathOf (draftName sequence)) path) path
    "Failed to rename checkpoint file"

def removeFile (file : Log.File) : DiskM Unit :=
  let path := Log.pathOf file.name
  .change (Disk.removeFile path) path "Failed to remove WAL file"

def replaceLog (writer : Log.Writer) (sequence : Nat) (data : Bytes) : DiskM Log.Writer := do
  writeDraft sequence data
  installDraft sequence
  Log.Writer.openSequence sequence writer.rotationSize

/-- The writer goes on with the new log file even where an older one cannot be removed; the
transaction number is used up only where all of them could. -/
def checkpoint (store : Store) (disk : Disk) : (Except StoreError Checkpoint × Store) × Disk :=
  match Log.files disk with
  | (.error error, disk) => ((.error error, store), disk)
  | (.ok existing, disk) =>
    let records := store.published.tree.snapshot
    match Log.encodeBatch records store.nextTxid with
    | .error error => ((.error error, store), disk)
    | .ok data =>
      let sequence := checkpointSequence store.writer existing
      match replaceLog store.writer sequence data disk with
      | (.error error, disk) => ((.error error, store), disk)
      | (.ok writer, disk) =>
        let obsolete := existing.filter fun file => file.sequence < sequence
        match obsolete.forM removeFile disk with
        | (.error error, disk) => ((.error error, { store with writer }), disk)
        | (.ok (), disk) =>
          let published := { store.published with txid := store.nextTxid }
          let store := { store with published, writer, nextTxid := store.nextTxid + 1 }
          ((.ok ⟨sequence, records.length, obsolete.length, totalSize existing,
            data.length⟩, store), disk)

end ClusterRegistry.Store
