import ClusterRegistry.Log.Batch
import ClusterRegistry.Log.File

/-!
Recovery reads the batches of all log files in the order of the files.  Of the newest file it
also tells how much of it is committed, so that the rest can be cut off before more is appended.
-/
namespace ClusterRegistry.Log

/-- How much of the newest log file its last commit record closes. -/
structure Tail where
  name : String
  committed : Nat
  size : Nat
deriving DecidableEq, Repr

namespace Tail

def isClean (tail : Tail) : Bool :=
  tail.committed = tail.size

def cut (tail : Tail) : DiskM Unit :=
  .edit (Folder.modify (pathOf tail.name) (List.take tail.committed)) (pathOf tail.name)
    "Failed to open WAL file for truncation"

end Tail

structure Recovery where
  batches : List Batch
  tail : Option Tail
deriving DecidableEq, Repr

namespace Recovery

def empty : Recovery :=
  ⟨[], none⟩

def addContents (recovery : Recovery) (name : String) (contents : Bytes) : Recovery :=
  let found := scan contents
  ⟨recovery.batches ++ found.batches,
    some ⟨name, contents.length - found.uncommitted.length, contents.length⟩⟩

end Recovery

def recoverFile (recovery : Recovery) (file : File) : DiskM Recovery := do
  match file.entry with
  | .file contents => return recovery.addContents file.name contents
  | .folder _ => .view (fun _ => .error .isDirectory) (pathOf file.name) "Failed to read WAL file"

def recover : DiskM Recovery := do
  (← files).foldlM recoverFile Recovery.empty

end ClusterRegistry.Log
