import ClusterRegistry.Log.Batch
import ClusterRegistry.Log.File

/-!
The writer appends batches to the newest log file and never splits one: a batch that would make
the file grow past the rotation size goes to a new file, unless the file is empty.
-/
namespace ClusterRegistry.Log

structure Writer where
  sequence : Nat
  /-- Bytes in the file as far as the writer knows. -/
  size : Nat
  rotationSize : Nat
  /-- The file, which the writer holds open. -/
  handle : FileHandle
deriving DecidableEq, Repr

namespace Writer

def name (writer : Writer) : String :=
  fileName writer.sequence

def openSequence (sequence rotationSize : Nat) : DiskM Writer := do
  let path := pathOf (fileName sequence)
  .edit (Folder.write path id) path "Failed to open WAL file"
  let contents ← .view (Folder.read path) path "Failed to stat WAL file"
  return ⟨sequence, contents.length, rotationSize, ← .hold path⟩

def openNewest (rotationSize : Nat) : DiskM Writer := do
  makeFolder
  let newest := (← files).getLast?
  openSequence ((newest.map File.sequence).getD 0) rotationSize

/-- The bytes go to the file held open, wherever it is now. -/
def write (writer : Writer) (data : Bytes) : DiskM Writer := do
  .change (Disk.append writer.handle data) (pathOf writer.name) "WAL write failed"
  return { writer with size := writer.size + data.length }

def rotate (writer : Writer) (size : Nat) : DiskM Writer :=
  if 0 < writer.size ∧ writer.rotationSize < writer.size + size then
    openSequence (writer.sequence + 1) writer.rotationSize
  else pure writer

/-- Append one batch.  A batch that cannot be encoded leaves the log as it was. -/
def append (writer : Writer) (records : List Record) (txid : Nat) : DiskM Writer := do
  let data ← encodeBatch records txid
  let writer ← writer.rotate data.length
  writer.write data

end Writer

end ClusterRegistry.Log
