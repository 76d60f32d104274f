import ClusterRegistry.Disk
import ClusterRegistry.Text.Numeral

/-!
The files of the log.  Their names carry sequence numbers, in hexadecimal and wide enough that
the order of the names is the order of the numbers; names of any other form are not log files.
-/
namespace ClusterRegistry.Log

/-- The directory of the log inside the directory of the store. -/
def folderPath : DiskPath := ["wal"]

def nameStart : String := "wal-"

def nameEnd : String := ".labs"

def fileName (sequence : Nat) : String :=
  nameStart ++ Numeral.padded 16 16 sequence ++ nameEnd

def sequence? (name : String) : Option Nat := do
  let rest ← List.isPrefixOf? nameStart.toList name.toList
  let digits ← List.isSuffixOf? nameEnd.toList rest
  Numeral.parse? 16 Numeral.wordLimit (String.ofList digits)

def pathOf (name : String) : DiskPath :=
  folderPath ++ [name]

structure File where
  sequence : Nat
  name : String
  entry : DiskEntry

def File.ofEntry? (entry : String × DiskEntry) : Option File :=
  (sequence? entry.1).map fun sequence => ⟨sequence, entry.1, entry.2⟩

def filesOf (folder : Folder) : List File :=
  (folder.filterMap File.ofEntry?).mergeSort fun file later => file.sequence ≤ later.sequence

def makeFolder : DiskM Unit :=
  .edit (Folder.makeFolders folderPath) folderPath "Failed to create WAL directory"

def files : DiskM (List File) := do
  return filesOf (← .view (Folder.list folderPath) folderPath "Failed to read WAL directory")

end ClusterRegistry.Log
