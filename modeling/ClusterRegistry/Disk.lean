import ClusterRegistry.Error
import ClusterRegistry.OrderedMap

/-!
A directory tree as a value, with the files that are held open.  Operations name an entry by the
path from the top directory and fail with the fault that the operating system reports.  A file
held open stays open whatever becomes of its name: it follows a renaming, and is still written to
after its removal.
-/
namespace ClusterRegistry

inductive DiskFault where
  | notFound
  | exists
  | isDirectory
  | notDirectory
  | notEmpty
  | intoItself
deriving DecidableEq, Repr

namespace DiskFault

def kind : DiskFault → IoKind
  | .notFound => .notFound
  | .exists => .alreadyExists
  | .isDirectory => .isDirectory
  | .notDirectory => .notDirectory
  | .notEmpty => .directoryNotEmpty
  | .intoItself => .invalidInput

def message : DiskFault → String
  | .notFound => "No such file or directory (os error 2)"
  | .exists => "File exists (os error 17)"
  | .isDirectory => "Is a directory (os error 21)"
  | .notDirectory => "Not a directory (os error 20)"
  | .notEmpty => "Directory not empty (os error 39)"
  | .intoItself => "Invalid argument (os error 22)"

def during (fault : DiskFault) (place activity : String) : StoreError :=
  .io (some place) fault.kind (activity ++ ": " ++ fault.message)

end DiskFault

inductive DiskEntry where
  | file (contents : Bytes)
  | folder (entries : List (String × DiskEntry))

/-- What a directory holds, by ascending name. -/
abbrev Folder := List (String × DiskEntry)

abbrev DiskPath := List String

namespace Folder

/-- Replace, create or remove the entry at `path`; the directories on the way to it must exist. -/
def alter (change : Option DiskEntry → Except DiskFault (Option DiskEntry)) :
    DiskPath → Folder → Except DiskFault Folder
  | [], _ => .error .isDirectory
  | [name], folder => do
    match ← change (OrderedMap.find? name folder) with
    | some entry => return OrderedMap.insert name entry folder
    | none => return OrderedMap.erase name folder
  | name :: path, folder =>
    match OrderedMap.find? name folder with
    | none => .error .notFound
    | some (.file _) => .error .notDirectory
    | some (.folder entries) => do
      return OrderedMap.insert name (.folder (← alter change path entries)) folder

def entry (path : DiskPath) (folder : Folder) : Except DiskFault DiskEntry :=
  match path with
  | [] => .ok (.folder folder)
  | name :: path =>
    match OrderedMap.find? name folder with
    | none => .error .notFound
    | some (.folder entries) => entry path entries
    | some (.file contents) => if path = [] then .ok (.file contents) else .error .notDirectory

def list (path : DiskPath) (folder : Folder) : Except DiskFault Folder := do
  match ← entry path folder with
  | .folder entries => return entries
  | .file _ => throw .notDirectory

def read (path : DiskPath) (folder : Folder) : Except DiskFault Bytes := do
  match ← entry path folder with
  | .file contents => return contents
  | .folder _ => throw .isDirectory

def makeFolders : DiskPath → Folder → Except DiskFault Folder
  | [], folder => .ok folder
  | name :: path, folder =>
    match OrderedMap.find? name folder with
    | none => do return OrderedMap.insert name (.folder (← makeFolders path [])) folder
    | some (.folder entries) => do
      return OrderedMap.insert name (.folder (← makeFolders path entries)) folder
    | some (.file _) => .error (if path = [] then .exists else .notDirectory)

def changeContents (change : Bytes → Bytes) : Option DiskEntry → Except DiskFault (Option DiskEntry)
  | none => .error .notFound
  | some (.folder _) => .error .isDirectory
  | some (.file contents) => .ok (some (.file (change contents)))

def write (path : DiskPath) (change : Bytes → Bytes) : Folder → Except DiskFault Folder :=
  alter (fun old => changeContents change (some (old.getD (.file [])))) path

def modify (path : DiskPath) (change : Bytes → Bytes) : Folder → Except DiskFault Folder :=
  alter (changeContents change) path

def removeFile : DiskPath → Folder → Except DiskFault Folder :=
  alter fun
    | none => .error .notFound
    | some (.folder _) => .error .isDirectory
    | some (.file _) => .ok none

/-- A file takes the place of a file only, and a directory that of an empty directory only. -/
def takePlace (moved : DiskEntry) : Option DiskEntry → Except DiskFault (Option DiskEntry)
  | none => .ok (some moved)
  | some (.file _) =>
    match moved with
    | .file _ => .ok (some moved)
    | .folder _ => .error .notDirectory
  | some (.folder entries) =>
    match moved with
    | .file _ => .error .isDirectory
    | .folder _ => if entries.isEmpty then .ok (some moved) else .error .notEmpty

def rename (source target : DiskPath) (folder : Folder) : Except DiskFault Folder := do
  let moved ← entry source folder
  if source = target then return folder
  else if source.isPrefixOf target then throw .intoItself
  else alter (fun _ => .ok none) source (← alter (takePlace moved) target folder)

end Folder

/-- Where a file that is held open is found after a change to the directory tree, none once no
name leads to it. -/
abbrev FileLocation := Option DiskPath

namespace FileLocation

def afterRemoval (gone : DiskPath) (location : FileLocation) : FileLocation :=
  location.filter fun path => !gone.isPrefixOf path

def afterRename (source target : DiskPath) (location : FileLocation) : FileLocation :=
  location.bind fun path =>
    if source.isPrefixOf path then some (target ++ path.drop source.length)
    else if target.isPrefixOf path then none
    else some path

end FileLocation

/-- A directory tree, the name that messages give to its top, and the files that are held open. -/
structure Disk where
  place : String
  top : Folder
  /-- Where each file that was opened is now, in the order of opening. -/
  opened : List FileLocation

/-- A file held open: the number of files that were opened before it. -/
structure FileHandle where
  index : Nat
deriving DecidableEq, Repr

namespace Disk

def empty (place : String) : Disk :=
  ⟨place, [], []⟩

def placeOf (disk : Disk) (path : DiskPath) : String :=
  "/".intercalate (disk.place :: path)

/-- Change the tree by an operation after which every file that stays is where it was. -/
def edit (operation : Folder → Except DiskFault Folder) (disk : Disk) : Except DiskFault Disk := do
  return { disk with top := ← operation disk.top }

def move (operation : Folder → Except DiskFault Folder) (follow : FileLocation → FileLocation)
    (disk : Disk) : Except DiskFault Disk := do
  return { disk with top := ← operation disk.top, opened := disk.opened.map follow }

def removeFile (path : DiskPath) : Disk → Except DiskFault Disk :=
  move (Folder.removeFile path) (FileLocation.afterRemoval path)

def rename (source target : DiskPath) : Disk → Except DiskFault Disk :=
  move (Folder.rename source target) (FileLocation.afterRename source target)

def location (disk : Disk) (handle : FileHandle) : FileLocation :=
  (disk.opened[handle.index]?).getD none

/-- Bytes for a file that no name leads to any more are taken and reach no file that is read
later. -/
def append (handle : FileHandle) (data : Bytes) (disk : Disk) : Except DiskFault Disk :=
  match disk.location handle with
  | some path => disk.edit (Folder.modify path (· ++ data))
  | none => .ok disk

end Disk

/-- File operations in sequence.  What those before a failing one did stays done. -/
abbrev DiskM := ExceptT StoreError (StateM Disk)

namespace DiskM

def view (look : Folder → Except DiskFault α) (path : DiskPath) (activity : String) : DiskM α :=
  fun disk =>
    match look disk.top with
    | .ok answer => (.ok answer, disk)
    | .error fault => (.error (fault.during (disk.placeOf path) activity), disk)

def change (operation : Disk → Except DiskFault Disk) (path : DiskPath) (activity : String) :
    DiskM Unit :=
  fun disk =>
    match operation disk with
    | .ok disk => (.ok (), disk)
    | .error fault => (.error (fault.during (disk.placeOf path) activity), disk)

def edit (operation : Folder → Except DiskFault Folder) : DiskPath → String → DiskM Unit :=
  change (Disk.edit operation)

def hold (path : DiskPath) : DiskM FileHandle :=
  fun disk => (.ok ⟨disk.opened.length⟩, { disk with opened := disk.opened ++ [some path] })

end DiskM

end ClusterRegistry
