import ClusterRegistry.Proofs.Log.Directory
import Mathlib.Data.List.Nodup

/-!
The log directory with anything in it: files and directories, under any names.  What bears the name
of a log file is listed by ascending number, whether it is a file or not, and no name twice.
Without the directories in it, the listing is that of the files alone.
-/
namespace ClusterRegistry

def DiskEntry.isFile : DiskEntry → Bool
  | .file _ => true
  | .folder _ => false

namespace Log

/-- The names in the log directory ascend. -/
def InOrder (disk : Disk) : Prop :=
  ∀ entries, OrderedMap.find? "wal" disk.top = some (.folder entries) → OrderedMap.Ordered entries

def plain (entries : Folder) : Folder :=
  entries.filter fun entry => entry.2.isFile

/-- The disk once all directories are removed from the log directory. -/
def cleared (disk : Disk) : Disk :=
  match OrderedMap.find? "wal" disk.top with
  | some (.folder entries) => { disk with top := within (plain entries) disk.top }
  | _ => disk

/-- A file with the name of a log file holds the batch. -/
def Contains (disk : Disk) (batch : Batch) : Prop :=
  ∃ name contents, (sequence? name).isSome ∧ Folder.read (pathOf name) disk.top = .ok contents ∧
    batch ∈ (scan contents).batches

theorem files_cases (disk : Disk) :
    (∃ error, Log.files disk = (.error error, disk)) ∨
      ∃ entries, OrderedMap.find? "wal" disk.top = some (.folder entries) ∧
        Log.files disk = (.ok (filesOf entries), disk) := by
  cases listed : Folder.list folderPath disk.top with
  | error fault =>
    have failed : DiskM.view (Folder.list folderPath) folderPath "Failed to read WAL directory"
        disk = (.error (fault.during (disk.placeOf folderPath) "Failed to read WAL directory"),
          disk) := by
      rw [DiskM.view, listed]
    left
    unfold Log.files
    rw [DiskM.bind_of_error failed]
    exact ⟨_, rfl⟩
  | ok entries =>
    have inside : OrderedMap.find? "wal" disk.top = some (.folder entries) := by
      unfold Folder.list Folder.entry folderPath at listed
      dsimp only at listed
      split at listed
      · contradiction
      · rename_i found
        cases listed
        exact found
      · contradiction
    exact .inr ⟨entries, inside, files_of_folder inside⟩

section Listed

variable {entries : Folder} {file : File}

theorem mem_filesOf :
    file ∈ filesOf entries ↔
      sequence? file.name = some file.sequence ∧ (file.name, file.entry) ∈ entries := by
  unfold filesOf
  rw [(List.mergeSort_perm _ _).mem_iff, List.mem_filterMap]
  constructor
  · rintro ⟨entry, member, ok⟩
    obtain ⟨sequence, name, contents⟩ := Listing.ofEntry?_eq_some.mp ok
    rw [name, contents]
    exact ⟨sequence, member⟩
  · rintro ⟨sequence, member⟩
    exact ⟨_, member, Listing.ofEntry?_eq_some.mpr ⟨sequence, rfl, rfl⟩⟩

theorem ofEntry?_fileName (sequence : Nat) (entry : DiskEntry)
    (bound : sequence < Numeral.wordLimit) :
    File.ofEntry? (fileName sequence, entry) = some ⟨sequence, fileName sequence, entry⟩ :=
  Listing.ofEntry?_eq_some.mpr ⟨sequence?_fileName sequence bound, rfl, rfl⟩

theorem filesOf_of_ascending {files : List File}
    (listed : entries.filterMap File.ofEntry? = files)
    (ascending : files.Pairwise fun file later => file.sequence ≤ later.sequence) :
    filesOf entries = files := by
  rw [filesOf, listed]
  exact List.mergeSort_of_pairwise (ascending.imp fun below => decide_eq_true below)

theorem pairwise_name_of_distinct
    (distinct : entries.Pairwise fun entry later => entry.1 ≠ later.1) :
    (filesOf entries).Pairwise fun file later => file.name ≠ later.name := by
  have kept : (entries.filterMap File.ofEntry?).Pairwise
      fun file later => file.name ≠ later.name := by
    refine List.pairwise_filterMap.mpr (distinct.imp ?_)
    intro entry later differs file ok other otherOk
    rw [(Listing.ofEntry?_eq_some.mp ok).2.1, (Listing.ofEntry?_eq_some.mp otherOk).2.1]
    exact differs
  exact (List.mergeSort_perm _ _).symm.pairwise kept Ne.symm

theorem pairwise_name_filesOf (ordered : OrderedMap.Ordered entries) :
    (filesOf entries).Pairwise fun file later => file.name ≠ later.name :=
  pairwise_name_of_distinct (OrderedMap.distinct_of_ordered ordered)

theorem sequence_le_getLast {last : File} (newest : (filesOf entries).getLast? = some last)
    (member : file ∈ filesOf entries) : file.sequence ≤ last.sequence := by
  obtain ⟨front, same⟩ := List.getLast?_eq_some_iff.mp newest
  have sorted := pairwise_sequence_filesOf entries
  rw [same] at sorted member
  rcases List.mem_append.mp member with old | new
  · exact (List.pairwise_append.mp sorted).2.2 file old last List.mem_cons_self
  · rw [List.mem_singleton.mp new]

/-- A number above those of all log files is not in use. -/
theorem find?_fileName_of_above {sequence : Nat}
    (above : ∀ file ∈ filesOf entries, file.sequence < sequence)
    (bound : sequence < Numeral.wordLimit) :
    OrderedMap.find? (fileName sequence) entries = none := by
  cases found : OrderedMap.find? (fileName sequence) entries with
  | none => rfl
  | some entry =>
    have listed : (⟨_, _, entry⟩ : File) ∈ filesOf entries :=
      mem_filesOf.mpr ⟨sequence?_fileName sequence bound, OrderedMap.mem_of_find? found⟩
    exact absurd (above _ listed) (Nat.lt_irrefl _)

theorem plain_insert (ordered : OrderedMap.Ordered entries) (name : String) (contents : Bytes) :
    plain (OrderedMap.insert name (.file contents) entries) =
      OrderedMap.insert name (.file contents) (plain entries) := by
  have grown := OrderedMap.ordered_insert name (DiskEntry.file contents) ordered
  have kept : OrderedMap.Ordered (plain entries) := ordered.filter _
  apply OrderedMap.ext_find? (grown.filter _) (OrderedMap.ordered_insert _ _ kept)
  intro other
  rw [OrderedMap.find?_filter _ _ grown, OrderedMap.find?_insert, OrderedMap.find?_insert, plain,
    OrderedMap.find?_filter _ _ ordered]
  split <;> rfl

theorem plain_erase (name : String) (entries : Folder) :
    plain (OrderedMap.erase name entries) = OrderedMap.erase name (plain entries) := by
  simp only [plain, OrderedMap.erase, List.filter_filter, Bool.and_comm]

private theorem find?_plain (ordered : OrderedMap.Ordered entries) {name : String}
    {contents : Bytes} :
    OrderedMap.find? name (plain entries) = some (.file contents) ↔
      OrderedMap.find? name entries = some (.file contents) := by
  rw [plain, OrderedMap.find?_filter _ _ ordered, Option.filter_eq_some_iff]
  exact and_iff_left rfl

end Listed

theorem inOrder_of_folder {disk : Disk} {entries : Folder}
    (inside : OrderedMap.find? "wal" disk.top = some (.folder entries))
    (ordered : OrderedMap.Ordered entries) : InOrder disk := by
  intro _ found
  cases inside.symm.trans found
  exact ordered

/-- Of files that bear their own names, those that are listed are listed alone. -/
theorem filter_filesOf {entries : Folder} {files : List (Nat × Bytes)}
    (ordered : OrderedMap.Ordered entries) (listing : Listing (plain entries) files) :
    (filesOf entries).filter (fun file => file.entry.isFile) = files.map numbered := by
  have ascending := listing.pairwise_numbered
  have listed : ((filesOf entries).filter fun file => file.entry.isFile).Nodup :=
    ((pairwise_name_filesOf ordered).imp fun differs same => differs (congrArg _ same)).filter _
  have numbers : ((files.map numbered).map File.sequence).Nodup :=
    List.pairwise_map.mpr (ascending.imp Nat.ne_of_lt)
  have members : ((filesOf entries).filter fun file => file.entry.isFile).Perm
      (files.map numbered) := by
    refine (List.perm_ext_iff_of_nodup listed (List.Nodup.of_map _ numbers)).mpr fun file => ?_
    rw [← listing.filesOf_eq, List.mem_filter, mem_filesOf, mem_filesOf, plain, List.mem_filter,
      and_assoc]
  apply List.Perm.eq_of_pairwise _ ((pairwise_sequence_filesOf entries).filter _)
    (ascending.imp Nat.le_of_lt) members
  intro file other member otherMember below above
  exact List.inj_on_of_nodup_map numbers (members.mem_iff.mp member) otherMember
    (Nat.le_antisymm below above)

theorem holds_cleared {disk : Disk} {entries : Folder} {files : List (Nat × Bytes)}
    (inside : OrderedMap.find? "wal" disk.top = some (.folder entries)) :
    Holds (cleared disk) files ↔ Listing (plain entries) files := by
  unfold cleared Holds
  rw [inside]
  dsimp only
  rw [find?_within]
  constructor
  · rintro ⟨found, ⟨⟩, listing⟩
    exact listing
  · intro listing
    exact ⟨_, rfl, listing⟩

theorem read_pathOf {top entries : Folder} {name : String} {contents : Bytes}
    (inside : OrderedMap.find? "wal" top = some (.folder entries)) :
    Folder.read (pathOf name) top = .ok contents ↔
      OrderedMap.find? name entries = some (.file contents) := by
  refine ⟨fun ok => ?_, read_eq inside⟩
  cases found : OrderedMap.find? name entries with
  | none => simp [Folder.read, pathOf, folderPath, Folder.entry, inside, found, bind, Except.bind] at ok
  | some entry =>
    cases entry with
    | file stored =>
      rw [read_eq inside found] at ok
      rw [Except.ok.inj ok]
    | folder inner =>
      simp [Folder.read, pathOf, folderPath, Folder.entry, inside, found, bind, Except.bind, throw]
        at ok

theorem contains_iff_of_cleared {disk : Disk} {files : List (Nat × Bytes)} {batch : Batch}
    (inOrder : InOrder disk) (holds : Holds (cleared disk) files) :
    Contains disk batch ↔ batch ∈ batchesOf files := by
  obtain ⟨entries, here⟩ : ∃ entries, OrderedMap.find? "wal" disk.top = some (.folder entries) := by
    obtain ⟨entries, there, _⟩ := holds
    unfold cleared at there
    split at there
    · rename_i found
      exact ⟨_, found⟩
    · exact ⟨entries, there⟩
  have ordered := inOrder entries here
  have listing := (holds_cleared here).mp holds
  constructor
  · rintro ⟨name, contents, number, found, member⟩
    obtain ⟨sequence, number⟩ := Option.isSome_iff_exists.mp number
    have stored := (find?_plain ordered).mpr ((read_pathOf here).mp found)
    have own := listing.canonical name sequence (by rw [stored]; rfl) number
    rw [own, listing.stored sequence (sequence?_lt number)] at stored
    obtain ⟨_, inside, ⟨⟩⟩ := Option.map_eq_some_iff.mp stored
    exact List.mem_flatMap.mpr ⟨_, OrderedMap.mem_of_find? inside, member⟩
  · intro member
    obtain ⟨⟨sequence, contents⟩, inside, found⟩ := List.mem_flatMap.mp member
    have stored := (find?_plain ordered).mp (listing.stored_of_mem inside)
    have number := sequence?_fileName sequence (listing.bounded _ inside)
    exact ⟨fileName sequence, contents, by rw [number]; rfl, read_eq here stored, found⟩

end Log

end ClusterRegistry
