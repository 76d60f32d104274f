import ClusterRegistry.Log.Recovery
import ClusterRegistry.Proofs.Log.Listing
import ClusterRegistry.Proofs.Log.Scanning
import ClusterRegistry.Proofs.OrderedMap

/-!
The log directory on a disk.  A disk that holds a map of log files answers a listing with it, and
recovery is a fold over it: the batches of each file in turn, and the tail of the last.
-/
namespace ClusterRegistry

namespace DiskM

variable {α β : Type}

theorem bind_of_ok {first : DiskM α} {next : α → DiskM β} {disk later : Disk} {value : α}
    (ok : first disk = (.ok value, later)) : (first >>= next) disk = next value later := by
  change ExceptT.bindCont next (first disk).1 (first disk).2 = _
  rw [ok]
  rfl

theorem bind_of_error {first : DiskM α} {next : α → DiskM β} {disk later : Disk}
    {error : StoreError} (failed : first disk = (.error error, later)) :
    (first >>= next) disk = (.error error, later) := by
  change ExceptT.bindCont next (first disk).1 (first disk).2 = _
  rw [failed]
  rfl

theorem bind_eq_ok {first : DiskM α} {next : α → DiskM β} {disk later : Disk} {result : β} :
    (first >>= next) disk = (.ok result, later) ↔
      ∃ value middle, first disk = (.ok value, middle) ∧ next value middle = (.ok result, later) := by
  constructor
  · intro ok
    rcases done : first disk with ⟨error | value, middle⟩
    · cases (bind_of_error done).symm.trans ok
    · rw [bind_of_ok done] at ok
      exact ⟨value, middle, rfl, ok⟩
  · rintro ⟨value, middle, done, ok⟩
    rw [bind_of_ok done, ok]

theorem view_of_ok {look : Folder → Except DiskFault α} {path : DiskPath} {activity : String}
    {disk : Disk} {answer : α} (ok : look disk.top = .ok answer) :
    view look path activity disk = (.ok answer, disk) := by
  rw [view, ok]

theorem edit_of_ok {operation : Folder → Except DiskFault Folder} {path : DiskPath}
    {activity : String} {disk : Disk} {top : Folder} (ok : operation disk.top = .ok top) :
    edit operation path activity disk = (.ok (), { disk with top }) := by
  simp [edit, change, Disk.edit, ok, bind, Except.bind, pure, Except.pure]

end DiskM

namespace Log

/-- The log directory of `disk` holds exactly the log files `files`. -/
def Holds (disk : Disk) (files : List (Nat × Bytes)) : Prop :=
  ∃ entries, OrderedMap.find? "wal" disk.top = some (.folder entries) ∧ Listing entries files

def within (entries : Folder) (top : Folder) : Folder :=
  OrderedMap.insert "wal" (.folder entries) top

theorem find?_within (entries top : Folder) :
    OrderedMap.find? "wal" (within entries top) = some (.folder entries) := by
  rw [within, OrderedMap.find?_insert, if_pos rfl]

theorem within_within (entries others top : Folder) :
    within entries (within others top) = within entries top :=
  OrderedMap.insert_insert _ _ _ _

theorem holds_within {entries : Folder} {files : List (Nat × Bytes)} {disk : Disk} (top : Folder)
    (same : disk.top = within entries top) (listing : Listing entries files) : Holds disk files :=
  ⟨entries, by rw [same, find?_within], listing⟩

variable {disk : Disk} {files : List (Nat × Bytes)}

theorem alter_of_some {change : Option DiskEntry → Except DiskFault (Option DiskEntry)}
    {top entries : Folder} {name : String} {entry : DiskEntry}
    (inside : OrderedMap.find? "wal" top = some (.folder entries))
    (ok : change (OrderedMap.find? name entries) = .ok (some entry)) :
    Folder.alter change (pathOf name) top =
      .ok (within (OrderedMap.insert name entry entries) top) := by
  simp [pathOf, folderPath, Folder.alter, inside, ok, bind, Except.bind, pure, Except.pure, within]

theorem alter_of_none {change : Option DiskEntry → Except DiskFault (Option DiskEntry)}
    {top entries : Folder} {name : String}
    (inside : OrderedMap.find? "wal" top = some (.folder entries))
    (ok : change (OrderedMap.find? name entries) = .ok none) :
    Folder.alter change (pathOf name) top = .ok (within (OrderedMap.erase name entries) top) := by
  simp [pathOf, folderPath, Folder.alter, inside, ok, bind, Except.bind, pure, Except.pure, within]

theorem alter_of_error {change : Option DiskEntry → Except DiskFault (Option DiskEntry)}
    {top entries : Folder} {name : String} {fault : DiskFault}
    (inside : OrderedMap.find? "wal" top = some (.folder entries))
    (failed : change (OrderedMap.find? name entries) = .error fault) :
    Folder.alter change (pathOf name) top = .error fault := by
  simp [pathOf, folderPath, Folder.alter, inside, failed, bind, Except.bind]

theorem entry_eq {top entries : Folder} {name : String} {contents : Bytes}
    (inside : OrderedMap.find? "wal" top = some (.folder entries))
    (found : OrderedMap.find? name entries = some (.file contents)) :
    Folder.entry (pathOf name) top = .ok (.file contents) := by
  simp [pathOf, folderPath, Folder.entry, inside, found]

theorem read_eq {top entries : Folder} {name : String} {contents : Bytes}
    (inside : OrderedMap.find? "wal" top = some (.folder entries))
    (found : OrderedMap.find? name entries = some (.file contents)) :
    Folder.read (pathOf name) top = .ok contents := by
  simp [Folder.read, entry_eq inside found, bind, Except.bind, pure, Except.pure]

theorem makeFolder_of_folder {entries : Folder}
    (inside : OrderedMap.find? "wal" disk.top = some (.folder entries)) :
    makeFolder disk = (.ok (), { disk with top := within entries disk.top }) := by
  have made : Folder.makeFolders folderPath disk.top = .ok (within entries disk.top) := by
    simp [folderPath, Folder.makeFolders, inside, bind, Except.bind, pure, Except.pure, within]
  exact DiskM.edit_of_ok made

theorem makeFolder_of_holds (holds : Holds disk files) :
    ∃ later, makeFolder disk = (.ok (), later) ∧ Holds later files := by
  obtain ⟨entries, inside, listing⟩ := holds
  exact ⟨_, makeFolder_of_folder inside, holds_within _ rfl listing⟩

theorem makeFolder_of_absent (absent : OrderedMap.find? "wal" disk.top = none) :
    ∃ later, makeFolder disk = (.ok (), later) ∧ Holds later [] := by
  have made : Folder.makeFolders folderPath disk.top = .ok (within [] disk.top) := by
    simp [folderPath, Folder.makeFolders, absent, bind, Except.bind, pure, Except.pure, within]
  exact ⟨_, DiskM.edit_of_ok made, holds_within _ rfl listing_nil⟩

theorem files_of_folder {entries : Folder}
    (inside : OrderedMap.find? "wal" disk.top = some (.folder entries)) :
    Log.files disk = (.ok (filesOf entries), disk) := by
  have listed : Folder.list folderPath disk.top = .ok entries := by
    simp [Folder.list, folderPath, Folder.entry, inside, bind, Except.bind, pure, Except.pure]
  unfold Log.files
  rw [DiskM.bind_of_ok (DiskM.view_of_ok listed)]
  rfl

theorem files_of_holds (holds : Holds disk files) :
    Log.files disk = (.ok (files.map numbered), disk) := by
  obtain ⟨entries, inside, listing⟩ := holds
  rw [files_of_folder inside, listing.filesOf_eq]

def recovered (files : List (Nat × Bytes)) : Recovery :=
  files.foldl (fun recovery file => recovery.addContents (fileName file.1) file.2) Recovery.empty

private theorem foldlM_recoverFile (recovery : Recovery) (files : List (Nat × Bytes))
    (disk : Disk) :
    (files.map numbered).foldlM recoverFile recovery disk =
      (.ok (files.foldl (fun recovery file => recovery.addContents (fileName file.1) file.2)
        recovery), disk) := by
  induction files generalizing recovery with
  | nil => rfl
  | cons file files ih =>
    have first : recoverFile recovery (numbered file) disk =
      (.ok (recovery.addContents (fileName file.1) file.2), disk) := rfl
    rw [List.map_cons, List.foldlM_cons, DiskM.bind_of_ok first, ih]
    rfl

theorem recover_of_folder {entries : Folder}
    (inside : OrderedMap.find? "wal" disk.top = some (.folder entries)) :
    recover disk = (filesOf entries).foldlM recoverFile Recovery.empty disk := by
  unfold recover
  rw [DiskM.bind_of_ok (files_of_folder inside)]

theorem recover_of_holds (holds : Holds disk files) :
    recover disk = (.ok (recovered files), disk) := by
  obtain ⟨entries, inside, listing⟩ := holds
  rw [recover_of_folder inside, listing.filesOf_eq, foldlM_recoverFile]
  rfl

private theorem foldl_addContents_batches (recovery : Recovery) (files : List (Nat × Bytes)) :
    (files.foldl (fun recovery file => recovery.addContents (fileName file.1) file.2)
      recovery).batches = recovery.batches ++ files.flatMap fun file => (scan file.2).batches := by
  induction files generalizing recovery with
  | nil => simp
  | cons file files ih =>
    rw [List.foldl_cons, ih, Recovery.addContents, List.flatMap_cons, List.append_assoc]

theorem recovered_batches (files : List (Nat × Bytes)) :
    (recovered files).batches = files.flatMap fun file => (scan file.2).batches :=
  foldl_addContents_batches Recovery.empty files

theorem recovered_append_tail (older : List (Nat × Bytes)) (sequence : Nat) (contents : Bytes) :
    (recovered (older ++ [(sequence, contents)])).tail = some ⟨fileName sequence,
      contents.length - (scan contents).uncommitted.length, contents.length⟩ := by
  rw [recovered, List.foldl_append]
  rfl

def batchesOf (files : List (Nat × Bytes)) : List Batch :=
  files.flatMap fun file => (scan file.2).batches

theorem batchesOf_append (older newer : List (Nat × Bytes)) :
    batchesOf (older ++ newer) = batchesOf older ++ batchesOf newer :=
  List.flatMap_append

theorem batchesOf_written {batches : List Batch} (sound : ∀ batch ∈ batches, batch.Sound)
    (sequence : Nat) : batchesOf [(sequence, batches.flatMap Batch.written)] = batches := by
  rw [batchesOf, List.flatMap_singleton, scan_written batches sound]
  rfl

theorem batchesOf_one {batch : Batch} (sound : batch.Sound) (sequence : Nat) :
    batchesOf [(sequence, batch.written)] = [batch] := by
  have found := batchesOf_written (List.forall_mem_singleton.mpr sound) sequence
  rwa [List.flatMap_singleton] at found

theorem recovered_append (older : List (Nat × Bytes)) (sequence : Nat) (contents : Bytes) :
    recovered (older ++ [(sequence, contents)]) = ⟨batchesOf older ++ (scan contents).batches,
      some ⟨fileName sequence, contents.length - (scan contents).uncommitted.length,
        contents.length⟩⟩ := by
  have batches := recovered_batches (older ++ [(sequence, contents)])
  have tail := recovered_append_tail older sequence contents
  rw [List.flatMap_append, List.flatMap_singleton] at batches
  rw [batchesOf, ← batches, ← tail]

theorem recover_written_append {older : List (Nat × Bytes)} {sequence : Nat}
    {batches : List Batch} {rest : Bytes} (sound : ∀ batch ∈ batches, batch.Sound)
    (holds : Holds disk (older ++ [(sequence, batches.flatMap Batch.written ++ rest)])) :
    recover disk = (.ok ⟨batchesOf older ++ ((Scan.border batches rest).run rest).batches,
      some ⟨fileName sequence, (batches.flatMap Batch.written ++ rest).length -
        ((Scan.border batches rest).run rest).uncommitted.length,
        (batches.flatMap Batch.written ++ rest).length⟩⟩, disk) := by
  rw [recover_of_holds holds, recovered_append, scan_written_append batches rest sound]

theorem recover_written {older : List (Nat × Bytes)} {sequence : Nat} {batches : List Batch}
    (sound : ∀ batch ∈ batches, batch.Sound)
    (holds : Holds disk (older ++ [(sequence, batches.flatMap Batch.written)])) :
    recover disk = (.ok ⟨batchesOf older ++ batches, some ⟨fileName sequence,
      (batches.flatMap Batch.written).length, (batches.flatMap Batch.written).length⟩⟩, disk) := by
  rw [← List.append_nil (batches.flatMap Batch.written)] at holds
  rw [recover_written_append sound holds, Scan.run_nil, List.append_nil]
  rfl

theorem cut_of_holds {older : List (Nat × Bytes)} {sequence : Nat} {contents : Bytes}
    (holds : Holds disk (older ++ [(sequence, contents)])) (committed size : Nat) :
    ∃ later, Tail.cut ⟨fileName sequence, committed, size⟩ disk = (.ok (), later) ∧
      Holds later (older ++ [(sequence, contents.take committed)]) := by
  obtain ⟨entries, inside, listing⟩ := holds
  have newest : (sequence, contents) ∈ older ++ [(sequence, contents)] :=
    List.mem_append_right _ List.mem_cons_self
  have found := listing.stored_of_mem newest
  have changed := listing.insert sequence (contents.take committed) (listing.bounded _ newest)
  rw [OrderedMap.insert_last _ _ _ listing.ascending] at changed
  refine ⟨_, DiskM.edit_of_ok (alter_of_some inside ?_), holds_within _ rfl changed⟩
  rw [found]
  rfl

end Log

end ClusterRegistry
