import ClusterRegistry.Proofs.Store.Loading
import ClusterRegistry.Store.Checkpoint

/-!
The stages of a checkpoint, on a disk that holds log files.  The draft bears no name of a log file
and changes none; its renaming adds a log file behind all others; and each removal takes the oldest
one away, while the writer stays with the newest.
-/
namespace ClusterRegistry

theorem DiskM.move_of_ok {operation : Folder → Except DiskFault Folder} {disk : Disk}
    {top : Folder} (ok : operation disk.top = .ok top) (follow : FileLocation → FileLocation)
    (path : DiskPath) (activity : String) :
    change (Disk.move operation follow) path activity disk =
      (.ok (), ⟨disk.place, top, disk.opened.map follow⟩) := by
  rw [change, Disk.move, ok]
  rfl

namespace Store

theorem sequence?_draftName (sequence : Nat) : Log.sequence? (draftName sequence) = none := by
  have name : (draftName sequence).toList = Log.nameStart.toList ++
      (((Nat.toDigits 16 sequence).leftpad 16 '0' ++ Log.nameEnd.toList) ++ ".compact".toList) := by
    simp only [draftName, Log.fileName, Numeral.padded, String.toList_append, String.toList_ofList,
      List.append_assoc]
  unfold Log.sequence?
  rw [name, Log.isPrefixOf?_append, Option.bind_eq_bind, Option.bind_some]
  generalize (Nat.toDigits 16 sequence).leftpad 16 '0' ++ Log.nameEnd.toList = front
  have other : List.isSuffixOf? Log.nameEnd.toList (front ++ ".compact".toList) = none := by
    change (List.isPrefixOf? _ (front ++ ".compact".toList).reverse).map List.reverse = none
    rw [List.reverse_append]
    rfl
  rw [other]
  rfl

variable {disk : Disk} {entries : Folder} {files : List (Nat × Bytes)} {sequence : Nat}
  {data : Bytes}

theorem draftName_ne_fileName (bound : sequence < Numeral.wordLimit) :
    draftName sequence ≠ Log.fileName sequence :=
  Ne.symm (Log.fileName_ne_of_other (sequence?_draftName sequence) bound)

theorem writeDraft_of_free (inside : OrderedMap.find? "wal" disk.top = some (.folder entries))
    (free : ∀ inner, OrderedMap.find? (draftName sequence) entries ≠ some (.folder inner))
    (data : Bytes) :
    writeDraft sequence data disk = (.ok (), ⟨disk.place, Log.within
      (OrderedMap.insert (draftName sequence) (.file data) entries) disk.top, disk.opened⟩) := by
  have written : Folder.changeContents (fun _ => data)
      (some ((OrderedMap.find? (draftName sequence) entries).getD (.file []))) =
      .ok (some (.file data)) := by
    cases found : OrderedMap.find? (draftName sequence) entries with
    | none => rfl
    | some entry =>
      cases entry with
      | file contents => rfl
      | folder inner => exact absurd found (free inner)
  exact DiskM.edit_of_ok (Log.alter_of_some inside written)

theorem installDraft_of_fresh (inside : OrderedMap.find? "wal" disk.top = some (.folder entries))
    (found : OrderedMap.find? (draftName sequence) entries = some (.file data))
    (fresh : OrderedMap.find? (Log.fileName sequence) entries = none)
    (bound : sequence < Numeral.wordLimit) :
    ∃ later, installDraft sequence disk = (.ok (), later) ∧ later.top = Log.within
      (OrderedMap.erase (draftName sequence)
        (OrderedMap.insert (Log.fileName sequence) (.file data) entries)) disk.top := by
  have differs := draftName_ne_fileName bound
  have stored : Folder.alter (Folder.takePlace (.file data)) (Log.pathOf (Log.fileName sequence))
      disk.top = .ok (Log.within _ disk.top) :=
    Log.alter_of_some inside (by rw [fresh]; rfl)
  have cleared : Folder.alter (fun _ => .ok none) (Log.pathOf (draftName sequence)) (Log.within
      (OrderedMap.insert (Log.fileName sequence) (.file data) entries) disk.top) = .ok _ :=
    Log.alter_of_none (Log.find?_within _ _) rfl
  have renamed : Folder.rename (Log.pathOf (draftName sequence))
      (Log.pathOf (Log.fileName sequence)) disk.top =
      Folder.alter (fun _ => .ok none) (Log.pathOf (draftName sequence)) (Log.within
        (OrderedMap.insert (Log.fileName sequence) (.file data) entries) disk.top) := by
    rw [Folder.rename, Log.entry_eq inside found]
    simp only [bind, Except.bind, stored]
    rw [if_neg (by simp [Log.pathOf, differs]),
      if_neg (by simp [Log.pathOf, Log.folderPath, differs])]
  exact ⟨_, DiskM.move_of_ok (renamed.trans cleared) _ _ _, Log.within_within _ _ _⟩

/-- The log directory holds log files and beside them a draft. -/
def HoldsDraft (disk : Disk) (files : List (Nat × Bytes)) (sequence : Nat) (data : Bytes) : Prop :=
  ∃ entries, OrderedMap.find? "wal" disk.top = some (.folder entries) ∧
    Log.Listing entries files ∧
    OrderedMap.find? (draftName sequence) entries = some (.file data)

theorem HoldsDraft.holds (draft : HoldsDraft disk files sequence data) : Log.Holds disk files := by
  obtain ⟨entries, inside, listing, _⟩ := draft
  exact ⟨entries, inside, listing⟩

theorem writeDraft_of_holds (holds : Log.Holds disk files) (sequence : Nat) (data : Bytes) :
    ∃ later, writeDraft sequence data disk = (.ok (), later) ∧
      HoldsDraft later files sequence data := by
  obtain ⟨entries, inside, listing⟩ := holds
  refine ⟨_, writeDraft_of_free inside (listing.plain _) data, _, Log.find?_within _ _,
    listing.insert_other _ data (sequence?_draftName sequence), ?_⟩
  rw [OrderedMap.find?_insert, if_pos rfl]

private theorem installDraft_of_draft (draft : HoldsDraft disk files sequence data)
    (above : ∀ file ∈ files, file.1 < sequence) (bound : sequence < Numeral.wordLimit) :
    ∃ later, installDraft sequence disk = (.ok (), later) ∧
      Log.Holds later (files ++ [(sequence, data)]) := by
  obtain ⟨entries, inside, listing, found⟩ := draft
  have fresh : OrderedMap.find? (Log.fileName sequence) entries = none :=
    listing.absent bound fun file member => Nat.ne_of_lt (above file member)
  obtain ⟨later, installed, top⟩ := installDraft_of_fresh inside found fresh bound
  have grown := (listing.insert sequence data bound).erase_other (draftName sequence)
    (sequence?_draftName sequence)
  rw [OrderedMap.insert_above sequence data above] at grown
  exact ⟨later, installed, Log.holds_within _ top grown⟩

theorem replaceLog_of_attached {writer : Log.Writer} {older : List (Nat × Bytes)}
    {contents : Bytes} (attached : Log.Attached disk writer older contents)
    (bound : writer.sequence + 1 < Numeral.wordLimit) (data : Bytes) :
    ∃ next later, replaceLog writer (writer.sequence + 1) data disk = (.ok next, later) ∧
      next.sequence = writer.sequence + 1 ∧ next.rotationSize = writer.rotationSize ∧
      Log.Attached later next (older ++ [(writer.sequence, contents)]) data := by
  obtain ⟨middle, drafted, draft⟩ :=
    writeDraft_of_holds attached.holds (writer.sequence + 1) data
  obtain ⟨fresh, installed, holds⟩ := installDraft_of_draft draft attached.above bound
  have newest : (writer.sequence + 1, data) ∈
      older ++ [(writer.sequence, contents)] ++ [(writer.sequence + 1, data)] :=
    List.mem_append_right _ List.mem_cons_self
  obtain ⟨_, _, listing⟩ := id holds
  have found := OrderedMap.find?_of_mem listing.ascending newest
  obtain ⟨later, opened, grown, located⟩ := Log.openSequence_of_holds holds
    (writer.sequence + 1) writer.rotationSize bound
  rw [found, Option.getD_some, OrderedMap.insert_of_find? listing.ascending found] at grown
  rw [found, Option.getD_some] at opened
  refine ⟨⟨writer.sequence + 1, data.length, writer.rotationSize, ⟨fresh.opened.length⟩⟩, later, ?_,
    rfl, rfl, grown, located, rfl⟩
  unfold replaceLog
  rw [DiskM.bind_of_ok drafted, DiskM.bind_of_ok installed, opened]

private theorem location_afterRemoval {handle : FileHandle} {gone path : DiskPath}
    (located : disk.location handle = some path) (apart : gone.isPrefixOf path = false)
    (top : Folder) :
    Disk.location ⟨disk.place, top, disk.opened.map (FileLocation.afterRemoval gone)⟩ handle =
      some path := by
  unfold Disk.location at located ⊢
  cases held : disk.opened[handle.index]? with
  | none =>
    rw [held] at located
    contradiction
  | some location =>
    rw [held, Option.getD_some] at located
    rw [List.getElem?_map, held, located]
    simp [FileLocation.afterRemoval, apart]

private theorem removeFile_of_attached {writer : Log.Writer} {file : Nat × Bytes}
    {kept : List (Nat × Bytes)} {contents : Bytes}
    (attached : Log.Attached disk writer (file :: kept) contents) :
    ∃ later, removeFile (Log.numbered file) disk = (.ok (), later) ∧
      Log.Attached later writer kept contents := by
  have before : file.1 < writer.sequence := attached.below file List.mem_cons_self
  obtain ⟨number, old⟩ := file
  obtain ⟨⟨entries, inside, listing⟩, located, size⟩ := attached
  have bound : number < Numeral.wordLimit := listing.bounded (number, old) List.mem_cons_self
  have writerBound : writer.sequence < Numeral.wordLimit :=
    listing.bounded (writer.sequence, contents) (List.mem_append_right _ List.mem_cons_self)
  have differs : Log.fileName number ≠ writer.name := fun same =>
    Nat.ne_of_lt before (Log.fileName_injective bound writerBound same)
  have apart : (Log.pathOf (Log.fileName number)).isPrefixOf (Log.pathOf writer.name) = false := by
    simp [Log.pathOf, Log.folderPath, List.isPrefixOf, differs]
  have found : OrderedMap.find? (Log.fileName number) entries = some (.file old) :=
    listing.stored_of_mem List.mem_cons_self
  have removed : Folder.removeFile (Log.pathOf (Log.fileName number)) disk.top =
      .ok (Log.within _ disk.top) :=
    Log.alter_of_none inside (by rw [found])
  have shrunk := listing.erase number bound
  have ascending : OrderedMap.Ordered ((number, old) :: (kept ++ [(writer.sequence, contents)])) :=
    listing.ascending
  rw [List.cons_append, OrderedMap.erase_first _ _ ascending] at shrunk
  exact ⟨_, DiskM.move_of_ok removed _ _ _, Log.holds_within disk.top rfl shrunk,
    location_afterRemoval located apart _, size⟩

theorem forM_removeFile_of_attached {writer : Log.Writer} {gone kept : List (Nat × Bytes)}
    {contents : Bytes} (attached : Log.Attached disk writer (gone ++ kept) contents) :
    ∃ later, (gone.map Log.numbered).forM removeFile disk = (.ok (), later) ∧
      Log.Attached later writer kept contents := by
  induction gone generalizing disk with
  | nil => exact ⟨disk, rfl, attached⟩
  | cons file gone ih =>
    obtain ⟨middle, first, attached⟩ := removeFile_of_attached attached
    obtain ⟨later, rest, attached⟩ := ih attached
    refine ⟨later, ?_, attached⟩
    change (removeFile (Log.numbered file) >>= fun _ =>
      (gone.map Log.numbered).forM removeFile) disk = _
    rw [DiskM.bind_of_ok first, rest]

theorem checkpointSequence_of_newest (writer : Log.Writer) (older : List (Nat × Bytes))
    (contents : Bytes) :
    checkpointSequence writer ((older ++ [(writer.sequence, contents)]).map Log.numbered) =
      writer.sequence + 1 := by
  rw [checkpointSequence, List.map_append, List.map_singleton, List.getLast?_concat]
  exact congrArg (· + 1) (Nat.max_self _)

theorem obsolete_of_above {files : List (Nat × Bytes)} {sequence : Nat}
    (above : ∀ file ∈ files, file.1 < sequence) :
    ((files.map Log.numbered).filter fun file => file.sequence < sequence) =
      files.map Log.numbered := by
  rw [List.filter_eq_self]
  intro file member
  obtain ⟨pair, inside, rfl⟩ := List.mem_map.mp member
  exact decide_eq_true (above pair inside)

theorem checkpoint_of_refused {store : Store} {error : StoreError} (holds : Log.Holds disk files)
    (refused : Log.encodeBatch store.published.tree.snapshot store.nextTxid = .error error) :
    store.checkpoint disk = ((.error error, store), disk) := by
  simp only [checkpoint, Log.files_of_holds holds, refused]

theorem checkpoint_of_attached {store : Store} {older : List (Nat × Bytes)} {contents data : Bytes}
    (attached : Log.Attached disk store.writer older contents)
    (encoded : Log.encodeBatch store.published.tree.snapshot store.nextTxid = .ok data)
    (bound : store.writer.sequence + 1 < Numeral.wordLimit) :
    ∃ result writer later, store.checkpoint disk =
        ((.ok result, ⟨store.config, ⟨store.published.tree, store.nextTxid⟩, store.nextTxid + 1,
          writer⟩), later) ∧
      writer.sequence = store.writer.sequence + 1 ∧
      writer.rotationSize = store.writer.rotationSize ∧ Log.Attached later writer [] data := by
  obtain ⟨writer, middle, replaced, sequence, rotation, attached'⟩ :=
    replaceLog_of_attached attached bound data
  have all : older ++ [(store.writer.sequence, contents)] ++ [] =
      older ++ [(store.writer.sequence, contents)] := List.append_nil _
  rw [← all] at attached'
  obtain ⟨later, removed, kept⟩ := forM_removeFile_of_attached attached'
  have obsolete := obsolete_of_above attached.above
  simp only [checkpoint, Log.files_of_holds attached.holds, encoded,
    checkpointSequence_of_newest, replaced, obsolete, removed]
  exact ⟨_, _, _, rfl, sequence, rotation, kept⟩

end Store

end ClusterRegistry
