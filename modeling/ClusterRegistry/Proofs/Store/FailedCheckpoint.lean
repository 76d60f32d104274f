import ClusterRegistry.Proofs.Log.Inventory
import ClusterRegistry.Proofs.Log.RefusedBatch
import ClusterRegistry.Proofs.Store.StoppedCheckpoint

/-!
A checkpoint that fails, over a log directory with anything in it.  Until the draft is renamed
nothing has changed.  From then on the snapshot is in the log under a number that the store goes on
to use, and only a directory with the name of an older log file can make the checkpoint fail.
-/
namespace ClusterRegistry.Store

/-- Stores as they come from opening one, and from commits and checkpoints, each on any disk. -/
inductive Opened : Store → Prop where
  | load {config : Config} {disk later : Disk} {store : Store}
      (done : load config disk = (.ok store, later)) : Opened store
  | commit {store next : Store} {edits : List Edit} {disk later : Disk} (opened : Opened store)
      (done : store.commit (store.begin.attemptAll edits) disk = (.ok next, later)) : Opened next
  | checkpoint {store next : Store} {outcome : Except StoreError Checkpoint} {disk later : Disk}
      (opened : Opened store) (done : store.checkpoint disk = ((outcome, next), later)) : Opened next

variable {store after : Store} {disk later : Disk} {error : StoreError}

theorem load_eq_ok {config : Config} (done : load config disk = (.ok store, later)) :
    (∃ batches, replay batches = .ok store.published) ∧
      store.nextTxid = store.published.txid + 1 := by
  obtain ⟨_, recovery, _, _, _, _, replayed, _, _, next⟩ := steps_of_load done
  exact ⟨⟨recovery.batches, replayed⟩, next⟩

theorem commit_eq_ok {tx : Transaction} (done : store.commit tx disk = (.ok after, later)) :
    after = store ∨ after.published = ⟨tx.tree, store.nextTxid⟩ ∧
      after.nextTxid = store.nextTxid + 1 ∧ ∀ record ∈ tx.log, record.Encodable := by
  unfold commit at done
  split at done
  · cases done
    exact .inl rfl
  · obtain ⟨writer, _, appended, done⟩ := DiskM.bind_eq_ok.mp done
    cases done
    exact .inr ⟨rfl, rfl, Log.encodable_of_append appended⟩

def obsolete (writer : Log.Writer) (existing : List Log.File) : List Log.File :=
  existing.filter fun file => file.sequence < checkpointSequence writer existing

/-- All that a checkpoint can do: it stops before the new log file is in place, or it goes on to
remove the older ones. -/
theorem checkpoint_cases {outcome : Except StoreError Checkpoint}
    (done : store.checkpoint disk = ((outcome, after), later)) :
    ((∃ error, outcome = .error error) ∧ after = store ∧
      (later = disk ∨ ∃ existing data cause, Log.files disk = (.ok existing, disk) ∧
        replaceLog store.writer (checkpointSequence store.writer existing) data disk =
          (.error cause, later))) ∨
      ∃ existing data writer middle, Log.files disk = (.ok existing, disk) ∧
        Log.encodeBatch store.published.tree.snapshot store.nextTxid = .ok data ∧
        replaceLog store.writer (checkpointSequence store.writer existing) data disk =
          (.ok writer, middle) ∧
        ((∃ error, outcome = .error error ∧ after = { store with writer } ∧
            (obsolete store.writer existing).forM removeFile middle = (.error error, later)) ∨
          (∃ result, outcome = .ok result) ∧
            after = { store with
              published := { store.published with txid := store.nextTxid }
              writer
              nextTxid := store.nextTxid + 1 } ∧
            (obsolete store.writer existing).forM removeFile middle = (.ok (), later)) := by
  unfold checkpoint at done
  obtain ⟨cause, listed⟩ | ⟨entries, _, listed⟩ := Log.files_cases disk
  · simp only [listed] at done
    cases done
    exact .inl ⟨⟨_, rfl⟩, rfl, .inl rfl⟩
  · simp only [listed] at done
    split at done
    · cases done
      exact .inl ⟨⟨_, rfl⟩, rfl, .inl rfl⟩
    · rename_i data encoded
      split at done
      · rename_i cause final failed
        cases done
        exact .inl ⟨⟨_, rfl⟩, rfl, .inr ⟨_, data, _, listed, failed⟩⟩
      · rename_i writer middle replaced
        refine .inr ⟨_, data, writer, middle, listed, encoded, replaced, ?_⟩
        split at done
        · rename_i removal
          cases done
          exact .inl ⟨_, rfl, rfl, removal⟩
        · rename_i removal
          cases done
          exact .inr ⟨⟨_, rfl⟩, rfl, removal⟩

/-- The tree stays, and the number is used up where all is done. -/
theorem checkpoint_published {outcome : Except StoreError Checkpoint}
    (done : store.checkpoint disk = ((outcome, after), later)) :
    after.published.tree = store.published.tree ∧ after.config = store.config ∧
      (after.published = store.published ∧ after.nextTxid = store.nextTxid ∨
        (∃ result, outcome = .ok result) ∧ after.published.txid = store.nextTxid ∧
          after.nextTxid = store.nextTxid + 1) := by
  obtain ⟨_, rfl, _⟩ | ⟨_, _, writer, _, _, _, _, ⟨_, _, rfl, _⟩ | ⟨result, rfl, _⟩⟩ :=
    checkpoint_cases done
  · exact ⟨rfl, rfl, .inl ⟨rfl, rfl⟩⟩
  · exact ⟨rfl, rfl, .inl ⟨rfl, rfl⟩⟩
  · exact ⟨rfl, rfl, .inr ⟨result, rfl, rfl⟩⟩

namespace Opened

theorem wellFormed (opened : Opened store) : store.published.tree.WellFormed := by
  induction opened with
  | load done =>
    obtain ⟨⟨batches, replayed⟩, _⟩ := load_eq_ok done
    exact Bucket.wellFormed_nil.replayed (replay_eq_ok.mp replayed).1
  | commit opened done ih =>
    rcases commit_eq_ok done with rfl | ⟨published, _⟩
    · exact ih
    · rw [published]
      exact ((Transaction.follows_start _ ih).attemptAll _).wellFormed
  | checkpoint opened done ih =>
    rw [(checkpoint_published done).1]
    exact ih

theorem next (opened : Opened store) : store.nextTxid = store.published.txid + 1 := by
  induction opened with
  | load done => exact (load_eq_ok done).2
  | commit opened done ih =>
    rcases commit_eq_ok done with rfl | ⟨published, next, _⟩
    · exact ih
    · rw [published, next]
  | checkpoint opened done ih =>
    obtain ⟨_, _, ⟨published, next⟩ | ⟨_, published, next⟩⟩ := checkpoint_published done
    · rw [published, next, ih]
    · rw [published, next]

end Opened

section Stages

variable {entries : Folder} {sequence : Nat} {data : Bytes}

private theorem writeDraft_of_taken {inner : Folder}
    (inside : OrderedMap.find? "wal" disk.top = some (.folder entries))
    (taken : OrderedMap.find? (draftName sequence) entries = some (.folder inner)) (data : Bytes) :
    ∃ error, writeDraft sequence data disk = (.error error, disk) := by
  have refused : Folder.write (Log.pathOf (draftName sequence)) (fun _ => data) disk.top =
      .error .isDirectory :=
    Log.alter_of_error inside (by rw [taken]; rfl)
  rw [writeDraft, DiskM.edit, DiskM.change, Disk.edit, refused]
  exact ⟨_, rfl⟩

/-- What is in the log directory once a log file is written, draft first. -/
def withFile (sequence : Nat) (data : Bytes) (entries : Folder) : Folder :=
  OrderedMap.erase (draftName sequence) (OrderedMap.insert (Log.fileName sequence) (.file data)
    (OrderedMap.insert (draftName sequence) (.file data) entries))

private theorem find?_withFile (bound : sequence < Numeral.wordLimit) (data : Bytes)
    (entries : Folder) :
    OrderedMap.find? (Log.fileName sequence) (withFile sequence data entries) =
      some (.file data) := by
  rw [withFile, OrderedMap.find?_erase, if_neg (Ne.symm (draftName_ne_fileName bound)),
    OrderedMap.find?_insert, if_pos rfl]

private theorem find?_withFile_of_listed {file : Log.File} (member : file ∈ Log.filesOf entries)
    (ordered : OrderedMap.Ordered entries) (differs : file.sequence ≠ sequence)
    (bound : sequence < Numeral.wordLimit) (data : Bytes) :
    OrderedMap.find? file.name (withFile sequence data entries) = some file.entry := by
  obtain ⟨number, inside⟩ := Log.mem_filesOf.mp member
  have notDraft : file.name ≠ draftName sequence := by
    intro same
    rw [same, sequence?_draftName] at number
    contradiction
  have notNew : file.name ≠ Log.fileName sequence := by
    intro same
    rw [same, Log.sequence?_fileName sequence bound] at number
    exact differs (Option.some.inj number).symm
  rw [withFile, OrderedMap.find?_erase, if_neg notDraft, OrderedMap.find?_insert, if_neg notNew,
    OrderedMap.find?_insert, if_neg notDraft, OrderedMap.find?_of_mem ordered inside]

private theorem ordered_withFile (ordered : OrderedMap.Ordered entries) (sequence : Nat)
    (data : Bytes) :
    OrderedMap.Ordered (withFile sequence data entries) :=
  OrderedMap.ordered_erase _ (OrderedMap.ordered_insert _ _ (OrderedMap.ordered_insert _ _ ordered))

private theorem listing_withFile {files : List (Nat × Bytes)} (ordered : OrderedMap.Ordered entries)
    (listing : Log.Listing (Log.plain entries) files) (above : ∀ file ∈ files, file.1 < sequence)
    (bound : sequence < Numeral.wordLimit) (data : Bytes) :
    Log.Listing (Log.plain (withFile sequence data entries)) (files ++ [(sequence, data)]) := by
  have drafted := listing.insert_other (draftName sequence) data (sequence?_draftName sequence)
  have grown := (drafted.insert sequence data bound).erase_other (draftName sequence)
    (sequence?_draftName sequence)
  rwa [OrderedMap.insert_above sequence data above, ← Log.plain_insert ordered,
    ← Log.plain_insert (OrderedMap.ordered_insert _ _ ordered), ← Log.plain_erase] at grown

private theorem replaceLog_of_free
    (inside : OrderedMap.find? "wal" disk.top = some (.folder entries))
    (ordered : OrderedMap.Ordered entries)
    (free : ∀ inner, OrderedMap.find? (draftName sequence) entries ≠ some (.folder inner))
    (fresh : OrderedMap.find? (Log.fileName sequence) entries = none)
    (bound : sequence < Numeral.wordLimit) (writer : Log.Writer) (data : Bytes) :
    ∃ next later, replaceLog writer sequence data disk = (.ok next, later) ∧
      next.sequence = sequence ∧
      OrderedMap.find? "wal" later.top = some (.folder (withFile sequence data entries)) := by
  have drafted := writeDraft_of_free inside free data
  have written : OrderedMap.find? "wal" (Disk.mk disk.place (Log.within
      (OrderedMap.insert (draftName sequence) (.file data) entries) disk.top) disk.opened).top =
      some (.folder (OrderedMap.insert (draftName sequence) (.file data) entries)) :=
    Log.find?_within _ _
  have draft : OrderedMap.find? (draftName sequence)
      (OrderedMap.insert (draftName sequence) (.file data) entries) = some (.file data) := by
    rw [OrderedMap.find?_insert, if_pos rfl]
  have stillFresh : OrderedMap.find? (Log.fileName sequence)
      (OrderedMap.insert (draftName sequence) (.file data) entries) = none := by
    rw [OrderedMap.find?_insert, if_neg (Ne.symm (draftName_ne_fileName bound)), fresh]
  obtain ⟨middle, installed, top⟩ := installDraft_of_fresh written draft stillFresh bound
  have here : OrderedMap.find? "wal" middle.top =
      some (.folder (withFile sequence data entries)) := by
    rw [top]
    exact Log.find?_within _ _
  have opened := Log.openSequence_of_file here (ordered_withFile ordered sequence data)
    (find?_withFile bound data entries) writer.rotationSize
  have replaced : replaceLog writer sequence data disk =
      Log.Writer.openSequence sequence writer.rotationSize middle := by
    unfold replaceLog
    rw [DiskM.bind_of_ok drafted, DiskM.bind_of_ok installed]
  exact ⟨_, _, replaced.trans opened, rfl, Log.find?_within _ _⟩

private theorem replaceLog_of_taken {inner : Folder}
    (inside : OrderedMap.find? "wal" disk.top = some (.folder entries))
    (taken : OrderedMap.find? (draftName sequence) entries = some (.folder inner))
    (writer : Log.Writer) (data : Bytes) :
    ∃ error, replaceLog writer sequence data disk = (.error error, disk) := by
  obtain ⟨error, refused⟩ := writeDraft_of_taken inside taken data
  refine ⟨error, ?_⟩
  unfold replaceLog
  rw [DiskM.bind_of_error refused]

private theorem below_checkpointSequence (writer : Log.Writer) {file : Log.File}
    (member : file ∈ Log.filesOf entries) :
    file.sequence < checkpointSequence writer (Log.filesOf entries) := by
  unfold checkpointSequence
  cases newest : (Log.filesOf entries).getLast? with
  | none =>
    rw [List.getLast?_eq_none_iff.mp newest] at member
    contradiction
  | some last =>
    have below := Log.sequence_le_getLast newest member
    exact Nat.lt_succ_of_le (Nat.le_trans below (Nat.le_max_left _ _))

private theorem obsolete_filesOf (writer : Log.Writer) (entries : Folder) :
    obsolete writer (Log.filesOf entries) = Log.filesOf entries := by
  rw [obsolete, List.filter_eq_self]
  intro file member
  exact decide_eq_true (below_checkpointSequence writer member)

private theorem find?_checkpointSequence (writer : Log.Writer)
    (bound : checkpointSequence writer (Log.filesOf entries) < Numeral.wordLimit) :
    OrderedMap.find? (Log.fileName (checkpointSequence writer (Log.filesOf entries))) entries =
      none :=
  Log.find?_fileName_of_above (fun _ member => below_checkpointSequence writer member) bound

def eraseAll (files : List Log.File) (entries : Folder) : Folder :=
  files.foldl (fun entries file => OrderedMap.erase file.name entries) entries

private theorem find?_eraseAll {files : List Log.File} {name : String}
    (apart : ∀ file ∈ files, name ≠ file.name) (entries : Folder) :
    OrderedMap.find? name (eraseAll files entries) = OrderedMap.find? name entries := by
  induction files generalizing entries with
  | nil => rfl
  | cons file files ih =>
    obtain ⟨first, apart⟩ := List.forall_mem_cons.mp apart
    change OrderedMap.find? name (eraseAll files (OrderedMap.erase file.name entries)) = _
    rw [ih apart, OrderedMap.find?_erase, if_neg first]

private theorem listing_eraseAll {removed kept : List (Nat × Bytes)}
    (listing : Log.Listing (Log.plain entries) (removed ++ kept)) :
    Log.Listing (Log.plain (eraseAll (removed.map Log.numbered) entries)) kept := by
  induction removed generalizing entries with
  | nil => exact listing
  | cons file removed ih =>
    obtain ⟨number, contents⟩ := file
    have bound : number < Numeral.wordLimit :=
      listing.bounded (number, contents) List.mem_cons_self
    have ascending : OrderedMap.Ordered ((number, contents) :: (removed ++ kept)) :=
      listing.ascending
    have shrunk := listing.erase number bound
    rw [List.cons_append, OrderedMap.erase_first _ _ ascending, ← Log.plain_erase] at shrunk
    exact ih shrunk

private theorem removeFile_of_file {file : Log.File} {contents : Bytes}
    (inside : OrderedMap.find? "wal" disk.top = some (.folder entries))
    (found : OrderedMap.find? file.name entries = some (.file contents)) :
    ∃ later, removeFile file disk = (.ok (), later) ∧
      OrderedMap.find? "wal" later.top = some (.folder (OrderedMap.erase file.name entries)) := by
  have removed : Folder.removeFile (Log.pathOf file.name) disk.top =
      .ok (Log.within (OrderedMap.erase file.name entries) disk.top) :=
    Log.alter_of_none inside (by rw [found])
  exact ⟨_, DiskM.move_of_ok removed _ _ _, Log.find?_within _ _⟩

private theorem removeFile_of_folder {file : Log.File} {inner : Folder}
    (inside : OrderedMap.find? "wal" disk.top = some (.folder entries))
    (found : OrderedMap.find? file.name entries = some (.folder inner)) :
    ∃ error, removeFile file disk = (.error error, disk) := by
  have refused : Folder.removeFile (Log.pathOf file.name) disk.top = .error .isDirectory :=
    Log.alter_of_error inside (by rw [found])
  rw [removeFile, DiskM.change, Disk.removeFile, Disk.move, refused]
  exact ⟨_, rfl⟩

/-- Files are removed one after another up to the first directory. -/
theorem forM_removeFile_cases {gone : List Log.File}
    (inside : OrderedMap.find? "wal" disk.top = some (.folder entries))
    (stored : ∀ file ∈ gone, OrderedMap.find? file.name entries = some file.entry)
    (distinct : gone.Pairwise fun file later => file.name ≠ later.name) :
    ((∀ file ∈ gone, file.entry.isFile = true) ∧
      ∃ later, gone.forM removeFile disk = (.ok (), later)) ∨
      ∃ removed blocked rest error later, gone = removed ++ blocked :: rest ∧
        (∀ file ∈ removed, file.entry.isFile = true) ∧ blocked.entry.isFile = false ∧
        gone.forM removeFile disk = (.error error, later) ∧
        OrderedMap.find? "wal" later.top = some (.folder (eraseAll removed entries)) := by
  induction gone generalizing disk entries with
  | nil => exact .inl ⟨nofun, disk, rfl⟩
  | cons file gone ih =>
    obtain ⟨here, stored⟩ := List.forall_mem_cons.mp stored
    obtain ⟨apart, distinct⟩ := List.pairwise_cons.mp distinct
    have first : (file :: gone).forM removeFile disk =
        (removeFile file >>= fun _ => gone.forM removeFile) disk := rfl
    rw [first]
    cases kind : file.entry with
    | file contents =>
      rw [kind] at here
      obtain ⟨middle, removed, left⟩ := removeFile_of_file inside here
      have others : ∀ other ∈ gone,
          OrderedMap.find? other.name (OrderedMap.erase file.name entries) = some other.entry := by
        intro other member
        rw [OrderedMap.find?_erase, if_neg (Ne.symm (apart other member)), stored other member]
      have isFile : file.entry.isFile = true := by
        rw [kind]
        rfl
      rw [DiskM.bind_of_ok removed]
      obtain ⟨plain, done⟩ | ⟨front, blocked, rest, error, last, rfl, plain, folder, failed, left⟩ :=
        ih left others distinct
      · exact .inl ⟨List.forall_mem_cons.mpr ⟨isFile, plain⟩, done⟩
      · exact .inr ⟨file :: front, blocked, rest, error, last, rfl,
          List.forall_mem_cons.mpr ⟨isFile, plain⟩, folder, failed, left⟩
    | folder inner =>
      rw [kind] at here
      obtain ⟨error, blocked⟩ := removeFile_of_folder inside here
      have notFile : file.entry.isFile = false := by
        rw [kind]
        rfl
      rw [DiskM.bind_of_error blocked]
      exact .inr ⟨[], file, gone, error, disk, rfl, nofun, notFile, rfl, inside⟩

end Stages

/-- What a checkpoint leaves that fails after its snapshot is in the log: the writer is behind the
snapshot, which has the number that the next commit gets, and of the older log files those that
follow the first directory among them are left. -/
structure Displaced (store : Store) (disk : Disk) (after : Store) (later : Disk) : Prop where
  writer : after = { store with writer := after.writer }
  blocked : ∃ existing file, Log.files disk = (.ok existing, disk) ∧ file ∈ existing ∧
    file.entry.isFile = false ∧
    after.writer.sequence = checkpointSequence store.writer existing
  contains : Log.Contains later ⟨store.nextTxid, store.published.tree.snapshot⟩
  left : ∀ files, Log.Holds (Log.cleared disk) files → ∃ removed kept, files = removed ++ kept ∧
    Log.Holds (Log.cleared later) (kept ++ [(after.writer.sequence,
      [⟨store.nextTxid, store.published.tree.snapshot⟩].flatMap Log.Batch.written)])

private theorem sound_snapshot_of_encoded {tree : Bucket} {txid : Nat} {data : Bytes}
    (wellFormed : tree.WellFormed) (number : txid < Numeral.wordLimit)
    (encoded : Log.encodeBatch tree.snapshot txid = .ok data) :
    Log.Batch.Sound ⟨txid, tree.snapshot⟩ ∧ data = Log.Batch.written ⟨txid, tree.snapshot⟩ := by
  obtain ⟨fits, same⟩ := Log.encodeBatch_eq_ok.mp encoded
  exact ⟨⟨number, fits, Bucket.Lawful.snapshot_unclosed wellFormed⟩, same⟩

section Removal

variable {entries : Folder} {sequence : Nat} {batch : Log.Batch} {removed rest : List Log.File}
  {blocked : Log.File} (above : ∀ file ∈ Log.filesOf entries, file.sequence < sequence)
  (bound : sequence < Numeral.wordLimit) (parts : Log.filesOf entries = removed ++ blocked :: rest)
  (left : OrderedMap.find? "wal" later.top =
    some (.folder (eraseAll removed (withFile sequence batch.written entries))))
include above bound parts left

private theorem contains_of_removal (sound : batch.Sound) : Log.Contains later batch := by
  have number := Log.sequence?_fileName sequence bound
  have apart : ∀ file ∈ removed, Log.fileName sequence ≠ file.name := by
    intro file member name
    have listed : file ∈ Log.filesOf entries := parts ▸ List.mem_append_left _ member
    have own := (Log.mem_filesOf.mp listed).1
    rw [← name, number] at own
    exact Nat.ne_of_lt (above file listed) (Option.some.inj own).symm
  have found := (find?_eraseAll apart _).trans (find?_withFile bound batch.written entries)
  have scanned := Log.scan_written [batch] (List.forall_mem_singleton.mpr sound)
  rw [List.flatMap_singleton] at scanned
  refine ⟨_, _, by rw [number]; rfl, Log.read_eq left found, ?_⟩
  rw [scanned]
  exact List.mem_singleton_self _

private theorem left_of_removal
    (inside : OrderedMap.find? "wal" disk.top = some (.folder entries))
    (ordered : OrderedMap.Ordered entries) (plain : ∀ file ∈ removed, file.entry.isFile = true)
    {files : List (Nat × Bytes)} (holds : Log.Holds (Log.cleared disk) files) :
    ∃ front kept, files = front ++ kept ∧
      Log.Holds (Log.cleared later) (kept ++ [(sequence, [batch].flatMap Log.Batch.written)]) := by
  have listing := (Log.holds_cleared inside).mp holds
  have whole := Log.filter_filesOf ordered listing
  have below : ∀ file ∈ files, file.1 < sequence := by
    intro file member
    have numbered : Log.numbered file ∈ files.map Log.numbered := List.mem_map_of_mem member
    rw [← whole] at numbered
    exact above _ (List.mem_filter.mp numbered).1
  have grown := listing_withFile ordered listing below bound batch.written
  rw [parts, List.filter_append, List.filter_eq_self.mpr plain] at whole
  obtain ⟨front, kept, rfl, rfl, _⟩ := List.map_eq_append_iff.mp whole.symm
  rw [List.append_assoc] at grown
  refine ⟨front, kept, rfl, (Log.holds_cleared left).mpr ?_⟩
  rw [List.flatMap_singleton]
  exact listing_eraseAll grown

end Removal

/-- The draft of the new log file can be written: the snapshot can be encoded, and no directory
has the name of the draft. -/
def Drafts (store : Store) (disk : Disk) : Prop :=
  ∃ entries data, OrderedMap.find? "wal" disk.top = some (.folder entries) ∧
    Log.encodeBatch store.published.tree.snapshot store.nextTxid = .ok data ∧
    ∀ inner, OrderedMap.find? (draftName (checkpointSequence store.writer (Log.filesOf entries)))
      entries ≠ some (.folder inner)

theorem checkpoint_of_not_drafts (undrafted : ¬store.Drafts disk) :
    ∃ error, store.checkpoint disk = ((.error error, store), disk) := by
  obtain ⟨error, unlisted⟩ | ⟨entries, inside, listed⟩ := Log.files_cases disk
  · exact ⟨error, by simp only [checkpoint, unlisted]⟩
  · cases encoded : Log.encodeBatch store.published.tree.snapshot store.nextTxid with
    | error error => exact ⟨error, by simp only [checkpoint, listed, encoded]⟩
    | ok data =>
      have taken : ∃ inner, OrderedMap.find? (draftName (checkpointSequence store.writer
          (Log.filesOf entries))) entries = some (.folder inner) := by
        by_contra free
        exact undrafted ⟨entries, data, inside, encoded, not_exists.mp free⟩
      obtain ⟨inner, taken⟩ := taken
      obtain ⟨error, refused⟩ := replaceLog_of_taken inside taken store.writer data
      exact ⟨error, by simp only [checkpoint, listed, encoded, refused]⟩

/-- Once the draft is written, a directory under the name of a log file is all that can make the
checkpoint fail. -/
theorem checkpoint_of_drafts (wellFormed : store.published.tree.WellFormed)
    (inOrder : Log.InOrder disk) (number : store.nextTxid < Numeral.wordLimit)
    (room : ∀ existing, Log.files disk = (.ok existing, disk) →
      checkpointSequence store.writer existing < Numeral.wordLimit)
    (drafts : store.Drafts disk) :
    ∃ existing, Log.files disk = (.ok existing, disk) ∧
      ((∀ file ∈ existing, file.entry.isFile = true) ∧
          (∃ result after later, store.checkpoint disk = ((.ok result, after), later)) ∨
        ∃ error after later, store.checkpoint disk = ((.error error, after), later) ∧
          store.Displaced disk after later) := by
  obtain ⟨entries, data, inside, encoded, free⟩ := drafts
  have listed := Log.files_of_folder inside
  have ordered := inOrder entries inside
  have bound := room _ listed
  obtain ⟨writer, middle, replaced, sequence, within⟩ := replaceLog_of_free inside ordered free
    (find?_checkpointSequence store.writer bound) bound store.writer data
  have above : ∀ file ∈ Log.filesOf entries,
      file.sequence < checkpointSequence store.writer (Log.filesOf entries) :=
    fun _ member => below_checkpointSequence store.writer member
  have stored : ∀ file ∈ Log.filesOf entries, OrderedMap.find? file.name (withFile
      (checkpointSequence store.writer (Log.filesOf entries)) data entries) = some file.entry :=
    fun file member => find?_withFile_of_listed member ordered
      (Nat.ne_of_lt (above file member)) bound data
  obtain ⟨sound, rfl⟩ := sound_snapshot_of_encoded wellFormed number encoded
  have all := obsolete_filesOf store.writer entries
  unfold obsolete at all
  refine ⟨_, listed, ?_⟩
  obtain ⟨plain, later, removal⟩ | ⟨removed, blocked, rest, error, later, parts, plain, folder,
    removal, left⟩ := forM_removeFile_cases within stored (Log.pairwise_name_filesOf ordered)
  · refine .inl ⟨plain, ?_⟩
    simp only [checkpoint, listed, encoded, replaced, all, removal]
    exact ⟨_, _, _, rfl⟩
  · refine .inr ⟨error, { store with writer }, later, ?_, ?_⟩
    · simp only [checkpoint, listed, encoded, replaced, all, removal]
    · rw [← sequence] at bound above left
      refine ⟨rfl, ⟨_, blocked, listed, ?_, folder, sequence⟩,
        contains_of_removal above bound parts left sound, fun files holds =>
          left_of_removal above bound parts left inside ordered plain holds⟩
      rw [parts]
      exact List.mem_append_right _ List.mem_cons_self

private theorem room_of_folder {entries : Folder} {writer : Log.Writer}
    (inside : OrderedMap.find? "wal" disk.top = some (.folder entries))
    (bound : checkpointSequence writer (Log.filesOf entries) < Numeral.wordLimit) :
    ∀ existing, Log.files disk = (.ok existing, disk) →
      checkpointSequence writer existing < Numeral.wordLimit := by
  intro _ listed
  cases (Log.files_of_folder inside).symm.trans listed
  exact bound

theorem checkpoint_of_old_folder (wellFormed : store.published.tree.WellFormed)
    (inOrder : Log.InOrder disk) (number : store.nextTxid < Numeral.wordLimit)
    (room : ∀ existing, Log.files disk = (.ok existing, disk) →
      checkpointSequence store.writer existing < Numeral.wordLimit)
    (drafts : store.Drafts disk) {existing : List Log.File} {file : Log.File}
    (listed : Log.files disk = (.ok existing, disk)) (member : file ∈ existing)
    (folder : file.entry.isFile = false) :
    ∃ error after later, store.checkpoint disk = ((.error error, after), later) ∧
      store.Displaced disk after later := by
  obtain ⟨_, found, ⟨plain, _⟩ | failed⟩ :=
    checkpoint_of_drafts wellFormed inOrder number room drafts
  · cases listed.symm.trans found
    cases folder.symm.trans (plain file member)
  · exact failed

/-- Whatever of the older files is left is replayed before the snapshot. -/
theorem Displaced.load (displaced : store.Displaced disk after later)
    (wellFormed : store.published.tree.WellFormed) (inOrder : Log.InOrder disk)
    (sound : Log.Batch.Sound ⟨store.nextTxid, store.published.tree.snapshot⟩)
    (logged : ∀ batch, Log.Contains disk batch → batch.txid ≤ store.nextTxid)
    {files : List (Nat × Bytes)} (holds : Log.Holds (Log.cleared disk) files) {config : Config}
    (valid : config.validate = .ok ()) :
    ∃ removed kept, files = removed ++ kept ∧
      (Replays (kept.map Log.numbered) → ∃ again final,
        Store.load config (Log.cleared later) = (.ok again, final) ∧
          again.published = ⟨store.published.tree, store.nextTxid⟩) ∧
      (¬Replays (kept.map Log.numbered) → ∃ error final,
        Store.load config (Log.cleared later) = (.error error, final)) := by
  obtain ⟨removed, kept, rfl, left⟩ := displaced.left files holds
  have newest := List.forall_mem_singleton.mpr sound
  have below : ∀ batch ∈ Log.batchesOf kept, batch.txid ≤ store.nextTxid := by
    intro batch member
    refine logged batch ((Log.contains_iff_of_cleared inOrder holds).mpr ?_)
    rw [Log.batchesOf_append]
    exact List.mem_append_right _ member
  refine ⟨removed, kept, rfl, ?_, ?_⟩
  · rintro ⟨tree, reached⟩
    rw [flatMap_batches_numbered] at reached
    obtain ⟨writer, final, opened, _⟩ := load_of_holds valid newest left
      (replay_snapshot_batch wellFormed below ⟨tree, reached⟩)
    exact ⟨_, final, opened, rfl⟩
  · intro unreached
    unfold Replays at unreached
    rw [flatMap_batches_numbered] at unreached
    obtain ⟨cause, failed⟩ := replay_of_unreached _ unreached
    exact load_of_unreplayable valid newest left failed

theorem load_of_snapshot {tree : Bucket} {txid sequence : Nat} {config : Config}
    (storable : tree.Storable) (number : txid < Numeral.wordLimit)
    (valid : config.validate = .ok ())
    (holds : Log.Holds disk [(sequence, Log.Batch.written ⟨txid, tree.snapshot⟩)]) :
    ∃ writer later, load config disk = (.ok ⟨config, ⟨tree, txid⟩, txid + 1, writer⟩, later) ∧
      writer.sequence = sequence := by
  have sound := List.forall_mem_singleton.mpr (storable.sound_snapshot number)
  have replayed : replay (Log.batchesOf [] ++ [⟨txid, tree.snapshot⟩]) = .ok ⟨tree, txid⟩ :=
    replay_snapshot_batch storable nofun ⟨[], rfl⟩
  rw [← List.flatMap_singleton Log.Batch.written] at holds
  obtain ⟨writer, later, opened, same, _⟩ := load_of_holds valid sound holds replayed
  exact ⟨writer, later, opened, same⟩

section OldFolder

variable {contents : Bytes} {writer : Log.Writer}
  (inside : OrderedMap.find? "wal" disk.top =
    some (.folder [(Log.fileName 0, .folder []), (Log.fileName 1, .file contents)]))

private theorem files_behind_folder (contents : Bytes) :
    Log.filesOf [(Log.fileName 0, .folder []), (Log.fileName 1, .file contents)] =
      [⟨0, Log.fileName 0, .folder []⟩, ⟨1, Log.fileName 1, .file contents⟩] := by
  refine Log.filesOf_of_ascending ?_ (List.pairwise_pair.mpr (Nat.zero_le 1))
  rw [List.filterMap_cons_some (Log.ofEntry?_fileName 0 _ (by decide)),
    List.filterMap_cons_some (Log.ofEntry?_fileName 1 _ (by decide)), List.filterMap_nil]

private theorem sequence_behind_folder (sequence : writer.sequence = 1) (contents : Bytes) :
    checkpointSequence writer
      (Log.filesOf [(Log.fileName 0, .folder []), (Log.fileName 1, .file contents)]) = 2 := by
  rw [files_behind_folder, checkpointSequence, sequence]
  rfl

private theorem ordered_behind_folder (contents : Bytes) : OrderedMap.Ordered
    [(Log.fileName 0, DiskEntry.folder []), (Log.fileName 1, .file contents)] :=
  List.pairwise_pair.mpr (show Log.fileName 0 < Log.fileName 1 by decide +kernel)

include inside

private theorem drafts_behind_folder (sequence : writer.sequence = 1) :
    Drafts ⟨.relaxed, ⟨[], 1⟩, 2, writer⟩ disk := by
  have snapshot : Log.Batch.Sound ⟨2, Bucket.snapshot []⟩ :=
    Bucket.Storable.sound_snapshot Bucket.lawful_nil (by decide)
  refine ⟨_, _, inside, snapshot.encoded, ?_⟩
  rw [sequence_behind_folder sequence]
  have free : OrderedMap.find? (draftName 2)
      [(Log.fileName 0, DiskEntry.folder []), (Log.fileName 1, .file contents)] = none := by rfl
  rw [free]
  exact fun _ => nofun

private theorem checkpoint_behind_folder (sequence : writer.sequence = 1) :
    ∃ error after later,
      checkpoint ⟨.relaxed, ⟨[], 1⟩, 2, writer⟩ disk = ((.error error, after), later) ∧
        Displaced ⟨.relaxed, ⟨[], 1⟩, 2, writer⟩ disk after later := by
  have inOrder := Log.inOrder_of_folder inside (ordered_behind_folder contents)
  have room := room_of_folder inside (by rw [sequence_behind_folder sequence]; decide)
  have listed := Log.files_of_folder inside
  rw [files_behind_folder] at listed
  exact checkpoint_of_old_folder Bucket.lawful_nil inOrder (show 2 < Numeral.wordLimit by decide)
    room (drafts_behind_folder inside sequence) listed List.mem_cons_self rfl

/-- Whether the snapshot of the first checkpoint is removed or not, that of the second is replayed
behind it. -/
private theorem load_behind_folder {after : Store} {later : Disk}
    (same : contents = Log.Batch.written ⟨1, Bucket.snapshot []⟩)
    (displaced : Displaced ⟨.relaxed, ⟨[], 1⟩, 2, writer⟩ disk after later) :
    ∃ again final, load .relaxed (Log.cleared later) = (.ok again, final) ∧
      again.published = ⟨[], 2⟩ := by
  have first : Log.Batch.Sound ⟨1, Bucket.snapshot []⟩ :=
    Bucket.Storable.sound_snapshot Bucket.lawful_nil (by decide)
  have second : Log.Batch.Sound ⟨2, Bucket.snapshot []⟩ :=
    Bucket.Storable.sound_snapshot Bucket.lawful_nil (by decide)
  have inOrder := Log.inOrder_of_folder inside (ordered_behind_folder contents)
  have alone : Log.Holds (Log.cleared disk) [(1, contents)] :=
    (Log.holds_cleared inside).mpr (Log.listing_nil.insert 1 contents (by decide))
  have found := Log.batchesOf_one first 1
  rw [← same] at found
  have logged : ∀ batch, Log.Contains disk batch → batch.txid ≤ 2 := by
    intro batch member
    have one := (Log.contains_iff_of_cleared inOrder alone).mp member
    rw [found] at one
    rw [List.mem_singleton.mp one]
    decide
  have valid : Config.relaxed.validate = .ok () := rfl
  obtain ⟨removed, kept, parts, opens, _⟩ :=
    displaced.load Bucket.lawful_nil inOrder second logged alone valid
  refine opens ?_
  unfold Replays
  rw [flatMap_batches_numbered]
  obtain ⟨_, rfl⟩ | ⟨_, rfl⟩ := List.append_eq_singleton_iff.mp parts.symm
  · rw [found]
    exact ⟨[], rfl⟩
  · exact ⟨[], rfl⟩

end OldFolder

/-- A checkpoint that fails leaves tree and numbers of the store as they were.  It leaves no trace at
all exactly where the draft of the new log file cannot be written.  Where the draft is written, the
snapshot is in the log under the number that the next commit gets too; and once the directories are
gone the store opens with the same tree and the next number, if the older files that are left replay
on their own, and else not at all. -/
theorem checkpoint_failed (opened : store.Opened) (inOrder : Log.InOrder disk)
    (number : store.nextTxid < Numeral.wordLimit)
    (room : ∀ existing, Log.files disk = (.ok existing, disk) →
      checkpointSequence store.writer existing < Numeral.wordLimit)
    (failed : store.checkpoint disk = ((.error error, after), later)) :
    after.config = store.config ∧ after.published = store.published ∧
      after.nextTxid = store.nextTxid ∧
      (¬store.Drafts disk → after = store ∧ later = disk) ∧
      (store.Drafts disk → store.Displaced disk after later) ∧
      ((∀ batch, Log.Contains disk batch → batch.txid ≤ store.published.txid) →
        ((∀ batch, Log.Contains later batch → batch.txid < after.nextTxid) ↔ ¬store.Drafts disk) ∧
        (store.Drafts disk → ∀ files config, Log.Holds (Log.cleared disk) files →
          config.validate = .ok () → ∃ removed kept, files = removed ++ kept ∧
            (Replays (kept.map Log.numbered) → ∃ again final,
              load config (Log.cleared later) = (.ok again, final) ∧
                again.published = ⟨store.published.tree, store.published.txid + 1⟩) ∧
            (¬Replays (kept.map Log.numbered) → ∃ cause final,
              load config (Log.cleared later) = (.error cause, final)))) := by
  obtain ⟨tree, config, ⟨published, next⟩ | ⟨⟨_, ⟨⟩⟩, _⟩⟩ := checkpoint_published failed
  have undrafted : ¬store.Drafts disk → after = store ∧ later = disk := by
    intro none
    obtain ⟨_, kept⟩ := checkpoint_of_not_drafts none
    cases kept.symm.trans failed
    exact ⟨rfl, rfl⟩
  have drafted : store.Drafts disk → store.Displaced disk after later := by
    intro drafts
    obtain ⟨_, _, ⟨_, _, _, _, done⟩ | ⟨_, _, _, done, displaced⟩⟩ :=
      checkpoint_of_drafts opened.wellFormed inOrder number room drafts
    · cases done.symm.trans failed
    · cases done.symm.trans failed
      exact displaced
  refine ⟨config, published, next, undrafted, drafted, fun logged => ⟨⟨?_, ?_⟩, ?_⟩⟩
  · intro ahead drafts
    have again := ahead _ (drafted drafts).contains
    rw [next] at again
    exact Nat.lt_irrefl _ again
  · intro none batch member
    obtain ⟨rfl, rfl⟩ := undrafted none
    rw [opened.next]
    exact Nat.lt_succ_of_le (logged batch member)
  · intro drafts files config holds valid
    obtain ⟨_, _, _, encoded, _⟩ := id drafts
    obtain ⟨sound, _⟩ := sound_snapshot_of_encoded opened.wellFormed number encoded
    have below : ∀ batch, Log.Contains disk batch → batch.txid ≤ store.nextTxid := by
      intro batch member
      rw [opened.next]
      exact Nat.le_succ_of_le (logged batch member)
    rw [← opened.next]
    exact (drafted drafts).load opened.wellFormed inOrder sound below holds valid

/-- A directory has the name of the draft. -/
theorem checkpoint_failed_of_taken_draft :
    let entries := [(Log.fileName 0, .file []), (draftName 1, .folder [])]
    let disk : Disk := ⟨"data", Log.within entries [], []⟩
    ∃ store made error after later, load .relaxed (.empty "data") = (.ok store, made) ∧
      Log.Holds made [(0, [])] ∧ store.checkpoint disk = ((.error error, after), later) ∧
      after = store ∧ later = disk ∧
      ∀ batch, Log.Contains later batch → batch.txid < after.nextTxid := by
  intro entries disk
  obtain ⟨writer, made, opened, sequence, _, attached⟩ := load_of_empty .relaxed "data" rfl
  have holds := attached.holds
  rw [sequence] at holds
  have inside : OrderedMap.find? "wal" disk.top = some (.folder entries) := Log.find?_within _ _
  have listed : Log.filesOf entries = [⟨0, Log.fileName 0, .file []⟩] :=
    Log.filesOf_of_ascending (by rfl) (List.pairwise_singleton _ _)
  have next : checkpointSequence writer (Log.filesOf entries) = 1 := by
    rw [listed, checkpointSequence, sequence]
    rfl
  have undrafted : ¬Drafts ⟨.relaxed, ⟨[], 0⟩, 1, writer⟩ disk := by
    rintro ⟨_, _, found, _, free⟩
    cases inside.symm.trans found
    rw [next] at free
    exact free [] (by rfl)
  have inOrder : Log.InOrder disk :=
    Log.inOrder_of_folder inside (List.pairwise_pair.mpr (by decide +kernel))
  have room := room_of_folder inside (by rw [next]; decide)
  have alone : Log.Holds (Log.cleared disk) [(0, [])] :=
    (Log.holds_cleared inside).mpr (Log.listing_nil.insert 0 [] (by decide))
  have logged : ∀ batch, Log.Contains disk batch → batch.txid ≤ 0 := by
    intro batch member
    have none := (Log.contains_iff_of_cleared inOrder alone).mp member
    rw [Log.batchesOf, List.flatMap_singleton, Log.scan_eq, Log.Scan.run_nil] at none
    contradiction
  obtain ⟨error, failed⟩ := checkpoint_of_not_drafts undrafted
  obtain ⟨_, _, _, kept, _, further⟩ :=
    checkpoint_failed (.load opened) inOrder (show 1 < Numeral.wordLimit by decide) room failed
  obtain ⟨same, unchanged⟩ := kept undrafted
  exact ⟨_, made, error, _, disk, opened, holds, failed, same, unchanged,
    (further logged).1.mpr undrafted⟩

/-- A directory has the name of an older log file.  The next commit gets the number that the
snapshot has in the log, and once the directory is gone the store opens with that number, not with
the one before. -/
theorem checkpoint_failed_behind_old_folder :
    let batch : Log.Batch := ⟨1, [.checkpoint]⟩
    let first : Disk := ⟨"data", Log.within [(Log.fileName 1, .file batch.written)] [], []⟩
    let entries := [(Log.fileName 0, .folder []), (Log.fileName 1, .file batch.written)]
    let disk : Disk := ⟨"data", Log.within entries [], []⟩
    ∃ store made error after later unharmed last again final,
      load .relaxed first = (.ok store, made) ∧ store.published = ⟨[], 1⟩ ∧
      store.checkpoint disk = ((.error error, after), later) ∧
      after.nextTxid = 2 ∧ Log.Contains later ⟨2, [.checkpoint]⟩ ∧
      load .relaxed (Log.cleared disk) = (.ok unharmed, last) ∧ unharmed.published = ⟨[], 1⟩ ∧
      load .relaxed (Log.cleared later) = (.ok again, final) ∧ again.published = ⟨[], 2⟩ := by
  intro batch first entries disk
  have listing : Log.Listing [(Log.fileName 1, .file batch.written)] [(1, batch.written)] :=
    Log.listing_nil.insert 1 batch.written (by decide)
  have holds : Log.Holds first [(1, batch.written)] := Log.holds_within [] rfl listing
  have inside : OrderedMap.find? "wal" disk.top = some (.folder entries) := Log.find?_within _ _
  have alone : Log.Holds (Log.cleared disk) [(1, batch.written)] :=
    (Log.holds_cleared inside).mpr listing
  have valid : Config.relaxed.validate = .ok () := rfl
  obtain ⟨writer, made, opened, sequence⟩ :=
    load_of_snapshot Bucket.lawful_nil (by decide) valid holds
  obtain ⟨_, last, unharmed, _⟩ := load_of_snapshot Bucket.lawful_nil (by decide) valid alone
  obtain ⟨error, after, later, failed, displaced⟩ := checkpoint_behind_folder inside sequence
  obtain ⟨again, final, reopened, published⟩ := load_behind_folder inside rfl displaced
  exact ⟨_, made, error, after, later, _, last, again, final, opened, rfl, failed,
    congrArg Store.nextTxid displaced.writer, displaced.contains, unharmed, rfl, reopened,
    published⟩

end ClusterRegistry.Store
