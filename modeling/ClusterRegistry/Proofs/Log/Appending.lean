import ClusterRegistry.Log.Writer
import ClusterRegistry.Proofs.Log.Directory

/-!
A writer at work.  It stays attached to the newest log file: it knows its size, and the file that
it holds open is the one that recovery reads last.  Appending a batch adds the batch behind all
others, in the same file or in a new one; a batch that cannot be encoded changes nothing.
-/
namespace ClusterRegistry.Log

theorem append_of_located {disk : Disk} {handle : FileHandle} {path place : DiskPath}
    {data : Bytes} {activity : String} {top : Folder} (located : disk.location handle = some path)
    (modified : Folder.modify path (· ++ data) disk.top = .ok top) :
    DiskM.change (Disk.append handle data) place activity disk = (.ok (), { disk with top }) := by
  simp [DiskM.change, Disk.append, located, Disk.edit, modified, bind, Except.bind, pure,
    Except.pure]

/-- The writer appends to the newest log file, which holds `contents`; before it are `older`. -/
structure Attached (disk : Disk) (writer : Writer) (older : List (Nat × Bytes)) (contents : Bytes) :
    Prop where
  holds : Holds disk (older ++ [(writer.sequence, contents)])
  located : disk.location writer.handle = some (pathOf writer.name)
  size : writer.size = contents.length

namespace Attached

variable {disk : Disk} {writer : Writer} {older : List (Nat × Bytes)} {contents : Bytes}

theorem below (attached : Attached disk writer older contents) :
    ∀ file ∈ older, file.1 < writer.sequence := by
  obtain ⟨_, _, listing⟩ := attached.holds
  intro file member
  exact (OrderedMap.ordered_append.mp listing.ascending).2.2 file member _ List.mem_cons_self

theorem above (attached : Attached disk writer older contents) :
    ∀ file ∈ older ++ [(writer.sequence, contents)], file.1 < writer.sequence + 1 := by
  intro file member
  rcases List.mem_append.mp member with old | last
  · exact Nat.lt_succ_of_lt (attached.below file old)
  · rw [List.mem_singleton.mp last]
    exact Nat.lt_succ_self _

end Attached

theorem location_of_opened (disk : Disk) (top : Folder) (path : DiskPath) :
    (Disk.mk disk.place top (disk.opened ++ [some path])).location ⟨disk.opened.length⟩ =
      some path := by
  simp [Disk.location]

/-- A log file is opened as it is, and made where there is none. -/
theorem openSequence_of_entries {disk : Disk} {entries : Folder} {sequence : Nat} {contents : Bytes}
    (inside : OrderedMap.find? "wal" disk.top = some (.folder entries))
    (found : (OrderedMap.find? (fileName sequence) entries).getD (.file []) = .file contents)
    (rotationSize : Nat) :
    Writer.openSequence sequence rotationSize disk =
      (.ok ⟨sequence, contents.length, rotationSize, ⟨disk.opened.length⟩⟩,
        ⟨disk.place,
          within (OrderedMap.insert (fileName sequence) (.file contents) entries) disk.top,
          disk.opened ++ [some (pathOf (fileName sequence))]⟩) := by
  have kept : Folder.changeContents id
      (some ((OrderedMap.find? (fileName sequence) entries).getD (.file []))) =
      .ok (some (.file contents)) := by
    rw [found]
    rfl
  have opened : Folder.write (pathOf (fileName sequence)) id disk.top = .ok (within
      (OrderedMap.insert (fileName sequence) (.file contents) entries) disk.top) :=
    alter_of_some inside kept
  have here : OrderedMap.find? (fileName sequence) (OrderedMap.insert (fileName sequence)
      (.file contents) entries) = some (.file contents) := by
    rw [OrderedMap.find?_insert, if_pos rfl]
  unfold Writer.openSequence
  rw [DiskM.bind_of_ok (DiskM.edit_of_ok opened),
    DiskM.bind_of_ok (DiskM.view_of_ok (read_eq (find?_within _ _) here))]
  rfl

/-- Opening a log file that is there changes none. -/
theorem openSequence_of_file {disk : Disk} {entries : Folder} {sequence : Nat} {contents : Bytes}
    (inside : OrderedMap.find? "wal" disk.top = some (.folder entries))
    (ordered : OrderedMap.Ordered entries)
    (found : OrderedMap.find? (fileName sequence) entries = some (.file contents))
    (rotationSize : Nat) :
    Writer.openSequence sequence rotationSize disk =
      (.ok ⟨sequence, contents.length, rotationSize, ⟨disk.opened.length⟩⟩,
        ⟨disk.place, within entries disk.top,
          disk.opened ++ [some (pathOf (fileName sequence))]⟩) := by
  have stored : (OrderedMap.find? (fileName sequence) entries).getD (.file []) =
      .file contents := by
    rw [found]
    rfl
  rw [openSequence_of_entries inside stored, OrderedMap.insert_of_find? ordered found]

theorem openSequence_of_holds {disk : Disk} {files : List (Nat × Bytes)} (holds : Holds disk files)
    (sequence rotationSize : Nat) (bound : sequence < Numeral.wordLimit) :
    ∃ later, Writer.openSequence sequence rotationSize disk =
        (.ok ⟨sequence, ((OrderedMap.find? sequence files).getD []).length, rotationSize,
          ⟨disk.opened.length⟩⟩, later) ∧
      Holds later (OrderedMap.insert sequence ((OrderedMap.find? sequence files).getD []) files) ∧
      later.location ⟨disk.opened.length⟩ = some (pathOf (fileName sequence)) := by
  obtain ⟨entries, inside, listing⟩ := holds
  have contents : (OrderedMap.find? (fileName sequence) entries).getD (.file []) =
      .file ((OrderedMap.find? sequence files).getD []) := by
    rw [listing.stored sequence bound]
    cases OrderedMap.find? sequence files <;> rfl
  exact ⟨_, openSequence_of_entries inside contents rotationSize,
    holds_within disk.top rfl (listing.insert sequence _ bound), location_of_opened _ _ _⟩

theorem openNewest_of_holds {disk : Disk} {older : List (Nat × Bytes)} {sequence : Nat}
    {contents : Bytes} (holds : Holds disk (older ++ [(sequence, contents)]))
    (rotationSize : Nat) :
    ∃ writer later, Writer.openNewest rotationSize disk = (.ok writer, later) ∧
      writer.sequence = sequence ∧ writer.rotationSize = rotationSize ∧
      Attached later writer older contents := by
  obtain ⟨made, ok, holds⟩ := makeFolder_of_holds holds
  obtain ⟨_, _, listing⟩ := id holds
  have newest : (sequence, contents) ∈ older ++ [(sequence, contents)] :=
    List.mem_append_right _ List.mem_cons_self
  have found := OrderedMap.find?_of_mem listing.ascending newest
  obtain ⟨later, opened, grown, located⟩ := openSequence_of_holds holds sequence rotationSize
    (listing.bounded _ newest)
  rw [found, Option.getD_some, OrderedMap.insert_of_find? listing.ascending found] at grown
  rw [found, Option.getD_some] at opened
  refine ⟨⟨sequence, contents.length, rotationSize, ⟨made.opened.length⟩⟩, later, ?_, rfl, rfl,
    grown, located, rfl⟩
  unfold Writer.openNewest
  rw [DiskM.bind_of_ok ok, DiskM.bind_of_ok (files_of_holds holds), List.map_append,
    List.map_singleton, List.getLast?_concat]
  exact opened

theorem openNewest_of_made {disk made : Disk} (ok : makeFolder disk = (.ok (), made))
    (holds : Holds made []) (rotationSize : Nat) :
    ∃ writer later, Writer.openNewest rotationSize disk = (.ok writer, later) ∧
      writer.sequence = 0 ∧ writer.rotationSize = rotationSize ∧ Attached later writer [] [] := by
  obtain ⟨later, opened, grown, located⟩ :=
    openSequence_of_holds holds 0 rotationSize (by decide)
  refine ⟨⟨0, 0, rotationSize, ⟨made.opened.length⟩⟩, later, ?_, rfl, rfl, grown, located, rfl⟩
  unfold Writer.openNewest
  rw [DiskM.bind_of_ok ok, DiskM.bind_of_ok (files_of_holds holds)]
  exact opened

theorem openNewest_of_empty {disk : Disk} (holds : Holds disk []) (rotationSize : Nat) :
    ∃ writer later, Writer.openNewest rotationSize disk = (.ok writer, later) ∧
      writer.sequence = 0 ∧ writer.rotationSize = rotationSize ∧ Attached later writer [] [] := by
  obtain ⟨made, ok, holds⟩ := makeFolder_of_holds holds
  exact openNewest_of_made ok holds rotationSize

theorem encoded_of_ok {disk : Disk} {records : List Record} {txid : Nat} {data : Bytes}
    (ok : encodeBatch records txid = .ok data) :
    (liftM (encodeBatch records txid) : DiskM Bytes) disk = (.ok data, disk) := by
  rw [ok]
  rfl

section Steps

variable {disk : Disk} {writer : Writer}

/-- The bytes go to the end of the file that the writer holds open. -/
theorem write_of_entries {entries : Folder} {contents : Bytes}
    (inside : OrderedMap.find? "wal" disk.top = some (.folder entries))
    (found : OrderedMap.find? (fileName writer.sequence) entries = some (.file contents))
    (located : disk.location writer.handle = some (pathOf writer.name)) (data : Bytes) :
    writer.write data disk = (.ok { writer with size := writer.size + data.length },
      { disk with top := within (OrderedMap.insert (fileName writer.sequence)
        (.file (contents ++ data)) entries) disk.top }) := by
  have changed : Folder.changeContents (· ++ data)
      (OrderedMap.find? (fileName writer.sequence) entries) =
      .ok (some (.file (contents ++ data))) := by
    rw [found]
    rfl
  unfold Writer.write
  rw [DiskM.bind_of_ok (append_of_located located (alter_of_some inside changed))]
  rfl

variable {records : List Record} {txid : Nat} {data : Bytes}

theorem append_of_room (ok : encodeBatch records txid = .ok data)
    (room : ¬(0 < writer.size ∧ writer.rotationSize < writer.size + data.length)) :
    writer.append records txid disk = writer.write data disk := by
  have stayed : writer.rotate data.length disk = (.ok writer, disk) := by
    rw [Writer.rotate, if_neg room]
    rfl
  unfold Writer.append
  rw [DiskM.bind_of_ok (encoded_of_ok ok), DiskM.bind_of_ok stayed]

theorem append_of_full {fresh : Writer} {middle : Disk} (ok : encodeBatch records txid = .ok data)
    (full : 0 < writer.size ∧ writer.rotationSize < writer.size + data.length)
    (opened : Writer.openSequence (writer.sequence + 1) writer.rotationSize disk =
      (.ok fresh, middle)) : writer.append records txid disk = fresh.write data middle := by
  have rotated : writer.rotate data.length disk = (.ok fresh, middle) := by
    rw [Writer.rotate, if_pos full, opened]
  unfold Writer.append
  rw [DiskM.bind_of_ok (encoded_of_ok ok), DiskM.bind_of_ok rotated]

end Steps

namespace Attached

variable {disk : Disk} {writer : Writer} {older : List (Nat × Bytes)} {contents : Bytes}

theorem write (attached : Attached disk writer older contents) (data : Bytes) :
    ∃ next later, writer.write data disk = (.ok next, later) ∧
      next.sequence = writer.sequence ∧ next.rotationSize = writer.rotationSize ∧
      Attached later next older (contents ++ data) := by
  obtain ⟨⟨entries, inside, listing⟩, located, size⟩ := attached
  have newest : (writer.sequence, contents) ∈ older ++ [(writer.sequence, contents)] :=
    List.mem_append_right _ List.mem_cons_self
  have grown := listing.insert writer.sequence (contents ++ data) (listing.bounded _ newest)
  rw [OrderedMap.insert_last _ _ _ listing.ascending] at grown
  exact ⟨_, _, write_of_entries inside (listing.stored_of_mem newest) located data, rfl, rfl,
    holds_within disk.top rfl grown, located, by simp [size]⟩

theorem openNext (attached : Attached disk writer older contents)
    (bound : writer.sequence + 1 < Numeral.wordLimit) :
    ∃ next later, Writer.openSequence (writer.sequence + 1) writer.rotationSize disk =
        (.ok next, later) ∧ next.sequence = writer.sequence + 1 ∧
      next.rotationSize = writer.rotationSize ∧
      Attached later next (older ++ [(writer.sequence, contents)]) [] := by
  have absent : OrderedMap.find? (writer.sequence + 1) (older ++ [(writer.sequence, contents)]) =
      none := by
    cases found : OrderedMap.find? (writer.sequence + 1)
        (older ++ [(writer.sequence, contents)]) with
    | none => rfl
    | some _ => exact absurd (attached.above _ (OrderedMap.mem_of_find? found)) (Nat.lt_irrefl _)
  obtain ⟨later, opened, holds, located⟩ := openSequence_of_holds attached.holds
    (writer.sequence + 1) writer.rotationSize bound
  rw [absent, Option.getD_none, OrderedMap.insert_above _ _ attached.above] at holds
  exact ⟨_, later, opened, rfl, rfl, holds, located, by rw [absent]; rfl⟩

theorem append_here (attached : Attached disk writer older contents) {records : List Record}
    {txid : Nat} {data : Bytes} (ok : encodeBatch records txid = .ok data)
    (room : ¬(0 < writer.size ∧ writer.rotationSize < writer.size + data.length)) :
    ∃ next later, writer.append records txid disk = (.ok next, later) ∧
      next.sequence = writer.sequence ∧ next.rotationSize = writer.rotationSize ∧
      Attached later next older (contents ++ data) := by
  rw [append_of_room ok room]
  exact attached.write data

theorem append_next (attached : Attached disk writer older contents) {records : List Record}
    {txid : Nat} {data : Bytes} (ok : encodeBatch records txid = .ok data)
    (full : 0 < writer.size ∧ writer.rotationSize < writer.size + data.length)
    (bound : writer.sequence + 1 < Numeral.wordLimit) :
    ∃ next later, writer.append records txid disk = (.ok next, later) ∧
      next.sequence = writer.sequence + 1 ∧ next.rotationSize = writer.rotationSize ∧
      Attached later next (older ++ [(writer.sequence, contents)]) data := by
  obtain ⟨fresh, middle, opened, sequence, rotation, empty⟩ := attached.openNext bound
  obtain ⟨next, later, written, same, kept, grown⟩ := empty.write data
  refine ⟨next, later, ?_, same.trans sequence, kept.trans rotation, grown⟩
  rw [append_of_full ok full opened, written]

end Attached

theorem append_of_refused {writer : Writer} {records : List Record} {txid : Nat}
    {error : StoreError} (refused : encodeBatch records txid = .error error) (disk : Disk) :
    writer.append records txid disk = (.error error, disk) := by
  have failed : (liftM (encodeBatch records txid) : DiskM Bytes) disk = (.error error, disk) := by
    rw [refused]
    rfl
  unfold Writer.append
  rw [DiskM.bind_of_error failed]

theorem encodable_of_append {writer next : Writer} {records : List Record} {txid : Nat}
    {disk later : Disk} (done : writer.append records txid disk = (.ok next, later)) :
    ∀ record ∈ records, record.Encodable := by
  cases encoded : encodeBatch records txid with
  | ok data => exact (encodeBatch_eq_ok.mp encoded).1
  | error error => cases (append_of_refused encoded disk).symm.trans done

/-- The writer stands behind a whole batch, and all batches of the log are `batches`. -/
def Ready (disk : Disk) (writer : Writer) (batches : List Batch) : Prop :=
  ∃ older last, (∀ batch ∈ last, batch.Sound) ∧
    Attached disk writer older (last.flatMap Batch.written) ∧ batches = batchesOf older ++ last

namespace Ready

variable {disk : Disk} {writer : Writer} {batches : List Batch}

theorem recover (ready : Ready disk writer batches) :
    recover disk = (.ok ⟨batches, some ⟨writer.name, writer.size, writer.size⟩⟩, disk) := by
  obtain ⟨older, last, sound, attached, rfl⟩ := ready
  rw [recover_written sound attached.holds, attached.size]
  rfl

theorem append (ready : Ready disk writer batches) {batch : Batch} (sound : batch.Sound)
    (bound : writer.sequence + 1 < Numeral.wordLimit) :
    ∃ next later, writer.append batch.records batch.txid disk = (.ok next, later) ∧
      next.rotationSize = writer.rotationSize ∧ next.sequence ≤ writer.sequence + 1 ∧
      Ready later next (batches ++ [batch]) := by
  obtain ⟨older, last, lastSound, attached, rfl⟩ := ready
  by_cases full : 0 < writer.size ∧ writer.rotationSize < writer.size + batch.written.length
  · obtain ⟨next, later, ok, sequence, rotation, fresh⟩ :=
      attached.append_next sound.encoded full bound
    refine ⟨next, later, ok, rotation, Nat.le_of_eq sequence,
      older ++ [(writer.sequence, last.flatMap Batch.written)], [batch], ?_, ?_, ?_⟩
    · intro each member
      exact List.mem_singleton.mp member ▸ sound
    · rwa [List.flatMap_singleton]
    · rw [batchesOf_append, batchesOf_written lastSound]
  · obtain ⟨next, later, ok, sequence, rotation, grown⟩ :=
      attached.append_here sound.encoded full
    refine ⟨next, later, ok, rotation, Nat.le_succ_of_le (Nat.le_of_eq sequence), older,
      last ++ [batch], ?_, ?_, ?_⟩
    · intro each member
      rcases List.mem_append.mp member with old | new
      · exact lastSound each old
      · exact List.mem_singleton.mp new ▸ sound
    · rwa [List.flatMap_append, List.flatMap_singleton]
    · rw [List.append_assoc]

theorem resume (ready : Ready disk writer batches) (rotationSize : Nat) :
    ∃ next later, Writer.openNewest rotationSize disk = (.ok next, later) ∧
      next.sequence = writer.sequence ∧ Ready later next batches := by
  obtain ⟨older, last, sound, attached, rfl⟩ := ready
  obtain ⟨next, later, opened, sequence, _, again⟩ :=
    openNewest_of_holds attached.holds rotationSize
  exact ⟨next, later, opened, sequence, older, last, sound, again, rfl⟩

end Ready

end ClusterRegistry.Log
