import ClusterRegistry.Proofs.Log.TornBatch

/-!
A record that is overwritten inside a log file.  The reader passes over its bytes one by one and
comes out at the next record, but what it has taken in since the last commit record is damaged from
then on, and is dropped at the next commit record.  So damage to a record costs its own batch, while
damage to a commit record costs the batch that follows as well.
-/
namespace ClusterRegistry.Log

/-- The bytes of `patch` in the place of those from `offset` on. -/
def overwrite (data : Bytes) (offset : Nat) (patch : Bytes) : Bytes :=
  data.take offset ++ patch ++ data.drop (offset + patch.length)

/-- No record can be read at any of the `size` places from `offset` on. -/
def Unreadable (data : Bytes) (offset size : Nat) : Prop :=
  ∀ place < size, (Record.decode (data.drop (offset + place))).isOk = false

instance (data : Bytes) (offset size : Nat) : Decidable (Unreadable data offset size) :=
  inferInstanceAs (Decidable (∀ place < size, _))

/-- What was written for `before ++ batch :: after`, with the bytes of the record that follows
`front` in `batch` replaced by as many others, none of which is the first of a record. -/
def Overwritten (before : List Batch) (batch : Batch) (after : List Batch) (front : List Record)
    (record : Record) (contents : Bytes) : Prop :=
  ∃ data start parts old patch, encodeBatches (before ++ batch :: after) = .ok data ∧
    encodeBatches before = .ok start ∧ front.mapM Record.encode = .ok parts ∧
    record.encode = .ok old ∧ patch.length = old.length ∧
    contents = overwrite data (start ++ parts.flatten).length patch ∧
    Unreadable contents (start ++ parts.flatten).length patch.length

private theorem overwrite_append (front old rest : Bytes) {patch : Bytes}
    (size : patch.length = old.length) :
    overwrite (front ++ (old ++ rest)) front.length patch = front ++ (patch ++ rest) := by
  have behind : (front ++ (old ++ rest)).drop (front.length + patch.length) = rest := by
    rw [size, ← List.append_assoc, ← List.length_append]
    exact List.drop_left
  rw [overwrite, behind, List.take_left, List.append_assoc]

private theorem isOk_decode (data : Bytes) :
    (Record.decode data).isOk = (Record.read data).isOk := by
  unfold Record.decode
  cases Record.read data <;> rfl

namespace Scan

private theorem run_of_unreadable (scan : Scan) {patch : Bytes} (rest : Bytes) (some : patch ≠ [])
    (failed : Unreadable (patch ++ rest) 0 patch.length) :
    scan.run (patch ++ rest) = scan.damage.run rest := by
  have errors : ∀ offset < patch.length,
      (Record.read ((patch ++ rest).drop offset)).isOk = false := by
    intro offset inside
    have here := failed offset inside
    rwa [Nat.zero_add, isOk_decode] at here
  cases patch with
  | nil => exact absurd rfl some
  | cons byte later =>
    -- The first byte sets the flag; it stays set over all the others.
    have first := errors 0 (Nat.zero_lt_succ _)
    rw [List.drop_zero, List.cons_append] at first
    rw [List.cons_append, run_of_failed scan first]
    exact run_damage_of_errors scan later rest fun offset inside =>
      errors (offset + 1) (Nat.succ_lt_succ inside)

/-- Behind damage, the next commit record closes nothing and clears the flag. -/
theorem run_damaged_batch (scan : Scan) (batch : Batch) (rest : Bytes)
    (fits : ∀ record ∈ batch.records, record.Encodable)
    (unclosed : ∀ record ∈ batch.records, record.operation ≠ .commit) :
    scan.damage.run (batch.written ++ rest) = (border scan.batches rest).run rest := by
  rw [Batch.written, List.append_assoc, run_written_records _ _ _ fits unclosed,
    run_of_read (Record.read_written_append _ _ (encodable_commit _)), accept,
    if_pos (show (Record.commit batch.txid).operation = .commit from rfl)]
  simp [damage, border]

end Scan

/-- An overwritten file in parts, of which only the patch is not as it was written. -/
theorem Overwritten.parts {before after : List Batch} {batch : Batch} {front back : List Record}
    {record : Record} {contents : Bytes} (damaged : Overwritten before batch after front record contents)
    (proper : ∀ each ∈ before ++ batch :: after, each.Proper)
    (inside : batch.records ++ [Record.commit batch.txid] = front ++ record :: back) :
    (∀ each ∈ before ++ batch :: after, each.Sound) ∧
    ∃ patch, patch ≠ [] ∧
      contents = before.flatMap Batch.written ++ (front.flatMap Record.written ++
        (patch ++ (back.flatMap Record.written ++ after.flatMap Batch.written))) ∧
      Unreadable (patch ++ (back.flatMap Record.written ++ after.flatMap Batch.written)) 0
        patch.length := by
  obtain ⟨data, start, parts, old, patch, written, earlier, left, encoded, size, same, failed⟩ :=
    damaged
  obtain ⟨sound, rfl⟩ := encodeBatches_eq_ok written proper
  obtain ⟨-, rfl⟩ := encodeBatches_eq_ok earlier fun each member =>
    proper each (List.mem_append_left _ member)
  obtain ⟨-, rfl⟩ := (Outcome.mapM_eq_ok fun _ _ => Record.encode_eq_ok).mp left
  obtain ⟨-, rfl⟩ := Record.encode_eq_ok.mp encoded
  rw [← List.flatMap_def] at same failed
  have whole : (before ++ batch :: after).flatMap Batch.written =
      (before.flatMap Batch.written ++ front.flatMap Record.written) ++
        (record.written ++ (back.flatMap Record.written ++ after.flatMap Batch.written)) := by
    rw [List.flatMap_append, List.flatMap_cons, Batch.written_eq, inside, List.flatMap_append,
      List.flatMap_cons]
    simp only [List.append_assoc]
  rw [whole, overwrite_append _ _ _ size] at same
  subst same
  refine ⟨sound, patch, ?_, List.append_assoc _ _ _, ?_⟩
  · intro empty
    rw [empty, Record.length_written, Record.headerSize, List.length_nil] at size
    omega
  · intro place bound
    have here := failed place bound
    rwa [← List.drop_drop, List.drop_left, ← Nat.zero_add place] at here

section

variable {before after : List Batch} {batch : Batch} {front back : List Record} {record : Record}
  {contents : Bytes}

private theorem scan_overwritten_record (proper : ∀ each ∈ before ++ batch :: after, each.Proper)
    (inside : batch.records = front ++ record :: back)
    (damaged : Overwritten before batch after front record contents) :
    scan contents = Scan.border (before ++ after) [] := by
  obtain ⟨sound, patch, some, rfl, failed⟩ := damaged.parts proper
    (show _ = front ++ record :: (back ++ [Record.commit batch.txid]) by rw [inside]; simp)
  obtain ⟨soundBefore, sound⟩ := List.forall_mem_append.mp sound
  obtain ⟨own, soundAfter⟩ := List.forall_mem_cons.mp sound
  have frontFits := fun each member => own.encodable each (inside ▸ List.mem_append_left _ member)
  have frontUnclosed := fun each member =>
    own.unclosed each (inside ▸ List.mem_append_left _ member)
  have later : ∀ each ∈ back, each ∈ batch.records := fun each member =>
    inside ▸ List.mem_append_right _ (List.mem_cons_of_mem _ member)
  have ending := Batch.written_eq ⟨batch.txid, back⟩
  dsimp only at ending
  rw [scan_written_append before _ soundBefore,
    Scan.run_written_records _ front _ frontFits frontUnclosed,
    Scan.run_of_unreadable _ _ some failed, ← ending,
    Scan.run_damaged_batch _ ⟨batch.txid, back⟩ _ (fun each member => own.encodable each (later each member))
      fun each member => own.unclosed each (later each member)]
  have rest := Scan.run_written_batches before after [] soundAfter
  rw [List.append_nil, Scan.run_nil] at rest
  exact rest

/-- The batch behind an overwritten commit record is taken for the rest of the damaged one. -/
theorem batches_scan_overwritten_commit (proper : ∀ each ∈ before ++ batch :: after, each.Proper)
    (damaged : Overwritten before batch after batch.records (Record.commit batch.txid) contents) :
    (scan contents).batches = before ++ after.tail := by
  have alone : batch.records ++ [Record.commit batch.txid] =
      batch.records ++ Record.commit batch.txid :: [] := rfl
  obtain ⟨sound, patch, some, rfl, failed⟩ := damaged.parts proper alone
  obtain ⟨soundBefore, sound⟩ := List.forall_mem_append.mp sound
  obtain ⟨own, soundAfter⟩ := List.forall_mem_cons.mp sound
  rw [List.flatMap_nil, List.nil_append] at failed ⊢
  rw [scan_written_append before _ soundBefore,
    Scan.run_written_records _ batch.records _ own.encodable own.unclosed,
    Scan.run_of_unreadable _ _ some failed]
  cases after with
  | nil =>
    rw [List.flatMap_nil, Scan.run_nil]
    exact (List.append_nil before).symm
  | cons next later =>
    obtain ⟨soundNext, soundLater⟩ := List.forall_mem_cons.mp soundAfter
    rw [List.flatMap_cons, Scan.run_damaged_batch _ next _ soundNext.encodable soundNext.unclosed]
    have rest := Scan.run_written_batches before later [] soundLater
    rw [List.append_nil, Scan.run_nil] at rest
    exact congrArg Scan.batches rest

end

variable {disk : Disk} {older newer : List (Nat × Bytes)} {sequence : Nat} {contents : Bytes}

/-- What one log file has in it stands between what the older and the newer ones have. -/
theorem recover_between (holds : Holds disk (older ++ (sequence, contents) :: newer)) :
    ∃ recovery, recover disk = (.ok recovery, disk) ∧
      recovery.batches = batchesOf older ++ (scan contents).batches ++ batchesOf newer ∧
      (newer = [] → recovery.tail = some ⟨fileName sequence,
        contents.length - (scan contents).uncommitted.length, contents.length⟩) := by
  refine ⟨_, recover_of_holds holds, ?_, ?_⟩
  · rw [recovered_batches, List.flatMap_append, List.flatMap_cons, List.append_assoc]
    rfl
  · rintro rfl
    exact recovered_append_tail older sequence contents

/-- Whatever a record that is not a commit record is overwritten with, as long as no record can be
read inside it: its batch is lost and no other is, and the file ends behind a batch. -/
theorem recover_overwritten_record {before after : List Batch} {batch : Batch}
    {front back : List Record} {record : Record}
    (proper : ∀ each ∈ before ++ batch :: after, each.Proper)
    (inside : batch.records = front ++ record :: back)
    (damaged : Overwritten before batch after front record contents)
    (holds : Holds disk (older ++ (sequence, contents) :: newer)) :
    ∃ recovery, recover disk = (.ok recovery, disk) ∧
      recovery.batches = batchesOf older ++ (before ++ after) ++ batchesOf newer ∧
      (newer = [] →
        recovery.tail = some ⟨fileName sequence, contents.length, contents.length⟩) := by
  obtain ⟨recovery, ok, found, tail⟩ := recover_between holds
  rw [scan_overwritten_record proper inside damaged] at found tail
  exact ⟨recovery, ok, found, tail⟩

theorem recover_overwritten_record_of_middle_batch :
    let first : Batch := ⟨1, [.createBucket [] [97]]⟩
    let batch : Batch := ⟨2, [.put [[97]] [107] [118], .delete [[97]] [108]]⟩
    let last : Batch := ⟨3, [.put [[97]] [109] [119]]⟩
    -- The length in the header now runs past the end of the file.
    let patch := (Record.put [[97]] [107] [118]).written.set 6 255
    let contents := first.written ++ patch ++ (Record.delete [[97]] [108]).written ++
      (Record.commit 2).written ++ last.written
    let disk : Disk := ⟨"data", within [(fileName 0, .file contents)] [], []⟩
    Overwritten [first] batch [last] [] (.put [[97]] [107] [118]) contents ∧
      ∃ recovery, recover disk = (.ok recovery, disk) ∧ recovery.batches = [first, last] ∧
        recovery.tail = some ⟨fileName 0, contents.length, contents.length⟩ := by
  intro first batch last patch contents disk
  have proper : ∀ each ∈ [first] ++ batch :: [last], each.Proper :=
    List.forall_mem_cons.mpr ⟨⟨by decide, by decide⟩, List.forall_mem_cons.mpr
      ⟨⟨by decide, by decide⟩, List.forall_mem_singleton.mpr ⟨by decide, by decide⟩⟩⟩
  have damaged : Overwritten [first] batch [last] [] (.put [[97]] [107] [118]) contents :=
    ⟨_, first.written, [], _, patch, rfl, rfl, rfl, rfl, by decide +kernel, by decide +kernel,
      by decide +kernel⟩
  have holds : Holds disk ([] ++ (0, contents) :: []) :=
    holds_within [] rfl (listing_nil.insert 0 contents (by decide))
  obtain ⟨recovery, ok, found, tail⟩ := recover_overwritten_record proper rfl damaged holds
  exact ⟨damaged, recovery, ok, found, tail rfl⟩

/-- An overwritten commit record costs its own batch and the one behind it in the file.  So every
other batch is still there exactly where it closes the last batch of its file. -/
theorem recover_overwritten_commit {before after : List Batch} {batch : Batch}
    (proper : ∀ each ∈ before ++ batch :: after, each.Proper)
    (damaged : Overwritten before batch after batch.records (Record.commit batch.txid) contents)
    (holds : Holds disk (older ++ (sequence, contents) :: newer)) :
    ∃ recovery, recover disk = (.ok recovery, disk) ∧
      recovery.batches = batchesOf older ++ (before ++ after.tail) ++ batchesOf newer ∧
      ((batchesOf older ++ (before ++ after) ++ batchesOf newer).Sublist recovery.batches ↔
        after = []) := by
  obtain ⟨recovery, ok, found, -⟩ := recover_between holds
  rw [batches_scan_overwritten_commit proper damaged] at found
  refine ⟨recovery, ok, found, ?_⟩
  rw [found]
  constructor
  · intro kept
    have fewer := kept.length_le
    simp only [List.length_append, List.length_tail] at fewer
    exact List.eq_nil_of_length_eq_zero (by omega)
  · rintro rfl
    exact List.Sublist.refl _

theorem recover_overwritten_commit_of_last_batch :
    let first : Batch := ⟨1, [.createBucket [] [97]]⟩
    let batch : Batch := ⟨2, [.put [[97]] [107] [118]]⟩
    let contents := first.written ++ (Record.put [[97]] [107] [118]).written ++
      (Record.commit 2).written.set 0 0
    let disk : Disk := ⟨"data", within [(fileName 0, .file contents)] [], []⟩
    Overwritten [first] batch [] batch.records (Record.commit 2) contents ∧
      ∃ recovery, recover disk = (.ok recovery, disk) ∧ recovery.batches = [first] := by
  intro first batch contents disk
  have proper : ∀ each ∈ [first] ++ batch :: [], each.Proper :=
    List.forall_mem_cons.mpr ⟨⟨by decide, by decide⟩,
      List.forall_mem_singleton.mpr ⟨by decide, by decide⟩⟩
  have damaged : Overwritten [first] batch [] batch.records (Record.commit 2) contents :=
    ⟨_, first.written, _, _, (Record.commit 2).written.set 0 0, rfl, rfl, rfl, rfl,
      by decide +kernel, by decide +kernel, by decide +kernel⟩
  have holds : Holds disk ([] ++ (0, contents) :: []) :=
    holds_within [] rfl (listing_nil.insert 0 contents (by decide))
  obtain ⟨recovery, ok, found, -⟩ := recover_overwritten_commit proper damaged holds
  exact ⟨damaged, recovery, ok, found⟩

/-- Of two batches the first has its commit record overwritten, and neither is recovered. -/
theorem recover_overwritten_commit_of_first_batch :
    let batch : Batch := ⟨1, [.createBucket [] [97]]⟩
    let next : Batch := ⟨2, [.createBucket [] [98]]⟩
    let contents := (Record.createBucket [] [97]).written ++ (Record.commit 1).written.set 0 0x4D ++
      next.written
    let disk : Disk := ⟨"data", within [(fileName 0, .file contents)] [], []⟩
    batch.Proper ∧ next.Proper ∧
      Overwritten [] batch [next] batch.records (Record.commit 1) contents ∧
      Holds disk [(0, contents)] ∧
      ∃ recovery, recover disk = (.ok recovery, disk) ∧ next ∉ recovery.batches := by
  intro batch next contents disk
  have own : batch.Proper := ⟨by decide, by decide⟩
  have other : next.Proper := ⟨by decide, by decide⟩
  have proper : ∀ each ∈ [] ++ batch :: [next], each.Proper :=
    List.forall_mem_cons.mpr ⟨own, List.forall_mem_singleton.mpr other⟩
  have damaged : Overwritten [] batch [next] batch.records (Record.commit 1) contents :=
    ⟨_, [], _, _, (Record.commit 1).written.set 0 0x4D, rfl, rfl, rfl, rfl, by decide +kernel,
      by decide +kernel, by decide +kernel⟩
  have holds : Holds disk ([] ++ (0, contents) :: []) :=
    holds_within [] rfl (listing_nil.insert 0 contents (by decide))
  obtain ⟨recovery, ok, found, -⟩ := recover_between holds
  rw [batches_scan_overwritten_commit proper damaged] at found
  refine ⟨own, other, damaged, holds, recovery, ok, ?_⟩
  rw [found]
  exact List.not_mem_nil

end ClusterRegistry.Log
