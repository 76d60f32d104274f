import ClusterRegistry.Proofs.Log.CrashTail

/-!
A batch whose last bytes never reached the disk.  The record that is cut cannot be read, so the
reader looks for the next one byte by byte, inside the key and the value of the record that is cut.
Recovery is left with the earlier batches exactly where no two commit records stand there that the
reader takes one behind the other.
-/
namespace ClusterRegistry.Log

theorem Reaches.suffix {data place : Bytes} (reached : Reaches data place) : place <:+ data := by
  induction reached with
  | here data => exact List.suffix_rfl
  | record ok later ih => exact ih.trans (Record.suffix_of_read ok)
  | skip failed further ih => exact ih.trans (List.suffix_cons _ _)

theorem CommitFree.not_holdsBatch {data : Bytes} (free : CommitFree data) : ¬HoldsBatch data := by
  intro given
  obtain ⟨place, rest, record, reached, ok, closing, _⟩ := given
  exact (free.of_suffix reached.suffix).unclosed ok closing

theorem Scan.run_damage_of_errors (scan : Scan) (front rest : Bytes)
    (failed : ∀ offset < front.length,
      (Record.read ((front ++ rest).drop offset)).isOk = false) :
    scan.damage.run (front ++ rest) = scan.damage.run rest := by
  induction front with
  | nil => rfl
  | cons byte front ih =>
    have first := failed 0 (Nat.zero_lt_succ _)
    rw [List.drop_zero, List.cons_append] at first
    rw [List.cons_append, run_of_failed _ first]
    exact ih fun offset inside => failed (offset + 1) (Nat.succ_lt_succ inside)

variable {disk : Disk} {older : List (Nat × Bytes)} {sequence : Nat}

/-- However a batch is torn, the batches before it are found.  They are all that is found exactly
where the bytes of the one record that is cut hold no batch of their own, that is, no commit record
that the reader comes to with a whole batch behind it. -/
theorem recover_torn_batch {earlier : List Batch} {batch : Batch} {data whole torn : Bytes}
    (proper : ∀ batch ∈ earlier, batch.Proper) (written : encodeBatches earlier = .ok data)
    (lastProper : batch.Proper) (encoded : encodeBatch batch.records batch.txid = .ok whole)
    (front : torn <+: whole) (short : torn ≠ whole)
    (holds : Holds disk (older ++ [(sequence, data ++ torn)])) :
    ∃ recovery kept cut part, recover disk = (.ok recovery, disk) ∧
      batchesOf older ++ earlier <+: recovery.batches ∧
      kept ++ [cut] <+: batch.records ++ [Record.commit batch.txid] ∧
      torn = kept.flatMap Record.written ++ part ∧ part <+: cut.written ∧ part ≠ cut.written ∧
      (recovery.batches = batchesOf older ++ earlier ↔ ¬HoldsBatch part) := by
  obtain ⟨sound, rfl⟩ := encodeBatches_eq_ok written proper
  obtain ⟨fits, rfl⟩ := encodeBatch_eq_ok.mp encoded
  rw [Batch.written_eq] at front short
  obtain ⟨kept, cut, part, inside, rfl, start, differs⟩ := torn_records front short
  have cutFits : cut.Encodable := by
    have member := inside.subset (List.mem_append_right kept List.mem_cons_self)
    rcases List.mem_append.mp member with record | last
    · exact fits cut record
    · rw [List.mem_singleton.mp last]
      exact encodable_commit batch.txid
  have keptFront : kept <+: batch.records := by
    have fewer := inside.length_le
    simp only [List.length_append, List.length_singleton] at fewer
    exact List.prefix_of_prefix_length_le ((List.prefix_append kept [cut]).trans inside)
      (List.prefix_append _ _) (Nat.le_of_succ_le_succ fewer)
  have keptFits := fun record member => fits record (keptFront.subset member)
  have keptUnclosed := fun record member =>
    lastProper.unclosed record (keptFront.subset member)
  obtain ⟨error, failed⟩ := Record.read_of_prefix_written cutFits start differs
  refine ⟨_, kept, cut, part, recover_written_append sound holds, ?_, inside, rfl, start, differs, ?_⟩
  · exact (List.prefix_append_right_inj _).mpr
      ((Scan.border earlier _).batches_prefix_run _)
  · have added := Scan.run_batches_eq_iff
      (Scan.border earlier (kept.flatMap Record.written ++ part))
      (kept.flatMap Record.written ++ part)
    rw [startsBatch_written_append kept part keptFits keptUnclosed,
      holdsBatch_written_append kept part keptFits keptUnclosed] at added
    simp only [not_startsBatch_of_error failed, and_false, or_false] at added
    rw [List.append_cancel_left_eq]
    exact added

/-- The second of two batches is torn inside a value that starts like a record. -/
theorem recover_torn_batch_of_plain_value :
    let first : Batch := ⟨1, [.createBucket [] [97]]⟩
    let batch : Batch := ⟨2, [.put [[97]] [107] Record.magic]⟩
    let torn := batch.written.take 50
    let disk : Disk := ⟨"data", within [(fileName 0, .file (first.written ++ torn))] [], []⟩
    ∃ recovery, recover disk = (.ok recovery, disk) ∧ recovery.batches = [first] := by
  intro first batch torn disk
  have part : torn <+: batch.written := List.take_prefix _ _
  have short : torn ≠ batch.written := by decide +kernel
  have free : CommitFree torn := by decide +kernel
  have holds : Holds disk ([] ++ [(0, first.written ++ torn)]) :=
    holds_within [] rfl (listing_nil.insert 0 (first.written ++ torn) (by decide))
  have firstProper : ∀ each ∈ [first], each.Proper :=
    List.forall_mem_singleton.mpr ⟨by decide, by decide⟩
  have proper : batch.Proper := ⟨by decide, by decide⟩
  have written : encodeBatches [first] = .ok first.written := by rfl
  have encoded : encodeBatch batch.records batch.txid = .ok batch.written := by rfl
  obtain ⟨recovery, kept, cut, rest, found, _, _, parts, _, _, same⟩ :=
    recover_torn_batch firstProper written proper encoded part short holds
  have suffix : rest <:+ torn := parts ▸ List.suffix_append _ _
  exact ⟨recovery, found, same.mpr (free.of_suffix suffix).not_holdsBatch⟩

set_option maxRecDepth 10000 in
/-- The only batch ever written is number 1, and its last byte is missing.  Its value holds two
commit records, so recovery reports a batch number 2. -/
theorem recover_torn_batch_of_deceptive_value :
    let value := (Record.commit 1).written ++ (Record.commit 2).written ++ [0]
    let batch : Batch := ⟨1, [.put [[97]] [107] value]⟩
    let torn := (Record.put [[97]] [107] value).written.dropLast
    let disk : Disk := ⟨"data", within [(fileName 0, .file torn)] [], []⟩
    batch.Proper ∧ encodeBatch batch.records batch.txid = .ok batch.written ∧
      torn <+: batch.written ∧ torn ≠ batch.written ∧ Holds disk [(0, torn)] ∧
      ∃ recovery, recover disk = (.ok recovery, disk) ∧ recovery.batches = [⟨2, []⟩] := by
  intro value batch torn disk
  have part : torn <+: batch.written :=
    ((List.dropLast_prefix _).trans (List.prefix_append _ [])).trans (by decide +kernel)
  have holds : Holds disk [(0, torn)] :=
    holds_within [] rfl (listing_nil.insert 0 torn (by decide))
  refine ⟨⟨by decide, by decide⟩, by rfl, part, by decide +kernel, holds, _,
    recover_of_holds holds, ?_⟩
  -- The record that is cut overruns the file, and what is read next lies in its value.
  let front := (torn.take 46).drop 1
  let rest := (Record.commit 1).written ++ ((Record.commit 2).written ++ [])
  have parts : torn = 0x4C :: (front ++ rest) := by decide +kernel
  have overrun : (Record.read (0x4C :: (front ++ rest))).isOk = false := by decide +kernel
  have failed : ∀ offset < front.length,
      (Record.read ((front ++ rest).drop offset)).isOk = false := by decide +kernel
  have found : (Scan.border [] torn).run torn = Scan.border [⟨2, []⟩] [] := by
    rw [parts]
    cases read : Record.read (0x4C :: (front ++ rest)) with
    | ok found =>
      rw [read] at overrun
      contradiction
    | error error =>
      rw [Scan.run_of_error read, Scan.run_damage_of_errors _ _ _ failed,
        Scan.run_of_read (Record.read_written_append _ _ (encodable_commit 1)),
        Scan.run_of_read (Record.read_written_append _ _ (encodable_commit 2)), Scan.run_nil]
      rfl
  rw [recovered_batches, List.flatMap_singleton, scan_eq]
  exact congrArg Scan.batches found

end ClusterRegistry.Log
