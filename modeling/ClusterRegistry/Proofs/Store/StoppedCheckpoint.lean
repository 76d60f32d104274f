import ClusterRegistry.Proofs.Store.Session

/-!
A process that ends in the middle of a checkpoint.  As long as the draft has not been renamed the
store opens as it was.  After that the snapshot is replayed last; but first the older files that
are still there are replayed, and where the oldest of them are gone the others may not replay.
-/
namespace ClusterRegistry

def Log.File.batches (file : File) : List Batch :=
  match file.entry with
  | .file contents => (scan contents).batches
  | .folder _ => []

namespace Store

inductive StopPoint where
  | beforeDraft
  /-- So many bytes of the draft are written. -/
  | drafting (size : Nat)
  /-- The draft is renamed, and so many of the older files are removed. -/
  | removing (count : Nat)

def StopPoint.isRenamed : StopPoint → Bool
  | .removing _ => true
  | _ => false

/-- What a checkpoint that stops leaves on the disk. -/
def stopped (store : Store) (stop : StopPoint) (disk : Disk) : Disk :=
  match Log.files disk with
  | (.error _, disk) => disk
  | (.ok existing, disk) =>
    match Log.encodeBatch store.published.tree.snapshot store.nextTxid with
    | .error _ => disk
    | .ok data =>
      let sequence := checkpointSequence store.writer existing
      match stop with
      | .beforeDraft => disk
      | .drafting size => (writeDraft sequence (data.take size) disk).2
      | .removing count =>
        match replaceLog store.writer sequence data disk with
        | (.error _, disk) => disk
        | (.ok _, disk) =>
          let obsolete := existing.filter fun file => file.sequence < sequence
          ((obsolete.take count).forM removeFile disk).2

theorem stopped_of_all {disk : Disk} {existing : List Log.File} {count : Nat} (store : Store)
    (listed : Log.files disk = (.ok existing, disk)) (all : existing.length ≤ count) :
    store.stopped (.removing count) disk = (store.checkpoint disk).2 := by
  have few := Nat.le_trans (List.length_filter_le
    (fun file => file.sequence < checkpointSequence store.writer existing) existing) all
  unfold stopped checkpoint
  simp only [listed]
  cases encoded : Log.encodeBatch store.published.tree.snapshot store.nextTxid with
  | error error => rfl
  | ok data =>
    dsimp only
    rcases replaceLog store.writer (checkpointSequence store.writer existing) data disk
      with ⟨error | writer, last⟩
    · rfl
    · simp only [List.take_of_length_le few]
      cases removed : (existing.filter fun file =>
          file.sequence < checkpointSequence store.writer existing).forM removeFile last with
      | mk outcome final => cases outcome <;> rfl

variable {disk : Disk} {store : Store} {older : List (Nat × Bytes)} {contents data : Bytes}

theorem stopped_of_draft {stop : StopPoint} (early : stop.isRenamed = false)
    (attached : Log.Attached disk store.writer older contents)
    (encoded : Log.encodeBatch store.published.tree.snapshot store.nextTxid = .ok data) :
    Log.Holds (store.stopped stop disk) (older ++ [(store.writer.sequence, contents)]) := by
  unfold stopped
  simp only [Log.files_of_holds attached.holds, encoded]
  cases stop with
  | beforeDraft => exact attached.holds
  | drafting size =>
    obtain ⟨later, written, draft⟩ := writeDraft_of_holds attached.holds (checkpointSequence
      store.writer ((older ++ [(store.writer.sequence, contents)]).map Log.numbered))
      (data.take size)
    simp only [written]
    exact draft.holds
  | removing count => contradiction

theorem stopped_of_renamed (store : Store)
    (attached : Log.Attached disk store.writer older contents)
    (encoded : Log.encodeBatch store.published.tree.snapshot store.nextTxid = .ok data)
    (bound : store.writer.sequence + 1 < Numeral.wordLimit) (count : Nat) :
    Log.Holds (store.stopped (.removing count) disk)
      ((older ++ [(store.writer.sequence, contents)]).drop count ++
        [(store.writer.sequence + 1, data)]) := by
  obtain ⟨writer, middle, replaced, sequence, _, renamed⟩ :=
    replaceLog_of_attached attached bound data
  rw [← List.take_append_drop count (older ++ [(store.writer.sequence, contents)])] at renamed
  obtain ⟨later, removed, kept⟩ := forM_removeFile_of_attached renamed
  unfold stopped
  simp only [Log.files_of_holds attached.holds, encoded, checkpointSequence_of_newest, replaced,
    obsolete_of_above attached.above, ← List.map_take, removed]
  rw [← sequence]
  exact kept.holds

theorem flatMap_batches_numbered (files : List (Nat × Bytes)) :
    (files.map Log.numbered).flatMap Log.File.batches = Log.batchesOf files := by
  rw [List.flatMap_map]
  rfl

def Replays (files : List Log.File) : Prop :=
  ∃ tree, Bucket.replay (recordsOf (files.flatMap Log.File.batches)) [] = .ok tree

theorem replays_drop_numbered (files : List (Nat × Bytes)) (count : Nat) :
    Replays ((files.map Log.numbered).drop count) ↔
      ∃ tree, Bucket.replay (recordsOf (Log.batchesOf (files.drop count))) [] = .ok tree := by
  rw [Replays, ← List.map_drop, flatMap_batches_numbered]

theorem replay_snapshot_batch {fits : Record → Prop} {tree : Bucket}
    (lawful : Bucket.Lawful fits [] tree) {kept : List Log.Batch} {txid : Nat}
    (below : ∀ batch ∈ kept, batch.txid ≤ txid)
    (reached : ∃ middle, Bucket.replay (recordsOf kept) [] = .ok middle) :
    replay (kept ++ [⟨txid, tree.snapshot⟩]) = .ok ⟨tree, txid⟩ := by
  obtain ⟨middle, before⟩ := reached
  have highest := lastTxid_append kept ⟨txid, tree.snapshot⟩ (lastTxid_le.mpr below)
  apply replay_eq_ok.mpr
  refine ⟨?_, highest.symm⟩
  rw [recordsOf_append, Bucket.replay_append, before, recordsOf_singleton]
  exact lawful.replay_snapshot middle

theorem replay_of_unreached {kept : List Log.Batch} (later : List Log.Batch)
    (unreached : ¬∃ middle, Bucket.replay (recordsOf kept) [] = .ok middle) :
    ∃ cause, replay (kept ++ later) = .error cause := by
  cases all : replay (kept ++ later) with
  | error cause => exact ⟨cause, rfl⟩
  | ok snapshot =>
    obtain ⟨whole, _⟩ := replay_eq_ok.mp all
    rw [recordsOf_append, Bucket.replay_append] at whole
    obtain ⟨middle, before, _⟩ := Outcome.bind_eq_ok.mp whole
    exact absurd ⟨middle, before⟩ unreached

private theorem mem_batchesOf_drop {files : List (Nat × Bytes)} {count : Nat} {batch : Log.Batch}
    (member : batch ∈ Log.batchesOf (files.drop count)) : batch ∈ Log.batchesOf files := by
  obtain ⟨file, inside, found⟩ := List.mem_flatMap.mp member
  exact List.mem_flatMap.mpr ⟨file, List.mem_of_mem_drop inside, found⟩

end Store

namespace Session

namespace Synced

variable {session : Session} {batches : List Log.Batch} {opening : Config}

theorem load_stopped_early (synced : session.Synced batches)
    (number : session.store.nextTxid < Numeral.wordLimit) {stop : Store.StopPoint}
    (early : stop.isRenamed = false) (valid : opening.validate = .ok ()) :
    ∃ store later,
      Store.load opening (session.store.stopped stop session.disk) = (.ok store, later) ∧
        store.published = session.store.published := by
  obtain ⟨older, last, sound, attached, rfl⟩ := id synced.ready
  have holds := Store.stopped_of_draft early attached (synced.storable.sound_snapshot number).encoded
  obtain ⟨writer, later, opened, _⟩ := Store.load_of_holds valid sound holds synced.replayed
  exact ⟨_, later, opened, rfl⟩

theorem load_stopped_late (synced : session.Synced batches)
    (number : session.store.nextTxid < Numeral.wordLimit)
    (room : session.store.writer.sequence + 1 < Numeral.wordLimit)
    (valid : opening.validate = .ok ()) :
    ∃ existing, Log.files session.disk = (.ok existing, session.disk) ∧ ∀ count,
      (Store.Replays (existing.drop count) → ∃ store later,
        Store.load opening (session.store.stopped (.removing count) session.disk) =
            (.ok store, later) ∧
          store.published = ⟨session.store.published.tree, session.store.published.txid + 1⟩) ∧
      (¬Store.Replays (existing.drop count) → ∃ error later,
        Store.load opening (session.store.stopped (.removing count) session.disk) =
          (.error error, later)) ∧
      (count = 0 ∨ existing.length ≤ count → Store.Replays (existing.drop count)) := by
  obtain ⟨older, last, sound, attached, whole⟩ := id synced.ready
  obtain ⟨tree, highest⟩ := Store.replay_eq_ok.mp synced.replayed
  have snapshot := synced.storable.sound_snapshot number
  let files := older ++ [(session.store.writer.sequence, last.flatMap Log.Batch.written)]
  have all : Log.batchesOf files = batches := by
    rw [whole, Log.batchesOf_append, Log.batchesOf_written sound]
  refine ⟨files.map Log.numbered, Log.files_of_holds attached.holds, ?_⟩
  intro count
  have below : ∀ batch ∈ Log.batchesOf (files.drop count),
      batch.txid ≤ session.store.nextTxid := by
    intro batch member
    have old : batch ∈ batches := all ▸ Store.mem_batchesOf_drop member
    rw [synced.next]
    exact Nat.le_succ_of_le (Store.lastTxid_le.mp (Nat.le_of_eq highest.symm) batch old)
  have holds := Store.stopped_of_renamed session.store attached snapshot.encoded room count
  have newest := List.forall_mem_singleton.mpr snapshot
  rw [← List.flatMap_singleton Log.Batch.written] at holds
  rw [Store.replays_drop_numbered]
  refine ⟨?_, ?_, ?_⟩
  · intro reached
    have replayed := Store.replay_snapshot_batch synced.storable below reached
    obtain ⟨writer, later, opened, _⟩ := Store.load_of_holds valid newest holds replayed
    exact ⟨_, later, opened, by rw [synced.next]⟩
  · intro unreached
    obtain ⟨cause, failed⟩ := Store.replay_of_unreached _ unreached
    exact Store.load_of_unreplayable valid newest holds failed
  · intro ends
    rcases ends with first | none
    · rw [first, List.drop_zero, all]
      exact ⟨_, tree⟩
    · rw [List.length_map] at none
      rw [List.drop_eq_nil_of_le none]
      exact ⟨[], rfl⟩

end Synced

section OwnFiles

/-- A value may be as long as a log file before it is followed by another one. -/
def smallFiles : Config :=
  ⟨65536, 1024, 65536, .relaxed⟩

/-- After `steps` the newest log file holds `last` alone, and the ones before it are `older`. -/
def EndsWith (steps : List Step) (tree : Bucket) (older : List (Nat × Bytes)) (last : Log.Batch) :
    Prop :=
  ∃ writer disk, run smallFiles "data" steps =
      .ok ⟨⟨smallFiles, ⟨tree, last.txid⟩, last.txid + 1, writer⟩, disk⟩ ∧
    writer.sequence = older.length ∧ writer.rotationSize = smallFiles.rotationSize ∧
    Log.Attached disk writer older last.written

private theorem endsWith_first {edits : List Edit} {tree : Bucket} {records : List Record}
    (attempted : (Transaction.start smallFiles.limits []).attemptAll edits =
      ⟨smallFiles.limits, tree, records⟩)
    (changed : records ≠ []) (sound : Log.Batch.Sound ⟨1, records⟩) :
    EndsWith [.write edits .commit] tree [] ⟨1, records⟩ := by
  obtain ⟨first, disk, opened, start, rotation, attached⟩ :=
    Store.load_of_empty smallFiles "data" rfl
  obtain ⟨writer, later, appended, sequence, kept, grown⟩ :=
    attached.append_here sound.encoded (by simp [attached.size])
  have loaded : run smallFiles "data" [] = .ok ⟨⟨smallFiles, ⟨[], 0⟩, 1, first⟩, disk⟩ := by
    rw [run, load, opened]
    rfl
  exact ⟨writer, later, run_write loaded attempted changed appended, sequence.trans start,
    kept.trans rotation, grown⟩

/-- A commit that does not fit beside the last one begins a log file of its own. -/
theorem EndsWith.next {steps : List Step} {tree next : Bucket} {older : List (Nat × Bytes)}
    {last : Log.Batch} {edits : List Edit} {records : List Record}
    (ends : EndsWith steps tree older last)
    (attempted : (Transaction.start smallFiles.limits tree).attemptAll edits =
      ⟨smallFiles.limits, next, records⟩)
    (changed : records ≠ []) (sound : Log.Batch.Sound ⟨last.txid + 1, records⟩)
    (full : 65536 < last.written.length + (Log.Batch.written ⟨last.txid + 1, records⟩).length)
    (bound : older.length + 1 < Numeral.wordLimit) :
    EndsWith (steps ++ [.write edits .commit]) next (older ++ [(older.length, last.written)])
      ⟨last.txid + 1, records⟩ := by
  obtain ⟨writer, disk, done, sequence, rotation, attached⟩ := ends
  have overflows : 0 < writer.size ∧ writer.rotationSize <
      writer.size + (Log.Batch.written ⟨last.txid + 1, records⟩).length := by
    rw [attached.size, rotation]
    exact ⟨List.length_pos_iff.mpr last.written_ne_nil, full⟩
  obtain ⟨fresh, later, appended, number, kept, grown⟩ :=
    attached.append_next sound.encoded overflows (by rwa [sequence])
  rw [sequence] at grown
  refine ⟨fresh, later, run_write done attempted changed appended, ?_, kept.trans rotation, grown⟩
  rw [number, sequence, List.length_append, List.length_singleton]

def bucketMade (txid : Nat) (name : UInt8) : Log.Batch :=
  ⟨txid, [.createBucket [] [name]]⟩

def fieldPut (value : Bytes) : Log.Batch :=
  ⟨2, [.put [[97]] [107] value]⟩

def filledTree (value : Bytes) : Bucket :=
  [([97], .bucket [([107], .value value)])]

def twoTransactions (value : Bytes) : List Step :=
  [.write [.create [] [97]] .commit, .write [.put [[97]] [107] value] .commit]

def threeTransactions (value : Bytes) : List Step :=
  twoTransactions value ++ [.write [.create [] [98]] .commit]

private theorem sound_bucketMade {txid : Nat} (number : txid < Numeral.wordLimit) (name : UInt8) :
    (bucketMade txid name).Sound := by
  refine ⟨number, List.forall_mem_singleton.mpr ?_,
    List.forall_mem_singleton.mpr (by simp [Record.createBucket])⟩
  constructor <;> simp [Record.createBucket, Record.payload, Bytes.littleEndian_length,
    Record.shortLimit, Record.longLimit]

variable {value : Bytes} (size : value.length = 65536)
include size

private theorem sound_fieldPut : (fieldPut value).Sound := by
  have fits : (Record.put [[97]] [107] value).Encodable := by
    constructor <;> simp [Record.put, Record.payload, Record.encodeSegment,
      Bytes.littleEndian_length, Record.shortLimit, Record.longLimit, size]
  exact ⟨by simp [fieldPut, Bytes.capacity], List.forall_mem_singleton.mpr fits,
    List.forall_mem_singleton.mpr (by simp [Record.put])⟩

private theorem length_fieldPut : 65536 < (fieldPut value).written.length := by
  simp [fieldPut, Log.Batch.written, Record.length_written, Record.put, Record.payload, size]
  omega

private theorem attemptAll_put :
    (Transaction.start smallFiles.limits [([97], .bucket [])]).attemptAll
    [.put [[97]] [107] value] = ⟨smallFiles.limits, filledTree value, (fieldPut value).records⟩ := by
  have fits : smallFiles.limits.checkValue value = .ok () := by
    rw [Limits.checkValue, if_neg (by simp [smallFiles, Config.limits, size])]
  have worked : OpenBucket.put [107] value ⟨smallFiles.limits, [[97]], [], []⟩ =
      (.ok (), ⟨smallFiles.limits, [[97]], [([107], .value value)], (fieldPut value).records⟩) := by
    rw [OpenBucket.put, OpenBucket.belowRoot, OpenBucket.validKey, OpenBucket.validValue]
    simp only [OpenBucket.run_require, fits]
    rfl
  change (Transaction.write _ [[97]] (OpenBucket.put [107] value)).2 = _
  have opened : Bucket.openAt [[97]] [([97], .bucket [])] = .ok [] := rfl
  simp only [Transaction.write, Transaction.start, opened, worked]
  rfl

private theorem storable_filledTree : (filledTree value).Storable := by
  have fits : ∀ record ∈ (bucketMade 1 97).records ++ (fieldPut value).records,
      record.Encodable := by
    intro record member
    rcases List.mem_append.mp member with old | new
    · exact (sound_bucketMade (by decide) 97).encodable record old
    · exact (sound_fieldPut size).encodable record new
  exact Bucket.Storable.replay Bucket.lawful_nil fits rfl

private theorem endsWith_twoTransactions : EndsWith (twoTransactions value) (filledTree value)
    [(0, (bucketMade 1 97).written)] (fieldPut value) := by
  have first : EndsWith [.write [.create [] [97]] .commit] [([97], .bucket [])] []
      (bucketMade 1 97) :=
    endsWith_first rfl (List.cons_ne_nil _ _) (sound_bucketMade (by decide) 97)
  exact first.next (attemptAll_put size) (List.cons_ne_nil _ _) (sound_fieldPut size)
    (Nat.lt_of_lt_of_le (length_fieldPut size) (Nat.le_add_left _ _)) (by decide)

private theorem endsWith_threeTransactions : EndsWith (threeTransactions value)
    (filledTree value ++ [([98], .bucket [])])
    [(0, (bucketMade 1 97).written), (1, (fieldPut value).written)] (bucketMade 3 98) := by
  have sound : (bucketMade 3 98).Sound := sound_bucketMade (by decide) 98
  have attempted : (Transaction.start smallFiles.limits (filledTree value)).attemptAll
      [.create [] [98]] =
      ⟨smallFiles.limits, filledTree value ++ [([98], .bucket [])], (bucketMade 3 98).records⟩ :=
    rfl
  exact (endsWith_twoTransactions size).next attempted (List.cons_ne_nil _ _) sound
    (Nat.lt_of_lt_of_le (length_fieldPut size) (Nat.le_add_right _ _)) (by decide)

omit size in
/-- The bucket that is filled here is made in an earlier batch. -/
theorem unreached_fieldPut (value : Bytes) (later : List Log.Batch) :
    ¬∃ tree, Bucket.replay (Store.recordsOf (fieldPut value :: later)) [] = .ok tree := by
  rintro ⟨tree, ⟨⟩⟩

private theorem not_replays_without_first (first : Bytes) (sequence : Nat) :
    ¬Store.Replays ((([(0, first), (1, (fieldPut value).written)] ++
      [(sequence, (bucketMade 3 98).written)]).map Log.numbered).drop 1) := by
  have second := Log.batchesOf_one (sound_fieldPut size) 1
  have third := Log.batchesOf_one (sound_bucketMade (by decide : 3 < Numeral.wordLimit) 98) sequence
  rw [Store.replays_drop_numbered]
  change ¬∃ tree, Bucket.replay (Store.recordsOf (Log.batchesOf ([_] ++ [_]))) [] = .ok tree
  rw [Log.batchesOf_append, second, third]
  exact unreached_fieldPut value [bucketMade 3 98]

omit size in
private theorem replays_without_first_two (first second : Bytes) (sequence : Nat) :
    Store.Replays ((([(0, first), (1, second)] ++
      [(sequence, (bucketMade 3 98).written)]).map Log.numbered).drop 2) := by
  have third := Log.batchesOf_one (sound_bucketMade (by decide : 3 < Numeral.wordLimit) 98) sequence
  rw [Store.replays_drop_numbered]
  change ∃ tree, Bucket.replay (Store.recordsOf (Log.batchesOf [_])) [] = .ok tree
  rw [third]
  exact ⟨[([98], .bucket [])], rfl⟩

end OwnFiles

/-- Wherever a checkpoint stops, before the renaming the store opens as it was.  After it, the store
opens with the same tree and the next number, exactly where the files that are not removed yet
replay on their own; where they do not, it does not open at all.  They replay while none is removed
and when all are, and then the checkpoint has come to its end. -/
theorem load_stopped (config : Config) (place : String) (steps : List Step) (opening : Config)
    (valid : config.validate = .ok ())
    (reopened : ∀ other, .reopen other ∈ steps → other.validate = .ok ())
    (bound : steps.length + 1 < Numeral.wordLimit) (openingValid : opening.validate = .ok ()) :
    ∃ session existing, run config place steps = .ok session ∧
      Log.files session.disk = (.ok existing, session.disk) ∧
      (∀ stop, stop.isRenamed = false → ∃ store later,
        Store.load opening (session.store.stopped stop session.disk) = (.ok store, later) ∧
          store.published = session.store.published) ∧
      ∀ count,
        (Store.Replays (existing.drop count) → ∃ store later,
          Store.load opening (session.store.stopped (.removing count) session.disk) =
              (.ok store, later) ∧
            store.published = ⟨session.store.published.tree, session.store.published.txid + 1⟩) ∧
        (¬Store.Replays (existing.drop count) → ∃ error later,
          Store.load opening (session.store.stopped (.removing count) session.disk) =
            (.error error, later)) ∧
        (count = 0 ∨ existing.length ≤ count → Store.Replays (existing.drop count)) ∧
        (existing.length ≤ count → session.store.stopped (.removing count) session.disk =
          (session.store.checkpoint session.disk).2) := by
  obtain ⟨session, batches, done, synced, txid, sequence⟩ :=
    synced_run config place steps valid reopened (by omega)
  have number : session.store.nextTxid < Numeral.wordLimit := by
    rw [synced.next]
    omega
  obtain ⟨existing, listed, late⟩ :=
    synced.load_stopped_late number (by omega) openingValid
  refine ⟨session, existing, done, listed, ?_, ?_⟩
  · intro stop early
    exact synced.load_stopped_early number early openingValid
  · intro count
    obtain ⟨complete, refused, ends⟩ := late count
    exact ⟨complete, refused, ends, Store.stopped_of_all session.store listed⟩

/-- Three log files: the first makes a bucket, the second fills it, and the third makes another.
The second does not replay without the first, and the third does without both. -/
theorem load_stopped_of_three_transactions :
    let steps := threeTransactions (List.replicate 65536 0)
    ∃ session store later error last renamed afterwards,
      run smallFiles "data" steps = .ok session ∧
      Store.load .durable (session.store.stopped (.drafting 7) session.disk) = (.ok store, later) ∧
      store.published = session.store.published ∧
      Store.load .durable (session.store.stopped (.removing 1) session.disk) =
        (.error error, last) ∧
      Store.load .durable (session.store.stopped (.removing 2) session.disk) =
        (.ok renamed, afterwards) ∧
      renamed.published = ⟨session.store.published.tree, session.store.published.txid + 1⟩ := by
  have size : (List.replicate 65536 (0 : UInt8)).length = 65536 := List.length_replicate
  generalize List.replicate 65536 (0 : UInt8) = value at size ⊢
  intro steps
  have reopened : ∀ other, Step.reopen other ∈ steps → other.validate = .ok () := by
    simp [steps, threeTransactions, twoTransactions]
  obtain ⟨session, existing, done, listed, early, late⟩ :=
    load_stopped smallFiles "data" steps .durable rfl reopened
      (show 3 + 1 < Numeral.wordLimit by decide) rfl
  obtain ⟨writer, disk, ran, _, _, attached⟩ := endsWith_threeTransactions size
  cases ran.symm.trans done
  cases (Log.files_of_holds attached.holds).symm.trans listed
  obtain ⟨store, later, opened, same⟩ := early (.drafting 7) rfl
  obtain ⟨_, refuses, _⟩ := late 1
  obtain ⟨error, last, refused⟩ := refuses (not_replays_without_first size _ _)
  obtain ⟨opens, _, _⟩ := late 2
  obtain ⟨renamed, afterwards, reopened, next⟩ := opens (replays_without_first_two _ _ _)
  exact ⟨_, store, later, error, last, renamed, afterwards, done, opened, same, refused, reopened,
    next⟩

/-- A bucket that is made in one log file and filled in the next: once the first file is removed and
the second is not, the store does not open. -/
theorem load_stopped_fails_between_files :
    ∃ session error later,
      run smallFiles "data" (twoTransactions (List.replicate 65536 0)) = .ok session ∧
      Store.load smallFiles (session.store.stopped (.removing 1) session.disk) =
        (.error error, later) := by
  have size : (List.replicate 65536 (0 : UInt8)).length = 65536 := List.length_replicate
  generalize List.replicate 65536 (0 : UInt8) = value at size ⊢
  obtain ⟨writer, disk, done, sequence, _, attached⟩ := endsWith_twoTransactions size
  have snapshot : Log.Batch.Sound ⟨3, (filledTree value).snapshot⟩ :=
    (storable_filledTree size).sound_snapshot (by decide)
  have holds := Store.stopped_of_renamed ⟨smallFiles, ⟨filledTree value, 2⟩, 3, writer⟩ attached
    snapshot.encoded (by rw [sequence]; decide) 1
  rw [← List.flatMap_singleton Log.Batch.written ⟨3, (filledTree value).snapshot⟩] at holds
  -- Of the two files the second is left, and its bucket is gone with the first.
  have unreached := unreached_fieldPut value []
  rw [← Log.batchesOf_one (sound_fieldPut size) writer.sequence] at unreached
  obtain ⟨cause, failed⟩ :=
    Store.replay_of_unreached [⟨3, (filledTree value).snapshot⟩] unreached
  have valid : smallFiles.validate = .ok () := rfl
  obtain ⟨error, later, refused⟩ := Store.load_of_unreplayable valid
    (List.forall_mem_singleton.mpr snapshot) holds failed
  exact ⟨_, error, later, done, refused⟩

end Session

end ClusterRegistry
