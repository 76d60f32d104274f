import ClusterRegistry.Proofs.Log.Appending
import ClusterRegistry.Proofs.Log.Repair
import ClusterRegistry.Proofs.Tree.Snapshot
import ClusterRegistry.Store

/-!
Opening a store.  The tree that a log leads to is that of all its records in order, and a store
opens exactly where these replay.
-/
namespace ClusterRegistry.Store

def recordsOf (batches : List Log.Batch) : List Record :=
  batches.flatMap Log.Batch.records

/-- The highest number of a batch, zero if there is none. -/
def lastTxid (batches : List Log.Batch) : Nat :=
  (batches.map Log.Batch.txid).foldl max 0

private theorem foldlM_replayBatch_eq_ok {batches : List Log.Batch} {tree next : Bucket} :
    batches.foldlM replayBatch tree = .ok next ↔
      Bucket.replay (recordsOf batches) tree = .ok next := by
  induction batches generalizing tree with
  | nil => simp [recordsOf, Bucket.replay, pure, Except.pure]
  | cons batch batches ih =>
    rw [List.foldlM_cons, recordsOf, List.flatMap_cons, Bucket.replay_append, replayBatch]
    cases Bucket.replay batch.records tree with
    | error error =>
      constructor
      · intro ok
        contradiction
      · intro ok
        contradiction
    | ok middle => exact ih

theorem replay_eq_ok {batches : List Log.Batch} {snapshot : Snapshot} :
    replay batches = .ok snapshot ↔
      Bucket.replay (recordsOf batches) [] = .ok snapshot.tree ∧
        snapshot.txid = lastTxid batches := by
  unfold replay
  rw [Outcome.bind_eq_ok]
  constructor
  · intro given
    obtain ⟨tree, ok, ⟨⟩⟩ := given
    exact ⟨foldlM_replayBatch_eq_ok.mp ok, rfl⟩
  · intro given
    obtain ⟨ok, txid⟩ := given
    obtain ⟨tree, txid⟩ := snapshot
    cases txid
    exact ⟨tree, foldlM_replayBatch_eq_ok.mpr ok, rfl⟩

theorem recordsOf_append (batches later : List Log.Batch) :
    recordsOf (batches ++ later) = recordsOf batches ++ recordsOf later := by
  rw [recordsOf, List.flatMap_append]
  rfl

theorem recordsOf_singleton (batch : Log.Batch) : recordsOf [batch] = batch.records :=
  List.flatMap_singleton _ _

private theorem foldl_max_le {numbers : List Nat} {start bound : Nat} :
    numbers.foldl max start ≤ bound ↔ start ≤ bound ∧ ∀ number ∈ numbers, number ≤ bound := by
  induction numbers generalizing start with
  | nil => simp
  | cons number numbers ih =>
    rw [List.foldl_cons, ih, List.forall_mem_cons, Nat.max_le, and_assoc]

theorem lastTxid_le {batches : List Log.Batch} {bound : Nat} :
    lastTxid batches ≤ bound ↔ ∀ batch ∈ batches, batch.txid ≤ bound := by
  simp [lastTxid, foldl_max_le]

theorem lastTxid_append (batches : List Log.Batch) (batch : Log.Batch)
    (above : lastTxid batches ≤ batch.txid) : lastTxid (batches ++ [batch]) = batch.txid := by
  unfold lastTxid at *
  rw [List.map_append, List.foldl_append]
  exact Nat.max_eq_right above

variable {disk : Disk} {config : Config}

private theorem validate_of_ok (valid : config.validate = .ok ()) :
    (liftM config.validate : DiskM Unit) disk = (.ok (), disk) := by
  rw [valid]
  rfl

private theorem replayed_of_ok {batches : List Log.Batch} {snapshot : Snapshot}
    (ok : replay batches = .ok snapshot) : replayed batches disk = (.ok snapshot, disk) := by
  rw [replayed, ok]

theorem cutTail_of_clean {recovery : Log.Recovery}
    (clean : ∀ tail, recovery.tail = some tail → tail.isClean) :
    cutTail recovery disk = (.ok (), disk) := by
  unfold cutTail
  cases found : recovery.tail with
  | none => rfl
  | some tail =>
    simp only [clean tail found]
    rfl

/-- The steps of opening a store, one after another. -/
theorem load_of_steps {recovery : Log.Recovery} {published : Snapshot} {writer : Log.Writer}
    {made shortened later : Disk} (valid : config.validate = .ok ())
    (folder : Log.makeFolder disk = (.ok (), made))
    (recovered : Log.recover made = (.ok recovery, made))
    (ok : replay recovery.batches = .ok published)
    (cut : cutTail recovery made = (.ok (), shortened))
    (opened : Log.Writer.openNewest config.rotationSize shortened = (.ok writer, later)) :
    load config disk = (.ok ⟨config, published, published.txid + 1, writer⟩, later) := by
  unfold load
  rw [DiskM.bind_of_ok (validate_of_ok valid), DiskM.bind_of_ok folder,
    DiskM.bind_of_ok recovered, DiskM.bind_of_ok (replayed_of_ok ok),
    DiskM.bind_of_ok cut, DiskM.bind_of_ok opened]
  rfl

private theorem replayed_eq_ok {batches : List Log.Batch} {snapshot : Snapshot} {later : Disk}
    (done : replayed batches disk = (.ok snapshot, later)) :
    replay batches = .ok snapshot ∧ later = disk := by
  unfold replayed at done
  split at done
  · rename_i found same
    cases done
    exact ⟨same, rfl⟩
  · cases done

theorem steps_of_load {store : Store} {later : Disk}
    (done : load config disk = (.ok store, later)) :
    ∃ made recovery read shortened, Log.makeFolder disk = (.ok (), made) ∧
      Log.recover made = (.ok recovery, read) ∧ replay recovery.batches = .ok store.published ∧
      cutTail recovery read = (.ok (), shortened) ∧
      Log.Writer.openNewest config.rotationSize shortened = (.ok store.writer, later) ∧
      store.nextTxid = store.published.txid + 1 := by
  unfold load at done
  cases valid : config.validate with
  | error error =>
    have refused : (liftM config.validate : DiskM Unit) disk = (.error error, disk) := by
      rw [valid]
      rfl
    rw [DiskM.bind_of_error refused] at done
    cases done
  | ok checked =>
    rw [DiskM.bind_of_ok (validate_of_ok valid)] at done
    obtain ⟨⟨⟩, made, folder, done⟩ := DiskM.bind_eq_ok.mp done
    obtain ⟨recovery, middle, recovered, done⟩ := DiskM.bind_eq_ok.mp done
    obtain ⟨published, read, replayed, done⟩ := DiskM.bind_eq_ok.mp done
    obtain ⟨⟨⟩, shortened, cut, done⟩ := DiskM.bind_eq_ok.mp done
    obtain ⟨writer, last, opened, done⟩ := DiskM.bind_eq_ok.mp done
    cases done
    obtain ⟨ok, rfl⟩ := replayed_eq_ok replayed
    exact ⟨made, recovery, _, shortened, folder, recovered, ok, cut, opened, rfl⟩

/-- A file of which recovery reports where it is committed to is cut there, if it is longer. -/
theorem cutTail_of_file {entries : Folder} {name : String} {contents : Bytes}
    {recovery : Log.Recovery}
    (inside : OrderedMap.find? "wal" disk.top = some (.folder entries))
    (ordered : OrderedMap.Ordered entries)
    (found : OrderedMap.find? name entries = some (.file contents))
    (tail : recovery.tail = some ⟨name, (Log.committed contents).length, contents.length⟩) :
    ∃ later, cutTail recovery disk = (.ok (), later) ∧ OrderedMap.find? "wal" later.top =
      some (.folder (OrderedMap.insert name (.file (Log.committed contents)) entries)) := by
  by_cases clean : (Log.committed contents).length = contents.length
  · have whole : Log.committed contents = contents :=
      (List.take_prefix _ _).eq_of_length clean
    refine ⟨disk, cutTail_of_clean ?_, ?_⟩
    · intro other same
      cases tail.symm.trans same
      exact decide_eq_true clean
    · rw [whole, OrderedMap.insert_of_find? ordered found, inside]
  · have torn : Log.Tail.isClean ⟨name, (Log.committed contents).length, contents.length⟩ =
        false := decide_eq_false clean
    have shortened : Folder.changeContents (List.take (Log.committed contents).length)
        (OrderedMap.find? name entries) = .ok (some (.file (Log.committed contents))) := by
      rw [found, Folder.changeContents, Log.length_committed, ← Log.committed]
    unfold cutTail
    rw [tail]
    simp only [torn]
    exact ⟨_, DiskM.edit_of_ok (Log.alter_of_some inside shortened), Log.find?_within _ _⟩

private theorem cutTail_of_holds {older : List (Nat × Bytes)} {sequence : Nat} {contents : Bytes}
    (holds : Log.Holds disk (older ++ [(sequence, contents)])) :
    ∃ later, cutTail (Log.recovered (older ++ [(sequence, contents)])) disk = (.ok (), later) ∧
      Log.Holds later (older ++ [(sequence, Log.committed contents)]) := by
  obtain ⟨entries, inside, listing⟩ := holds
  have newest : (sequence, contents) ∈ older ++ [(sequence, contents)] :=
    List.mem_append_right _ List.mem_cons_self
  obtain ⟨later, cut, kept⟩ := cutTail_of_file inside listing.ordered
    (listing.stored_of_mem newest)
    (congrArg Log.Recovery.tail (Log.recovered_committed older sequence contents))
  have changed := listing.insert sequence (Log.committed contents) (listing.bounded _ newest)
  rw [OrderedMap.insert_last _ _ _ listing.ascending] at changed
  exact ⟨later, cut, _, kept, changed⟩

/-- A store opens on log files of any contents, if all batches in them replay.  The newest one is
cut where its committed part ends. -/
theorem load_of_files {older : List (Nat × Bytes)} {sequence : Nat} {contents : Bytes}
    {published : Snapshot} (valid : config.validate = .ok ())
    (holds : Log.Holds disk (older ++ [(sequence, contents)]))
    (ok : replay (Log.batchesOf older ++ (Log.scan contents).batches) = .ok published) :
    ∃ writer later, load config disk =
        (.ok ⟨config, published, published.txid + 1, writer⟩, later) ∧
      writer.sequence = sequence ∧ Log.Attached later writer older (Log.committed contents) := by
  obtain ⟨made, folder, holds⟩ := Log.makeFolder_of_holds holds
  obtain ⟨shortened, cut, kept⟩ := cutTail_of_holds holds
  obtain ⟨writer, later, opened, same, _, attached⟩ :=
    Log.openNewest_of_holds kept config.rotationSize
  have replayed : replay (Log.recovered (older ++ [(sequence, contents)])).batches =
      .ok published := by rw [Log.recovered_committed, ok]
  exact ⟨writer, later, load_of_steps valid folder (Log.recover_of_holds holds) replayed cut opened,
    same, attached⟩

theorem load_of_holds {older : List (Nat × Bytes)} {sequence : Nat} {last : List Log.Batch}
    {published : Snapshot} (valid : config.validate = .ok ())
    (sound : ∀ batch ∈ last, batch.Sound)
    (holds : Log.Holds disk (older ++ [(sequence, last.flatMap Log.Batch.written)]))
    (ok : replay (Log.batchesOf older ++ last) = .ok published) :
    ∃ writer later, load config disk =
        (.ok ⟨config, published, published.txid + 1, writer⟩, later) ∧
      writer.sequence = sequence ∧
      Log.Attached later writer older (last.flatMap Log.Batch.written) := by
  have scanned := Log.scan_written last sound
  have whole : Log.committed (last.flatMap Log.Batch.written) = last.flatMap Log.Batch.written :=
    Log.committed_of_settled (by rw [scanned]; rfl)
  have opened := load_of_files valid holds (by rw [scanned]; exact ok)
  rwa [whole] at opened

/-- A store does not open on log files of which a batch does not replay.  By then no more is done
than that the log directory is there. -/
theorem load_of_unreplayed {files : List (Nat × Bytes)} {txid : Nat} {cause : TreeError}
    (valid : config.validate = .ok ()) (holds : Log.Holds disk files)
    (failed : replay (Log.recovered files).batches = .error (txid, cause)) :
    ∃ made, Log.makeFolder disk = (.ok (), made) ∧ load config disk =
      (.error (.corrupted (made.placeOf Log.folderPath) 0 (.unreplayable txid cause)), made) := by
  obtain ⟨made, folder, holds⟩ := Log.makeFolder_of_holds holds
  have refused : replayed (Log.recovered files).batches made =
      (.error (.corrupted (made.placeOf Log.folderPath) 0 (.unreplayable txid cause)), made) := by
    rw [replayed, failed]
  refine ⟨made, folder, ?_⟩
  unfold load
  rw [DiskM.bind_of_ok (validate_of_ok valid), DiskM.bind_of_ok folder,
    DiskM.bind_of_ok (Log.recover_of_holds holds), DiskM.bind_of_error refused]

theorem load_of_unreplayable {older : List (Nat × Bytes)} {sequence : Nat} {last : List Log.Batch}
    {cause : Nat × TreeError} (valid : config.validate = .ok ())
    (sound : ∀ batch ∈ last, batch.Sound)
    (holds : Log.Holds disk (older ++ [(sequence, last.flatMap Log.Batch.written)]))
    (failed : replay (Log.batchesOf older ++ last) = .error cause) :
    ∃ error later, load config disk = (.error error, later) := by
  have scanned := Log.scan_written last sound
  have refused : replay (Log.recovered
      (older ++ [(sequence, last.flatMap Log.Batch.written)])).batches = .error cause := by
    rw [Log.recovered_committed, scanned]
    exact failed
  obtain ⟨made, _, refused⟩ := load_of_unreplayed valid holds refused
  exact ⟨_, made, refused⟩

theorem commit_of_append (store : Store) (tx : Transaction) {writer : Log.Writer} {later : Disk}
    (changed : tx.log ≠ [])
    (appended : store.writer.append tx.log store.nextTxid disk = (.ok writer, later)) :
    store.commit tx disk = (.ok ⟨store.config, ⟨tx.tree, store.nextTxid⟩, store.nextTxid + 1,
      writer⟩, later) := by
  unfold commit
  rw [if_neg changed, DiskM.bind_of_ok appended]
  rfl

/-- A store opens on a directory without log files and makes the first one. -/
theorem load_of_made {made : Disk} (valid : config.validate = .ok ())
    (folder : Log.makeFolder disk = (.ok (), made)) (holds : Log.Holds made []) :
    ∃ writer later, load config disk = (.ok ⟨config, ⟨[], 0⟩, 1, writer⟩, later) ∧
      writer.sequence = 0 ∧ writer.rotationSize = config.rotationSize ∧
      Log.Attached later writer [] [] := by
  obtain ⟨writer, later, opened, same, rotation, attached⟩ :=
    Log.openNewest_of_empty holds config.rotationSize
  have replayed : replay (Log.recovered []).batches = .ok ⟨[], 0⟩ := rfl
  have uncut : cutTail (Log.recovered []) made = (.ok (), made) := rfl
  exact ⟨writer, later, load_of_steps valid folder (Log.recover_of_holds holds) replayed uncut
    opened, same, rotation, attached⟩

theorem load_of_empty (config : Config) (place : String) (valid : config.validate = .ok ()) :
    ∃ writer later, load config (.empty place) = (.ok ⟨config, ⟨[], 0⟩, 1, writer⟩, later) ∧
      writer.sequence = 0 ∧ writer.rotationSize = config.rotationSize ∧
      Log.Attached later writer [] [] := by
  have absent : OrderedMap.find? "wal" (Disk.empty place).top = none := rfl
  obtain ⟨made, folder, holds⟩ := Log.makeFolder_of_absent absent
  exact load_of_made valid folder holds

end ClusterRegistry.Store
