import ClusterRegistry.Proofs.Record.Decoding
import ClusterRegistry.Proofs.Store.AppendTarget
import ClusterRegistry.Proofs.Store.Separation
import ClusterRegistry.Proofs.Tree.Capacity

/-!
What can be committed can be written again.  A tree that a store publishes comes from records that
were read from a log or have just been written to one, and a snapshot repeats no more than these, so
it fits into the log.  Of a transaction that is still to be committed, only the depth of a path can
keep a record out of the log.
-/
namespace ClusterRegistry

namespace Log

/-- The records that a scan holds, in batches or pending, can all be written. -/
structure Scan.Writable (scan : Scan) : Prop where
  batches : ∀ batch ∈ scan.batches, ∀ record ∈ batch.records, record.Encodable
  pending : ∀ record ∈ scan.pending, record.Encodable

namespace Scan.Writable

variable {scan : Scan}

theorem accept (writable : scan.Writable) {record : Record} (fits : record.Encodable)
    (rest : Bytes) : (scan.accept record rest).Writable := by
  unfold Scan.accept
  split
  · refine ⟨?_, by simp⟩
    rw [List.forall_mem_append]
    refine ⟨writable.batches, fun batch closed => ?_⟩
    split at closed
    · contradiction
    · rw [List.mem_singleton.mp closed]
      exact writable.pending
  · exact ⟨writable.batches,
      List.forall_mem_append.mpr ⟨writable.pending, List.forall_mem_singleton.mpr fits⟩⟩

theorem run (writable : scan.Writable) (data : Bytes) : (scan.run data).Writable := by
  fun_induction Scan.run scan data with
  | case1 scan => exact writable
  | case2 scan byte later record rest ok ih =>
    exact ih (writable.accept (Record.encodable_of_read ok) rest)
  | case3 scan byte later error failed ih => exact ih ⟨writable.batches, writable.pending⟩

end Scan.Writable

private theorem encodable_scan (data : Bytes) :
    ∀ batch ∈ (scan data).batches, ∀ record ∈ batch.records, record.Encodable := by
  have start : (Scan.start data).Writable := ⟨by simp [Scan.start], by simp [Scan.start]⟩
  rw [scan_eq]
  exact (start.run data).batches

variable {disk later : Disk}

private theorem encodable_recoverFiles {files : List File} {recovery result : Recovery}
    (found : ∀ batch ∈ recovery.batches, ∀ record ∈ batch.records, record.Encodable)
    (done : files.foldlM recoverFile recovery disk = (.ok result, later)) :
    ∀ batch ∈ result.batches, ∀ record ∈ batch.records, record.Encodable := by
  induction files generalizing recovery disk with
  | nil =>
    cases done
    exact found
  | cons file files ih =>
    rw [List.foldlM_cons] at done
    obtain ⟨next, middle, first, rest⟩ := DiskM.bind_eq_ok.mp done
    obtain ⟨_, contents, _, rfl⟩ := recoverFile_eq_ok first
    exact ih (List.forall_mem_append.mpr ⟨found, encodable_scan contents⟩) rest

private theorem encodable_recover {recovery : Recovery}
    (done : recover disk = (.ok recovery, later)) :
    ∀ batch ∈ recovery.batches, ∀ record ∈ batch.records, record.Encodable := by
  obtain ⟨files, middle, _, found⟩ := DiskM.bind_eq_ok.mp done
  exact encodable_recoverFiles (by simp [Recovery.empty]) found

end Log

theorem Bucket.Storable.encodable_snapshot {tree : Bucket} (storable : tree.Storable) :
    ∀ record ∈ tree.snapshot, record.Encodable := by
  have sound : Log.Batch.Sound ⟨0, tree.snapshot⟩ := storable.sound_snapshot (by decide)
  exact sound.encodable

namespace Session

variable {session next : Session}

theorem storable_load {config : Config} {disk : Disk} (done : load config disk = .ok session) :
    session.store.published.tree.Storable := by
  obtain ⟨_, recovery, _, _, _, recovered, replayed, _⟩ := Store.steps_of_load (load_eq_ok done)
  refine Bucket.Storable.replay Bucket.lawful_nil ?_ (Store.replay_eq_ok.mp replayed).1
  intro record member
  obtain ⟨batch, inside, member⟩ := List.mem_flatMap.mp member
  exact Log.encodable_recover recovered batch inside record member

theorem storable_step (storable : session.store.published.tree.Storable) {step : Step}
    (done : session.step step = .ok next) : next.store.published.tree.Storable := by
  rcases step_cases done with same | ⟨edits, published, encodable⟩ | ⟨config, _, opened⟩
  · rwa [same]
  · have follows := (Transaction.follows_start session.store.config.limits
      storable.wellFormed).attemptAll edits
    rw [published]
    exact storable.replay encodable follows.replayed
  · exact storable_load opened

theorem storable_runFrom {config : Config} {disk : Disk} {steps : List Step}
    (done : runFrom config disk steps = .ok session) :
    session.store.published.tree.Storable :=
  runFrom_induction (fun _ _ _ => storable_load)
    (fun _ _ _ kept step => storable_step kept step) done

/-- Of what a transaction logs on keys within the limits, the log takes all but the records whose
path is too deep, and those it refuses for that; the snapshot of a tree that was ever published it
takes whole, so that a checkpoint gets past the encoding, and from an empty directory on
succeeds. -/
theorem encode_fails_iff_deep (config : Config) (valid : config.validate = .ok ()) :
    (∀ tree : Bucket, tree.KeysWithin config.maxKeySize → ∀ edits,
      ∀ record ∈ ((Transaction.start config.limits tree).attemptAll edits).log,
        ((∃ error, record.encode = .error error) ↔ Record.shortLimit < record.path.length) ∧
        (Record.shortLimit < record.path.length → record.encode =
          .error (.oversized "path depth" record.path.length Record.shortLimit)) ∧
        (record.path.length ≤ Record.shortLimit →
          record.Encodable ∧ record.encode = .ok record.written)) ∧
    ∀ disk steps session, runFrom config disk steps = .ok session →
      (∀ record ∈ session.store.published.tree.snapshot,
        record.Encodable ∧ record.encode = .ok record.written) ∧
      (∃ data, Log.encodeBatch session.store.published.tree.snapshot session.store.nextTxid =
        .ok data) ∧
      ∀ place, disk = .empty place → steps.length + 1 < Numeral.wordLimit →
        ∃ result after later,
          session.store.checkpoint session.disk = ((.ok result, after), later) := by
  have recordable := Config.recordable_limits valid
  refine ⟨fun tree keys edits record member => ?_, fun disk steps session done => ?_⟩
  · have limited : record.Limited config.limits :=
      Transaction.limited_log keys edits record member
    have depth := limited.encodable_iff recordable
    refine ⟨?_, limited.encode_of_deep recordable, fun shallow => ?_⟩
    · rw [Record.encode_eq_error, depth, Nat.not_le]
    · exact ⟨depth.mpr shallow, Record.encode_eq_ok.mpr ⟨depth.mpr shallow, rfl⟩⟩
  · have fits := (storable_runFrom done).encodable_snapshot
    refine ⟨fun record member => ⟨fits record member,
      Record.encode_eq_ok.mpr ⟨fits record member, rfl⟩⟩,
      ⟨_, Log.encodeBatch_eq_ok.mpr ⟨fits, rfl⟩⟩, ?_⟩
    intro place start bound
    subst start
    obtain ⟨_, reopened⟩ := valid_of_run done
    obtain ⟨same, batches, again, synced, txid, sequence⟩ :=
      synced_run config place steps valid reopened (by omega)
    cases done.symm.trans again
    obtain ⟨result, writer, later, checkpointed, _⟩ :=
      synced.checkpoint (by rw [synced.next]; omega) (by omega)
    exact ⟨result, _, later, checkpointed⟩

section Nested

/-- Buckets one inside the other, all under the same key. -/
def nested (key : Key) : Nat → Bucket
  | 0 => []
  | depth + 1 => [(key, .bucket (nested key depth))]

private theorem openAt_nested (key : Key) (depth : Nat) :
    (nested key depth).openAt (List.replicate depth key) = .ok [] := by
  induction depth with
  | zero => rfl
  | succ depth ih =>
    rw [List.replicate_succ, nested, Bucket.openAt_cons]
    exact ⟨_, by simp [Bucket.child?, Bucket.item?, OrderedMap.find?], ih⟩

private theorem lawful_nested {fits : Record → Prop} {key : Key}
    (fit : ∀ path, fits (.createBucket path key)) (path : BucketPath) (depth : Nat) :
    (nested key depth).Lawful fits path := by
  induction depth generalizing path with
  | zero => exact Bucket.lawful_nil
  | succ depth ih =>
    have inside := ih (path ++ [key])
    refine ⟨List.pairwise_singleton _ _, List.forall_mem_singleton.mpr ?_⟩
    exact .bucket (fit path) inside.ordered inside.inner

/-- What a transaction logs that puts one value into the innermost of so many buckets. -/
def putBelow (depth : Nat) : List Record :=
  ((Transaction.start Config.durable.limits (nested [97] depth)).attemptAll
    [.put (List.replicate depth [97]) [107] [118]]).log

private theorem putBelow_eq {depth : Nat} (inner : 0 < depth) :
    putBelow depth = [.put (List.replicate depth [97]) [107] [118]] := by
  have below : List.replicate depth ([97] : Key) ≠ [] := by
    rw [Ne, List.replicate_eq_nil_iff]
    exact Nat.ne_of_gt inner
  change (Transaction.write _ (List.replicate depth [97]) (OpenBucket.put [107] [118])).2.log = _
  simp only [Transaction.write, Transaction.start, openAt_nested, OpenBucket.put,
    OpenBucket.belowRoot, OpenBucket.validKey, OpenBucket.validValue, OpenBucket.run_require,
    if_neg below]
  rfl

/-- Below 65535 buckets a value can be written, below one more it cannot; and a tree that a run has
published goes into a checkpoint. -/
theorem encode_fails_iff_deep_of_nested :
    (∃ record bytes, putBelow 65535 = [record] ∧ record.encode = .ok bytes) ∧
    (∃ record, putBelow 65536 = [record] ∧
      record.encode = .error (.oversized "path depth" 65536 65535)) ∧
    ∃ session result after later,
      runFrom .durable (.empty "data") [.write [.create [] [97], .put [[97]] [107] [118]] .commit,
        .checkpoint] = .ok session ∧
      session.store.published.tree.snapshot =
        [.checkpoint, .createBucket [] [97], .put [[97]] [107] [118]] ∧
      session.store.checkpoint session.disk = ((.ok result, after), later) := by
  obtain ⟨logged, published⟩ := encode_fails_iff_deep .durable rfl
  have keys (depth : Nat) : (nested [97] depth).KeysWithin Config.durable.maxKeySize :=
    lawful_nested (fun _ => show 1 ≤ 1024 by decide) [] depth
  have told (depth : Nat) (inner : 0 < depth) :
      let record : Record := .put (List.replicate depth [97]) [107] [118]
      putBelow depth = [record] ∧
        (Record.shortLimit < depth →
          record.encode = .error (.oversized "path depth" depth Record.shortLimit)) ∧
        (depth ≤ Record.shortLimit → record.encode = .ok record.written) := by
    have same := putBelow_eq inner
    have said := logged _ (keys depth) _ _ (same ▸ List.mem_cons_self)
    simp only [Record.put, List.length_replicate] at said
    exact ⟨same, said.2.1, fun shallow => (said.2.2 shallow).2⟩
  refine ⟨?_, ?_, ?_⟩
  · obtain ⟨same, _, shallow⟩ := told 65535 (by decide)
    exact ⟨_, _, same, shallow (by decide)⟩
  · obtain ⟨same, deep, _⟩ := told 65536 (by decide)
    exact ⟨_, same, deep (by decide)⟩
  · have shown : (runFrom .durable (.empty "data")
        [.write [.create [] [97], .put [[97]] [107] [118]] .commit, .checkpoint]).toOption.map
          (fun session => session.store.published.tree.snapshot) = some [.checkpoint,
            .createBucket [] [97], .put [[97]] [107] [118]] := by
      decide +kernel
    obtain ⟨session, done, tree⟩ := Outcome.toOption_map_eq_some.mp shown
    obtain ⟨_, _, fresh⟩ := published _ _ _ done
    obtain ⟨result, after, later, checkpointed⟩ := fresh "data" rfl (by decide)
    exact ⟨session, result, after, later, done, tree, checkpointed⟩

end Nested

end Session

end ClusterRegistry
