import ClusterRegistry.Proofs.Tree.Transaction
import ClusterRegistry.Store.Config

/-!
What limits leave to the log.  Those that a store accepts keep keys, path segments and values far
below what the words of a record can carry, and even the longest path of such segments leaves the
payload below four gigabytes.  So of all that a transaction writes into a tree whose keys keep to
the limits, only a path with too many segments is refused.
-/
namespace ClusterRegistry

/-- Keys and values that pass are no longer than those of any store. -/
structure Limits.Recordable (limits : Limits) : Prop where
  key : limits.maxKeySize ≤ 32 * 1024
  value : limits.maxValueSize ≤ 128 * 1024 * 1024

theorem Config.recordable_limits {config : Config} (valid : config.validate = .ok ()) :
    config.limits.Recordable := by
  unfold validate at valid
  split at valid
  · contradiction
  · split at valid
    · contradiction
    · rename_i key
      split at valid
      · contradiction
      · rename_i value
        exact ⟨by simp only [limits]; omega, by simp only [limits]; omega⟩

namespace Record

/-- Key, value and path segments are no longer than the limits allow; the path may be of any
depth. -/
structure Limited (limits : Limits) (record : Record) : Prop where
  key : record.key.length ≤ limits.maxKeySize
  value : record.value.length ≤ limits.maxValueSize
  segments : ∀ segment ∈ record.path, segment.length ≤ limits.maxKeySize

private theorem length_payload (record : Record) :
    record.payload.length =
      10 + (record.path.flatMap encodeSegment).length + record.key.length +
        record.value.length := by
  simp only [payload, List.length_append, List.length_cons, List.length_nil,
    Bytes.littleEndian_length]
  omega

private theorem length_encodedPath {path : BucketPath} {size : Nat}
    (short : ∀ segment ∈ path, segment.length ≤ size) :
    (path.flatMap encodeSegment).length ≤ path.length * (size + 2) := by
  induction path with
  | nil => exact Nat.zero_le _
  | cons segment path ih =>
    obtain ⟨first, short⟩ := List.forall_mem_cons.mp short
    have rest := ih short
    rw [List.flatMap_cons, List.length_append, List.length_cons, encodeSegment,
      List.length_append, Bytes.littleEndian_length, Nat.succ_mul]
    omega

theorem encode_eq_error {record : Record} :
    (∃ error, record.encode = .error error) ↔ ¬record.Encodable := by
  cases encoded : record.encode with
  | ok bytes => simp [(encode_eq_ok.mp encoded).1]
  | error error =>
    have unfit : ¬record.Encodable := by
      intro fits
      cases encoded.symm.trans (encode_eq_ok.mpr ⟨fits, rfl⟩)
    simp [unfit]

namespace Limited

variable {limits : Limits} {record : Record}

/-- A path as deep as a record can carry, key and value together stay below what the length of a
payload can say. -/
theorem payload_le (limited : record.Limited limits) (recordable : limits.Recordable)
    (depth : record.path.length ≤ shortLimit) : record.payload.length ≤ longLimit := by
  have key := Nat.le_trans limited.key recordable.key
  have value := Nat.le_trans limited.value recordable.value
  have path := length_encodedPath fun segment member =>
    Nat.le_trans (limited.segments segment member) recordable.key
  have longest : record.path.length * (32 * 1024 + 2) ≤ shortLimit * (32 * 1024 + 2) :=
    Nat.mul_le_mul_right _ depth
  rw [length_payload]
  simp only [shortLimit, longLimit] at *
  omega

private theorem key_le (limited : record.Limited limits) (recordable : limits.Recordable) :
    record.key.length ≤ shortLimit :=
  Nat.le_trans limited.key (Nat.le_trans recordable.key (by decide))

private theorem value_le (limited : record.Limited limits) (recordable : limits.Recordable) :
    record.value.length ≤ longLimit :=
  Nat.le_trans limited.value (Nat.le_trans recordable.value (by decide))

theorem encodable_iff (limited : record.Limited limits) (recordable : limits.Recordable) :
    record.Encodable ↔ record.path.length ≤ shortLimit := by
  refine ⟨Encodable.depth, fun depth => ?_⟩
  have segments : ∀ segment ∈ record.path, segment.length ≤ shortLimit := fun segment member =>
    Nat.le_trans (limited.segments segment member) (Nat.le_trans recordable.key (by decide))
  exact ⟨limited.key_le recordable, limited.value_le recordable, depth, segments,
    limited.payload_le recordable depth⟩

theorem encode_of_deep (limited : record.Limited limits) (recordable : limits.Recordable)
    (deep : shortLimit < record.path.length) :
    record.encode = .error (.oversized "path depth" record.path.length shortLimit) := by
  rw [encode, checkSize_eq_ok.mpr (limited.key_le recordable),
    checkSize_eq_ok.mpr (limited.value_le recordable), checkSize, if_pos deep]
  rfl

end Limited

end Record

namespace Bucket

/-- No key is longer than `size`, at any depth. -/
abbrev KeysWithin (size : Nat) (tree : Bucket) : Prop :=
  Lawful (fun record => record.key.length ≤ size) [] tree

private theorem Lawful.segments_of_openAt {size : Nat} {front path : BucketPath}
    {tree opened : Bucket}
    (lawful : Lawful (fun record => record.key.length ≤ size) front tree)
    (found : tree.openAt path = .ok opened) : ∀ segment ∈ path, segment.length ≤ size := by
  induction path generalizing front tree with
  | nil => simp
  | cons segment path ih =>
    obtain ⟨child, here, below⟩ := openAt_cons.mp found
    obtain ⟨short, inside⟩ := lawful.child here
    exact List.forall_mem_cons.mpr ⟨short, ih inside below⟩

end Bucket

namespace Transaction

variable {limits : Limits} {base : Bucket} {tx : Transaction}

private theorem Follows.keysWithin {size : Nat} (follows : tx.Follows base)
    (keys : base.KeysWithin size)
    (logged : ∀ record ∈ tx.log, record.key.length ≤ size) : tx.tree.KeysWithin size :=
  keys.replayed (fun record member _ => logged record member)
    (fun record member _ => logged record member) follows.replayed

/-- Only a bucket that is there is opened, so the segments of its path are keys of the tree. -/
theorem limited_attempt (follows : tx.Follows base) (keys : base.KeysWithin tx.limits.maxKeySize)
    (limited : ∀ record ∈ tx.log, record.Limited tx.limits) (edit : Edit) :
    (tx.attempt edit).limits = tx.limits ∧
      ∀ record ∈ (tx.attempt edit).log, record.Limited tx.limits := by
  have inside := follows.keysWithin keys fun record member => (limited record member).key
  unfold attempt run Transaction.write
  split
  · exact ⟨rfl, limited⟩
  · rename_i bucket found
    have segments := inside.segments_of_openAt found
    obtain ⟨records, done⟩ := (edit.faithful_work ⟨tx.limits, edit.path, bucket, tx.log⟩).leads
    refine ⟨rfl, fun record member => ?_⟩
    have logged : record ∈ tx.log ++ records := done.log ▸ member
    rcases List.mem_append.mp logged with old | new
    · exact limited record old
    · obtain ⟨path, key, value⟩ := done.within record new
      exact ⟨(Limits.checkKey_eq_ok.mp key).2, Limits.checkValue_eq_ok.mp value,
        path ▸ segments⟩

theorem limited_attemptAll (follows : tx.Follows base)
    (keys : base.KeysWithin tx.limits.maxKeySize)
    (limited : ∀ record ∈ tx.log, record.Limited tx.limits) (edits : List Edit) :
    ∀ record ∈ (tx.attemptAll edits).log, record.Limited tx.limits := by
  induction edits generalizing tx with
  | nil => exact limited
  | cons edit edits ih =>
    obtain ⟨same, next⟩ := limited_attempt follows keys limited edit
    rw [← same] at keys next ⊢
    exact ih (follows.attempt edit) keys next

theorem limited_log {tree : Bucket} (keys : tree.KeysWithin limits.maxKeySize)
    (edits : List Edit) :
    ∀ record ∈ ((start limits tree).attemptAll edits).log, record.Limited limits :=
  limited_attemptAll (follows_start limits (keys.mono fun _ _ => trivial)) keys
    (by simp [start]) edits

end Transaction

end ClusterRegistry
