import ClusterRegistry.Cluster.Collection
import ClusterRegistry.Proofs.Text.Numeral
import ClusterRegistry.Proofs.Tree.Capacity

/-!
The records of a transaction fit into the log.  Limits that a store accepts keep keys and values far
below what a record can carry, and the buckets of a cluster lie only a few levels deep, so whatever
part of a cluster is written, the batch of it can be encoded.
-/
namespace ClusterRegistry

/-- A path that stays shallow with `depth` more segments. -/
structure BucketPath.HasRoom (path : BucketPath) (depth : Nat) : Prop where
  shallow : path.length + depth ≤ 16
  short : ∀ segment ∈ path, segment.length ≤ 32 * 1024

namespace BucketPath.HasRoom

variable {path : BucketPath} {depth : Nat}

theorem mono (room : path.HasRoom depth) {fewer : Nat} (less : fewer ≤ depth) :
    path.HasRoom fewer :=
  ⟨Nat.le_trans (Nat.add_le_add_left less _) room.shallow, room.short⟩

theorem snoc (room : path.HasRoom (depth + 1)) {key : Key} (short : key.length ≤ 32 * 1024) :
    BucketPath.HasRoom (path ++ [key]) depth := by
  refine ⟨?_, List.forall_mem_append.mpr ⟨room.short, List.forall_mem_singleton.mpr short⟩⟩
  have shallow := room.shallow
  rw [List.length_append, List.length_singleton]
  omega

end BucketPath.HasRoom

private theorem Record.encodable_of_hasRoom {record : Record} {limits : Limits} {depth : Nat}
    (recordable : limits.Recordable) (room : BucketPath.HasRoom record.path depth)
    (keyed : limits.checkKey record.key = .ok ()) (valued : limits.checkValue record.value = .ok ()) :
    record.Encodable := by
  let widest : Limits := ⟨32 * 1024, 128 * 1024 * 1024⟩
  have limited : record.Limited widest :=
    ⟨Nat.le_trans (Limits.checkKey_eq_ok.mp keyed).2 recordable.key,
      Nat.le_trans (Limits.checkValue_eq_ok.mp valued) recordable.value, room.short⟩
  apply (limited.encodable_iff ⟨Nat.le_refl _, Nat.le_refl _⟩).mpr
  have shallow := room.shallow
  unfold shortLimit
  omega

/-- A transaction whose log can be written. -/
structure Transaction.Recorded (base : Bucket) (tx : Transaction) : Prop extends
    tx.Follows base where
  recordable : tx.limits.Recordable
  encodable : ∀ record ∈ tx.log, record.Encodable

namespace Transaction.Recorded

variable {base : Bucket} {tx next : Transaction} {edit : Edit}

theorem start {limits : Limits} (recordable : limits.Recordable) (wellFormed : base.WellFormed) :
    (Transaction.start limits base).Recorded base :=
  ⟨follows_start limits wellFormed, recordable, by simp [Transaction.start]⟩

theorem perform (recorded : tx.Recorded base) (room : BucketPath.HasRoom edit.path 0)
    (ok : tx.perform edit = .ok next) : next.Recorded base := by
  obtain ⟨limits, records, log, within⟩ := tx.write_log edit.path edit.faithful_work
  have same : (tx.write edit.path edit.work).2 = next := attempt_of_perform ok
  rw [same] at limits log
  refine ⟨recorded.toFollows.perform ok, limits ▸ recorded.recordable, ?_⟩
  intro record member
  rw [log] at member
  rcases List.mem_append.mp member with old | new
  · exact recorded.encodable record old
  · obtain ⟨path, key, value⟩ := within record new
    exact Record.encodable_of_hasRoom recorded.recordable (path ▸ room) key value

theorem run (recorded : tx.Recorded base) {script : Layout.Script}
    (room : ∀ step ∈ script, BucketPath.HasRoom step.edit.path 0)
    (ok : Layout.run script tx = (.ok (), next)) : next.Recorded base := by
  induction script generalizing tx with
  | nil =>
    cases ok
    exact recorded
  | cons step script ih =>
    obtain ⟨first, room⟩ := List.forall_mem_cons.mp room
    rw [Layout.run] at ok
    cases performed : tx.perform step.edit with
    | error error =>
      rw [performed] at ok
      cases ok
    | ok middle =>
      rw [performed] at ok
      exact ih (recorded.perform first performed) room ok

end Transaction.Recorded

namespace Layout

variable {path : BucketPath} {depth : Nat}

private theorem hasRoom_below (room : path.HasRoom (depth + 1)) (name : String)
    (short : (Bytes.ofText name).length ≤ 32 * 1024) : (below path name).HasRoom depth :=
  room.snoc short

private theorem hasRoom_indexKey (room : path.HasRoom (depth + 1)) {index : Nat}
    (short : index < Numeral.wordLimit) :
    BucketPath.HasRoom (path ++ [Numeral.indexKey index]) depth :=
  room.snoc (Nat.le_trans (Numeral.length_ofText_toString_word short) (by decide))

private theorem hasRoom_writeLabels (room : path.HasRoom 1) (set : Labels) :
    ∀ edit ∈ writeLabels path set, BucketPath.HasRoom edit.path 0 := by
  have inside := hasRoom_below room labels (by decide +kernel)
  simp only [writeLabels, List.forall_mem_cons, List.forall_mem_map]
  exact ⟨room.mono (Nat.zero_le _), fun _ _ => inside⟩

private theorem hasRoom_writeTexts (room : path.HasRoom 1) (name : String)
    (short : (Bytes.ofText name).length ≤ 32 * 1024) (items : List String) :
    ∀ edit ∈ writeTexts path name items, BucketPath.HasRoom edit.path 0 := by
  have inside := hasRoom_below room name short
  simp only [writeTexts, List.forall_mem_cons, List.mem_mapIdx]
  refine ⟨room.mono (Nat.zero_le _), inside, ?_⟩
  rintro edit ⟨index, _, rfl⟩
  exact inside

private theorem hasRoom_writePeer (room : path.HasRoom 2) (peer : Peer) :
    ∀ edit ∈ writePeer path peer, BucketPath.HasRoom edit.path 0 := by
  have inside := hasRoom_below room definition (by decide +kernel)
  have here := inside.mono (Nat.zero_le _)
  simp only [writePeer, List.forall_mem_cons, List.forall_mem_append]
  exact ⟨room.mono (Nat.zero_le _),
    ⟨⟨hasRoom_writeTexts inside transports (by decide +kernel) _,
      hasRoom_writeTexts inside muxers (by decide +kernel) _⟩,
      hasRoom_writeTexts inside securityTransports (by decide +kernel) _⟩,
    here, here, by simp⟩

private theorem hasRoom_writeGroup (room : path.HasRoom 2) (group : Group) :
    ∀ edit ∈ writeGroup path group, BucketPath.HasRoom edit.path 0 := by
  have here := room.mono (Nat.zero_le 2)
  have peered : ∀ edit ∈ (group.peer.map (writePeer path)).getD [],
      BucketPath.HasRoom edit.path 0 := by
    cases group.peer with
    | none => simp
    | some peer => exact hasRoom_writePeer room peer
  simp only [writeGroup, List.forall_mem_cons, List.forall_mem_append]
  exact ⟨⟨hasRoom_writeLabels (room.mono (Nat.le_succ 1)) _, peered⟩, here, here, here, by simp⟩

private theorem hasRoom_groupSteps (room : path.HasRoom 3) {index : Nat}
    (short : index < Numeral.wordLimit)
    (group : Group) : ∀ step ∈ groupSteps path index group, BucketPath.HasRoom step.edit.path 0 := by
  simp only [groupSteps, List.forall_mem_cons, List.forall_mem_map]
  exact ⟨room.mono (Nat.zero_le _), hasRoom_writeGroup (hasRoom_indexKey room short) group⟩

private theorem hasRoom_writeGroups (room : path.HasRoom 4) {groups : List Group}
    (short : groups.length < Numeral.wordLimit) :
    ∀ step ∈ writeGroups path groups, BucketPath.HasRoom step.edit.path 0 := by
  have inside := hasRoom_below room definition (by decide +kernel)
  have here := room.mono (Nat.zero_le 4)
  unfold writeGroups
  split
  · exact List.forall_mem_singleton.mpr here
  · simp only [List.forall_mem_cons, List.mem_flatten, List.mem_mapIdx]
    refine ⟨here, inside.mono (Nat.zero_le _), ?_⟩
    rintro step ⟨_, ⟨index, bound, rfl⟩, member⟩
    exact hasRoom_groupSteps inside (Nat.lt_trans bound short) _ step member

theorem hasRoom_writeCluster (room : path.HasRoom 4) {cluster : Cluster}
    (short : cluster.groups.length < Numeral.wordLimit) :
    ∀ step ∈ writeCluster path cluster, BucketPath.HasRoom step.edit.path 0 := by
  have here := room.mono (Nat.zero_le 4)
  simp only [writeCluster, writeTimestamps, List.forall_mem_append, List.forall_mem_map,
    List.forall_mem_cons]
  exact ⟨⟨⟨⟨here, here, by simp⟩, hasRoom_writeGroups room short⟩,
    hasRoom_writeLabels (room.mono (by omega)) _⟩, here, here, by simp⟩

end Layout

theorem Collection.hasRoom_memberPath {id : String} (short : (Bytes.ofText id).length ≤ 32 * 1024) :
    (memberPath id).HasRoom 4 := by
  have name : collectionKey.length = 8 := by decide +kernel
  refine ⟨Nat.le_of_ble_eq_true rfl, ?_⟩
  simp only [memberPath, collectionPath, List.cons_append, List.nil_append, List.forall_mem_cons]
  exact ⟨by omega, short, by simp⟩

end ClusterRegistry
