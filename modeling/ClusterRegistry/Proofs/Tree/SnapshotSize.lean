import ClusterRegistry.Proofs.Tree.TwoMaps

/-!
The size of a snapshot.  Apart from the record that discards what was there, every value and every
bucket of the tree is written once, at whatever depth it is; and that is enough to rebuild the tree
over any other.
-/
namespace ClusterRegistry

namespace Bucket

mutual
def itemFieldCount : Item → Nat
  | .value _ => 1
  | .bucket entries => fieldCount entries

/-- The values in a bucket and in all buckets below it. -/
def fieldCount : List (Key × Item) → Nat
  | [] => 0
  | (_, item) :: rest => itemFieldCount item + fieldCount rest
end

mutual
def itemBucketCount : Item → Nat
  | .value _ => 0
  | .bucket entries => bucketCount entries + 1

/-- The buckets below a bucket, which is not counted itself. -/
def bucketCount : List (Key × Item) → Nat
  | [] => 0
  | (_, item) :: rest => itemBucketCount item + bucketCount rest
end

private theorem length_fieldRecords (path : BucketPath) (bucket : Bucket) :
    (fieldRecords path bucket).length = bucket.fields.length :=
  List.length_map _

-- The records of an entry do not hold its own value: that is written with the fields of the bucket
-- around it.  So the fields of a bucket are added to the records of its children on both levels.
mutual
private theorem length_itemRecords (path : BucketPath) (key : Key) : (child : Bucket) →
    (itemRecords path key (.bucket child)).length = fieldCount child + (bucketCount child + 1)
  | entries => by
    have below := length_childRecords (path ++ [key]) entries
    rw [itemRecords, List.length_cons, List.length_append, length_fieldRecords, below]
    rfl

private theorem length_childRecords (path : BucketPath) : (entries : List (Key × Item)) →
    (fields entries).length + (childRecords path entries).length =
      fieldCount entries + bucketCount entries
  | [] => rfl
  | (key, .value bytes) :: rest => by
    have later := length_childRecords path rest
    have here : (fields ((key, .value bytes) :: rest)).length = (fields rest).length + 1 := rfl
    simp only [childRecords, itemRecords, List.nil_append, fieldCount, itemFieldCount, bucketCount,
      itemBucketCount]
    omega
  | (key, .bucket child) :: rest => by
    have inner := length_itemRecords path key child
    have later := length_childRecords path rest
    have here : (fields ((key, .bucket child) :: rest)).length = (fields rest).length := rfl
    simp only [childRecords, List.length_append, fieldCount, itemFieldCount, bucketCount,
      itemBucketCount]
    omega
end

/-- The two maps of a tree are rebuilt as well, also over nodes with a key in both of theirs. -/
theorem WellFormed.replay_snapshot_node {tree : Bucket} (wellFormed : tree.WellFormed)
    (before : Node) : before.replay tree.snapshot = .ok (Node.ofBucket tree) := by
  have discarded : before.apply .checkpoint = .ok (Node.ofBucket []) := rfl
  have rebuilt : replay (fieldRecords [] tree ++ childRecords [] tree) [] = .ok tree :=
    wellFormed.replay_snapshot []
  rw [snapshot, Node.replay, List.foldlM_cons, discarded]
  change Node.replay _ (Node.ofBucket []) = _
  rw [Node.replay_ofBucket lawful_nil, rebuilt]
  rfl

/-- Whatever is there before, the snapshot of a tree is replayed in full and leaves that tree.  It
discards once, and writes each value and each bucket below the root once. -/
theorem replay_snapshot_of_wellFormed {tree : Bucket} (wellFormed : tree.WellFormed) :
    (∀ before : Bucket, replay tree.snapshot before = .ok tree) ∧
      (∀ before : Node, before.replay tree.snapshot = .ok (Node.ofBucket tree)) ∧
      tree.snapshot.length = 1 + fieldCount tree + bucketCount tree := by
  refine ⟨wellFormed.replay_snapshot, wellFormed.replay_snapshot_node, ?_⟩
  have counted := length_childRecords [] tree
  rw [snapshot, List.length_cons, List.length_append, length_fieldRecords, counted]
  omega

/-- Four buckets on three levels and two values, over a tree that has a value in the place of one of
the buckets, and over a node that has one key in both maps. -/
theorem replay_snapshot_of_nested :
    let tree : Bucket := [([97], .bucket [([107], .value [118]), ([108], .bucket [([109], .bucket []),
      ([110], .value [])])]), ([98], .bucket [])]
    let other : Bucket := [([97], .value [120]), ([99], .bucket [([107], .value [121])])]
    let mixed : Node := ⟨[([97], [120])], [([97], ⟨[], []⟩)]⟩
    tree.WellFormed ∧ replay tree.snapshot other = .ok tree ∧
      mixed.replay tree.snapshot = .ok (Node.ofBucket tree) ∧ ¬mixed.Separate ∧
      tree.snapshot.length = 1 + 2 + 4 := by
  intro tree other mixed
  have made : replay [.createBucket [] [97], .put [[97]] [107] [118], .createBucket [[97]] [108],
      .createBucket [[97], [108]] [109], .put [[97], [108]] [110] [], .createBucket [] [98]] [] =
      .ok tree := by cbv
  have wellFormed : tree.WellFormed := wellFormed_nil.replayed made
  obtain ⟨rebuilt, apart, counted⟩ := replay_snapshot_of_wellFormed wellFormed
  refine ⟨wellFormed, rebuilt other, apart mixed, fun separate => ?_, counted⟩
  rcases separate [] mixed rfl [97] with fieldless | childless
  · contradiction
  · contradiction

end Bucket

end ClusterRegistry
