import ClusterRegistry.Proofs.Outcome
import ClusterRegistry.Proofs.Tree.Lawful
import ClusterRegistry.Tree.Snapshot

/-!
The snapshot of a tree, replayed.  What a record does below a child it does to that child alone,
so the records of a child, replayed one level further down, rebuild the child there; and the fields
and children of a bucket are inserted one after another.
-/
namespace ClusterRegistry

def Item.isValue : Item → Bool
  | .value _ => true
  | .bucket _ => false

/-- The record in a bucket further up, at the end of whose path `front` the old root is. -/
def Record.below (front : BucketPath) (record : Record) : Record :=
  { record with path := front ++ record.path }

namespace Bucket

theorem replay_append (records later : List Record) (tree : Bucket) :
    replay (records ++ later) tree = replay records tree >>= replay later := by
  rw [replay, List.foldlM_append]
  rfl

theorem replay_cons (record : Record) (later : List Record) (tree : Bucket) :
    replay (record :: later) tree = tree.apply record >>= replay later :=
  rfl

private theorem changeAt_child {change : Bucket → Except TreeError Bucket} {path : BucketPath}
    {child changed : Bucket} (ok : changeAt change path child = .ok changed) (key : Key)
    (tree : Bucket) :
    changeAt change (key :: path) (OrderedMap.insert key (.bucket child) tree) =
      .ok (OrderedMap.insert key (.bucket changed) tree) := by
  simp only [changeAt, child?_insert, ok, OrderedMap.insert_insert]

private theorem apply_below {record : Record} {child changed : Bucket}
    (ok : child.apply record = .ok changed) (kept : record.operation ≠ .checkpoint) (key : Key)
    (tree : Bucket) :
    apply (record.below [key]) (OrderedMap.insert key (.bucket child) tree) =
      .ok (OrderedMap.insert key (.bucket changed) tree) := by
  obtain ⟨operation, path, name, value⟩ := record
  cases operation with
  | put => exact changeAt_child ok key tree
  | delete => exact changeAt_child ok key tree
  | createBucket => exact changeAt_child ok key tree
  | deleteBucket => exact changeAt_child ok key tree
  | commit =>
    cases ok
    rfl
  | checkpoint => exact absurd rfl kept

private theorem replay_below {records : List Record} {child changed : Bucket}
    (ok : replay records child = .ok changed)
    (kept : ∀ record ∈ records, record.operation ≠ .checkpoint) (key : Key) (tree : Bucket) :
    replay (records.map (Record.below [key])) (OrderedMap.insert key (.bucket child) tree) =
      .ok (OrderedMap.insert key (.bucket changed) tree) := by
  induction records generalizing child with
  | nil =>
    cases ok
    rfl
  | cons record records ih =>
    obtain ⟨first, kept⟩ := List.forall_mem_cons.mp kept
    rw [replay_cons] at ok
    obtain ⟨middle, done, ok⟩ := Outcome.bind_eq_ok.mp ok
    rw [List.map_cons, replay_cons, apply_below done first]
    exact ih ok kept

/-- All records that rebuild a bucket which is there and empty. -/
def contentRecords (path : BucketPath) (bucket : Bucket) : List Record :=
  fieldRecords path bucket ++ childRecords path bucket

private theorem fieldRecords_append (front path : BucketPath) (bucket : Bucket) :
    fieldRecords (front ++ path) bucket = (fieldRecords path bucket).map (Record.below front) := by
  simp [fieldRecords, Record.below, Record.put]

mutual
private theorem itemRecords_append (front path : BucketPath) (key : Key) :
    (item : Item) → itemRecords (front ++ path) key item =
      (itemRecords path key item).map (Record.below front)
  | .value _ => rfl
  | .bucket entries => by
    have fields := fieldRecords_append front (path ++ [key]) entries
    have children := childRecords_append front (path ++ [key]) entries
    rw [← List.append_assoc] at fields children
    rw [itemRecords, itemRecords, fields, children]
    simp [Record.below, Record.createBucket]

private theorem childRecords_append (front path : BucketPath) :
    (entries : List (Key × Item)) → childRecords (front ++ path) entries =
      (childRecords path entries).map (Record.below front)
  | [] => rfl
  | (key, item) :: rest => by
    rw [childRecords, childRecords, itemRecords_append front path key item,
      childRecords_append front path rest, List.map_append]
end

private theorem contentRecords_eq (path : BucketPath) (bucket : Bucket) :
    contentRecords path bucket = (contentRecords [] bucket).map (Record.below path) := by
  have fields := fieldRecords_append path [] bucket
  have children := childRecords_append path [] bucket
  rw [List.append_nil] at fields children
  rw [contentRecords, contentRecords, fields, children, List.map_append]

theorem mem_fields {bucket : Bucket} {field : Key × Bytes} (member : field ∈ bucket.fields) :
    (field.1, Item.value field.2) ∈ bucket := by
  obtain ⟨⟨key, item⟩, inside, ok⟩ := List.mem_filterMap.mp member
  cases item with
  | value bytes =>
    cases ok
    exact inside
  | bucket entries => contradiction

private theorem mem_childRecords {path : BucketPath} {entries : List (Key × Item)} {record : Record}
    (member : record ∈ childRecords path entries) :
    ∃ entry ∈ entries, record ∈ itemRecords path entry.1 entry.2 := by
  induction entries with
  | nil => contradiction
  | cons entry rest ih =>
    rw [childRecords] at member
    rcases List.mem_append.mp member with first | later
    · exact ⟨entry, List.mem_cons_self, first⟩
    · obtain ⟨other, inside, found⟩ := ih later
      exact ⟨other, List.mem_cons_of_mem _ inside, found⟩

def Storing (fits : Record → Prop) (record : Record) : Prop :=
  fits record ∧ (record.operation = .put ∨ record.operation = .createBucket)

private theorem storing_of_mem {fits : Record → Prop} {path : BucketPath} {bucket : Bucket}
    (inner : ∀ entry ∈ bucket, Item.Lawful fits path entry.1 entry.2)
    (children : ∀ entry ∈ bucket, ∀ record ∈ itemRecords path entry.1 entry.2, Storing fits record) :
    ∀ record ∈ contentRecords path bucket, Storing fits record := by
  intro record member
  rcases List.mem_append.mp member with field | child
  · obtain ⟨field, inside, rfl⟩ := List.mem_map.mp field
    cases inner _ (mem_fields inside) with
    | value fit => exact ⟨fit, .inl rfl⟩
  · obtain ⟨entry, inside, found⟩ := mem_childRecords child
    exact children entry inside record found

private theorem Lawful.storing_itemRecords {fits : Record → Prop} {path : BucketPath} {key : Key}
    {item : Item} (lawful : Item.Lawful fits path key item) :
    ∀ record ∈ itemRecords path key item, Storing fits record := by
  induction lawful with
  | value fit => simp [itemRecords]
  | bucket fit ordered inner ih =>
    rw [itemRecords]
    exact List.forall_mem_cons.mpr ⟨⟨fit, .inr rfl⟩, storing_of_mem inner ih⟩

theorem Lawful.storing {fits : Record → Prop} {path : BucketPath} {bucket : Bucket}
    (lawful : Lawful fits path bucket) : ∀ record ∈ contentRecords path bucket,
      Storing fits record :=
  storing_of_mem lawful.inner fun entry member => storing_itemRecords (lawful.inner entry member)

private theorem Lawful.unchecked {fits : Record → Prop} {path : BucketPath} {bucket : Bucket}
    (lawful : Lawful fits path bucket) :
    ∀ record ∈ contentRecords [] bucket, record.operation ≠ .checkpoint := by
  intro record member discards
  have moved : record.below path ∈ contentRecords path bucket := by
    rw [contentRecords_eq]
    exact List.mem_map_of_mem member
  have operation : record.operation = .put ∨ record.operation = .createBucket :=
    (lawful.storing _ moved).2
  rw [discards] at operation
  rcases operation with put | create <;> contradiction

private theorem replay_fieldRecords (entries : List (Key × Item)) {tree : Bucket}
    (childless : ∀ key child, tree.item? key ≠ some (.bucket child)) :
    replay (fieldRecords [] entries) tree =
      .ok (OrderedMap.insertAll (entries.filter fun entry => entry.2.isValue) tree) := by
  induction entries generalizing tree with
  | nil => rfl
  | cons entry rest ih =>
    obtain ⟨key, item⟩ := entry
    cases item with
    | bucket entries => exact ih childless
    | value bytes =>
      have stored : tree.apply (.put [] key bytes) =
          .ok (OrderedMap.insert key (.value bytes) tree) := by
        change putField key bytes tree = _
        unfold putField
        split
        · rename_i child found
          exact absurd found (childless key child)
        · rfl
      have later : ∀ other child,
          item? (OrderedMap.insert key (.value bytes) tree) other ≠ some (.bucket child) := by
        intro other child
        rw [item?, OrderedMap.find?_insert]
        split
        · simp
        · exact childless other child
      change replay (.put [] key bytes :: fieldRecords [] rest) tree = _
      rw [replay_cons, stored]
      exact ih later

private theorem replay_itemRecords {key : Key} {child tree : Bucket}
    (rebuilt : replay (contentRecords [] child) [] = .ok child)
    (unchecked : ∀ record ∈ contentRecords [] child, record.operation ≠ .checkpoint)
    (absent : tree.item? key = none) :
    replay (itemRecords [] key (.bucket child)) tree =
      .ok (OrderedMap.insert key (.bucket child) tree) := by
  have created : tree.apply (.createBucket [] key) =
      .ok (OrderedMap.insert key (.bucket []) tree) := by
    change createChild key tree = _
    rw [createChild, absent]
  rw [itemRecords, replay_cons, created]
  change replay (contentRecords [key] child) _ = _
  rw [contentRecords_eq]
  exact replay_below rebuilt unchecked key tree

private theorem replay_childRecords {fits : Record → Prop} {path : BucketPath}
    {entries : List (Key × Item)} {tree : Bucket} (lawful : Lawful fits path entries)
    (rebuilt : ∀ key child, (key, Item.bucket child) ∈ entries →
      replay (contentRecords [] child) [] = .ok child)
    (absent : ∀ key child, (key, Item.bucket child) ∈ entries → tree.item? key = none) :
    replay (childRecords [] entries) tree =
      .ok (OrderedMap.insertAll (entries.filter fun entry => !entry.2.isValue) tree) := by
  induction entries generalizing tree with
  | nil => rfl
  | cons entry rest ih =>
    obtain ⟨key, item⟩ := entry
    obtain ⟨below, ordered⟩ := List.pairwise_cons.mp lawful.ordered
    obtain ⟨first, inner⟩ := List.forall_mem_cons.mp lawful.inner
    have others := fun key child member => rebuilt key child (List.mem_cons_of_mem _ member)
    rw [childRecords]
    cases first with
    | value =>
      exact ih ⟨ordered, inner⟩ others fun key child member =>
        absent key child (List.mem_cons_of_mem _ member)
    | @bucket _ _ child _ childOrdered childInner =>
      have unchecked := Lawful.unchecked ⟨childOrdered, childInner⟩
      rw [replay_append, replay_itemRecords (rebuilt key child List.mem_cons_self) unchecked
        (absent key child List.mem_cons_self)]
      apply ih ⟨ordered, inner⟩ others
      intro other grandchild member
      have differs : other ≠ key := by
        intro same
        subst same
        have above : other < other := below (other, .bucket grandchild) member
        exact Std.Irrefl.irrefl (r := fun a b : Key => a < b) other above
      rw [item?, OrderedMap.find?_insert, if_neg differs]
      exact absent other grandchild (List.mem_cons_of_mem _ member)

theorem replay_contentRecords {fits : Record → Prop} {path : BucketPath}
    {entries : List (Key × Item)} (lawful : Lawful fits path entries)
    (rebuilt : ∀ key child, (key, Item.bucket child) ∈ entries →
      replay (contentRecords [] child) [] = .ok child) :
    replay (contentRecords [] entries) [] = .ok entries := by
  have distinctFields := OrderedMap.distinct_of_ordered
    (lawful.ordered.filter fun entry => entry.2.isValue)
  have distinctChildren := OrderedMap.distinct_of_ordered
    (lawful.ordered.filter fun entry => !entry.2.isValue)
  have absent : ∀ key child, (key, Item.bucket child) ∈ entries →
      item? (OrderedMap.insertAll (entries.filter fun entry => entry.2.isValue) []) key =
        none := by
    intro key child member
    rw [item?, OrderedMap.find?_insertAll key distinctFields, OrderedMap.find?_filter _ _
      lawful.ordered, OrderedMap.find?_of_mem lawful.ordered member]
    rfl
  rw [contentRecords, replay_append, replay_fieldRecords entries (by simp [item?, OrderedMap.find?])]
  refine (replay_childRecords lawful rebuilt absent).trans (congrArg _ ?_)
  have start : OrderedMap.Ordered ([] : Bucket) := List.Pairwise.nil
  apply OrderedMap.ext_find? (OrderedMap.ordered_insertAll _ (OrderedMap.ordered_insertAll _ start))
    lawful.ordered
  intro key
  rw [OrderedMap.find?_insertAll key distinctChildren, OrderedMap.find?_insertAll key distinctFields,
    OrderedMap.find?_filter _ _ lawful.ordered, OrderedMap.find?_filter _ _ lawful.ordered]
  cases found : OrderedMap.find? key entries with
  | none => rfl
  | some item => cases item <;> rfl

private theorem Lawful.replay_item {fits : Record → Prop} {path : BucketPath} {key : Key}
    {item : Item}
    (lawful : Item.Lawful fits path key item) :
    ∀ child, item = .bucket child → replay (contentRecords [] child) [] = .ok child := by
  induction lawful with
  | value fit => nofun
  | bucket fit ordered inner ih =>
    intro child same
    cases same
    exact replay_contentRecords ⟨ordered, inner⟩ fun key child member => ih _ member child rfl

/-- A snapshot rebuilds its tree, whatever is there before. -/
theorem Lawful.replay_snapshot {fits : Record → Prop} {tree : Bucket}
    (lawful : Lawful fits [] tree) (before : Bucket) : replay tree.snapshot before = .ok tree :=
  replay_contentRecords lawful fun key child member =>
    replay_item (lawful.inner (key, .bucket child) member) child rfl

end Bucket

end ClusterRegistry
