import ClusterRegistry.Proofs.OrderedMap
import ClusterRegistry.Proofs.Record.RoundTrip
import ClusterRegistry.Tree

/-!
Trees with ascending keys at every level, in which every item could be stored by a record of a
given kind.  A record of that kind leaves such a tree such a tree.
-/
namespace ClusterRegistry

/-- The item under `key` in the bucket at `path`: the record that stores it `fits`, and so do the
records of all that is in it. -/
inductive Item.Lawful (fits : Record → Prop) : BucketPath → Key → Item → Prop where
  | value {path : BucketPath} {key : Key} {bytes : Bytes} (fit : fits (.put path key bytes)) :
      Lawful fits path key (.value bytes)
  | bucket {path : BucketPath} {key : Key} {entries : List (Key × Item)}
      (fit : fits (.createBucket path key)) (ordered : OrderedMap.Ordered entries)
      (inner : ∀ entry ∈ entries, Lawful fits (path ++ [key]) entry.1 entry.2) :
      Lawful fits path key (.bucket entries)

theorem Item.Lawful.mono {fits looser : Record → Prop} (weaker : ∀ record, fits record → looser record)
    {path : BucketPath} {key : Key} {item : Item} (lawful : Item.Lawful fits path key item) :
    Item.Lawful looser path key item := by
  induction lawful with
  | value fit => exact .value (weaker _ fit)
  | bucket fit ordered _ inner => exact .bucket (weaker _ fit) ordered inner

structure Bucket.Lawful (fits : Record → Prop) (path : BucketPath) (bucket : Bucket) : Prop where
  ordered : OrderedMap.Ordered bucket
  inner : ∀ entry ∈ bucket, Item.Lawful fits path entry.1 entry.2

namespace Bucket

variable {fits : Record → Prop} {path : BucketPath} {bucket next : Bucket} {key : Key}

theorem lawful_nil : Lawful fits path [] :=
  ⟨List.Pairwise.nil, by simp⟩

theorem child?_eq_some {child : Bucket} :
    bucket.child? key = some child ↔ bucket.item? key = some (.bucket child) := by
  unfold child?
  cases bucket.item? key with
  | none => simp
  | some item => cases item <;> simp

theorem field?_eq_some {bytes : Bytes} :
    bucket.field? key = some bytes ↔ bucket.item? key = some (.value bytes) := by
  unfold field?
  cases bucket.item? key with
  | none => simp
  | some item => cases item <;> simp

theorem child?_insert (key : Key) (child bucket : Bucket) :
    child? (OrderedMap.insert key (.bucket child) bucket) key = some child := by
  rw [child?_eq_some, item?, OrderedMap.find?_insert, if_pos rfl]

namespace Lawful

theorem mono {looser : Record → Prop} (weaker : ∀ record, fits record → looser record)
    (lawful : Lawful fits path bucket) : Lawful looser path bucket :=
  ⟨lawful.ordered, fun entry member => (lawful.inner entry member).mono weaker⟩

theorem insert (lawful : Lawful fits path bucket) {item : Item}
    (fit : Item.Lawful fits path key item) :
    Lawful fits path (OrderedMap.insert key item bucket) where
  ordered := OrderedMap.ordered_insert key item lawful.ordered
  inner entry member := by
    rcases OrderedMap.mem_insert member with rfl | old
    · exact fit
    · exact lawful.inner entry old

theorem erase (lawful : Lawful fits path bucket) (key : Key) :
    Lawful fits path (OrderedMap.erase key bucket) where
  ordered := OrderedMap.ordered_erase key lawful.ordered
  inner entry member := lawful.inner entry (List.mem_filter.mp member).1

theorem item (lawful : Lawful fits path bucket) {item : Item}
    (found : bucket.item? key = some item) : Item.Lawful fits path key item :=
  lawful.inner (key, item) (OrderedMap.mem_of_find? found)

theorem child (lawful : Lawful fits path bucket) {child : Bucket}
    (found : bucket.child? key = some child) :
    fits (.createBucket path key) ∧ Lawful fits (path ++ [key]) child := by
  cases lawful.item (child?_eq_some.mp found) with
  | bucket fit ordered inner => exact ⟨fit, ordered, inner⟩

theorem putField (lawful : Lawful fits path bucket) {value : Bytes}
    (fit : fits (.put path key value)) (ok : bucket.putField key value = .ok next) :
    Lawful fits path next := by
  unfold Bucket.putField at ok
  split at ok
  · contradiction
  · cases ok
    exact lawful.insert (.value fit)

theorem removeField (lawful : Lawful fits path bucket) (ok : bucket.removeField key = .ok next) :
    Lawful fits path next := by
  unfold Bucket.removeField at ok
  split at ok
  · contradiction
  · cases ok
    exact lawful.erase key

theorem createChild (lawful : Lawful fits path bucket) (fit : fits (.createBucket path key))
    (ok : bucket.createChild key = .ok next) : Lawful fits path next := by
  unfold Bucket.createChild at ok
  split at ok
  · contradiction
  · contradiction
  · cases ok
    exact lawful.insert (.bucket fit List.Pairwise.nil (by simp))

theorem removeChild (lawful : Lawful fits path bucket) (ok : bucket.removeChild key = .ok next) :
    Lawful fits path next := by
  unfold Bucket.removeChild at ok
  split at ok
  · contradiction
  · cases ok
    exact lawful.erase key
  · contradiction

theorem changeAt {change : Bucket → Except TreeError Bucket} {front path : BucketPath}
    {bucket next : Bucket} (lawful : Lawful fits front bucket)
    (ok : Bucket.changeAt change path bucket = .ok next)
    (keeps : ∀ {old new}, Lawful fits (front ++ path) old → change old = .ok new →
      Lawful fits (front ++ path) new) : Lawful fits front next := by
  induction path generalizing front bucket next with
  | nil =>
    rw [List.append_nil] at keeps
    exact keeps lawful ok
  | cons segment path ih =>
    unfold Bucket.changeAt at ok
    split at ok
    · contradiction
    · rename_i child found
      obtain ⟨fit, below⟩ := lawful.child found
      split at ok
      · contradiction
      · rename_i changed done
        cases ok
        rw [List.append_cons] at keeps
        have inside := ih below done keeps
        exact lawful.insert (.bucket fit inside.ordered inside.inner)

theorem apply {record : Record} {tree next : Bucket} (lawful : Lawful fits [] tree)
    (put : record.operation = .put → fits (.put record.path record.key record.value))
    (create : record.operation = .createBucket → fits (.createBucket record.path record.key))
    (ok : tree.apply record = .ok next) : Lawful fits [] next := by
  unfold Bucket.apply at ok
  split at ok
  · rename_i operation
    exact lawful.changeAt ok fun old done => old.putField (put operation) done
  · exact lawful.changeAt ok fun old done => old.removeField done
  · rename_i operation
    exact lawful.changeAt ok fun old done => old.createChild (create operation) done
  · exact lawful.changeAt ok fun old done => old.removeChild done
  · cases ok
    exact lawful_nil
  · cases ok
    exact lawful

theorem replayed {records : List Record} {tree next : Bucket} (lawful : Lawful fits [] tree)
    (put : ∀ record ∈ records, record.operation = .put →
      fits (.put record.path record.key record.value))
    (create : ∀ record ∈ records, record.operation = .createBucket →
      fits (.createBucket record.path record.key))
    (ok : Bucket.replay records tree = .ok next) : Lawful fits [] next := by
  induction records generalizing tree with
  | nil =>
    cases ok
    exact lawful
  | cons record records ih =>
    obtain ⟨firstPut, put⟩ := List.forall_mem_cons.mp put
    obtain ⟨firstCreate, create⟩ := List.forall_mem_cons.mp create
    obtain ⟨middle, first, ok⟩ := Outcome.bind_eq_ok.mp ok
    exact ih (lawful.apply firstPut firstCreate first) put create ok

end Lawful

/-- Keys ascend in every bucket, so none of them names both a value and a bucket. -/
abbrev WellFormed (tree : Bucket) : Prop := Lawful (fun _ => True) [] tree

/-- Every record of a snapshot of the tree can be written. -/
abbrev Storable (tree : Bucket) : Prop := Lawful Record.Encodable [] tree

theorem WellFormed.replayed {records : List Record} {tree next : Bucket}
    (wellFormed : tree.WellFormed) (ok : Bucket.replay records tree = .ok next) :
    next.WellFormed :=
  Lawful.replayed wellFormed (fun _ _ _ => trivial) (fun _ _ _ => trivial) ok

theorem wellFormed_nil : WellFormed [] :=
  lawful_nil

theorem Storable.wellFormed {tree : Bucket} (storable : tree.Storable) : tree.WellFormed :=
  storable.mono fun _ _ => trivial

end Bucket

theorem Record.Encodable.create {record : Record} (fits : record.Encodable) :
    (Record.createBucket record.path record.key).Encodable := by
  obtain ⟨key, value, depth, segments, payload⟩ := fits
  refine ⟨key, Nat.zero_le _, depth, segments, Nat.le_trans ?_ payload⟩
  simp [Record.payload, Record.createBucket, Bytes.littleEndian_length]

theorem Record.Encodable.put {record : Record} (fits : record.Encodable)
    (stores : record.operation = .put) :
    (Record.put record.path record.key record.value).Encodable := by
  obtain ⟨operation, path, key, value⟩ := record
  cases stores
  exact fits

theorem Bucket.Storable.replay {records : List Record} {tree next : Bucket}
    (storable : tree.Storable) (fits : ∀ record ∈ records, record.Encodable)
    (ok : Bucket.replay records tree = .ok next) : next.Storable :=
  Lawful.replayed storable (fun record member => (fits record member).put)
    (fun record member _ => (fits record member).create) ok

end ClusterRegistry
