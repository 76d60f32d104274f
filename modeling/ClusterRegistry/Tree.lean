import ClusterRegistry.Error
import ClusterRegistry.OrderedMap
import ClusterRegistry.Record

/-!
The bucket tree.  A bucket maps each of its keys either to a value or to another bucket, in
ascending byte order; the root is a bucket like any other.  A change that would turn a value into
a bucket or a bucket into a value is refused.
-/
namespace ClusterRegistry

inductive Item where
  | value (bytes : Bytes)
  | bucket (entries : List (Key × Item))

abbrev Bucket := List (Key × Item)

namespace Bucket

def item? (bucket : Bucket) (key : Key) : Option Item :=
  OrderedMap.find? key bucket

def field? (bucket : Bucket) (key : Key) : Option Bytes :=
  match bucket.item? key with
  | some (.value bytes) => some bytes
  | _ => none

def child? (bucket : Bucket) (key : Key) : Option Bucket :=
  match bucket.item? key with
  | some (.bucket entries) => some entries
  | _ => none

def fields (bucket : Bucket) : List (Key × Bytes) :=
  bucket.filterMap fun
    | (key, .value bytes) => some (key, bytes)
    | (_, .bucket _) => none

def children (bucket : Bucket) : List (Key × Bucket) :=
  bucket.filterMap fun
    | (key, .bucket entries) => some (key, entries)
    | (_, .value _) => none

def at? (bucket : Bucket) : BucketPath → Option Bucket
  | [] => some bucket
  | segment :: path =>
    match bucket.child? segment with
    | some child => at? child path
    | none => none

def putField (key value : Bytes) (bucket : Bucket) : Except TreeError Bucket :=
  match bucket.item? key with
  | some (.bucket _) => .error (.incompatible key)
  | _ => .ok (OrderedMap.insert key (.value value) bucket)

/-- An absent field may be removed. -/
def removeField (key : Key) (bucket : Bucket) : Except TreeError Bucket :=
  match bucket.item? key with
  | some (.bucket _) => .error (.incompatible key)
  | _ => .ok (OrderedMap.erase key bucket)

def createChild (key : Key) (bucket : Bucket) : Except TreeError Bucket :=
  match bucket.item? key with
  | some (.value _) => .error (.incompatible key)
  | some (.bucket _) => .error (.bucketExists key)
  | none => .ok (OrderedMap.insert key (.bucket []) bucket)

def removeChild (key : Key) (bucket : Bucket) : Except TreeError Bucket :=
  match bucket.item? key with
  | some (.value _) => .error (.incompatible key)
  | some (.bucket _) => .ok (OrderedMap.erase key bucket)
  | none => .error (.bucketNotFound key)

/-- Change the bucket at the end of `path` and keep all else. -/
def changeAt (change : Bucket → Except TreeError Bucket) :
    BucketPath → Bucket → Except TreeError Bucket
  | [], bucket => change bucket
  | segment :: path, bucket =>
    match bucket.child? segment with
    | none => .error (.bucketNotFound segment)
    | some child =>
      match changeAt change path child with
      | .error error => .error error
      | .ok child => .ok (OrderedMap.insert segment (.bucket child) bucket)

/-- One logged record against the whole tree. -/
def apply (record : Record) (tree : Bucket) : Except TreeError Bucket :=
  match record.operation with
  | .put => changeAt (putField record.key record.value) record.path tree
  | .delete => changeAt (removeField record.key) record.path tree
  | .createBucket => changeAt (createChild record.key) record.path tree
  | .deleteBucket => changeAt (removeChild record.key) record.path tree
  | .checkpoint => .ok []
  | .commit => .ok tree

def replay (records : List Record) (tree : Bucket) : Except TreeError Bucket :=
  records.foldlM (fun tree record => tree.apply record) tree

end Bucket

end ClusterRegistry
