import ClusterRegistry.Tree

/-!
A bucket of a tree, open for writing.  It is worked on in place: each change is checked against the
size limits, made, and logged with the path of the bucket.
-/
namespace ClusterRegistry

structure Limits where
  maxKeySize : Nat
  maxValueSize : Nat
deriving DecidableEq, Repr

namespace Limits

def checkKey (limits : Limits) (key : Key) : Except StoreError Unit :=
  if key = [] then .error .emptyKey
  else if limits.maxKeySize < key.length then
    .error (.oversized "key" key.length limits.maxKeySize)
  else .ok ()

def checkValue (limits : Limits) (value : Bytes) : Except StoreError Unit :=
  if limits.maxValueSize < value.length then
    .error (.oversized "value" value.length limits.maxValueSize)
  else .ok ()

end Limits

namespace Bucket

/-- The bucket at the end of `path`, or the first segment of it that is no bucket. -/
def openAt : BucketPath → Bucket → Except TreeError Bucket
  | [], bucket => .ok bucket
  | segment :: path, bucket =>
    match bucket.child? segment with
    | none => .error (.bucketNotFound segment)
    | some child => openAt path child

/-- Put another bucket in the place of the one at the end of `path`. -/
def replaceAt (changed : Bucket) : BucketPath → Bucket → Bucket
  | [], _ => changed
  | segment :: path, bucket =>
    match bucket.child? segment with
    | none => bucket
    | some child => OrderedMap.insert segment (.bucket (replaceAt changed path child)) bucket

end Bucket

/-- A bucket that is open for writing, and the log of the transaction that it belongs to. -/
structure OpenBucket where
  limits : Limits
  path : BucketPath
  bucket : Bucket
  log : List Record

/-- Operations on an open bucket in sequence.  What those before a failing one did stays done. -/
abbrev OpenBucketM := ExceptT StoreError (StateM OpenBucket)

namespace OpenBucket

/-- Make a change and log the record of it; nothing is logged where the change is refused. -/
def change (operation : Bucket → Except TreeError Bucket) (record : BucketPath → Record) :
    OpenBucketM Unit :=
  fun opened =>
    match operation opened.bucket with
    | .ok bucket =>
      (.ok (), { opened with bucket, log := opened.log ++ [record opened.path] })
    | .error error => (.error (.tree error), opened)

def require (rule : OpenBucket → Except StoreError Unit) : OpenBucketM Unit :=
  fun opened => (rule opened, opened)

def ask (question : Bucket → Bool) : OpenBucketM Bool :=
  fun opened => (.ok (question opened.bucket), opened)

def validKey (key : Key) : OpenBucketM Unit :=
  require fun opened => opened.limits.checkKey key

def validValue (value : Bytes) : OpenBucketM Unit :=
  require fun opened => opened.limits.checkValue value

/-- The root holds buckets only. -/
def belowRoot : OpenBucketM Unit :=
  require fun opened => if opened.path = [] then .error .rootValue else .ok ()

def hasChild (key : Key) : OpenBucketM Bool :=
  ask fun bucket => (bucket.child? key).isSome

def hasItem (key : Key) : OpenBucketM Bool :=
  ask fun bucket => (bucket.item? key).isSome

def put (key value : Bytes) : OpenBucketM Unit := do
  belowRoot
  validKey key
  validValue value
  change (Bucket.putField key value) fun path => .put path key value

def delete (key : Key) : OpenBucketM Unit := do
  belowRoot
  validKey key
  if ← hasItem key then change (Bucket.removeField key) fun path => .delete path key

def create (key : Key) : OpenBucketM Unit := do
  validKey key
  change (Bucket.createChild key) fun path => .createBucket path key

def remove (key : Key) : OpenBucketM Unit := do
  validKey key
  change (Bucket.removeChild key) fun path => .deleteBucket path key

def ensure (key : Key) : OpenBucketM Unit := do
  if !(← hasChild key) then create key

def recreate (key : Key) : OpenBucketM Unit := do
  if ← hasChild key then remove key
  create key

def discard (key : Key) : OpenBucketM Unit := do
  if ← hasChild key then remove key

end OpenBucket

end ClusterRegistry
