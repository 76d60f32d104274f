import ClusterRegistry.Tree.OpenBucket

/-!
A write transaction: a private tree and the records that lead to it.  An edit opens one bucket of
the tree and works on it there; where it is refused, the tree and the log are left as the work left
them.
-/
namespace ClusterRegistry

/-- What a transaction can ask of the bucket at `path`. -/
inductive Edit where
  | put (path : BucketPath) (key value : Bytes)
  /-- Without effect where nothing is stored under the key. -/
  | delete (path : BucketPath) (key : Key)
  | create (path : BucketPath) (key : Key)
  /-- Create a child that is not there yet. -/
  | ensure (path : BucketPath) (key : Key)
  /-- Leave an empty child, whatever was in it. -/
  | recreate (path : BucketPath) (key : Key)
  | remove (path : BucketPath) (key : Key)
  /-- Remove a child that may be missing. -/
  | discard (path : BucketPath) (key : Key)
deriving DecidableEq, Repr

namespace Edit

def path : Edit → BucketPath
  | put path _ _ => path
  | delete path _ => path
  | create path _ => path
  | ensure path _ => path
  | recreate path _ => path
  | remove path _ => path
  | discard path _ => path

/-- What an edit does in the bucket that it opens. -/
def work : Edit → OpenBucketM Unit
  | put _ key value => OpenBucket.put key value
  | delete _ key => OpenBucket.delete key
  | create _ key => OpenBucket.create key
  | ensure _ key => OpenBucket.ensure key
  | recreate _ key => OpenBucket.recreate key
  | remove _ key => OpenBucket.remove key
  | discard _ key => OpenBucket.discard key

end Edit

structure Transaction where
  limits : Limits
  tree : Bucket
  log : List Record

namespace Transaction

def start (limits : Limits) (tree : Bucket) : Transaction :=
  ⟨limits, tree, []⟩

/-- Work on the bucket at `path`, and leave in the tree what the work left, also where it failed. -/
def write (tx : Transaction) (path : BucketPath) (work : OpenBucketM Unit) :
    Except StoreError Unit × Transaction :=
  match tx.tree.openAt path with
  | .error error => (.error (.tree error), tx)
  | .ok bucket =>
    let worked := work ⟨tx.limits, path, bucket, tx.log⟩
    (worked.1, ⟨tx.limits, Bucket.replaceAt worked.2.bucket path tx.tree, worked.2.log⟩)

/-- The answer to an edit, and the transaction after it. -/
def run (tx : Transaction) (edit : Edit) : Except StoreError Unit × Transaction :=
  tx.write edit.path edit.work

/-- The transaction after an edit that succeeds. -/
def perform (tx : Transaction) (edit : Edit) : Except StoreError Transaction :=
  match tx.run edit with
  | (.ok (), next) => .ok next
  | (.error error, _) => .error error

end Transaction

end ClusterRegistry
