import ClusterRegistry.Cluster.Reading
import ClusterRegistry.Tree.Cursor

/-!
The collection of clusters: one bucket of the tree, with a bucket for each cluster under its
identifier.  A bucket without entries is no cluster.  Changes are made inside a transaction and
read the clock only where they come to write; a cluster is created at one instant and never
updated backwards.
-/
namespace ClusterRegistry.Collection

def collectionKey : Key := Bytes.ofText Layout.clusters

def collectionPath : BucketPath := [collectionKey]

def describe (id : String) : String :=
  "cluster " ++ Quoted.text id

def missing (id : String) : ClusterError :=
  .notFound (describe id)

def collection? (tree : Bucket) : Option Bucket :=
  tree.child? collectionKey

/-- The bucket of a cluster; an empty one counts as none. -/
def stored? (tree : Bucket) (id : String) : Option Bucket :=
  match collection? tree with
  | some clusters => (clusters.child? (Bytes.ofText id)).filter fun bucket => !bucket.isEmpty
  | none => none

def get (tree : Bucket) (id : String) : Except ClusterError Cluster :=
  match stored? tree id with
  | some bucket => reporting (describe id) (Layout.readCluster bucket id)
  | none => .error (missing id)

def readMember (key : Key) (bucket : Bucket) : Except ClusterError Cluster :=
  match Bytes.text? key with
  | some id => reporting (describe id) (Layout.readCluster bucket id)
  | none => .error (.malformed (.clusterKey key))

/-- Add what is under one key of the collection to the clusters found so far.  Fields and empty
buckets are passed over. -/
def visit (clusters : Bucket) (key : Key) (value : Option Bytes) :
    StateT (List Cluster) (Except ClusterError) Unit := do
  if value.isNone then
    match (clusters.child? key).filter fun bucket => !bucket.isEmpty with
    | some bucket =>
      let cluster ← readMember key bucket
      modify (· ++ [cluster])
    | none => pure ()

/-- All clusters in the order of their keys, if each of them can be read. -/
def list (tree : Bucket) : Except ClusterError (List Cluster) :=
  match collection? tree with
  | some clusters => Prod.snd <$> (clusters.forEach (visit clusters)).run []
  | none => .ok []

def memberPath (id : String) : BucketPath :=
  collectionPath ++ [Bytes.ofText id]

def save (tx : Transaction) (cluster : Cluster) : Except ClusterError (Cluster × Transaction) :=
  match Layout.run (Layout.writeCluster (memberPath cluster.id) cluster) tx with
  | (.ok (), tx) => .ok (cluster, tx)
  | (.error error, _) => .error (.during (describe cluster.id) error)

def perform (tx : Transaction) (edit : Edit) : Except ClusterError Transaction :=
  (tx.perform edit).mapError .store

def ensureCollection (tx : Transaction) : Except ClusterError Transaction :=
  perform tx (.ensure [] collectionKey)

/-- Make an empty bucket for a new cluster, in the place of an empty one that is there. -/
def makeMember (tx : Transaction) (id : String) : Except ClusterError Transaction := do
  let tx ← ensureCollection tx
  let key := Bytes.ofText id
  let vacant := ((tx.tree.at? (memberPath id)).map List.isEmpty).getD false
  let tx ← if vacant then reporting (describe id) (perform tx (.remove collectionPath key)) else pure tx
  match tx.perform (.create collectionPath key) with
  | .ok tx => return tx
  | .error (.tree (.bucketExists _)) => throw (.alreadyExists (describe id))
  | .error error => throw (.during (describe id) (.store error))

def create (cluster : Cluster) (tx : Transaction) (clock : Clock) :
    Except ClusterError (Cluster × Transaction) × Clock :=
  match makeMember tx cluster.id with
  | .error error => (.error error, clock)
  | .ok tx =>
    let (now, clock) := clock.read
    (save tx { cluster with createdAt := now, updatedAt := now }, clock)

def update (cluster : Cluster) (tx : Transaction) (clock : Clock) :
    Except ClusterError (Cluster × Transaction) × Clock :=
  match stored? tx.tree cluster.id with
  | none => (.error (missing cluster.id), clock)
  | some bucket =>
    match reporting (describe cluster.id) (Layout.readTimestamps bucket) with
    | .error error => (.error error, clock)
    | .ok (createdAt, updatedAt) =>
      let (now, clock) := clock.read
      (save tx { cluster with createdAt, updatedAt := now.latest updatedAt }, clock)

structure Relabelling where
  adds : List String
  removes : List String

/-- Added labels are in the set before any is removed. -/
def relabel (change : Relabelling) (now : Instant) (id : String) (tx : Transaction) :
    Except ClusterError (Cluster × Transaction) := do
  let cluster ← get tx.tree id
  let labels := (cluster.labels.addAll change.adds).removeAll change.removes
  let cluster := { cluster with labels, updatedAt := now.latest cluster.updatedAt }
  match Layout.run (Layout.writeCluster (memberPath id) cluster) tx with
  | (.ok (), tx) => return (cluster, tx)
  | (.error error, _) => throw (.during (describe id) error)

def relabelAll (change : Relabelling) (now : Instant) :
    List String → Transaction → Except ClusterError (List Cluster × Transaction)
  | [], tx => .ok ([], tx)
  | id :: rest, tx => do
    let (cluster, tx) ← relabel change now id tx
    let (clusters, tx) ← relabelAll change now rest tx
    return (cluster :: clusters, tx)

def label (ids : List String) (change : Relabelling) (tx : Transaction) (clock : Clock) :
    Except ClusterError (List Cluster × Transaction) × Clock :=
  match ids with
  | [] => (.ok ([], tx), clock)
  | first :: _ =>
    if (collection? tx.tree).isNone then (.error (missing first), clock)
    else
      let (now, clock) := clock.read
      (relabelAll change now ids tx, clock)

/-- Nothing is missing from a collection that was never made. -/
def delete (id : String) (tx : Transaction) : Except ClusterError Transaction :=
  if (collection? tx.tree).isNone then .ok tx
  else
    match tx.perform (.remove collectionPath (Bytes.ofText id)) with
    | .ok tx => .ok tx
    | .error (.tree (.bucketNotFound _)) | .error .emptyKey | .error (.tree (.incompatible _)) =>
      .error (missing id)
    | .error error => .error (.during (describe id) (.store error))

end ClusterRegistry.Collection
