import ClusterRegistry.Cluster
import ClusterRegistry.Tree.Transaction

/-!
How a cluster is laid out in buckets, and the edits that write it.  Each cluster has a bucket of
fields; groups, peers, labels and lists of strings have buckets of their own below it.  A list
holds its length and one entry for each index.  Writing recreates every nested bucket, so nothing
that was there before is left in one.
-/
namespace ClusterRegistry.Layout

def clusters : String := "clusters"
def id : String := "id"
def status : String := "status"
def createdAt : String := "createdat"
def updatedAt : String := "updatedat"
def labels : String := "labels"
def definition : String := "definition"
def size : String := "size"
def instanceType : String := "instanceType"
def region : String := "region"
def count : String := "count"
def gitReference : String := "gitReference"
def transports : String := "transports"
def muxers : String := "muxers"
def securityTransports : String := "securityTransports"
def routing : String := "routing"

/-- One edit of a longer write, and the part of the write that a failure is reported under. -/
structure Step where
  edit : Edit
  part : Option String
deriving DecidableEq

abbrev Script := List Step

def Step.plain (edit : Edit) : Step :=
  ⟨edit, none⟩

def Step.failure (step : Step) (error : StoreError) : ClusterError :=
  match step.part with
  | some part => .during part (.store error)
  | none => .store error

/-- Perform the edits up to the first that is refused; those before it stay performed. -/
def run (script : Script) (tx : Transaction) : Except ClusterError Unit × Transaction :=
  match script with
  | [] => (.ok (), tx)
  | step :: rest =>
    match tx.perform step.edit with
    | .ok tx => run rest tx
    | .error error => (.error (step.failure error), tx)

def below (path : BucketPath) (name : String) : BucketPath :=
  path ++ [Bytes.ofText name]

def putText (path : BucketPath) (name text : String) : Edit :=
  .put path (Bytes.ofText name) (Bytes.ofText text)

def recreate (path : BucketPath) (name : String) : Edit :=
  .recreate path (Bytes.ofText name)

def writeTimestamps (path : BucketPath) (created updated : Instant) : List Edit :=
  [putText path createdAt (Timestamp.text created), putText path updatedAt (Timestamp.text updated)]

/-- A label is a key with an empty value. -/
def writeLabels (path : BucketPath) (set : Labels) : List Edit :=
  recreate path labels :: set.toList.map fun label => putText (below path labels) label ""

def writeTexts (path : BucketPath) (name : String) (items : List String) : List Edit :=
  recreate path name :: putText (below path name) count (toString items.length) ::
    items.mapIdx fun index item =>
      .put (below path name) (Numeral.indexKey index) (Bytes.ofText item)

def writePeer (path : BucketPath) (peer : Peer) : List Edit :=
  recreate path definition ::
    (writeTexts (below path definition) transports peer.transports ++
      writeTexts (below path definition) muxers peer.muxers ++
      writeTexts (below path definition) securityTransports peer.securityTransports ++
      [putText (below path definition) gitReference peer.gitReference,
        putText (below path definition) routing peer.routing])

def writeGroup (path : BucketPath) (group : Group) : List Edit :=
  writeLabels path group.labels ++ (group.peer.map (writePeer path)).getD [] ++
    [putText path size (toString group.size.toNat), putText path instanceType group.instanceType,
      putText path region group.region]

def groupSteps (path : BucketPath) (index : Nat) (group : Group) : Script :=
  Step.plain (.create path (Numeral.indexKey index)) ::
    (writeGroup (path ++ [Numeral.indexKey index]) group).map fun edit =>
      ⟨edit, some ("group " ++ toString index)⟩

/-- Without groups there is no bucket for them. -/
def writeGroups (path : BucketPath) (groups : List Group) : Script :=
  if groups = [] then [Step.plain (.discard path (Bytes.ofText definition))]
  else
    Step.plain (recreate path definition) ::
      Step.plain (putText (below path definition) count (toString groups.length)) ::
      (groups.mapIdx (groupSteps (below path definition))).flatten

def statusText (status : Option Status) : String :=
  (status.map Status.name).getD ""

def writeCluster (path : BucketPath) (cluster : Cluster) : Script :=
  (writeTimestamps path cluster.createdAt cluster.updatedAt).map Step.plain ++
    writeGroups path cluster.groups ++ (writeLabels path cluster.labels).map Step.plain ++
    [Step.plain (putText path id cluster.id),
      Step.plain (putText path status (statusText cluster.status))]

end ClusterRegistry.Layout
