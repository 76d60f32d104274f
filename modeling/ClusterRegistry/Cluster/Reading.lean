import ClusterRegistry.Cluster.Layout

/-!
Reading a cluster back from its bucket.  Fields that have no meaning here are passed over; a field
that has one must be well-formed.  A list must have an entry for each index below its length and
none from there on; one without a length ends before the first index that has no entry.
-/
namespace ClusterRegistry.Layout

def readText (field : String) (raw : Bytes) : Except ClusterError String :=
  match Bytes.text? raw with
  | some text => .ok text
  | none => .error (.malformed (.notText field))

def readInteger (field : String) (limit : Nat) (raw : Bytes) : Except ClusterError Nat := do
  let text ← readText field raw
  match Numeral.parse? 10 limit text with
  | some value => return value
  | none => throw (.malformed (.invalidInteger field text))

def readInstant (field : String) (raw : Bytes) : Except ClusterError Instant := do
  let text ← readText field raw
  match Timestamp.parse text with
  | .ok instant => return instant
  | .error fault => throw (.malformed (.invalidTimestamp field text fault))

def field? (bucket : Bucket) (name : String) : Option Bytes :=
  bucket.field? (Bytes.ofText name)

def child? (bucket : Bucket) (name : String) : Option Bucket :=
  bucket.child? (Bytes.ofText name)

def textField (bucket : Bucket) (name : String) : Except ClusterError String :=
  match field? bucket name with
  | some raw => readText name raw
  | none => .ok ""

def instantField (bucket : Bucket) (name : String) : Except ClusterError Instant :=
  match field? bucket name with
  | some raw => readInstant name raw
  | none => .error (.malformed (.missingField name))

def readTimestamps (bucket : Bucket) : Except ClusterError (Instant × Instant) := do
  return (← instantField bucket createdAt, ← instantField bucket updatedAt)

def readLabels (bucket : Bucket) : Except ClusterError Labels :=
  match child? bucket labels with
  | some set =>
    set.fields.foldlM (fun found field => do return found.insert (← readText labels field.1)) .empty
  | none => .ok .empty

/-- The first index from `index` on that is not present, or the one after `bound` that are. -/
def firstGap (isPresent : Nat → Bool) : (bound : Nat) → (index : Nat) → Nat
  | 0, index => index
  | bound + 1, index =>
    if isPresent index then firstGap isPresent bound (index + 1) else index

def strayIndex? (bucket : Bucket) (length : Nat) : Option Nat :=
  bucket.findSome? fun entry => (Numeral.index? entry.1).filter (length ≤ ·)

/-- A list of `length` entries has all of them and no other. -/
def checkLength (bucket : Bucket) (gap length : Nat) : Except ClusterError Nat :=
  if gap < length then .error (.malformed (.missingEntry gap length))
  else
    match strayIndex? bucket length with
    | some index => .error (.malformed (.unexpectedEntry index length))
    | none => .ok length

/-- The length of a list, of whose entries `isPresent` tells.  A bucket has no more indices than
entries, which bounds the search for a gap. -/
def sequenceLength (bucket : Bucket) (isPresent : Key → Bool) : Except ClusterError Nat :=
  let gap := firstGap (fun index => isPresent (Numeral.indexKey index)) bucket.length 0
  match field? bucket count with
  | none => .ok gap
  | some raw => do checkLength bucket gap (← readInteger count Numeral.wordLimit raw)

def readTexts (bucket : Bucket) (name : String) : Except ClusterError (List String) :=
  match child? bucket name with
  | none => .ok []
  | some items => reporting name do
    let length ← sequenceLength items fun key => (items.field? key).isSome
    (List.range length).mapM fun index =>
      readText (toString index) ((items.field? (Numeral.indexKey index)).getD [])

def readPeer (bucket : Bucket) : Except ClusterError (Option Peer) :=
  match child? bucket definition with
  | none => .ok none
  | some peer => do
    let transports ← readTexts peer transports
    let muxers ← readTexts peer muxers
    let securityTransports ← readTexts peer securityTransports
    let gitReference ← textField peer gitReference
    let routing ← textField peer routing
    return some ⟨gitReference, transports, muxers, securityTransports, routing⟩

def sizeField (bucket : Bucket) : Except ClusterError UInt32 :=
  match field? bucket size with
  | some raw => UInt32.ofNat <$> readInteger size UInt32.size raw
  | none => .ok 0

def readGroup (bucket : Bucket) : Except ClusterError Group := do
  let labels ← readLabels bucket
  let peer ← reporting "peer definition" (readPeer bucket)
  let instanceType ← textField bucket instanceType
  let region ← textField bucket region
  let size ← sizeField bucket
  return ⟨size, instanceType, region, peer, labels⟩

def readGroups (bucket : Bucket) : Except ClusterError (List Group) :=
  match child? bucket definition with
  | none => .ok []
  | some groups => do
    let length ← reporting "groups" (sequenceLength groups fun key => (groups.child? key).isSome)
    (List.range length).mapM fun index =>
      reporting ("group " ++ toString index)
        (readGroup ((groups.child? (Numeral.indexKey index)).getD []))

def readStatus (bucket : Bucket) : Except ClusterError (Option Status) := do
  let name ← textField bucket status
  match Status.ofName? name with
  | some status => return some status
  | none => if name = "" then return none else throw (.malformed (.unknownStatus name))

/-- The cluster in a bucket; `defaultId` names it where no field does. -/
def readCluster (bucket : Bucket) (defaultId : String) : Except ClusterError Cluster := do
  let (createdAt, updatedAt) ← readTimestamps bucket
  let groups ← readGroups bucket
  let labels ← readLabels bucket
  let id ← if (field? bucket id).isSome then textField bucket id else pure defaultId
  let status ← readStatus bucket
  return ⟨id, status, groups, labels, createdAt, updatedAt⟩

end ClusterRegistry.Layout
