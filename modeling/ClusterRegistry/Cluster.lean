import ClusterRegistry.Cluster.Error
import ClusterRegistry.Cluster.Labels

/-!
Clusters: a named sequence of groups of peers, with a status, labels and two instants that the
registry keeps.
-/
namespace ClusterRegistry

inductive Status where
  | creating
  | connecting
  | created
  | destroying
  | destroyed
  | error
deriving DecidableEq, Repr

namespace Status

def all : List Status :=
  [creating, connecting, created, destroying, destroyed, error]

def name : Status → String
  | creating => "creating"
  | connecting => "connecting"
  | created => "created"
  | destroying => "destroying"
  | destroyed => "destroyed"
  | error => "error"

def ofName? (name : String) : Option Status :=
  all.find? fun status => status.name = name

def parse (name : String) : Except ClusterError Status :=
  match ofName? name with
  | some status => .ok status
  | none => .error (.invalidArgument (.unknownStatus name))

end Status

/-- How the peers of a group are built and connected. -/
structure Peer where
  gitReference : String
  transports : List String
  muxers : List String
  securityTransports : List String
  routing : String
deriving DecidableEq

structure Group where
  size : UInt32
  instanceType : String
  region : String
  peer : Option Peer
  labels : Labels
deriving DecidableEq

structure Cluster where
  id : String
  status : Option Status
  groups : List Group
  labels : Labels
  createdAt : Instant
  updatedAt : Instant
deriving DecidableEq

def totalSize (groups : List Group) : Nat :=
  groups.foldr (fun group total => group.size.toNat + total) 0

def generatedLabels (groups : List Group) : Labels :=
  .ofList (groups.flatMap fun group => [group.region, group.instanceType])

def validateGroups (groups : List Group) : Except ClusterError Unit :=
  if maxClusterSize < totalSize groups then
    .error (.invalidArgument (.excessiveSize (totalSize groups)))
  else .ok ()

namespace Identifier

/-- A full stop, an underscore or a hyphen. -/
def isSeparator (byte : UInt8) : Bool :=
  byte = 0x2e || byte = 0x5f || byte = 0x2d

/-- Letters and digits of ASCII; no byte of any other character is one. -/
def isAlphanumeric (byte : UInt8) : Bool :=
  (0x30 ≤ byte && byte ≤ 0x39) || (0x41 ≤ byte && byte ≤ 0x5a) || (0x61 ≤ byte && byte ≤ 0x7a)

/-- Runs of letters and digits, joined by single separators.  `atStart` holds where a run must
begin. -/
def isWellFormed (atStart : Bool) : Bytes → Bool
  | [] => !atStart
  | byte :: rest =>
    if isSeparator byte then !atStart && isWellFormed true rest
    else isAlphanumeric byte && isWellFormed false rest

def validate (id : String) : Except ClusterError Unit :=
  if id = "" then .error (.invalidArgument .emptyIdentifier)
  else if maxIdentifierLength < id.utf8ByteSize then
    .error (.invalidArgument (.longIdentifier id))
  else if isWellFormed true (Bytes.ofText id) then .ok ()
  else .error (.invalidArgument (.malformedIdentifier id))

end Identifier

/-- What is checked before a cluster is created. -/
def Cluster.validate (cluster : Cluster) : Except ClusterError Unit := do
  Identifier.validate cluster.id
  validateGroups cluster.groups

end ClusterRegistry
