import ClusterRegistry.Error
import ClusterRegistry.Time.Timestamp

/-!
Why a cluster operation fails: a cause, in any number of layers that say what was being done.
The kind of an error looks through these layers.
-/
namespace ClusterRegistry

def maxIdentifierLength : Nat := 76

def maxClusterSize : Nat := 1000

inductive InvalidArgument where
  | emptyIdentifier
  | longIdentifier (id : String)
  | malformedIdentifier (id : String)
  | missingIdentifier
  | excessiveSize (size : Nat)
  | unknownStatus (name : String)
deriving DecidableEq, Repr

def InvalidArgument.message : InvalidArgument → String
  | .emptyIdentifier => "identifier must not be empty"
  | .longIdentifier id =>
    s!"identifier {Quoted.text id} greater than maximum length ({maxIdentifierLength} characters)"
  | .malformedIdentifier id =>
    s!"identifier {Quoted.text id} must be alphanumeric components separated by '.', '_' or '-'"
  | .missingIdentifier => "cluster id required for update"
  | .excessiveSize size => s!"cluster size {size} exceeds maximum of {maxClusterSize}"
  | .unknownStatus name => s!"unknown cluster status {Quoted.text name}"

/-- Why stored fields are no cluster. -/
inductive Malformed where
  | notText (field : String)
  | invalidInteger (field text : String)
  | invalidTimestamp (field text : String) (fault : Timestamp.Fault)
  | missingField (field : String)
  | missingEntry (index count : Nat)
  | unexpectedEntry (index count : Nat)
  | unknownStatus (name : String)
  | clusterKey (key : Bytes)
deriving DecidableEq, Repr

def Malformed.message : Malformed → String
  | .notText field => s!"{field}: value is not valid UTF-8"
  | .invalidInteger field text => s!"{field}: invalid integer {Quoted.text text}"
  | .invalidTimestamp field text fault =>
    s!"{field}: invalid timestamp {Quoted.text text}: {fault.message}"
  | .missingField field => s!"{field} is missing"
  | .missingEntry index count => s!"entry {index} of {count} is missing"
  | .unexpectedEntry index count => s!"unexpected entry {index}, sequence holds {count}"
  | .unknownStatus name => s!"status: unknown value {Quoted.text name}"
  | .clusterKey key => s!"cluster key {Quoted.byteList key} is not valid UTF-8"

inductive ErrorKind where
  | notFound
  | alreadyExists
  | invalidArgument
  | malformed
  | cancelled
  | storage
deriving DecidableEq, Repr

inductive ClusterError where
  | notFound (subject : String)
  | alreadyExists (subject : String)
  | invalidArgument (cause : InvalidArgument)
  | malformed (cause : Malformed)
  | store (cause : StoreError)
  | during (activity : String) (cause : ClusterError)
deriving DecidableEq, Repr

namespace ClusterError

def invalidArgumentMessage (reason : String) : String :=
  s!"invalid argument: {reason}"

def malformedMessage (reason : String) : String :=
  s!"malformed record: {reason}"

def duringMessage (activity reason : String) : String :=
  s!"{activity}: {reason}"

def message : ClusterError → String
  | notFound subject => s!"{subject}: not found"
  | alreadyExists subject => s!"{subject}: already exists"
  | invalidArgument cause => invalidArgumentMessage cause.message
  | malformed cause => malformedMessage cause.message
  | store cause => cause.message
  | during activity cause => duringMessage activity cause.message

def kind : ClusterError → ErrorKind
  | notFound _ => .notFound
  | alreadyExists _ => .alreadyExists
  | invalidArgument _ => .invalidArgument
  | malformed _ => .malformed
  | store .cancelled => .cancelled
  | store .deadlineExceeded => .cancelled
  | store _ => .storage
  | during _ cause => cause.kind

end ClusterError

def reporting (activity : String) (outcome : Except ClusterError α) : Except ClusterError α :=
  outcome.mapError (.during activity)

end ClusterRegistry
