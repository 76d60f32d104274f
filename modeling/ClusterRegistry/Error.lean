import ClusterRegistry.Text.Numeral
import ClusterRegistry.Text.Quoted

/-!
Why the store refuses or fails.  Each error is a cause with its data; the wording of all of them
is in the `message` functions and nowhere else.
-/
namespace ClusterRegistry

/-- What the operating system says about a file operation, by broad class. -/
inductive IoKind where
  | notFound
  | alreadyExists
  | invalidInput
  | isDirectory
  | notDirectory
  | directoryNotEmpty
deriving DecidableEq, Repr

def IoKind.text : IoKind → String
  | .notFound => "entity not found"
  | .alreadyExists => "entity already exists"
  | .invalidInput => "invalid input parameter"
  | .isDirectory => "is a directory"
  | .notDirectory => "not a directory"
  | .directoryNotEmpty => "directory not empty"

/-- Why a bucket does not accept a change. -/
inductive TreeError where
  | bucketExists (key : Bytes)
  | bucketNotFound (key : Bytes)
  | incompatible (key : Bytes)
deriving DecidableEq, Repr

def TreeError.message : TreeError → String
  | .bucketExists key => s!"bucket {Quoted.key key} already exists"
  | .bucketNotFound key => s!"bucket {Quoted.key key} not found"
  | .incompatible key => s!"key {Quoted.key key} is already used by a value of another kind"

/-- Why stored bytes are no log. -/
inductive Corruption where
  | shortRecord (size needed : Nat)
  | invalidOperation (code : UInt8)
  | shortPayload (part : String) (needed available : Nat)
  | unreplayable (txid : Nat) (cause : TreeError)
deriving DecidableEq, Repr

def Corruption.message : Corruption → String
  | .shortRecord size needed => s!"Entry too short: {size} bytes, need at least {needed}"
  | .invalidOperation code => s!"Invalid operation type: {code.toNat}"
  | .shortPayload part needed available =>
    s!"payload too short for {part}: need {needed} bytes, have {available}"
  | .unreplayable txid cause => s!"transaction {txid} does not replay: {cause.message}"

inductive ConfigFault where
  | rotationSize
  | keySize
  | valueSize
deriving DecidableEq, Repr

def ConfigFault.message : ConfigFault → String
  | .rotationSize => "wal_rotation_size_bytes must be >= 64KB"
  | .keySize => "max_key_size must be in [1, 32KB]"
  | .valueSize => "max_value_size must be in [1, 128MB]"

inductive StoreError where
  | io (place : Option String) (kind : IoKind) (detail : String)
  | corrupted (place : String) (offset : Nat) (cause : Corruption)
  | checksumMismatch (place : String) (offset : Nat) (expected actual : UInt32)
  | tornRecord (place : String) (offset expected available : Nat)
  | noMagic (place : String) (offset : Nat) (found : Bytes)
  | oversized (component : String) (size limit : Nat)
  | emptyKey
  | rootValue
  | tree (cause : TreeError)
  | cancelled
  | deadlineExceeded
  | invalidConfig (fault : ConfigFault)
deriving DecidableEq, Repr

namespace StoreError

def ioMessage (place : Option String) (kind detail : String) : String :=
  match place with
  | none => s!"I/O error: {detail} ({kind})"
  | some place => s!"I/O error in {place}: {detail} ({kind})"

def corruptedMessage (place : String) (offset : Nat) (reason : String) : String :=
  s!"WAL corrupted in {place} at offset {offset}: {reason}"

def invalidConfigMessage (reason : String) : String :=
  s!"invalid configuration: {reason}"

def message : StoreError → String
  | .io place kind detail => ioMessage place kind.text detail
  | .corrupted place offset cause => corruptedMessage place offset cause.message
  | .checksumMismatch place offset expected actual =>
    let expectedText := Numeral.padded 16 8 expected.toNat
    let actualText := Numeral.padded 16 8 actual.toNat
    s!"Checksum mismatch in {place} at offset {offset}: expected 0x{expectedText}, got 0x{actualText}"
  | .tornRecord place offset expected available =>
    s!"Torn write in {place} at offset {offset}: expected {expected} bytes, only {available} available"
  | .noMagic place offset found =>
    s!"Magic bytes not found in {place} at offset {offset}: found {found.hex}"
  | .oversized component size limit =>
    s!"Entry {component} too large: {size} bytes exceeds limit of {limit} bytes"
  | .emptyKey => "bucket and field keys must not be empty"
  | .rootValue => "values cannot be stored at the root level"
  | .tree cause => cause.message
  | .cancelled => "context cancelled"
  | .deadlineExceeded => "context deadline exceeded"
  | .invalidConfig fault => invalidConfigMessage fault.message

end StoreError

end ClusterRegistry
