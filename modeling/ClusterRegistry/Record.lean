import ClusterRegistry.Bytes

/-!
The mutations that the log holds.  A record names the bucket that it changes by the path from
the root, outermost bucket first; a commit record closes a transaction and carries its number.
-/
namespace ClusterRegistry

inductive Operation where
  | put
  | delete
  | createBucket
  | deleteBucket
  | commit
  | checkpoint
deriving DecidableEq, Repr

namespace Operation

def code : Operation → UInt8
  | put => 1
  | delete => 2
  | createBucket => 3
  | deleteBucket => 4
  | commit => 5
  | checkpoint => 6

def ofCode? (code : UInt8) : Option Operation :=
  match code.toNat with
  | 1 => some put
  | 2 => some delete
  | 3 => some createBucket
  | 4 => some deleteBucket
  | 5 => some commit
  | 6 => some checkpoint
  | _ => none

theorem ofCode?_code (operation : Operation) : ofCode? operation.code = some operation := by
  cases operation <;> rfl

end Operation

abbrev Key := Bytes

/-- Keys of nested buckets, outermost first; the empty path is the root. -/
abbrev BucketPath := List Key

structure Record where
  operation : Operation
  path : BucketPath
  key : Key
  value : Bytes
deriving DecidableEq, Repr

namespace Record

def put (path : BucketPath) (key value : Bytes) : Record :=
  ⟨.put, path, key, value⟩

def delete (path : BucketPath) (key : Key) : Record :=
  ⟨.delete, path, key, []⟩

def createBucket (path : BucketPath) (key : Key) : Record :=
  ⟨.createBucket, path, key, []⟩

def deleteBucket (path : BucketPath) (key : Key) : Record :=
  ⟨.deleteBucket, path, key, []⟩

/-- Discards all that was replayed before it. -/
def checkpoint : Record :=
  ⟨.checkpoint, [], [], []⟩

def commit (txid : Nat) : Record :=
  ⟨.commit, [], [], Bytes.littleEndian 8 txid⟩

/-- The transaction that a commit record closes. -/
def txid? (record : Record) : Option Nat :=
  if record.operation = .commit ∧ record.value.length = 8 then
    some record.value.ofLittleEndian
  else none

theorem txid?_commit (txid : Nat) (bound : txid < Bytes.capacity 8) :
    (commit txid).txid? = some txid := by
  have width : (Bytes.littleEndian 8 txid).length = 8 := Bytes.littleEndian_length 8 txid
  unfold txid? commit
  rw [if_pos ⟨rfl, width⟩, Bytes.ofLittleEndian_littleEndian, Nat.mod_eq_of_lt bound]

end Record

end ClusterRegistry
