import ClusterRegistry.Record.Encoding

/-!
Batches in a byte string.  A batch is written as its records and a commit record; nothing before
the commit record counts until that record is there.  A scan takes records off the front.  Where
no record can be read it goes on one byte further, and whatever batch the damage lies in is
dropped at its commit record.  `scan_eq` says that a scan may be thought of without the count of
bytes it keeps.
-/
namespace ClusterRegistry.Log

/-- A committed transaction. -/
structure Batch where
  txid : Nat
  records : List Record
deriving DecidableEq, Repr

def encodeBatch (records : List Record) (txid : Nat) : Except StoreError Bytes := do
  let parts ← records.mapM Record.encode
  return parts.flatten ++ (← (Record.commit txid).encode)

/-- What a scan has found: whole batches, the records since the last commit record, whether
these are damaged, and all that follows the last commit record. -/
structure Scan where
  batches : List Batch
  pending : List Record
  damaged : Bool
  uncommitted : Bytes
deriving DecidableEq, Repr

namespace Scan

def start (data : Bytes) : Scan :=
  ⟨[], [], false, data⟩

/-- Take in a record that is followed by `rest`. -/
def accept (scan : Scan) (record : Record) (rest : Bytes) : Scan :=
  if record.operation = .commit then
    let closed := if scan.damaged then [] else [⟨record.txid?.getD 0, scan.pending⟩]
    ⟨scan.batches ++ closed, [], false, rest⟩
  else { scan with pending := scan.pending ++ [record] }

def damage (scan : Scan) : Scan :=
  { scan with damaged := true }

def run (scan : Scan) (data : Bytes) : Scan :=
  match data with
  | [] => scan
  | byte :: later =>
    match _ : Record.read (byte :: later) with
    | .ok (record, rest) => run (scan.accept record rest) rest
    | .error _ => run scan.damage later
termination_by data.length
decreasing_by
  · have shorter := Record.length_of_read ‹_›
    simp only [Record.headerSize] at shorter
    omega
  · simp

/-- The scan of `size` bytes, which tells a record cut short from its header and the size. -/
def runSized (scan : Scan) (size : Nat) (data : Bytes) : Scan :=
  match data with
  | [] => scan
  | byte :: later =>
    if size < Record.claimedSize (byte :: later) then runSized scan.damage (size - 1) later
    else
      match _ : Record.read (byte :: later) with
      | .ok (record, rest) =>
        runSized (scan.accept record rest) (size - Record.claimedSize (byte :: later)) rest
      | .error _ => runSized scan.damage (size - 1) later
termination_by data.length
decreasing_by
  · simp
  · have shorter := Record.length_of_read ‹_›
    simp only [Record.headerSize] at shorter
    omega
  · simp

theorem runSized_eq (scan : Scan) (data : Bytes) :
    scan.runSized data.length data = scan.run data := by
  fun_induction run scan data with
  | case1 scan => rw [runSized]
  | case2 scan byte later record rest ok ih =>
    rw [runSized, if_neg]
    · split
      · rename_i found
        cases ok.symm.trans found
        rw [← Record.length_rest_of_read ok, ih]
      · rename_i failed
        cases ok.symm.trans failed
    · intro torn
      obtain ⟨error, failed⟩ := Record.read_of_length_lt torn
      cases ok.symm.trans failed
  | case3 scan byte later error failed ih =>
    rw [runSized]
    split
    · exact ih
    · split
      · rename_i found
        cases failed.symm.trans found
      · exact ih

end Scan

def scan (data : Bytes) : Scan :=
  (Scan.start data).runSized data.length data

theorem scan_eq (data : Bytes) : scan data = (Scan.start data).run data :=
  Scan.runSized_eq _ data

end ClusterRegistry.Log
