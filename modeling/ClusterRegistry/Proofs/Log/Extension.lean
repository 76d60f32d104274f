import ClusterRegistry.Proofs.Log.Repair

/-!
A log file that grows at its end.  Where no record that the reader comes to claims more bytes than
the file has, more bytes change nothing in front of them: the reader goes the same way, and goes on
in the new bytes as it stood at the end of the old ones.
-/
namespace ClusterRegistry

namespace Record

/-- What cannot be read from bytes that its header does not exceed cannot be read from more. -/
theorem error_of_append {data : Bytes} {error : StoreError} (whole : claimedSize data ≤ data.length)
    (failed : read data = .error error) (more : Bytes) :
    ∃ error, read (data ++ more) = .error error := by
  have size : (data.take (claimedSize data)).length = claimedSize (data.take (claimedSize data)) := by
    have header : headerSize ≤ claimedSize data := Nat.le_add_right _ _
    rw [List.length_take, Nat.min_eq_left whole, claimedSize_eq (data.take _), List.take_take,
      Nat.min_eq_left header, ← claimedSize_eq]
  have parts : data = data.take (claimedSize data) ++ data.drop (claimedSize data) :=
    (List.take_append_drop _ data).symm
  rw [parts, read_append size] at failed
  rw [parts, List.append_assoc, read_append size]
  cases found : read (data.take (claimedSize data)) with
  | error cause => exact ⟨cause, rfl⟩
  | ok result =>
    rw [found] at failed
    contradiction

end Record

namespace Log

/-- No record that the reader comes to claims more bytes than there are. -/
def Contained (data : Bytes) : Prop :=
  ∀ place, Reaches data place → place ≠ [] → Record.claimedSize place ≤ place.length

namespace Contained

theorem nil : Contained [] := by
  intro place reached full
  cases reached with
  | here => exact absurd rfl full
  | record ok => exact absurd (Record.length_of_read ok) (by simp [Record.headerSize])

private theorem of_read {data rest : Bytes} {record : Record} (contained : Contained data)
    (ok : Record.read data = .ok (record, rest)) : Contained rest :=
  fun place reached => contained place (.record ok reached)

private theorem of_error {byte : UInt8} {later : Bytes} {error : StoreError}
    (contained : Contained (byte :: later)) (failed : Record.read (byte :: later) = .error error) :
    Contained later :=
  fun place reached => contained place (.skip failed reached)

theorem read {data rest : Bytes} {record : Record} (contained : Contained rest)
    (ok : Record.read data = .ok (record, rest)) : Contained data := by
  intro place reached full
  rcases (reaches_of_read ok place).mp reached with rfl | later
  · rw [Record.claimedSize_of_read ok]
    exact Nat.le_add_right _ _
  · exact contained place later full

private theorem written_records {records : List Record} {rest : Bytes}
    (fits : ∀ record ∈ records, record.Encodable) (contained : Contained rest) :
    Contained (records.flatMap Record.written ++ rest) := by
  induction records with
  | nil => exact contained
  | cons record records ih =>
    obtain ⟨fit, fits⟩ := List.forall_mem_cons.mp fits
    rw [List.flatMap_cons, List.append_assoc]
    exact (ih fits).read (Record.read_written_append record _ fit)

/-- Batches are written whole. -/
theorem written {batches : List Batch} (sound : ∀ batch ∈ batches, batch.Sound) :
    Contained (batches.flatMap Batch.written) := by
  induction batches with
  | nil => exact nil
  | cons batch batches ih =>
    obtain ⟨first, sound⟩ := List.forall_mem_cons.mp sound
    rw [List.flatMap_cons, Batch.written_eq]
    refine written_records ?_ (ih sound)
    intro record member
    rcases List.mem_append.mp member with inside | closing
    · exact first.encodable record inside
    · rw [List.mem_singleton.mp closing]
      exact encodable_commit batch.txid

end Contained

namespace Scan

/-- The same scan of bytes that go on with `more`. -/
def extend (scan : Scan) (more : Bytes) : Scan :=
  { scan with uncommitted := scan.uncommitted ++ more }

private theorem accept_extend (scan : Scan) (record : Record) (rest more : Bytes) :
    (scan.extend more).accept record (rest ++ more) = (scan.accept record rest).extend more := by
  unfold accept
  split <;> rfl

private theorem run_extend (scan : Scan) {data : Bytes} (contained : Contained data)
    (more : Bytes) :
    (scan.extend more).run (data ++ more) = ((scan.run data).extend more).run more := by
  fun_induction run scan data with
  | case1 scan => rfl
  | case2 scan byte later record rest ok ih =>
    obtain ⟨taken, whole⟩ := Record.suffix_of_read ok
    have longer : Record.read ((byte :: later) ++ more) = .ok (record, rest ++ more) := by
      rw [← whole] at ok ⊢
      rw [List.append_assoc]
      exact Record.read_of_read_append ok (rest ++ more)
    rw [run_of_read longer, accept_extend]
    exact ih (contained.of_read ok)
  | case3 scan byte later error failed ih =>
    obtain ⟨cause, longer⟩ := Record.error_of_append
      (contained _ (.here _) (List.cons_ne_nil byte later)) failed more
    rw [List.cons_append] at longer ⊢
    rw [run_of_error longer]
    exact ih (contained.of_error failed)

end Scan

/-- Nothing is left behind the last commit record: nothing pending and nothing damaged. -/
theorem scan_of_settled {contents : Bytes} :
    scan contents = Scan.border (scan contents).batches [] ↔ (scan contents).uncommitted = [] := by
  constructor
  · intro settled
    rw [settled]
    rfl
  · intro settled
    have whole := scan_committed contents
    rwa [committed_of_settled settled] at whole

/-- A batch that is appended to such a file is found as it was written, behind all others. -/
theorem scan_append {contents : Bytes} (settled : (scan contents).uncommitted = [])
    (contained : Contained contents) {batch : Batch} (sound : batch.Sound) :
    scan (contents ++ batch.written) =
      Scan.border ((scan contents).batches ++ [batch]) [] := by
  have before := scan_of_settled.mpr settled
  have longer := Scan.run_extend (Scan.start contents) contained batch.written
  rw [← scan_eq, before] at longer
  rw [scan_eq]
  refine longer.trans ?_
  have found := Scan.run_written_batch (scan contents).batches batch batch.written [] sound
  rw [List.append_nil, Scan.run_nil] at found
  exact found

end Log

end ClusterRegistry
