import ClusterRegistry.Proofs.Outcome
import ClusterRegistry.Record.Encoding

/-!
Records written and read back.  A record that fits is read from the front of any bytes that start
with its written form, and the bytes behind it are left; of a written form that is cut short
nothing is read.  What is read from the front of any bytes at all does not depend on those behind
it.
-/
namespace ClusterRegistry.Record

/-- Every length fits the word that carries it. -/
structure Encodable (record : Record) : Prop where
  key : record.key.length ≤ shortLimit
  value : record.value.length ≤ longLimit
  depth : record.path.length ≤ shortLimit
  segments : ∀ segment ∈ record.path, segment.length ≤ shortLimit
  payload : record.payload.length ≤ longLimit

def written (record : Record) : Bytes :=
  (Header.ofPayload record.payload.length (Checksum.crc32c record.payload)
    record.operation).encode ++ record.payload

theorem checkSize_eq_ok {component : String} {size limit : Nat} :
    checkSize component size limit = .ok () ↔ size ≤ limit := by
  unfold checkSize
  split
  · rename_i large
    exact ⟨nofun, fun fits => absurd fits (Nat.not_le_of_lt large)⟩
  · rename_i fits
    exact ⟨fun _ => Nat.le_of_not_lt fits, fun _ => rfl⟩

theorem encode_eq_ok {record : Record} {bytes : Bytes} :
    encode record = .ok bytes ↔ record.Encodable ∧ bytes = record.written := by
  unfold encode
  simp only [Outcome.bind_eq_ok]
  constructor
  · intro given
    obtain ⟨⟨⟩, key, ⟨⟩, value, ⟨⟩, depth, ⟨⟩, segments, ⟨⟩, payload, same⟩ := given
    refine ⟨⟨checkSize_eq_ok.mp key, checkSize_eq_ok.mp value, checkSize_eq_ok.mp depth, ?_,
      checkSize_eq_ok.mp payload⟩, (Except.ok.inj same).symm⟩
    intro segment member
    exact checkSize_eq_ok.mp (Outcome.forM_eq_ok.mp segments segment member)
  · intro given
    obtain ⟨fits, rfl⟩ := given
    have segments : forM record.path (fun segment =>
        checkSize "path segment" segment.length shortLimit) = .ok () :=
      Outcome.forM_eq_ok.mpr fun segment member =>
        checkSize_eq_ok.mpr (fits.segments segment member)
    exact ⟨(), checkSize_eq_ok.mpr fits.key, (), checkSize_eq_ok.mpr fits.value, (),
      checkSize_eq_ok.mpr fits.depth, (), segments, (), checkSize_eq_ok.mpr fits.payload, rfl⟩

theorem Header.length_encode_ofPayload (length : Nat) (checksum : UInt32)
    (operation : Operation) : (ofPayload length checksum operation).encode.length = headerSize := by
  simp [encode, ofPayload, Record.magic, Bytes.littleEndian_length, headerSize]

theorem Header.decode_encode_ofPayload (length : Nat) (checksum : UInt32) (operation : Operation)
    (fits : length ≤ longLimit) :
    decode (ofPayload length checksum operation).encode = ofPayload length checksum operation := by
  have size : Bytes.ofLittleEndian (Bytes.littleEndian 4 length) = length := by
    rw [Bytes.ofLittleEndian_littleEndian]
    exact Nat.mod_eq_of_lt (by simp only [longLimit, Bytes.capacity] at *; omega)
  have sum : UInt32.ofNat (Bytes.ofLittleEndian (Bytes.littleEndian 4 checksum.toNat)) =
      checksum := by
    rw [Bytes.ofLittleEndian_littleEndian,
      Nat.mod_eq_of_lt (show checksum.toNat < Bytes.capacity 4 from checksum.toNat_lt)]
    exact UInt32.ofNat_toNat
  calc
    _ = (⟨Record.magic, Bytes.ofLittleEndian (Bytes.littleEndian 4 length),
          UInt32.ofNat (Bytes.ofLittleEndian (Bytes.littleEndian 4 checksum.toNat)),
          operation.code, List.replicate 3 0, List.replicate 16 0⟩ : Header) := rfl
    _ = _ := by rw [size, sum, ofPayload]

namespace Reader

private theorem take_append (part : String) (offset : Nat) (front rest : Bytes) :
    take part front.length ⟨offset, front ++ rest⟩ = .ok (front, ⟨offset + front.length, rest⟩) := by
  simp [take]

private theorem word_append (part : String) (width offset value : Nat) (rest : Bytes)
    (bound : value < Bytes.capacity width) :
    word part width ⟨offset, Bytes.littleEndian width value ++ rest⟩ =
      .ok (value, ⟨offset + width, rest⟩) := by
  have front := take_append part offset (Bytes.littleEndian width value) rest
  rw [Bytes.littleEndian_length] at front
  change (take part width _).map _ = _
  rw [front]
  simp [Except.map, Bytes.ofLittleEndian_littleEndian, Nat.mod_eq_of_lt bound]

theorem bind_of_ok {α β : Type} {first : Reader α} {next : α → Reader β} {start later : Position}
    {value : α} (ok : first start = .ok (value, later)) :
    (first >>= next) start = next value later := by
  change (first start >>= fun outcome => next outcome.1 outcome.2) = _
  rw [ok]
  rfl

private theorem operation_append (operation : Operation) (offset : Nat) (rest : Bytes) :
    Reader.operation ⟨offset, operation.code :: 0 :: rest⟩ =
      .ok (operation, ⟨offset + 2, rest⟩) := by
  have front : take "operation" 2 ⟨offset, operation.code :: 0 :: rest⟩ =
      .ok ([operation.code, 0], ⟨offset + 2, rest⟩) := take_append _ _ [operation.code, 0] _
  unfold Reader.operation
  rw [bind_of_ok front]
  simp [Operation.ofCode?_code]
  rfl

private theorem segment_append (segment : Key) (offset : Nat) (rest : Bytes)
    (fits : segment.length ≤ shortLimit) :
    Reader.segment ⟨offset, encodeSegment segment ++ rest⟩ =
      .ok (segment, ⟨offset + (encodeSegment segment).length, rest⟩) := by
  have bound : segment.length < Bytes.capacity 2 := by
    simp only [shortLimit, Bytes.capacity] at *
    omega
  unfold Reader.segment encodeSegment
  rw [List.append_assoc, bind_of_ok (word_append _ _ _ _ _ bound), take_append]
  simp [Bytes.littleEndian_length, Nat.add_assoc]

private theorem path_append (path : BucketPath) (offset : Nat) (rest : Bytes)
    (fits : ∀ segment ∈ path, segment.length ≤ shortLimit) :
    (List.replicate path.length ()).mapM (fun _ => Reader.segment)
        ⟨offset, path.flatMap encodeSegment ++ rest⟩ =
      .ok (path, ⟨offset + (path.flatMap encodeSegment).length, rest⟩) := by
  induction path generalizing offset with
  | nil => rfl
  | cons segment path ih =>
    obtain ⟨short, fits⟩ := List.forall_mem_cons.mp fits
    rw [List.length_cons, List.replicate_succ, List.mapM_cons, List.flatMap_cons,
      List.append_assoc, bind_of_ok (segment_append segment _ _ short), bind_of_ok (ih _ fits)]
    rw [List.length_append, ← Nat.add_assoc]
    rfl

private theorem record_payload (record : Record) (offset : Nat) (fits : record.Encodable) :
    ∃ later, Reader.record ⟨offset, record.payload⟩ = .ok (record, later) := by
  obtain ⟨key, value, depth, segments, _⟩ := fits
  simp only [shortLimit, longLimit] at key value depth
  have keyBound : record.key.length < Bytes.capacity 2 := by simp only [Bytes.capacity]; omega
  have valueBound : record.value.length < Bytes.capacity 4 := by simp only [Bytes.capacity]; omega
  have depthBound : record.path.length < Bytes.capacity 2 := by simp only [Bytes.capacity]; omega
  unfold Reader.record payload
  simp only [List.cons_append, List.nil_append, List.append_assoc]
  rw [bind_of_ok (operation_append _ _ _), bind_of_ok (word_append _ _ _ _ _ depthBound),
    bind_of_ok (path_append _ _ _ segments), bind_of_ok (word_append _ _ _ _ _ keyBound),
    bind_of_ok (word_append _ _ _ _ _ valueBound), bind_of_ok (take_append _ _ _ _)]
  have last := take_append "value"
    (offset + 2 + 2 + (record.path.flatMap encodeSegment).length + 2 + 4 + record.key.length)
    record.value []
  rw [List.append_nil] at last
  rw [bind_of_ok last]
  exact ⟨_, rfl⟩

end Reader

theorem length_written (record : Record) :
    record.written.length = headerSize + record.payload.length := by
  rw [written, List.length_append, Header.length_encode_ofPayload]

private theorem take_headerSize_written_append (record : Record) (rest : Bytes) :
    (record.written ++ rest).take headerSize = (Header.ofPayload record.payload.length
      (Checksum.crc32c record.payload) record.operation).encode := by
  rw [written, List.append_assoc]
  exact List.take_left' (Header.length_encode_ofPayload _ _ _)

/-- A record is read back from the front of whatever follows it, with what follows it. -/
theorem read_written_append (record : Record) (rest : Bytes) (fits : record.Encodable) :
    read (record.written ++ rest) = .ok (record, rest) := by
  have body : (record.written ++ rest).drop headerSize = record.payload ++ rest := by
    rw [written, List.append_assoc]
    exact List.drop_left' (Header.length_encode_ofPayload _ _ _)
  obtain ⟨later, whole⟩ := Reader.record_payload record headerSize fits
  unfold read
  simp only [take_headerSize_written_append, body, Header.length_encode_ofPayload,
    Header.decode_encode_ofPayload _ _ _ fits.payload]
  simp [Header.ofPayload, isShorter_eq, whole]

private theorem claimedSize_written_append (record : Record) (rest : Bytes)
    (fits : record.Encodable) :
    claimedSize (record.written ++ rest) = record.written.length := by
  rw [claimedSize_eq, take_headerSize_written_append,
    Header.decode_encode_ofPayload _ _ _ fits.payload, length_written]
  rfl

theorem read_of_prefix_written {record : Record} {data : Bytes} (fits : record.Encodable)
    (torn : data <+: record.written) (short : data ≠ record.written) :
    ∃ error, read data = .error error := by
  have less : data.length < record.written.length :=
    Nat.lt_of_le_of_ne torn.length_le fun same => short (torn.eq_of_length same)
  obtain ⟨missing, whole⟩ := torn
  apply read_of_length_lt
  by_cases header : data.length < headerSize
  · unfold claimedSize
    omega
  · -- The header is whole, so it claims the size of the whole record.
    have claimed := claimedSize_written_append record [] fits
    rw [List.append_nil, ← whole, claimedSize_eq,
      List.take_append_of_le_length (Nat.le_of_not_lt header), ← claimedSize_eq, whole] at claimed
    omega

theorem decode_eq_ok {data : Bytes} {record : Record} :
    decode data = .ok record ↔ ∃ rest, read data = .ok (record, rest) := by
  unfold decode
  cases found : read data with
  | error error => simp
  | ok result => simp [Prod.ext_iff]

theorem suffix_of_read {data rest : Bytes} {record : Record}
    (ok : read data = .ok (record, rest)) : rest <:+ data := by
  obtain ⟨_, rfl, _⟩ := parts_of_read ok
  exact (List.drop_suffix _ _).trans (List.drop_suffix _ _)

/-- What is read from bytes that are as long as their header says does not depend on what follows
them. -/
theorem read_append {front : Bytes} (whole : front.length = claimedSize front) (rest : Bytes) :
    read (front ++ rest) = (read front).map fun found => (found.1, rest) := by
  rw [claimedSize_eq] at whole
  have header : headerSize ≤ front.length := by omega
  have size : (Header.decode (front.take headerSize)).length = (front.drop headerSize).length := by
    rw [List.length_drop]
    omega
  have shorter (more : Bytes) :
      isShorter (front.drop headerSize ++ more) (front.drop headerSize).length = false := by
    rw [isShorter_eq, decide_eq_false_iff_not, List.length_append]
    omega
  have alone := shorter []
  rw [List.append_nil] at alone
  unfold read
  simp only [List.take_append_of_le_length header, List.drop_append_of_le_length header, size,
    shorter, alone, List.take_left, List.drop_left, List.take_length, Bool.false_eq_true, if_false]
  split
  · rfl
  · split
    · rfl
    · split
      · rfl
      · cases Reader.record ⟨headerSize, front.drop headerSize⟩ <;> rfl

theorem claimedSize_of_read {data rest : Bytes} {record : Record}
    (ok : read data = .ok (record, rest)) : data.length = claimedSize data + rest.length := by
  have fits : ¬data.length < claimedSize data := by
    intro torn
    obtain ⟨error, failed⟩ := read_of_length_lt torn
    cases ok.symm.trans failed
  have remaining := length_rest_of_read ok
  omega

theorem read_of_read_append {front rest : Bytes} {record : Record}
    (ok : read (front ++ rest) = .ok (record, rest)) (other : Bytes) :
    read (front ++ other) = .ok (record, other) := by
  have header := length_of_read ok
  have size := claimedSize_of_read ok
  rw [List.length_append] at header size
  have claimed (more : Bytes) : claimedSize (front ++ more) = claimedSize front := by
    rw [claimedSize_eq, claimedSize_eq, List.take_append_of_le_length (by omega)]
  have whole : front.length = claimedSize front := by
    rw [claimed] at size
    omega
  rw [read_append whole] at ok ⊢
  cases found : read front with
  | error error =>
    rw [found] at ok
    contradiction
  | ok result =>
    rw [found] at ok
    cases ok
    rfl

theorem error_of_read_append {front rest : Bytes} {error : StoreError}
    (failed : read (front ++ rest) = .error error) : ∃ error, read front = .error error := by
  cases found : read front with
  | error error => exact ⟨error, rfl⟩
  | ok result =>
    obtain ⟨record, after⟩ := result
    obtain ⟨taken, rfl⟩ := suffix_of_read found
    have whole := read_of_read_append found (after ++ rest)
    rw [← List.append_assoc, failed] at whole
    contradiction

end ClusterRegistry.Record
