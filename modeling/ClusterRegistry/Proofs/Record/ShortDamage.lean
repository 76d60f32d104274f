import ClusterRegistry.Proofs.Checksum
import ClusterRegistry.Proofs.Record.RoundTrip

/-!
A written record of which a few bytes are overwritten.  Where up to four bytes in a row change in
the payload, it has another checksum than its header says; where they change in the checksum itself,
the header says another one than the payload has.  Either way the reader sees the mismatch, and it
sees that before it looks at anything in the payload.
-/
namespace ClusterRegistry

/-- A stretch that lies within the middle of three parts cuts that part in three. -/
theorem Bytes.parts_of_within {front old back before middle after : Bytes}
    (same : front ++ old ++ back = before ++ middle ++ after)
    (start : before.length ≤ front.length)
    (stop : front.length + old.length ≤ before.length + middle.length) :
    ∃ left right, front = before ++ left ∧ middle = left ++ old ++ right ∧
      back = right ++ after := by
  rw [List.append_assoc, List.append_assoc] at same
  obtain ⟨left, rfl⟩ := List.prefix_of_prefix_length_le
    ⟨middle ++ after, same.symm⟩ (List.prefix_append front (old ++ back)) start
  rw [List.append_assoc, List.append_cancel_left_eq, ← List.append_assoc] at same
  rw [List.length_append] at stop
  obtain ⟨right, rfl⟩ := List.prefix_of_prefix_length_le
    ⟨back, same⟩ (List.prefix_append middle after) (by rw [List.length_append]; omega)
  rw [List.append_assoc (left ++ old), List.append_cancel_left_eq] at same
  exact ⟨left, right, rfl, rfl, same⟩

namespace Record

/-- The checksum is held against the payload before anything else in it is looked at. -/
theorem decode_of_checksum_ne {checksum : UInt32} {operation : Operation} {body : Bytes}
    (fits : body.length ≤ longLimit) (differs : Checksum.crc32c body ≠ checksum) (rest : Bytes) :
    decode ((Header.ofPayload body.length checksum operation).encode ++ (body ++ rest)) =
      .error (.checksumMismatch bufferName headerSize checksum (Checksum.crc32c body)) := by
  have size := Header.length_encode_ofPayload body.length checksum operation
  have whole : isShorter (body ++ rest) body.length = false := by
    rw [isShorter_eq, decide_eq_false_iff_not, List.length_append]
    omega
  unfold decode read
  simp only [List.take_left' size, List.drop_left' size, size,
    Header.decode_encode_ofPayload _ _ _ fits]
  simp [Header.ofPayload, whole, differs]

private theorem decode_of_short_damage_in_payload {record : Record} {front old new back : Bytes}
    (fits : record.Encodable) (parts : record.payload = front ++ old ++ back)
    (size : new.length = old.length) (short : old.length ≤ 4) (changed : new ≠ old)
    (rest : Bytes) :
    ∃ stored computed, stored ≠ computed ∧
      decode ((Header.ofPayload record.payload.length (Checksum.crc32c record.payload)
        record.operation).encode ++ (front ++ new ++ back ++ rest)) =
          .error (.checksumMismatch bufferName headerSize stored computed) := by
  have differs : Checksum.crc32c (front ++ new ++ back) ≠ Checksum.crc32c (front ++ old ++ back) :=
    Checksum.crc32c_ne_of_short_change back size short changed
  have length : (front ++ new ++ back).length = record.payload.length := by
    rw [parts]
    simp only [List.length_append, size]
  rw [← parts] at differs
  rw [← length]
  exact ⟨_, _, differs.symm,
    decode_of_checksum_ne (by rw [length]; exact fits.payload) differs rest⟩

private theorem decode_of_damaged_checksum {record : Record} {sum : Bytes} (fits : record.Encodable)
    (width : sum.length = 4)
    (changed : sum ≠ Bytes.littleEndian 4 (Checksum.crc32c record.payload).toNat)
    (rest : Bytes) :
    ∃ stored computed, stored ≠ computed ∧
      decode (Record.magic ++ Bytes.littleEndian 4 record.payload.length ++ sum ++
        ([record.operation.code] ++ List.replicate 3 0 ++ List.replicate 16 0 ++
          (record.payload ++ rest))) =
          .error (.checksumMismatch bufferName headerSize stored computed) := by
  -- Any four bytes spell a checksum, so the header is one that some record could have.
  have bound := Bytes.ofLittleEndian_lt sum
  rw [width] at bound
  have stored : (UInt32.ofNat (Bytes.ofLittleEndian sum)).toNat = Bytes.ofLittleEndian sum := by
    rw [UInt32.toNat_ofNat']
    exact Nat.mod_eq_of_lt bound
  have spelled : Bytes.littleEndian 4 (UInt32.ofNat (Bytes.ofLittleEndian sum)).toNat = sum := by
    rw [stored, ← width, Bytes.littleEndian_ofLittleEndian]
  have differs : Checksum.crc32c record.payload ≠ UInt32.ofNat (Bytes.ofLittleEndian sum) := by
    intro same
    rw [same, spelled] at changed
    exact changed rfl
  have header : (Header.ofPayload record.payload.length (UInt32.ofNat (Bytes.ofLittleEndian sum))
      record.operation).encode =
        Record.magic ++ Bytes.littleEndian 4 record.payload.length ++ sum ++
          ([record.operation.code] ++ List.replicate 3 0 ++ List.replicate 16 0) := by
    simp only [Header.encode, Header.ofPayload, spelled, List.append_assoc]
  rw [← List.append_assoc, ← header]
  exact ⟨_, _, differs.symm, decode_of_checksum_ne fits.payload differs rest⟩

/-- Wherever up to four bytes in a row change in the payload of a written record, or in the checksum
in its header, the record is refused for its checksum. -/
theorem decode_of_short_damage {record : Record} {bytes front old new back : Bytes}
    (encoded : record.encode = .ok bytes) (parts : bytes = front ++ old ++ back)
    (size : new.length = old.length) (short : old.length ≤ 4) (changed : new ≠ old)
    (inside : headerSize ≤ front.length ∨
      8 ≤ front.length ∧ front.length + old.length ≤ 12) (rest : Bytes) :
    ∃ stored computed, stored ≠ computed ∧
      decode (front ++ new ++ back ++ rest) =
        .error (.checksumMismatch bufferName headerSize stored computed) := by
  obtain ⟨fits, rfl⟩ := encode_eq_ok.mp encoded
  rcases inside with payload | ⟨start, stop⟩
  · have whole : front ++ old ++ back = (Header.ofPayload record.payload.length
        (Checksum.crc32c record.payload) record.operation).encode ++ record.payload ++ [] := by
      rw [List.append_nil, ← parts, written]
    have total := congrArg List.length whole
    simp only [List.length_append, Header.length_encode_ofPayload, List.length_nil] at total
    obtain ⟨left, right, rfl, middle, rfl⟩ := Bytes.parts_of_within whole
      (by rwa [Header.length_encode_ofPayload]) (by rw [Header.length_encode_ofPayload]; omega)
    have refused := decode_of_short_damage_in_payload fits middle size short changed rest
    simpa only [List.append_assoc, List.append_nil] using refused
  · have whole : front ++ old ++ back =
        (Record.magic ++ Bytes.littleEndian 4 record.payload.length) ++
          Bytes.littleEndian 4 (Checksum.crc32c record.payload).toNat ++
          ([record.operation.code] ++ List.replicate 3 0 ++ List.replicate 16 0 ++
            record.payload) := by
      rw [← parts, written, Header.encode, Header.ofPayload]
      simp only [List.append_assoc]
    obtain ⟨left, right, rfl, middle, rfl⟩ := Bytes.parts_of_within whole
      (by simpa [Record.magic, Bytes.littleEndian_length] using start)
      (by simpa [Record.magic, Bytes.littleEndian_length] using stop)
    have width : (left ++ new ++ right).length = 4 := by
      have old := congrArg List.length middle
      simp only [List.length_append, Bytes.littleEndian_length, size] at old ⊢
      omega
    have other : left ++ new ++ right ≠
        Bytes.littleEndian 4 (Checksum.crc32c record.payload).toNat := by
      rw [middle]
      intro same
      rw [List.append_cancel_right_eq, List.append_cancel_left_eq] at same
      exact changed same
    have refused := decode_of_damaged_checksum fits width other rest
    simpa only [List.append_assoc] using refused

/-- All four bytes of a value, with another record behind it, and two of the checksum. -/
theorem decode_of_short_damage_of_put :
    let record := put [[97]] [107] [1, 2, 3, 4]
    record.encode = .ok record.written ∧
      (∃ stored computed, stored ≠ computed ∧
        decode (record.written.take 46 ++ [4, 3, 2, 1] ++ [] ++ record.written) =
          .error (.checksumMismatch bufferName headerSize stored computed)) ∧
      ∃ stored computed, stored ≠ computed ∧
        decode (record.written.take 9 ++ [0, 0] ++ record.written.drop 11 ++ []) =
          .error (.checksumMismatch bufferName headerSize stored computed) := by
  intro record
  have encoded : record.encode = .ok record.written := by rfl
  have value : record.written = record.written.take 46 ++ [1, 2, 3, 4] ++ [] := by decide +kernel
  have sum : record.written =
      record.written.take 9 ++ (record.written.drop 9).take 2 ++ record.written.drop 11 := by
    decide +kernel
  have valueSize : ([4, 3, 2, 1] : Bytes).length = ([1, 2, 3, 4] : Bytes).length := rfl
  have sumSize : ([0, 0] : Bytes).length = ((record.written.drop 9).take 2).length := by
    decide +kernel
  refine ⟨encoded, ?_, ?_⟩
  · exact decode_of_short_damage encoded value valueSize (by decide) (by decide)
      (.inl (by decide +kernel)) _
  · exact decode_of_short_damage encoded sum sumSize (by decide +kernel) (by decide +kernel)
      (.inr (by decide +kernel)) _

end Record

end ClusterRegistry
