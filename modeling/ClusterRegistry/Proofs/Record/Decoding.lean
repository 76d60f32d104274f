import ClusterRegistry.Proofs.Record.RoundTrip

/-!
Records read from any bytes.  A length that is read fits its word, and all that is read lies
within the payload, whose size fits a word of its own; so what is read, whatever its padding and
slack, can be written, and is then read again.
-/
namespace ClusterRegistry.Record

namespace Reader

variable {α β : Type} {start later : Position}

theorem bind_eq_ok {first : Reader α} {next : α → Reader β} {result : β × Position} :
    (first >>= next) start = .ok result ↔
      ∃ value middle, first start = .ok (value, middle) ∧ next value middle = .ok result := by
  refine Outcome.bind_eq_ok.trans ⟨?_, ?_⟩
  · intro given
    obtain ⟨⟨value, middle⟩, front, back⟩ := given
    exact ⟨value, middle, front, back⟩
  · intro given
    obtain ⟨value, middle, front, back⟩ := given
    exact ⟨(value, middle), front, back⟩

private theorem rest_of_take {part : String} {size : Nat} {front : Bytes}
    (ok : take part size start = .ok (front, later)) :
    start.rest = front ++ later.rest ∧ front.length = size := by
  unfold take at ok
  dsimp only at ok
  split at ok
  · rename_i whole
    cases ok
    exact ⟨(List.take_append_drop size start.rest).symm, whole⟩
  · contradiction

private theorem rest_of_word {part : String} {width value : Nat}
    (ok : word part width start = .ok (value, later)) :
    start.rest = Bytes.littleEndian width value ++ later.rest ∧ value < Bytes.capacity width := by
  unfold word at ok
  rw [map_eq_pure_bind] at ok
  obtain ⟨front, middle, taken, same⟩ := bind_eq_ok.mp ok
  obtain ⟨whole, rfl⟩ := rest_of_take taken
  cases same
  rw [Bytes.littleEndian_ofLittleEndian]
  exact ⟨whole, Bytes.ofLittleEndian_lt front⟩

private theorem length_rest_of_operation {operation : Operation}
    (ok : Reader.operation start = .ok (operation, later)) :
    start.rest.length = 2 + later.rest.length := by
  obtain ⟨front, middle, taken, known⟩ := bind_eq_ok.mp ok
  obtain ⟨whole, size⟩ := rest_of_take taken
  have same : middle = later := by
    cases valid : Operation.ofCode? (front.headD 0) with
    | none =>
      rw [valid] at known
      contradiction
    | some found =>
      rw [valid] at known
      exact congrArg Prod.snd (Except.ok.inj known)
  rw [whole, List.length_append, size, same]

private theorem rest_of_segment {segment : Key} (ok : Reader.segment start = .ok (segment, later)) :
    start.rest = encodeSegment segment ++ later.rest ∧ segment.length ≤ shortLimit := by
  obtain ⟨size, middle, front, back⟩ := bind_eq_ok.mp ok
  obtain ⟨length, bound⟩ := rest_of_word front
  obtain ⟨whole, rfl⟩ := rest_of_take back
  refine ⟨?_, ?_⟩
  · rw [length, whole, encodeSegment, List.append_assoc]
  · simp only [shortLimit, Bytes.capacity] at *
    omega

private theorem rest_of_path {depth : Nat} {path : BucketPath}
    (ok : (List.replicate depth ()).mapM (fun _ => Reader.segment) start = .ok (path, later)) :
    start.rest = path.flatMap encodeSegment ++ later.rest ∧ path.length = depth ∧
      ∀ segment ∈ path, segment.length ≤ shortLimit := by
  induction depth generalizing start path with
  | zero =>
    cases ok
    exact ⟨rfl, rfl, nofun⟩
  | succ depth ih =>
    rw [List.replicate_succ, List.mapM_cons] at ok
    obtain ⟨segment, middle, one, ok⟩ := bind_eq_ok.mp ok
    obtain ⟨others, last, all, same⟩ := bind_eq_ok.mp ok
    cases same
    obtain ⟨front, short⟩ := rest_of_segment one
    obtain ⟨back, rfl, fits⟩ := ih all
    refine ⟨?_, rfl, List.forall_mem_cons.mpr ⟨short, fits⟩⟩
    rw [front, back, List.flatMap_cons, List.append_assoc]

/-- What is read fits its words, and takes no more than the bytes it is read from. -/
theorem encodable_of_record {record : Record} (ok : Reader.record start = .ok (record, later))
    (bound : start.rest.length ≤ longLimit) : record.Encodable := by
  obtain ⟨operation, _, code, ok⟩ := bind_eq_ok.mp ok
  obtain ⟨depth, _, levels, ok⟩ := bind_eq_ok.mp ok
  obtain ⟨path, _, segments, ok⟩ := bind_eq_ok.mp ok
  obtain ⟨keySize, _, keyWord, ok⟩ := bind_eq_ok.mp ok
  obtain ⟨valueSize, _, valueWord, ok⟩ := bind_eq_ok.mp ok
  obtain ⟨key, _, keyBytes, ok⟩ := bind_eq_ok.mp ok
  obtain ⟨value, _, valueBytes, same⟩ := bind_eq_ok.mp ok
  cases same
  have two := length_rest_of_operation code
  obtain ⟨afterDepth, depthBound⟩ := rest_of_word levels
  obtain ⟨afterPath, rfl, short⟩ := rest_of_path segments
  obtain ⟨afterKeySize, keyBound⟩ := rest_of_word keyWord
  obtain ⟨afterValueSize, valueBound⟩ := rest_of_word valueWord
  obtain ⟨afterKey, rfl⟩ := rest_of_take keyBytes
  obtain ⟨afterValue, rfl⟩ := rest_of_take valueBytes
  refine ⟨?_, ?_, ?_, short, ?_⟩
  · simp only [shortLimit, Bytes.capacity] at *
    omega
  · simp only [longLimit, Bytes.capacity] at *
    omega
  · simp only [shortLimit, Bytes.capacity] at *
    omega
  · refine Nat.le_trans ?_ bound
    rw [two, afterDepth, afterPath, afterKeySize, afterValueSize, afterKey, afterValue, payload]
    simp only [List.length_append, List.length_cons, List.length_nil, Bytes.littleEndian_length]
    omega

end Reader

theorem encodable_of_read {data rest : Bytes} {record : Record}
    (ok : read data = .ok (record, rest)) : record.Encodable := by
  obtain ⟨whole, _, later, body⟩ := parts_of_read ok
  refine Reader.encodable_of_record body ?_
  have bound : (Header.decode (data.take headerSize)).length < Bytes.capacity 4 := by
    refine Nat.lt_of_lt_of_eq (Bytes.ofLittleEndian_lt _) (congrArg Bytes.capacity ?_)
    simp only [List.length_take, List.length_drop, headerSize] at whole ⊢
    omega
  simp only [longLimit, Bytes.capacity, List.length_take] at bound ⊢
  omega

/-- Records delimit themselves: a record that can be written is read back with what follows it,
and no part of its written form is a record.  Nothing is lost either way: whatever bytes a record
is read from, it can be written, and its written form is read as that record. -/
theorem encoding_lossless (record : Record) (data : Bytes) :
    (∀ bytes, encode record = .ok bytes →
      read (bytes ++ data) = .ok (record, data) ∧ decode (bytes ++ data) = .ok record ∧
        ∀ front, front <+: bytes → front ≠ bytes → ∃ error, decode front = .error error) ∧
      (decode data = .ok record →
        ∃ bytes, encode record = .ok bytes ∧ decode bytes = .ok record) := by
  refine ⟨?_, ?_⟩
  · intro bytes encoded
    obtain ⟨fits, rfl⟩ := encode_eq_ok.mp encoded
    have whole := read_written_append record data fits
    refine ⟨whole, decode_eq_ok.mpr ⟨data, whole⟩, ?_⟩
    intro front torn short
    obtain ⟨error, failed⟩ := read_of_prefix_written fits torn short
    exact ⟨error, by rw [decode, failed]⟩
  · intro decoded
    obtain ⟨rest, found⟩ := decode_eq_ok.mp decoded
    have fits := encodable_of_read found
    have again := read_written_append record [] fits
    rw [List.append_nil] at again
    exact ⟨record.written, encode_eq_ok.mpr ⟨fits, rfl⟩, decode_eq_ok.mpr ⟨[], again⟩⟩

/-- The bytes name another operation in the header, have a padding byte of five and two bytes of
slack behind the value, and are no written form of the record that is read from them. -/
theorem encoding_lossless_of_slack :
    let record := put [[97], []] [107] [1, 2]
    let payload : Bytes :=
      [1, 5, 2, 0, 1, 0, 97, 0, 0, 1, 0, 2, 0, 0, 0, 107, 1, 2, 0x4C, 0x41]
    let data :=
      (Header.ofPayload payload.length (Checksum.crc32c payload) .delete).encode ++ payload
    data ≠ record.written ∧ decode data = .ok record ∧ encode record = .ok record.written ∧
      read (record.written ++ data) = .ok (record, data) ∧
      (∃ error, decode (record.written.take 49) = .error error) ∧
      decode record.written = .ok record := by
  intro record payload data
  have decoded : decode data = .ok record := by
    apply decode_eq_ok.mpr
    exact ⟨[], by decide +kernel⟩
  have encoded : encode record = .ok record.written := by rfl
  obtain ⟨whole, _, torn⟩ := (encoding_lossless record data).1 _ encoded
  obtain ⟨bytes, again, lossless⟩ := (encoding_lossless record data).2 decoded
  cases Except.ok.inj (encoded.symm.trans again)
  exact ⟨by decide +kernel, decoded, encoded, whole,
    torn _ (List.take_prefix _ _) (by decide +kernel), lossless⟩

end ClusterRegistry.Record
