import ClusterRegistry.Checksum
import ClusterRegistry.Error
import ClusterRegistry.Record.Header

/-!
The written form of a record: its header, then a payload of operation, path, key and value with
a length in front of each variable part.  Reading takes one record off the front of a byte string
and leaves the rest, so records need no separator.
-/
namespace ClusterRegistry.Record

def checkSize (component : String) (size limit : Nat) : Except StoreError Unit :=
  if limit < size then .error (.oversized component size limit) else .ok ()

/-- The longest key or path segment, and the deepest path, that a record can carry. -/
def shortLimit : Nat := 65535

def longLimit : Nat := 4294967295

def encodeSegment (segment : Key) : Bytes :=
  Bytes.littleEndian 2 segment.length ++ segment

def payload (record : Record) : Bytes :=
  [record.operation.code, 0] ++ Bytes.littleEndian 2 record.path.length ++
    record.path.flatMap encodeSegment ++ Bytes.littleEndian 2 record.key.length ++
    Bytes.littleEndian 4 record.value.length ++ record.key ++ record.value

def encode (record : Record) : Except StoreError Bytes := do
  checkSize "key" record.key.length shortLimit
  checkSize "value" record.value.length longLimit
  checkSize "path depth" record.path.length shortLimit
  record.path.forM fun segment => checkSize "path segment" segment.length shortLimit
  let payload := record.payload
  checkSize "record" payload.length longLimit
  let header := Header.ofPayload payload.length (Checksum.crc32c payload) record.operation
  return header.encode ++ payload

def bufferName : String := "<buffer>"

/-- A place inside a record: the bytes not yet read and their offset from its start. -/
structure Position where
  offset : Nat
  rest : Bytes

abbrev Reader := StateT Position (Except StoreError)

namespace Reader

/-- The next `size` bytes, which hold `part` of the payload. -/
def take (part : String) (size : Nat) : Reader Bytes := fun position =>
  let front := position.rest.take size
  if front.length = size then .ok (front, ⟨position.offset + size, position.rest.drop size⟩)
  else .error (.corrupted bufferName position.offset (.shortPayload part size front.length))

def word (part : String) (width : Nat) : Reader Nat :=
  Bytes.ofLittleEndian <$> take part width

def operation : Reader Operation := do
  let code := (← take "operation" 2).headD 0
  match Operation.ofCode? code with
  | some operation => return operation
  | none => throw (.corrupted bufferName headerSize (.invalidOperation code))

def segment : Reader Key := do
  take "path segment" (← word "segment length" 2)

def record : Reader Record := do
  let operation ← operation
  let depth ← word "path depth" 2
  let path ← (List.replicate depth ()).mapM fun _ => segment
  let keySize ← word "key length" 2
  let valueSize ← word "value length" 4
  let key ← take "key" keySize
  let value ← take "value" valueSize
  return ⟨operation, path, key, value⟩

end Reader

/-- Whether `data` has fewer than `size` bytes.  Looks at no more than `size` of them. -/
def isShorter : (data : Bytes) → (size : Nat) → Bool
  | _, 0 => false
  | [], _ + 1 => true
  | _ :: rest, size + 1 => isShorter rest size

theorem isShorter_eq (data : Bytes) (size : Nat) :
    isShorter data size = decide (data.length < size) := by
  induction data generalizing size with
  | nil => cases size <;> simp [isShorter]
  | cons byte rest ih => cases size <;> simp [isShorter, ih]

/-- The record at the front of `data` and what follows it.  Bytes that its length covers beyond
the value belong to the record and say nothing. -/
def read (data : Bytes) : Except StoreError (Record × Bytes) :=
  let front := data.take headerSize
  if front.length < headerSize then
    .error (.corrupted bufferName 0 (.shortRecord front.length headerSize))
  else
    let header := Header.decode front
    if header.magic ≠ magic then .error (.noMagic bufferName 0 header.magic)
    else
      let body := data.drop headerSize
      if isShorter body header.length then
        .error (.tornRecord bufferName headerSize header.length body.length)
      else
        let payload := body.take header.length
        let checksum := Checksum.crc32c payload
        if checksum ≠ header.checksum then
          .error (.checksumMismatch bufferName headerSize header.checksum checksum)
        else
          match Reader.record ⟨headerSize, payload⟩ with
          | .error error => .error error
          | .ok (record, _) => .ok (record, body.drop header.length)

def decode (data : Bytes) : Except StoreError Record :=
  match read data with
  | .error error => .error error
  | .ok (record, _) => .ok record

/-- Where the parts of a record lie that is read. -/
theorem parts_of_read {data rest : Bytes} {record : Record}
    (ok : read data = .ok (record, rest)) :
    headerSize ≤ data.length ∧
      rest = (data.drop headerSize).drop (Header.decode (data.take headerSize)).length ∧
      ∃ later, Reader.record ⟨headerSize,
        (data.drop headerSize).take (Header.decode (data.take headerSize)).length⟩ =
          .ok (record, later) := by
  unfold read at ok
  dsimp only at ok
  split at ok
  · contradiction
  · rename_i whole
    split at ok
    · contradiction
    · split at ok
      · contradiction
      · split at ok
        · contradiction
        · split at ok
          · contradiction
          · rename_i later body
            cases ok
            simp only [List.length_take] at whole
            exact ⟨by omega, rfl, later, body⟩

theorem length_of_read {data rest : Bytes} {record : Record}
    (ok : read data = .ok (record, rest)) : rest.length + headerSize ≤ data.length := by
  obtain ⟨whole, rfl, _⟩ := parts_of_read ok
  simp only [List.length_drop]
  omega

/-- How many bytes a record at the front of `data` takes, by its header. -/
def claimedSize (data : Bytes) : Nat :=
  headerSize + Bytes.ofLittleEndian ((data.drop 4).take 4)

theorem claimedSize_eq (data : Bytes) :
    claimedSize data = headerSize + (Header.decode (data.take headerSize)).length := by
  simp [claimedSize, Header.decode, headerSize, List.drop_take, List.take_take]

theorem read_of_length_lt {data : Bytes} (torn : data.length < claimedSize data) :
    ∃ error, read data = .error error := by
  rw [claimedSize_eq] at torn
  unfold read
  dsimp only
  split
  · exact ⟨_, rfl⟩
  · split
    · exact ⟨_, rfl⟩
    · rw [isShorter_eq, if_pos]
      · exact ⟨_, rfl⟩
      · simp only [List.length_drop, decide_eq_true_eq]
        simp only [List.length_take] at *
        omega

theorem length_rest_of_read {data rest : Bytes} {record : Record}
    (ok : read data = .ok (record, rest)) : rest.length = data.length - claimedSize data := by
  obtain ⟨_, rfl, _⟩ := parts_of_read ok
  simp only [claimedSize_eq, List.length_drop]
  omega

end ClusterRegistry.Record
