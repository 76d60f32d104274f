/-!
Byte strings: the order of keys, little-endian words and UTF-8 text.  The order is the
lexicographic one of `List`, which compares bytes as numbers and puts a proper beginning first.
-/
namespace ClusterRegistry

abbrev Bytes := List UInt8

namespace Bytes

/-- The low `width` base-256 digits of `value`, least significant first. -/
def littleEndian : (width : Nat) → (value : Nat) → Bytes
  | 0, _ => []
  | width + 1, value => UInt8.ofNat value :: littleEndian width (value / 256)

def capacity : (width : Nat) → Nat
  | 0 => 1
  | width + 1 => 256 * capacity width

/-- The number whose base-256 digits are `bytes`, least significant first. -/
def ofLittleEndian (bytes : Bytes) : Nat :=
  bytes.foldr (fun byte rest => byte.toNat + 256 * rest) 0

def ofText (text : String) : Bytes :=
  text.toUTF8.data.toList

/-- The text whose UTF-8 form is `bytes`; none where `bytes` is not UTF-8. -/
def text? (bytes : Bytes) : Option String :=
  String.fromUTF8? bytes.toByteArray

theorem littleEndian_length (width value : Nat) : (littleEndian width value).length = width := by
  induction width generalizing value with
  | zero => rfl
  | succ width ih => simp [littleEndian, ih]

theorem ofLittleEndian_littleEndian (width value : Nat) :
    ofLittleEndian (littleEndian width value) = value % capacity width := by
  induction width generalizing value with
  | zero => simp [littleEndian, ofLittleEndian, capacity, Nat.mod_one]
  | succ width ih =>
    have head : (UInt8.ofNat value).toNat = value % 256 := UInt8.toNat_ofNat'
    show (UInt8.ofNat value).toNat + 256 * ofLittleEndian (littleEndian width (value / 256)) = _
    rw [head, ih, capacity, Nat.mod_mul]

theorem ofLittleEndian_lt (bytes : Bytes) : ofLittleEndian bytes < capacity bytes.length := by
  induction bytes with
  | nil => simp [ofLittleEndian, capacity]
  | cons byte rest ih =>
    have small := byte.toNat_lt
    simp only [ofLittleEndian, List.foldr_cons, List.length_cons, capacity] at ih ⊢
    omega

theorem littleEndian_ofLittleEndian (bytes : Bytes) :
    littleEndian bytes.length (ofLittleEndian bytes) = bytes := by
  induction bytes with
  | nil => rfl
  | cons byte rest ih =>
    have small := byte.toNat_lt
    have low : UInt8.ofNat (byte.toNat + 256 * ofLittleEndian rest) = byte := by
      apply UInt8.toNat_inj.mp
      rw [UInt8.toNat_ofNat']
      omega
    have high : (byte.toNat + 256 * ofLittleEndian rest) / 256 = ofLittleEndian rest := by omega
    show UInt8.ofNat (byte.toNat + 256 * ofLittleEndian rest) ::
      littleEndian rest.length ((byte.toNat + 256 * ofLittleEndian rest) / 256) = byte :: rest
    rw [low, high, ih]

theorem ofText_append (left right : String) :
    ofText (left ++ right) = ofText left ++ ofText right := by
  simp [ofText]

theorem text?_ofText (text : String) : text? (ofText text) = some text := by
  have whole : (ofText text).toByteArray = text.toUTF8 := by
    apply ByteArray.ext
    apply Array.toList_inj.mp
    simp [ofText]
  rw [text?, whole, String.fromUTF8?]
  simp [text.isValidUTF8, String.fromUTF8]

theorem ofText_of_text? {bytes : Bytes} {text : String} (read : text? bytes = some text) :
    ofText text = bytes := by
  unfold text? String.fromUTF8? at read
  split at read
  · cases read
    simp [ofText, String.fromUTF8]
  · contradiction

end Bytes

end ClusterRegistry
