import ClusterRegistry.Proofs.Text.Numeral

/-!
Numerals padded to one width.  Their texts have that many bytes and ascend, byte by byte, as the
numbers do: the digits in front decide, and behind equal ones the last digit.
-/
namespace ClusterRegistry

/-- Of byte strings of one length the smaller one stays so, whatever follows the two. -/
theorem Bytes.append_lt_append {front other : Bytes} (length : front.length = other.length)
    (below : front < other) (rest more : Bytes) : front ++ rest < other ++ more := by
  induction front generalizing other with
  | nil =>
    rw [List.eq_nil_of_length_eq_zero length.symm] at below
    exact absurd below (List.lt_irrefl [])
  | cons byte front ih =>
    cases other with
    | nil => contradiction
    | cons high other =>
      rw [List.cons_append, List.cons_append, List.cons_lt_cons_iff]
      rcases List.cons_lt_cons_iff.mp below with first | ⟨same, below⟩
      · exact .inl first
      · exact .inr ⟨same, ih (Nat.succ.inj length) below⟩

namespace Numeral

variable {base : Nat}

/-- Letters come behind the decimal digits in ASCII too. -/
theorem encode_digitChar_lt {low high : Nat} (below : low < high) (small : high < 16) :
    String.utf8EncodeChar low.digitChar < String.utf8EncodeChar high.digitChar := by
  have all : ∀ high : Fin 16, ∀ low : Fin high.val,
      String.utf8EncodeChar low.val.digitChar < String.utf8EncodeChar high.val.digitChar := by decide
  exact all ⟨high, small⟩ ⟨low, below⟩

private theorem length_encode_digitChar {digit : Nat} (small : digit < 16) :
    (String.utf8EncodeChar digit.digitChar).length = 1 := by
  have all : ∀ digit : Fin 16, (String.utf8EncodeChar digit.val.digitChar).length = 1 := by decide
  exact all ⟨digit, small⟩

private theorem ofText_padded_one {value : Nat} (small : value < base) :
    Bytes.ofText (padded base 1 value) = String.utf8EncodeChar value.digitChar := by
  rw [padded, Nat.toDigits_of_lt_base small, ofText_ofList]
  exact List.append_nil _

private theorem ofText_padded_succ (one_lt : 1 < base) (width value : Nat) :
    Bytes.ofText (padded base (width + 2) value) =
      Bytes.ofText (padded base (width + 1) (value / base)) ++
        String.utf8EncodeChar (value % base).digitChar := by
  rw [padded, leftpad_toDigits_succ one_lt, ofText_ofList, List.flatMap_append, padded, ofText_ofList]
  exact congrArg _ (List.append_nil _)

theorem length_ofText_padded (one_lt : 1 < base) (base_le : base ≤ 16) {width value : Nat}
    (bound : value < base ^ (width + 1)) :
    (Bytes.ofText (padded base (width + 1) value)).length = width + 1 := by
  induction width generalizing value with
  | zero =>
    have small : value < base := by rwa [Nat.pow_one] at bound
    rw [ofText_padded_one small, length_encode_digitChar (by omega)]
  | succ width ih =>
    have front : value / base < base ^ (width + 1) :=
      Nat.div_lt_of_lt_mul (by rwa [← Nat.pow_succ'])
    have low : value % base < base := Nat.mod_lt _ (by omega)
    rw [ofText_padded_succ one_lt, List.length_append, ih front, length_encode_digitChar (by omega)]

theorem ofText_padded_lt (one_lt : 1 < base) (base_le : base ≤ 16) {width first second : Nat}
    (below : first < second) (bound : second < base ^ (width + 1)) :
    Bytes.ofText (padded base (width + 1) first) <
      Bytes.ofText (padded base (width + 1) second) := by
  induction width generalizing first second with
  | zero =>
    have small : second < base := by rwa [Nat.pow_one] at bound
    rw [ofText_padded_one (Nat.lt_trans below small), ofText_padded_one small]
    exact encode_digitChar_lt below (by omega)
  | succ width ih =>
    have front : second / base < base ^ (width + 1) :=
      Nat.div_lt_of_lt_mul (by rwa [← Nat.pow_succ'])
    have order : first / base ≤ second / base := Nat.div_le_div_right (Nat.le_of_lt below)
    rw [ofText_padded_succ one_lt, ofText_padded_succ one_lt]
    -- The quotients decide; where they are equal, so are their digits, and the remainders do.
    rcases Nat.lt_or_eq_of_le order with less | same
    · have length := (length_ofText_padded one_lt base_le (Nat.lt_trans less front)).trans
        (length_ofText_padded one_lt base_le front).symm
      exact Bytes.append_lt_append length (ih less front) _ _
    · have low : second % base < base := Nat.mod_lt _ (by omega)
      have last : first % base < second % base := by
        have split := Nat.div_add_mod first base
        have other := Nat.div_add_mod second base
        rw [same] at split
        omega
      rw [same]
      exact List.append_left_lt (encode_digitChar_lt last (by omega))

end Numeral

end ClusterRegistry
