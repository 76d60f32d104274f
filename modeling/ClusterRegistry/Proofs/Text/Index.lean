import ClusterRegistry.Proofs.Text.Numeral

/-!
Which keys are read as an index.  These are the decimals of the numbers below the limit, without a
sign or a leading zero; so a number has one key, and each other key is refused for what it shows: no
digit at all, a byte that is no digit, a zero in front, or a number that does not fit.
-/
namespace ClusterRegistry.Numeral

def IsDigit (byte : UInt8) : Prop :=
  0x30 ≤ byte ∧ byte ≤ 0x39

instance IsDigit.decidable (byte : UInt8) : Decidable (IsDigit byte) :=
  inferInstanceAs (Decidable (_ ∧ _))

def digitsOf (key : Bytes) : List Nat :=
  key.map fun byte => byte.toNat - 0x30

/-- The number that a key of decimal digits shows. -/
def decimal (key : Bytes) : Nat :=
  (digitsOf key).foldl (fun value digit => 10 * value + digit) 0

section Digits

variable {key : Bytes}

private theorem isDigit_digitByte {digit : Nat} (small : digit < 10) :
    IsDigit (digitByte digit) ∧ (digitByte digit).toNat - 0x30 = digit := by
  have all : ∀ digit : Fin 10,
      IsDigit (digitByte digit.val) ∧ (digitByte digit.val).toNat - 0x30 = digit.val := by decide
  exact all ⟨digit, small⟩

private theorem digitByte_of_isDigit {byte : UInt8} (digit : IsDigit byte) :
    byte.toNat - 0x30 < 10 ∧ digitByte (byte.toNat - 0x30) = byte := by
  have low := UInt8.le_iff_toNat_le.mp digit.1
  have high := UInt8.le_iff_toNat_le.mp digit.2
  change 48 ≤ byte.toNat at low
  change byte.toNat ≤ 57 at high
  refine ⟨by omega, ?_⟩
  rw [digitByte, Nat.add_sub_cancel' low, UInt8.ofNat_toNat]

private theorem digitsOf_lt (digits : ∀ byte ∈ key, IsDigit byte) :
    ∀ digit ∈ digitsOf key, digit < 10 := by
  intro digit member
  obtain ⟨byte, inside, rfl⟩ := List.mem_map.mp member
  exact (digitByte_of_isDigit (digits byte inside)).1

private theorem map_digitByte_digitsOf (digits : ∀ byte ∈ key, IsDigit byte) :
    (digitsOf key).map digitByte = key := by
  rw [digitsOf, List.map_map]
  exact (List.map_congr_left fun byte inside =>
    (digitByte_of_isDigit (digits byte inside)).2).trans (List.map_id key)

private theorem digitsOf_map_digitByte {digits : List Nat} (small : ∀ digit ∈ digits, digit < 10) :
    digitsOf (digits.map digitByte) = digits := by
  rw [digitsOf, List.map_map]
  exact (List.map_congr_left fun digit inside =>
    (isDigit_digitByte (small digit inside)).2).trans (List.map_id digits)

/-- A key of digits is the text of these digits. -/
theorem ofText_digitsOf (digits : ∀ byte ∈ key, IsDigit byte) :
    Bytes.ofText (String.ofList ((digitsOf key).map Nat.digitChar)) = key := by
  rw [ofText_digits (digitsOf_lt digits), map_digitByte_digitsOf digits]

private theorem foldlM_digits {digits : List Nat} (small : ∀ digit ∈ digits, digit < 10)
    (front : Nat) :
    (digits.map Nat.digitChar).foldlM (appendDigit? 10) front =
      some (digits.foldl (fun value digit => 10 * value + digit) front) := by
  induction digits generalizing front with
  | nil => rfl
  | cons digit digits ih =>
    obtain ⟨first, small⟩ := List.forall_mem_cons.mp small
    rw [List.map_cons, List.foldlM_cons, appendDigit?_digitChar 10 front digit first (by decide)]
    exact ih small _

end Digits

/-- The key of an index is as many digits as it has, and they show it. -/
theorem indexKey_eq (index : Nat) :
    ∃ width, indexKey index = (lastDigits (width + 1) index).map digitByte ∧
      index < 10 ^ (width + 1) := by
  obtain ⟨width, length⟩ := Nat.exists_eq_add_one.mpr (Nat.length_toDigits_pos (b := 10) (n := index))
  have bound : index < 10 ^ (width + 1) :=
    (Nat.length_toDigits_le_iff (by decide) (by omega)).mp (Nat.le_of_eq length)
  have unpadded : toString index = padded 10 (width + 1) index := by
    rw [toString_eq, padded, List.leftpad, length, Nat.sub_self, List.replicate_zero, List.nil_append]
  exact ⟨width, by rw [indexKey, unpadded, ofText_padded bound], bound⟩

private theorem isDigit_of_mem_indexKey {index : Nat} {byte : UInt8}
    (member : byte ∈ indexKey index) :
    IsDigit byte := by
  obtain ⟨width, key, _⟩ := indexKey_eq index
  rw [key] at member
  obtain ⟨digit, inside, rfl⟩ := List.mem_map.mp member
  exact (isDigit_digitByte (lastDigits_lt _ _ digit inside)).1

private theorem decimal_indexKey (index : Nat) : decimal (indexKey index) = index := by
  obtain ⟨width, key, bound⟩ := indexKey_eq index
  rw [key, decimal, digitsOf_map_digitByte (lastDigits_lt _ _), foldl_lastDigits bound, Nat.zero_mul,
    Nat.zero_add]

private theorem index?_of_stray {key : Bytes} (stray : ∃ byte ∈ key, ¬IsDigit byte) :
    index? key = none := by
  cases read : index? key with
  | none => rfl
  | some index =>
    obtain ⟨byte, inside, other⟩ := stray
    rw [(eq_indexKey_of_index? read).1] at inside
    exact absurd (isDigit_of_mem_indexKey inside) other

/-- Of digits only a zero in front and the limit are left to check. -/
theorem index?_of_digits {first : UInt8} {rest : Bytes}
    (digits : ∀ byte ∈ first :: rest, IsDigit byte) :
    index? (first :: rest) =
      if rest ≠ [] ∧ first = 0x30 then none
      else (some (decimal (first :: rest))).filter (· < wordLimit) := by
  have text : Bytes.text? (first :: rest) =
      some (String.ofList ((digitsOf (first :: rest)).map Nat.digitChar)) := by
    rw [← Bytes.text?_ofText, ofText_digitsOf digits]
  have value : ofDigits? 10 ((digitsOf (first :: rest)).map Nat.digitChar) =
      some (decimal (first :: rest)) := by
    rw [ofDigits?, if_neg (by simp [digitsOf]), foldlM_digits (digitsOf_lt digits)]
    rfl
  have zero : (first.toNat - 0x30).digitChar = '0' ↔ first = 0x30 := by
    obtain ⟨small, own⟩ := digitByte_of_isDigit (digits first List.mem_cons_self)
    have all : ∀ digit : Fin 10, digit.val.digitChar = '0' ↔ digitByte digit.val = 0x30 := by decide
    have here := all ⟨_, small⟩
    rwa [own] at here
  unfold index?
  rw [text, Option.bind_eq_bind, Option.bind_some, String.toList_ofList]
  dsimp only
  rw [value]
  congr 1
  simp [digitsOf, zero]

theorem index?_eq_none {key : Bytes} :
    index? key = none ↔ key = [] ∨ (∃ byte ∈ key, ¬IsDigit byte) ∨
      (∃ rest, rest ≠ [] ∧ key = 0x30 :: rest) ∨ wordLimit ≤ decimal key := by
  cases key with
  | nil => exact iff_of_true rfl (.inl rfl)
  | cons first rest =>
    by_cases stray : ∃ byte ∈ first :: rest, ¬IsDigit byte
    · exact iff_of_true (index?_of_stray stray) (.inr (.inl stray))
    · -- With digits alone the key has a value, whatever becomes of it.
      have digits : ∀ byte ∈ first :: rest, IsDigit byte := fun byte inside =>
        Decidable.not_not.mp fun other => stray ⟨byte, inside, other⟩
      have leading : (∃ more, more ≠ [] ∧ first :: rest = 0x30 :: more) ↔
          rest ≠ [] ∧ first = 0x30 := by
        constructor
        · rintro ⟨more, some, same⟩
          cases same
          exact ⟨some, rfl⟩
        · rintro ⟨some, rfl⟩
          exact ⟨rest, some, rfl⟩
      rw [index?_of_digits digits, leading]
      by_cases zero : rest ≠ [] ∧ first = 0x30
      · rw [if_pos zero]
        exact iff_of_true rfl (.inr (.inr (.inl zero)))
      · rw [if_neg zero, or_iff_right (List.cons_ne_nil first rest), or_iff_right stray,
          or_iff_right zero]
        simp

/-- A key is read as an index exactly if it is the key of that index and the index fits a word; and
each index has a key of its own, which shows it.  All other keys are refused: the empty one, one with
a byte that is no digit (a sign is none), one with a zero before other digits, and one that shows a
number beyond the limit. -/
theorem index_exact (key : Bytes) (index other : Nat) :
    (index? key = some index ↔ index < wordLimit ∧ key = indexKey index) ∧
      (indexKey index = indexKey other ↔ index = other) ∧ decimal (indexKey index) = index ∧
      (index? key = none ↔ key = [] ∨ (∃ byte ∈ key, ¬IsDigit byte) ∨
        (∃ rest, rest ≠ [] ∧ key = 0x30 :: rest) ∨ wordLimit ≤ decimal key) := by
  refine ⟨⟨fun read => (eq_indexKey_of_index? read).symm, ?_⟩,
    ⟨indexKey_injective, congrArg indexKey⟩, decimal_indexKey index, index?_eq_none⟩
  rintro ⟨bound, rfl⟩
  exact index?_indexKey bound

/-- The largest index and the number after it. -/
example :
    index? (Bytes.ofText "18446744073709551615") = some 18446744073709551615 ∧
      index? (Bytes.ofText "18446744073709551616") = none := by decide

end ClusterRegistry.Numeral
