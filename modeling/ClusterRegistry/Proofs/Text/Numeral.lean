import Mathlib.Algebra.Ring.Nat
import ClusterRegistry.Text.Numeral

/-!
Numerals read back.  The digits of a number in a base up to sixteen, with any zeros in front, are
read as that number; and an index is read from its own key and from no other.
-/
namespace ClusterRegistry.Numeral

private theorem digitValue?_digitChar (digit : Nat) (small : digit < 16) :
    digitValue? digit.digitChar = some digit := by
  have all : ∀ digit : Fin 16, digitValue? digit.val.digitChar = some digit.val := by decide
  exact all ⟨digit, small⟩

theorem appendDigit?_digitChar (base value digit : Nat) (bound : digit < base) (base_le : base ≤ 16) :
    appendDigit? base value digit.digitChar = some (base * value + digit) := by
  rw [appendDigit?, digitValue?_digitChar digit (by omega)]
  exact if_pos bound

private theorem foldlM_toDigits (base value : Nat) (one_lt : 1 < base) (base_le : base ≤ 16) :
    (Nat.toDigits base value).foldlM (appendDigit? base) 0 = some value := by
  induction value using Nat.strongRecOn with
  | ind value ih =>
    by_cases small : value < base
    · rw [Nat.toDigits_of_lt_base small]
      simp [appendDigit?_digitChar base 0 value small base_le]
    · have smaller : value / base < value := Nat.div_lt_self (by omega) one_lt
      have low : value % base < base := Nat.mod_lt _ (by omega)
      rw [Nat.toDigits_of_base_le one_lt (by omega), List.foldlM_append, ih _ smaller]
      simp [appendDigit?_digitChar base _ _ low base_le, Nat.div_add_mod]

private theorem foldlM_replicate_zero (base count : Nat) (positive : 0 < base) :
    (List.replicate count '0').foldlM (appendDigit? base) 0 = some 0 := by
  induction count with
  | zero => rfl
  | succ count ih =>
    have zero : appendDigit? base 0 '0' = some 0 := by
      simp [appendDigit?, digitValue?, positive]
    rw [List.replicate_succ, List.foldlM_cons, zero]
    exact ih

theorem ofDigits?_leftpad_toDigits (base width value : Nat) (one_lt : 1 < base)
    (base_le : base ≤ 16) :
    ofDigits? base ((Nat.toDigits base value).leftpad width '0') = some value := by
  rw [ofDigits?, if_neg (by simp [List.leftpad, Nat.toDigits_ne_nil]), List.leftpad,
    List.foldlM_append, foldlM_replicate_zero base _ (by omega)]
  exact foldlM_toDigits base value one_lt base_le

/-- A plus sign is no digit, so digits are read from their first one on. -/
theorem parse?_ofList (base limit value : Nat) (digits : List Char)
    (ok : ofDigits? base digits = some value) (bound : value < limit) :
    parse? base limit (String.ofList digits) = some value := by
  have signless : ∀ rest, digits ≠ '+' :: rest := by
    intro rest same
    subst same
    have sign : appendDigit? base 0 '+' = none := by simp [appendDigit?, digitValue?]
    simp [ofDigits?, sign] at ok
  unfold parse?
  rw [String.toList_ofList]
  split
  · rename_i rest
    exact absurd rfl (signless rest)
  · simp [ok, bound]

private theorem ofDigits?_toDigits (base value : Nat) (one_lt : 1 < base) (base_le : base ≤ 16) :
    ofDigits? base (Nat.toDigits base value) = some value := by
  have unpadded := ofDigits?_leftpad_toDigits base 0 value one_lt base_le
  rwa [List.leftpad, Nat.zero_sub, List.replicate_zero, List.nil_append] at unpadded

theorem toString_eq (value : Nat) : toString value = String.ofList (Nat.toDigits 10 value) := by
  rw [Nat.toString_eq_repr, Nat.repr_eq_ofList_toDigits]

theorem parse?_toString {limit value : Nat} (bound : value < limit) :
    parse? 10 limit (toString value) = some value := by
  rw [toString_eq]
  exact parse?_ofList 10 limit value _ (ofDigits?_toDigits 10 value (by omega) (by omega)) bound

private theorem head?_toDigits (value : Nat) (positive : 0 < value) :
    (Nat.toDigits 10 value).head? ≠ some '0' := by
  induction value using Nat.strongRecOn with
  | ind value ih =>
    by_cases small : value < 10
    · have digits : ∀ digit : Fin 10, 0 < digit.val → digit.val.digitChar ≠ '0' := by decide
      rw [Nat.toDigits_of_lt_base small]
      simpa using digits ⟨value, small⟩ positive
    · have fewer := ih (value / 10) (by omega) (by omega)
      rw [Nat.toDigits_of_base_le (by omega) (by omega), List.head?_append]
      cases first : (Nat.toDigits 10 (value / 10)).head? with
      | none => exact absurd (List.head?_eq_none_iff.mp first) Nat.toDigits_ne_nil
      | some digit => rwa [Option.some_or, ← first]

theorem index?_indexKey {index : Nat} (bound : index < wordLimit) :
    index? (indexKey index) = some index := by
  have canonical : ¬((Nat.toDigits 10 index).length ≠ 1 ∧
      (Nat.toDigits 10 index).head? = some '0') := by
    rintro ⟨long, zero⟩
    by_cases positive : 0 < index
    · exact head?_toDigits index positive zero
    · rw [Nat.eq_zero_of_not_pos positive] at long
      exact long rfl
  simp only [index?, indexKey, Bytes.text?_ofText, toString_eq, Option.bind_eq_bind,
    Option.bind_some, String.toList_ofList, if_neg canonical,
    ofDigits?_toDigits 10 index (by omega) (by omega)]
  simp [bound]

theorem indexKey_injective {index other : Nat} (same : indexKey index = indexKey other) :
    index = other := by
  have texts := Option.some.inj ((Bytes.text?_ofText _).symm.trans
    ((congrArg Bytes.text? same).trans (Bytes.text?_ofText _)))
  rw [toString_eq, toString_eq] at texts
  have digits := congrArg String.toList texts
  rw [String.toList_ofList, String.toList_ofList] at digits
  have values := (foldlM_toDigits 10 index (by omega) (by omega)).symm.trans
    ((congrArg (List.foldlM (appendDigit? 10) 0) digits).trans
      (foldlM_toDigits 10 other (by omega) (by omega)))
  exact Option.some.inj values

private theorem digitChar_of_digitValue? {digit : Char} {value : Nat}
    (read : digitValue? digit = some value) (small : value < 10) : value.digitChar = digit := by
  apply Char.toNat_inj.mp
  rw [Nat.toNat_digitChar_of_lt_ten small]
  unfold digitValue? at read
  split at read
  · rename_i decimal
    have low : '0'.toNat ≤ digit.toNat := decimal.1
    cases read
    change 48 ≤ digit.toNat at low
    change 48 + (digit.toNat - 48) = digit.toNat
    omega
  · split at read
    · cases read
      omega
    · split at read
      · cases read
        omega
      · contradiction

private theorem appendDigit?_eq_some {base front value : Nat} {digit : Char} :
    appendDigit? base front digit = some value ↔
      ∃ low, digitValue? digit = some low ∧ low < base ∧ value = base * front + low := by
  unfold appendDigit?
  cases digitValue? digit with
  | none => simp
  | some low => simp [eq_comm]

private theorem toDigits_append_of_foldlM {digits : List Char} {front value : Nat}
    (positive : 0 < front)
    (read : digits.foldlM (appendDigit? 10) front = some value) :
    Nat.toDigits 10 front ++ digits = Nat.toDigits 10 value := by
  induction digits generalizing front with
  | nil =>
    cases read
    exact List.append_nil _
  | cons digit digits ih =>
    rw [List.foldlM_cons] at read
    obtain ⟨next, first, rest⟩ := Option.bind_eq_some_iff.mp read
    obtain ⟨low, valued, small, rfl⟩ := appendDigit?_eq_some.mp first
    have longer := ih (by omega) rest
    have last := Nat.toDigits_append_toDigits (b := 10) (by omega) positive small
    rw [Nat.toDigits_of_lt_base small, digitChar_of_digitValue? valued small] at last
    rw [← longer, ← last, List.append_assoc]
    rfl

private theorem eq_toDigits_of_ofDigits? {digits : List Char} {value : Nat}
    (canonical : ¬(digits.length ≠ 1 ∧ digits.head? = some '0'))
    (read : ofDigits? 10 digits = some value) : digits = Nat.toDigits 10 value := by
  unfold ofDigits? at read
  split at read
  · contradiction
  · cases digits with
    | nil => contradiction
    | cons digit rest =>
      rw [List.foldlM_cons] at read
      obtain ⟨next, first, read⟩ := Option.bind_eq_some_iff.mp read
      obtain ⟨low, valued, small, rfl⟩ := appendDigit?_eq_some.mp first
      have single := digitChar_of_digitValue? valued small
      rw [Nat.mul_zero, Nat.zero_add] at read
      by_cases zero : low = 0
      · subst zero
        have alone : rest = [] := by
          refine Classical.byContradiction fun more => canonical ⟨?_, ?_⟩
          · simpa using more
          · rw [← single]
            rfl
        subst alone
        cases read
        rw [← single]
        rfl
      · have whole := toDigits_append_of_foldlM (Nat.pos_of_ne_zero zero) read
        rw [Nat.toDigits_of_lt_base small, single] at whole
        exact whole

/-- Only the key of an index is read as that index. -/
theorem eq_indexKey_of_index? {key : Bytes} {index : Nat} (read : index? key = some index) :
    key = indexKey index ∧ index < wordLimit := by
  obtain ⟨text, decoded, read⟩ := Option.bind_eq_some_iff.mp read
  dsimp only at read
  split at read
  · contradiction
  · rename_i canonical
    obtain ⟨digits, bound⟩ := Option.filter_eq_some_iff.mp read
    refine ⟨?_, of_decide_eq_true bound⟩
    rw [← Bytes.ofText_of_text? decoded, indexKey, toString_eq,
      ← eq_toDigits_of_ofDigits? canonical digits, String.ofList_toList]

/-- The last `width` decimal digits of a number, the highest of them first. -/
def lastDigits : (width : Nat) → (value : Nat) → List Nat
  | 0, _ => []
  | width + 1, value => lastDigits width (value / 10) ++ [value % 10]

def digitByte (digit : Nat) : UInt8 :=
  UInt8.ofNat (0x30 + digit)

theorem length_lastDigits (width value : Nat) : (lastDigits width value).length = width := by
  induction width generalizing value with
  | zero => rfl
  | succ width ih => rw [lastDigits, List.length_append, ih, List.length_singleton]

theorem lastDigits_lt (width value : Nat) : ∀ digit ∈ lastDigits width value, digit < 10 := by
  induction width generalizing value with
  | zero => simp [lastDigits]
  | succ width ih =>
    intro digit member
    rcases List.mem_append.mp member with high | last
    · exact ih _ digit high
    · rw [List.mem_singleton.mp last]
      exact Nat.mod_lt _ (by omega)

theorem foldl_lastDigits {width value : Nat} (bound : value < 10 ^ width) (front : Nat) :
    (lastDigits width value).foldl (fun value digit => 10 * value + digit) front =
      front * 10 ^ width + value := by
  induction width generalizing value with
  | zero =>
    rw [Nat.pow_zero] at bound ⊢
    simp only [lastDigits, List.foldl_nil]
    omega
  | succ width ih =>
    rw [Nat.pow_succ] at bound ⊢
    rw [lastDigits, List.foldl_append, ih (by omega), ← Nat.mul_assoc]
    simp only [List.foldl_cons, List.foldl_nil]
    omega

theorem leftpad_toDigits_succ {base : Nat} (one_lt : 1 < base) (width value : Nat) :
    (Nat.toDigits base value).leftpad (width + 2) '0' =
      (Nat.toDigits base (value / base)).leftpad (width + 1) '0' ++ [(value % base).digitChar] := by
  by_cases small : value < base
  · rw [Nat.toDigits_of_lt_base small, Nat.div_eq_of_lt small, Nat.mod_eq_of_lt small,
      Nat.toDigits_zero]
    simp [List.leftpad, List.replicate_succ']
  · rw [Nat.toDigits_of_base_le one_lt (by omega)]
    simp [List.leftpad]

private theorem leftpad_toDigits {width value : Nat} (bound : value < 10 ^ (width + 1)) :
    (Nat.toDigits 10 value).leftpad (width + 1) '0' =
      (lastDigits (width + 1) value).map Nat.digitChar := by
  induction width generalizing value with
  | zero =>
    have small : value < 10 := bound
    rw [Nat.toDigits_of_lt_base small]
    simp [lastDigits, List.leftpad, Nat.mod_eq_of_lt small]
  | succ width ih =>
    have front : value / 10 < 10 ^ (width + 1) := by
      rw [Nat.pow_succ] at bound
      omega
    rw [lastDigits, List.map_append, ← ih front, leftpad_toDigits_succ (by decide)]
    rfl

theorem ofText_ofList (text : List Char) :
    Bytes.ofText (String.ofList text) = text.flatMap String.utf8EncodeChar := by
  simp [Bytes.ofText, List.utf8Encode]

theorem ofText_digits {digits : List Nat} (small : ∀ digit ∈ digits, digit < 10) :
    Bytes.ofText (String.ofList (digits.map Nat.digitChar)) = digits.map digitByte := by
  have each : ∀ digit : Fin 10,
      String.utf8EncodeChar (Nat.digitChar digit.val) = [digitByte digit.val] := by decide
  rw [ofText_ofList, List.flatMap_map]
  induction digits with
  | nil => rfl
  | cons digit digits ih =>
    obtain ⟨first, small⟩ := List.forall_mem_cons.mp small
    rw [List.flatMap_cons, ih small, each ⟨digit, first⟩, List.map_cons]
    rfl

theorem ofText_padded {width value : Nat} (bound : value < 10 ^ (width + 1)) :
    Bytes.ofText (padded 10 (width + 1) value) = (lastDigits (width + 1) value).map digitByte := by
  rw [padded, leftpad_toDigits bound, ofText_digits (lastDigits_lt _ _)]

private theorem length_ofText_toString {width value : Nat} (bound : value < 10 ^ (width + 1)) :
    (Bytes.ofText (toString value)).length ≤ width + 1 := by
  have whole := congrArg List.length (ofText_padded bound)
  rw [padded, ofText_ofList, List.leftpad, List.flatMap_append, List.length_append,
    List.length_map, length_lastDigits] at whole
  rw [toString_eq, ofText_ofList]
  omega

theorem length_ofText_toString_word {value : Nat} (bound : value < wordLimit) :
    (Bytes.ofText (toString value)).length ≤ 20 :=
  length_ofText_toString (Nat.lt_trans bound (by decide))

end ClusterRegistry.Numeral
