import ClusterRegistry.Checksum
import Mathlib.Algebra.Group.Nat.Defs

/-!
What the checksum tells apart.  The register is linear over exclusive or, so two runs may be
followed by the difference of their registers.  A step that leaves a difference below the top bit
has only moved it down, since dividing out a bit sets the top one.  Hence the register before a byte
can be had back from the one behind it; and a difference that is gone after at most four bytes was,
before each of them, no wider than the bytes that were still to come.
-/
namespace ClusterRegistry.Checksum

private theorem toNat_shiftBit (register : UInt32) :
    (shiftBit register).toNat = if register.toNat % 2 = 0 then register.toNat / 2
      else register.toNat / 2 ^^^ polynomial.toNat := by
  have low : register &&& 1 = 0 ↔ register.toNat % 2 = 0 := by
    rw [← UInt32.toNat_inj, UInt32.toNat_and, ← Nat.and_one_is_mod]
    rfl
  have half : (register >>> 1).toNat = register.toNat / 2 := by
    rw [UInt32.toNat_shiftRight]
    exact Nat.shiftRight_eq_div_pow _ 1
  unfold shiftBit
  by_cases even : register.toNat % 2 = 0
  · rw [if_pos (low.mpr even), if_pos even, half]
  · rw [if_neg (mt low.mp even), if_neg even, UInt32.toNat_xor, half]

private theorem shiftBit_xor (left right : UInt32) :
    shiftBit (left ^^^ right) = shiftBit left ^^^ shiftBit right := by
  have low := Nat.xor_mod_two_pow (a := left.toNat) (b := right.toNat) (n := 1)
  rw [Nat.pow_one] at low
  apply UInt32.toNat_inj.mp
  simp only [UInt32.toNat_xor, toNat_shiftBit, Nat.xor_div_two, low]
  rcases Nat.mod_two_eq_zero_or_one left.toNat with leftLow | leftLow <;>
    rcases Nat.mod_two_eq_zero_or_one right.toNat with rightLow | rightLow <;>
    simp only [leftLow, rightLow, Nat.xor_self, Nat.xor_zero, Nat.zero_xor, Nat.one_ne_zero,
      if_true, if_false]
  · exact Nat.xor_assoc _ _ _
  · ac_rfl
  · -- Both have the polynomial added, which cancels out.
    rw [Nat.xor_comm (right.toNat / 2), Nat.xor_assoc, ← Nat.xor_assoc polynomial.toNat,
      Nat.xor_self, Nat.zero_xor]

/-- A register that was odd has its top bit set by the step. -/
theorem toNat_of_shiftBit_lt {register : UInt32} {width : Nat} (bound : width < 32)
    (small : (shiftBit register).toNat < 2 ^ width) :
    register.toNat = 2 * (shiftBit register).toNat := by
  have below : (shiftBit register).toNat < 2 ^ 31 :=
    Nat.lt_of_lt_of_le small (Nat.pow_le_pow_right (by decide) (by omega))
  rw [toNat_shiftBit] at below ⊢
  split at below
  · rename_i even
    rw [if_pos even]
    omega
  · have half : register.toNat / 2 < 2 ^ 31 := by
      have size := register.toNat_lt
      omega
    have top := Nat.testBit_lt_two_pow below
    rw [Nat.testBit_xor, Nat.testBit_lt_two_pow half] at top
    contradiction

private theorem repeat_shiftBit_xor (count : Nat) (left right : UInt32) :
    Nat.repeat shiftBit count (left ^^^ right) =
      Nat.repeat shiftBit count left ^^^ Nat.repeat shiftBit count right := by
  induction count with
  | zero => rfl
  | succ count ih => simp only [Nat.repeat, ih, shiftBit_xor]

private theorem toNat_of_repeat_shiftBit_lt {register : UInt32} {count width : Nat}
    (bound : count + width ≤ 32)
    (small : (Nat.repeat shiftBit count register).toNat < 2 ^ width) :
    register.toNat = 2 ^ count * (Nat.repeat shiftBit count register).toNat := by
  induction count generalizing width with
  | zero => rw [Nat.pow_zero, Nat.one_mul]; rfl
  | succ count ih =>
    have before : (Nat.repeat shiftBit count register).toNat =
        2 * (Nat.repeat shiftBit (count + 1) register).toNat :=
      toNat_of_shiftBit_lt (by omega) small
    have wider : (Nat.repeat shiftBit count register).toNat < 2 ^ (width + 1) := by
      rw [before, Nat.pow_succ, Nat.mul_comm]
      exact Nat.mul_lt_mul_of_pos_right small (by decide)
    rw [ih (by omega) wider, before, Nat.pow_succ, Nat.mul_assoc]

/-- The difference of two registers, moved on by one byte each. -/
theorem absorb_xor (left right : UInt32) (byte other : UInt8) :
    absorb left byte ^^^ absorb right other =
      Nat.repeat shiftBit 8 ((left ^^^ right) ^^^ (byte ^^^ other).toUInt32) := by
  have parts : (left ^^^ right) ^^^ (byte ^^^ other).toUInt32 =
      (left ^^^ byte.toUInt32) ^^^ (right ^^^ other.toUInt32) := by
    rw [UInt8.toUInt32_xor]
    ac_rfl
  rw [parts, repeat_shiftBit_xor]
  rfl

/-- A narrow difference behind a byte says what it was before it. -/
theorem toNat_of_absorb_xor_lt {left right : UInt32} {byte other : UInt8} {width : Nat}
    (bound : width ≤ 24) (small : (absorb left byte ^^^ absorb right other).toNat < 2 ^ width) :
    (left ^^^ right).toNat ^^^ (byte ^^^ other).toNat =
      2 ^ 8 * (absorb left byte ^^^ absorb right other).toNat := by
  rw [absorb_xor] at small ⊢
  have before := toNat_of_repeat_shiftBit_lt (Nat.add_le_add_left bound 8) small
  rwa [UInt32.toNat_xor, UInt8.toNat_toUInt32] at before

private theorem absorb_injective {left right : UInt32} {byte : UInt8}
    (same : absorb left byte = absorb right byte) : left = right := by
  have gone : (absorb left byte ^^^ absorb right byte).toNat = 0 := by
    rw [same, UInt32.xor_self]
    rfl
  have small : (absorb left byte ^^^ absorb right byte).toNat < 2 ^ 0 := by
    rw [gone]
    exact Nat.one_pos
  have before := toNat_of_absorb_xor_lt (Nat.zero_le 24) small
  rw [gone, UInt8.xor_self, UInt8.toNat_zero, Nat.xor_zero, Nat.mul_zero] at before
  exact UInt32.xor_eq_zero_iff.mp (UInt32.toNat_inj.mp before)

private theorem foldl_absorb_injective {left right : UInt32} {bytes : Bytes}
    (same : bytes.foldl absorb left = bytes.foldl absorb right) : left = right := by
  induction bytes generalizing left right with
  | nil => exact same
  | cons byte bytes ih => exact absorb_injective (ih same)

/-- Where registers meet after at most four bytes each, they differed by no more than these bytes
can make up for. -/
theorem xor_lt_of_foldl_absorb {left right : UInt32} {bytes others : Bytes}
    (size : bytes.length = others.length) (short : bytes.length ≤ 4)
    (same : bytes.foldl absorb left = others.foldl absorb right) :
    (left ^^^ right).toNat < 2 ^ (8 * bytes.length) := by
  induction bytes generalizing left right others with
  | nil =>
    cases others with
    | nil =>
      rw [show left = right from same, UInt32.xor_self]
      decide
    | cons other others => contradiction
  | cons byte bytes ih =>
    cases others with
    | nil => contradiction
    | cons other others =>
      simp only [List.length_cons] at size short ⊢
      -- The difference behind the first byte gives the one before it, but for that byte itself.
      have after := ih (Nat.succ.inj size) (by omega) same
      have before := toNat_of_absorb_xor_lt (by omega) after
      have wider : 2 ^ (8 * (bytes.length + 1)) = 2 ^ 8 * 2 ^ (8 * bytes.length) := by
        rw [Nat.mul_succ, Nat.add_comm, Nat.pow_add]
      have whole : (left ^^^ right).toNat ^^^ (byte ^^^ other).toNat <
          2 ^ (8 * (bytes.length + 1)) := by
        rw [before, wider]
        exact Nat.mul_lt_mul_of_pos_left after (by decide)
      have own : (byte ^^^ other).toNat < 2 ^ (8 * (bytes.length + 1)) :=
        Nat.lt_of_lt_of_le (byte ^^^ other).toNat_lt (Nat.pow_le_pow_right (by decide) (by omega))
      have apart := Nat.xor_lt_two_pow whole own
      rwa [Nat.xor_assoc, Nat.xor_self, Nat.xor_zero] at apart

/-- From one register, no two strings of at most four bytes lead to the same. -/
theorem eq_of_foldl_absorb {register : UInt32} {bytes others : Bytes}
    (size : bytes.length = others.length) (short : bytes.length ≤ 4)
    (same : bytes.foldl absorb register = others.foldl absorb register) : bytes = others := by
  induction bytes generalizing register others with
  | nil => exact (List.length_eq_zero_iff.mp size.symm).symm
  | cons byte bytes ih =>
    cases others with
    | nil => contradiction
    | cons other others =>
      simp only [List.length_cons] at size short
      have after := xor_lt_of_foldl_absorb (Nat.succ.inj size) (by omega) same
      have before := toNat_of_absorb_xor_lt (by omega) after
      rw [UInt32.xor_self, UInt32.toNat_zero, Nat.zero_xor] at before
      -- A byte is a multiple of 256 only where it is zero.
      have gone : (byte ^^^ other).toNat = 0 := by
        have limit := (byte ^^^ other).toNat_lt
        omega
      have first : byte = other := UInt8.xor_eq_zero_iff.mp (UInt8.toNat_inj.mp gone)
      subst first
      rw [ih (Nat.succ.inj size) (by omega) same]

/-- Strings that differ in at most four bytes in a row have different checksums. -/
theorem crc32c_ne_of_short_change {front old new : Bytes} (back : Bytes)
    (size : new.length = old.length) (short : old.length ≤ 4) (changed : new ≠ old) :
    crc32c (front ++ new ++ back) ≠ crc32c (front ++ old ++ back) := by
  intro same
  have registers := (UInt32.xor_left_inj _).mp same
  simp only [List.foldl_append] at registers
  exact changed (eq_of_foldl_absorb size (size ▸ short) (foldl_absorb_injective registers))

end ClusterRegistry.Checksum
