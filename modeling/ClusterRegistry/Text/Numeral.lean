import ClusterRegistry.Bytes

/-!
Numbers as text.  A numeral is read with its base and an exclusive limit; one optional plus sign
and any number of leading zeros are allowed.  An index is written canonically: no sign and no
leading zero, so that each index below the limit has exactly one key.
-/
namespace ClusterRegistry.Numeral

/-- Letters of either case continue the digits from ten upwards. -/
def digitValue? (digit : Char) : Option Nat :=
  if '0' ≤ digit ∧ digit ≤ '9' then some (digit.toNat - '0'.toNat)
  else if 'a' ≤ digit ∧ digit ≤ 'z' then some (digit.toNat - 'a'.toNat + 10)
  else if 'A' ≤ digit ∧ digit ≤ 'Z' then some (digit.toNat - 'A'.toNat + 10)
  else none

/-- One more digit behind the number read so far. -/
def appendDigit? (base value : Nat) (digit : Char) : Option Nat :=
  match digitValue? digit with
  | some d => if d < base then some (base * value + d) else none
  | none => none

def ofDigits? (base : Nat) (digits : List Char) : Option Nat :=
  if digits = [] then none else digits.foldlM (appendDigit? base) 0

/-- A signless or plus-signed numeral of a number below `limit`. -/
def parse? (base limit : Nat) (text : String) : Option Nat :=
  let digits := match text.toList with
    | '+' :: rest => rest
    | digits => digits
  (ofDigits? base digits).filter (· < limit)

def padded (base width value : Nat) : String :=
  String.ofList ((Nat.toDigits base value).leftpad width '0')

/-- One past the largest count, index, sequence number and transaction id. -/
def wordLimit : Nat := 18446744073709551616

def indexKey (index : Nat) : Bytes :=
  Bytes.ofText (toString index)

/-- The index whose key is `key`; none for a sign, a leading zero or anything but digits. -/
def index? (key : Bytes) : Option Nat := do
  let digits := (← Bytes.text? key).toList
  if digits.length ≠ 1 ∧ digits.head? = some '0' then none
  else (ofDigits? 10 digits).filter (· < wordLimit)

end ClusterRegistry.Numeral
