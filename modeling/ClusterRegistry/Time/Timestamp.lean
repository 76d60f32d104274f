import ClusterRegistry.Text.Numeral
import ClusterRegistry.Time.Calendar
import ClusterRegistry.Time.Instant

/-!
Timestamps as text, in the internet profile of ISO 8601.  Writing gives UTC with nine decimals;
reading takes any offset and any number of decimals, of which nine count.  Second 60 stands for
the leap second after second 59, in any minute.
-/
namespace ClusterRegistry.Timestamp

def secondsPerDay : Nat := 86400

/-- A year of four digits stands alone; any other carries its sign. -/
def yearText (year : Int) : String :=
  if 0 ≤ year ∧ year ≤ 9999 then Numeral.padded 10 4 year.toNat
  else (if year < 0 then "-" else "+") ++ Numeral.padded 10 4 year.natAbs

def text (instant : Instant) : String :=
  let date := Calendar.dateOfDay (instant.second / secondsPerDay)
  let second := (instant.second % secondsPerDay).toNat
  let two := Numeral.padded 10 2
  let leap := instant.nano / Instant.nanosPerSecond
  yearText date.year ++ "-" ++ two date.month ++ "-" ++ two date.day ++
    "T" ++ two (second / 3600) ++ ":" ++ two (second / 60 % 60) ++ ":" ++ two (second % 60 + leap) ++
    "." ++ Numeral.padded 10 9 (instant.nano % Instant.nanosPerSecond) ++ "Z"

inductive Fault where
  | invalid
  | outOfRange
  | tooShort
  | tooLong
deriving DecidableEq, Repr

def Fault.message : Fault → String
  | .invalid => "input contains invalid characters"
  | .outOfRange => "input is out of range"
  | .tooShort => "premature end of input"
  | .tooLong => "trailing input"

/-- Readers take the front of the text and leave the rest. -/
abbrev Reader := StateT Bytes (Except Fault)

namespace Reader

def digit? (byte : UInt8) : Option Nat :=
  if 0x30 ≤ byte ∧ byte ≤ 0x39 then some (byte.toNat - 0x30) else none

def number : (width : Nat) → (value : Nat) → Reader Nat
  | 0, value => pure value
  | width + 1, value => do
    match (← get) with
    | byte :: rest =>
      match digit? byte with
      | some d =>
        set rest
        number width (10 * value + d)
      | none => throw .invalid
    | [] => throw .invalid

/-- One byte out of `allowed`; where the text has ended, the fault `atEnd`. -/
def oneOf (allowed : Bytes) (atEnd : Fault) : Reader Unit := do
  match (← get) with
  | byte :: rest => if allowed.contains byte then set rest else throw .invalid
  | [] => throw atEnd

def dash : Bytes := [0x2d]
def colon : Bytes := [0x3a]

def timeMarks : Bytes := [0x54, 0x74, 0x20]

def date : Reader Calendar.Date := do
  let year ← number 4 0
  oneOf dash .invalid
  let month ← number 2 0
  oneOf dash .invalid
  let day ← number 2 0
  let date : Calendar.Date := ⟨year, month, day⟩
  if date.isValid then return date else throw .outOfRange

/-- Nanoseconds from the decimals of a second. -/
def nanosOfDigits (digits : List Nat) : Nat :=
  ((digits ++ List.replicate 9 0).take 9).foldl (fun value d => 10 * value + d) 0

def decimals : Reader Nat := do
  match (← get) with
  | 0x2e :: rest =>
    let isDigit (byte : UInt8) : Bool := (digit? byte).isSome
    if rest = [] then throw .tooShort
    else if (rest.takeWhile isDigit) = [] then throw .invalid
    else
      set (rest.dropWhile isDigit)
      return nanosOfDigits ((rest.takeWhile isDigit).filterMap digit?)
  | _ => return 0

def time : Reader (Nat × Nat) := do
  let hour ← number 2 0
  oneOf colon .invalid
  let minute ← number 2 0
  oneOf colon .invalid
  let second ← number 2 0
  let nano ← decimals
  if hour < 24 ∧ minute < 60 ∧ second ≤ 60 then
    let leap := second / 60
    return (3600 * hour + 60 * minute + (second - leap), nano + leap * Instant.nanosPerSecond)
  else throw .outOfRange

def offsetHour : Reader Nat := do
  match (← get) with
  | _ :: _ :: _ => number 2 0
  | _ => throw .tooShort

def offsetMinute : Reader Nat := do
  match (← get) with
  | first :: second :: _ =>
    match digit? first, digit? second with
    | some high, some _ => if high < 6 then number 2 0 else throw .outOfRange
    | _, _ => throw .invalid
  | _ => throw .tooShort

/-- Seconds east of UTC: the letter Z in either case, or a sign, hours, a colon and minutes.  The
sign may be a plus, a hyphen or the minus sign U+2212. -/
def offset : Reader Int := do
  let signed (sign : Int) (rest : Bytes) : Reader Int := do
    set rest
    let hour ← offsetHour
    oneOf colon .tooShort
    let minute ← offsetMinute
    return sign * (3600 * hour + 60 * minute)
  match (← get) with
  | 0x5a :: rest | 0x7a :: rest =>
    set rest
    return 0
  | 0x2b :: rest => signed 1 rest
  | 0x2d :: rest => signed (-1) rest
  | 0xe2 :: 0x88 :: 0x92 :: rest => signed (-1) rest
  | [] => throw .tooShort
  | _ => throw .invalid

def instant : Reader Instant := do
  let date ← date
  oneOf timeMarks .invalid
  let (second, nano) ← time
  let offset ← offset
  if (← get) ≠ [] then throw .tooLong
  else if offset.natAbs < secondsPerDay then
    return ⟨Calendar.dayNumber date * secondsPerDay + second - offset, nano⟩
  else throw .outOfRange

end Reader

/-- The shortest text that has a date and a time. -/
def shortestLength : Nat := 19

def parse (text : String) : Except Fault Instant :=
  let bytes := Bytes.ofText text
  if bytes.length < shortestLength then .error .tooShort
  else (Reader.instant.run bytes).map Prod.fst

end ClusterRegistry.Timestamp
