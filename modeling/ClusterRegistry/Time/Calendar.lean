/-!
The Gregorian calendar, extended to all years.  Days are counted from the first of January 1970;
year 0 is the leap year before year 1.
-/
namespace ClusterRegistry.Calendar

structure Date where
  year : Int
  month : Nat
  day : Nat
deriving DecidableEq, Repr

def isLeap (year : Int) : Bool :=
  year % 4 = 0 && (year % 100 ≠ 0 || year % 400 = 0)

def monthLengths (year : Int) : List Nat :=
  [31, if isLeap year then 29 else 28, 31, 30, 31, 30, 31, 31, 30, 31, 30, 31]

namespace Date

/-- Months and days count from one. -/
def isValid (date : Date) : Bool :=
  match date.month with
  | 0 => false
  | month + 1 => 1 ≤ date.day && date.day ≤ (monthLengths date.year)[month]?.getD 0

end Date

/-- Days from the start of year 0 to the start of `year`. -/
def daysBeforeYear (year : Int) : Int :=
  365 * year + (year + 3) / 4 - (year + 99) / 100 + (year + 399) / 400

def epochDay : Int := 719528

def daysIn : (lengths : List Nat) → (count : Nat) → Nat
  | length :: rest, count + 1 => length + daysIn rest count
  | _, _ => 0

def dayNumber (date : Date) : Int :=
  daysBeforeYear date.year + daysIn (monthLengths date.year) (date.month - 1) +
    (date.day - 1) - epochDay

/-- The year of a day that is counted from the start of year 0.  The mean length of a year gives
it to within one. -/
def yearOfDay (day : Int) : Int :=
  let guess := day * 400 / 146097
  if day < daysBeforeYear guess then guess - 1
  else if daysBeforeYear (guess + 1) ≤ day then guess + 1
  else guess

/-- Whole periods before a day, and the days that remain. -/
def splitDays : List Nat → Nat → Nat × Nat
  | [], day => (0, day)
  | length :: rest, day =>
    if day < length then (0, day)
    else
      let (periods, left) := splitDays rest (day - length)
      (periods + 1, left)

def dateOfDay (number : Int) : Date :=
  let day := number + epochDay
  let year := yearOfDay day
  let (months, left) := splitDays (monthLengths year) (day - daysBeforeYear year).toNat
  ⟨year, months + 1, left + 1⟩

end ClusterRegistry.Calendar
