import Mathlib.Algebra.Ring.Nat
import ClusterRegistry.Time.Calendar

/-!
The calendar and the count of days.  The date of a day is a valid date, and its day number is that
day again.
-/
namespace ClusterRegistry.Calendar

def yearLength (year : Int) : Nat :=
  if isLeap year then 366 else 365

private theorem daysBeforeYear_succ (year : Int) :
    daysBeforeYear (year + 1) = daysBeforeYear year + yearLength year := by
  have leap : isLeap year = true ↔ year % 4 = 0 ∧ (year % 100 ≠ 0 ∨ year % 400 = 0) := by
    simp [isLeap]
  unfold daysBeforeYear yearLength
  split
  · rename_i inside
    have rule := leap.mp inside
    omega
  · rename_i outside
    have rule := mt leap.mpr outside
    omega

private theorem sum_monthLengths (year : Int) : (monthLengths year).sum = yearLength year := by
  unfold monthLengths yearLength
  split <;> rfl

/-- Between the first days of two years in a row lie the days of the first. -/
theorem yearOfDay_bounds (day : Int) :
    daysBeforeYear (yearOfDay day) ≤ day ∧ day < daysBeforeYear (yearOfDay day + 1) := by
  have near : daysBeforeYear (day * 400 / 146097 - 1) ≤ day ∧
      day < daysBeforeYear (day * 400 / 146097 + 2) := by
    unfold daysBeforeYear
    omega
  unfold yearOfDay
  dsimp only
  split
  · rename_i early
    rw [Int.sub_add_cancel]
    exact ⟨near.1, early⟩
  · rename_i notEarly
    split
    · rename_i late
      rw [Int.add_assoc]
      exact ⟨late, near.2⟩
    · omega

/-- A day inside a sequence of periods is so many days into one of them. -/
theorem splitDays_spec {lengths : List Nat} {day : Nat} (inside : day < lengths.sum) :
    ∃ length, lengths[(splitDays lengths day).1]? = some length ∧
      (splitDays lengths day).2 < length ∧
      daysIn lengths (splitDays lengths day).1 + (splitDays lengths day).2 = day := by
  induction lengths generalizing day with
  | nil => simp at inside
  | cons length rest ih =>
    rw [List.sum_cons] at inside
    unfold splitDays
    split
    · rename_i first
      exact ⟨length, rfl, first, by simp [daysIn]⟩
    · rename_i later
      have behind : day - length < rest.sum := by omega
      obtain ⟨found, at_, left, total⟩ := ih behind
      refine ⟨found, ?_, left, ?_⟩
      · simpa using at_
      · simp only [daysIn]
        omega

theorem dateOfDay_spec (number : Int) :
    (dateOfDay number).isValid = true ∧ dayNumber (dateOfDay number) = number := by
  obtain ⟨after, before⟩ := yearOfDay_bounds (number + epochDay)
  unfold dateOfDay
  dsimp only
  generalize yearOfDay (number + epochDay) = year at *
  have inside : (number + epochDay - daysBeforeYear year).toNat < (monthLengths year).sum := by
    rw [sum_monthLengths]
    rw [daysBeforeYear_succ] at before
    omega
  obtain ⟨length, month, left, total⟩ := splitDays_spec inside
  generalize splitDays (monthLengths year) (number + epochDay - daysBeforeYear year).toNat =
    split at *
  constructor
  · simp only [Date.isValid, month, Option.getD_some, Bool.and_eq_true, decide_eq_true_eq]
    omega
  · simp only [dayNumber, Nat.add_sub_cancel]
    omega

theorem Date.isValid_bounds {date : Date} (valid : date.isValid = true) :
    date.month ≤ 12 ∧ date.day ≤ 31 := by
  have short : ∀ length ∈ monthLengths date.year, length ≤ 31 := by
    unfold monthLengths
    split <;> decide
  unfold isValid at valid
  split at valid
  · contradiction
  · rename_i month same
    rw [Bool.and_eq_true, decide_eq_true_eq, decide_eq_true_eq] at valid
    cases found : (monthLengths date.year)[month]? with
    | none =>
      rw [found, Option.getD_none] at valid
      omega
    | some length =>
      obtain ⟨inside, -⟩ := List.getElem?_eq_some_iff.mp found
      have bound := short length (List.mem_of_getElem? found)
      rw [found, Option.getD_some] at valid
      have twelve : (monthLengths date.year).length = 12 := rfl
      omega

end ClusterRegistry.Calendar
