import Mathlib.Algebra.BigOperators.Group.List.Basic
import ClusterRegistry.Proofs.Cluster.Sequence
import ClusterRegistry.Proofs.Time.Reading

/-!
Timestamps at both ends of the calendar.  A year of four digits is one of the years 0 to 9999, which
are so many seconds around the epoch.  The text of any other instant begins with a sign, which no
reader of timestamps accepts; so an instant is read back as it was written, or not at all.
-/
namespace ClusterRegistry

namespace Calendar

private theorem yearOfDay_nonneg (day : Int) : 0 ≤ yearOfDay day ↔ 0 ≤ day := by
  have bounds := yearOfDay_bounds day
  unfold daysBeforeYear at bounds
  omega

/-- Ten thousand years have 3652425 days. -/
theorem yearOfDay_le (day : Int) : yearOfDay day ≤ 9999 ↔ day < 3652425 := by
  have bounds := yearOfDay_bounds day
  unfold daysBeforeYear at bounds
  omega

end Calendar

private theorem Instant.hasPlainYear_iff (instant : Instant) : instant.HasPlainYear ↔
    -62167219200 ≤ instant.second ∧ instant.second < 253402300800 := by
  unfold HasPlainYear year Calendar.dateOfDay Calendar.epochDay Timestamp.secondsPerDay
  dsimp only
  rw [Calendar.yearOfDay_nonneg, Calendar.yearOfDay_le]
  omega

private theorem Numeral.width_le_length_padded (base width value : Nat) :
    width ≤ (Bytes.ofText (padded base width value)).length := by
  rw [padded, ofText_ofList, List.length_flatMap]
  generalize same : (Nat.toDigits base value).leftpad width '0' = digits
  have wide : width ≤ digits.length := by
    rw [← same, List.length_leftpad]
    exact Nat.le_max_left _ _
  have each : ∀ size ∈ digits.map fun c => (String.utf8EncodeChar c).length, 1 ≤ size := by
    intro size member
    obtain ⟨c, _, rfl⟩ := List.mem_map.mp member
    exact List.length_pos_of_ne_nil String.utf8EncodeChar_ne_nil
  have total := List.length_le_sum_of_one_le _ each
  rw [List.length_map] at total
  exact Nat.le_trans wide total

namespace Timestamp

open Numeral

variable {instant : Instant}

/-- The digits behind the year are enough for a date and a time. -/
theorem shortestLength_le_text (instant : Instant) :
    shortestLength ≤ (Bytes.ofText (text instant)).length := by
  have two (value : Nat) := width_le_length_padded 10 2 value
  have nine (value : Nat) := width_le_length_padded 10 9 value
  unfold text shortestLength
  simp only [Bytes.ofText_append, List.length_append]
  grind

namespace Reader

theorem bind_of_error {α β : Type} {first : Reader α} {next : α → Reader β} {input : Bytes}
    {fault : Fault} (failed : first input = .error fault) :
    (first >>= next) input = .error fault := by
  change (first input >>= fun outcome => next outcome.1 outcome.2) = _
  rw [failed]
  rfl

private theorem number_of_other {byte : UInt8} (other : digit? byte = none) (width : Nat)
    (rest : Bytes) :
    number (width + 1) 0 (byte :: rest) = .error .invalid := by
  rw [number, bind_get]
  simp only [other]
  rfl

private theorem instant_of_other {byte : UInt8} (other : digit? byte = none) (rest : Bytes) :
    Reader.instant (byte :: rest) = .error .invalid := by
  have year := number_of_other other 3 rest
  have dated : date (byte :: rest) = .error .invalid := bind_of_error year
  exact bind_of_error dated

end Reader

/-- A year that has not four digits begins with its sign. -/
theorem text_of_far (far : ¬instant.HasPlainYear) :
    ∃ sign rest, Bytes.ofText (text instant) = sign :: rest ∧ Reader.digit? sign = none := by
  have signs : Bytes.ofText "-" = [0x2d] ∧ Bytes.ofText "+" = [0x2b] := by decide
  unfold Instant.HasPlainYear Instant.year at far
  simp only [text, yearText, if_neg far, Bytes.ofText_append]
  split
  · rw [signs.1]
    exact ⟨0x2d, _, rfl, rfl⟩
  · rw [signs.2]
    exact ⟨0x2b, _, rfl, rfl⟩

private theorem parse_text_of_far (far : ¬instant.HasPlainYear) :
    parse (text instant) = .error .invalid := by
  obtain ⟨sign, rest, bytes, other⟩ := text_of_far far
  have long := shortestLength_le_text instant
  unfold parse
  rw [if_neg (Nat.not_lt.mpr long), bytes, StateT.run, Reader.instant_of_other other]
  rfl

end Timestamp

namespace Layout

private theorem readInstant_ofText (field text : String) : readInstant field (Bytes.ofText text) =
    (Timestamp.parse text).mapError fun fault => .malformed (.invalidTimestamp field text fault) := by
  rw [readInstant, readText_ofText]
  simp only [bind, Except.bind]
  cases Timestamp.parse text <;> rfl

/-- An instant of a year of four digits is read back from its text, to the nanosecond and in a leap
second too; of any other the text is malformed.  These years are so many seconds around the epoch. -/
theorem instant_exact {instant : Instant} (valid : instant.Valid) (field : String) :
    (instant.HasPlainYear ↔ -62167219200 ≤ instant.second ∧ instant.second < 253402300800) ∧
      readInstant field (Bytes.ofText (Timestamp.text instant)) =
        if instant.HasPlainYear then .ok instant
        else .error (.malformed (.invalidTimestamp field (Timestamp.text instant) .invalid)) := by
  refine ⟨instant.hasPlainYear_iff, ?_⟩
  rw [readInstant_ofText]
  split
  · rename_i plain
    rw [Timestamp.parse_text ⟨valid, plain⟩]
    rfl
  · rename_i far
    rw [Timestamp.parse_text_of_far far]
    rfl

/-- The leap seconds at the end of the year 9999 and before the year 0. -/
theorem instant_exact_of_leap_seconds :
    let last : Instant := ⟨253402300799, 1999999999⟩
    let early : Instant := ⟨-62167219201, 1000000000⟩
    last.Valid ∧ early.Valid ∧
      readInstant createdAt (Bytes.ofText (Timestamp.text last)) = .ok last ∧
      readInstant createdAt (Bytes.ofText (Timestamp.text early)) = .error (.malformed
        (.invalidTimestamp createdAt (Timestamp.text early) .invalid)) := by
  intro last early
  have lastValid : last.Valid := .inr (by decide)
  have earlyValid : early.Valid := .inr (by decide)
  obtain ⟨within, read⟩ := instant_exact lastValid createdAt
  obtain ⟨beyond, refused⟩ := instant_exact earlyValid createdAt
  rw [if_pos (within.mpr (by decide))] at read
  rw [if_neg (mt beyond.mp (by decide))] at refused
  exact ⟨lastValid, earlyValid, read, refused⟩

end Layout

end ClusterRegistry
