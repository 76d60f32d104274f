import ClusterRegistry.Proofs.Text.Numeral
import ClusterRegistry.Proofs.Time.Calendar
import ClusterRegistry.Time.Timestamp

/-!
Timestamps read back.  An instant whose year has four digits is written in thirty bytes, from which
the same instant is read, down to the nanosecond and with leap seconds kept.
-/
namespace ClusterRegistry

namespace Instant

/-- Nanoseconds run past a whole second only in the leap second behind the last second of a
minute. -/
def Valid (instant : Instant) : Prop :=
  instant.nano < nanosPerSecond ∨
    instant.nano < 2 * nanosPerSecond ∧ instant.second % 60 = 59

def year (instant : Instant) : Int :=
  (Calendar.dateOfDay (instant.second / Timestamp.secondsPerDay)).year

/-- Instants whose text reads back. -/
def Writable (instant : Instant) : Prop :=
  instant.Valid ∧ 0 ≤ instant.year ∧ instant.year ≤ 9999

instance Writable.decidable (instant : Instant) : Decidable instant.Writable :=
  inferInstanceAs (Decidable ((_ ∨ _ ∧ _) ∧ _ ∧ _))

end Instant

namespace Timestamp

open Numeral

namespace Reader

variable {α β : Type} {rest : Bytes}

theorem bind_of_ok {first : Reader α} {next : α → Reader β} {input : Bytes} {value : α}
    (ok : first input = .ok (value, rest)) : (first >>= next) input = next value rest := by
  change (first input >>= fun outcome => next outcome.1 outcome.2) = _
  rw [ok]
  rfl

theorem bind_get (next : Bytes → Reader β) (input : Bytes) :
    ((get : Reader Bytes) >>= next) input = next input input :=
  rfl

private theorem digit?_digitByte {digit : Nat} (small : digit < 10) :
    digit? (digitByte digit) = some digit := by
  have all : ∀ digit : Fin 10, digit? (digitByte digit.val) = some digit.val := by decide
  exact all ⟨digit, small⟩

private theorem number_digits {digits : List Nat} (small : ∀ digit ∈ digits, digit < 10)
    (front : Nat)
    (rest : Bytes) :
    number digits.length front (digits.map digitByte ++ rest) =
      .ok (digits.foldl (fun value digit => 10 * value + digit) front, rest) := by
  induction digits generalizing front with
  | nil => rfl
  | cons digit digits ih =>
    obtain ⟨first, small⟩ := List.forall_mem_cons.mp small
    have step : number (digits.length + 1) front (digitByte digit :: (digits.map digitByte ++ rest)) =
        number digits.length (10 * front + digit) (digits.map digitByte ++ rest) := by
      rw [number, bind_get]
      simp only [digit?_digitByte first]
      rfl
    exact step.trans (ih small _)

private theorem number_lastDigits {width value : Nat} (bound : value < 10 ^ width) (rest : Bytes) :
    number width 0 ((lastDigits width value).map digitByte ++ rest) = .ok (value, rest) := by
  have read := number_digits (lastDigits_lt width value) 0 rest
  rwa [length_lastDigits, foldl_lastDigits bound, Nat.zero_mul, Nat.zero_add] at read

private theorem oneOf_cons {allowed : Bytes} {byte : UInt8} (member : allowed.contains byte = true)
    (atEnd : Fault) (rest : Bytes) : oneOf allowed atEnd (byte :: rest) = .ok ((), rest) := by
  rw [oneOf, bind_get]
  simp only [member]
  rfl

private theorem date_written {date : Calendar.Date} (valid : date.isValid = true) {year : Nat}
    (small : year < 10000) (same : date.year = year) (rest : Bytes) :
    Reader.date ((lastDigits 4 year).map digitByte ++ 0x2d ::
      ((lastDigits 2 date.month).map digitByte ++ 0x2d ::
        ((lastDigits 2 date.day).map digitByte ++ rest))) = .ok (date, rest) := by
  obtain ⟨month, day⟩ := Calendar.Date.isValid_bounds valid
  unfold Reader.date
  rw [bind_of_ok (number_lastDigits (by omega) _), bind_of_ok (oneOf_cons rfl _ _),
    bind_of_ok (number_lastDigits (by omega) _), bind_of_ok (oneOf_cons rfl _ _),
    bind_of_ok (number_lastDigits (by omega) _)]
  obtain ⟨year', month', day'⟩ := date
  subst same
  simp only [valid, if_true]
  rfl

private theorem takeWhile_digits {digits : List Nat} (small : ∀ digit ∈ digits, digit < 10)
    {byte : UInt8} (other : digit? byte = none) (rest : Bytes) :
    (digits.map digitByte ++ byte :: rest).takeWhile (fun byte => (digit? byte).isSome) =
        digits.map digitByte ∧
      (digits.map digitByte ++ byte :: rest).dropWhile (fun byte => (digit? byte).isSome) =
        byte :: rest := by
  have digit : ∀ each ∈ digits.map digitByte, (digit? each).isSome = true := by
    intro each member
    obtain ⟨value, inside, rfl⟩ := List.mem_map.mp member
    rw [digit?_digitByte (small value inside)]
    rfl
  rw [List.takeWhile_append_of_pos digit, List.dropWhile_append_of_pos digit]
  simp [other]

private theorem filterMap_digits {digits : List Nat} (small : ∀ digit ∈ digits, digit < 10) :
    (digits.map digitByte).filterMap digit? = digits := by
  induction digits with
  | nil => rfl
  | cons digit digits ih =>
    obtain ⟨first, small⟩ := List.forall_mem_cons.mp small
    rw [List.map_cons, List.filterMap_cons_some (digit?_digitByte first), ih small]

private theorem decimals_written {nano : Nat} (small : nano < 10 ^ 9) (rest : Bytes) :
    decimals (0x2e :: ((lastDigits 9 nano).map digitByte ++ 0x5a :: rest)) =
      .ok (nano, 0x5a :: rest) := by
  have digits := lastDigits_lt 9 nano
  obtain ⟨taken, left⟩ := takeWhile_digits digits (show digit? 0x5a = none from rfl) rest
  have some : (lastDigits 9 nano).map digitByte ≠ [] := by
    intro none
    have size := congrArg List.length none
    rw [List.length_map, length_lastDigits] at size
    contradiction
  have values := filterMap_digits digits
  have nanos : nanosOfDigits (lastDigits 9 nano) = nano := by
    have nine := length_lastDigits 9 nano
    rw [nanosOfDigits, List.take_append_of_le_length (Nat.le_of_eq nine.symm),
      List.take_of_length_le (Nat.le_of_eq nine), foldl_lastDigits small, Nat.zero_mul,
      Nat.zero_add]
  rw [decimals, bind_get]
  simp only [taken, left, values, nanos, List.append_eq_nil_iff, some, false_and,
    if_false]
  rfl

/-- A leap second is written as second 60 and lies behind second 59. -/
theorem time_written {hour minute second nano leap : Nat} (hours : hour < 24)
    (minutes : minute < 60) (seconds : second < 60) (small : nano < 10 ^ 9)
    (atEnd : leap = 0 ∨ leap = 1 ∧ second = 59) (rest : Bytes) :
    time ((lastDigits 2 hour).map digitByte ++ 0x3a :: ((lastDigits 2 minute).map digitByte ++
        0x3a :: ((lastDigits 2 (second + leap)).map digitByte ++
          0x2e :: ((lastDigits 9 nano).map digitByte ++ 0x5a :: rest)))) =
      .ok ((3600 * hour + 60 * minute + second, nano + leap * Instant.nanosPerSecond),
        0x5a :: rest) := by
  unfold time
  rw [bind_of_ok (number_lastDigits (by omega) _), bind_of_ok (oneOf_cons rfl _ _),
    bind_of_ok (number_lastDigits (by omega) _), bind_of_ok (oneOf_cons rfl _ _),
    bind_of_ok (number_lastDigits (by omega) _), bind_of_ok (decimals_written small rest),
    if_pos (by omega)]
  have carried : (second + leap) / 60 = leap := by omega
  simp only [carried, Nat.add_sub_cancel]
  rfl

end Reader

/-- The parts of the text in the order of writing. -/
def written (date : Calendar.Date) (year hour minute second nano : Nat) : Bytes :=
  (lastDigits 4 year).map digitByte ++ 0x2d :: ((lastDigits 2 date.month).map digitByte ++
    0x2d :: ((lastDigits 2 date.day).map digitByte ++ 0x54 ::
      ((lastDigits 2 hour).map digitByte ++ 0x3a :: ((lastDigits 2 minute).map digitByte ++
        0x3a :: ((lastDigits 2 second).map digitByte ++
          0x2e :: ((lastDigits 9 nano).map digitByte ++ [0x5a]))))))

theorem length_written (date : Calendar.Date) (year hour minute second nano : Nat) :
    (written date year hour minute second nano).length = 30 := by
  simp [written, length_lastDigits]

private theorem Reader.instant_written {date : Calendar.Date} (valid : date.isValid = true)
    {year : Nat}
    (small : year < 10000) (same : date.year = year) {daytime nano leap : Nat}
    (inside : daytime < 86400) (nanos : nano < 10 ^ 9)
    (atEnd : leap = 0 ∨ leap = 1 ∧ daytime % 60 = 59) :
    Reader.instant (written date year (daytime / 3600) (daytime / 60 % 60) (daytime % 60 + leap)
        nano) =
      .ok (⟨Calendar.dayNumber date * secondsPerDay + daytime,
        nano + leap * Instant.nanosPerSecond⟩, []) := by
  have zulu : Reader.offset [0x5a] = .ok (0, []) := rfl
  have total : 3600 * (daytime / 3600) + 60 * (daytime / 60 % 60) + daytime % 60 = daytime := by
    omega
  unfold written Reader.instant
  rw [bind_of_ok (date_written valid small same _), bind_of_ok (oneOf_cons rfl _ _),
    bind_of_ok (time_written (by omega) (by omega) (by omega) nanos atEnd []), total]
  dsimp only
  rw [bind_of_ok zulu, bind_get, if_neg (by simp), if_pos (by decide), Int.sub_zero]
  rfl

private theorem leap_of_valid {instant : Instant} (valid : instant.Valid) :
    instant.nano / Instant.nanosPerSecond = 0 ∨
      instant.nano / Instant.nanosPerSecond = 1 ∧
        (instant.second % secondsPerDay).toNat % 60 = 59 := by
  unfold Instant.Valid Instant.nanosPerSecond at *
  unfold secondsPerDay
  omega

theorem ofText_text {instant : Instant} (writable : instant.Writable) :
    Bytes.ofText (text instant) =
      written (Calendar.dateOfDay (instant.second / secondsPerDay)) instant.year.toNat
        ((instant.second % secondsPerDay).toNat / 3600)
        ((instant.second % secondsPerDay).toNat / 60 % 60)
        ((instant.second % secondsPerDay).toNat % 60 + instant.nano / Instant.nanosPerSecond)
        (instant.nano % Instant.nanosPerSecond) := by
  obtain ⟨valid, year⟩ := writable
  obtain ⟨dated, -⟩ := Calendar.dateOfDay_spec (instant.second / secondsPerDay)
  obtain ⟨month, day⟩ := Calendar.Date.isValid_bounds dated
  have leap := leap_of_valid valid
  have daytime : (instant.second % secondsPerDay).toNat < 86400 := by
    unfold secondsPerDay
    omega
  have marks : Bytes.ofText "-" = [0x2d] ∧ Bytes.ofText "T" = [0x54] ∧
      Bytes.ofText ":" = [0x3a] ∧ Bytes.ofText "." = [0x2e] ∧ Bytes.ofText "Z" = [0x5a] := by
    decide
  obtain ⟨dash, tee, colon, point, zulu⟩ := marks
  have nanos : instant.nano % Instant.nanosPerSecond < 10 ^ 9 :=
    Nat.mod_lt _ (by decide)
  have four : (Calendar.dateOfDay (instant.second / secondsPerDay)).year.toNat < 10 ^ 4 := by
    unfold Instant.year at year
    omega
  unfold Instant.year at year
  simp only [text, yearText, if_pos year, Bytes.ofText_append, dash, tee, colon, point, zulu]
  have two : ∀ value < 100,
      Bytes.ofText (padded 10 2 value) = (lastDigits 2 value).map digitByte :=
    fun value bound => ofText_padded bound
  rw [ofText_padded four, two _ (by omega), two _ (by omega), two _ (by omega), two _ (by omega),
    two _ (by omega), ofText_padded nanos]
  simp only [written, List.append_assoc, List.cons_append, List.nil_append]
  rfl

theorem parse_text {instant : Instant} (writable : instant.Writable) :
    parse (text instant) = .ok instant := by
  have bytes := ofText_text writable
  obtain ⟨valid, early, late⟩ := writable
  obtain ⟨dated, day⟩ := Calendar.dateOfDay_spec (instant.second / secondsPerDay)
  have leap := leap_of_valid valid
  have daytime : (instant.second % secondsPerDay).toNat < 86400 := by
    unfold secondsPerDay
    omega
  have nanos : instant.nano % Instant.nanosPerSecond < 10 ^ 9 := Nat.mod_lt _ (by decide)
  have year : (Calendar.dateOfDay (instant.second / secondsPerDay)).year = instant.year.toNat := by
    unfold Instant.year at *
    omega
  have second : instant.second / secondsPerDay * secondsPerDay +
      (instant.second % secondsPerDay).toNat = instant.second := by
    unfold secondsPerDay
    omega
  have read := Reader.instant_written dated (by omega) year daytime nanos leap
  rw [day, second, Nat.mod_add_div'] at read
  simp only [parse, bytes, length_written]
  rw [if_neg (by decide), StateT.run, read]
  rfl

end Timestamp

end ClusterRegistry
