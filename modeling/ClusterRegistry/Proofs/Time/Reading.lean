import ClusterRegistry.Proofs.Outcome
import ClusterRegistry.Proofs.Time.Timestamp

/-!
What is read from a timestamp.  Whatever text is accepted, with any offset and any number of
decimals, the instant lies on the UTC scale: its nanoseconds run past a whole second only in a leap
second at the end of a minute.  So one whose year has four digits can be written again.
-/
namespace ClusterRegistry

namespace Instant

def HasPlainYear (instant : Instant) : Prop :=
  0 ≤ instant.year ∧ instant.year ≤ 9999

instance HasPlainYear.decidable (instant : Instant) : Decidable instant.HasPlainYear :=
  inferInstanceAs (Decidable (_ ∧ _))

end Instant

namespace Timestamp

namespace Reader

variable {α β : Type} {input rest : Bytes}

theorem bind_eq_ok {first : Reader α} {next : α → Reader β} {value : β} :
    (first >>= next) input = .ok (value, rest) ↔ ∃ middle between,
      first input = .ok (middle, between) ∧ next middle between = .ok (value, rest) := by
  change (first input >>= fun outcome => next outcome.1 outcome.2) = _ ↔ _
  rw [Outcome.bind_eq_ok, Prod.exists]

private theorem digit?_lt {byte : UInt8} {digit : Nat} (read : digit? byte = some digit) :
    digit < 10 := by
  unfold digit? at read
  split at read
  · rename_i decimal
    cases read
    have high := UInt8.le_iff_toNat_le.mp decimal.2
    change byte.toNat ≤ 57 at high
    omega
  · contradiction

private theorem foldl_digits_lt {digits : List Nat} (small : ∀ digit ∈ digits, digit < 10)
    (front : Nat) :
    digits.foldl (fun value digit => 10 * value + digit) front <
      (front + 1) * 10 ^ digits.length := by
  induction digits generalizing front with
  | nil => simp
  | cons digit digits ih =>
    obtain ⟨first, small⟩ := List.forall_mem_cons.mp small
    have later := ih small (10 * front + digit)
    have wider : (10 * front + digit + 1) * 10 ^ digits.length ≤
        (front + 1) * 10 ^ (digits.length + 1) := by
      rw [Nat.pow_succ', ← Nat.mul_assoc]
      exact Nat.mul_le_mul_right _ (by omega)
    exact Nat.lt_of_lt_of_le later wider

private theorem nanosOfDigits_lt {digits : List Nat} (small : ∀ digit ∈ digits, digit < 10) :
    nanosOfDigits digits < Instant.nanosPerSecond := by
  have padded : ∀ digit ∈ (digits ++ List.replicate 9 0).take 9, digit < 10 := by
    intro digit member
    rcases List.mem_append.mp (List.mem_of_mem_take member) with here | zero
    · exact small digit here
    · rw [(List.mem_replicate.mp zero).2]
      omega
  have bound := foldl_digits_lt padded 0
  have nine : ((digits ++ List.replicate 9 0).take 9).length = 9 := by simp
  rw [nine] at bound
  exact bound

private theorem decimals_lt {nano : Nat} (read : decimals input = .ok (nano, rest)) :
    nano < Instant.nanosPerSecond := by
  unfold decimals at read
  rw [bind_get] at read
  split at read
  · dsimp only at read
    split at read
    · contradiction
    · split at read
      · contradiction
      · cases read
        apply nanosOfDigits_lt
        intro digit member
        obtain ⟨byte, _, digit?⟩ := List.mem_filterMap.mp member
        exact digit?_lt digit?
  · cases read
    decide

/-- Second 60 is read as the one before it. -/
theorem time_leap {second nano : Nat} (read : time input = .ok ((second, nano), rest)) :
    nano < Instant.nanosPerSecond ∨ nano < 2 * Instant.nanosPerSecond ∧ second % 60 = 59 := by
  unfold time at read
  obtain ⟨hour, _, _, read⟩ := bind_eq_ok.mp read
  obtain ⟨_, _, _, read⟩ := bind_eq_ok.mp read
  obtain ⟨minute, _, _, read⟩ := bind_eq_ok.mp read
  obtain ⟨_, _, _, read⟩ := bind_eq_ok.mp read
  obtain ⟨last, _, _, read⟩ := bind_eq_ok.mp read
  obtain ⟨fraction, _, decimal, read⟩ := bind_eq_ok.mp read
  have small := decimals_lt decimal
  split at read
  · rename_i clock
    cases read
    have leap : last / 60 = 0 ∨ last / 60 = 1 ∧ last = 60 := by omega
    rcases leap with none | ⟨one, rfl⟩
    · rw [none, Nat.zero_mul]
      exact .inl small
    · rw [one]
      refine .inr ⟨?_, ?_⟩ <;> omega
  · contradiction

private theorem offset_minutes {shift : Int} (read : offset input = .ok (shift, rest)) :
    shift % 60 = 0 := by
  have signed : ∀ (sign : Int) (bytes : Bytes),
      (do
        set bytes
        let hour ← offsetHour
        oneOf colon .tooShort
        let minute ← offsetMinute
        return sign * (3600 * hour + 60 * minute) : Reader Int) input = .ok (shift, rest) →
      shift % 60 = 0 := by
    intro sign bytes read
    obtain ⟨_, _, _, read⟩ := bind_eq_ok.mp read
    obtain ⟨hour, _, _, read⟩ := bind_eq_ok.mp read
    obtain ⟨_, _, _, read⟩ := bind_eq_ok.mp read
    obtain ⟨minute, _, _, read⟩ := bind_eq_ok.mp read
    cases read
    have whole : (3600 * hour + 60 * minute : Int) = 60 * (60 * hour + minute) := by omega
    rw [whole, Int.mul_left_comm]
    exact Int.mul_emod_right _ _
  unfold offset at read
  rw [bind_get] at read
  dsimp only at read
  split at read
  · cases read
    rfl
  · cases read
    rfl
  · exact signed _ _ read
  · exact signed _ _ read
  · exact signed _ _ read
  · contradiction
  · contradiction

private theorem instant_valid {instant : Instant}
    (read : Reader.instant input = .ok (instant, rest)) :
    instant.Valid := by
  unfold Reader.instant at read
  obtain ⟨date, _, _, read⟩ := bind_eq_ok.mp read
  obtain ⟨_, _, _, read⟩ := bind_eq_ok.mp read
  obtain ⟨⟨second, nano⟩, _, timed, read⟩ := bind_eq_ok.mp read
  obtain ⟨shift, _, shifted, read⟩ := bind_eq_ok.mp read
  have leap := time_leap timed
  have whole := offset_minutes shifted
  rw [bind_get] at read
  split at read
  · contradiction
  · split at read
    · cases read
      refine leap.imp_right fun late => ⟨late.1, ?_⟩
      have last := late.2
      unfold secondsPerDay
      dsimp only
      omega
    · contradiction

end Reader

theorem valid_of_parse {text : String} {instant : Instant} (read : parse text = .ok instant) :
    instant.Valid := by
  unfold parse at read
  dsimp only at read
  split at read
  · contradiction
  · rcases done : Reader.instant.run (Bytes.ofText text) with fault | ⟨found, rest⟩
    · rw [done] at read
      contradiction
    · rw [done] at read
      cases read
      exact Reader.instant_valid done

theorem writable_of_parse {text : String} {instant : Instant} (read : parse text = .ok instant)
    (plain : instant.HasPlainYear) : instant.Writable :=
  ⟨valid_of_parse read, plain⟩

end Timestamp

end ClusterRegistry
