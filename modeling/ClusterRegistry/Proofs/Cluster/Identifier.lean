import Mathlib.Computability.RegularExpressions
import ClusterRegistry.Cluster
import ClusterRegistry.Proofs.Text.Numeral

/-!
The grammar of identifiers.  The test of an identifier goes through its bytes with one mark, whether
a run must begin; an identifier passes it exactly if its characters match the regular expression
`[A-Za-z0-9]+([._-][A-Za-z0-9]+)*`.
-/
namespace ClusterRegistry.Identifier

open scoped Computability

def alphanumerics : List Char :=
  "ABCDEFGHIJKLMNOPQRSTUVWXYZabcdefghijklmnopqrstuvwxyz0123456789".toList

def separators : List Char :=
  "._-".toList

def oneOf (members : List Char) : RegularExpression Char :=
  (members.map RegularExpression.char).sum

/-- One letter or digit, or more. -/
def run : RegularExpression Char :=
  oneOf alphanumerics * (oneOf alphanumerics).star

def grammar : RegularExpression Char :=
  run * (oneOf separators * run).star

/-- What may follow inside a run. -/
def continuation : RegularExpression Char :=
  (oneOf alphanumerics).star * (oneOf separators * run).star

section Bytes

/-- The bytes of a character that is not of ASCII are all above those of the characters that are. -/
theorem refused_of_high {byte : UInt8} (high : 128 ≤ byte.toNat) :
    isSeparator byte = false ∧ isAlphanumeric byte = false := by
  have all : ∀ value : Fin 256, 128 ≤ value.val →
      isSeparator (.ofNat value.val) = false ∧ isAlphanumeric (.ofNat value.val) = false := by
    decide +kernel
  have here := all ⟨byte.toNat, byte.toNat_lt⟩ high
  rwa [UInt8.ofNat_toNat] at here

private theorem high_of_encode {c : Char} (wide : 128 ≤ c.toNat) :
    ∃ first more, String.utf8EncodeChar c = first :: more ∧ 128 ≤ first.toNat := by
  unfold Char.toNat at wide
  unfold String.utf8EncodeChar
  dsimp only
  rw [if_neg (by omega)]
  split
  · exact ⟨_, _, rfl, by rw [UInt8.toNat_ofNat']; omega⟩
  · split
    · exact ⟨_, _, rfl, by rw [UInt8.toNat_ofNat']; omega⟩
    · exact ⟨_, _, rfl, by rw [UInt8.toNat_ofNat']; omega⟩

private theorem byte_of_ascii {c : Char} (ascii : c.toNat < 128) :
    isSeparator (.ofNat c.toNat) = decide (c ∈ separators) ∧
      isAlphanumeric (.ofNat c.toNat) = decide (c ∈ alphanumerics) := by
  have all : ∀ value : Fin 128,
      isSeparator (.ofNat value.val) = decide (Char.ofNat value.val ∈ separators) ∧
        isAlphanumeric (.ofNat value.val) = decide (Char.ofNat value.val ∈ alphanumerics) := by
    decide +kernel
  have here := all ⟨c.toNat, ascii⟩
  rwa [Char.ofNat_toNat] at here

private theorem ascii_of_mem {c : Char} (member : c ∈ separators ++ alphanumerics) :
    c.toNat < 128 := by
  have all : (separators ++ alphanumerics).all fun c => c.toNat < 128 := by decide +kernel
  exact of_decide_eq_true (List.all_eq_true.mp all c member)

/-- The test takes a character at a time, in however many bytes it comes. -/
theorem isWellFormed_encode (atStart : Bool) (c : Char) (rest : Bytes) :
    isWellFormed atStart (String.utf8EncodeChar c ++ rest) =
      if c ∈ separators then !atStart && isWellFormed true rest
      else decide (c ∈ alphanumerics) && isWellFormed false rest := by
  rcases Nat.lt_or_ge c.toNat 128 with ascii | wide
  · have single : String.utf8EncodeChar c = [.ofNat c.toNat] := by
      unfold String.utf8EncodeChar
      exact if_pos (Nat.le_of_lt_succ ascii)
    obtain ⟨separator, alphanumeric⟩ := byte_of_ascii ascii
    rw [single, List.singleton_append, isWellFormed, separator, alphanumeric]
    simp only [decide_eq_true_eq]
  · obtain ⟨first, more, encoded, high⟩ := high_of_encode wide
    obtain ⟨noSeparator, noAlphanumeric⟩ := refused_of_high high
    have outside (member : c ∈ separators ++ alphanumerics) : False :=
      Nat.not_lt.mpr wide (ascii_of_mem member)
    rw [encoded, List.cons_append, isWellFormed, noSeparator, noAlphanumeric,
      if_neg fun member => outside (List.mem_append_left _ member),
      decide_eq_false fun member => outside (List.mem_append_right _ member)]
    rfl

end Bytes

section Languages

private theorem mem_oneOf {members text : List Char} :
    text ∈ (oneOf members).matches' ↔ ∃ c ∈ members, text = [c] := by
  induction members with
  | nil => simp [oneOf]
  | cons first members ih =>
    change text ∈ ({[first]} : Language Char) + (oneOf members).matches' ↔ _
    rw [Language.mem_add, ih, List.exists_mem_cons_iff]
    rfl

/-- A text that begins with one of some characters has it in front. -/
theorem cons_mem_oneOf_mul {members : List Char} {language : Language Char} {c : Char}
    {text : List Char} :
    c :: text ∈ (oneOf members).matches' * language ↔ c ∈ members ∧ text ∈ language := by
  rw [Language.mem_mul]
  constructor
  · intro given
    obtain ⟨front, one, back, member, joined⟩ := given
    obtain ⟨first, inside, rfl⟩ := mem_oneOf.mp one
    cases joined
    exact ⟨inside, member⟩
  · intro given
    obtain ⟨inside, member⟩ := given
    exact ⟨[c], mem_oneOf.mpr ⟨c, inside, rfl⟩, text, member, rfl⟩

private theorem nil_not_mem_oneOf_mul {members : List Char} {language : Language Char} :
    [] ∉ (oneOf members).matches' * language := by
  rw [Language.mem_mul]
  intro given
  obtain ⟨front, one, back, member, joined⟩ := given
  obtain ⟨first, inside, rfl⟩ := mem_oneOf.mp one
  contradiction

/-- An identifier is a letter or digit with a continuation behind it. -/
theorem matches'_grammar :
    grammar.matches' = (oneOf alphanumerics).matches' * continuation.matches' := by
  simp only [grammar, run, continuation, RegularExpression.matches'_mul, mul_assoc]

/-- A continuation is empty, or a separator before an identifier, or a letter or digit before
another continuation. -/
theorem matches'_continuation :
    continuation.matches' = 1 + (oneOf separators).matches' * grammar.matches' +
      (oneOf alphanumerics).matches' * continuation.matches' := by
  have unfolded (language : Language Char) : language∗ = 1 + language * language∗ :=
    (Language.one_add_self_mul_kstar_eq_kstar language).symm
  simp only [grammar, run, continuation, RegularExpression.matches'_mul,
    RegularExpression.matches'_star]
  generalize (oneOf alphanumerics).matches' = letter, (oneOf separators).matches' = mark
  generalize joined : (mark * (letter * letter∗))∗ = others
  have more : others = 1 + mark * (letter * letter∗ * others) := by
    rw [← joined]
    conv_lhs => rw [unfolded, joined]
    rw [joined, mul_assoc]
  calc
    letter∗ * others = (1 + letter * letter∗) * others := by rw [← unfolded]
    _ = others + letter * (letter∗ * others) := by rw [add_mul, one_mul, mul_assoc]
    _ = _ := by rw [← more]

private theorem nil_mem_continuation : [] ∈ continuation.matches' := by
  rw [matches'_continuation, Language.mem_add, Language.mem_add]
  exact .inl (.inl Language.nil_mem_one)

private theorem cons_mem_continuation {c : Char} {text : List Char} :
    c :: text ∈ continuation.matches' ↔
      c ∈ separators ∧ text ∈ grammar.matches' ∨ c ∈ alphanumerics ∧ text ∈ continuation.matches' := by
  conv_lhs => rw [matches'_continuation]
  rw [Language.mem_add, Language.mem_add, cons_mem_oneOf_mul, cons_mem_oneOf_mul, Language.mem_one]
  simp

end Languages

private theorem not_alphanumeric_of_separator {c : Char} (separator : c ∈ separators) :
    c ∉ alphanumerics := by
  have all : separators.all fun c => c ∉ alphanumerics := by decide +kernel
  exact of_decide_eq_true (List.all_eq_true.mp all c separator)

/-- The mark tells which of two expressions the rest of the text has to match. -/
theorem isWellFormed_ofList (text : List Char) :
    (isWellFormed true (Bytes.ofText (.ofList text)) = true ↔ text ∈ grammar.matches') ∧
      (isWellFormed false (Bytes.ofText (.ofList text)) = true ↔
        text ∈ continuation.matches') := by
  simp only [Numeral.ofText_ofList]
  induction text with
  | nil =>
    rw [matches'_grammar]
    simp [isWellFormed, nil_not_mem_oneOf_mul, nil_mem_continuation]
  | cons c text ih =>
    rw [List.flatMap_cons, isWellFormed_encode, isWellFormed_encode, matches'_grammar,
      cons_mem_oneOf_mul, cons_mem_continuation]
    by_cases separator : c ∈ separators
    · simp [separator, not_alphanumeric_of_separator separator, ih]
    · simp [separator, ih]

private theorem isWellFormed_iff (id : String) :
    isWellFormed true (Bytes.ofText id) = true ↔ id.toList ∈ grammar.matches' := by
  have tested := (isWellFormed_ofList id.toList).1
  rwa [String.ofList_toList] at tested

private theorem ne_empty_of_matches {id : String} (matched : id.toList ∈ grammar.matches') :
    id ≠ "" := by
  rintro rfl
  rw [matches'_grammar] at matched
  exact nil_not_mem_oneOf_mul matched

theorem validate_eq_ok {id : String} : validate id = .ok () ↔
    id.utf8ByteSize ≤ maxIdentifierLength ∧ id.toList ∈ grammar.matches' := by
  rw [← isWellFormed_iff, validate]
  constructor
  · intro accepted
    split at accepted
    · contradiction
    · split at accepted
      · contradiction
      · rename_i short
        split at accepted
        · rename_i wellFormed
          exact ⟨Nat.le_of_not_lt short, wellFormed⟩
        · contradiction
  · intro given
    obtain ⟨short, wellFormed⟩ := given
    rw [if_neg (ne_empty_of_matches ((isWellFormed_iff id).mp wellFormed)),
      if_neg (Nat.not_lt.mpr short), if_pos wellFormed]

theorem short_of_validate {id : String} (valid : validate id = .ok ()) :
    (Bytes.ofText id).length ≤ maxIdentifierLength := by
  simpa [Bytes.ofText] using (validate_eq_ok.mp valid).1

theorem ne_empty_of_validate {id : String} (valid : validate id = .ok ()) : id ≠ "" :=
  ne_empty_of_matches (validate_eq_ok.mp valid).2

/-- Whatever is wrong with an identifier, it is an argument that is. -/
theorem validate_eq_error {id : String} {error : ClusterError} (refused : validate id = .error error) :
    ∃ cause, error = .invalidArgument cause := by
  unfold validate at refused
  split at refused
  · exact ⟨_, (Except.error.inj refused).symm⟩
  · split at refused
    · exact ⟨_, (Except.error.inj refused).symm⟩
    · split at refused
      · contradiction
      · exact ⟨_, (Except.error.inj refused).symm⟩

/-- A text is accepted exactly if it has at most 76 bytes and matches the grammar, and any other is
an invalid argument. -/
theorem validate_exact (id : String) :
    (validate id = .ok () ↔ id.utf8ByteSize ≤ 76 ∧ id.toList ∈ grammar.matches') ∧
      ((∃ cause, validate id = .error (.invalidArgument cause)) ↔
        ¬(id.utf8ByteSize ≤ 76 ∧ id.toList ∈ grammar.matches')) := by
  have accepted : validate id = .ok () ↔ id.utf8ByteSize ≤ 76 ∧ id.toList ∈ grammar.matches' :=
    validate_eq_ok
  refine ⟨accepted, ?_⟩
  rw [← accepted]
  cases outcome : validate id with
  | ok value => simp
  | error error =>
    obtain ⟨cause, rfl⟩ := validate_eq_error outcome
    simp

/-- Seventy-eight bytes in thirty-nine characters. -/
example :
    let id := String.ofList (List.replicate 39 'ü')
    validate id = .error (.invalidArgument (.longIdentifier id)) := by decide +kernel

end ClusterRegistry.Identifier
