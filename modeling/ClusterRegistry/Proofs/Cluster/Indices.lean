import ClusterRegistry.Proofs.Cluster.Sequence

/-!
Lists in buckets, as they are found there.  With a length, a list has an entry under every index
below it and nothing under any index from there on, or it is refused; without one it ends at the
first index that has no entry.  What is read of a list has exactly this length, and each item of it
is what is stored under its index, however the keys are ordered as bytes.
-/
namespace ClusterRegistry.Layout

open Numeral

section Gap

variable {isPresent : Nat → Bool}

private theorem firstGap_le (isPresent : Nat → Bool) (bound index : Nat) :
    firstGap isPresent bound index ≤ index + bound := by
  induction bound generalizing index with
  | zero => exact Nat.le_refl _
  | succ bound ih =>
    rw [firstGap]
    split
    · have further := ih (index + 1)
      omega
    · omega

private theorem present_of_lt_firstGap {bound index place : Nat} (start : index ≤ place)
    (before : place < firstGap isPresent bound index) : isPresent place = true := by
  induction bound generalizing index with
  | zero =>
    rw [firstGap] at before
    omega
  | succ bound ih =>
    rw [firstGap] at before
    split at before
    · rename_i here
      rcases Nat.eq_or_lt_of_le start with same | later
      · exact same ▸ here
      · exact ih later before
    · omega

private theorem absent_at_firstGap {bound index : Nat}
    (inside : firstGap isPresent bound index < index + bound) :
    isPresent (firstGap isPresent bound index) = false := by
  induction bound generalizing index with
  | zero =>
    rw [firstGap] at inside
    omega
  | succ bound ih =>
    rw [firstGap] at inside ⊢
    split at inside
    · rename_i here
      rw [if_pos here]
      exact ih (by omega)
    · rename_i gone
      rw [if_neg gone]
      exact Bool.eq_false_iff.mpr gone

theorem firstGap_eq {bound gap : Nat} (present : ∀ index < gap, isPresent index = true)
    (absent : isPresent gap = false) (inside : gap ≤ bound) : firstGap isPresent bound 0 = gap := by
  have reached : gap ≤ firstGap isPresent bound 0 :=
    le_firstGap (fun index _ => present index) (by omega) (Nat.zero_le _)
  refine Nat.le_antisymm (Nat.le_of_not_lt fun beyond => ?_) reached
  rw [present_of_lt_firstGap (Nat.zero_le _) beyond] at absent
  contradiction

end Gap

private theorem readInteger_of_text {field text : String} {limit value : Nat} {raw : Bytes}
    (decoded : Bytes.text? raw = some text) (parsed : parse? 10 limit text = some value) :
    readInteger field limit raw = .ok value := by
  rw [readInteger, readText, decoded]
  simp only [bind, Except.bind, parsed]
  rfl

/-- What counts as an entry of a list: a field of a list of texts, a bucket of the list of
groups. -/
inductive EntryKind where
  | text
  | group

namespace EntryKind

def isPresent (kind : EntryKind) (items : Bucket) (key : Key) : Bool :=
  match kind with
  | text => (items.field? key).isSome
  | group => (items.child? key).isSome

def length (kind : EntryKind) (items : Bucket) : Except ClusterError Nat :=
  sequenceLength items (kind.isPresent items)

/-- The first index without an entry. -/
def gap (kind : EntryKind) (items : Bucket) : Nat :=
  firstGap (fun index => kind.isPresent items (indexKey index)) items.length 0

/-- The bucket is a list of `length` entries: it has all of them, and neither a field nor a bucket
under an index behind them. -/
structure Complete (kind : EntryKind) (items : Bucket) (length : Nat) : Prop where
  present : ∀ index < length, kind.isPresent items (indexKey index) = true
  ends : ∀ index, length ≤ index → index < wordLimit → items.item? (indexKey index) = none

/-- What a bucket lacks of a list of `length` entries, or has beyond it. -/
inductive Blames (kind : EntryKind) (items : Bucket) (length : Nat) : Malformed → Prop
  | missing {index : Nat} (before : index < length)
      (present : ∀ earlier < index, kind.isPresent items (indexKey earlier) = true)
      (absent : kind.isPresent items (indexKey index) = false) :
      Blames kind items length (.missingEntry index length)
  | unexpected {index : Nat}
      (present : ∀ each < length, kind.isPresent items (indexKey each) = true)
      (behind : length ≤ index) (bound : index < wordLimit)
      (there : (items.item? (indexKey index)).isSome) :
      Blames kind items length (.unexpectedEntry index length)

variable (kind : EntryKind) (items : Bucket)

private theorem isSome_item?_of_isPresent {kind : EntryKind} {items : Bucket} {key : Key}
    (present : kind.isPresent items key = true) : (items.item? key).isSome = true := by
  cases kind <;> unfold isPresent Bucket.field? Bucket.child? at present <;>
    cases found : items.item? key <;> simp_all

theorem present_of_lt_gap {index : Nat} (before : index < kind.gap items) :
    kind.isPresent items (indexKey index) = true := by
  rw [gap] at before
  exact present_of_lt_firstGap (Nat.zero_le _) before

theorem gap_le : kind.gap items ≤ items.length := by
  have bound := firstGap_le (fun index => kind.isPresent items (indexKey index)) items.length 0
  rwa [Nat.zero_add] at bound

/-- A bucket has no more indices than entries. -/
theorem absent_at_gap : kind.isPresent items (indexKey (kind.gap items)) = false := by
  by_cases inside : kind.gap items < items.length
  · exact absent_at_firstGap (by rwa [Nat.zero_add])
  · refine Bool.eq_false_iff.mpr fun present => ?_
    have all : ∀ index < kind.gap items + 1, (items.item? (indexKey index)).isSome = true := by
      intro index before
      rcases Nat.lt_succ_iff_lt_or_eq.mp before with earlier | last
      · exact isSome_item?_of_isPresent (kind.present_of_lt_gap items earlier)
      · exact isSome_item?_of_isPresent (last ▸ present)
    have fewer := length_le_of_present all
    omega

variable {items} {raw : Bytes} {text : String} {amount : Nat}

theorem length_of_uncounted (uncounted : field? items count = none) :
    kind.length items = .ok (kind.gap items) := by
  rw [length, sequenceLength, uncounted]
  rfl

private theorem length_of_counted (counted : field? items count = some raw)
    (decoded : Bytes.text? raw = some text) (parsed : parse? 10 wordLimit text = some amount) :
    kind.length items = checkLength items (kind.gap items) amount := by
  rw [length, sequenceLength, counted]
  dsimp only
  rw [readInteger_of_text decoded parsed]
  rfl

private theorem strayIndex?_eq_none : strayIndex? items amount = none ↔
    ∀ index, amount ≤ index → index < wordLimit → items.item? (indexKey index) = none := by
  rw [strayIndex?, List.findSome?_eq_none_iff]
  constructor
  · intro free index behind bound
    cases found : items.item? (indexKey index) with
    | none => rfl
    | some item =>
      have none := free _ (OrderedMap.mem_of_find? found)
      rw [index?_indexKey bound, Option.filter_some, if_pos (decide_eq_true behind)] at none
      contradiction
  · intro free entry member
    cases read : index? entry.1 with
    | none => rfl
    | some index =>
      obtain ⟨same, bound⟩ := eq_indexKey_of_index? read
      have before : ¬amount ≤ index := by
        intro behind
        have absent := free index behind bound
        rw [← same] at absent
        exact OrderedMap.absent_of_find? absent entry member rfl
      simpa using before

private theorem strayIndex?_eq_some {index : Nat} (stray : strayIndex? items amount = some index) :
    amount ≤ index ∧ index < wordLimit ∧ (items.item? (indexKey index)).isSome = true := by
  obtain ⟨entry, member, found⟩ := List.exists_of_findSome?_eq_some stray
  obtain ⟨read, behind⟩ := Option.filter_eq_some_iff.mp found
  obtain ⟨same, bound⟩ := eq_indexKey_of_index? read
  refine ⟨of_decide_eq_true behind, bound, ?_⟩
  rw [← same, Option.isSome_iff_ne_none]
  intro absent
  exact OrderedMap.absent_of_find? absent entry member rfl

private theorem le_gap (present : ∀ index < amount, kind.isPresent items (indexKey index) = true) :
    amount ≤ kind.gap items := by
  refine Nat.le_of_not_lt fun before => ?_
  have absent := kind.absent_at_gap items
  rw [present _ before] at absent
  contradiction

private theorem checkLength_of_complete (complete : kind.Complete items amount) :
    checkLength items (kind.gap items) amount = .ok amount := by
  rw [checkLength, if_neg (Nat.not_lt.mpr (kind.le_gap complete.present)),
    strayIndex?_eq_none.mpr complete.ends]

private theorem checkLength_of_not_complete (incomplete : ¬kind.Complete items amount) :
    ∃ cause, checkLength items (kind.gap items) amount = .error (.malformed cause) ∧
      kind.Blames items amount cause := by
  unfold checkLength
  split
  · rename_i before
    exact ⟨_, rfl, .missing before (fun _ => kind.present_of_lt_gap items)
      (kind.absent_at_gap items)⟩
  · rename_i full
    have present : ∀ index < amount, kind.isPresent items (indexKey index) = true :=
      fun index before => kind.present_of_lt_gap items (by omega)
    cases stray : strayIndex? items amount with
    | none => exact absurd ⟨present, strayIndex?_eq_none.mp stray⟩ incomplete
    | some index =>
      obtain ⟨behind, bound, there⟩ := strayIndex?_eq_some stray
      exact ⟨_, rfl, .unexpected present behind bound there⟩

private theorem present_of_length (measured : kind.length items = .ok amount) {index : Nat}
    (before : index < amount) : kind.isPresent items (indexKey index) = true := by
  cases counted : field? items count with
  | none =>
    rw [kind.length_of_uncounted counted] at measured
    cases measured
    exact kind.present_of_lt_gap items before
  | some raw =>
    rw [length, sequenceLength, counted] at measured
    obtain ⟨claimed, _, checked⟩ := Outcome.bind_eq_ok.mp measured
    unfold checkLength at checked
    split at checked
    · contradiction
    · rename_i full
      split at checked
      · contradiction
      · cases checked
        have reached : amount ≤ kind.gap items := Nat.le_of_not_lt full
        exact kind.present_of_lt_gap items (by omega)

theorem length_le (measured : kind.length items = .ok amount) : amount ≤ items.length :=
  Nat.le_trans (kind.le_gap fun _ before => kind.present_of_length measured before)
    (kind.gap_le items)

end EntryKind

section Items

variable {bucket items : Bucket} {name : String}

theorem readText_eq_ok {field text : String} {raw : Bytes} :
    readText field raw = .ok text ↔ raw = Bytes.ofText text := by
  rw [readText]
  constructor
  · intro read
    split at read
    · rename_i decoded
      cases read
      exact (Bytes.ofText_of_text? decoded).symm
    · contradiction
  · intro same
    rw [same, Bytes.text?_ofText]

/-- Each item is read from the entry under its index, and there are as many items as the list is
long. -/
theorem mapM_entries_eq_ok {α β : Type} {kind : EntryKind} {length : Nat}
    (stored : Nat → Option α) (default : α) (read : Nat → α → Except ClusterError β)
    (results : List β) (measured : kind.length items = .ok length)
    (same : ∀ index, kind.isPresent items (indexKey index) = (stored index).isSome) :
    (List.range length).mapM (fun index => read index ((stored index).getD default)) = .ok results ↔
      results.length = length ∧ ∀ index result, results[index]? = some result →
        ∃ entry, stored index = some entry ∧ read index entry = .ok result := by
  rw [Outcome.mapM_range_eq_ok]
  refine and_congr_right fun size => forall_congr' fun index => forall_congr' fun result =>
    forall_congr' fun found => ?_
  have before : index < length := by
    obtain ⟨inside, _⟩ := List.getElem?_eq_some_iff.mp found
    omega
  have present := kind.present_of_length measured before
  rw [same] at present
  obtain ⟨entry, there⟩ := Option.isSome_iff_exists.mp present
  simp [there]

theorem readTexts_eq_ok {texts : List String} (found : child? bucket name = some items) :
    readTexts bucket name = .ok texts ↔ EntryKind.text.length items = .ok texts.length ∧
      ∀ index text, texts[index]? = some text →
        items.field? (indexKey index) = some (Bytes.ofText text) := by
  have readable {length : Nat} (measured : EntryKind.text.length items = .ok length) :=
    mapM_entries_eq_ok (fun index => items.field? (indexKey index)) []
      (fun index => readText (toString index)) texts measured fun _ => rfl
  rw [readTexts, found]
  dsimp only
  rw [reporting, Outcome.mapError_eq_ok, Outcome.bind_eq_ok]
  constructor
  · intro given
    obtain ⟨length, measured, read⟩ := given
    obtain ⟨rfl, each⟩ := (readable measured).mp read
    refine ⟨measured, fun index text there => ?_⟩
    obtain ⟨raw, stored, decoded⟩ := each index text there
    rw [stored, readText_eq_ok.mp decoded]
  · intro given
    obtain ⟨measured, each⟩ := given
    refine ⟨_, measured, (readable measured).mpr ⟨rfl, fun index text there => ?_⟩⟩
    exact ⟨_, each index text there, readText_ofText _ text⟩

theorem readGroups_eq_ok {groups : List Group} (found : child? bucket definition = some items) :
    readGroups bucket = .ok groups ↔ EntryKind.group.length items = .ok groups.length ∧
      ∀ index group, groups[index]? = some group →
        ∃ entry, items.child? (indexKey index) = some entry ∧ readGroup entry = .ok group := by
  have readable {length : Nat} (measured : EntryKind.group.length items = .ok length) :=
    mapM_entries_eq_ok (fun index => items.child? (indexKey index)) []
      (fun index entry => reporting ("group " ++ toString index) (readGroup entry)) groups measured
      fun _ => rfl
  rw [readGroups, found]
  dsimp only
  rw [Outcome.bind_eq_ok]
  constructor
  · intro given
    obtain ⟨length, measured, read⟩ := given
    have measured := Outcome.mapError_eq_ok.mp measured
    obtain ⟨rfl, each⟩ := (readable measured).mp read
    refine ⟨measured, fun index group there => ?_⟩
    obtain ⟨entry, stored, decoded⟩ := each index group there
    exact ⟨entry, stored, Outcome.mapError_eq_ok.mp decoded⟩
  · intro given
    obtain ⟨measured, each⟩ := given
    refine ⟨_, Outcome.mapError_eq_ok.mpr measured, (readable measured).mpr ⟨rfl, ?_⟩⟩
    intro index group there
    obtain ⟨entry, stored, decoded⟩ := each index group there
    exact ⟨entry, stored, Outcome.mapError_eq_ok.mpr decoded⟩

end Items

/-- No list is cut short or put in another order.  Where the length of a list is told, it is
measured as that if the list is complete, and otherwise refused with what is missing first or is
beyond the end; where none is told, it is measured up to the first gap.  A list that is read is as
long as it is measured, and each of its items is the one that is stored under its index. -/
theorem lists_exact (items : Bucket) :
    (∀ kind : EntryKind,
      (∀ raw text length, field? items count = some raw → Bytes.text? raw = some text →
        parse? 10 wordLimit text = some length →
          (kind.Complete items length → kind.length items = .ok length) ∧
          (¬kind.Complete items length → ∃ cause,
            kind.length items = .error (.malformed cause) ∧ kind.Blames items length cause)) ∧
      (field? items count = none → ∃ length, kind.length items = .ok length ∧
        (∀ index < length, kind.isPresent items (indexKey index) = true) ∧
        kind.isPresent items (indexKey length) = false)) ∧
    (∀ bucket name texts, child? bucket name = some items →
      (readTexts bucket name = .ok texts ↔ EntryKind.text.length items = .ok texts.length ∧
        ∀ index text, texts[index]? = some text →
          items.field? (indexKey index) = some (Bytes.ofText text))) ∧
    (∀ bucket groups, child? bucket definition = some items →
      (readGroups bucket = .ok groups ↔ EntryKind.group.length items = .ok groups.length ∧
        ∀ index group, groups[index]? = some group →
          ∃ entry, items.child? (indexKey index) = some entry ∧ readGroup entry = .ok group)) := by
  refine ⟨fun kind => ⟨?_, ?_⟩, fun bucket name texts => readTexts_eq_ok,
    fun bucket groups => readGroups_eq_ok⟩
  · intro raw text length counted decoded parsed
    rw [kind.length_of_counted counted decoded parsed]
    exact ⟨kind.checkLength_of_complete, kind.checkLength_of_not_complete⟩
  · intro uncounted
    exact ⟨kind.gap items, kind.length_of_uncounted uncounted,
      fun _ => kind.present_of_lt_gap items, kind.absent_at_gap items⟩

/-- Eleven texts without a length, where the key of the last stands before that of the third; and
two texts whose length is told with a sign and a zero, beside a key that is no index, and with a
bucket far behind their end. -/
theorem lists_exact_of_eleven :
    let stored (index : Nat) : Key × Item :=
      (indexKey index, .value (Bytes.ofText (toString (100 + index))))
    let eleven : Bucket := [0, 1, 10, 2, 3, 4, 5, 6, 7, 8, 9].map stored
    let two : Bucket := [stored 0, (Bytes.ofText "07", .value []), stored 1,
      (indexKey 10, .bucket []), (Bytes.ofText count, .value (Bytes.ofText "+02"))]
    readTexts [(Bytes.ofText muxers, .bucket eleven)] muxers =
        .ok ["100", "101", "102", "103", "104", "105", "106", "107", "108", "109", "110"] ∧
      ∃ cause, EntryKind.text.length two = .error (.malformed cause) ∧
        EntryKind.text.Blames two 2 cause := by
  intro stored eleven two
  obtain ⟨_, texts, _⟩ := lists_exact eleven
  obtain ⟨kinds, _⟩ := lists_exact two
  constructor
  · have each : ∀ index < 11, eleven.field? (indexKey index) =
        ["100", "101", "102", "103", "104", "105", "106", "107", "108", "109", "110"][index]?.map
          Bytes.ofText := by decide +kernel
    refine (texts _ muxers _ rfl).mpr ⟨by decide +kernel, ?_⟩
    intro index text found
    obtain ⟨inside, _⟩ := List.getElem?_eq_some_iff.mp found
    rw [each index inside, found]
    rfl
  · have told := (kinds .text).1 (Bytes.ofText "+02") "+02" 2 (by decide +kernel)
      (Bytes.text?_ofText _) (by decide +kernel)
    refine told.2 fun complete => ?_
    have there : (two.item? (indexKey 10)).isSome = true := by decide +kernel
    rw [complete.ends 10 (by decide) (by decide)] at there
    contradiction

end ClusterRegistry.Layout
