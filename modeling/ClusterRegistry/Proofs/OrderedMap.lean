import ClusterRegistry.OrderedMap

/-!
Changes at the ends of an ascending map: a key above all others goes to the end, the last entry is
replaced in its place, and the first one is taken off.  Entries that are inserted one after another
are looked up before those that were there.  Two maps with related entries under the same keys stay
so when both are changed at one key.
-/
namespace ClusterRegistry.OrderedMap

variable {κ ν : Type} [LT κ] [DecidableLT κ] [DecidableEq κ]

omit [DecidableLT κ] [DecidableEq κ] in
theorem ordered_append {entries others : List (κ × ν)} :
    Ordered (entries ++ others) ↔ Ordered entries ∧ Ordered others ∧
      ∀ entry ∈ entries, ∀ other ∈ others, entry.1 < other.1 :=
  List.pairwise_append

theorem insert_above [Std.Asymm (α := κ) (· < ·)] (key : κ) (value : ν)
    {entries : List (κ × ν)} (above : ∀ entry ∈ entries, entry.1 < key) :
    insert key value entries = entries ++ [(key, value)] := by
  induction entries with
  | nil => rfl
  | cons entry rest ih =>
    obtain ⟨first, above⟩ := List.forall_mem_cons.mp above
    have notBelow : ¬key < entry.1 := Std.Asymm.asymm (r := fun a b : κ => a < b) _ _ first
    have differs : key ≠ entry.1 := by
      intro same
      subst same
      exact notBelow first
    rw [insert, if_neg notBelow, if_neg differs, ih above]
    rfl

theorem insert_last [Std.Asymm (α := κ) (· < ·)] (key : κ) (value old : ν)
    {entries : List (κ × ν)} (ordered : Ordered (entries ++ [(key, old)])) :
    insert key value (entries ++ [(key, old)]) = entries ++ [(key, value)] := by
  induction entries with
  | nil =>
    have irrefl : ¬key < key := fun below =>
      Std.Asymm.asymm (r := fun a b : κ => a < b) _ _ below below
    simp [insert, irrefl]
  | cons entry rest ih =>
    obtain ⟨first, ordered⟩ := List.pairwise_cons.mp ordered
    have below : entry.1 < key := first (key, old) (List.mem_append_right _ List.mem_cons_self)
    have notBelow : ¬key < entry.1 := Std.Asymm.asymm (r := fun a b : κ => a < b) _ _ below
    have differs : key ≠ entry.1 := by
      intro same
      subst same
      exact notBelow below
    rw [List.cons_append, insert, if_neg notBelow, if_neg differs, ih ordered]
    rfl

omit [DecidableLT κ] in
theorem erase_first [Std.Asymm (α := κ) (· < ·)] (key : κ) (value : ν) {rest : List (κ × ν)}
    (ordered : Ordered ((key, value) :: rest)) : erase key ((key, value) :: rest) = rest := by
  have below := (List.pairwise_cons.mp ordered).1
  unfold erase
  rw [List.filter_cons_of_neg (by simp), List.filter_eq_self]
  intro entry member
  have first : key < entry.1 := below entry member
  have differs : entry.1 ≠ key := by
    intro same
    rw [same] at first
    exact Std.Asymm.asymm (r := fun a b : κ => a < b) _ _ first first
  simpa using differs

theorem isEmpty_insert (key : κ) (value : ν) (entries : List (κ × ν)) :
    (insert key value entries).isEmpty = false := by
  cases entries with
  | nil => rfl
  | cons entry rest =>
    unfold insert
    split
    · rfl
    · split <;> rfl

theorem insert_insert [Std.Asymm (α := κ) (· < ·)] (key : κ) (value old : ν)
    (entries : List (κ × ν)) : insert key value (insert key old entries) = insert key value entries := by
  have irrefl : ¬key < key := fun below =>
    Std.Asymm.asymm (r := fun a b : κ => a < b) _ _ below below
  induction entries with
  | nil => simp [insert, irrefl]
  | cons entry rest ih =>
    obtain ⟨k, v⟩ := entry
    by_cases below : key < k
    · simp [insert, below, irrefl]
    · by_cases same : key = k
      · subst same
        simp [insert, irrefl]
      · simp [insert, below, same, ih]

theorem insert_erase [Trans (α := κ) (· < ·) (· < ·) (· < ·)]
    [Std.Trichotomous (α := κ) (· < ·)] [Std.Asymm (α := κ) (· < ·)] (key : κ) (value : ν)
    {entries : List (κ × ν)} (ordered : Ordered entries) :
    insert key value (erase key entries) = insert key value entries := by
  apply ext_find? (ordered_insert key value (ordered_erase key ordered))
    (ordered_insert key value ordered)
  intro other
  rw [find?_insert, find?_insert, find?_erase]
  split <;> rfl

theorem insert_of_find? [Trans (α := κ) (· < ·) (· < ·) (· < ·)]
    [Std.Trichotomous (α := κ) (· < ·)] [Std.Asymm (α := κ) (· < ·)] {key : κ} {value : ν}
    {entries : List (κ × ν)} (ordered : Ordered entries) (found : find? key entries = some value) :
    insert key value entries = entries := by
  apply ext_find? (ordered_insert key value ordered) ordered
  intro other
  rw [find?_insert]
  split
  · rename_i same
    rw [same, found]
  · rfl

omit [DecidableLT κ] in
private theorem find?_of_below [Std.Irrefl (α := κ) (· < ·)] {key : κ} {rest : List (κ × ν)}
    (below : ∀ entry ∈ rest, key < entry.1) : find? key rest = none := by
  cases found : find? key rest with
  | none => rfl
  | some value =>
    have same := below _ (mem_of_find? found)
    exact absurd same (Std.Irrefl.irrefl (r := fun a b : κ => a < b) key)

def insertAll (entries : List (κ × ν)) (onto : List (κ × ν)) : List (κ × ν) :=
  entries.foldl (fun map entry => insert entry.1 entry.2 map) onto

omit [DecidableLT κ] [DecidableEq κ] in
theorem distinct_of_ordered [Std.Irrefl (α := κ) (· < ·)] {entries : List (κ × ν)}
    (ordered : Ordered entries) : entries.Pairwise fun entry later => entry.1 ≠ later.1 := by
  refine ordered.imp ?_
  intro entry later below same
  rw [same] at below
  exact Std.Irrefl.irrefl (r := fun a b : κ => a < b) _ below

omit [LT κ] [DecidableLT κ] in
theorem find?_of_absent {key : κ} {entries : List (κ × ν)}
    (absent : ∀ entry ∈ entries, key ≠ entry.1) : find? key entries = none := by
  cases found : find? key entries with
  | none => rfl
  | some value => exact absurd rfl (absent _ (mem_of_find? found))

omit [LT κ] [DecidableLT κ] in
theorem absent_of_find? {key : κ} {entries : List (κ × ν)} (none : find? key entries = none) :
    ∀ entry ∈ entries, key ≠ entry.1 := by
  induction entries with
  | nil => simp
  | cons entry rest ih =>
    obtain ⟨k, v⟩ := entry
    rw [find?] at none
    split at none
    · contradiction
    · rename_i differs
      exact List.forall_mem_cons.mpr ⟨differs, ih none⟩

omit [LT κ] [DecidableLT κ] in
theorem erase_of_find?_none {key : κ} {entries : List (κ × ν)} (absent : find? key entries = none) :
    erase key entries = entries := by
  induction entries with
  | nil => rfl
  | cons entry rest ih =>
    obtain ⟨k, v⟩ := entry
    rw [find?] at absent
    split at absent
    · contradiction
    · rename_i differs
      rw [erase, List.filter_cons_of_pos (by simpa using Ne.symm differs)]
      exact congrArg _ (ih absent)

theorem find?_insertAll (key : κ) {entries : List (κ × ν)}
    (distinct : entries.Pairwise fun entry later => entry.1 ≠ later.1) (onto : List (κ × ν)) :
    find? key (insertAll entries onto) = (find? key entries).or (find? key onto) := by
  induction entries generalizing onto with
  | nil => rfl
  | cons entry rest ih =>
    obtain ⟨k, v⟩ := entry
    obtain ⟨first, distinct⟩ := List.pairwise_cons.mp distinct
    change find? key (insertAll rest (insert k v onto)) = _
    rw [ih distinct, find?_insert, find?]
    by_cases same : key = k
    · subst same
      simp [find?_of_absent first]
    · simp [same]

theorem mem_insertAll {entries onto : List (κ × ν)} {entry : κ × ν}
    (member : entry ∈ insertAll entries onto) : entry ∈ entries ∨ entry ∈ onto := by
  induction entries generalizing onto with
  | nil => exact .inr member
  | cons first rest ih =>
    rcases ih member with later | here
    · exact .inl (List.mem_cons_of_mem _ later)
    · rcases mem_insert here with same | old
      · exact .inl (same ▸ List.mem_cons_self)
      · exact .inr old

theorem insertAll_above [Std.Asymm (α := κ) (· < ·)] {entries onto : List (κ × ν)}
    (ordered : Ordered (onto ++ entries)) : insertAll entries onto = onto ++ entries := by
  induction entries generalizing onto with
  | nil => rw [List.append_nil]; rfl
  | cons entry rest ih =>
    have above : ∀ other ∈ onto, other.1 < entry.1 := fun other member =>
      (ordered_append.mp ordered).2.2 other member entry List.mem_cons_self
    have inserted : insert entry.1 entry.2 onto = onto ++ [entry] :=
      insert_above entry.1 entry.2 above
    rw [List.append_cons, ← inserted] at ordered
    rw [List.append_cons, ← inserted]
    exact ih ordered

theorem ordered_insertAll [Trans (α := κ) (· < ·) (· < ·) (· < ·)]
    [Std.Trichotomous (α := κ) (· < ·)] (entries : List (κ × ν)) {onto : List (κ × ν)}
    (ordered : Ordered onto) : Ordered (insertAll entries onto) := by
  induction entries generalizing onto with
  | nil => exact ordered
  | cons entry rest ih => exact ih (ordered_insert entry.1 entry.2 ordered)

omit [DecidableLT κ] in
theorem find?_filter [Std.Irrefl (α := κ) (· < ·)] (key : κ) (keep : κ × ν → Bool)
    {entries : List (κ × ν)} (ordered : Ordered entries) :
    find? key (entries.filter keep) = (find? key entries).filter fun value => keep (key, value) := by
  induction entries with
  | nil => rfl
  | cons entry rest ih =>
    obtain ⟨k, v⟩ := entry
    obtain ⟨below, ordered⟩ := List.pairwise_cons.mp ordered
    have later := ih ordered
    by_cases same : key = k
    · subst same
      rw [find?_of_below below] at later
      by_cases kept : keep (key, v) <;> simp [find?, kept, later, Option.filter]
    · by_cases kept : keep (k, v) <;> simp [find?, kept, same, later]

section Aligned

variable {μ : Type} {related : κ → ν → μ → Prop} {entries : List (κ × ν)} {others : List (κ × μ)}

/-- Two maps with the same keys, and with related entries under each. -/
inductive Aligned (related : κ → ν → μ → Prop) : List (κ × ν) → List (κ × μ) → Prop
  | nil : Aligned related [] []
  | cons {key : κ} {value : ν} {other : μ} {entries : List (κ × ν)} {others : List (κ × μ)}
      (first : related key value other) (rest : Aligned related entries others) :
      Aligned related ((key, value) :: entries) ((key, other) :: others)

namespace Aligned

omit [LT κ] [DecidableLT κ] in
theorem find? (aligned : Aligned related entries others) (key : κ) :
    OrderedMap.find? key entries = none ∧ OrderedMap.find? key others = none ∨
      ∃ value other, OrderedMap.find? key entries = some value ∧
        OrderedMap.find? key others = some other ∧ related key value other := by
  induction aligned with
  | nil => exact .inl ⟨rfl, rfl⟩
  | @cons first value other entries others here _ ih =>
    by_cases same : key = first
    · subst same
      exact .inr ⟨value, other, if_pos rfl, if_pos rfl, here⟩
    · simpa only [OrderedMap.find?, if_neg same] using ih

theorem insert (aligned : Aligned related entries others) {key : κ} {value : ν} {other : μ}
    (here : related key value other) :
    Aligned related (OrderedMap.insert key value entries) (OrderedMap.insert key other others) := by
  induction aligned with
  | nil => exact .cons here .nil
  | @cons first old oldOther entries others head rest ih =>
    unfold OrderedMap.insert
    split
    · exact .cons here (.cons head rest)
    · split
      · exact .cons here rest
      · exact .cons head ih

omit [LT κ] [DecidableLT κ] in
theorem erase (aligned : Aligned related entries others) (key : κ) :
    Aligned related (OrderedMap.erase key entries) (OrderedMap.erase key others) := by
  induction aligned with
  | nil => exact .nil
  | @cons first value other entries others head rest ih =>
    unfold OrderedMap.erase at ih ⊢
    by_cases same : first = key
    · rw [List.filter_cons_of_neg (by simpa using same), List.filter_cons_of_neg (by simpa using same)]
      exact ih
    · rw [List.filter_cons_of_pos (by simpa using same), List.filter_cons_of_pos (by simpa using same)]
      exact .cons head ih

end Aligned

end Aligned

end ClusterRegistry.OrderedMap
