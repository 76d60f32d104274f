/-!
Finite maps as lists of pairs with strictly ascending keys.  The lists themselves are the view:
two such lists are equal exactly when their look-ups agree.
-/
namespace ClusterRegistry.OrderedMap

variable {κ ν : Type} [LT κ] [DecidableLT κ] [DecidableEq κ]

def find? (key : κ) : List (κ × ν) → Option ν
  | [] => none
  | (k, value) :: rest => if key = k then some value else find? key rest

/-- Keeps ascending keys; an entry under the same key is replaced. -/
def insert (key : κ) (value : ν) : List (κ × ν) → List (κ × ν)
  | [] => [(key, value)]
  | (k, v) :: rest =>
    if key < k then (key, value) :: (k, v) :: rest
    else if key = k then (key, value) :: rest
    else (k, v) :: insert key value rest

def erase (key : κ) (entries : List (κ × ν)) : List (κ × ν) :=
  entries.filter fun entry => entry.1 ≠ key

/-- Every key is below all that follow it, so no key occurs twice. -/
def Ordered (entries : List (κ × ν)) : Prop :=
  entries.Pairwise fun entry later => entry.1 < later.1

theorem find?_insert (key other : κ) (value : ν) (entries : List (κ × ν)) :
    find? other (insert key value entries) =
      if other = key then some value else find? other entries := by
  induction entries with
  | nil => rfl
  | cons entry rest ih =>
    obtain ⟨k, v⟩ := entry
    by_cases below : key < k
    · simp [insert, below, find?]
    · by_cases same : key = k
      · subst same
        by_cases hit : other = key <;> simp [insert, below, find?, hit]
      · by_cases hit : other = k
        · subst hit
          simp [insert, below, same, find?, Ne.symm same]
        · simp [insert, below, same, find?, hit, ih]

omit [LT κ] [DecidableLT κ] in
theorem find?_erase (key other : κ) (entries : List (κ × ν)) :
    find? other (erase key entries) = if other = key then none else find? other entries := by
  induction entries with
  | nil => simp [erase, find?]
  | cons entry rest ih =>
    obtain ⟨k, v⟩ := entry
    by_cases same : k = key
    · subst same
      by_cases hit : other = k <;> simp_all [erase, find?]
    · by_cases hit : other = k
      · subst hit
        simp [erase, same, find?]
      · simp_all [erase, find?]

theorem mem_insert {key : κ} {value : ν} {entries : List (κ × ν)} {entry : κ × ν}
    (member : entry ∈ insert key value entries) : entry = (key, value) ∨ entry ∈ entries := by
  induction entries with
  | nil => exact .inl (List.mem_singleton.mp member)
  | cons head rest ih =>
    obtain ⟨k, v⟩ := head
    unfold insert at member
    split at member
    · exact List.mem_cons.mp member
    · split at member
      · exact (List.mem_cons.mp member).imp_right (List.mem_cons_of_mem _)
      · rcases List.mem_cons.mp member with same | later
        · exact .inr (same ▸ List.mem_cons_self)
        · exact (ih later).imp_right (List.mem_cons_of_mem _)

omit [DecidableLT κ] in
theorem ordered_erase (key : κ) {entries : List (κ × ν)} (ordered : Ordered entries) :
    Ordered (erase key entries) :=
  List.Pairwise.filter _ ordered

theorem ordered_insert [Trans (α := κ) (· < ·) (· < ·) (· < ·)]
    [Std.Trichotomous (α := κ) (· < ·)] (key : κ) (value : ν) {entries : List (κ × ν)}
    (ordered : Ordered entries) : Ordered (insert key value entries) := by
  induction entries with
  | nil => exact List.pairwise_singleton _ _
  | cons head rest ih =>
    obtain ⟨k, v⟩ := head
    obtain ⟨first, tail⟩ := List.pairwise_cons.mp ordered
    unfold insert
    split
    · rename_i below
      refine List.pairwise_cons.mpr ⟨?_, ordered⟩
      intro entry member
      rcases List.mem_cons.mp member with same | later
      · exact same ▸ below
      · exact Trans.trans below (first entry later)
    · rename_i notBelow
      split
      · rename_i same
        subst same
        exact List.pairwise_cons.mpr ⟨first, tail⟩
      · rename_i differs
        refine List.pairwise_cons.mpr ⟨?_, ih tail⟩
        intro entry member
        rcases mem_insert member with same | later
        · have above : k < key := Classical.byContradiction fun notAbove =>
            differs (Std.Trichotomous.trichotomous (r := fun a b : κ => a < b) _ _ notBelow notAbove)
          exact same ▸ above
        · exact first entry later

omit [LT κ] [DecidableLT κ] in
theorem mem_of_find? {key : κ} {value : ν} {entries : List (κ × ν)}
    (found : find? key entries = some value) : (key, value) ∈ entries := by
  induction entries with
  | nil => contradiction
  | cons head rest ih =>
    obtain ⟨k, v⟩ := head
    unfold find? at found
    split at found
    · rename_i same
      cases found
      exact same ▸ List.mem_cons_self
    · exact List.mem_cons_of_mem _ (ih found)

omit [DecidableLT κ] in
theorem find?_of_mem [Std.Irrefl (α := κ) (· < ·)] {key : κ} {value : ν} {entries : List (κ × ν)}
    (ordered : Ordered entries) (member : (key, value) ∈ entries) :
    find? key entries = some value := by
  induction entries with
  | nil => contradiction
  | cons head rest ih =>
    obtain ⟨k, v⟩ := head
    obtain ⟨first, tail⟩ := List.pairwise_cons.mp ordered
    rcases List.mem_cons.mp member with same | later
    · cases same
      simp [find?]
    · have differs : key ≠ k := by
        intro same
        have below := first _ later
        rw [same] at below
        exact Std.Irrefl.irrefl (r := fun a b : κ => a < b) _ below
      rw [find?, if_neg differs, ih tail later]

omit [DecidableLT κ] in
theorem ext_find? [Std.Asymm (α := κ) (· < ·)] {entries others : List (κ × ν)}
    (ordered : Ordered entries) (otherOrdered : Ordered others)
    (same : ∀ key, find? key entries = find? key others) : entries = others := by
  have irrefl : Std.Irrefl (α := κ) (· < ·) :=
    ⟨fun key below => Std.Asymm.asymm (r := fun a b : κ => a < b) _ _ below below⟩
  induction entries generalizing others with
  | nil =>
    cases others with
    | nil => rfl
    | cons head rest =>
      have impossible := same head.1
      simp [find?] at impossible
  | cons head rest ih =>
    cases others with
    | nil =>
      have impossible := same head.1
      simp [find?] at impossible
    | cons other others =>
      obtain ⟨k, v⟩ := head
      obtain ⟨l, w⟩ := other
      obtain ⟨first, tail⟩ := List.pairwise_cons.mp ordered
      obtain ⟨otherFirst, otherTail⟩ := List.pairwise_cons.mp otherOrdered
      have keys : k = l := by
        by_cases differs : k = l
        · exact differs
        · have left := same k
          have right := same l
          simp only [find?, if_true, if_neg differs, if_neg (Ne.symm differs)] at left right
          have above := otherFirst _ (mem_of_find? left.symm)
          have below := first _ (mem_of_find? right)
          exact absurd below (Std.Asymm.asymm (r := fun a b : κ => a < b) _ _ above)
      subst keys
      have values := same k
      simp only [find?, if_true, Option.some.injEq] at values
      subst values
      have rests : rest = others := by
        refine ih tail otherTail fun key => ?_
        by_cases hit : key = k
        · subst hit
          have leftAbsent : find? key rest = none := by
            cases found : find? key rest with
            | none => rfl
            | some value => exact absurd (first _ (mem_of_find? found)) (irrefl.irrefl key)
          have rightAbsent : find? key others = none := by
            cases found : find? key others with
            | none => rfl
            | some value => exact absurd (otherFirst _ (mem_of_find? found)) (irrefl.irrefl key)
          rw [leftAbsent, rightAbsent]
        · have agree := same key
          simpa only [find?, if_neg hit] using agree
      rw [rests]

end ClusterRegistry.OrderedMap
