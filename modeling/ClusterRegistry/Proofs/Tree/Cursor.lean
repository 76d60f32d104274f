import ClusterRegistry.Proofs.Tree.TwoMaps
import ClusterRegistry.Tree.Cursor

/-!
The two maps that a cursor walks, as one list.  Whichever way a cursor looks, the nearer of the two
entries that it finds is the nearest in the merged list, so that it moves as if it counted its place
in that list.
-/
namespace ClusterRegistry

/-- Keys are passed one by one in this direction. -/
structure Direction (before : Key → Key → Bool) : Prop where
  irrefl (key : Key) : ¬before key key
  trans {key middle other : Key} : before key middle → before middle other → before key other
  total {key other : Key} : ¬before key other → ¬before other key → key = other

theorem ascending : Direction fun key other => key < other where
  irrefl key passed := List.lt_irrefl key (of_decide_eq_true passed)
  trans first second :=
    decide_eq_true (List.lt_trans (of_decide_eq_true first) (of_decide_eq_true second))
  total notBelow notAbove := Std.Trichotomous.trichotomous (r := fun key other : Key => key < other)
    _ _ (fun below => notBelow (decide_eq_true below)) fun above => notAbove (decide_eq_true above)

theorem Direction.reverse {before : Key → Key → Bool} (direction : Direction before) :
    Direction fun key other => before other key where
  irrefl := direction.irrefl
  trans first second := direction.trans second first
  total notBelow notAbove := direction.total notAbove notBelow

private theorem Direction.ne {before : Key → Key → Bool} (direction : Direction before)
    {key other : Key}
    (passed : before key other) : key ≠ other := by
  intro same
  rw [same] at passed
  exact direction.irrefl other passed

/-- The first entry in a direction among those wanted, or that none is. -/
def First (before : Key → Key → Bool) (wanted : Key → Bool) (entries : List Entry) :
    Option Entry → Prop
  | some entry => entry ∈ entries ∧ wanted entry.1 ∧
      ∀ other ∈ entries, wanted other.1 → other = entry ∨ before entry.1 other.1
  | none => ∀ entry ∈ entries, ¬wanted entry.1

namespace First

variable {before : Key → Key → Bool} {wanted : Key → Bool} {entries others : List Entry}
  {found other : Option Entry}

private theorem of_find? (sorted : entries.Pairwise fun entry later => before entry.1 later.1) :
    First before wanted entries (entries.find? fun entry => wanted entry.1) := by
  cases found : entries.find? fun entry => wanted entry.1 with
  | none => exact List.find?_eq_none.mp found
  | some entry =>
    obtain ⟨fits, front, back, rfl, passed⟩ := List.find?_eq_some_iff_append.mp found
    refine ⟨List.mem_append_right _ List.mem_cons_self, fits, fun other member wants => ?_⟩
    have behind := (List.pairwise_cons.mp (List.pairwise_append.mp sorted).2.1).1
    rcases List.mem_append.mp member with earlier | later
    · have unwanted := passed other earlier
      rw [wants] at unwanted
      contradiction
    · exact (List.mem_cons.mp later).imp_right (behind other)

theorem unique (direction : Direction before) (first : First before wanted entries found)
    (again : First before wanted entries other) : found = other := by
  cases found with
  | none =>
    cases other with
    | none => rfl
    | some entry => exact absurd again.2.1 (first entry again.1)
  | some entry =>
    cases other with
    | none => exact absurd first.2.1 (again entry first.1)
    | some second =>
      obtain ⟨member, fits, least⟩ := first
      obtain ⟨otherMember, otherFits, otherLeast⟩ := again
      rcases least second otherMember otherFits with same | earlier
      · exact congrArg some same.symm
      · rcases otherLeast entry member fits with same | later
        · exact congrArg some same
        · exact absurd (direction.trans earlier later) (direction.irrefl _)

private theorem perm (first : First before wanted entries found) (same : entries.Perm others) :
    First before wanted others found := by
  cases found with
  | none => exact fun entry member => first entry (same.mem_iff.mpr member)
  | some entry =>
    obtain ⟨member, fits, least⟩ := first
    exact ⟨same.mem_iff.mp member, fits, fun other inside => least other (same.mem_iff.mpr inside)⟩

/-- What is nearer than the first of all others is the first of all. -/
theorem append_left {entry second : Entry} (direction : Direction before)
    (first : First before wanted entries (some entry))
    (farther : First before wanted others (some second)) (nearer : before entry.1 second.1) :
    First before wanted (entries ++ others) (some entry) := by
  obtain ⟨member, fits, least⟩ := first
  refine ⟨List.mem_append_left _ member, fits, fun other inside wants => ?_⟩
  rcases List.mem_append.mp inside with left | right
  · exact least other left wants
  · right
    rcases farther.2.2 other right wants with rfl | later
    · exact nearer
    · exact direction.trans nearer later

private theorem append_none {found : Option Entry} (first : First before wanted entries found)
    (nothing : First before wanted others none) :
    First before wanted (entries ++ others) found := by
  cases found with
  | none => exact fun entry member => (List.mem_append.mp member).elim (first entry) (nothing entry)
  | some entry =>
    obtain ⟨member, fits, least⟩ := first
    refine ⟨List.mem_append_left _ member, fits, fun other inside wants => ?_⟩
    exact (List.mem_append.mp inside).elim (fun left => least other left wants)
      fun right => absurd wants (nothing other right)

theorem nearer (direction : Direction before) (first : First before wanted entries found)
    (second : First before wanted others other)
    (separate : ∀ entry ∈ entries, ∀ other ∈ others, entry.1 ≠ other.1) :
    First before wanted (entries ++ others) (Cursor.nearer before found other) := by
  cases found with
  | none =>
    rw [show Cursor.nearer before none other = other by cases other <;> rfl]
    exact (second.append_none first).perm List.perm_append_comm
  | some field =>
    cases other with
    | none => exact first.append_none second
    | some child =>
      rw [Cursor.nearer]
      split
      · rename_i before
        exact first.append_left direction second before
      · rename_i notBefore
        have after : before child.1 field.1 := Decidable.byContradiction fun notAfter =>
          separate field first.1 child second.1 (direction.total notBefore notAfter)
        exact (second.append_left direction first after).perm List.perm_append_comm

end First

section Places

variable {before : Key → Key → Bool} {front back : List Entry} {entry : Entry}

/-- What is met first beyond an entry is the one behind it. -/
theorem find?_beyond (direction : Direction before)
    (sorted : (front ++ entry :: back).Pairwise fun entry later => before entry.1 later.1) :
    ((front ++ entry :: back).find? fun other => before entry.1 other.1) = back.head? := by
  obtain ⟨_, behind, passed⟩ := List.pairwise_append.mp sorted
  have notFront : front.find? (fun other => before entry.1 other.1) = none := by
    refine List.find?_eq_none.mpr fun other member beyond => ?_
    have earlier := passed other member entry List.mem_cons_self
    exact direction.irrefl _ (direction.trans earlier beyond)
  rw [List.find?_append, notFront, Option.none_or,
    List.find?_cons_of_neg (p := fun other : Entry => before entry.1 other.1)
      (direction.irrefl entry.1)]
  cases back with
  | nil => rfl
  | cons next back =>
    exact List.find?_cons_of_pos ((List.pairwise_cons.mp behind).1 next List.mem_cons_self)

/-- What is met first from an entry on is that entry. -/
theorem find?_from (direction : Direction before)
    (sorted : (front ++ entry :: back).Pairwise fun entry later => before entry.1 later.1) :
    ((front ++ entry :: back).find? fun other => !before other.1 entry.1) = some entry := by
  obtain ⟨_, _, passed⟩ := List.pairwise_append.mp sorted
  have notFront : front.find? (fun other => !before other.1 entry.1) = none := by
    refine List.find?_eq_none.mpr fun other member wanted => ?_
    rw [passed other member entry List.mem_cons_self] at wanted
    contradiction
  have own : (!before entry.1 entry.1) = true := by
    rw [Bool.not_eq_true', Bool.eq_false_iff]
    exact direction.irrefl entry.1
  rw [List.find?_append, notFront, Option.none_or]
  exact List.find?_cons_of_pos own

private theorem parts_of_getElem? {entries : List Entry} {place : Nat}
    (here : entries[place]? = some entry) :
    ∃ front back, entries = front ++ entry :: back ∧ front.length = place := by
  obtain ⟨inside, rfl⟩ := List.getElem?_eq_some_iff.mp here
  refine ⟨entries.take place, entries.drop (place + 1), ?_, ?_⟩
  · rw [List.getElem_cons_drop, List.take_append_drop]
  · exact List.length_take_of_le (Nat.le_of_lt inside)

end Places

/-- A cursor over a list of entries, which counts its place.  The place is that of an entry. -/
structure Walk where
  entries : List Entry
  place : Option Nat

namespace Walk

def ofEntries (entries : List Entry) : Walk :=
  ⟨entries, none⟩

/-- A place, where there is an entry. -/
def place? (walk : Walk) (place : Nat) : Option Nat :=
  if place < walk.entries.length then some place else none

/-- Stand on the entry at a place; without one, stay. -/
def settle (walk : Walk) : Option Nat → Option Entry × Walk
  | some place => (walk.entries[place]?, { walk with place := some place })
  | none => (none, walk)

def move (walk : Walk) (step : Cursor.Move) : Option Entry × Walk :=
  match step, walk.place with
  | .first, _ | .next, none => walk.settle (walk.place? 0)
  | .last, _ | .prev, none => walk.settle (walk.place? (walk.entries.length - 1))
  | .next, some place => walk.settle (walk.place? (place + 1))
  | .prev, some 0 => (none, walk)
  | .prev, some (place + 1) => walk.settle (some place)
  | .seek key, _ => walk.settle (walk.entries.findIdx? fun entry => ¬entry.1 < key)
  | .current, some place => (walk.entries[place]?, walk)
  | .current, none => (none, walk)

def moves (walk : Walk) : List Cursor.Move → List (Option Entry)
  | [] => []
  | step :: rest =>
    let (entry, next) := walk.move step
    entry :: next.moves rest

/-- The place that a step forward goes to. -/
def onward (walk : Walk) : Nat :=
  match walk.place with
  | some place => place + 1
  | none => 0

theorem move_next (walk : Walk) : walk.move .next = walk.settle (walk.place? walk.onward) := by
  obtain ⟨entries, place⟩ := walk
  cases place <;> rfl

private theorem move_next_of_lt {walk : Walk} (inside : walk.onward < walk.entries.length) :
    walk.move .next = (some walk.entries[walk.onward], ⟨walk.entries, some walk.onward⟩) := by
  have there : walk.place? walk.onward = some walk.onward := if_pos inside
  rw [move_next, there, settle, List.getElem?_eq_getElem inside]

private theorem move_next_of_le {walk : Walk} (outside : walk.entries.length ≤ walk.onward) :
    walk.move .next = (none, walk) := by
  have nowhere : walk.place? walk.onward = none := if_neg (Nat.not_lt.mpr outside)
  rw [move_next, nowhere, settle]

private theorem place?_bind (walk : Walk) (place : Nat) :
    (walk.place? place).bind (walk.entries[·]?) = walk.entries[place]? := by
  unfold place?
  split
  · rfl
  · rename_i outside
    exact (List.getElem?_eq_none (Nat.le_of_not_lt outside)).symm

private theorem lt_of_place? {walk : Walk} {place found : Nat}
    (there : walk.place? place = some found) :
    found < walk.entries.length := by
  unfold place? at there
  split at there
  · rename_i inside
    cases there
    exact inside
  · contradiction

end Walk

namespace Cursor

/-- All entries of both maps, merged by their keys. -/
def entries (cursor : Cursor) : List Entry :=
  (cursor.fields.map ofField).merge (cursor.children.map ofChild) fun entry other =>
    ¬other.1 < entry.1

/-- Both maps ascend, and no key is in both. -/
structure Sorted (cursor : Cursor) : Prop where
  fields : OrderedMap.Ordered cursor.fields
  children : OrderedMap.Ordered cursor.children
  separate : ∀ field ∈ cursor.fields, ∀ child ∈ cursor.children, field.1 ≠ child.1

private theorem entries_perm (cursor : Cursor) :
    cursor.entries.Perm (cursor.fields.map ofField ++ cursor.children.map ofChild) :=
  List.merge_perm_append _

private theorem separate_map {fields : List (Key × Bytes)} {children : List (Key × Bucket)}
    (separate : ∀ field ∈ fields, ∀ child ∈ children, field.1 ≠ child.1) :
    ∀ entry ∈ fields.map ofField, ∀ other ∈ children.map ofChild, entry.1 ≠ other.1 := by
  simp only [List.forall_mem_map]
  exact separate

/-- In either direction, the nearer of what the two maps have is what the merged list has. -/
theorem nearer_eq {before : Key → Key → Bool} (direction : Direction before)
    {fields : List (Key × Bytes)} {children : List (Key × Bucket)} {entries : List Entry}
    (fieldsSorted : fields.Pairwise fun field later => before field.1 later.1)
    (childrenSorted : children.Pairwise fun child later => before child.1 later.1)
    (sorted : entries.Pairwise fun entry later => before entry.1 later.1)
    (separate : ∀ field ∈ fields, ∀ child ∈ children, field.1 ≠ child.1)
    (perm : entries.Perm (fields.map ofField ++ children.map ofChild)) (wanted : Key → Bool) :
    nearer before ((fields.find? fun field => wanted field.1).map ofField)
        ((children.find? fun child => wanted child.1).map ofChild) =
      entries.find? fun entry => wanted entry.1 := by
  have field : First before wanted (fields.map ofField)
      ((fields.map ofField).find? fun entry => wanted entry.1) :=
    .of_find? (List.pairwise_map.mpr fieldsSorted)
  have child : First before wanted (children.map ofChild)
      ((children.map ofChild).find? fun entry => wanted entry.1) :=
    .of_find? (List.pairwise_map.mpr childrenSorted)
  rw [List.find?_map] at field child
  have both := field.nearer direction child (separate_map separate)
  exact (both.perm perm.symm).unique direction (.of_find? sorted)

namespace Sorted

variable {cursor : Cursor}

theorem ordered_fields (sorted : cursor.Sorted) :
    OrderedMap.Ordered (cursor.fields.map ofField) :=
  List.pairwise_map.mpr sorted.fields

theorem ordered_children (sorted : cursor.Sorted) :
    OrderedMap.Ordered (cursor.children.map ofChild) :=
  List.pairwise_map.mpr sorted.children

private theorem distinct_entries (sorted : cursor.Sorted) :
    cursor.entries.Pairwise fun entry other => entry.1 ≠ other.1 := by
  have fields := sorted.ordered_fields.imp fun below => ascending.ne (decide_eq_true below)
  have children := sorted.ordered_children.imp fun below => ascending.ne (decide_eq_true below)
  exact (cursor.entries_perm.pairwise_iff Ne.symm).mpr
    (List.pairwise_append.mpr ⟨fields, children, separate_map sorted.separate⟩)

private theorem ordered_entries (sorted : cursor.Sorted) : OrderedMap.Ordered cursor.entries := by
  have merged : cursor.entries.Pairwise fun entry other => decide ¬other.1 < entry.1 := by
    refine List.pairwise_merge ?_ ?_ _ _ ?_ ?_
    · intro entry middle other first second
      simp only [decide_eq_true_eq] at first second ⊢
      exact List.le_trans first second
    · intro entry other
      rcases List.le_total entry.1 other.1 with notAbove | notBelow
      · exact Bool.or_eq_true_iff.mpr (.inl (decide_eq_true notAbove))
      · exact Bool.or_eq_true_iff.mpr (.inr (decide_eq_true notBelow))
    · exact sorted.ordered_fields.imp fun below => decide_eq_true (List.le_of_lt below)
    · exact sorted.ordered_children.imp fun below => decide_eq_true (List.le_of_lt below)
  refine merged.imp₂ ?_ sorted.distinct_entries
  intro entry other notAbove differs
  exact Decidable.byContradiction fun notBelow => differs (ascending.total
    (mt of_decide_eq_true notBelow) (mt of_decide_eq_true (of_decide_eq_true notAbove)))

private theorem lowest?_eq (sorted : cursor.Sorted) (lower : Bound) :
    cursor.lowest? lower = cursor.entries.find? fun entry => lower.isBelow entry.1 :=
  nearer_eq ascending (sorted.fields.imp decide_eq_true) (sorted.children.imp decide_eq_true)
    (sorted.ordered_entries.imp decide_eq_true) sorted.separate cursor.entries_perm lower.isBelow

private theorem highest?_eq (sorted : cursor.Sorted) (upper : Bound) :
    cursor.highest? upper = cursor.entries.reverse.find? fun entry => upper.isAbove entry.1 := by
  have separate : ∀ field ∈ cursor.fields.reverse, ∀ child ∈ cursor.children.reverse,
      field.1 ≠ child.1 := by
    simp only [List.mem_reverse]
    exact sorted.separate
  have perm : cursor.entries.reverse.Perm
      (cursor.fields.reverse.map ofField ++ cursor.children.reverse.map ofChild) := by
    rw [List.map_reverse, List.map_reverse]
    exact (List.reverse_perm _).trans (cursor.entries_perm.trans
      ((List.reverse_perm _).symm.append (List.reverse_perm _).symm))
  exact nearer_eq ascending.reverse (List.pairwise_reverse.mpr (sorted.fields.imp decide_eq_true))
    (List.pairwise_reverse.mpr (sorted.children.imp decide_eq_true))
    (List.pairwise_reverse.mpr (sorted.ordered_entries.imp decide_eq_true)) separate perm
    upper.isAbove

end Sorted

private theorem rest_eq (cursor : Cursor) : cursor.rest =
    match cursor.move .next with
    | (some entry, later) => entry :: later.rest
    | (none, _) => [] := by
  rw [rest]
  split <;> rename_i moved <;> rw [moved]

/-- A cursor and a walk over its entries are at the same one. -/
structure Follows (cursor : Cursor) (walk : Walk) : Prop where
  sorted : cursor.Sorted
  entries : walk.entries = cursor.entries
  inside : ∀ place, walk.place = some place → place < walk.entries.length
  position : cursor.position = (walk.place.bind (walk.entries[·]?)).map Prod.fst

namespace Follows

variable {cursor : Cursor} {walk : Walk}

theorem settle (follows : cursor.Follows walk) {found : Option Entry} {place : Option Nat}
    (same : found = place.bind (walk.entries[·]?))
    (inside : ∀ here, place = some here → here < walk.entries.length) :
    (cursor.settle found).1 = (walk.settle place).1 ∧
      (cursor.settle found).2.Follows (walk.settle place).2 := by
  cases place with
  | none =>
    rw [same]
    exact ⟨rfl, follows⟩
  | some place =>
    have here := List.getElem?_eq_getElem (inside place rfl)
    rw [Option.bind_some, here] at same
    subst same
    refine ⟨here.symm, ⟨follows.sorted.fields, follows.sorted.children, follows.sorted.separate⟩,
      follows.entries, inside, ?_⟩
    change _ = Option.map Prod.fst (walk.entries[place]?)
    rw [here]
    rfl

/-- Going to an end takes the cursor off its entry only where there is none to go to, and then it
was on none. -/
theorem settle_end (follows : cursor.Follows walk) {found : Option Entry} {place : Option Nat}
    (same : found = place.bind (walk.entries[·]?))
    (inside : ∀ here, place = some here → here < walk.entries.length)
    (ends : found = none → walk.entries = []) :
    (Cursor.settle { cursor with position := none } found).1 = (walk.settle place).1 ∧
      (Cursor.settle { cursor with position := none } found).2.Follows (walk.settle place).2 := by
  cases found with
  | some entry => exact follows.settle same inside
  | none =>
    have off : walk.place = none := by
      cases standing : walk.place with
      | none => rfl
      | some place =>
        have room := follows.inside place standing
        rw [ends rfl] at room
        contradiction
    have position : cursor.position = none := by
      rw [follows.position, off]
      rfl
    have unmoved : { cursor with position := none } = cursor := by
      rw [← position]
    rw [unmoved]
    exact follows.settle same inside

private theorem lowest?_eq (follows : cursor.Follows walk) (lower : Bound) :
    cursor.lowest? lower = walk.entries.find? fun entry => lower.isBelow entry.1 := by
  rw [follows.entries]
  exact follows.sorted.lowest?_eq lower

private theorem highest?_eq (follows : cursor.Follows walk) (upper : Bound) :
    cursor.highest? upper = walk.entries.reverse.find? fun entry => upper.isAbove entry.1 := by
  rw [follows.entries]
  exact follows.sorted.highest?_eq upper

theorem first (follows : cursor.Follows walk) :
    (cursor.move .first).1 = (walk.move .first).1 ∧
      (cursor.move .first).2.Follows (walk.move .first).2 := by
  have same : cursor.lowest? .unbounded = walk.entries[0]? := by
    rw [follows.lowest?_eq]
    cases walk.entries <;> rfl
  refine follows.settle_end (same.trans (walk.place?_bind 0).symm) (fun _ => Walk.lt_of_place?) ?_
  intro nothing
  exact List.length_eq_zero_iff.mp
    (Nat.le_zero.mp (List.getElem?_eq_none_iff.mp (same.symm.trans nothing)))

theorem last (follows : cursor.Follows walk) :
    (cursor.move .last).1 = (walk.move .last).1 ∧
      (cursor.move .last).2.Follows (walk.move .last).2 := by
  have same : cursor.highest? .unbounded = walk.entries[walk.entries.length - 1]? := by
    rw [follows.highest?_eq, ← List.getLast?_eq_getElem?, ← List.head?_reverse]
    cases walk.entries.reverse <;> rfl
  refine follows.settle_end (same.trans (walk.place?_bind _).symm) (fun _ => Walk.lt_of_place?) ?_
  intro nothing
  have outside := List.getElem?_eq_none_iff.mp (same.symm.trans nothing)
  exact List.length_eq_zero_iff.mp (by omega)

theorem seek (follows : cursor.Follows walk) (key : Key) :
    (cursor.move (.seek key)).1 = (walk.move (.seek key)).1 ∧
      (cursor.move (.seek key)).2.Follows (walk.move (.seek key)).2 := by
  refine follows.settle ?_ fun place found => ?_
  · rw [follows.lowest?_eq]
    exact List.find?_eq_bind_findIdx?_getElem?
  · exact (List.findIdx?_eq_some_iff_getElem.mp found).1

/-- Either is on no entry, or both are on the same one. -/
theorem standing (follows : cursor.Follows walk) :
    (walk.place = none ∧ cursor.position = none) ∨
      ∃ front entry back, walk.entries = front ++ entry :: back ∧
        walk.place = some front.length ∧ cursor.position = some entry.1 := by
  have position := follows.position
  cases standing : walk.place with
  | none =>
    rw [standing] at position
    exact .inl ⟨rfl, position⟩
  | some place =>
    have here := List.getElem?_eq_getElem (follows.inside place standing)
    rw [standing, Option.bind_some, here] at position
    obtain ⟨front, back, parts, rfl⟩ := parts_of_getElem? here
    exact .inr ⟨front, _, back, parts, rfl, position⟩

section Standing

variable {front back : List Entry} {entry : Entry}

theorem next (follows : cursor.Follows walk) (parts : walk.entries = front ++ entry :: back)
    (place : walk.place = some front.length) (position : cursor.position = some entry.1) :
    (cursor.move .next).1 = (walk.move .next).1 ∧
      (cursor.move .next).2.Follows (walk.move .next).2 := by
  have same : cursor.lowest? (.excluded entry.1) = walk.entries[front.length + 1]? := by
    have sorted := follows.sorted.ordered_entries.imp decide_eq_true
    rw [← follows.entries, parts] at sorted
    have behind : (front ++ entry :: back)[front.length + 1]? = back.head? := by
      rw [List.getElem?_append_right (Nat.le_add_right _ 1), Nat.add_sub_cancel_left,
        List.getElem?_cons_succ, List.head?_eq_getElem?]
    rw [follows.lowest?_eq, parts, behind]
    exact find?_beyond ascending sorted
  unfold Cursor.move Walk.move
  rw [position, place]
  exact follows.settle (same.trans (walk.place?_bind _).symm) fun _ => Walk.lt_of_place?

theorem prev (follows : cursor.Follows walk) (parts : walk.entries = front ++ entry :: back)
    (place : walk.place = some front.length) (position : cursor.position = some entry.1) :
    (cursor.move .prev).1 = (walk.move .prev).1 ∧
      (cursor.move .prev).2.Follows (walk.move .prev).2 := by
  have same : cursor.highest? (.excluded entry.1) = front.getLast? := by
    have sorted := List.pairwise_reverse.mpr
      (follows.sorted.ordered_entries.imp decide_eq_true)
    have reversed : walk.entries.reverse = back.reverse ++ entry :: front.reverse := by
      rw [parts, List.reverse_append, List.reverse_cons, List.append_assoc]
      rfl
    rw [← follows.entries, reversed] at sorted
    rw [follows.highest?_eq, reversed, ← List.head?_reverse]
    exact find?_beyond ascending.reverse sorted
  unfold Cursor.move Walk.move
  rw [position, place]
  cases count : front.length with
  | zero =>
    have stay : cursor.highest? (.excluded entry.1) =
        (none : Option Nat).bind (walk.entries[·]?) := by
      rw [same, List.length_eq_zero_iff.mp count]
      rfl
    exact follows.settle stay nofun
  | succ place =>
    have before : cursor.highest? (.excluded entry.1) =
        (some place).bind (walk.entries[·]?) := by
      rw [same, List.getLast?_eq_getElem?, count, parts, Option.bind_some,
        List.getElem?_append_left (by omega)]
      rfl
    refine follows.settle before fun here found => ?_
    cases found
    rw [parts, List.length_append]
    omega

theorem current (follows : cursor.Follows walk) (parts : walk.entries = front ++ entry :: back)
    (place : walk.place = some front.length) (position : cursor.position = some entry.1) :
    (cursor.move .current).1 = (walk.move .current).1 ∧
      (cursor.move .current).2.Follows (walk.move .current).2 := by
  have same : cursor.lowest? (.included entry.1) = some entry := by
    have sorted := follows.sorted.ordered_entries.imp decide_eq_true
    rw [← follows.entries, parts] at sorted
    have wanted : (fun other : Entry => (Bound.included entry.1).isBelow other.1) =
        fun other => !decide (other.1 < entry.1) := funext fun other => decide_not
    rw [follows.lowest?_eq, parts, wanted]
    exact find?_from ascending sorted
  have here : walk.entries[front.length]? = some entry := by
    rw [parts, List.getElem?_append_right (Nat.le_refl _), Nat.sub_self, List.getElem?_cons_zero]
  unfold Cursor.move Walk.move
  simp only [position, place, same, here]
  exact ⟨Option.filter_some_pos (decide_eq_true rfl), follows⟩

end Standing

theorem move (follows : cursor.Follows walk) (step : Move) :
    (cursor.move step).1 = (walk.move step).1 ∧
      (cursor.move step).2.Follows (walk.move step).2 := by
  cases step with
  | first => exact follows.first
  | last => exact follows.last
  | seek key => exact follows.seek key
  | next =>
    rcases follows.standing with ⟨place, position⟩ | ⟨front, entry, back, parts, place, position⟩
    · have start := follows.first
      unfold Cursor.move Walk.move at start ⊢
      rwa [position, place]
    · exact follows.next parts place position
  | prev =>
    rcases follows.standing with ⟨place, position⟩ | ⟨front, entry, back, parts, place, position⟩
    · have finish := follows.last
      unfold Cursor.move Walk.move at finish ⊢
      rwa [position, place]
    · exact follows.prev parts place position
  | current =>
    rcases follows.standing with ⟨place, position⟩ | ⟨front, entry, back, parts, place, position⟩
    · unfold Cursor.move Walk.move
      rw [position, place]
      exact ⟨rfl, follows⟩
    · exact follows.current parts place position

theorem moves (follows : cursor.Follows walk) (steps : List Move) :
    cursor.moves steps = walk.moves steps := by
  induction steps generalizing cursor walk with
  | nil => rfl
  | cons step steps ih =>
    obtain ⟨answer, after⟩ := follows.move step
    change (cursor.move step).1 :: (cursor.move step).2.moves steps =
      (walk.move step).1 :: (walk.move step).2.moves steps
    rw [answer, ih after]

theorem rest (follows : cursor.Follows walk) : cursor.rest = walk.entries.drop walk.onward := by
  fun_induction Cursor.rest cursor generalizing walk with
  | case1 cursor entry later moved ih =>
    obtain ⟨answer, after⟩ := follows.move .next
    rw [moved] at answer after
    rcases Nat.lt_or_ge walk.onward walk.entries.length with inside | outside
    · rw [Walk.move_next_of_lt inside] at answer after
      rw [ih after, Option.some.inj answer]
      exact (List.drop_eq_getElem_cons inside).symm
    · rw [Walk.move_next_of_le outside] at answer
      contradiction
  | case2 cursor later moved =>
    obtain ⟨answer, _⟩ := follows.move .next
    rw [moved] at answer
    rcases Nat.lt_or_ge walk.onward walk.entries.length with inside | outside
    · rw [Walk.move_next_of_lt inside] at answer
      contradiction
    · exact (List.drop_eq_nil_of_le outside).symm

end Follows

end Cursor

namespace Bucket

variable {bucket : Bucket}

private theorem mem_children {child : Key × Bucket} (member : child ∈ bucket.children) :
    (child.1, Item.bucket child.2) ∈ bucket := by
  obtain ⟨⟨key, item⟩, inside, found⟩ := List.mem_filterMap.mp member
  cases item with
  | value bytes => contradiction
  | bucket entries =>
    cases found
    exact inside

theorem ordered_children (ordered : OrderedMap.Ordered bucket) :
    OrderedMap.Ordered bucket.children := by
  refine List.Pairwise.filterMap _ ?_ ordered
  rintro ⟨key, item⟩ ⟨other, otherItem⟩ below child found later laterFound
  cases item with
  | value bytes => contradiction
  | bucket entries =>
    cases otherItem with
    | value bytes => contradiction
    | bucket others =>
      cases found
      cases laterFound
      exact below

theorem mem_children_iff (ordered : OrderedMap.Ordered bucket) {key : Key} {child : Bucket} :
    (key, child) ∈ bucket.children ↔ bucket.child? key = some child := by
  rw [child?_eq_some]
  constructor
  · exact fun inside => OrderedMap.find?_of_mem ordered (mem_children inside)
  · exact fun there => List.mem_filterMap.mpr ⟨_, OrderedMap.mem_of_find? there, rfl⟩

private theorem sorted_ofBucket (ordered : OrderedMap.Ordered bucket) :
    (Cursor.ofBucket bucket).Sorted where
  fields := Node.ordered_fields ordered
  children := ordered_children ordered
  separate field member child childMember same := by
    have value := OrderedMap.find?_of_mem ordered (mem_fields member)
    have inner := OrderedMap.find?_of_mem ordered (mem_children childMember)
    rw [← same, value] at inner
    cases inner

/-- The entries that a cursor shows, in the order of the tree. -/
def shown (bucket : Bucket) : List Entry :=
  bucket.map fun entry => (entry.1, entry.2.bytes?)

private theorem shown_perm (bucket : Bucket) : bucket.shown.Perm
    (bucket.fields.map Cursor.ofField ++ bucket.children.map Cursor.ofChild) := by
  induction bucket with
  | nil => exact .nil
  | cons entry rest ih =>
    obtain ⟨key, item⟩ := entry
    cases item with
    | value bytes => exact ih.cons _
    | bucket entries => exact (ih.cons (key, none)).trans List.perm_middle.symm

/-- Of a bucket whose keys ascend, the merged list is the bucket itself. -/
theorem entries_ofBucket (ordered : OrderedMap.Ordered bucket) :
    (Cursor.ofBucket bucket).entries = bucket.shown := by
  have shown : OrderedMap.Ordered bucket.shown := List.pairwise_map.mpr ordered
  refine List.Perm.eq_of_pairwise ?_ (sorted_ofBucket ordered).ordered_entries shown
    ((Cursor.entries_perm _).trans (shown_perm bucket).symm)
  intro entry other _ _ below above
  exact absurd (List.lt_trans below above) (List.lt_irrefl _)

theorem iter_eq_rest (bucket : Bucket) : bucket.iter = (Cursor.ofBucket bucket).rest := by
  rw [Cursor.rest_eq]
  rfl

/-- To iterate over a bucket is to go through its entries in their order. -/
theorem iter_eq_shown (ordered : OrderedMap.Ordered bucket) : bucket.iter = bucket.shown := by
  have follows : (Cursor.ofBucket bucket).Follows (Walk.ofEntries bucket.shown) :=
    ⟨sorted_ofBucket ordered, (entries_ofBucket ordered).symm, nofun, rfl⟩
  rw [iter_eq_rest]
  exact follows.rest

/-- A cursor over a bucket is a cursor over all its entries in ascending order of their keys,
whatever moves it makes; and to iterate over a bucket is to go through that list once. -/
theorem moves_ofBucket (fields : OrderedMap.Ordered bucket.fields)
    (children : OrderedMap.Ordered bucket.children)
    (separate : ∀ field ∈ bucket.fields, ∀ child ∈ bucket.children, field.1 ≠ child.1) :
    let entries := (Cursor.ofBucket bucket).entries
    OrderedMap.Ordered entries ∧
      entries.Perm (bucket.fields.map Cursor.ofField ++ bucket.children.map Cursor.ofChild) ∧
      (∀ steps, (Cursor.ofBucket bucket).moves steps = (Walk.ofEntries entries).moves steps) ∧
      bucket.iter = entries ∧
      ∀ {m : Type → Type} [Monad m] (visit : Key → Option Bytes → m Unit),
        bucket.forEach visit = entries.forM fun entry => visit entry.1 entry.2 := by
  intro entries
  have sorted : (Cursor.ofBucket bucket).Sorted := ⟨fields, children, separate⟩
  have follows : (Cursor.ofBucket bucket).Follows (Walk.ofEntries entries) :=
    ⟨sorted, rfl, nofun, rfl⟩
  have whole : bucket.iter = entries := by
    rw [iter_eq_rest]
    exact follows.rest
  refine ⟨sorted.ordered_entries, Cursor.entries_perm _, follows.moves, whole, ?_⟩
  intro m _ visit
  rw [forEach, whole]

/-- Fields and children in turn: every kind of move, past both ends and to keys that are not
there. -/
theorem moves_ofBucket_of_five :
    let bucket : Bucket := [([97], .value [65]), ([98], .bucket []), ([99], .value [67]),
      ([100], .bucket [([97], .value [])]), ([101], .value [])]
    (Cursor.ofBucket bucket).moves [.current, .prev, .next, .seek [98, 98], .current, .prev, .first,
        .prev, .seek [122], .current, .next] =
      [none, some ([101], some []), none, some ([99], some [67]), some ([99], some [67]),
        some ([98], none), some ([97], some [65]), none, none, some ([97], some [65]),
        some ([98], none)] ∧
      bucket.iter = [([97], some [65]), ([98], none), ([99], some [67]), ([100], none),
        ([101], some [])] := by
  intro bucket
  have ordered : OrderedMap.Ordered bucket := by
    unfold OrderedMap.Ordered
    decide
  have sorted := sorted_ofBucket ordered
  obtain ⟨_, _, moves, iter, _⟩ := moves_ofBucket sorted.fields sorted.children sorted.separate
  rw [entries_ofBucket ordered] at moves iter
  refine ⟨(moves _).trans ?_, iter⟩
  decide

end Bucket

end ClusterRegistry
