import ClusterRegistry.Tree

/-!
A cursor walks the entries of one bucket in key order.  Fields and children are two maps, so each
move looks for the nearest entry in both and takes the nearer one.  The cursor remembers the key
that it stands on; a move that finds no entry leaves it where it was, except that going to either
end of an empty bucket takes it off every entry.
-/
namespace ClusterRegistry

/-- A field with its value, or a child without one. -/
abbrev Entry := Key × Option Bytes

/-- Where a range of keys begins or ends. -/
inductive Bound where
  | unbounded
  | included (key : Key)
  | excluded (key : Key)

namespace Bound

/-- Whether `key` is in the range that begins here and has no end. -/
def isBelow (bound : Bound) (key : Key) : Bool :=
  match bound with
  | unbounded => true
  | included first => ¬key < first
  | excluded before => before < key

/-- Whether `key` is in the range that ends here and has no beginning. -/
def isAbove (bound : Bound) (key : Key) : Bool :=
  match bound with
  | unbounded => true
  | included last => ¬last < key
  | excluded after => key < after

end Bound

structure Cursor where
  fields : List (Key × Bytes)
  children : List (Key × Bucket)
  position : Option Key

namespace Cursor

inductive Move where
  | first
  | last
  | next
  | prev
  | seek (key : Key)
  | current

def ofBucket (bucket : Bucket) : Cursor :=
  ⟨bucket.fields, bucket.children, none⟩

def ofField (field : Key × Bytes) : Entry :=
  (field.1, some field.2)

def ofChild (child : Key × Bucket) : Entry :=
  (child.1, none)

/-- The one of two entries that is met first in a direction. -/
def nearer (before : Key → Key → Bool) : Option Entry → Option Entry → Option Entry
  | some field, some child => some (if before field.1 child.1 then field else child)
  | field, child => field.or child

/-- The first entry of the range that begins at `lower`. -/
def lowest? (cursor : Cursor) (lower : Bound) : Option Entry :=
  nearer (fun key other => key < other)
    ((cursor.fields.find? fun field => lower.isBelow field.1).map ofField)
    ((cursor.children.find? fun child => lower.isBelow child.1).map ofChild)

/-- The last entry of the range that ends at `upper`. -/
def highest? (cursor : Cursor) (upper : Bound) : Option Entry :=
  nearer (fun key other => other < key)
    ((cursor.fields.reverse.find? fun field => upper.isAbove field.1).map ofField)
    ((cursor.children.reverse.find? fun child => upper.isAbove child.1).map ofChild)

/-- Stand on the entry that a move found, if it found one. -/
def settle (cursor : Cursor) (entry : Option Entry) : Option Entry × Cursor :=
  match entry with
  | some (key, value) => (some (key, value), { cursor with position := some key })
  | none => (none, cursor)

def move (cursor : Cursor) (step : Move) : Option Entry × Cursor :=
  match step, cursor.position with
  | .first, _ | .next, none =>
    settle { cursor with position := none } (cursor.lowest? .unbounded)
  | .last, _ | .prev, none =>
    settle { cursor with position := none } (cursor.highest? .unbounded)
  | .next, some key => cursor.settle (cursor.lowest? (.excluded key))
  | .prev, some key => cursor.settle (cursor.highest? (.excluded key))
  | .seek key, _ => cursor.settle (cursor.lowest? (.included key))
  | .current, some key =>
    ((cursor.lowest? (.included key)).filter fun entry => entry.1 = key, cursor)
  | .current, none => (none, cursor)

def moves (cursor : Cursor) : List Move → List (Option Entry)
  | [] => []
  | step :: rest =>
    let (entry, next) := cursor.move step
    entry :: next.moves rest

/-- Where the range begins that a step forward looks into. -/
def onward (cursor : Cursor) : Bound :=
  match cursor.position with
  | some key => .excluded key
  | none => .unbounded

theorem move_next (cursor : Cursor) :
    cursor.move .next = cursor.settle (cursor.lowest? cursor.onward) := by
  obtain ⟨fields, children, position⟩ := cursor
  cases position <;> rfl

def keys (cursor : Cursor) : List Key :=
  cursor.fields.map Prod.fst ++ cursor.children.map Prod.fst

theorem nearer_eq_some {before : Key → Key → Bool} {field child : Option Entry} {entry : Entry}
    (found : nearer before field child = some entry) : field = some entry ∨ child = some entry := by
  unfold nearer at found
  split at found
  · split at found
    · exact .inl found
    · exact .inr found
  · exact (Option.or_eq_some_iff.mp found).imp_right And.right

theorem key_of_lowest? {cursor : Cursor} {lower : Bound} {entry : Entry}
    (found : cursor.lowest? lower = some entry) :
    entry.1 ∈ cursor.keys ∧ lower.isBelow entry.1 := by
  rcases nearer_eq_some found with field | child
  · obtain ⟨field, here, rfl⟩ := Option.map_eq_some_iff.mp field
    exact ⟨List.mem_append_left _ (List.mem_map_of_mem (List.mem_of_find?_eq_some here)),
      List.find?_some (p := fun field : Key × Bytes => lower.isBelow field.1) here⟩
  · obtain ⟨child, here, rfl⟩ := Option.map_eq_some_iff.mp child
    exact ⟨List.mem_append_right _ (List.mem_map_of_mem (List.mem_of_find?_eq_some here)),
      List.find?_some (p := fun child : Key × Bucket => lower.isBelow child.1) here⟩

/-- A step forward leaves fewer keys ahead. -/
theorem length_ahead_of_next {cursor later : Cursor} {entry : Entry}
    (moved : cursor.move .next = (some entry, later)) :
    (later.keys.filter later.onward.isBelow).length <
      (cursor.keys.filter cursor.onward.isBelow).length := by
  rw [move_next] at moved
  cases found : cursor.lowest? cursor.onward with
  | none =>
    rw [found] at moved
    cases moved
  | some entry =>
    rw [found] at moved
    cases moved
    obtain ⟨member, ahead⟩ := key_of_lowest? found
    have further (key : Key) (beyond : entry.1 < key) : cursor.onward.isBelow key := by
      unfold onward at ahead ⊢
      cases position : cursor.position with
      | none => rfl
      | some place =>
        rw [position] at ahead
        exact decide_eq_true (List.lt_trans (of_decide_eq_true ahead) beyond)
    have nested : (cursor.keys.filter (Bound.excluded entry.1).isBelow) =
        (cursor.keys.filter cursor.onward.isBelow).filter (Bound.excluded entry.1).isBelow := by
      rw [List.filter_filter]
      refine List.filter_congr fun key _ => ?_
      cases beyond : (Bound.excluded entry.1).isBelow key with
      | false => rfl
      | true => exact (further key (of_decide_eq_true beyond)).symm
    change (cursor.keys.filter (Bound.excluded entry.1).isBelow).length < _
    rw [nested, List.length_filter_lt_length_iff_exists]
    refine ⟨entry.1, List.mem_filter.mpr ⟨member, ahead⟩, fun passed => ?_⟩
    exact List.lt_irrefl _ (of_decide_eq_true passed)

/-- All entries that steps forward come to, until there is none. -/
def rest (cursor : Cursor) : List Entry :=
  match _ : cursor.move .next with
  | (some entry, later) => entry :: later.rest
  | (none, _) => []
termination_by (cursor.keys.filter cursor.onward.isBelow).length
decreasing_by exact length_ahead_of_next ‹_›

end Cursor

namespace Bucket

/-- All entries in key order. -/
def iter (bucket : Bucket) : List Entry :=
  match (Cursor.ofBucket bucket).move .first with
  | (some entry, cursor) => entry :: cursor.rest
  | (none, _) => []

/-- Visit all entries in key order, until a visit fails. -/
def forEach [Monad m] (bucket : Bucket) (visit : Key → Option Bytes → m Unit) : m Unit :=
  bucket.iter.forM fun entry => visit entry.1 entry.2

end Bucket

end ClusterRegistry
