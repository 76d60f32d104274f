import ClusterRegistry.Proofs.Tree.Snapshot

/-!
A bucket as two maps, one of its fields and one of its children, where nothing but the checks of
each change keeps a key out of both.  A tree with ascending keys, taken apart into such nodes, is
changed by a record as the tree is, with the same refusals.
-/
namespace ClusterRegistry

def Item.bytes? : Item → Option Bytes
  | .value bytes => some bytes
  | .bucket _ => none

def Item.entries? : Item → Option Bucket
  | .value _ => none
  | .bucket entries => some entries

namespace Bucket

theorem Lawful.at? {fits : Record → Prop} {front path : BucketPath} {bucket inner : Bucket}
    (lawful : Lawful fits front bucket) (reached : bucket.at? path = some inner) :
    Lawful fits (front ++ path) inner := by
  induction path generalizing front bucket with
  | nil =>
    cases reached
    rwa [List.append_nil]
  | cons segment path ih =>
    rw [Bucket.at?] at reached
    split at reached
    · rename_i child there
      rw [List.append_cons]
      exact ih (lawful.child there).2 reached
    · contradiction

/-- What is under a key is nothing, a value or a bucket. -/
theorem lookup (bucket : Bucket) (key : Key) :
    (bucket.item? key = none ∧ bucket.field? key = none ∧ bucket.child? key = none) ∨
      (∃ bytes, bucket.item? key = some (.value bytes) ∧ bucket.field? key = some bytes ∧
        bucket.child? key = none) ∨
      ∃ child, bucket.item? key = some (.bucket child) ∧ bucket.field? key = none ∧
        bucket.child? key = some child := by
  unfold field? child?
  cases bucket.item? key with
  | none => exact .inl ⟨rfl, rfl, rfl⟩
  | some item =>
    cases item with
    | value bytes => exact .inr (.inl ⟨bytes, rfl, rfl, rfl⟩)
    | bucket child => exact .inr (.inr ⟨child, rfl, rfl, rfl⟩)

private theorem field?_eq (bucket : Bucket) (key : Key) :
    bucket.field? key = (bucket.item? key).bind Item.bytes? := by
  unfold field?
  cases bucket.item? key with
  | none => rfl
  | some item => cases item <;> rfl

theorem child?_eq (bucket : Bucket) (key : Key) :
    bucket.child? key = (bucket.item? key).bind Item.entries? := by
  unfold child?
  cases bucket.item? key with
  | none => rfl
  | some item => cases item <;> rfl

theorem field?_cons (key other : Key) (item : Item) (bucket : Bucket) :
    field? ((key, item) :: bucket) other =
      if other = key then item.bytes? else bucket.field? other := by
  rw [field?_eq, field?_eq, item?, OrderedMap.find?]
  split <;> rfl

theorem child?_cons (key other : Key) (item : Item) (bucket : Bucket) :
    child? ((key, item) :: bucket) other =
      if other = key then item.entries? else bucket.child? other := by
  rw [child?_eq, child?_eq, item?, OrderedMap.find?]
  split <;> rfl

private theorem field?_insert (key other : Key) (item : Item) (bucket : Bucket) :
    field? (OrderedMap.insert key item bucket) other =
      if other = key then item.bytes? else bucket.field? other := by
  rw [field?_eq, field?_eq, item?, OrderedMap.find?_insert]
  split <;> rfl

private theorem child?_insert_item (key other : Key) (item : Item) (bucket : Bucket) :
    child? (OrderedMap.insert key item bucket) other =
      if other = key then item.entries? else bucket.child? other := by
  rw [child?_eq, child?_eq, item?, OrderedMap.find?_insert]
  split <;> rfl

private theorem field?_erase (key other : Key) (bucket : Bucket) :
    field? (OrderedMap.erase key bucket) other =
      if other = key then none else bucket.field? other := by
  rw [field?_eq, field?_eq, item?, OrderedMap.find?_erase]
  split <;> rfl

private theorem child?_erase (key other : Key) (bucket : Bucket) :
    child? (OrderedMap.erase key bucket) other =
      if other = key then none else bucket.child? other := by
  rw [child?_eq, child?_eq, item?, OrderedMap.find?_erase]
  split <;> rfl

end Bucket

structure Node where
  fields : List (Key × Bytes)
  children : List (Key × Node)

namespace Node

def empty : Node :=
  ⟨[], []⟩

def field? (node : Node) (key : Key) : Option Bytes :=
  OrderedMap.find? key node.fields

def child? (node : Node) (key : Key) : Option Node :=
  OrderedMap.find? key node.children

def at? (node : Node) : BucketPath → Option Node
  | [] => some node
  | segment :: path =>
    match node.child? segment with
    | some child => child.at? path
    | none => none

def putField (key value : Bytes) (node : Node) : Except TreeError Node :=
  if (node.child? key).isSome then .error (.incompatible key)
  else .ok { node with fields := OrderedMap.insert key value node.fields }

def removeField (key : Key) (node : Node) : Except TreeError Node :=
  if (node.child? key).isSome then .error (.incompatible key)
  else .ok { node with fields := OrderedMap.erase key node.fields }

def createChild (key : Key) (node : Node) : Except TreeError Node :=
  if (node.field? key).isSome then .error (.incompatible key)
  else if (node.child? key).isSome then .error (.bucketExists key)
  else .ok { node with children := OrderedMap.insert key empty node.children }

def removeChild (key : Key) (node : Node) : Except TreeError Node :=
  if (node.field? key).isSome then .error (.incompatible key)
  else if (node.child? key).isSome then
    .ok { node with children := OrderedMap.erase key node.children }
  else .error (.bucketNotFound key)

def changeAt (change : Node → Except TreeError Node) : BucketPath → Node → Except TreeError Node
  | [], node => change node
  | segment :: path, node =>
    match node.child? segment with
    | none => .error (.bucketNotFound segment)
    | some child =>
      match changeAt change path child with
      | .error error => .error error
      | .ok child => .ok { node with children := OrderedMap.insert segment child node.children }

def apply (record : Record) (tree : Node) : Except TreeError Node :=
  match record.operation with
  | .put => changeAt (putField record.key record.value) record.path tree
  | .delete => changeAt (removeField record.key) record.path tree
  | .createBucket => changeAt (createChild record.key) record.path tree
  | .deleteBucket => changeAt (removeChild record.key) record.path tree
  | .checkpoint => .ok empty
  | .commit => .ok tree

def replay (records : List Record) (tree : Node) : Except TreeError Node :=
  records.foldlM (fun tree record => tree.apply record) tree

/-- No key is in both maps of a node, at any depth. -/
def Separate (tree : Node) : Prop :=
  ∀ path node, tree.at? path = some node →
    ∀ key, node.field? key = none ∨ node.child? key = none

/-- No key is empty, at any depth. -/
def Named (tree : Node) : Prop :=
  ∀ path node, tree.at? path = some node →
    (∀ field ∈ node.fields, field.1 ≠ []) ∧ ∀ child ∈ node.children, child.1 ≠ []

mutual
def ofItem? : Item → Option Node
  | .value _ => none
  | .bucket entries => some ⟨Bucket.fields entries, childrenOf entries⟩

def childrenOf : List (Key × Item) → List (Key × Node)
  | [] => []
  | (key, item) :: rest =>
    match ofItem? item with
    | none => childrenOf rest
    | some node => (key, node) :: childrenOf rest
end

/-- Fields and children apart, at every depth. -/
def ofBucket (bucket : Bucket) : Node :=
  ⟨bucket.fields, childrenOf bucket⟩

private theorem ofItem?_bucket (bucket : Bucket) :
    ofItem? (.bucket bucket) = some (ofBucket bucket) := by
  rw [ofItem?, ofBucket]

private theorem childrenOf_cons_value (key : Key) (bytes : Bytes) (rest : Bucket) :
    childrenOf ((key, .value bytes) :: rest) = childrenOf rest := by
  rw [childrenOf, ofItem?]

private theorem childrenOf_cons_bucket (key : Key) (bucket rest : Bucket) :
    childrenOf ((key, .bucket bucket) :: rest) = (key, ofBucket bucket) :: childrenOf rest := by
  rw [childrenOf, ofItem?_bucket]

private theorem mem_childrenOf {bucket : Bucket} {child : Key × Node}
    (member : child ∈ childrenOf bucket) :
    ∃ inner, (child.1, Item.bucket inner) ∈ bucket ∧ child.2 = ofBucket inner := by
  induction bucket with
  | nil => contradiction
  | cons entry rest ih =>
    obtain ⟨key, item⟩ := entry
    cases item with
    | value bytes =>
      rw [childrenOf_cons_value] at member
      obtain ⟨inner, inside, same⟩ := ih member
      exact ⟨inner, List.mem_cons_of_mem _ inside, same⟩
    | bucket inner =>
      rw [childrenOf_cons_bucket] at member
      rcases List.mem_cons.mp member with rfl | later
      · exact ⟨inner, List.mem_cons_self, rfl⟩
      · obtain ⟨other, inside, same⟩ := ih later
        exact ⟨other, List.mem_cons_of_mem _ inside, same⟩

private theorem childrenOf_of_mem {bucket inner : Bucket} {key : Key}
    (member : (key, Item.bucket inner) ∈ bucket) : (key, ofBucket inner) ∈ childrenOf bucket := by
  induction bucket with
  | nil => contradiction
  | cons entry rest ih =>
    obtain ⟨first, item⟩ := entry
    cases item with
    | value bytes =>
      rw [childrenOf_cons_value]
      exact ih ((List.mem_cons.mp member).resolve_left nofun)
    | bucket other =>
      rw [childrenOf_cons_bucket]
      rcases List.mem_cons.mp member with same | later
      · cases same
        exact List.mem_cons_self
      · exact List.mem_cons_of_mem _ (ih later)

variable {bucket : Bucket}

theorem ordered_fields (ordered : OrderedMap.Ordered bucket) : OrderedMap.Ordered bucket.fields := by
  induction bucket with
  | nil => exact List.Pairwise.nil
  | cons entry rest ih =>
    obtain ⟨below, others⟩ := List.pairwise_cons.mp ordered
    obtain ⟨key, item⟩ := entry
    cases item with
    | value bytes =>
      exact List.pairwise_cons.mpr
        ⟨fun field member => below _ (Bucket.mem_fields member), ih others⟩
    | bucket child => exact ih others

private theorem ordered_childrenOf (ordered : OrderedMap.Ordered bucket) :
    OrderedMap.Ordered (childrenOf bucket) := by
  induction bucket with
  | nil => exact List.Pairwise.nil
  | cons entry rest ih =>
    obtain ⟨below, others⟩ := List.pairwise_cons.mp ordered
    obtain ⟨key, item⟩ := entry
    cases item with
    | value bytes =>
      rw [childrenOf_cons_value]
      exact ih others
    | bucket inner =>
      rw [childrenOf_cons_bucket]
      refine List.pairwise_cons.mpr ⟨fun child member => ?_, ih others⟩
      obtain ⟨other, inside, _⟩ := mem_childrenOf member
      exact below _ inside

private theorem field?_ofBucket (ordered : OrderedMap.Ordered bucket) (key : Key) :
    (ofBucket bucket).field? key = bucket.field? key := by
  have fields := ordered_fields ordered
  apply Option.ext
  intro bytes
  rw [Bucket.field?_eq_some]
  constructor
  · intro found
    exact OrderedMap.find?_of_mem ordered (Bucket.mem_fields (OrderedMap.mem_of_find? found))
  · intro found
    apply OrderedMap.find?_of_mem fields
    exact List.mem_filterMap.mpr ⟨_, OrderedMap.mem_of_find? found, rfl⟩

private theorem child?_ofBucket (ordered : OrderedMap.Ordered bucket) (key : Key) :
    (ofBucket bucket).child? key = (bucket.child? key).map ofBucket := by
  have children := ordered_childrenOf ordered
  apply Option.ext
  intro node
  rw [Option.map_eq_some_iff]
  constructor
  · intro found
    obtain ⟨inner, inside, same⟩ := mem_childrenOf (OrderedMap.mem_of_find? found)
    exact ⟨inner, Bucket.child?_eq_some.mpr (OrderedMap.find?_of_mem ordered inside), same.symm⟩
  · intro found
    obtain ⟨inner, found, rfl⟩ := found
    apply OrderedMap.find?_of_mem children
    exact childrenOf_of_mem (OrderedMap.mem_of_find? (Bucket.child?_eq_some.mp found))

/-- What the look-ups in the tree say is all that there is to its two maps. -/
theorem ofBucket_eq {fields : List (Key × Bytes)} {children : List (Key × Node)}
    (ordered : OrderedMap.Ordered bucket) (orderedFields : OrderedMap.Ordered fields)
    (orderedChildren : OrderedMap.Ordered children)
    (sameFields : ∀ key, bucket.field? key = OrderedMap.find? key fields)
    (sameChildren : ∀ key, (bucket.child? key).map ofBucket = OrderedMap.find? key children) :
    ofBucket bucket = ⟨fields, children⟩ := by
  have first : bucket.fields = fields :=
    OrderedMap.ext_find? (ordered_fields ordered) orderedFields fun key =>
      (field?_ofBucket ordered key).trans (sameFields key)
  have second : childrenOf bucket = children :=
    OrderedMap.ext_find? (ordered_childrenOf ordered) orderedChildren fun key =>
      (child?_ofBucket ordered key).trans (sameChildren key)
  rw [ofBucket, first, second]

section Changes

variable {key : Key}

private theorem ofBucket_insert_value (ordered : OrderedMap.Ordered bucket)
    (childless : bucket.child? key = none) (bytes : Bytes) :
    ofBucket (OrderedMap.insert key (.value bytes) bucket) =
      ⟨OrderedMap.insert key bytes bucket.fields, childrenOf bucket⟩ := by
  refine ofBucket_eq (OrderedMap.ordered_insert key _ ordered)
    (OrderedMap.ordered_insert key _ (ordered_fields ordered)) (ordered_childrenOf ordered) ?_ ?_
  · intro other
    rw [Bucket.field?_insert, OrderedMap.find?_insert, ← field?_ofBucket ordered]
    rfl
  · intro other
    rw [Bucket.child?_insert_item, ite_eq_right_iff.mpr fun same => same ▸ childless.symm]
    exact (child?_ofBucket ordered other).symm

private theorem ofBucket_insert_bucket (ordered : OrderedMap.Ordered bucket)
    (fieldless : bucket.field? key = none) (child : Bucket) :
    ofBucket (OrderedMap.insert key (.bucket child) bucket) =
      ⟨bucket.fields, OrderedMap.insert key (ofBucket child) (childrenOf bucket)⟩ := by
  refine ofBucket_eq (OrderedMap.ordered_insert key _ ordered) (ordered_fields ordered)
    (OrderedMap.ordered_insert key _ (ordered_childrenOf ordered)) ?_ ?_
  · intro other
    rw [Bucket.field?_insert, ite_eq_right_iff.mpr fun same => same ▸ fieldless.symm]
    exact (field?_ofBucket ordered other).symm
  · intro other
    rw [Bucket.child?_insert_item, OrderedMap.find?_insert]
    split
    · rfl
    · exact (child?_ofBucket ordered other).symm

private theorem ofBucket_erase_field (ordered : OrderedMap.Ordered bucket)
    (childless : bucket.child? key = none) :
    ofBucket (OrderedMap.erase key bucket) =
      ⟨OrderedMap.erase key bucket.fields, childrenOf bucket⟩ := by
  refine ofBucket_eq (OrderedMap.ordered_erase key ordered)
    (OrderedMap.ordered_erase key (ordered_fields ordered)) (ordered_childrenOf ordered) ?_ ?_
  · intro other
    rw [Bucket.field?_erase, OrderedMap.find?_erase, ← field?_ofBucket ordered]
    rfl
  · intro other
    rw [Bucket.child?_erase, ite_eq_right_iff.mpr fun same => same ▸ childless.symm]
    exact (child?_ofBucket ordered other).symm

private theorem ofBucket_erase_child (ordered : OrderedMap.Ordered bucket)
    (fieldless : bucket.field? key = none) :
    ofBucket (OrderedMap.erase key bucket) =
      ⟨bucket.fields, OrderedMap.erase key (childrenOf bucket)⟩ := by
  refine ofBucket_eq (OrderedMap.ordered_erase key ordered) (ordered_fields ordered)
    (OrderedMap.ordered_erase key (ordered_childrenOf ordered)) ?_ ?_
  · intro other
    rw [Bucket.field?_erase, ite_eq_right_iff.mpr fun same => same ▸ fieldless.symm]
    exact (field?_ofBucket ordered other).symm
  · intro other
    rw [Bucket.child?_erase, OrderedMap.find?_erase]
    split
    · rfl
    · exact (child?_ofBucket ordered other).symm

/-- A change of a node does what a change of the bucket does, of which it is the two maps. -/
def Mirrors (change : Node → Except TreeError Node) (original : Bucket → Except TreeError Bucket) :
    Prop :=
  ∀ bucket : Bucket, OrderedMap.Ordered bucket →
    change (ofBucket bucket) = (original bucket).map ofBucket

theorem mirrors_putField (key value : Bytes) :
    Mirrors (putField key value) (Bucket.putField key value) := by
  intro bucket ordered
  rw [putField, child?_ofBucket ordered, Bucket.putField]
  rcases bucket.lookup key with
    ⟨absent, _, childless⟩ | ⟨bytes, stored, _, childless⟩ | ⟨child, found, _, there⟩
  · rw [absent, childless]
    exact congrArg Except.ok (ofBucket_insert_value ordered childless value).symm
  · rw [stored, childless]
    exact congrArg Except.ok (ofBucket_insert_value ordered childless value).symm
  · rw [found, there]
    rfl

theorem mirrors_removeField (key : Key) :
    Mirrors (removeField key) (Bucket.removeField key) := by
  intro bucket ordered
  rw [removeField, child?_ofBucket ordered, Bucket.removeField]
  rcases bucket.lookup key with
    ⟨absent, _, childless⟩ | ⟨bytes, stored, _, childless⟩ | ⟨child, found, _, there⟩
  · rw [absent, childless]
    exact congrArg Except.ok (ofBucket_erase_field ordered childless).symm
  · rw [stored, childless]
    exact congrArg Except.ok (ofBucket_erase_field ordered childless).symm
  · rw [found, there]
    rfl

theorem mirrors_createChild (key : Key) :
    Mirrors (createChild key) (Bucket.createChild key) := by
  intro bucket ordered
  rw [createChild, field?_ofBucket ordered, child?_ofBucket ordered, Bucket.createChild]
  rcases bucket.lookup key with
    ⟨absent, fieldless, childless⟩ | ⟨bytes, stored, field, _⟩ | ⟨child, found, fieldless, there⟩
  · rw [absent, fieldless, childless]
    exact congrArg Except.ok (ofBucket_insert_bucket ordered fieldless []).symm
  · rw [stored, field]
    rfl
  · rw [found, fieldless, there]
    rfl

theorem mirrors_removeChild (key : Key) :
    Mirrors (removeChild key) (Bucket.removeChild key) := by
  intro bucket ordered
  rw [removeChild, field?_ofBucket ordered, child?_ofBucket ordered, Bucket.removeChild]
  rcases bucket.lookup key with
    ⟨absent, fieldless, childless⟩ | ⟨bytes, stored, field, _⟩ | ⟨child, found, fieldless, there⟩
  · rw [absent, fieldless, childless]
    rfl
  · rw [stored, field]
    rfl
  · rw [found, fieldless, there]
    exact congrArg Except.ok (ofBucket_erase_child ordered fieldless).symm

end Changes

variable {fits : Record → Prop} {front : BucketPath}

theorem changeAt_ofBucket {change : Node → Except TreeError Node}
    {original : Bucket → Except TreeError Bucket} (mirrors : Mirrors change original)
    {path : BucketPath} (lawful : bucket.Lawful fits front) :
    changeAt change path (ofBucket bucket) = (Bucket.changeAt original path bucket).map ofBucket := by
  induction path generalizing front bucket with
  | nil => exact mirrors bucket lawful.ordered
  | cons segment path ih =>
    rw [changeAt, child?_ofBucket lawful.ordered, Bucket.changeAt]
    rcases bucket.lookup segment with
      ⟨_, _, childless⟩ | ⟨_, _, _, childless⟩ | ⟨child, _, fieldless, there⟩
    · rw [childless]
      rfl
    · rw [childless]
      rfl
    · rw [there]
      simp only [Option.map_some, ih (lawful.child there).2]
      cases Bucket.changeAt original path child with
      | error error => rfl
      | ok changed =>
        exact congrArg Except.ok
          (ofBucket_insert_bucket lawful.ordered fieldless changed).symm

theorem apply_ofBucket {tree : Bucket} (wellFormed : tree.WellFormed) (record : Record) :
    (ofBucket tree).apply record = (tree.apply record).map ofBucket := by
  obtain ⟨operation, path, key, value⟩ := record
  cases operation with
  | put => exact changeAt_ofBucket (mirrors_putField key value) wellFormed
  | delete => exact changeAt_ofBucket (mirrors_removeField key) wellFormed
  | createBucket => exact changeAt_ofBucket (mirrors_createChild key) wellFormed
  | deleteBucket => exact changeAt_ofBucket (mirrors_removeChild key) wellFormed
  | commit => rfl
  | checkpoint => rfl

/-- The checks of single changes are enough: whatever is replayed, the two maps stay those of a tree
in which no key can be in both. -/
theorem replay_ofBucket {tree : Bucket} (wellFormed : tree.WellFormed) (records : List Record) :
    (ofBucket tree).replay records = (tree.replay records).map ofBucket := by
  induction records generalizing tree with
  | nil => rfl
  | cons record records ih =>
    change (ofBucket tree).apply record >>= replay records = (tree.apply record >>= _).map ofBucket
    rw [apply_ofBucket wellFormed]
    cases applied : tree.apply record with
    | error error => rfl
    | ok next =>
      exact ih (wellFormed.apply (fun _ => trivial) (fun _ => trivial) applied)

theorem at?_ofBucket (lawful : bucket.Lawful fits front) (path : BucketPath) :
    (ofBucket bucket).at? path = (bucket.at? path).map ofBucket := by
  induction path generalizing front bucket with
  | nil => rfl
  | cons segment path ih =>
    rw [at?, child?_ofBucket lawful.ordered, Bucket.at?]
    cases there : bucket.child? segment with
    | none => rfl
    | some child => exact ih (lawful.child there).2

theorem separate_ofBucket {tree : Bucket} (wellFormed : tree.WellFormed) :
    (ofBucket tree).Separate := by
  intro path node reached key
  rw [at?_ofBucket wellFormed, Option.map_eq_some_iff] at reached
  obtain ⟨bucket, reached, rfl⟩ := reached
  have ordered := (wellFormed.at? reached).ordered
  rw [field?_ofBucket ordered, child?_ofBucket ordered]
  rcases bucket.lookup key with ⟨_, fieldless, _⟩ | ⟨_, _, _, childless⟩ | ⟨_, _, fieldless, _⟩
  · exact .inl fieldless
  · exact .inr (congrArg _ childless)
  · exact .inl fieldless

theorem named_ofBucket {tree : Bucket} (lawful : tree.Lawful fits [])
    (named : ∀ record, fits record → record.key ≠ []) : (ofBucket tree).Named := by
  intro path node reached
  rw [at?_ofBucket lawful, Option.map_eq_some_iff] at reached
  obtain ⟨bucket, reached, rfl⟩ := reached
  have below := (lawful.at? reached).inner
  constructor
  · intro field member
    cases below _ (Bucket.mem_fields member) with
    | value fit => exact named _ fit
  · intro child member
    obtain ⟨inner, inside, _⟩ := mem_childrenOf member
    cases below _ inside with
    | bucket fit => exact named _ fit

/-- No field can be in the root where only puts further down fit. -/
theorem fields_ofBucket {tree : Bucket} (lawful : tree.Lawful fits [])
    (inner : ∀ key value, ¬fits (.put [] key value)) : (ofBucket tree).fields = [] := by
  apply List.eq_nil_iff_forall_not_mem.mpr
  intro field member
  cases lawful.inner _ (Bucket.mem_fields member) with
  | value fit => exact inner _ _ fit

end Node

end ClusterRegistry
