import ClusterRegistry.Proofs.Cluster.Indices
import ClusterRegistry.Proofs.Tree.TwoMaps

/-!
Entries that nothing is read from.  A cluster is read from buckets of several kinds, and each kind
has names of its own; lists have indices besides.  Whatever stands under any other key, in whichever
of these buckets, makes no difference to what is read or to how reading is refused.
-/
namespace ClusterRegistry.Layout

open Numeral

/-- The kinds of buckets that a cluster is read from. -/
inductive Level where
  | cluster
  | groups
  | group
  | peer
  | texts
  | labels
deriving DecidableEq

namespace Level

def names : Level → List String
  | cluster => [createdAt, updatedAt, definition, Layout.labels, id, status]
  | groups | texts => [count]
  | group => [Layout.labels, definition, instanceType, region, size]
  | peer => [transports, muxers, securityTransports, gitReference, routing]
  | labels => []

def isIndexed (level : Level) : Bool :=
  level = groups || level = texts

/-- The keys that are looked up at a level. -/
def Reads (level : Level) (key : Key) : Prop :=
  key ∈ level.names.map Bytes.ofText ∨ level.isIndexed ∧ (index? key).isSome

/-- A label may be any text, but it is a field. -/
def Ignores (level : Level) (key : Key) : Item → Prop
  | .value _ => level ≠ labels ∧ ¬level.Reads key
  | .bucket _ => ¬level.Reads key

instance Reads.decidable (level : Level) (key : Key) : Decidable (level.Reads key) :=
  inferInstanceAs (Decidable (_ ∨ _ ∧ _))

instance Ignores.decidable (level : Level) (key : Key) : (item : Item) →
    Decidable (level.Ignores key item)
  | .value _ => inferInstanceAs (Decidable (_ ∧ _))
  | .bucket _ => inferInstanceAs (Decidable (¬_))

/-- What kind of bucket is read under a key. -/
def inside (level : Level) (key : Key) : Option Level :=
  match level with
  | cluster =>
    if key = Bytes.ofText definition then some groups
    else if key = Bytes.ofText Layout.labels then some labels
    else none
  | groups => if (index? key).isSome then some group else none
  | group =>
    if key = Bytes.ofText definition then some peer
    else if key = Bytes.ofText Layout.labels then some labels
    else none
  | peer =>
    if key ∈ [transports, muxers, securityTransports].map Bytes.ofText then some texts else none
  | texts | labels => none

variable {level inner : Level} {key : Key} {item : Item}

private theorem Ignores.not_reads (ignored : level.Ignores key item) : ¬level.Reads key := by
  cases item with
  | value bytes => exact ignored.2
  | bucket entries => exact ignored

private theorem reads_of_name {name : String} (known : name ∈ level.names) :
    level.Reads (Bytes.ofText name) :=
  .inl (List.mem_map_of_mem known)

private theorem reads_of_index (indexed : level.isIndexed) {index : Nat}
    (small : index < wordLimit) :
    level.Reads (indexKey index) :=
  .inr ⟨indexed, by rw [index?_indexKey small]; rfl⟩

private theorem reads_of_inside (within : level.inside key = some inner) : level.Reads key := by
  unfold inside at within
  cases level with
  | cluster | group =>
    dsimp only at within
    split at within
    · rename_i same
      exact same ▸ reads_of_name (by decide)
    · split at within
      · rename_i same
        exact same ▸ reads_of_name (by decide)
      · contradiction
  | groups =>
    dsimp only at within
    split at within
    · rename_i index
      exact .inr ⟨rfl, index⟩
    · contradiction
  | peer =>
    dsimp only at within
    split at within
    · rename_i member
      exact .inl (List.map_subset _ (by decide) member)
    · contradiction
  | texts | labels => contradiction

end Level

/-- The buckets differ in nothing but entries of `after` that are ignored where they stand, at any
depth.  A decimal from `wordLimit` on is no index and may be added too, so a list that is padded must
have had fewer entries than that. -/
inductive Padded : Level → Bucket → Bucket → Prop
  | nil {level : Level} : Padded level [] []
  | keep {level : Level} {before after : Bucket} (key : Key) (item : Item)
      (rest : Padded level before after) :
      Padded level ((key, item) :: before) ((key, item) :: after)
  | descend {level inner : Level} {before after child changed : Bucket} {key : Key}
      (within : level.inside key = some inner) (short : inner.isIndexed → child.length < wordLimit)
      (padded : Padded inner child changed) (rest : Padded level before after) :
      Padded level ((key, .bucket child) :: before) ((key, .bucket changed) :: after)
  | extra {level : Level} {before after : Bucket} {key : Key} {item : Item}
      (ignored : level.Ignores key item) (rest : Padded level before after) :
      Padded level before ((key, item) :: after)

namespace Padded

variable {level inner : Level} {before after : Bucket} {key : Key}

theorem field? (padded : Padded level before after) (known : level.Reads key) :
    after.field? key = before.field? key := by
  induction padded with
  | nil => rfl
  | keep _ _ _ ih => rw [Bucket.field?_cons, Bucket.field?_cons, ih known]
  | descend _ _ _ _ _ ih =>
    rw [Bucket.field?_cons, Bucket.field?_cons, ih known]
    rfl
  | extra ignored _ ih =>
    rw [Bucket.field?_cons, if_neg, ih known]
    intro found
    exact ignored.not_reads (found ▸ known)

/-- What is read of a child is the same if it is the same for all children of its kind. -/
theorem child? {α : Type} (observe : Bucket → α) (padded : Padded level before after)
    (within : level.inside key = some inner)
    (same : ∀ {child changed}, Padded inner child changed →
      (inner.isIndexed → child.length < wordLimit) → observe changed = observe child) :
    (after.child? key).map observe = (before.child? key).map observe := by
  have known := Level.reads_of_inside within
  induction padded with
  | nil => rfl
  | keep _ _ _ ih =>
    rw [Bucket.child?_cons, Bucket.child?_cons]
    split
    · rfl
    · exact ih within known
  | descend here short child _ _ ih =>
    rw [Bucket.child?_cons, Bucket.child?_cons]
    split
    · rename_i found
      cases (found ▸ within).symm.trans here
      exact congrArg some (same child short)
    · exact ih within known
  | extra ignored _ ih =>
    rw [Bucket.child?_cons, if_neg, ih within known]
    intro found
    exact ignored.not_reads (found ▸ known)

theorem strayIndex? (padded : Padded level before after) (indexed : level.isIndexed)
    (length : Nat) : strayIndex? after length = strayIndex? before length := by
  unfold Layout.strayIndex?
  induction padded with
  | nil => rfl
  | keep _ _ _ ih | descend _ _ _ _ _ ih =>
    rw [List.findSome?_cons, List.findSome?_cons, ih indexed]
  | @extra _ _ _ key _ ignored _ ih =>
    have foreign : index? key = none := by
      refine Option.not_isSome_iff_eq_none.mp fun index => ?_
      exact ignored.not_reads (.inr ⟨indexed, index⟩)
    rw [List.findSome?_cons, foreign]
    exact ih indexed

theorem fields (padded : Padded .labels before after) : after.fields = before.fields := by
  generalize same : Level.labels = level at padded
  induction padded with
  | nil => rfl
  | keep _ item _ ih =>
    unfold Bucket.fields at ih ⊢
    rw [List.filterMap_cons, List.filterMap_cons, ih same]
  | descend within =>
    subst same
    contradiction
  | @extra _ _ _ _ item ignored _ ih =>
    subst same
    cases item with
    | value bytes => exact absurd rfl ignored.1
    | bucket entries => exact ih rfl

theorem length_le (padded : Padded level before after) : before.length ≤ after.length := by
  induction padded with
  | nil => exact Nat.le_refl _
  | keep _ _ _ ih | descend _ _ _ _ _ ih => exact Nat.succ_le_succ ih
  | extra _ _ ih => exact Nat.le_succ_of_le ih

theorem refl (level : Level) (bucket : Bucket) : Padded level bucket bucket := by
  induction bucket with
  | nil => exact .nil
  | cons entry rest ih => exact .keep entry.1 entry.2 ih

theorem insert (level : Level) {bucket : Bucket} {item : Item} (absent : bucket.item? key = none)
    (ignored : level.Ignores key item) :
    Padded level bucket (OrderedMap.insert key item bucket) := by
  induction bucket with
  | nil => exact .extra ignored .nil
  | cons entry rest ih =>
    obtain ⟨other, old⟩ := entry
    unfold OrderedMap.insert
    rw [Bucket.item?, OrderedMap.find?] at absent
    split at absent
    · contradiction
    · split
      · exact .extra ignored (refl level _)
      · exact .keep other old (ih absent)

section Name

variable {name : String} (padded : Padded level before after)
include padded

private theorem childNamed {α : Type} (name : String) (observe : Bucket → α)
    (within : level.inside (Bytes.ofText name) = some inner)
    (same : ∀ {child changed}, Padded inner child changed →
      (inner.isIndexed → child.length < wordLimit) → observe changed = observe child) :
    (Layout.child? after name).map observe = (Layout.child? before name).map observe :=
  padded.child? observe within same

theorem named (known : name ∈ level.names) :
    Layout.field? after name = Layout.field? before name :=
  padded.field? (Level.reads_of_name known)

theorem textField (known : name ∈ level.names) :
    Layout.textField after name = Layout.textField before name := by
  rw [Layout.textField, Layout.textField, padded.named known]

theorem instantField (known : name ∈ level.names) :
    Layout.instantField after name = Layout.instantField before name := by
  rw [Layout.instantField, Layout.instantField, padded.named known]

end Name

end Padded

/-- Lists that have the same entries under their indices have the same length, however many other
entries they have. -/
theorem EntryKind.length_congr (kind : EntryKind) {before after : Bucket}
    (present : ∀ index < wordLimit,
      kind.isPresent after (indexKey index) = kind.isPresent before (indexKey index))
    (counted : field? after count = field? before count)
    (stray : ∀ length, strayIndex? after length = strayIndex? before length)
    (grown : before.length ≤ after.length) (short : before.length < wordLimit) :
    kind.length after = kind.length before := by
  have small := Nat.lt_of_le_of_lt (kind.gap_le before) short
  have gap : kind.gap after = kind.gap before := by
    refine firstGap_eq (fun index earlier => ?_) ?_ (Nat.le_trans (kind.gap_le before) grown)
    · rw [present index (Nat.lt_trans earlier small)]
      exact kind.present_of_lt_gap before earlier
    · rw [present _ small]
      exact kind.absent_at_gap before
  have checked : ∀ length, checkLength after (kind.gap after) length =
      checkLength before (kind.gap before) length := by
    intro length
    rw [checkLength, checkLength, gap, stray]
  cases told : field? before count with
  | none =>
    rw [kind.length_of_uncounted (counted.trans told), kind.length_of_uncounted told, gap]
  | some raw =>
    rw [length, length, sequenceLength, sequenceLength, counted, told]
    exact congrArg _ (funext checked)

/-- The items of a list that was measured are read from entries that its length reaches. -/
theorem EntryKind.mapM_congr {α : Type} (kind : EntryKind) {before : Bucket} {length : Nat}
    {read other : Nat → Except ClusterError α} (measured : kind.length before = .ok length)
    (short : before.length < wordLimit) (same : ∀ index < wordLimit, other index = read index) :
    (List.range length).mapM other = (List.range length).mapM read := by
  refine Outcome.mapM_congr fun index member => same index ?_
  have before := List.mem_range.mp member
  have bound := kind.length_le measured
  omega

/-- The labels in a bucket of labels. -/
def labelsIn (set : Bucket) : Except ClusterError Labels :=
  set.fields.foldlM (fun found field => do return found.insert (← readText labels field.1)) .empty

def textsIn (name : String) (items : Bucket) : Except ClusterError (List String) :=
  reporting name do
    let length ← EntryKind.text.length items
    (List.range length).mapM fun index =>
      readText (toString index) ((items.field? (indexKey index)).getD [])

def peerIn (peer : Bucket) : Except ClusterError (Option Peer) := do
  let transports ← readTexts peer transports
  let muxers ← readTexts peer muxers
  let securityTransports ← readTexts peer securityTransports
  let gitReference ← textField peer gitReference
  let routing ← textField peer routing
  return some ⟨gitReference, transports, muxers, securityTransports, routing⟩

def groupsIn (groups : Bucket) : Except ClusterError (List Group) := do
  let length ← reporting "groups" (EntryKind.group.length groups)
  (List.range length).mapM fun index =>
    reporting ("group " ++ toString index) (readGroup ((groups.child? (indexKey index)).getD []))

section In

variable (bucket : Bucket)

private theorem readLabels_eq :
    readLabels bucket = ((child? bucket labels).map labelsIn).getD (.ok .empty) := by
  unfold readLabels
  cases child? bucket labels <;> rfl

private theorem readTexts_eq (name : String) :
    readTexts bucket name = ((child? bucket name).map (textsIn name)).getD (.ok []) := by
  unfold readTexts
  cases child? bucket name <;> rfl

private theorem readPeer_eq :
    readPeer bucket = ((child? bucket definition).map peerIn).getD (.ok none) := by
  unfold readPeer
  cases child? bucket definition <;> rfl

private theorem readGroups_eq :
    readGroups bucket = ((child? bucket definition).map groupsIn).getD (.ok []) := by
  unfold readGroups
  cases child? bucket definition <;> rfl

end In

namespace Padded

variable {level : Level} {before after : Bucket}

private theorem labelsIn (padded : Padded .labels before after) :
    labelsIn after = labelsIn before := by
  rw [Layout.labelsIn, Layout.labelsIn, padded.fields]

theorem readLabels (padded : Padded level before after)
    (within : level.inside (Bytes.ofText Layout.labels) = some .labels) :
    readLabels after = readLabels before := by
  have same := padded.childNamed labels Layout.labelsIn within fun inner _ => inner.labelsIn
  rw [readLabels_eq, readLabels_eq, same]

private theorem textsIn (padded : Padded .texts before after) (short : before.length < wordLimit)
    (name : String) : textsIn name after = textsIn name before := by
  have entry : ∀ index < wordLimit,
      after.field? (indexKey index) = before.field? (indexKey index) :=
    fun index small => padded.field? (Level.reads_of_index rfl small)
  have length : EntryKind.text.length after = EntryKind.text.length before :=
    EntryKind.text.length_congr (fun index small => congrArg Option.isSome (entry index small))
      (padded.named (by decide)) (padded.strayIndex? rfl) padded.length_le short
  unfold Layout.textsIn
  rw [length]
  cases measured : EntryKind.text.length before with
  | error error => rfl
  | ok length =>
    refine congrArg (reporting name) (EntryKind.text.mapM_congr measured short ?_)
    intro index small
    rw [entry index small]

theorem readTexts (padded : Padded .peer before after) {name : String}
    (within : Level.inside .peer (Bytes.ofText name) = some .texts) :
    readTexts after name = readTexts before name := by
  have same := padded.childNamed name (Layout.textsIn name) within
    fun inner short => inner.textsIn (short rfl) name
  rw [readTexts_eq, readTexts_eq, same]

private theorem peerIn (padded : Padded .peer before after) : peerIn after = peerIn before := by
  unfold Layout.peerIn
  rw [padded.readTexts (by decide), padded.readTexts (by decide), padded.readTexts (by decide),
    padded.textField (by decide), padded.textField (by decide)]

theorem readGroup (padded : Padded .group before after) : readGroup after = readGroup before := by
  have peer := padded.childNamed definition Layout.peerIn (by decide) fun inner _ => inner.peerIn
  have size : sizeField after = sizeField before := by
    unfold sizeField
    rw [padded.named (by decide)]
  unfold Layout.readGroup
  rw [padded.readLabels (by decide), readPeer_eq, readPeer_eq, peer, padded.textField (by decide),
    padded.textField (by decide), size]

private theorem groupsIn (padded : Padded .groups before after)
    (short : before.length < wordLimit) :
    groupsIn after = groupsIn before := by
  have entry {α : Type} (observe : Bucket → α)
      (same : ∀ {child changed}, Padded .group child changed → observe changed = observe child) :
      ∀ index < wordLimit, (after.child? (indexKey index)).map observe =
        (before.child? (indexKey index)).map observe := by
    intro index small
    exact padded.child? observe (by rw [Level.inside, index?_indexKey small]; rfl) fun inner _ =>
      same inner
  have length : EntryKind.group.length after = EntryKind.group.length before := by
    refine EntryKind.group.length_congr (fun index small => ?_) (padded.named (by decide))
      (padded.strayIndex? rfl) padded.length_le short
    have present := congrArg Option.isSome (entry (fun _ => ()) (fun _ => rfl) index small)
    rwa [Option.isSome_map, Option.isSome_map] at present
  unfold Layout.groupsIn
  rw [length]
  cases measured : EntryKind.group.length before with
  | error error => rfl
  | ok length =>
    refine EntryKind.group.mapM_congr measured short fun index small => ?_
    rw [← Option.getD_map Layout.readGroup, ← Option.getD_map Layout.readGroup,
      entry Layout.readGroup (fun inner => inner.readGroup) index small]

theorem readGroups (padded : Padded .cluster before after) :
    readGroups after = readGroups before := by
  have same := padded.childNamed definition Layout.groupsIn (by decide) fun inner short =>
    inner.groupsIn (short rfl)
  rw [readGroups_eq, readGroups_eq, same]

end Padded

/-- Whatever is added to the bucket of a cluster, or to any bucket in it that is read, under keys
that are not looked up there, the same cluster is read, or it is refused with the same error. -/
theorem readCluster_of_padded {before after : Bucket} (padded : Padded .cluster before after)
    (defaultId : String) : readCluster after defaultId = readCluster before defaultId := by
  have times : readTimestamps after = readTimestamps before := by
    unfold readTimestamps
    rw [padded.instantField (by decide), padded.instantField (by decide)]
  have state : readStatus after = readStatus before := by
    unfold readStatus
    rw [padded.textField (by decide)]
  unfold readCluster
  rw [times, padded.readGroups, padded.readLabels (by decide), padded.named (by decide),
    padded.textField (by decide), state]

/-- Names that are known at another level, a bucket among labels, and in lists a number with a zero
in front and one that is no longer an index. -/
theorem readCluster_of_padded_at_each_level :
    let field (name text : String) : Key × Item := (Bytes.ofText name, .value (Bytes.ofText text))
    let child (name : String) (entries : Bucket) : Key × Item :=
      (Bytes.ofText name, .bucket entries)
    let before : Bucket := [field createdAt "2020-01-01T00:00:00Z",
      child definition [child "0" [
        child definition [child muxers [field "0" "tcp", field count "1"]], field region "north"]],
      child labels [field "a" ""], field updatedAt "2020-01-01T00:00:00Z"]
    let after : Bucket := [field count "?", field createdAt "2020-01-01T00:00:00Z",
      child definition [child "0" [
        child definition [field definition "?", child muxers [field "0" "tcp", field "01" "?",
          field "18446744073709551616" "?", field count "1"], child size []],
        field region "north", child status []], field labels "?"],
      child labels (OrderedMap.insert (Bytes.ofText "0") (.bucket [field "b" ""]) [field "a" ""]),
      field size "?", field updatedAt "2020-01-01T00:00:00Z"]
    Padded .cluster before after ∧ (readCluster before "c").toOption.isSome = true ∧
      readCluster after "c" = readCluster before "c" := by
  intro field child before after
  have muxed : Padded .texts [field "0" "tcp", field count "1"] [field "0" "tcp", field "01" "?",
      field "18446744073709551616" "?", field count "1"] :=
    .keep _ _ (.extra (by decide +kernel) (.extra (by decide +kernel) (.refl _ _)))
  have peered : Padded .peer [child muxers _]
      [field definition "?", child muxers _, child size []] :=
    .extra (by decide +kernel) (.descend (by decide +kernel) (fun _ => by decide) muxed
      (.extra (by decide +kernel) .nil))
  have grouped : Padded .group [child definition _, field region "north"]
      [child definition _, field region "north", child status []] :=
    .descend (by decide +kernel) (fun _ => by decide) peered
      (.keep _ _ (.extra (by decide +kernel) .nil))
  have listed : Padded .groups [child "0" _] [child "0" _, field labels "?"] :=
    .descend (by decide +kernel) (fun _ => by decide) grouped (.extra (by decide +kernel) .nil)
  have labelled : Padded .labels [field "a" ""]
      (OrderedMap.insert (Bytes.ofText "0") (.bucket [field "b" ""]) [field "a" ""]) :=
    .insert .labels (by decide +kernel) (by decide +kernel)
  have padded : Padded .cluster before after :=
    .extra (by decide +kernel) (.keep _ _
      (.descend (by decide +kernel) (fun _ => by decide) listed
        (.descend (by decide +kernel) (fun _ => by decide) labelled
          (.extra (by decide +kernel) (.refl _ _)))))
  exact ⟨padded, by decide +kernel, readCluster_of_padded padded "c"⟩

end ClusterRegistry.Layout
