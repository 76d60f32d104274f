import ClusterRegistry.Proofs.Outcome
import ClusterRegistry.Proofs.Tree.Cursor
import ClusterRegistry.Registry

/-!
Listing the clusters.  The scan goes once through the entries of the collection, values and buckets
in turn, and stops at the first cluster that it cannot read.  What it finds is what getting each
cluster by its own key finds.
-/
namespace ClusterRegistry

namespace Collection

variable {tree clusters bucket rest : Bucket} {key : Key} {found : List Cluster}

/-- The clusters of a collection, each as the bucket under its key. -/
def members (clusters : Bucket) : List (Key × Bucket) :=
  clusters.children.filter fun child => !child.2.isEmpty

def memberKeys (clusters : Bucket) : List Key :=
  (members clusters).map Prod.fst

/-- What is got under a key, if it is the name of a cluster at all. -/
def getKey (tree : Bucket) (key : Key) : Except ClusterError Cluster :=
  match Bytes.text? key with
  | some id => get tree id
  | none => .error (.malformed (.clusterKey key))

private theorem ordered_memberKeys (ordered : OrderedMap.Ordered clusters) :
    (memberKeys clusters).Pairwise (· < ·) :=
  List.pairwise_map.mpr ((Bucket.ordered_children ordered).filter _)

private theorem mem_members (ordered : OrderedMap.Ordered clusters) :
    (key, bucket) ∈ members clusters ↔ clusters.child? key = some bucket ∧ bucket ≠ [] := by
  rw [members, List.mem_filter, Bucket.mem_children_iff ordered]
  simp

private theorem mem_memberKeys (ordered : OrderedMap.Ordered clusters) :
    key ∈ memberKeys clusters ↔ ∃ bucket, clusters.child? key = some bucket ∧ bucket ≠ [] := by
  simp only [memberKeys, List.mem_map, Prod.exists, exists_eq_right, exists_and_right,
    mem_members ordered]

theorem members_cons (key : Key) (full : bucket ≠ []) (rest : Bucket) :
    members ((key, .bucket bucket) :: rest) = (key, bucket) :: members rest := by
  cases bucket with
  | nil => contradiction
  | cons entry entries => rfl

section Scan

private theorem visit_of_empty (there : clusters.child? key = some []) :
    visit clusters key none = pure () := by
  rw [visit, there]
  rfl

private theorem visit_of_member (there : clusters.child? key = some bucket) (full : bucket ≠ []) :
    (visit clusters key none).run found =
      (fun cluster => ((), found ++ [cluster])) <$> readMember key bucket := by
  have kept : (some bucket).filter (fun bucket => !bucket.isEmpty) = some bucket :=
    Option.filter_some_pos (by simpa using full)
  rw [visit, there, kept]
  change (liftM (readMember key bucket) >>= fun cluster => modify (· ++ [cluster]) :
    StateT (List Cluster) (Except ClusterError) Unit).run found = _
  cases readMember key bucket <;> rfl

/-- The scan of some of the entries, with the clusters that were found before. -/
theorem scan_eq (there : ∀ entry ∈ rest, clusters.child? entry.1 = entry.2.entries?) :
    ((Bucket.shown rest).forM fun entry => visit clusters entry.1 entry.2).run found =
      (fun listed => ((), found ++ listed)) <$>
        (members rest).mapM fun member => readMember member.1 member.2 := by
  induction rest generalizing found with
  | nil => simp [Bucket.shown, members, Bucket.children]
  | cons entry rest ih =>
    obtain ⟨here, others⟩ := List.forall_mem_cons.mp there
    obtain ⟨key, item⟩ := entry
    cases item with
    | value bytes => exact ih others
    | bucket bucket =>
      change ((visit clusters key none >>= fun _ =>
        (Bucket.shown rest).forM fun entry => visit clusters entry.1 entry.2).run found) = _
      by_cases full : bucket = []
      · subst full
        rw [visit_of_empty here]
        exact ih others
      · rw [StateT.run_bind, visit_of_member here full, members_cons key full, List.mapM_cons]
        cases readMember key bucket with
        | error error => rfl
        | ok cluster =>
          -- the others are found with this cluster among those before them
          change (_ : StateT (List Cluster) (Except ClusterError) Unit).run (found ++ [cluster]) = _
          rw [ih others]
          cases (members rest).mapM fun member => readMember member.1 member.2 with
          | error error => rfl
          | ok listed =>
            exact congrArg (fun all => Except.ok ((), all)) (List.append_cons found cluster listed).symm

theorem list_eq (made : collection? tree = some clusters) (ordered : OrderedMap.Ordered clusters) :
    list tree = (members clusters).mapM fun member => readMember member.1 member.2 := by
  have there : ∀ entry ∈ clusters, clusters.child? entry.1 = entry.2.entries? := by
    intro entry inside
    rw [Bucket.child?_eq, Bucket.item?, OrderedMap.find?_of_mem ordered inside]
    rfl
  rw [list, made]
  dsimp only
  unfold Bucket.forEach
  rw [Bucket.iter_eq_shown ordered, scan_eq there]
  cases (members clusters).mapM fun member => readMember member.1 member.2 <;> rfl

end Scan

private theorem getKey_ofText (tree : Bucket) (id : String) :
    getKey tree (Bytes.ofText id) = get tree id := by
  rw [getKey, Bytes.text?_ofText]

private theorem getKey_of_not_text (strange : ∀ id, key ≠ Bytes.ofText id) :
    getKey tree key = .error (.malformed (.clusterKey key)) := by
  unfold getKey
  split
  · rename_i id text
    exact absurd (Bytes.ofText_of_text? text).symm (strange id)
  · rfl

private theorem exists_ofText {id : String} {holds : String → Prop} :
    (∃ other, Bytes.ofText id = Bytes.ofText other ∧ holds other) ↔ holds id := by
  constructor
  · intro given
    obtain ⟨other, same, there⟩ := given
    rwa [Bytes.ofText_injective same]
  · exact fun here => ⟨id, rfl, here⟩

private theorem getKey_eq_ok {cluster : Cluster} : getKey tree key = .ok cluster ↔
    ∃ id, key = Bytes.ofText id ∧ get tree id = .ok cluster := by
  by_cases text : ∃ id, key = Bytes.ofText id
  · obtain ⟨id, rfl⟩ := text
    rw [getKey_ofText, exists_ofText]
  · rw [getKey_of_not_text (not_exists.mp text)]
    exact iff_of_false nofun fun given => text (given.imp fun _ => And.left)

private theorem getKey_eq_error {error : ClusterError} : getKey tree key = .error error ↔
    (∀ id, key ≠ Bytes.ofText id) ∧ error = .malformed (.clusterKey key) ∨
      ∃ id, key = Bytes.ofText id ∧ get tree id = .error error := by
  by_cases text : ∃ id, key = Bytes.ofText id
  · obtain ⟨id, rfl⟩ := text
    rw [getKey_ofText, exists_ofText]
    exact (or_iff_right fun given => given.1 id rfl).symm
  · have strange := not_exists.mp text
    rw [getKey_of_not_text strange]
    simp [strange, eq_comm]

private theorem readMember_eq_getKey (made : collection? tree = some clusters)
    (there : clusters.child? key = some bucket) (full : bucket ≠ []) :
    readMember key bucket = getKey tree key := by
  unfold readMember getKey
  cases text : Bytes.text? key with
  | none => rfl
  | some id =>
    rw [← Bytes.ofText_of_text? text] at there
    have stored : stored? tree id = some bucket := by
      rw [stored?, made]
      dsimp only
      rw [there]
      exact Option.filter_some_pos (by simpa using full)
    dsimp only
    rw [get, stored]

/-- The scan finds what is got under each key by itself. -/
theorem list_eq_getKey (made : collection? tree = some clusters)
    (ordered : OrderedMap.Ordered clusters) :
    list tree = (memberKeys clusters).mapM (getKey tree) := by
  rw [list_eq made ordered, memberKeys, List.mapM_map]
  refine Outcome.mapM_congr fun member inside => ?_
  obtain ⟨child, full⟩ := (mem_members ordered).mp inside
  exact readMember_eq_getKey made child full

end Collection

namespace Registry

variable {registry : Registry} {context : Context} {now : Nat} {clusters : Bucket}

/-- The key is the name of a cluster, and this is what is got under it. -/
def Gets (registry : Registry) (context : Context) (now : Nat) (key : Key) (cluster : Cluster) :
    Prop :=
  ∃ id, key = Bytes.ofText id ∧ registry.get context now id = .ok cluster

/-- The key names nothing, or what it names cannot be got. -/
def FailsToGet (registry : Registry) (context : Context) (now : Nat) (key : Key)
    (error : ClusterError) : Prop :=
  (∀ id, key ≠ Bytes.ofText id) ∧ error = .malformed (.clusterKey key) ∨
    ∃ id, key = Bytes.ofText id ∧ registry.get context now id = .error error

private theorem view_of_permitted {α : Type} (permitted : context.check now = .ok ())
    (body : Bucket → Except ClusterError α) :
    registry.view context now body = body registry.store.published.tree := by
  unfold view Store.view
  rw [permitted]

theorem getKey_eq_ok_iff (permitted : context.check now = .ok ()) {key : Key} {cluster : Cluster} :
    Collection.getKey registry.store.published.tree key = .ok cluster ↔
      registry.Gets context now key cluster := by
  simp only [Collection.getKey_eq_ok, Gets, get, view_of_permitted permitted]

theorem getKey_eq_error_iff (permitted : context.check now = .ok ()) {key : Key}
    {error : ClusterError} :
    Collection.getKey registry.store.published.tree key = .error error ↔
      registry.FailsToGet context now key error := by
  simp only [Collection.getKey_eq_error, FailsToGet, get, view_of_permitted permitted]

/-- The list of all clusters has what is got under each key with a bucket that is not empty, in
ascending order of the keys.  There is one unless some of them cannot be got, and then the first of
these is the error. -/
theorem list_exact (permitted : context.check now = .ok ())
    (made : Collection.collection? registry.store.published.tree = some clusters)
    (ordered : OrderedMap.Ordered clusters) :
    let keys := Collection.memberKeys clusters
    keys.Pairwise (· < ·) ∧
      (∀ key, key ∈ keys ↔ ∃ bucket, clusters.child? key = some bucket ∧ bucket ≠ []) ∧
      ((∃ listed, registry.list context now = .ok listed) ↔
        ∀ key ∈ keys, ∃ cluster, registry.Gets context now key cluster) ∧
      (∀ listed, registry.list context now = .ok listed ↔
        List.Forall₂ (registry.Gets context now) keys listed) ∧
      ∀ error, registry.list context now = .error error ↔
        ∃ front key back, keys = front ++ key :: back ∧
          (∀ earlier ∈ front, ∃ cluster, registry.Gets context now earlier cluster) ∧
          registry.FailsToGet context now key error := by
  intro keys
  have scanned : registry.list context now =
      keys.mapM (Collection.getKey registry.store.published.tree) := by
    rw [list, view_of_permitted permitted, Collection.list_eq_getKey made ordered]
  refine ⟨Collection.ordered_memberKeys ordered, fun _ => Collection.mem_memberKeys ordered, ?_,
    fun listed => ?_, fun error => ?_⟩
  · rw [scanned, Outcome.exists_mapM_eq_ok]
    simp only [getKey_eq_ok_iff permitted]
  · rw [scanned, Outcome.mapM_eq_ok_forall₂]
    simp only [getKey_eq_ok_iff permitted]
  · rw [scanned, Outcome.mapM_eq_error]
    simp only [getKey_eq_ok_iff permitted, getKey_eq_error_iff permitted]

/-- Values and an empty bucket between two clusters, and then a key that is not text. -/
theorem list_exact_of_mixture :
    let stamp := Item.value (Bytes.ofText "2023-11-14T22:13:20Z")
    let member : Item := .bucket [(Bytes.ofText Layout.createdAt, stamp),
      (Bytes.ofText Layout.updatedAt, stamp)]
    let clusters : Bucket := [(Bytes.ofText "a", .value [1]), (Bytes.ofText "b", .bucket []),
      (Bytes.ofText "c", member), (Bytes.ofText "d", .value []), (Bytes.ofText "e", member)]
    let registry (clusters : Bucket) : Registry :=
      ⟨⟨.relaxed, ⟨[(Collection.collectionKey, .bucket clusters)], 1⟩, 2, ⟨0, 0, 65536, ⟨0⟩⟩⟩,
        ⟨⟨1700000000, 0⟩, 1000000000⟩, .empty "data"⟩
    let cluster (id : String) : Cluster :=
      ⟨id, none, [], .empty, ⟨1700000000, 0⟩, ⟨1700000000, 0⟩⟩
    (registry clusters).list .background 0 = .ok [cluster "c", cluster "e"] ∧
      (registry (clusters ++ [([255], member)])).list .background 0 =
        .error (.malformed (.clusterKey [255])) := by
  intro stamp member clusters registry cluster
  have made (clusters : Bucket) :
      Collection.collection? (registry clusters).store.published.tree = some clusters := by
    simp [registry, Collection.collection?, Bucket.child?, Bucket.item?, OrderedMap.find?]
  have ordered : OrderedMap.Ordered (clusters ++ [([255], member)]) := by
    unfold OrderedMap.Ordered
    decide +kernel
  have permitted : Context.background.check 0 = .ok () := rfl
  constructor
  · obtain ⟨_, _, _, listed, _⟩ := list_exact permitted (made clusters)
      (List.pairwise_append.mp ordered).1
    refine (listed _).mpr (.cons ⟨"c", rfl, ?_⟩ (.cons ⟨"e", rfl, ?_⟩ .nil)) <;> decide +kernel
  · obtain ⟨_, _, _, _, failed⟩ := list_exact permitted (made (clusters ++ [([255], member)])) ordered
    have strange : Bytes.text? [255] = none := by decide +kernel
    refine (failed _).mpr ⟨[Bytes.ofText "c", Bytes.ofText "e"], [255], [], rfl, ?_, .inl ⟨?_, rfl⟩⟩
    · simp only [List.forall_mem_cons]
      refine ⟨⟨cluster "c", "c", rfl, ?_⟩, ⟨cluster "e", "e", rfl, ?_⟩, List.forall_mem_nil _⟩ <;>
        decide +kernel
    · intro id same
      rw [same, Bytes.text?_ofText] at strange
      contradiction

end Registry

end ClusterRegistry
