import ClusterRegistry.Proofs.Cluster.Directory
import ClusterRegistry.Proofs.Cluster.Enumeration
import ClusterRegistry.Proofs.Cluster.Identifier
import ClusterRegistry.Proofs.Cluster.Recording

/-!
The collection of clusters as a directory.  A tree holds a directory where its root has one bucket
for the collection, once there is one, and in it a written bucket for each member.  Each change of
the collection answers as the directory does, and where it succeeds its tree holds the new
directory; its log can then be written.
-/
namespace ClusterRegistry

theorem Instant.Writable.latest {instant other : Instant} (here : instant.Writable)
    (there : other.Writable) : (instant.latest other).Writable := by
  unfold Instant.latest
  split
  · exact there
  · exact here

/-- An item that was written for a cluster, over anything that was there. -/
structure Member (key : Key) (item : Item) (cluster : Cluster) : Prop where
  named : key = Bytes.ofText cluster.id
  written : ∃ prior, Layout.Hospitable prior ∧ item = .bucket (Layout.clusterBucket prior cluster)
  identified : Identifier.validate cluster.id = .ok ()
  countable : cluster.Countable
  created : cluster.createdAt.Writable
  updated : cluster.updatedAt.Writable

namespace Collection

open OrderedMap (Aligned)

/-- A tree of one bucket, that of the collection. -/
def treeOf (clusters : Bucket) : Bucket :=
  [(collectionKey, .bucket clusters)]

inductive Holds : Bucket → Directory → Prop
  | nothing : Holds [] .empty
  | collection {clusters : Bucket} {members : List (Key × Cluster)}
      (aligned : Aligned Member clusters members) : Holds (treeOf clusters) ⟨true, members⟩

theorem collection?_treeOf (clusters : Bucket) : collection? (treeOf clusters) = some clusters := by
  simp [collection?, treeOf, Bucket.child?, Bucket.item?, OrderedMap.find?]

private theorem openAt_treeOf (clusters : Bucket) :
    (treeOf clusters).openAt collectionPath = .ok clusters :=
  Bucket.openAt_cons.mpr ⟨clusters, collection?_treeOf clusters, rfl⟩

private theorem replaceAt_treeOf (changed clusters : Bucket) :
    Bucket.replaceAt changed collectionPath (treeOf clusters) = treeOf changed := by
  have inside : (treeOf clusters).child? collectionKey = some clusters := collection?_treeOf clusters
  have replaced : OrderedMap.insert collectionKey (Item.bucket changed)
      ([] ++ [(collectionKey, .bucket clusters)]) = [] ++ [(collectionKey, .bucket changed)] :=
    OrderedMap.insert_last _ _ _ (List.pairwise_singleton _ _)
  rw [collectionPath, Bucket.replaceAt, inside]
  exact replaced

private theorem isEmpty_clusterBucket (prior : Bucket) (cluster : Cluster) :
    (Layout.clusterBucket prior cluster).isEmpty = false :=
  OrderedMap.isEmpty_insert _ _ _

section Reading

variable {tree clusters : Bucket} {members : List (Key × Cluster)} {directory : Directory}

theorem readCluster_of_member {key : Key} {bucket : Bucket} {cluster : Cluster}
    (member : Member key (.bucket bucket) cluster) (id : String) :
    Layout.readCluster bucket id = .ok cluster := by
  obtain ⟨prior, -, written⟩ := member.written
  cases written
  exact Layout.readCluster_clusterBucket prior member.countable member.created member.updated id

/-- A cluster is stored for an identifier exactly where the directory has one. -/
theorem lookUp (aligned : Aligned Member clusters members) (id : String) :
    clusters.item? (Bytes.ofText id) = none ∧
        Directory.find? ⟨true, members⟩ id = none ∧ stored? (treeOf clusters) id = none ∨
      ∃ bucket cluster, clusters.child? (Bytes.ofText id) = some bucket ∧
        Directory.find? ⟨true, members⟩ id = some cluster ∧
        stored? (treeOf clusters) id = some bucket ∧
        Member (Bytes.ofText id) (.bucket bucket) cluster := by
  rcases aligned.find? (Bytes.ofText id) with ⟨absent, missing⟩ | ⟨item, cluster, found, same, member⟩
  · refine .inl ⟨absent, missing, ?_⟩
    have none : clusters.child? (Bytes.ofText id) = none := by rw [Bucket.child?, Bucket.item?, absent]
    rw [stored?, collection?_treeOf]
    simp [none]
  · obtain ⟨prior, -, written⟩ := member.written
    subst written
    have child : clusters.child? (Bytes.ofText id) = some (Layout.clusterBucket prior cluster) :=
      Bucket.child?_eq_some.mpr found
    refine .inr ⟨_, cluster, child, same, ?_, member⟩
    rw [stored?, collection?_treeOf]
    simp [child, isEmpty_clusterBucket]

private theorem stored_or_absent (holds : Holds tree directory) (id : String) :
    directory.find? id = none ∧ stored? tree id = none ∨
      ∃ bucket cluster, directory.find? id = some cluster ∧ stored? tree id = some bucket ∧
        Member (Bytes.ofText id) (.bucket bucket) cluster := by
  cases holds with
  | nothing => exact .inl ⟨rfl, rfl⟩
  | collection aligned =>
    rcases lookUp aligned id with ⟨-, absent, none⟩ | ⟨bucket, cluster, -, found, stored, member⟩
    · exact .inl ⟨absent, none⟩
    · exact .inr ⟨bucket, cluster, found, stored, member⟩

theorem get_of_holds (holds : Holds tree directory) (id : String) :
    get tree id = directory.get id := by
  rcases stored_or_absent holds id with ⟨absent, none⟩ | ⟨bucket, cluster, found, stored, member⟩
  · rw [get, none, Directory.get, absent]
  · rw [get, stored, Directory.get, found]
    dsimp only
    rw [readCluster_of_member member]
    rfl

theorem list_of_holds (holds : Holds tree directory) (wellFormed : tree.WellFormed) :
    list tree = .ok directory.list := by
  cases holds with
  | nothing => rfl
  | @collection clusters _ aligned =>
    have made := collection?_treeOf clusters
    rw [list_eq made (wellFormed.child made).2.ordered]
    clear made wellFormed
    induction aligned with
    | nil => rfl
    | @cons key item cluster entries others first rest ih =>
      obtain ⟨prior, -, written⟩ := first.written
      subst written
      have read : readMember key (Layout.clusterBucket prior cluster) = .ok cluster := by
        rw [readMember, first.named, Bytes.text?_ofText]
        dsimp only
        rw [readCluster_of_member first]
        rfl
      have full : Layout.clusterBucket prior cluster ≠ [] := by
        intro empty
        cases (congrArg List.isEmpty empty).symm.trans (isEmpty_clusterBucket prior cluster)
      rw [members_cons key full]
      exact Outcome.mapM_cons_eq_ok.mpr ⟨cluster, _, read, ih, rfl⟩

end Reading

/-- A transaction that works on a directory. -/
structure Tracks (base : Bucket) (limits : Limits) (tx : Transaction) (directory : Directory) :
    Prop where
  holds : Holds tx.tree directory
  recorded : tx.Recorded base
  limited : tx.limits = limits

/-- The same answer, or the same error; and where there is an answer, the directory goes on with
the transaction. -/
inductive Agrees {α : Type} (base : Bucket) (limits : Limits) :
    Except ClusterError (α × Transaction) → Except ClusterError (α × Directory) → Prop
  | ok {answer : α} {tx : Transaction} {directory : Directory}
      (tracks : Tracks base limits tx directory) :
      Agrees base limits (.ok (answer, tx)) (.ok (answer, directory))
  | error {error : ClusterError} : Agrees base limits (.error error) (.error error)

section Changing

variable {base before after : Bucket} {limits : Limits} {tx : Transaction} {directory : Directory}

theorem Agrees.bind {α β : Type} {outcome : Except ClusterError (α × Transaction)}
    {reference : Except ClusterError (α × Directory)}
    {next : α × Transaction → Except ClusterError (β × Transaction)}
    {goal : α × Directory → Except ClusterError (β × Directory)}
    (agrees : Agrees base limits outcome reference)
    (onward : ∀ answer tx directory, Tracks base limits tx directory →
      Agrees base limits (next (answer, tx)) (goal (answer, directory))) :
    Agrees base limits (outcome >>= next) (reference >>= goal) := by
  cases agrees with
  | ok tracks => exact onward _ _ _ tracks
  | error => exact .error

/-- An edit of the collection or of the root makes its change. -/
theorem perform_of_makes {edit : Edit} (recorded : tx.Recorded base)
    (makes : edit.Makes tx.limits before after) (found : tx.tree.openAt edit.path = .ok before)
    (room : BucketPath.HasRoom edit.path 0) (valid : edit.check tx.limits = .ok ()) :
    ∃ later, tx.perform edit = .ok later ∧ later.limits = tx.limits ∧ later.Recorded base ∧
      later.tree = Bucket.replaceAt after edit.path tx.tree := by
  obtain ⟨later, performed, limited, tree⟩ := Transaction.perform_of_makes makes found
    (recorded.wellFormed.replaceAt_self found).symm valid
  exact ⟨later, performed, limited, recorded.perform room performed, tree⟩

private theorem hasRoom_collectionPath : BucketPath.HasRoom collectionPath 0 :=
  ⟨by decide, List.forall_mem_singleton.mpr (by decide +kernel)⟩

private theorem ensureCollection_of_holds (ample : limits.Ample)
    (tracks : Tracks base limits tx directory) :
    ∃ clusters later, ensureCollection tx = .ok later ∧ later.limits = limits ∧
      later.Recorded base ∧ later.tree = treeOf clusters ∧
      Aligned Member clusters directory.members := by
  have valid : limits.checkKey collectionKey = .ok () :=
    Layout.checkKey_ofText ample (by decide +kernel)
  obtain ⟨holds, recorded, rfl⟩ := tracks
  generalize same : tx.tree = tree at holds
  cases holds with
  | nothing =>
    have absent : tx.tree.item? collectionKey = none := by rw [same]; rfl
    have makes : (Edit.ensure [] collectionKey).Makes tx.limits tx.tree _ :=
      Edit.makes_ensure_of_absent absent
    obtain ⟨later, performed, limited, recorded', changed⟩ :=
      perform_of_makes recorded makes rfl ⟨by decide, by simp [Edit.path]⟩ valid
    rw [same] at changed
    exact ⟨[], later, by rw [ensureCollection, perform, performed]; rfl, limited, recorded',
      changed, .nil⟩
  | @collection clusters members aligned =>
    have present : tx.tree.child? collectionKey = some clusters := same ▸ collection?_treeOf clusters
    have makes : (Edit.ensure [] collectionKey).Makes tx.limits tx.tree _ :=
      Edit.makes_ensure_of_child present valid
    obtain ⟨later, performed, limited, recorded', changed⟩ :=
      perform_of_makes recorded makes rfl ⟨by decide, by simp [Edit.path]⟩ valid
    rw [same] at changed
    exact ⟨clusters, later, by rw [ensureCollection, perform, performed]; rfl, limited, recorded',
      changed, aligned⟩

private theorem at?_treeOf (clusters : Bucket) (id : String) :
    (treeOf clusters).at? (memberPath id) = clusters.child? (Bytes.ofText id) := by
  have inside : (treeOf clusters).child? collectionKey = some clusters := collection?_treeOf clusters
  rw [memberPath, collectionPath, List.cons_append, Bucket.at?, inside]
  dsimp only
  rw [List.nil_append, Bucket.at?]
  cases clusters.child? (Bytes.ofText id) <;> rfl

private theorem checkKey_of_validate (ample : limits.Ample) {id : String}
    (identified : Identifier.validate id = .ok ()) :
    limits.checkKey (Bytes.ofText id) = .ok () :=
  Layout.checkKey_ofText ample
    ⟨Identifier.ne_empty_of_validate identified, Identifier.short_of_validate identified⟩

private theorem makeMember_of_ensured {later : Transaction} {id : String}
    (ensured : ensureCollection tx = .ok later)
    (occupied : ((later.tree.at? (memberPath id)).map List.isEmpty).getD false = false) :
    makeMember tx id =
      match later.perform (.create collectionPath (Bytes.ofText id)) with
      | .ok made => .ok made
      | .error (.tree (.bucketExists _)) => .error (.alreadyExists (describe id))
      | .error error => .error (.during (describe id) (.store error)) := by
  rw [makeMember, ensured]
  change (if ((later.tree.at? (memberPath id)).map List.isEmpty).getD false = true then _ else _) = _
  rw [if_neg (by simp [occupied])]
  rfl

/-- A member has entries, so it is not taken for a vacant bucket and stands in the way of another. -/
theorem makeMember_of_present (ample : limits.Ample) (tracks : Tracks base limits tx directory)
    {id : String} (identified : Identifier.validate id = .ok ()) {cluster : Cluster}
    (present : directory.find? id = some cluster) :
    makeMember tx id = .error (.alreadyExists (describe id)) := by
  obtain ⟨clusters, later, ensured, limited, -, tree, aligned⟩ :=
    ensureCollection_of_holds ample tracks
  -- Where there was no collection there are no members, so one look-up covers both cases.
  rcases lookUp aligned id with ⟨-, absent, -⟩ | ⟨bucket, other, child, -, -, member⟩
  · cases absent.symm.trans present
  · obtain ⟨prior, -, written⟩ := member.written
    cases written
    have refused : later.perform (.create collectionPath (Bytes.ofText id)) =
        .error (.tree (.bucketExists (Bytes.ofText id))) :=
      Transaction.perform_create_of_child (tree ▸ openAt_treeOf clusters) child
        (limited ▸ checkKey_of_validate ample identified)
    have vacant : ((later.tree.at? (memberPath id)).map List.isEmpty).getD false = false := by
      rw [tree, at?_treeOf, child]
      exact isEmpty_clusterBucket prior other
    rw [makeMember_of_ensured ensured vacant, refused]

private theorem makeMember_of_absent (ample : limits.Ample)
    (tracks : Tracks base limits tx directory)
    {id : String} (identified : Identifier.validate id = .ok ()) (absent : directory.find? id = none) :
    ∃ clusters later, makeMember tx id = .ok later ∧ later.limits = limits ∧
      later.Recorded base ∧
      later.tree = treeOf (OrderedMap.insert (Bytes.ofText id) (.bucket []) clusters) ∧
      Aligned Member clusters directory.members := by
  obtain ⟨clusters, later, ensured, rfl, recorded, tree, aligned⟩ :=
    ensureCollection_of_holds ample tracks
  rcases lookUp aligned id with ⟨free, -, -⟩ | ⟨bucket, other, -, found, -, -⟩
  · have makes : (Edit.create collectionPath (Bytes.ofText id)).Makes later.limits clusters _ :=
      Edit.makes_create free
    have found : later.tree.openAt collectionPath = .ok clusters := tree ▸ openAt_treeOf clusters
    obtain ⟨last, performed, limited, recorded', changed⟩ := perform_of_makes recorded makes found
      hasRoom_collectionPath (checkKey_of_validate ample identified)
    have vacant : ((later.tree.at? (memberPath id)).map List.isEmpty).getD false = false := by
      rw [tree, at?_treeOf, Bucket.child?, free]
      rfl
    refine ⟨clusters, last, ?_, limited, recorded', ?_, aligned⟩
    · rw [makeMember_of_ensured ensured vacant, performed]
    · rw [changed, tree]
      exact replaceAt_treeOf _ _
  · cases absent.symm.trans found

private theorem openAt_member (key : Key) (bucket clusters : Bucket) :
    (treeOf (OrderedMap.insert key (.bucket bucket) clusters)).openAt (collectionPath ++ [key]) =
      .ok bucket :=
  Bucket.openAt_snoc (openAt_treeOf _) (Bucket.child?_insert key bucket clusters)

private theorem replaceAt_member (key : Key) (changed bucket clusters : Bucket) :
    Bucket.replaceAt changed (collectionPath ++ [key])
        (treeOf (OrderedMap.insert key (.bucket bucket) clusters)) =
      treeOf (OrderedMap.insert key (.bucket changed) clusters) := by
  rw [Bucket.replaceAt_snoc (openAt_treeOf _) (Bucket.child?_insert key bucket clusters),
    replaceAt_treeOf, OrderedMap.insert_insert]

/-- A cluster that is written over what its bucket held is a member of the new collection; one
that there is no room for is refused. -/
theorem save_agrees (ample : limits.Ample) (recorded : tx.Recorded base) (limited : tx.limits = limits)
    {clusters prior : Bucket} {cluster : Cluster}
    (tree : tx.tree = treeOf (OrderedMap.insert (Bytes.ofText cluster.id) (.bucket prior) clusters))
    (aligned : Aligned Member clusters directory.members) (hospitable : Layout.Hospitable prior)
    (identified : Identifier.validate cluster.id = .ok ()) (countable : cluster.Countable)
    (created : cluster.createdAt.Writable) (updated : cluster.updatedAt.Writable) :
    Agrees base limits (save tx cluster) (directory.save limits cluster) := by
  have short := Identifier.short_of_validate identified
  have definition : limits.checkKey (Bytes.ofText Layout.definition) = .ok () :=
    Layout.checkKey_ofText ample (by decide +kernel)
  have runs : Layout.Runs limits (memberPath cluster.id) _ prior _ :=
    Layout.Runs.cluster (by simp [memberPath]) definition hospitable cluster
  have admitted := Layout.check_writeCluster ample (memberPath cluster.id) countable short created
    updated
  have found : tx.tree.openAt (memberPath cluster.id) = .ok prior := tree ▸ openAt_member _ _ _
  have same : tx.tree = Bucket.replaceAt prior (memberPath cluster.id) tx.tree :=
    (recorded.wellFormed.replaceAt_self found).symm
  rw [save, Directory.save]
  -- The script and the directory refuse for the same reason, if they do.
  cases admission : cluster.accept limits with
  | error error =>
    have refused := runs.refused error (admitted.trans admission) found limited same
    generalize Layout.run (Layout.writeCluster (memberPath cluster.id) cluster) tx = ran at refused
    obtain ⟨outcome, later⟩ := ran
    cases refused
    exact .error
  | ok =>
    obtain ⟨later, ran, limited', changed⟩ :=
      runs.done (admitted.trans admission) found limited same
    have room : (memberPath cluster.id).HasRoom 4 := hasRoom_memberPath (by
      simp only [maxIdentifierLength] at short
      omega)
    have recorded' := recorded.run (Layout.hasRoom_writeCluster room countable.groups) ran
    rw [tree, memberPath, replaceAt_member] at changed
    have member : Member (Bytes.ofText cluster.id) (.bucket (Layout.clusterBucket prior cluster))
        cluster :=
      ⟨rfl, ⟨prior, hospitable, rfl⟩, identified, countable, created, updated⟩
    rw [ran]
    exact .ok ⟨changed ▸ .collection (aligned.insert member), recorded', limited'⟩

/-- What is saved over a member is a member in its place. -/
theorem save_agrees_of_present (ample : limits.Ample) (tracks : Tracks base limits tx directory)
    {cluster old : Cluster} (present : directory.find? cluster.id = some old)
    (countable : cluster.Countable) (created : cluster.createdAt.Writable)
    (updated : cluster.updatedAt.Writable) :
    Agrees base limits (save tx cluster) (directory.save limits cluster) := by
  obtain ⟨holds, recorded, limited⟩ := tracks
  generalize same : tx.tree = tree at holds
  cases holds with
  | nothing => cases present
  | @collection clusters members aligned =>
    rcases lookUp aligned cluster.id with ⟨-, absent, -⟩ | ⟨bucket, other, child, -, -, member⟩
    · cases absent.symm.trans present
    · obtain ⟨prior, hospitable, written⟩ := member.written
      cases written
      have identified : Identifier.validate cluster.id = .ok () := by
        rw [Bytes.ofText_injective member.named]
        exact member.identified
      have ordered : OrderedMap.Ordered clusters :=
        ((same ▸ recorded.wellFormed).child (collection?_treeOf clusters)).2.ordered
      have unchanged := OrderedMap.insert_of_find? ordered (Bucket.child?_eq_some.mp child)
      exact save_agrees ample recorded limited (same.trans (congrArg treeOf unchanged.symm)) aligned
        (hospitable.clusterBucket other) identified countable created updated

/-- Every reading that is noted after a change lies within the years that can be written. -/
def Timely {α : Type} (reference : α × Watch) : Prop :=
  ∀ reading ∈ reference.2.readings, reading.Writable

/-- The same answer after the same readings of the clock. -/
structure Follows {α : Type} (base : Bucket) (limits : Limits)
    (outcome : Except ClusterError (α × Transaction) × Clock)
    (reference : Except ClusterError (α × Directory) × Watch) : Prop where
  agrees : Agrees base limits outcome.1 reference.1
  clock : outcome.2 = reference.2.clock

variable {watch : Watch}

theorem create_follows (ample : limits.Ample) (tracks : Tracks base limits tx directory)
    {cluster : Cluster} (valid : cluster.validate = .ok ()) (countable : cluster.Countable)
    (timely : Timely (directory.create limits cluster watch)) :
    Follows base limits (create cluster tx watch.clock) (directory.create limits cluster watch) := by
  have identified : Identifier.validate cluster.id = .ok () := by
    obtain ⟨_, identified, _⟩ := Outcome.bind_eq_ok.mp valid
    exact identified
  rw [create]
  unfold Directory.create at timely ⊢
  cases present : directory.find? cluster.id with
  | some old =>
    rw [makeMember_of_present ample tracks identified present]
    exact ⟨.error, rfl⟩
  | none =>
    rw [present] at timely
    have now : watch.clock.read.1.Writable :=
      timely _ (List.mem_append_right _ List.mem_cons_self)
    obtain ⟨clusters, later, made, limited, recorded, tree, aligned⟩ :=
      makeMember_of_absent ample tracks identified present
    rw [made]
    exact ⟨save_agrees ample recorded limited tree aligned Layout.hospitable_nil identified
      ⟨countable.groups, countable.peers⟩ now now, rfl⟩

theorem update_follows (ample : limits.Ample) (tracks : Tracks base limits tx directory)
    {cluster : Cluster} (countable : cluster.Countable)
    (timely : Timely (directory.update limits cluster watch)) :
    Follows base limits (update cluster tx watch.clock) (directory.update limits cluster watch) := by
  unfold Directory.update at timely ⊢
  rw [update]
  rcases stored_or_absent tracks.holds cluster.id with
    ⟨absent, none⟩ | ⟨bucket, old, present, stored, member⟩
  · rw [absent, none]
    exact ⟨.error, rfl⟩
  · rw [present] at timely ⊢
    have now : watch.clock.read.1.Writable :=
      timely _ (List.mem_append_right _ List.mem_cons_self)
    obtain ⟨prior, -, written⟩ := member.written
    cases written
    have read := Layout.readTimestamps_clusterBucket prior member.created member.updated
    rw [stored]
    dsimp only
    rw [read]
    refine ⟨?_, rfl⟩
    have named : old.id = cluster.id := (Bytes.ofText_injective member.named).symm
    dsimp only [Watch.read, reporting, Except.mapError]
    rw [named]
    exact save_agrees_of_present ample tracks present ⟨countable.groups, countable.peers⟩
      member.created (now.latest member.updated)

/-- Each of the clusters is read, changed and saved before the next. -/
theorem relabel_agrees (ample : limits.Ample) (tracks : Tracks base limits tx directory)
    (change : Relabelling) {now : Instant} (timely : now.Writable) (id : String) :
    Agrees base limits (relabel change now id tx) (directory.relabel limits change now id) := by
  rw [relabel, Directory.relabel, get_of_holds tracks.holds, Directory.get]
  rcases stored_or_absent tracks.holds id with ⟨absent, -⟩ | ⟨bucket, old, present, -, member⟩
  · rw [absent]
    exact .error
  · have named : old.id = id := (Bytes.ofText_injective member.named).symm
    subst named
    rw [present]
    let relabelled := { old with
      labels := old.labels.changed change.adds change.removes
      updatedAt := now.latest old.updatedAt }
    have saved : Agrees base limits (save tx relabelled) (directory.save limits relabelled) :=
      save_agrees_of_present ample tracks present ⟨member.countable.groups, member.countable.peers⟩
        member.created (timely.latest member.updated)
    simp only [Labels.removeAll_addAll]
    exact saved

private theorem relabelAll_agrees (ample : limits.Ample) (tracks : Tracks base limits tx directory)
    (change : Relabelling) {now : Instant} (timely : now.Writable) (ids : List String) :
    Agrees base limits (relabelAll change now ids tx)
      (directory.relabelAll limits change now ids) := by
  induction ids generalizing tx directory with
  | nil => exact .ok tracks
  | cons id ids ih =>
    rw [relabelAll, Directory.relabelAll]
    refine (relabel_agrees ample tracks change timely id).bind ?_
    intro cluster tx directory tracks
    refine (ih tracks).bind ?_
    intro clusters tx directory tracks
    exact .ok tracks

theorem label_follows (ample : limits.Ample) (tracks : Tracks base limits tx directory)
    (ids : List String) (change : Relabelling)
    (timely : Timely (directory.label limits ids change watch)) :
    Follows base limits (label ids change tx watch.clock)
      (directory.label limits ids change watch) := by
  cases ids with
  | nil => exact ⟨.ok tracks, rfl⟩
  | cons first rest =>
    unfold Directory.label at timely ⊢
    rw [label]
    have holds := tracks.holds
    generalize same : tx.tree = tree at holds
    cases holds with
    | nothing => exact ⟨.error, rfl⟩
    | @collection clusters members aligned =>
      have now : watch.clock.read.1.Writable :=
        timely _ (List.mem_append_right _ List.mem_cons_self)
      rw [collection?_treeOf]
      exact ⟨relabelAll_agrees ample tracks change now _, rfl⟩

theorem delete_agrees (tracks : Tracks base limits tx directory) {id : String}
    (short : (Bytes.ofText id).length ≤ limits.maxKeySize) :
    Agrees base limits ((delete id tx).map fun tx => ((), tx))
      ((directory.delete id).map fun directory => ((), directory)) := by
  have kept := tracks
  obtain ⟨holds, recorded, rfl⟩ := tracks
  rw [delete]
  generalize same : tx.tree = tree at holds
  cases holds with
  | nothing => exact .ok kept
  | @collection clusters members aligned =>
    have found : tx.tree.openAt collectionPath = .ok clusters := same ▸ openAt_treeOf clusters
    rw [collection?_treeOf, if_neg (by simp), Directory.delete, if_pos rfl]
    rcases lookUp aligned id with ⟨free, absent, -⟩ | ⟨bucket, cluster, child, present, -, member⟩
    · rw [absent]
      cases valid : tx.limits.checkKey (Bytes.ofText id) with
      | ok =>
        rw [Transaction.perform_remove_of_absent found free valid]
        exact .error
      | error error =>
        have empty : error = .emptyKey := by
          unfold Limits.checkKey at valid
          rw [if_neg (Nat.not_lt.mpr short)] at valid
          split at valid
          · exact (Except.error.inj valid).symm
          · cases valid
        rw [Transaction.perform_remove_of_invalid found valid, empty]
        exact .error
    · have identified : Identifier.validate id = .ok () := by
        rw [Bytes.ofText_injective member.named]
        exact member.identified
      have valid : tx.limits.checkKey (Bytes.ofText id) = .ok () :=
        Limits.checkKey_eq_ok.mpr ⟨fun empty => Identifier.ne_empty_of_validate identified
          (Bytes.ofText_injective empty), short⟩
      have makes : (Edit.remove collectionPath (Bytes.ofText id)).Makes tx.limits clusters _ :=
        Edit.makes_remove child
      obtain ⟨later, performed, limited, recorded', changed⟩ :=
        perform_of_makes recorded makes found hasRoom_collectionPath valid
      rw [present, performed]
      rw [same] at changed
      have tree : later.tree = treeOf (OrderedMap.erase (Bytes.ofText id) clusters) :=
        changed.trans (replaceAt_treeOf _ _)
      exact .ok ⟨tree ▸ .collection (aligned.erase _), recorded', limited⟩

end Changing

end Collection

end ClusterRegistry
