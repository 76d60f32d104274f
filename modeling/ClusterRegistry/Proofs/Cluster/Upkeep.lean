import ClusterRegistry.Proofs.Cluster.Collection
import ClusterRegistry.Proofs.Cluster.Success

/-!
What stays true of the collection.  Every entry of it is the bucket of one cluster under its own
identifier; a change that succeeds leaves it so, keeps the creation of every cluster that stays, and
updates none backwards.  Not even the limits have to leave room for a cluster: what is refused
changes nothing.
-/
namespace ClusterRegistry

namespace Instant

variable {instant other later : Instant}

theorem isBefore_self (instant : Instant) : instant.isBefore instant = false := by
  simp [isBefore]

private theorem isBefore_trans (first : other.isBefore instant = false)
    (second : later.isBefore other = false) : later.isBefore instant = false := by
  simp only [isBefore, Bool.or_eq_false_iff, Bool.and_eq_false_iff, decide_eq_false_iff_not,
    beq_eq_false_iff_ne] at first second ⊢
  omega

/-- The later of two instants is not before the second of them. -/
theorem latest_isBefore (instant other : Instant) :
    (instant.latest other).isBefore other = false := by
  unfold latest
  split
  · exact isBefore_self other
  · rename_i notBefore
    exact Bool.eq_false_iff.mpr notBefore

end Instant

/-- The same cluster at a later time. -/
structure Cluster.Succeeds (cluster old : Cluster) : Prop where
  created : cluster.createdAt = old.createdAt
  updated : cluster.updatedAt.isBefore old.updatedAt = false

namespace Cluster.Succeeds

variable {cluster old older : Cluster}

theorem refl (cluster : Cluster) : cluster.Succeeds cluster :=
  ⟨rfl, Instant.isBefore_self _⟩

theorem trans (first : old.Succeeds older) (second : cluster.Succeeds old) :
    cluster.Succeeds older :=
  ⟨second.created.trans first.created, Instant.isBefore_trans first.updated second.updated⟩

end Cluster.Succeeds

namespace Collection

/-- An entry of the collection, if there is a collection. -/
def item? (tree : Bucket) (key : Key) : Option Item :=
  (collection? tree).bind fun clusters => clusters.item? key

/-- Under `key` there is `item` now, and under no other key has anything changed. -/
def Becomes (before after : Bucket) (key : Key) (item : Option Item) : Prop :=
  ∀ other, item? after other = if other = key then item else item? before other

section Entries

variable {tree clusters before middle after : Bucket} {key : Key} {item next : Option Item}
  {tx later : Transaction} {id : String}

private theorem openAt_collection :
    tree.openAt collectionPath = .ok clusters ↔ collection? tree = some clusters := by
  rw [collectionPath, Bucket.openAt_cons]
  simp [Bucket.openAt, collection?]

private theorem item?_of_openAt (found : tree.openAt collectionPath = .ok clusters) (key : Key) :
    item? tree key = clusters.item? key := by
  rw [item?, openAt_collection.mp found]
  rfl

theorem Becomes.trans (first : Becomes before middle key item)
    (second : Becomes middle after key next) : Becomes before after key next := by
  intro other
  rw [second, first]
  split <;> rfl

private theorem becomes_replaceAt (found : tree.openAt collectionPath = .ok clusters)
    {changed : Bucket}
    (here : ∀ other, changed.item? other = if other = key then item else clusters.item? other) :
    Becomes tree (Bucket.replaceAt changed collectionPath tree) key item := by
  intro other
  rw [item?_of_openAt (Bucket.openAt_replaceAt found changed), here, item?_of_openAt found]

private theorem becomes_insert (found : tree.openAt collectionPath = .ok clusters) (key : Key)
    (entry : Item) : Becomes tree
      (Bucket.replaceAt (OrderedMap.insert key entry clusters) collectionPath tree) key (some entry) :=
  becomes_replaceAt found fun other => OrderedMap.find?_insert key other entry clusters

private theorem becomes_erase (found : tree.openAt collectionPath = .ok clusters) (key : Key) :
    Becomes tree (Bucket.replaceAt (OrderedMap.erase key clusters) collectionPath tree) key none :=
  becomes_replaceAt found fun other => OrderedMap.find?_erase key other clusters

private theorem becomes_of_create (ok : tx.perform (.create collectionPath key) = .ok later) :
    item? tx.tree key = none ∧ Becomes tx.tree later.tree key (some (.bucket [])) := by
  obtain ⟨clusters, worked, found, done, changed⟩ := Transaction.work_of_perform _ ok
  obtain ⟨absent, made⟩ := OpenBucket.create_of_ok done
  rw [changed, made]
  exact ⟨(item?_of_openAt found key).trans absent, becomes_insert found key _⟩

private theorem becomes_of_remove (ok : tx.perform (.remove collectionPath key) = .ok later) :
    Becomes tx.tree later.tree key none := by
  obtain ⟨clusters, worked, found, done, changed⟩ := Transaction.work_of_perform _ ok
  rw [changed, OpenBucket.remove_of_ok done]
  exact becomes_erase found key

/-- A collection that was not there has no entries. -/
theorem item?_of_ensure (ok : tx.perform (.ensure [] collectionKey) = .ok later) (key : Key) :
    item? later.tree key = item? tx.tree key := by
  obtain ⟨root, worked, found, done, changed⟩ := Transaction.work_of_perform _ ok
  cases found
  change later.tree = worked.bucket at changed
  rcases OpenBucket.ensure_of_ok done with ⟨_, same⟩ | ⟨absent, made⟩
  · rw [changed, same]
  · have none : collection? tx.tree = none := by rw [collection?, Bucket.child?, absent]
    have some : collection? later.tree = some [] := by
      rw [changed, made]
      exact Bucket.child?_insert _ _ _
    rw [item?, item?, none, some]
    rfl

/-- In the place of a new member there was at most an empty bucket. -/
theorem becomes_of_makeMember (ok : makeMember tx id = .ok later) :
    (∀ entry, item? tx.tree (Bytes.ofText id) = some entry → entry = .bucket []) ∧
      Becomes tx.tree later.tree (Bytes.ofText id) (some (.bucket [])) := by
  obtain ⟨ensured, emptied, first, second, last⟩ := makeMember_of_ok ok
  have same := item?_of_ensure first
  have begun : ∀ {after : Bucket} {item : Option Item},
      Becomes ensured.tree after (Bytes.ofText id) item →
      Becomes tx.tree after (Bytes.ofText id) item := by
    intro after item becomes other
    rw [becomes, same]
  obtain ⟨absent, made⟩ := becomes_of_create last
  rcases second with rfl | ⟨vacant, removed⟩
  · refine ⟨?_, begun made⟩
    intro entry present
    rw [← same, absent] at present
    contradiction
  · refine ⟨?_, begun ((becomes_of_remove removed).trans made)⟩
    intro entry present
    obtain ⟨clusters, found, inside⟩ := Bucket.openAt_snoc_eq_ok.mp (Bucket.openAt_of_at? vacant)
    rw [← same, item?_of_openAt found, Bucket.child?_eq_some.mp inside] at present
    exact (Option.some.inj present).symm

theorem becomes_of_write {cluster : Cluster}
    (ok : Layout.run (Layout.writeCluster (memberPath id) cluster) tx = (.ok (), later)) :
    ∃ prior, Becomes tx.tree later.tree (Bytes.ofText id)
      (some (.bucket (Layout.clusterBucket prior cluster))) := by
  obtain ⟨prior, opens, changed⟩ := Layout.tree_of_writeCluster ok
  obtain ⟨clusters, found, inside⟩ := Bucket.openAt_snoc_eq_ok.mp opens
  rw [changed, memberPath, Bucket.replaceAt_snoc found inside]
  exact ⟨prior, becomes_insert found _ _⟩

end Entries

/-- A bucket that a cluster was written into, under its own identifier, and not before it was
created. -/
structure Tended (key : Key) (bucket : Bucket) (cluster : Cluster) : Prop where
  named : key = Bytes.ofText cluster.id
  identified : Identifier.validate cluster.id = .ok ()
  shown : Layout.Shows bucket cluster
  countable : cluster.Countable
  created : cluster.createdAt.Writable
  updated : cluster.updatedAt.Writable
  sized : totalSize cluster.groups ≤ maxClusterSize
  chronological : cluster.updatedAt.isBefore cluster.createdAt = false

def Upkept (tree : Bucket) : Prop :=
  ∀ key item, item? tree key = some item →
    ∃ bucket cluster, item = .bucket bucket ∧ Tended key bucket cluster

/-- A cluster that is stored stays, as the same one at a later time. -/
def Outlives (id : String) (before after : Bucket) : Prop :=
  ∀ old, get before id = .ok old → ∃ cluster, get after id = .ok cluster ∧ cluster.Succeeds old

structure Upholds (before after : Bucket) : Prop where
  upkept : Upkept after
  outlives : ∀ id, Outlives id before after

section Upkeep

variable {tree before middle after bucket : Bucket} {key : Key} {item : Option Item} {id : String}
  {cluster : Cluster}

theorem Tended.readCluster (tended : Tended key bucket cluster) (defaultId : String) :
    Layout.readCluster bucket defaultId = .ok cluster :=
  tended.shown.readCluster tended.countable tended.created tended.updated defaultId

theorem stored?_eq_some : stored? tree id = some bucket ↔
    item? tree (Bytes.ofText id) = some (.bucket bucket) ∧ bucket ≠ [] := by
  rw [stored?, item?]
  cases collection? tree with
  | none => simp
  | some clusters => simp [Option.filter_eq_some_iff, Bucket.child?_eq_some]

theorem Upkept.get_eq_ok (upkept : Upkept tree) : get tree id = .ok cluster ↔
    ∃ bucket, item? tree (Bytes.ofText id) = some (.bucket bucket) ∧
      Tended (Bytes.ofText id) bucket cluster := by
  rw [get]
  constructor
  · intro found
    split at found
    · rename_i bucket stored
      obtain ⟨present, _⟩ := stored?_eq_some.mp stored
      obtain ⟨_, other, ⟨⟩, tended⟩ := upkept _ _ present
      cases (tended.readCluster id).symm.trans (Outcome.mapError_eq_ok.mp found)
      exact ⟨bucket, present, tended⟩
    · contradiction
  · intro given
    obtain ⟨bucket, present, tended⟩ := given
    rw [stored?_eq_some.mpr ⟨present, tended.shown.ne_nil⟩]
    exact Outcome.mapError_eq_ok.mpr (tended.readCluster id)

theorem Outlives.refl (id : String) (tree : Bucket) : Outlives id tree tree :=
  fun old found => ⟨old, found, .refl old⟩

theorem Outlives.trans (first : Outlives id before middle) (second : Outlives id middle after) :
    Outlives id before after := by
  intro older found
  obtain ⟨old, found, early⟩ := first older found
  obtain ⟨cluster, found, late⟩ := second old found
  exact ⟨cluster, found, early.trans late⟩

theorem Upholds.refl (upkept : Upkept tree) : Upholds tree tree :=
  ⟨upkept, fun id => .refl id tree⟩

theorem Upholds.trans (first : Upholds before middle) (second : Upholds middle after) :
    Upholds before after :=
  ⟨second.upkept, fun id => (first.outlives id).trans (second.outlives id)⟩

theorem Upkept.of_becomes (upkept : Upkept before) (becomes : Becomes before after key item)
    (here : ∀ entry, item = some entry →
      ∃ bucket cluster, entry = .bucket bucket ∧ Tended key bucket cluster) : Upkept after := by
  intro other entry present
  rw [becomes] at present
  split at present
  · rename_i same
    subst same
    exact here entry present
  · exact upkept other entry present

private theorem outlives_of_other (upkept : Upkept before) (later : Upkept after)
    (becomes : Becomes before after key item) (other : Bytes.ofText id ≠ key) :
    Outlives id before after := by
  intro old found
  obtain ⟨bucket, present, tended⟩ := upkept.get_eq_ok.mp found
  refine ⟨old, later.get_eq_ok.mpr ⟨bucket, ?_, tended⟩, .refl old⟩
  rw [becomes, if_neg other, present]

/-- One entry changes: into a cluster that is later than the one that was there, if there was one. -/
theorem upholds_of_becomes (upkept : Upkept before)
    (becomes : Becomes before after key (some (.bucket bucket))) (tended : Tended key bucket cluster)
    (succeeds : ∀ prior old, item? before key = some (.bucket prior) → Tended key prior old →
      cluster.Succeeds old) : Upholds before after := by
  have later : Upkept after := upkept.of_becomes becomes fun entry same =>
    ⟨bucket, cluster, (Option.some.inj same).symm, tended⟩
  refine ⟨later, ?_⟩
  intro id
  by_cases here : Bytes.ofText id = key
  · subst here
    intro old found
    obtain ⟨prior, present, kept⟩ := upkept.get_eq_ok.mp found
    refine ⟨cluster, later.get_eq_ok.mpr ⟨bucket, ?_, tended⟩, succeeds prior old present kept⟩
    rw [becomes, if_pos rfl]
  · exact outlives_of_other upkept later becomes here

end Upkeep

section Changes

variable {tx later : Transaction} {cluster saved : Cluster} {id : String} {clock after : Clock}
  {change : Relabelling} {now : Instant} {ids : List String} {clusters : List Cluster}

private theorem totalSize_of_validateGroups {groups : List Group}
    (valid : validateGroups groups = .ok ()) :
    totalSize groups ≤ maxClusterSize := by
  unfold validateGroups at valid
  split at valid
  · contradiction
  · omega

theorem create_upholds (upkept : Upkept tx.tree) (valid : cluster.validate = .ok ())
    (countable : cluster.Countable) (timely : clock.next.Writable)
    (ok : create cluster tx clock = (.ok (saved, later), after)) :
    Upholds tx.tree later.tree := by
  obtain ⟨_, identified, sized⟩ := Outcome.bind_eq_ok.mp valid
  obtain ⟨made, first, ok⟩ := create_of_ok ok
  obtain ⟨_, written⟩ := save_eq_ok.mp ok
  obtain ⟨vacant, makes⟩ := becomes_of_makeMember first
  obtain ⟨prior, writes⟩ := becomes_of_write written
  have tended : Tended (Bytes.ofText cluster.id) _
      { cluster with createdAt := clock.next, updatedAt := clock.next } := {
    named := rfl
    identified
    shown := Layout.shows_clusterBucket prior _
    countable := ⟨countable.groups, countable.peers⟩
    created := timely
    updated := timely
    sized := totalSize_of_validateGroups sized
    chronological := Instant.isBefore_self _ }
  refine upholds_of_becomes upkept (makes.trans writes) tended ?_
  intro bucket old present kept
  cases vacant _ present
  exact absurd rfl kept.shown.ne_nil

/-- A cluster is written over the one that has its place. -/
theorem write_upholds {old new : Cluster} {bucket : Bucket} (upkept : Upkept tx.tree)
    (present : item? tx.tree (Bytes.ofText id) = some (.bucket bucket))
    (tended : Tended (Bytes.ofText id) bucket old) (same : new.id = old.id)
    (created : new.createdAt = old.createdAt)
    (updated : ∃ now : Instant, now.Writable ∧ new.updatedAt = now.latest old.updatedAt)
    (countable : new.Countable) (sized : totalSize new.groups ≤ maxClusterSize)
    (ok : Layout.run (Layout.writeCluster (memberPath id) new) tx = (.ok (), later)) :
    Upholds tx.tree later.tree := by
  obtain ⟨prior, writes⟩ := becomes_of_write ok
  obtain ⟨now, timely, updated⟩ := updated
  have succeeds : new.Succeeds old := ⟨created, updated ▸ Instant.latest_isBefore now _⟩
  have rewritten : Tended (Bytes.ofText id) _ new := {
    named := same ▸ tended.named
    identified := same ▸ tended.identified
    shown := Layout.shows_clusterBucket prior new
    countable
    created := created ▸ tended.created
    updated := updated ▸ timely.latest tended.updated
    sized
    chronological := Instant.isBefore_trans (created ▸ tended.chronological) succeeds.updated }
  refine upholds_of_becomes upkept writes rewritten ?_
  intro other older here kept
  cases present.symm.trans here
  cases (tended.readCluster id).symm.trans (kept.readCluster id)
  exact succeeds

theorem update_upholds (upkept : Upkept tx.tree) (sized : validateGroups cluster.groups = .ok ())
    (countable : cluster.Countable) (timely : clock.next.Writable)
    (ok : update cluster tx clock = (.ok (saved, later), after)) :
    Upholds tx.tree later.tree := by
  obtain ⟨bucket, createdAt, updatedAt, stored, read, ok⟩ := update_of_ok ok
  obtain ⟨_, written⟩ := save_eq_ok.mp ok
  obtain ⟨present, _⟩ := stored?_eq_some.mp stored
  obtain ⟨_, old, ⟨⟩, tended⟩ := upkept _ _ present
  cases (tended.shown.readTimestamps tended.created tended.updated).symm.trans read
  refine write_upholds upkept present tended ?_ ?_ ⟨clock.next, timely, ?_⟩ ?_ ?_ written
  · exact Bytes.ofText_injective tended.named
  · rfl
  · rfl
  · exact ⟨countable.groups, countable.peers⟩
  · exact totalSize_of_validateGroups sized

theorem relabel_upholds (upkept : Upkept tx.tree) (timely : now.Writable)
    (ok : relabel change now id tx = .ok (saved, later)) : Upholds tx.tree later.tree := by
  obtain ⟨old, found, rfl, written⟩ := relabel_of_ok ok
  obtain ⟨bucket, present, tended⟩ := upkept.get_eq_ok.mp found
  refine write_upholds upkept present tended ?_ ?_ ⟨now, timely, ?_⟩ ?_ ?_ written
  · rfl
  · rfl
  · rfl
  · exact ⟨tended.countable.groups, tended.countable.peers⟩
  · exact tended.sized

theorem relabelAll_upholds (upkept : Upkept tx.tree) (timely : now.Writable)
    (ok : relabelAll change now ids tx = .ok (clusters, later)) : Upholds tx.tree later.tree := by
  induction ids generalizing tx clusters with
  | nil =>
    cases ok
    exact .refl upkept
  | cons id ids ih =>
    obtain ⟨_, next, _, first, ok, _⟩ := relabelAll_cons_of_ok ok
    have upholds := relabel_upholds upkept timely first
    exact upholds.trans (ih upholds.upkept ok)

theorem label_upholds (upkept : Upkept tx.tree) (timely : ids ≠ [] → clock.next.Writable)
    (ok : label ids change tx clock = (.ok (clusters, later), after)) :
    Upholds tx.tree later.tree := by
  have relabels := label_of_ok ok
  cases ids with
  | nil =>
    cases relabels
    exact .refl upkept
  | cons first rest => exact relabelAll_upholds upkept (timely nofun) relabels

/-- Of all clusters only one goes. -/
theorem delete_upkept (upkept : Upkept tx.tree) (ok : delete id tx = .ok later) :
    Upkept later.tree ∧ ∀ other, other ≠ id → Outlives other tx.tree later.tree := by
  rcases delete_of_ok ok with rfl | performed
  · exact ⟨upkept, fun other _ => .refl other _⟩
  · have removes := becomes_of_remove performed
    have kept : Upkept later.tree := upkept.of_becomes removes (by simp)
    refine ⟨kept, ?_⟩
    intro other differs
    exact outlives_of_other upkept kept removes fun same =>
      differs (Bytes.ofText_injective same)

end Changes

end Collection

end ClusterRegistry
