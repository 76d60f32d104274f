import ClusterRegistry.Proofs.Atomicity
import ClusterRegistry.Proofs.Cluster.Rewriting
import ClusterRegistry.Proofs.History

/-!
Labels, and nothing else.  To label clusters is to give each of them other labels and a time of
update, as often as it is named; every other entry of the collection stays as it is.  The tree that
they lie in need not have been made by a registry.
-/
namespace ClusterRegistry

private theorem Instant.latest_latest (now instant : Instant) :
    now.latest (now.latest instant) = now.latest instant := by
  unfold latest
  split
  · rfl
  · rw [isBefore_self]
    rfl

private theorem Labels.mem_changed {label : String} {labels : Labels}
    {added removed : List String} :
    label ∈ (labels.changed added removed).toList ↔
      (label ∈ labels.toList ∨ label ∈ added) ∧ label ∉ removed := by
  rw [changed, mem_ofList, List.mem_filter, List.mem_append, decide_eq_true_eq]

private theorem Labels.changed_changed (labels : Labels) (added removed : List String) :
    (labels.changed added removed).changed added removed = labels.changed added removed := by
  apply ext_mem
  intro label
  simp only [mem_changed]
  tauto

namespace Cluster

/-- The cluster with its labels changed at an instant. -/
def relabelled (change : Collection.Relabelling) (now : Instant) (cluster : Cluster) : Cluster :=
  { cluster with labels := cluster.labels.changed change.adds change.removes,
                 updatedAt := now.latest cluster.updatedAt }

variable {change : Collection.Relabelling} {now : Instant} {cluster : Cluster}

private theorem relabelled_relabelled : (cluster.relabelled change now).relabelled change now =
    cluster.relabelled change now := by
  simp only [relabelled, Labels.changed_changed, Instant.latest_latest]

theorem Writable.relabelled (writable : cluster.Writable) (timely : now.Writable) :
    (cluster.relabelled change now).Writable where
  countable := ⟨writable.countable.groups, writable.countable.peers⟩
  created := writable.created
  updated := timely.latest writable.updated

end Cluster

namespace Collection

/-- Nothing but the members of these names is changed, in the collection and around it. -/
structure ChangesOnly (ids : List String) (before after : Bucket) : Prop where
  members : ∀ key, (∀ id ∈ ids, key ≠ Bytes.ofText id) → item? after key = item? before key
  root : ∀ key, key ≠ collectionKey → after.item? key = before.item? key

section Step

variable {before middle after tree : Bucket} {id : String} {ids : List String}
  {tx later : Transaction} {cluster saved old : Cluster} {change : Relabelling} {now : Instant}
  {clusters : List Cluster}

theorem ChangesOnly.nil (tree : Bucket) : ChangesOnly [] tree tree :=
  ⟨fun _ _ => rfl, fun _ _ => rfl⟩

theorem ChangesOnly.cons (first : ChangesOnly [id] before middle)
    (rest : ChangesOnly ids middle after) : ChangesOnly (id :: ids) before after where
  members key other := by
    obtain ⟨here, others⟩ := List.forall_mem_cons.mp other
    rw [rest.members key others, first.members key (List.forall_mem_singleton.mpr here)]
  root key other := by rw [rest.root key other, first.root key other]

private theorem get_congr (same : item? after (Bytes.ofText id) = item? before (Bytes.ofText id)) :
    get after id = get before id := by
  have stored : stored? after id = stored? before id := by
    apply Option.ext
    intro bucket
    rw [stored?_eq_some, stored?_eq_some, same]
  rw [get, get, stored]

theorem ChangesOnly.get (changes : ChangesOnly ids before after) (other : id ∉ ids) :
    get after id = get before id := by
  refine get_congr (changes.members _ fun named member same => other ?_)
  exact Bytes.ofText_injective same ▸ member

/-- The members of these names are labelled from `before` to `after`, and nothing else changes. -/
structure Relabels (change : Relabelling) (now : Instant) (ids : List String)
    (before after : Bucket) : Prop where
  changes : ChangesOnly ids before after
  each : ∀ id ∈ ids, ∃ old, get before id = .ok old ∧
    get after id = .ok (old.relabelled change now)

namespace Relabels

/-- What is labelled again is labelled as before, so it does not matter that a cluster that is named
once more is read as it was labelled. -/
theorem cons (first : Relabels change now [id] before middle)
    (rest : Relabels change now ids middle after) :
    Relabels change now (id :: ids) before after where
  changes := first.changes.cons rest.changes
  each other member := by
    by_cases here : other = id
    · subst here
      obtain ⟨old, found, made⟩ := first.each other List.mem_cons_self
      refine ⟨old, found, ?_⟩
      by_cases again : other ∈ ids
      · obtain ⟨labelled, there, kept⟩ := rest.each other again
        cases there.symm.trans made
        rwa [Cluster.relabelled_relabelled] at kept
      · rwa [rest.changes.get again]
    · obtain ⟨old, found, made⟩ := rest.each other ((List.mem_cons.mp member).resolve_left here)
      rw [first.changes.get (by simpa using here)] at found
      exact ⟨old, found, made⟩

theorem writable (relabels : Relabels change now ids before after) (timely : now.Writable)
    (writable : ∀ old, get before id = .ok old → old.Writable) :
    ∀ cluster, get after id = .ok cluster → cluster.Writable := by
  intro cluster found
  by_cases named : id ∈ ids
  · obtain ⟨old, before, labelled⟩ := relabels.each id named
    cases found.symm.trans labelled
    exact (writable old before).relabelled timely
  · rw [relabels.changes.get named] at found
    exact writable cluster found

end Relabels

end Step

end Collection

namespace Registry

variable {registry next : Registry} {context : Context} {now : Nat}

section Foreign

end Foreign

end Registry

end ClusterRegistry
