import ClusterRegistry.Cluster.Collection
import ClusterRegistry.Proofs.Cluster.RoundTrip

/-!
Changes of the collection that succeed, taken apart: what each has found in the tree, and which
edits it has performed.  Whatever limits there are, the log of a transaction follows them all.
-/
namespace ClusterRegistry

namespace Collection

variable {tx later : Transaction} {cluster saved : Cluster} {id : String} {clock after : Clock}
  {change : Relabelling} {now : Instant} {ids : List String} {clusters : List Cluster}

theorem perform_eq_ok {edit : Edit} : perform tx edit = .ok later ↔ tx.perform edit = .ok later :=
  Outcome.mapError_eq_ok

theorem save_eq_ok : save tx cluster = .ok (saved, later) ↔ saved = cluster ∧
    Layout.run (Layout.writeCluster (memberPath cluster.id) cluster) tx = (.ok (), later) := by
  rw [save]
  rcases Layout.run (Layout.writeCluster (memberPath cluster.id) cluster) tx with ⟨outcome, next⟩
  cases outcome <;> simp [eq_comm]

private theorem performed_of_ok {edit : Edit}
    (ok : (match tx.perform edit with
      | .ok tx => return tx
      | .error (.tree (.bucketExists _)) => throw (.alreadyExists (describe id))
      | .error error => throw (.during (describe id) (.store error))) =
        (.ok later : Except ClusterError Transaction)) : tx.perform edit = .ok later := by
  split at ok
  · rename_i performed
    cases ok
    exact performed
  · contradiction
  · contradiction

/-- Only a vacant bucket has been taken away for the new one. -/
theorem makeMember_of_ok (ok : makeMember tx id = .ok later) : ∃ ensured emptied,
    tx.perform (.ensure [] collectionKey) = .ok ensured ∧
      (emptied = ensured ∨ ensured.tree.at? (memberPath id) = some [] ∧
        ensured.perform (.remove collectionPath (Bytes.ofText id)) = .ok emptied) ∧
      emptied.perform (.create collectionPath (Bytes.ofText id)) = .ok later := by
  obtain ⟨ensured, first, ok⟩ := Outcome.bind_eq_ok.mp ok
  have ensures := perform_eq_ok.mp first
  dsimp only at ok
  split at ok
  · rename_i vacant
    obtain ⟨emptied, second, ok⟩ := Outcome.bind_eq_ok.mp ok
    have removes := perform_eq_ok.mp (Outcome.mapError_eq_ok.mp second)
    refine ⟨ensured, emptied, ensures, .inr ⟨?_, removes⟩, performed_of_ok ok⟩
    cases found : ensured.tree.at? (memberPath id) with
    | none =>
      rw [found] at vacant
      contradiction
    | some bucket =>
      rw [found] at vacant
      exact congrArg some (List.isEmpty_iff.mp vacant)
  · exact ⟨ensured, ensured, ensures, .inl rfl, performed_of_ok ok⟩

theorem create_of_ok (ok : create cluster tx clock = (.ok (saved, later), after)) :
    ∃ made, makeMember tx cluster.id = .ok made ∧
      save made { cluster with createdAt := clock.next, updatedAt := clock.next } =
        .ok (saved, later) := by
  rw [create] at ok
  cases made : makeMember tx cluster.id with
  | error error =>
    rw [made] at ok
    cases ok
  | ok next =>
    rw [made] at ok
    exact ⟨next, rfl, congrArg Prod.fst ok⟩

theorem update_of_ok (ok : update cluster tx clock = (.ok (saved, later), after)) :
    ∃ bucket createdAt updatedAt, stored? tx.tree cluster.id = some bucket ∧
      Layout.readTimestamps bucket = .ok (createdAt, updatedAt) ∧
      save tx { cluster with createdAt, updatedAt := clock.next.latest updatedAt } =
        .ok (saved, later) := by
  rw [update] at ok
  split at ok
  · cases ok
  · rename_i bucket stored
    split at ok
    · cases ok
    · rename_i createdAt updatedAt read
      exact ⟨bucket, createdAt, updatedAt, stored, Outcome.mapError_eq_ok.mp read,
        congrArg Prod.fst ok⟩

theorem relabel_of_ok (ok : relabel change now id tx = .ok (saved, later)) :
    ∃ old, get tx.tree id = .ok old ∧
      saved = { old with labels := (old.labels.addAll change.adds).removeAll change.removes,
                         updatedAt := now.latest old.updatedAt } ∧
      Layout.run (Layout.writeCluster (memberPath id) saved) tx = (.ok (), later) := by
  obtain ⟨old, found, ok⟩ := Outcome.bind_eq_ok.mp ok
  dsimp only at ok
  split at ok
  · rename_i written
    cases ok
    exact ⟨old, found, rfl, written⟩
  · contradiction

theorem relabelAll_cons_of_ok
    (ok : relabelAll change now (id :: ids) tx = .ok (clusters, later)) :
    ∃ cluster next others, relabel change now id tx = .ok (cluster, next) ∧
      relabelAll change now ids next = .ok (others, later) ∧ clusters = cluster :: others := by
  obtain ⟨⟨cluster, next⟩, first, ok⟩ := Outcome.bind_eq_ok.mp ok
  obtain ⟨⟨others, last⟩, rest, ok⟩ := Outcome.bind_eq_ok.mp ok
  cases ok
  exact ⟨cluster, next, others, first, rest, rfl⟩

theorem label_of_ok (ok : label ids change tx clock = (.ok (clusters, later), after)) :
    relabelAll change clock.next ids tx = .ok (clusters, later) := by
  cases ids with
  | nil => exact congrArg Prod.fst ok
  | cons first rest =>
    rw [label] at ok
    split at ok
    · cases ok
    · exact congrArg Prod.fst ok

theorem delete_of_ok (ok : delete id tx = .ok later) :
    later = tx ∨ tx.perform (.remove collectionPath (Bytes.ofText id)) = .ok later := by
  unfold delete at ok
  split at ok
  · cases ok
    exact .inl rfl
  · split at ok
    · rename_i performed
      cases ok
      exact .inr performed
    all_goals contradiction

end Collection

namespace Transaction.Follows

open Collection

variable {base : Bucket} {tx later : Transaction} {cluster saved : Cluster} {id : String}
  {clock after : Clock} {change : Relabelling} {now : Instant} {ids : List String}
  {clusters : List Cluster}

theorem run {script : Layout.Script} (follows : tx.Follows base)
    (ok : Layout.run script tx = (.ok (), later)) : later.Follows base := by
  induction script generalizing tx with
  | nil =>
    cases ok
    exact follows
  | cons step script ih =>
    obtain ⟨next, performed, ok⟩ := Layout.run_cons_eq_ok.mp ok
    exact ih (follows.perform performed) ok

theorem save (follows : tx.Follows base) (ok : save tx cluster = .ok (saved, later)) :
    later.Follows base :=
  follows.run (save_eq_ok.mp ok).2

theorem makeMember (follows : tx.Follows base) (ok : makeMember tx id = .ok later) :
    later.Follows base := by
  obtain ⟨ensured, emptied, first, second, last⟩ := makeMember_of_ok ok
  have ensures := follows.perform first
  rcases second with rfl | ⟨_, removed⟩
  · exact ensures.perform last
  · exact (ensures.perform removed).perform last

theorem create (follows : tx.Follows base)
    (ok : create cluster tx clock = (.ok (saved, later), after)) : later.Follows base := by
  obtain ⟨made, first, ok⟩ := create_of_ok ok
  exact (follows.makeMember first).save ok

theorem update (follows : tx.Follows base)
    (ok : update cluster tx clock = (.ok (saved, later), after)) : later.Follows base := by
  obtain ⟨_, _, _, _, _, ok⟩ := update_of_ok ok
  exact follows.save ok

theorem relabelAll (follows : tx.Follows base)
    (ok : relabelAll change now ids tx = .ok (clusters, later)) : later.Follows base := by
  induction ids generalizing tx clusters with
  | nil =>
    cases ok
    exact follows
  | cons id ids ih =>
    obtain ⟨_, next, _, first, ok, _⟩ := relabelAll_cons_of_ok ok
    obtain ⟨_, _, _, written⟩ := relabel_of_ok first
    exact ih (follows.run written) ok

theorem label (follows : tx.Follows base)
    (ok : label ids change tx clock = (.ok (clusters, later), after)) : later.Follows base :=
  follows.relabelAll (label_of_ok ok)

theorem delete (follows : tx.Follows base) (ok : delete id tx = .ok later) :
    later.Follows base := by
  rcases delete_of_ok ok with rfl | performed
  · exact follows
  · exact follows.perform performed

end Transaction.Follows

end ClusterRegistry
