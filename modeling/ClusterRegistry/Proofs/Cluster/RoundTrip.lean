import ClusterRegistry.Proofs.Cluster.Writing
import ClusterRegistry.Store.Config

/-!
Writing a cluster over anything.  An edit that succeeds has found nothing of another kind in its
way, so wherever the whole of a write succeeds, the cluster is read back from its bucket, whatever
was in the bucket before.
-/
namespace ClusterRegistry.Layout

variable {limits : Limits} {path : BucketPath} {script rest : Script}
  {before middle after : Bucket} {tx later : Transaction}

theorem run_cons_eq_ok {step : Step} : run (step :: rest) tx = (.ok (), later) ↔
    ∃ next, tx.perform step.edit = .ok next ∧ run rest next = (.ok (), later) := by
  rw [run]
  cases tx.perform step.edit <;> simp

theorem run_append_eq_ok : run (script ++ rest) tx = (.ok (), later) ↔
    ∃ next, run script tx = (.ok (), next) ∧ run rest next = (.ok (), later) := by
  rw [run_append]
  rcases run script tx with ⟨outcome, next⟩
  cases outcome <;> simp

section Success

variable {base opened : Bucket} (runs : Runs tx.limits path script before after)
  (found : base.openAt path = .ok opened) (tree : tx.tree = Bucket.replaceAt before path base)
  (ok : run script tx = (.ok (), later))
include runs found tree ok

theorem Runs.check_of_ok : check tx.limits script = .ok () := by
  cases checked : check tx.limits script with
  | ok => rfl
  | error error =>
    have refused := runs.refused error checked found rfl tree
    rw [ok] at refused
    contradiction

theorem Runs.tree_of_ok : later.tree = Bucket.replaceAt after path base := by
  obtain ⟨last, done, _, changed⟩ := runs.done (runs.check_of_ok found tree ok) found rfl tree
  cases done.symm.trans ok
  exact changed

end Success

/-- Wherever the script succeeds, it turns `before` into `after` below `path`. -/
structure Leaves (path : BucketPath) (script : Script) (before after : Bucket) : Prop where
  tree : ∀ {base opened : Bucket} {tx later : Transaction}, base.openAt path = .ok opened →
    tx.tree = Bucket.replaceAt before path base → run script tx = (.ok (), later) →
    later.tree = Bucket.replaceAt after path base

namespace Leaves

theorem append (first : Leaves path script before middle) (second : Leaves path rest middle after) :
    Leaves path (script ++ rest) before after where
  tree found tree ok := by
    obtain ⟨next, ran, ok⟩ := run_append_eq_ok.mp ok
    exact second.tree found (first.tree found tree ran) ok

theorem of_edit (edit : Edit) (part : Option String)
    (works : ∀ limits log worked, edit.work ⟨limits, edit.path, before, log⟩ = (.ok (), worked) →
      worked.bucket = after) : Leaves edit.path [⟨edit, part⟩] before after := by
  constructor
  intro base opened tx later found tree ok
  obtain ⟨next, performed, ⟨⟩⟩ := run_cons_eq_ok.mp ok
  obtain ⟨worked, done, changed⟩ :=
    Transaction.work_of_perform_replaceAt edit found tree performed
  rw [changed, works _ _ _ done]

theorem putText (name text : String) (part : Option String) :
    Leaves path [⟨Layout.putText path name text, part⟩] before (withText name text before) :=
  of_edit (Layout.putText path name text) part fun _ _ _ ok => (OpenBucket.put_of_ok ok).2.2

theorem discard (name : String) (part : Option String) :
    Leaves path [⟨.discard path (Bytes.ofText name), part⟩] before (withoutChild name before) := by
  apply of_edit (.discard path (Bytes.ofText name)) part
  intro limits log worked ok
  have left : OpenBucket.discard (Bytes.ofText name) ⟨limits, path, before, log⟩ =
      (.ok (), worked) := ok
  exact OpenBucket.discard_of_ok left

/-- A script that starts by making a bucket afresh has found no field in its place. -/
theorem of_recreate {name : String} {part : Option String}
    (runs : field? before name = none →
      ∀ limits, Runs limits path (⟨recreate path name, part⟩ :: script) before after) :
    Leaves path (⟨recreate path name, part⟩ :: script) before after := by
  constructor
  intro base opened tx later found tree ok
  obtain ⟨next, performed, _⟩ := run_cons_eq_ok.mp ok
  obtain ⟨worked, done, _⟩ :=
    Transaction.work_of_perform_replaceAt (Layout.recreate path name) found tree performed
  exact (runs (OpenBucket.recreate_of_ok done) tx.limits).tree_of_ok found tree ok

theorem labels (set : Labels) :
    Leaves path ((writeLabels path set).map Step.plain) before
      (withBucket Layout.labels (labelBucket set) before) :=
  of_recreate fun vacant _ => Runs.labels set vacant none

theorem groups (groups : List Group) :
    Leaves path (writeGroups path groups) before (withGroups groups before) := by
  unfold withGroups
  split
  · rename_i empty
    rw [writeGroups, if_pos empty]
    exact discard definition none
  · rename_i listed
    have runs : field? before definition = none → ∀ limits,
        Runs limits path (writeGroups path groups) before _ :=
      fun vacant _ => Runs.listedGroups listed vacant
    rw [writeGroups, if_neg listed] at runs ⊢
    exact of_recreate runs

end Leaves

/-- All of a cluster but the first timestamp. -/
theorem Leaves.cluster (prior : Bucket) (cluster : Cluster) :
    Leaves path
      (Step.plain (Layout.putText path updatedAt (Timestamp.text cluster.updatedAt)) ::
        (writeGroups path cluster.groups ++ ((writeLabels path cluster.labels).map Step.plain ++
          [Step.plain (Layout.putText path id cluster.id),
            Step.plain (Layout.putText path status (statusText cluster.status))])))
      (withText createdAt (Timestamp.text cluster.createdAt) prior)
      (clusterBucket prior cluster) :=
  (putText updatedAt (Timestamp.text cluster.updatedAt) none).append
    ((groups cluster.groups).append ((labels cluster.labels).append
      ((putText id cluster.id none).append (putText status (statusText cluster.status) none))))

theorem tree_of_writeCluster {cluster : Cluster}
    (ok : run (writeCluster path cluster) tx = (.ok (), later)) : ∃ prior,
      tx.tree.openAt path = .ok prior ∧
        later.tree = Bucket.replaceAt (clusterBucket prior cluster) path tx.tree := by
  unfold writeCluster writeTimestamps at ok
  simp only [List.append_assoc, List.map_cons, List.map_nil, List.cons_append,
    List.nil_append] at ok
  -- Nothing is known of the tree before the first edit; from then on a bucket of it was replaced.
  obtain ⟨next, performed, ok⟩ := run_cons_eq_ok.mp ok
  obtain ⟨prior, worked, opens, done, tree⟩ :=
    Transaction.work_of_perform (putText path createdAt _) performed
  rw [(OpenBucket.put_of_ok done).2.2] at tree
  exact ⟨prior, opens, (Leaves.cluster prior cluster).tree opens tree ok⟩

/-- Whatever a bucket holds, once a cluster is written into it, that cluster is read from it, down to
the last label and under whatever name it is read.  Its lists are no longer than a 64-bit word can
say, and its instants, which may lie in leap seconds, are in years of four digits. -/
theorem readCluster_of_writeCluster {cluster : Cluster} (countable : cluster.Countable)
    (created : cluster.createdAt.Writable) (updated : cluster.updatedAt.Writable)
    (ok : run (writeCluster path cluster) tx = (.ok (), later)) :
    ∃ prior bucket, tx.tree.openAt path = .ok prior ∧
      later.tree = Bucket.replaceAt bucket path tx.tree ∧ later.tree.openAt path = .ok bucket ∧
      ∀ defaultId, readCluster bucket defaultId = .ok cluster := by
  obtain ⟨prior, opens, tree⟩ := tree_of_writeCluster ok
  refine ⟨prior, clusterBucket prior cluster, opens, tree, ?_, ?_⟩
  · rw [tree]
    exact Bucket.openAt_replaceAt opens _
  · exact (shows_clusterBucket prior cluster).readCluster countable created updated

/-- Over another cluster, with more groups than the new one, a peer where it has none and a label
that it lacks, and beside an unknown field and an unknown child. -/
theorem readCluster_of_writeCluster_over_cluster :
    let peer : Peer := ⟨"main", ["quic", "tcp"], [], ["tls"], "kad"⟩
    let plain : Group := ⟨3, "small", "north", none, .ofList ["a"]⟩
    let peered : Group := ⟨2, "large", "south", some peer, .empty⟩
    let old : Cluster := ⟨"c", some .created, [peered, plain], .ofList ["a", "b"], ⟨0, 0⟩, ⟨0, 0⟩⟩
    let cluster : Cluster := ⟨"d", none, [plain], .ofList ["a"], ⟨0, 1⟩, ⟨59, 1500000000⟩⟩
    let prior : Bucket := [([107], .value [118]), ([108], .bucket [([109], .value [])])]
    let tx := (run (writeCluster [[99]] old)
      (.start Config.durable.limits [([99], .bucket prior)])).2
    ∃ later bucket, run (writeCluster [[99]] cluster) tx = (.ok (), later) ∧
      later.tree.openAt [[99]] = .ok bucket ∧ readCluster bucket "" = .ok cluster := by
  intro peer plain peered old cluster prior tx
  have countable : cluster.Countable := by
    refine ⟨by decide, fun group member peer found => ?_⟩
    rw [List.mem_singleton.mp member] at found
    contradiction
  rcases done : run (writeCluster [[99]] cluster) tx with ⟨outcome, later⟩
  have succeeds : (run (writeCluster [[99]] cluster) tx).1 = .ok () := by decide +kernel
  rw [done] at succeeds
  cases succeeds
  obtain ⟨_, bucket, _, _, opens, read⟩ :=
    readCluster_of_writeCluster countable (by decide +kernel) (by decide +kernel) done
  exact ⟨later, bucket, rfl, opens, read ""⟩

end ClusterRegistry.Layout
