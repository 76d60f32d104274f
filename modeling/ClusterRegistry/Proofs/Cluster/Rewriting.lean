import ClusterRegistry.Proofs.Cluster.RoundTrip
import ClusterRegistry.Proofs.Time.Reading

/-!
Writing again what was read.  A cluster may lie in its bucket in many ways; once it is written over
what it was read from, it lies there in one of them, is read from there as before, and stays there
as it is when it is written again.
-/
namespace ClusterRegistry

/-- What a cluster must be to be read back once it is written. -/
structure Cluster.Writable (cluster : Cluster) : Prop where
  countable : cluster.Countable
  created : cluster.createdAt.Writable
  updated : cluster.updatedAt.Writable

/-- Instants in years of four digits, and lists that are no longer than a length can say. -/
structure Cluster.Plain (cluster : Cluster) : Prop where
  countable : cluster.Countable
  created : cluster.createdAt.HasPlainYear
  updated : cluster.updatedAt.HasPlainYear

namespace Layout

section Read

variable {bucket : Bucket} {cluster : Cluster} {defaultId name : String} {instant : Instant}

private theorem writable_of_instantField (read : instantField bucket name = .ok instant)
    (plain : instant.HasPlainYear) : instant.Writable := by
  unfold instantField at read
  split at read
  · unfold readInstant at read
    obtain ⟨text, _, read⟩ := Outcome.bind_eq_ok.mp read
    split at read
    · rename_i parsed
      cases read
      exact Timestamp.writable_of_parse parsed plain
    · contradiction
  · contradiction

theorem writable_of_readCluster (read : readCluster bucket defaultId = .ok cluster)
    (plain : cluster.Plain) : cluster.Writable := by
  unfold readCluster at read
  obtain ⟨⟨created, updated⟩, timed, read⟩ := Outcome.bind_eq_ok.mp read
  unfold readTimestamps at timed
  obtain ⟨_, first, timed⟩ := Outcome.bind_eq_ok.mp timed
  obtain ⟨_, second, timed⟩ := Outcome.bind_eq_ok.mp timed
  cases timed
  obtain ⟨_, _, read⟩ := Outcome.bind_eq_ok.mp read
  obtain ⟨_, _, read⟩ := Outcome.bind_eq_ok.mp read
  dsimp only at read
  split at read
  all_goals
    obtain ⟨_, _, read⟩ := Outcome.bind_eq_ok.mp read
    obtain ⟨_, _, read⟩ := Outcome.bind_eq_ok.mp read
    cases read
    exact ⟨plain.countable, writable_of_instantField first plain.created,
      writable_of_instantField second plain.updated⟩

end Read

variable {limits : Limits} {path : BucketPath} {script rest : Script}
  {before middle after bucket : Bucket} {tx later : Transaction} {name : String}

private theorem limits_of_run (ok : run script tx = (.ok (), later)) :
    later.limits = tx.limits := by
  induction script generalizing tx with
  | nil =>
    cases ok
    rfl
  | cons step script ih =>
    obtain ⟨next, performed, ok⟩ := run_cons_eq_ok.mp ok
    have kept : (tx.run step.edit).2.limits = tx.limits :=
      (Transaction.write_log tx step.edit.path step.edit.faithful_work).1
    rw [Transaction.perform_eq_ok.mp performed] at kept
    exact (ih ok).trans kept

/-- Somewhere the script succeeds in `before`, and so all that it asks of the limits holds. -/
def Passes (limits : Limits) (path : BucketPath) (script : Script) (before : Bucket) : Prop :=
  ∃ (base opened : Bucket) (tx later : Transaction), base.openAt path = .ok opened ∧
    tx.limits = limits ∧ tx.tree = Bucket.replaceAt before path base ∧
    run script tx = (.ok (), later)

namespace Passes

theorem append (passes : Passes limits path (script ++ rest) before)
    (leaves : Leaves path script before middle) :
    Passes limits path script before ∧ Passes limits path rest middle := by
  obtain ⟨base, opened, tx, later, found, limited, tree, ok⟩ := passes
  obtain ⟨next, first, second⟩ := run_append_eq_ok.mp ok
  exact ⟨⟨base, opened, tx, next, found, limited, tree, first⟩, base, opened, next, later, found,
    (limits_of_run first).trans limited, leaves.tree found tree first, second⟩

theorem cons {step : Step} (passes : Passes limits path (step :: rest) before)
    (leaves : Leaves path [step] before middle) :
    Passes limits path [step] before ∧ Passes limits path rest middle :=
  append passes leaves

theorem check (passes : Passes limits path script before)
    (runs : Runs limits path script before after) : Layout.check limits script = .ok () := by
  obtain ⟨base, opened, tx, later, found, rfl, tree, ok⟩ := passes
  exact runs.check_of_ok found tree ok

theorem work (step : Step) (passes : Passes limits step.edit.path (step :: rest) before) :
    ∃ log worked, step.edit.work ⟨limits, step.edit.path, before, log⟩ = (.ok (), worked) := by
  obtain ⟨base, opened, tx, later, found, rfl, tree, ok⟩ := passes
  obtain ⟨next, performed, _⟩ := run_cons_eq_ok.mp ok
  obtain ⟨worked, done, _⟩ :=
    Transaction.work_of_perform_replaceAt step.edit found tree performed
  exact ⟨tx.log, worked, done⟩

end Passes

/-- Wherever the bucket is, the script succeeds in it and leaves it as it is. -/
structure Rests (limits : Limits) (path : BucketPath) (script : Script) (bucket : Bucket) :
    Prop where
  done : ∀ {base opened : Bucket} {tx : Transaction}, base.openAt path = .ok opened →
    tx.limits = limits → tx.tree = Bucket.replaceAt bucket path base →
    ∃ later, run script tx = (.ok (), later) ∧ later.limits = limits ∧
      later.tree = Bucket.replaceAt bucket path base

namespace Rests

theorem append (first : Rests limits path script bucket) (second : Rests limits path rest bucket) :
    Rests limits path (script ++ rest) bucket where
  done found limited tree := by
    obtain ⟨next, ran, limited, tree⟩ := first.done found limited tree
    obtain ⟨later, ok, limited, tree⟩ := second.done found limited tree
    exact ⟨later, run_append_eq_ok.mpr ⟨next, ran, ok⟩, limited, tree⟩

private theorem of_runs (runs : Runs limits path script bucket after) (same : after = bucket)
    (valid : check limits script = .ok ()) : Rests limits path script bucket where
  done found limited tree := same ▸ runs.done valid found limited tree

theorem putText {text : String} {part : Option String}
    (passes : Passes limits path [⟨Layout.putText path name text, part⟩] before)
    (ordered : OrderedMap.Ordered bucket)
    (written : field? bucket name = some (Bytes.ofText text)) :
    Rests limits path [⟨Layout.putText path name text, part⟩] bucket := by
  obtain ⟨log, worked, done⟩ := passes.work ⟨Layout.putText path name text, part⟩
  obtain ⟨inner, vacant, _⟩ := OpenBucket.put_of_ok done
  have stored := Bucket.field?_eq_some.mp written
  have runs : Runs limits path _ bucket (withText name text bucket) :=
    Runs.putText name inner (by rw [child?, Bucket.child?, stored]) text part
  exact of_runs runs (OrderedMap.insert_of_find? ordered stored)
    (passes.check (Runs.putText name inner vacant text part))

theorem recreate {child : Bucket} {part : Option String}
    (passes : Passes limits path (⟨Layout.recreate path name, part⟩ :: script) before)
    (runs : ∀ {before}, field? before name = none → Runs limits path
      (⟨Layout.recreate path name, part⟩ :: script) before (withBucket name child before))
    (ordered : OrderedMap.Ordered bucket) (written : child? bucket name = some child) :
    Rests limits path (⟨Layout.recreate path name, part⟩ :: script) bucket := by
  obtain ⟨log, worked, done⟩ := passes.work ⟨Layout.recreate path name, part⟩
  have stored := Bucket.child?_eq_some.mp written
  have same : withBucket name child bucket = bucket :=
    (OrderedMap.insert_erase _ _ ordered).trans (OrderedMap.insert_of_find? ordered stored)
  exact of_runs (runs (by rw [field?, Bucket.field?, stored])) same
    (passes.check (runs (OpenBucket.recreate_of_ok done)))

/-- A child that is not there need not be removed, whatever the limits say about its name. -/
theorem discard {part : Option String} (absent : child? bucket name = none) :
    Rests limits path [⟨.discard path (Bytes.ofText name), part⟩] bucket where
  done {base opened tx} found limited tree := by
    have here : tx.tree.openAt path = .ok bucket := tree ▸ Bucket.openAt_replaceAt found bucket
    refine ⟨⟨tx.limits, Bucket.replaceAt bucket path tx.tree, tx.log⟩, ?_, limited, ?_⟩
    · refine run_cons_eq_ok.mpr ⟨_, Transaction.perform_eq_ok.mpr ?_, rfl⟩
      rw [Transaction.run, Transaction.write, Edit.path, here]
      simp only [Edit.work, OpenBucket.discard, OpenBucket.hasChild, OpenBucket.run_ask,
        show bucket.child? (Bytes.ofText name) = none from absent]
      rfl
    · rw [tree]
      exact Bucket.replaceAt_replaceAt found bucket bucket

theorem labels {set : Labels}
    (passes : Passes limits path ((writeLabels path set).map Step.plain) before)
    (ordered : OrderedMap.Ordered bucket)
    (written : child? bucket Layout.labels = some (labelBucket set)) :
    Rests limits path ((writeLabels path set).map Step.plain) bucket :=
  recreate passes (fun vacant => Runs.labels set vacant none) ordered written

theorem groups {groups : List Group} (passes : Passes limits path (writeGroups path groups) before)
    (ordered : OrderedMap.Ordered bucket)
    (written : child? bucket definition = if groups = [] then none
      else some (listBucket (groups.map fun group => .bucket (groupBucket group)))) :
    Rests limits path (writeGroups path groups) bucket := by
  by_cases empty : groups = []
  · rw [if_pos empty] at written
    rw [writeGroups, if_pos empty]
    exact discard written
  · rw [if_neg empty] at written
    have runs : ∀ {before}, field? before definition = none →
        Runs limits path (writeGroups path groups) before _ :=
      fun vacant => Runs.listedGroups empty vacant
    rw [writeGroups, if_neg empty] at passes runs ⊢
    exact recreate passes runs ordered written

/-- Where a cluster can be written at all, it can be written into a bucket that shows it. -/
theorem cluster {cluster : Cluster} (passes : Passes limits path (writeCluster path cluster) before)
    (ordered : OrderedMap.Ordered bucket) (shown : Shows bucket cluster) :
    Rests limits path (writeCluster path cluster) bucket := by
  unfold writeCluster writeTimestamps at passes ⊢
  simp only [List.append_assoc, List.map_cons, List.map_nil, List.cons_append,
    List.nil_append] at passes ⊢
  obtain ⟨created, passes⟩ := passes.cons (Leaves.putText _ _ none)
  obtain ⟨updated, passes⟩ := passes.cons (Leaves.putText _ _ none)
  obtain ⟨grouped, passes⟩ := passes.append (Leaves.groups cluster.groups)
  obtain ⟨labelled, passes⟩ := passes.append (Leaves.labels cluster.labels)
  obtain ⟨named, stated⟩ := passes.cons (Leaves.putText _ _ none)
  exact (putText created ordered shown.createdAt).append
    ((putText updated ordered shown.updatedAt).append
      ((groups grouped ordered shown.definition).append
        ((labels labelled ordered shown.labels).append
          ((putText named ordered shown.id).append (putText stated ordered shown.status)))))

end Rests

section Ordered

variable (ordered : OrderedMap.Ordered bucket) (name : String)
include ordered

theorem ordered_withText (text : String) : OrderedMap.Ordered (withText name text bucket) :=
  OrderedMap.ordered_insert _ _ ordered

theorem ordered_withBucket (child : Bucket) : OrderedMap.Ordered (withBucket name child bucket) :=
  OrderedMap.ordered_insert _ _ (OrderedMap.ordered_erase _ ordered)

theorem ordered_withoutChild : OrderedMap.Ordered (withoutChild name bucket) := by
  unfold withoutChild
  split
  · exact OrderedMap.ordered_erase _ ordered
  · exact ordered

omit name in
theorem ordered_withGroups (groups : List Group) :
    OrderedMap.Ordered (withGroups groups bucket) := by
  unfold withGroups
  split
  · exact ordered_withoutChild ordered definition
  · exact ordered_withBucket ordered definition _

omit name in
theorem ordered_clusterBucket (cluster : Cluster) :
    OrderedMap.Ordered (clusterBucket bucket cluster) := by
  unfold clusterBucket
  apply ordered_withText
  apply ordered_withText
  apply ordered_withBucket
  apply ordered_withGroups
  apply ordered_withText
  exact ordered_withText ordered createdAt _

end Ordered

/-- Whatever a cluster was read from, once it is written over that, the same cluster is read from
there under any name; and in a transaction that finds the bucket so, with the same limits, the
cluster can be written again and the tree stays as it is. -/
theorem rewriting_settles {cluster : Cluster} {defaultId : String} (wellFormed : tx.tree.WellFormed)
    (opens : tx.tree.openAt path = .ok bucket) (read : readCluster bucket defaultId = .ok cluster)
    (plain : cluster.Plain) (ok : run (writeCluster path cluster) tx = (.ok (), later)) :
    ∃ written, later.tree = Bucket.replaceAt written path tx.tree ∧
      later.tree.openAt path = .ok written ∧
      (∀ otherId, readCluster written otherId = .ok cluster) ∧
      ∀ next : Transaction, next.limits = later.limits → next.tree = later.tree →
        ∃ again, run (writeCluster path cluster) next = (.ok (), again) ∧
          again.tree = next.tree := by
  have writable := writable_of_readCluster read plain
  obtain ⟨prior, found, tree⟩ := tree_of_writeCluster ok
  cases opens.symm.trans found
  have shown := shows_clusterBucket bucket cluster
  have ordered := ordered_clusterBucket (wellFormed.openAt opens).ordered cluster
  refine ⟨clusterBucket bucket cluster, tree, ?_, ?_, ?_⟩
  · rw [tree]
    exact Bucket.openAt_replaceAt opens _
  · exact shown.readCluster writable.countable writable.created writable.updated
  · intro next limited same
    have passes : Passes tx.limits path (writeCluster path cluster) bucket :=
      ⟨tx.tree, bucket, tx, later, opens, rfl, (wellFormed.replaceAt_self opens).symm, ok⟩
    obtain ⟨again, done, _, kept⟩ := (Rests.cluster passes ordered shown).done opens
      (limited.trans (limits_of_run ok)) (same.trans tree)
    exact ⟨again, done, kept.trans (same.trans tree).symm⟩

/-- A list of groups without a length, with a group behind its end; a size with a sign and a zero;
an instant with an offset and one in a leap second; and a field without a meaning at each level. -/
theorem rewriting_settles_unlisted :
    let field (name text : String) : Key × Item := (Bytes.ofText name, .value (Bytes.ofText text))
    let bucket : Bucket := [field createdAt "2020-01-01T01:00:00+01:00",
      (Bytes.ofText definition, .bucket [
        (Numeral.indexKey 0, .bucket [field "note" "a", field region "north", field size "+03"]),
        (Numeral.indexKey 2, .bucket []), field "note" "b"]),
      field "note" "c", field updatedAt "2016-12-31T23:59:60.5Z"]
    let cluster : Cluster := ⟨"d", none, [⟨3, "", "north", none, .empty⟩], .empty,
      ⟨1577836800, 0⟩, ⟨1483228799, 1500000000⟩⟩
    let tx := Transaction.start Config.durable.limits [([99], .bucket bucket)]
    readCluster bucket "d" = .ok cluster ∧ ∃ later written again,
      run (writeCluster [[99]] cluster) tx = (.ok (), later) ∧
      later.tree.openAt [[99]] = .ok written ∧ readCluster written "e" = .ok cluster ∧
      run (writeCluster [[99]] cluster) later = (.ok (), again) ∧ again.tree = later.tree := by
  intro field bucket cluster tx
  have made : Bucket.replay tx.tree.snapshot [] = .ok tx.tree := rfl
  have wellFormed : tx.tree.WellFormed := Bucket.wellFormed_nil.replayed made
  have read : readCluster bucket "d" = .ok cluster := by decide +kernel
  have plain : cluster.Plain := by
    refine ⟨⟨by decide, fun group member peer found => ?_⟩, by decide +kernel, by decide +kernel⟩
    rw [List.mem_singleton.mp member] at found
    contradiction
  rcases done : run (writeCluster [[99]] cluster) tx with ⟨outcome, later⟩
  have succeeds : (run (writeCluster [[99]] cluster) tx).1 = .ok () := by decide +kernel
  rw [done] at succeeds
  cases succeeds
  obtain ⟨written, _, opens, readAgain, writeAgain⟩ :=
    rewriting_settles wellFormed rfl read plain done
  obtain ⟨again, repeated, same⟩ := writeAgain later rfl rfl
  exact ⟨read, later, written, again, rfl, opens, readAgain "e", repeated, same⟩

end Layout

end ClusterRegistry
