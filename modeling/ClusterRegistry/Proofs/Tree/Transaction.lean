import ClusterRegistry.Proofs.Tree.OpenBucket
import ClusterRegistry.Tree.Transaction

/-!
What a transaction writes down.  Whatever edits are tried, and whether or not they are refused, the
records of a transaction lead from the tree that it started with to the tree that it holds; and an
edit that is refused leaves the transaction as it was.
-/
namespace ClusterRegistry

theorem Edit.faithful_work (edit : Edit) : OpenBucket.Faithful edit.work := by
  cases edit with
  | put path key value => exact .put key value
  | delete path key => exact .delete key
  | create path key => exact .create key
  | ensure path key => exact .ensure key
  | recreate path key => exact .recreate key
  | remove path key => exact .remove key
  | discard path key => exact .discard key

namespace Transaction

/-- Try an edit, and go on from what it left. -/
def attempt (tx : Transaction) (edit : Edit) : Transaction :=
  (tx.run edit).2

def attemptAll (tx : Transaction) (edits : List Edit) : Transaction :=
  edits.foldl attempt tx

/-- The log is how `tx` came from `base`, and all it does is change buckets. -/
structure Follows (base : Bucket) (tx : Transaction) : Prop where
  replayed : base.replay tx.log = .ok tx.tree
  mutating : ∀ record ∈ tx.log, record.operation ≠ .commit ∧ record.operation ≠ .checkpoint
  wellFormed : tx.tree.WellFormed

variable {base : Bucket} {tx next : Transaction} {edit : Edit}

theorem perform_eq_ok : tx.perform edit = .ok next ↔ tx.run edit = (.ok (), next) := by
  unfold perform
  obtain ⟨outcome, after⟩ := tx.run edit
  cases outcome with
  | ok => simp
  | error error => simp

theorem attempt_of_perform (ok : tx.perform edit = .ok next) : tx.attempt edit = next := by
  rw [attempt, perform_eq_ok.mp ok]

theorem follows_start (limits : Limits) {tree : Bucket} (wellFormed : tree.WellFormed) :
    (start limits tree).Follows tree :=
  ⟨rfl, by simp [start], wellFormed⟩

/-- Every record that work has logged names its bucket and has passed the limits. -/
theorem write_log (tx : Transaction) (path : BucketPath) {work : OpenBucketM Unit}
    (faithful : OpenBucket.Faithful work) :
    (tx.write path work).2.limits = tx.limits ∧
      ∃ records, (tx.write path work).2.log = tx.log ++ records ∧
        ∀ record ∈ records, record.path = path ∧ tx.limits.checkKey record.key = .ok () ∧
          tx.limits.checkValue record.value = .ok () := by
  unfold Transaction.write
  split
  · exact ⟨rfl, [], (List.append_nil _).symm, by simp⟩
  · rename_i bucket found
    obtain ⟨records, done⟩ := (faithful ⟨tx.limits, path, bucket, tx.log⟩).leads
    exact ⟨rfl, records, done.log, done.within⟩

namespace Follows

theorem write (follows : tx.Follows base) (path : BucketPath) {work : OpenBucketM Unit}
    (faithful : OpenBucket.Faithful work) : (tx.write path work).2.Follows base := by
  unfold Transaction.write
  split
  · exact follows
  · rename_i bucket found
    obtain ⟨records, done⟩ := (faithful ⟨tx.limits, path, bucket, tx.log⟩).leads
    have onward := done.replayed found
    rw [follows.wellFormed.replaceAt_self found] at onward
    refine ⟨?_, ?_, ?_⟩
    · dsimp only
      rw [done.log, Bucket.replay_append, follows.replayed]
      exact onward
    · dsimp only
      rw [done.log]
      intro record member
      exact (List.mem_append.mp member).elim (follows.mutating record) (done.mutating record)
    · exact follows.wellFormed.replayed onward

theorem attempt (follows : tx.Follows base) (edit : Edit) : (tx.attempt edit).Follows base :=
  follows.write edit.path edit.faithful_work

theorem attemptAll (follows : tx.Follows base) (edits : List Edit) :
    (tx.attemptAll edits).Follows base := by
  induction edits generalizing tx with
  | nil => exact follows
  | cons edit edits ih => exact ih (follows.attempt edit)

theorem perform (follows : tx.Follows base) (ok : tx.perform edit = .ok next) :
    next.Follows base :=
  attempt_of_perform ok ▸ follows.attempt edit

end Follows

private theorem write_of_error {path : BucketPath} {work : OpenBucketM Unit} {error : StoreError}
    (wellFormed : tx.tree.WellFormed) (faithful : OpenBucket.Faithful work)
    (refused : (tx.write path work).1 = .error error) : (tx.write path work).2 = tx := by
  unfold Transaction.write at refused ⊢
  split
  · rfl
  · rename_i bucket found
    rw [found] at refused
    dsimp only at refused ⊢
    rw [(faithful _).unchanged error refused, wellFormed.replaceAt_self found]

/-- After any edits, refused ones included, the log replays in full and leads from the first tree
to the private one; and whatever edit is refused next changes neither the tree nor the log. -/
theorem replay_log_attemptAll (limits : Limits) {tree : Bucket} (wellFormed : tree.WellFormed)
    (edits : List Edit) :
    let tx := (start limits tree).attemptAll edits
    tree.replay tx.log = .ok tx.tree ∧
      ∀ edit error, (tx.run edit).1 = .error error → (tx.run edit).2 = tx := by
  intro tx
  have follows : tx.Follows tree := (follows_start limits wellFormed).attemptAll edits
  exact ⟨follows.replayed, fun edit error refused =>
    write_of_error follows.wellFormed edit.faithful_work refused⟩

/-- A bucket is made afresh over what it held, and around that four edits are refused: a bucket in
the place of a value, a value in the place of a bucket, a value that is too long and a second bucket
of one name. -/
theorem replay_log_attemptAll_of_refused :
    let tree : Bucket := [([97], .bucket [([107], .value [118]), ([108], .bucket [([109], .bucket [])])])]
    let edits : List Edit := [.recreate [[97]] [107], .recreate [[97]] [108],
      .put [[97]] [108] [118], .put [[97], [108]] [110] [118, 118], .put [[97], [108]] [110] [118],
      .create [] [97], .ensure [] [97]]
    let tx := (start ⟨1, 1⟩ tree).attemptAll edits
    tree.WellFormed ∧ tree.replay tx.log = .ok tx.tree ∧
      tx.log = [.deleteBucket [[97]] [108], .createBucket [[97]] [108],
        .put [[97], [108]] [110] [118]] ∧
      (tx.run (.recreate [[97]] [107])).1 = .error (.tree (.incompatible [107])) ∧
      (tx.run (.recreate [[97]] [107])).2 = tx := by
  intro tree edits tx
  have made : Bucket.replay [.createBucket [] [97], .put [[97]] [107] [118],
      .createBucket [[97]] [108], .createBucket [[97], [108]] [109]] [] = .ok tree := by cbv
  have wellFormed : tree.WellFormed := Bucket.wellFormed_nil.replayed made
  have refused : (tx.run (.recreate [[97]] [107])).1 = .error (.tree (.incompatible [107])) := by
    decide +kernel
  obtain ⟨replayed, unchanged⟩ := replay_log_attemptAll ⟨1, 1⟩ wellFormed edits
  exact ⟨wellFormed, replayed, by decide +kernel, refused, unchanged _ _ refused⟩

end Transaction

end ClusterRegistry
