import ClusterRegistry.Proofs.Tree.Transaction

/-!
What single edits make of the bucket that they open.  Where nothing of another kind stands in its
way, an edit is refused exactly where its key or its value breaks the limits; and otherwise it makes
the same change in every transaction.  Conversely, an edit that succeeds tells what was in its way.
-/
namespace ClusterRegistry

namespace Bucket

variable {key : Key} {before after : Bucket}

private theorem putField_eq_ok {value : Bytes} : before.putField key value = .ok after ↔
    before.child? key = none ∧ after = OrderedMap.insert key (.value value) before := by
  unfold putField child?
  cases before.item? key with
  | none => simp [eq_comm]
  | some item => cases item <;> simp [eq_comm]

private theorem createChild_eq_ok : before.createChild key = .ok after ↔
    before.item? key = none ∧ after = OrderedMap.insert key (.bucket []) before := by
  unfold createChild
  cases before.item? key with
  | none => simp [eq_comm]
  | some item => cases item <;> simp

theorem removeChild_eq_ok : before.removeChild key = .ok after ↔
    (∃ child, before.child? key = some child) ∧ after = OrderedMap.erase key before := by
  unfold removeChild child?
  cases before.item? key with
  | none => simp
  | some item => cases item <;> simp [eq_comm]

end Bucket

/-- What the limits say about the key and the value of an edit. -/
def Edit.check (limits : Limits) : Edit → Except StoreError Unit
  | put _ key value => do
    limits.checkKey key
    limits.checkValue value
  | delete _ key => limits.checkKey key
  | create _ key => limits.checkKey key
  | ensure _ key => limits.checkKey key
  | recreate _ key => limits.checkKey key
  | remove _ key => limits.checkKey key
  | discard _ key => limits.checkKey key

/-- Within the limits the edit makes `after` out of `before`; otherwise it is refused. -/
structure Edit.Makes (limits : Limits) (edit : Edit) (before after : Bucket) : Prop where
  done : edit.check limits = .ok () → ∀ log, ∃ longer,
    edit.work ⟨limits, edit.path, before, log⟩ = (.ok (), ⟨limits, edit.path, after, longer⟩)
  refused : ∀ error, edit.check limits = .error error → ∀ log,
    edit.work ⟨limits, edit.path, before, log⟩ =
      (.error error, ⟨limits, edit.path, before, log⟩)

namespace Edit

variable {limits : Limits} {path : BucketPath} {key : Key} {before after : Bucket}

theorem makes_put {value : Bytes} (inner : path ≠ []) (vacant : before.child? key = none) :
    (put path key value).Makes limits before (OrderedMap.insert key (.value value) before) := by
  have stored : before.putField key value = .ok (OrderedMap.insert key (.value value) before) :=
    Bucket.putField_eq_ok.mpr ⟨vacant, rfl⟩
  constructor
  · intro valid log
    obtain ⟨_, keyed, fits⟩ := Outcome.bind_eq_ok.mp valid
    simp only [work, OpenBucket.put, OpenBucket.belowRoot, OpenBucket.validKey,
      OpenBucket.validValue, OpenBucket.run_require, Edit.path, if_neg inner, keyed, fits,
      OpenBucket.change, stored]
    exact ⟨_, rfl⟩
  · intro error invalid log
    simp only [work, OpenBucket.put, OpenBucket.belowRoot, OpenBucket.validKey,
      OpenBucket.validValue, OpenBucket.run_require, Edit.path, if_neg inner]
    rw [check] at invalid
    cases keyed : limits.checkKey key with
    | error cause =>
      rw [keyed] at invalid
      cases invalid
      rfl
    | ok =>
      rw [keyed] at invalid
      change limits.checkValue value = .error error at invalid
      simp only [invalid]

/-- Work that starts with the check of its key, and makes one change after that. -/
theorem makes_of_change {edit : Edit} {operation : Bucket → Except TreeError Bucket}
    {record : BucketPath → Record} (checks : edit.check limits = limits.checkKey key)
    (works : edit.work = do
      OpenBucket.validKey key
      OpenBucket.change operation record)
    (changed : operation before = .ok after) : edit.Makes limits before after := by
  constructor
  · intro valid log
    rw [checks] at valid
    simp only [works, OpenBucket.validKey, OpenBucket.run_require, valid, OpenBucket.change, changed]
    exact ⟨_, rfl⟩
  · intro error invalid log
    rw [checks] at invalid
    simp only [works, OpenBucket.validKey, OpenBucket.run_require, invalid]

theorem makes_create (absent : before.item? key = none) :
    (create path key).Makes limits before (OrderedMap.insert key (.bucket []) before) :=
  makes_of_change rfl rfl (Bucket.createChild_eq_ok.mpr ⟨absent, rfl⟩)

theorem makes_remove {child : Bucket} (present : before.child? key = some child) :
    (remove path key).Makes limits before (OrderedMap.erase key before) :=
  makes_of_change rfl rfl (Bucket.removeChild_eq_ok.mpr ⟨⟨child, present⟩, rfl⟩)

/-- A key without a value is one of a child or one of nothing. -/
theorem item?_of_vacant (vacant : before.field? key = none) :
    before.item? key = none ∧ before.child? key = none ∨
      ∃ child, before.child? key = some child := by
  unfold Bucket.field? at vacant
  unfold Bucket.child?
  cases found : before.item? key with
  | none => exact .inl ⟨rfl, rfl⟩
  | some item =>
    cases item with
    | value bytes => simp [found] at vacant
    | bucket entries => exact .inr ⟨entries, rfl⟩

theorem makes_recreate (vacant : before.field? key = none) :
    (recreate path key).Makes limits before
      (OrderedMap.insert key (.bucket []) (OrderedMap.erase key before)) := by
  have created : (create path key).Makes limits (OrderedMap.erase key before) _ :=
    makes_create (Bucket.item?_erase key before)
  rcases item?_of_vacant vacant with ⟨absent, childless⟩ | ⟨child, present⟩
  · have same : OrderedMap.erase key before = before := OrderedMap.erase_of_find?_none absent
    rw [same] at created ⊢
    have works : ∀ log, (recreate path key).work ⟨limits, path, before, log⟩ =
        (create path key).work ⟨limits, path, before, log⟩ := by
      intro log
      simp only [work, OpenBucket.recreate, OpenBucket.hasChild, OpenBucket.run_ask, childless]
      rfl
    exact ⟨fun valid log => works log ▸ created.done valid log,
      fun error invalid log => works log ▸ created.refused error invalid log⟩
  · have removed : (remove path key).Makes limits before _ := makes_remove present
    have works : ∀ log, (recreate path key).work ⟨limits, path, before, log⟩ =
        ((remove path key).work >>= fun _ => (create path key).work : OpenBucketM Unit)
          ⟨limits, path, before, log⟩ := by
      intro log
      simp only [work, OpenBucket.recreate, OpenBucket.hasChild, OpenBucket.run_ask, present]
      rfl
    constructor
    · intro valid log
      obtain ⟨middle, removal⟩ := removed.done valid log
      obtain ⟨longer, creation⟩ := created.done valid middle
      refine ⟨longer, (works log).trans ?_⟩
      rw [OpenBucket.run_bind,
        show (remove path key).work ⟨limits, path, before, log⟩ = _ from removal]
      exact creation
    · intro error invalid log
      refine (works log).trans ?_
      rw [OpenBucket.run_bind, show (remove path key).work ⟨limits, path, before, log⟩ = _ from
        removed.refused error invalid log]
      rfl

theorem makes_discard (valid : limits.checkKey key = .ok ()) : (discard path key).Makes limits before
    (if (before.child? key).isSome then OrderedMap.erase key before else before) := by
  refine ⟨fun _ log => ?_, fun error invalid => absurd (valid.symm.trans invalid) (by simp)⟩
  cases present : before.child? key with
  | none =>
    simp only [work, OpenBucket.discard, OpenBucket.hasChild, OpenBucket.run_ask, present]
    exact ⟨log, rfl⟩
  | some child =>
    have removed : (remove path key).Makes limits before _ := makes_remove present
    obtain ⟨longer, removal⟩ := removed.done valid log
    simp only [work, OpenBucket.discard, OpenBucket.hasChild, OpenBucket.run_ask, present]
    exact ⟨longer, removal⟩

theorem makes_ensure_of_child {child : Bucket} (present : before.child? key = some child)
    (valid : limits.checkKey key = .ok ()) : (ensure path key).Makes limits before before := by
  refine ⟨fun _ log => ?_, fun error invalid => absurd (valid.symm.trans invalid) (by simp)⟩
  simp only [work, OpenBucket.ensure, OpenBucket.hasChild, OpenBucket.run_ask, present]
  exact ⟨log, rfl⟩

theorem makes_ensure_of_absent (absent : before.item? key = none) :
    (ensure path key).Makes limits before (OrderedMap.insert key (.bucket []) before) := by
  have created : (create path key).Makes limits before _ := makes_create absent
  have childless : before.child? key = none := by rw [Bucket.child?, absent]
  have works : ∀ log, (ensure path key).work ⟨limits, path, before, log⟩ =
      (create path key).work ⟨limits, path, before, log⟩ := by
    intro log
    simp only [work, OpenBucket.ensure, OpenBucket.hasChild, OpenBucket.run_ask, childless]
    rfl
  exact ⟨fun valid log => works log ▸ created.done valid log,
    fun error invalid log => works log ▸ created.refused error invalid log⟩

end Edit

namespace Transaction

variable {tx : Transaction} {edit : Edit} {before after base opened : Bucket}

theorem perform_of_makes (makes : edit.Makes tx.limits before after)
    (found : base.openAt edit.path = .ok opened)
    (tree : tx.tree = Bucket.replaceAt before edit.path base)
    (valid : edit.check tx.limits = .ok ()) :
    ∃ later, tx.perform edit = .ok later ∧ later.limits = tx.limits ∧
      later.tree = Bucket.replaceAt after edit.path base := by
  have here : tx.tree.openAt edit.path = .ok before := tree ▸ Bucket.openAt_replaceAt found before
  obtain ⟨longer, worked⟩ := makes.done valid tx.log
  refine ⟨⟨tx.limits, Bucket.replaceAt after edit.path base, longer⟩, ?_, rfl, rfl⟩
  rw [perform, run, write, here]
  simp only [worked]
  rw [tree, Bucket.replaceAt_replaceAt found]

theorem perform_of_refused (makes : edit.Makes tx.limits before after)
    (found : tx.tree.openAt edit.path = .ok before) {error : StoreError}
    (invalid : edit.check tx.limits = .error error) : tx.perform edit = .error error := by
  rw [perform, run, write, found]
  simp only [makes.refused error invalid tx.log]

/-- An edit that starts with the check of its key, and whose change is refused after that. -/
theorem perform_of_refused_change (edit : Edit) {operation : Bucket → Except TreeError Bucket}
    {record : BucketPath → Record} {key : Key} (found : tx.tree.openAt edit.path = .ok before)
    (works : edit.work = do
      OpenBucket.validKey key
      OpenBucket.change operation record)
    (valid : tx.limits.checkKey key = .ok ()) {error : TreeError}
    (refused : operation before = .error error) : tx.perform edit = .error (.tree error) := by
  rw [perform, run, write, found]
  simp only [works, OpenBucket.validKey, OpenBucket.run_require, valid, OpenBucket.change, refused]

theorem perform_create_of_child {path : BucketPath} {key : Key} {child : Bucket}
    (found : tx.tree.openAt path = .ok before) (present : before.child? key = some child)
    (valid : tx.limits.checkKey key = .ok ()) :
    tx.perform (.create path key) = .error (.tree (.bucketExists key)) :=
  perform_of_refused_change (.create path key) found rfl valid
    (by rw [Bucket.createChild, Bucket.child?_eq_some.mp present])

theorem perform_remove_of_invalid {path : BucketPath} {key : Key}
    (found : tx.tree.openAt path = .ok before) {error : StoreError}
    (invalid : tx.limits.checkKey key = .error error) :
    tx.perform (.remove path key) = .error error := by
  rw [perform, run, write, Edit.path, found]
  simp only [Edit.work, OpenBucket.remove, OpenBucket.validKey, OpenBucket.run_require, invalid]

theorem perform_remove_of_absent {path : BucketPath} {key : Key}
    (found : tx.tree.openAt path = .ok before) (absent : before.item? key = none)
    (valid : tx.limits.checkKey key = .ok ()) :
    tx.perform (.remove path key) = .error (.tree (.bucketNotFound key)) :=
  perform_of_refused_change (.remove path key) found rfl valid
    (by rw [Bucket.removeChild, absent])

end Transaction

namespace OpenBucket

variable {opened after : OpenBucket} {key : Key}

private theorem require_eq_ok {rule : OpenBucket → Except StoreError Unit}
    {work : OpenBucketM Unit} :
    (require rule >>= fun _ => work : OpenBucketM Unit) opened = (.ok (), after) ↔
      rule opened = .ok () ∧ work opened = (.ok (), after) := by
  rw [run_require]
  cases rule opened with
  | error error => exact ⟨nofun, fun given => nomatch given.1⟩
  | ok => exact ⟨fun done => ⟨rfl, done⟩, And.right⟩

private theorem change_eq_ok {operation : Bucket → Except TreeError Bucket}
    {record : BucketPath → Record} :
    change operation record opened = (.ok (), after) ↔ ∃ bucket,
      operation opened.bucket = .ok bucket ∧
        after = { opened with bucket, log := opened.log ++ [record opened.path] } := by
  unfold change
  cases operation opened.bucket with
  | error error => exact ⟨nofun, fun ⟨_, given, _⟩ => nomatch given⟩
  | ok bucket =>
    constructor
    · intro done
      cases done
      exact ⟨bucket, rfl, rfl⟩
    · intro given
      obtain ⟨_, ⟨⟩, rfl⟩ := given
      rfl

theorem put_of_ok {value : Bytes} (ok : put key value opened = (.ok (), after)) :
    opened.path ≠ [] ∧ opened.bucket.child? key = none ∧
      after.bucket = OrderedMap.insert key (.value value) opened.bucket := by
  simp only [put, belowRoot, validKey, validValue, require_eq_ok, change_eq_ok,
    Bucket.putField_eq_ok] at ok
  obtain ⟨inner, _, _, bucket, ⟨vacant, rfl⟩, rfl⟩ := ok
  refine ⟨?_, vacant, rfl⟩
  intro root
  rw [if_pos root] at inner
  contradiction

theorem create_of_ok (ok : create key opened = (.ok (), after)) :
    opened.bucket.item? key = none ∧
      after.bucket = OrderedMap.insert key (.bucket []) opened.bucket := by
  simp only [create, validKey, require_eq_ok, change_eq_ok, Bucket.createChild_eq_ok] at ok
  obtain ⟨_, bucket, ⟨absent, rfl⟩, rfl⟩ := ok
  exact ⟨absent, rfl⟩

theorem remove_of_ok (ok : remove key opened = (.ok (), after)) :
    after.bucket = OrderedMap.erase key opened.bucket := by
  simp only [remove, validKey, require_eq_ok, change_eq_ok, Bucket.removeChild_eq_ok] at ok
  obtain ⟨_, bucket, ⟨_, rfl⟩, rfl⟩ := ok
  rfl

theorem ensure_of_ok (ok : ensure key opened = (.ok (), after)) :
    (∃ child, opened.bucket.child? key = some child) ∧ after.bucket = opened.bucket ∨
      opened.bucket.item? key = none ∧
        after.bucket = OrderedMap.insert key (.bucket []) opened.bucket := by
  cases present : opened.bucket.child? key with
  | some child =>
    simp only [ensure, hasChild, run_ask, present] at ok
    cases ok
    exact .inl ⟨⟨child, rfl⟩, rfl⟩
  | none =>
    simp only [ensure, hasChild, run_ask, present] at ok
    exact .inr (create_of_ok ok)

theorem recreate_of_ok (ok : recreate key opened = (.ok (), after)) :
    opened.bucket.field? key = none := by
  unfold Bucket.field?
  cases present : opened.bucket.child? key with
  | some child => rw [Bucket.child?_eq_some.mp present]
  | none =>
    simp only [recreate, hasChild, run_ask, present] at ok
    rw [(create_of_ok ok).1]

theorem discard_of_ok (ok : discard key opened = (.ok (), after)) :
    after.bucket = if (opened.bucket.child? key).isSome then OrderedMap.erase key opened.bucket
      else opened.bucket := by
  cases present : opened.bucket.child? key with
  | none =>
    simp only [discard, hasChild, run_ask, present] at ok
    cases ok
    rfl
  | some child =>
    simp only [discard, hasChild, run_ask, present] at ok
    exact remove_of_ok ok

end OpenBucket

namespace Transaction

variable {tx next : Transaction}

theorem work_of_perform (edit : Edit) (ok : tx.perform edit = .ok next) : ∃ before worked,
    tx.tree.openAt edit.path = .ok before ∧
      edit.work ⟨tx.limits, edit.path, before, tx.log⟩ = (.ok (), worked) ∧
      next.tree = Bucket.replaceAt worked.bucket edit.path tx.tree := by
  rw [perform_eq_ok, run, write] at ok
  cases found : tx.tree.openAt edit.path with
  | error error =>
    rw [found] at ok
    cases ok
  | ok before =>
    rcases done : edit.work ⟨tx.limits, edit.path, before, tx.log⟩ with ⟨outcome, worked⟩
    simp only [found, done] at ok
    cases ok
    exact ⟨before, worked, rfl, done, rfl⟩

/-- An edit of a bucket that was put in the place of another one. -/
theorem work_of_perform_replaceAt {before base opened : Bucket} (edit : Edit)
    (found : base.openAt edit.path = .ok opened)
    (tree : tx.tree = Bucket.replaceAt before edit.path base) (ok : tx.perform edit = .ok next) :
    ∃ worked, edit.work ⟨tx.limits, edit.path, before, tx.log⟩ = (.ok (), worked) ∧
      next.tree = Bucket.replaceAt worked.bucket edit.path base := by
  have here : tx.tree.openAt edit.path = .ok before := tree ▸ Bucket.openAt_replaceAt found before
  obtain ⟨prior, worked, opens, done, changed⟩ := work_of_perform edit ok
  cases here.symm.trans opens
  rw [tree, Bucket.replaceAt_replaceAt found] at changed
  exact ⟨worked, done, changed⟩

end Transaction

end ClusterRegistry
