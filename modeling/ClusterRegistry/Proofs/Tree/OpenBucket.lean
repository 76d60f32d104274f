import ClusterRegistry.Proofs.Tree.Snapshot
import ClusterRegistry.Tree.OpenBucket

/-!
Work on an open bucket.  Opening a bucket, changing it and putting it back is what the record of the
change does when it is replayed by its path; so whatever work leaves in a bucket, replaying what it
logged leaves the same there, and work that fails has neither changed nor logged anything.
-/
namespace ClusterRegistry

namespace Bucket

variable {path : BucketPath} {tree opened changed : Bucket}

theorem openAt_cons {segment : Key} :
    tree.openAt (segment :: path) = .ok opened ↔
      ∃ child, tree.child? segment = some child ∧ child.openAt path = .ok opened := by
  rw [openAt]
  cases tree.child? segment with
  | none => simp
  | some child => simp

theorem openAt_replaceAt (found : tree.openAt path = .ok opened) (changed : Bucket) :
    (replaceAt changed path tree).openAt path = .ok changed := by
  induction path generalizing tree with
  | nil => rfl
  | cons segment path ih =>
    obtain ⟨child, here, below⟩ := openAt_cons.mp found
    rw [replaceAt, here, openAt_cons]
    exact ⟨_, child?_insert _ _ _, ih below⟩

theorem replaceAt_replaceAt (found : tree.openAt path = .ok opened) (changed later : Bucket) :
    replaceAt later path (replaceAt changed path tree) = replaceAt later path tree := by
  induction path generalizing tree with
  | nil => rfl
  | cons segment path ih =>
    obtain ⟨child, here, below⟩ := openAt_cons.mp found
    have inside : child? (replaceAt changed (segment :: path) tree) segment =
        some (replaceAt changed path child) := by
      rw [replaceAt, here]
      exact child?_insert _ _ _
    rw [replaceAt, inside, replaceAt, replaceAt, here]
    simp only [OrderedMap.insert_insert, ih below]

theorem openAt_snoc {key : Key} {child : Bucket} (found : tree.openAt path = .ok opened)
    (inside : opened.child? key = some child) : tree.openAt (path ++ [key]) = .ok child := by
  induction path generalizing tree with
  | nil =>
    cases found
    exact openAt_cons.mpr ⟨child, inside, rfl⟩
  | cons segment path ih =>
    obtain ⟨next, here, below⟩ := openAt_cons.mp found
    exact openAt_cons.mpr ⟨next, here, ih below⟩

theorem openAt_snoc_eq_ok {key : Key} {child : Bucket} :
    tree.openAt (path ++ [key]) = .ok child ↔
      ∃ opened, tree.openAt path = .ok opened ∧ opened.child? key = some child := by
  constructor
  · intro found
    induction path generalizing tree with
    | nil =>
      obtain ⟨next, here, ⟨⟩⟩ := openAt_cons.mp found
      exact ⟨tree, rfl, here⟩
    | cons segment path ih =>
      obtain ⟨next, here, below⟩ := openAt_cons.mp found
      obtain ⟨opened, reached, inside⟩ := ih below
      exact ⟨opened, openAt_cons.mpr ⟨next, here, reached⟩, inside⟩
  · intro given
    obtain ⟨opened, found, inside⟩ := given
    exact openAt_snoc found inside

theorem openAt_of_at? (found : tree.at? path = some opened) : tree.openAt path = .ok opened := by
  induction path generalizing tree with
  | nil =>
    cases found
    rfl
  | cons segment path ih =>
    rw [at?] at found
    split at found
    · rename_i child here
      exact openAt_cons.mpr ⟨child, here, ih found⟩
    · contradiction

theorem replaceAt_snoc {key : Key} {child : Bucket} (found : tree.openAt path = .ok opened)
    (inside : opened.child? key = some child) (changed : Bucket) :
    replaceAt changed (path ++ [key]) tree =
      replaceAt (OrderedMap.insert key (.bucket changed) opened) path tree := by
  induction path generalizing tree with
  | nil =>
    cases found
    simp only [List.nil_append, replaceAt, inside]
  | cons segment path ih =>
    obtain ⟨next, here, below⟩ := openAt_cons.mp found
    rw [List.cons_append, replaceAt, replaceAt, here]
    simp only [ih below]

theorem Lawful.openAt {fits : Record → Prop} {front : BucketPath}
    (lawful : Lawful fits front tree) (found : tree.openAt path = .ok opened) :
    Lawful fits (front ++ path) opened := by
  induction path generalizing front tree with
  | nil =>
    cases found
    rwa [List.append_nil]
  | cons segment path ih =>
    obtain ⟨child, here, below⟩ := openAt_cons.mp found
    have inside := ih (lawful.child here).2 below
    rwa [List.append_assoc] at inside

theorem Lawful.replaceAt_self {fits : Record → Prop} {front : BucketPath}
    (lawful : Lawful fits front tree) (found : tree.openAt path = .ok opened) :
    replaceAt opened path tree = tree := by
  induction path generalizing front tree with
  | nil =>
    cases found
    rfl
  | cons segment path ih =>
    obtain ⟨child, here, below⟩ := openAt_cons.mp found
    rw [replaceAt, here]
    simp only [ih (lawful.child here).2 below]
    exact OrderedMap.insert_of_find? lawful.ordered (child?_eq_some.mp here)

private theorem changeAt_of_openAt {change : Bucket → Except TreeError Bucket}
    (found : tree.openAt path = .ok opened) (done : change opened = .ok changed) :
    changeAt change path tree = .ok (replaceAt changed path tree) := by
  induction path generalizing tree with
  | nil =>
    cases found
    exact done
  | cons segment path ih =>
    obtain ⟨child, here, below⟩ := openAt_cons.mp found
    simp only [changeAt, replaceAt, here, ih below]

theorem item?_erase (key : Key) (bucket : Bucket) :
    item? (OrderedMap.erase key bucket) key = none := by
  rw [item?, OrderedMap.find?_erase, if_pos rfl]

end Bucket

theorem OpenBucket.run_ask (question : Bucket → Bool) (work : Bool → OpenBucketM Unit)
    (opened : OpenBucket) :
    (ask question >>= work : OpenBucketM Unit) opened = work (question opened.bucket) opened :=
  rfl

theorem Limits.checkKey_eq_ok {limits : Limits} {key : Key} :
    limits.checkKey key = .ok () ↔ key ≠ [] ∧ key.length ≤ limits.maxKeySize := by
  unfold checkKey
  split
  · simp [*]
  · split
    · simp [*]
    · simp only [true_iff]
      exact ⟨by assumption, by omega⟩

theorem Limits.checkValue_eq_ok {limits : Limits} {value : Bytes} :
    limits.checkValue value = .ok () ↔ value.length ≤ limits.maxValueSize := by
  unfold checkValue
  split
  · simp [*]
  · simp only [true_iff]
    omega

theorem Limits.checkValue_nil (limits : Limits) : limits.checkValue [] = .ok () :=
  checkValue_eq_ok.mpr (Nat.zero_le _)

namespace OpenBucket

/-- The records lead from one state of a bucket to another, in every tree that has a bucket there;
each of them names that bucket and has passed its limits. -/
structure Leads (before after : OpenBucket) (records : List Record) : Prop where
  limits : after.limits = before.limits
  path : after.path = before.path
  log : after.log = before.log ++ records
  mutating : ∀ record ∈ records, record.operation ≠ .commit ∧ record.operation ≠ .checkpoint
  within : ∀ record ∈ records, record.path = before.path ∧
    before.limits.checkKey record.key = .ok () ∧ before.limits.checkValue record.value = .ok ()
  replayed : ∀ {tree opened : Bucket}, tree.openAt before.path = .ok opened →
    (Bucket.replaceAt before.bucket before.path tree).replay records =
      .ok (Bucket.replaceAt after.bucket before.path tree)

namespace Leads

variable {before middle after : OpenBucket} {records later : List Record}

theorem refl (before : OpenBucket) : before.Leads before [] :=
  ⟨rfl, rfl, (List.append_nil _).symm, by simp, by simp, fun _ => rfl⟩

theorem trans (first : before.Leads middle records) (second : middle.Leads after later) :
    before.Leads after (records ++ later) where
  limits := second.limits.trans first.limits
  path := second.path.trans first.path
  log := by rw [second.log, first.log, List.append_assoc]
  mutating record member := (List.mem_append.mp member).elim (first.mutating record)
    (second.mutating record)
  within record member := by
    have onward := second.within record
    rw [first.path, first.limits] at onward
    exact (List.mem_append.mp member).elim (first.within record) onward
  replayed found := by
    have onward := second.replayed (first.path ▸ found)
    rw [first.path] at onward
    rw [Bucket.replay_append, first.replayed found]
    exact onward

end Leads

/-- What the work does is what it logs; and refused work does nothing. -/
structure FaithfulAt (work : OpenBucketM Unit) (before : OpenBucket) : Prop where
  leads : ∃ records, before.Leads (work before).2 records
  unchanged : ∀ error, (work before).1 = .error error → (work before).2 = before

def Faithful (work : OpenBucketM Unit) : Prop :=
  ∀ before, FaithfulAt work before

theorem run_bind (first second : OpenBucketM Unit) (opened : OpenBucket) :
    (first >>= fun _ => second : OpenBucketM Unit) opened =
      match first opened with
      | (.ok (), after) => second after
      | (.error error, after) => (.error error, after) := by
  let next : Unit → OpenBucketM Unit := fun _ => second
  change ExceptT.bindCont next (first opened).1 (first opened).2 = _
  obtain ⟨outcome, after⟩ := first opened
  cases outcome <;> rfl

theorem run_require (rule : OpenBucket → Except StoreError Unit) (work : OpenBucketM Unit)
    (opened : OpenBucket) :
    (require rule >>= fun _ => work : OpenBucketM Unit) opened =
      match rule opened with
      | .ok () => work opened
      | .error error => (.error error, opened) := by
  rw [run_bind, require]
  cases rule opened <;> rfl

namespace FaithfulAt

variable {work : OpenBucketM Unit} {before : OpenBucket}

theorem skip : FaithfulAt (pure ()) before :=
  ⟨⟨[], .refl before⟩, fun _ _ => rfl⟩

theorem change {operation : Bucket → Except TreeError Bucket} {record : BucketPath → Record}
    (mutating : ∀ path, (record path).operation ≠ .commit ∧ (record path).operation ≠ .checkpoint)
    (within : ∀ path, (record path).path = path ∧
      before.limits.checkKey (record path).key = .ok () ∧
      before.limits.checkValue (record path).value = .ok ())
    (applied : ∀ path tree, Bucket.apply (record path) tree = Bucket.changeAt operation path tree) :
    FaithfulAt (OpenBucket.change operation record) before := by
  constructor
  · unfold OpenBucket.change
    split
    · rename_i bucket done
      refine ⟨[record before.path], rfl, rfl, rfl, List.forall_mem_singleton.mpr (mutating _),
        List.forall_mem_singleton.mpr (within _), ?_⟩
      intro tree opened found
      rw [Bucket.replay_cons, applied,
        Bucket.changeAt_of_openAt (Bucket.openAt_replaceAt found before.bucket) done,
        Bucket.replaceAt_replaceAt found]
      rfl
    · exact ⟨[], .refl before⟩
  · intro error refused
    unfold OpenBucket.change at refused ⊢
    split at refused
    · contradiction
    · rfl

theorem require {rule : OpenBucket → Except StoreError Unit}
    (faithful : rule before = .ok () → FaithfulAt work before) :
    FaithfulAt (OpenBucket.require rule >>= fun _ => work) before := by
  constructor
  · rw [run_require]
    split
    · rename_i accepted
      exact (faithful accepted).leads
    · exact ⟨[], .refl before⟩
  · intro error refused
    rw [run_require] at refused ⊢
    split at refused
    · rename_i accepted
      exact (faithful accepted).unchanged error refused
    · rfl

theorem ask {work : Bool → OpenBucketM Unit} (question : Bucket → Bool)
    (faithful : ∀ answer, FaithfulAt (work answer) before) :
    FaithfulAt (OpenBucket.ask question >>= work) before :=
  ⟨(faithful _).leads, (faithful _).unchanged⟩

/-- Two pieces of work, of which the second is not refused after the first is done. -/
theorem andThen {first second : OpenBucketM Unit} (one : FaithfulAt first before)
    (other : Faithful second)
    (goesOn : ∀ after, first before = (.ok (), after) → (second after).1 = .ok ()) :
    FaithfulAt (first >>= fun _ => second) before := by
  constructor
  · obtain ⟨records, done⟩ := one.leads
    rw [run_bind]
    generalize first before = result at done
    obtain ⟨outcome, after⟩ := result
    cases outcome with
    | error error => exact ⟨records, done⟩
    | ok =>
      obtain ⟨later, onward⟩ := (other after).leads
      exact ⟨records ++ later, done.trans onward⟩
  · intro error refused
    rw [run_bind] at refused ⊢
    cases ran : first before with
    | mk outcome after =>
      rw [ran] at refused
      cases outcome with
      | error error =>
        have same := one.unchanged error (by rw [ran])
        rwa [ran] at same
      | ok =>
        have onward := goesOn after ran
        exact absurd (refused.symm.trans onward) (by simp)

end FaithfulAt

namespace Faithful

theorem put (key value : Bytes) : Faithful (OpenBucket.put key value) := fun _ =>
  .require fun _ => .require fun valid => .require fun fits =>
    .change (by simp [Record.put]) (fun _ => ⟨rfl, valid, fits⟩) fun _ _ => rfl

theorem create (key : Key) : Faithful (OpenBucket.create key) := fun _ =>
  .require fun valid => .change (by simp [Record.createBucket])
    (fun _ => ⟨rfl, valid, Limits.checkValue_nil _⟩) fun _ _ => rfl

theorem remove (key : Key) : Faithful (OpenBucket.remove key) := fun _ =>
  .require fun valid => .change (by simp [Record.deleteBucket])
    (fun _ => ⟨rfl, valid, Limits.checkValue_nil _⟩) fun _ _ => rfl

theorem delete (key : Key) : Faithful (OpenBucket.delete key) := by
  intro before
  refine .require fun _ => .require fun valid => .ask _ fun present => ?_
  cases present with
  | true =>
    rw [if_pos rfl]
    exact .change (by simp [Record.delete]) (fun _ => ⟨rfl, valid, Limits.checkValue_nil _⟩)
      fun _ _ => rfl
  | false => exact .skip

theorem ensure (key : Key) : Faithful (OpenBucket.ensure key) := by
  refine fun before => .ask _ fun present => ?_
  cases present with
  | true => exact .skip
  | false => exact create key before

theorem discard (key : Key) : Faithful (OpenBucket.discard key) := by
  refine fun before => .ask _ fun present => ?_
  cases present with
  | true => exact remove key before
  | false => exact .skip

end Faithful

/-- A key under which a child was removed is valid and free. -/
theorem create_after_remove {key : Key} {before after : OpenBucket}
    (removed : OpenBucket.remove key before = (.ok (), after)) :
    (OpenBucket.create key after).1 = .ok () := by
  rw [OpenBucket.remove, validKey, run_require] at removed
  split at removed
  · rename_i valid
    unfold OpenBucket.change Bucket.removeChild at removed
    cases found : before.bucket.item? key with
    | none =>
      simp only [found] at removed
      cases removed
    | some item =>
      cases item with
      | value bytes =>
        simp only [found] at removed
        cases removed
      | bucket entries =>
        simp only [found] at removed
        cases removed
        rw [OpenBucket.create, validKey, run_require]
        simp [valid, OpenBucket.change, Bucket.createChild, Bucket.item?_erase]
  · cases removed

theorem Faithful.recreate (key : Key) : Faithful (OpenBucket.recreate key) := by
  refine fun before => .ask _ fun present => ?_
  cases present with
  | true => exact (remove key before).andThen (create key) fun _ => create_after_remove
  | false => exact create key before

end OpenBucket

end ClusterRegistry
