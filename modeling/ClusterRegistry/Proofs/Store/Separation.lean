import ClusterRegistry.Proofs.Store.FailedCheckpoint
import ClusterRegistry.Proofs.Tree.TwoMaps

/-!
A key names a field or a child of a bucket, and never both, in every tree that a store publishes:
the log it was opened on may hold anything that replays, and what it does from then on goes through
edits.  A store that started from nothing has no values in its root and no empty keys, for edits
log neither.
-/
namespace ClusterRegistry

namespace OpenBucket

/-- Every record that the work adds to the log fits. -/
def LogsAt (fits : Record → Prop) (work : OpenBucketM Unit) (before : OpenBucket) : Prop :=
  ∀ record ∈ (work before).2.log, record ∈ before.log ∨ fits record

namespace LogsAt

variable {fits : Record → Prop} {work : OpenBucketM Unit} {before : OpenBucket}

theorem skip : LogsAt fits (pure ()) before :=
  fun _ member => .inl member

theorem change {operation : Bucket → Except TreeError Bucket} {record : BucketPath → Record}
    (fit : fits (record before.path)) : LogsAt fits (OpenBucket.change operation record) before := by
  intro logged member
  unfold OpenBucket.change at member
  split at member
  · rcases List.mem_append.mp member with old | new
    · exact .inl old
    · exact .inr (List.mem_singleton.mp new ▸ fit)
  · exact .inl member

theorem require {rule : OpenBucket → Except StoreError Unit}
    (accepted : rule before = .ok () → LogsAt fits work before) :
    LogsAt fits (OpenBucket.require rule >>= fun _ => work) before := by
  intro record member
  rw [run_require] at member
  split at member
  · rename_i valid
    exact accepted valid record member
  · exact .inl member

theorem ask {work : Bool → OpenBucketM Unit} (question : Bucket → Bool)
    (answered : ∀ answer, LogsAt fits (work answer) before) :
    LogsAt fits (OpenBucket.ask question >>= work) before :=
  answered _

theorem andThen {first second : OpenBucketM Unit} (one : LogsAt fits first before)
    (other : ∀ after, LogsAt fits second after) :
    LogsAt fits (first >>= fun _ => second) before := by
  intro record member
  rw [run_bind] at member
  split at member
  · rename_i after done
    rcases other after record member with old | fit
    · exact one record (by rwa [done])
    · exact .inr fit
  · rename_i error after failed
    exact one record (by rwa [failed])

theorem create (key : Key) (before : OpenBucket) :
    LogsAt (fun record => record.operation ≠ .put) (OpenBucket.create key) before :=
  .require fun _ => .change (by simp [Record.createBucket])

theorem remove (key : Key) (before : OpenBucket) :
    LogsAt (fun record => record.operation ≠ .put) (OpenBucket.remove key) before :=
  .require fun _ => .change (by simp [Record.deleteBucket])

end LogsAt

/-- No value is put into the root. -/
theorem logsAt_root (edit : Edit) (root : before.path = []) :
    LogsAt (fun record => record.operation ≠ .put) edit.work before := by
  have refused : ∀ work, LogsAt (fun record => record.operation ≠ .put)
      (belowRoot >>= fun _ => work) before := by
    intro work
    refine .require fun accepted => ?_
    rw [if_pos root] at accepted
    contradiction
  cases edit with
  | put path key value => exact refused _
  | delete path key => exact refused _
  | create path key => exact .create key before
  | remove path key => exact .remove key before
  | ensure path key =>
    refine .ask _ fun present => ?_
    cases present with
    | true => exact .skip
    | false => exact .create key before
  | recreate path key =>
    refine .ask _ fun present => ?_
    cases present with
    | true => exact .andThen (.remove key before) (.create key)
    | false => exact .create key before
  | discard path key =>
    refine .ask _ fun present => ?_
    cases present with
    | true => exact .remove key before
    | false => exact .skip

end OpenBucket

/-- The key is not empty, and a value is not for the root. -/
structure Record.Placed (record : Record) : Prop where
  named : record.key ≠ []
  inner : record.operation = .put → record.path ≠ []

namespace Transaction

variable {tx : Transaction}

/-- In the root nothing but changes of children is logged. -/
theorem attempt_root {edit : Edit} (root : edit.path = []) :
    ∀ record ∈ (tx.attempt edit).log, record ∈ tx.log ∨ record.operation ≠ .put := by
  intro record member
  unfold attempt run Transaction.write at member
  split at member
  · exact .inl member
  · exact OpenBucket.logsAt_root edit root record member

theorem placed_attempt (placed : ∀ record ∈ tx.log, record.Placed) (edit : Edit) :
    ∀ record ∈ (tx.attempt edit).log, record.Placed := by
  intro record member
  obtain ⟨_, records, log, within⟩ := write_log tx edit.path edit.faithful_work
  have logged : record ∈ tx.log ++ records := log ▸ member
  rcases List.mem_append.mp logged with old | new
  · exact placed record old
  · obtain ⟨path, valid, _⟩ := within record new
    refine ⟨(Limits.checkKey_eq_ok.mp valid).1, fun stored top => ?_⟩
    rcases attempt_root (path.symm.trans top) record member with old | other
    · exact (placed record old).inner stored top
    · exact other stored

theorem placed_attemptAll (placed : ∀ record ∈ tx.log, record.Placed) (edits : List Edit) :
    ∀ record ∈ (tx.attemptAll edits).log, record.Placed := by
  induction edits generalizing tx with
  | nil => exact placed
  | cons edit edits ih => exact ih (placed_attempt placed edit)

/-- Values go below the root and keys are not empty, where that was so before. -/
theorem placed_tree {limits : Limits} {tree : Bucket} (placed : tree.Lawful Record.Placed [])
    (edits : List Edit) :
    ((start limits tree).attemptAll edits).tree.Lawful Record.Placed [] := by
  have follows := (follows_start limits (placed.mono fun _ _ => trivial)).attemptAll edits
  have logged : ∀ record ∈ ((start limits tree).attemptAll edits).log, record.Placed :=
    placed_attemptAll (by simp [start]) edits
  refine placed.replayed ?_ ?_ follows.replayed
  · intro record member stored
    exact ⟨(logged record member).named, fun _ => (logged record member).inner stored⟩
  · intro record member _
    refine ⟨(logged record member).named, fun stored => ?_⟩
    contradiction

end Transaction

namespace Session

/-- Open a store on a disk, and take the steps in turn. -/
def runFrom (config : Config) (disk : Disk) (steps : List Step) : Except StoreError Session := do
  steps.foldlM step (← load config disk)

variable {session next : Session}

theorem load_eq_ok {config : Config} {disk : Disk} (done : load config disk = .ok session) :
    Store.load config disk = (.ok session.store, session.disk) := by
  unfold load at done
  split at done
  · rename_i store later opened
    cases done
    exact opened
  · contradiction

/-- Where the tree comes from that is published after a step. -/
theorem step_cases {step : Step} (done : session.step step = .ok next) :
    next.store.published.tree = session.store.published.tree ∨
      (∃ edits, next.store.published.tree = (session.store.begin.attemptAll edits).tree ∧
        ∀ record ∈ (session.store.begin.attemptAll edits).log, record.Encodable) ∨
      ∃ config, step = .reopen config ∧ load config session.disk = .ok next := by
  cases step with
  | write edits finish =>
    cases finish with
    | commit =>
      unfold Session.step at done
      dsimp only at done
      split at done
      · rename_i store later committed
        cases done
        rcases Store.commit_eq_ok committed with rfl | ⟨published, _, encodable⟩
        · exact .inl rfl
        · exact .inr (.inl ⟨edits, congrArg Snapshot.tree published, encodable⟩)
      · cases done
        exact .inl rfl
    | abort =>
      cases done
      exact .inl rfl
    | drop =>
      cases done
      exact .inl rfl
  | sync =>
    cases done
    exact .inl rfl
  | checkpoint =>
    cases done
    exact .inl (Store.checkpoint_published rfl).1
  | reopen config => exact .inr (.inr ⟨config, rfl, done⟩)

theorem wellFormed_load {config : Config} {disk : Disk} (done : load config disk = .ok session) :
    session.store.published.tree.WellFormed :=
  Store.Opened.wellFormed (.load (load_eq_ok done))

theorem wellFormed_step (wellFormed : session.store.published.tree.WellFormed) {step : Step}
    (done : session.step step = .ok next) : next.store.published.tree.WellFormed := by
  rcases step_cases done with same | ⟨edits, published, _⟩ | ⟨config, _, opened⟩
  · rwa [same]
  · rw [published]
    exact ((Transaction.follows_start _ wellFormed).attemptAll edits).wellFormed
  · exact wellFormed_load opened

/-- What every opening gives, and every step keeps, holds after every run. -/
theorem runFrom_induction {holds : Session → Prop} {config : Config} {disk : Disk}
    {steps : List Step}
    (opened : ∀ config disk session, load config disk = .ok session → holds session)
    (stepped : ∀ session step next, holds session → session.step step = .ok next → holds next)
    (done : runFrom config disk steps = .ok session) : holds session := by
  obtain ⟨first, start, rest⟩ := Outcome.bind_eq_ok.mp done
  replace start := opened config disk first start
  clear done
  induction steps generalizing first with
  | nil =>
    cases rest
    exact start
  | cons step steps ih =>
    obtain ⟨middle, front, rest⟩ := Outcome.bind_eq_ok.mp rest
    exact ih middle rest (stepped first step middle start front)

theorem wellFormed_runFrom {config : Config} {disk : Disk} {steps : List Step}
    (done : runFrom config disk steps = .ok session) :
    session.store.published.tree.WellFormed :=
  runFrom_induction (fun _ _ _ => wellFormed_load)
    (fun _ _ _ kept step => wellFormed_step kept step) done

/-- Settings with which a store was opened are ones that it accepts. -/
theorem valid_of_load {config : Config} {disk : Disk} (done : load config disk = .ok session) :
    config.validate = .ok () := by
  obtain ⟨⟨⟩, middle, validated, _⟩ := DiskM.bind_eq_ok.mp (load_eq_ok done)
  cases valid : config.validate with
  | ok => rfl
  | error error =>
    rw [valid] at validated
    cases validated

theorem valid_of_run {config : Config} {place : String} {steps : List Step}
    (done : run config place steps = .ok session) :
    config.validate = .ok () ∧ ∀ other, .reopen other ∈ steps → other.validate = .ok () := by
  induction steps using List.reverseRecOn generalizing session with
  | nil =>
    obtain ⟨first, opened, _⟩ := Outcome.bind_eq_ok.mp done
    exact ⟨valid_of_load opened, nofun⟩
  | append_singleton steps step ih =>
    rw [run_snoc] at done
    obtain ⟨middle, before, stepped⟩ := Outcome.bind_eq_ok.mp done
    obtain ⟨valid, reopened⟩ := ih before
    refine ⟨valid, fun other member => ?_⟩
    rcases List.mem_append.mp member with earlier | last
    · exact reopened other earlier
    · rw [← List.mem_singleton.mp last] at stepped
      exact valid_of_load stepped

/-- Over a log that the store has written itself, a reopened store publishes what it had. -/
theorem placed_step {batches : List Log.Batch} {step : Step} (synced : session.Synced batches)
    (placed : session.store.published.tree.Lawful Record.Placed [])
    (done : session.step step = .ok next) :
    next.store.published.tree.Lawful Record.Placed [] := by
  rcases step_cases done with same | ⟨edits, published, _⟩ | ⟨config, _, opened⟩
  · rwa [same]
  · rw [published]
    exact Transaction.placed_tree placed edits
  · obtain ⟨writer, disk, again, _⟩ := synced.load (valid_of_load opened)
    have same := (load_eq_ok opened).symm.trans again
    rw [Except.ok.inj (Prod.mk.inj same).1]
    exact placed

theorem placed_run {config : Config} {place : String} {steps : List Step}
    (done : run config place steps = .ok session) (bound : steps.length < Numeral.wordLimit) :
    session.store.published.tree.Lawful Record.Placed [] := by
  obtain ⟨valid, reopened⟩ := valid_of_run done
  let invariant (_ : List Step) (session : Session) (batches : List Log.Batch) : Prop :=
    session.Synced batches → session.store.published.tree.Lawful Record.Placed []
  have start : ∀ session, session.store.published.txid = 0 → invariant [] session [] := by
    intro session _ synced
    have published : session.store.published = ⟨[], 0⟩ := (Except.ok.inj synced.replayed).symm
    rw [published]
    exact Bucket.lawful_nil
  obtain ⟨same, batches, again, synced, _, _, placed⟩ := run_invariant invariant valid start
    (fun _ _ _ _ _ _ _ synced placed advances _ => placed_step synced (placed synced) advances.done)
    steps reopened bound
  cases done.symm.trans again
  exact placed synced

/-- In every tree that is published after opening a store on whatever it accepts, and in every
transaction on it, no key names both a field and a child at any depth.  The two maps of its buckets
go through the records of every log, and of every transaction, as the tree does.  After a start from
nothing the root has no fields either, and no key is empty. -/
theorem separate_runFrom {config : Config} {disk : Disk} {steps : List Step}
    (done : runFrom config disk steps = .ok session) :
    let tree := session.store.published.tree
    (Node.ofBucket tree).Separate ∧
      (∀ records, (Node.ofBucket tree).replay records = (tree.replay records).map Node.ofBucket) ∧
      (∀ edits, let tx := session.store.begin.attemptAll edits
        (Node.ofBucket tree).replay tx.log = .ok (Node.ofBucket tx.tree) ∧
          (Node.ofBucket tx.tree).Separate) ∧
      ∀ place, disk = .empty place → steps.length < Numeral.wordLimit →
        (Node.ofBucket tree).fields = [] ∧ (Node.ofBucket tree).Named := by
  intro tree
  have wellFormed := wellFormed_runFrom done
  refine ⟨Node.separate_ofBucket wellFormed, Node.replay_ofBucket wellFormed, ?_, ?_⟩
  · intro edits tx
    have follows : tx.Follows tree :=
      (Transaction.follows_start _ wellFormed).attemptAll edits
    refine ⟨?_, Node.separate_ofBucket follows.wellFormed⟩
    rw [Node.replay_ofBucket wellFormed, follows.replayed]
    rfl
  · intro place start bound
    subst start
    have placed := placed_run done bound
    exact ⟨Node.fields_ofBucket placed fun key value fit => fit.inner rfl rfl,
      Node.named_ofBucket placed fun record fit => fit.named⟩

/-- From nothing, over edits of which two are refused, a checkpoint and a second opening; and over a
log that no edits have written, with a value under an empty key in the root. -/
theorem separate_runFrom_of_refused :
    let steps : List Step := [.write [.create [] [97], .put [[97]] [107] [118],
      .create [[97]] [107], .put [] [98] [120]] .commit, .checkpoint, .reopen .durable,
      .write [.recreate [[97]] [108]] .commit]
    let foreign : Log.Batch := ⟨7, [.put [] [] [120], .createBucket [] [98]]⟩
    (∃ session, runFrom .relaxed (.empty "data") steps = .ok session ∧
      session.store.published.tree.snapshot = [.checkpoint, .createBucket [] [97],
        .put [[97]] [107] [118], .createBucket [[97]] [108]] ∧
      (Node.ofBucket session.store.published.tree).Separate ∧
      (Node.ofBucket session.store.published.tree).fields = [] ∧
      (Node.ofBucket session.store.published.tree).Named) ∧
    ∃ session, runFrom .relaxed ⟨"data", [("wal", .folder
        [(Log.fileName 0, .file foreign.written)])], []⟩ [.checkpoint] = .ok session ∧
      session.store.published.tree.snapshot =
        [.checkpoint, .put [] [] [120], .createBucket [] [98]] ∧
      (Node.ofBucket session.store.published.tree).Separate := by
  intro steps foreign
  constructor
  · have shown : (runFrom .relaxed (.empty "data") steps).toOption.map
        (fun session => session.store.published.tree.snapshot) = some [.checkpoint,
          .createBucket [] [97], .put [[97]] [107] [118], .createBucket [[97]] [108]] := by
      decide +kernel
    obtain ⟨session, done, tree⟩ := Outcome.toOption_map_eq_some.mp shown
    obtain ⟨separate, _, _, fresh⟩ := separate_runFrom done
    exact ⟨session, done, tree, separate, fresh "data" rfl (by decide)⟩
  · have shown : (runFrom .relaxed ⟨"data", [("wal", .folder
        [(Log.fileName 0, .file foreign.written)])], []⟩ [.checkpoint]).toOption.map
        (fun session => session.store.published.tree.snapshot) =
          some [.checkpoint, .put [] [] [120], .createBucket [] [98]] := by
      decide +kernel
    obtain ⟨session, done, tree⟩ := Outcome.toOption_map_eq_some.mp shown
    exact ⟨session, done, tree, (separate_runFrom done).1⟩

end Session

end ClusterRegistry
