import ClusterRegistry.Proofs.Store.Checkpoint
import ClusterRegistry.Proofs.Tree.Transaction
import Mathlib.Data.List.Induction

/-!
A store at work, from an empty directory on: transactions, checkpoints, and closing and opening it
again, in any order.  After each of these the log on the disk leads to the tree that the store has
published.
-/
namespace ClusterRegistry

theorem Record.encodable_checkpoint : Record.checkpoint.Encodable := by
  constructor <;> simp [Record.checkpoint, Record.payload, Bytes.littleEndian_length,
    Record.shortLimit, Record.longLimit]

namespace Bucket

theorem Lawful.snapshot_unclosed {fits : Record → Prop} {tree : Bucket}
    (lawful : Lawful fits [] tree) : ∀ record ∈ tree.snapshot, record.operation ≠ .commit := by
  rw [snapshot, List.forall_mem_cons]
  refine ⟨by decide, ?_⟩
  intro record member
  obtain ⟨_, put | create⟩ := lawful.storing record member
  · simp [put]
  · simp [create]

theorem Storable.sound_snapshot {tree : Bucket} (storable : tree.Storable) {txid : Nat}
    (number : txid < Numeral.wordLimit) : Log.Batch.Sound ⟨txid, tree.snapshot⟩ := by
  refine ⟨number, ?_, Lawful.snapshot_unclosed storable⟩
  rw [snapshot, List.forall_mem_cons]
  exact ⟨Record.encodable_checkpoint, fun record member =>
    (Lawful.storing storable record member).1⟩

end Bucket

theorem Store.commit_of_refused {store : Store} {tx : Transaction} {error : StoreError}
    (changed : tx.log ≠ []) (refused : Log.encodeBatch tx.log store.nextTxid = .error error)
    (disk : Disk) : store.commit tx disk = (.error error, disk) := by
  unfold commit
  rw [if_neg changed, DiskM.bind_of_error (Log.append_of_refused refused _)]

structure Session where
  store : Store
  disk : Disk

namespace Session

inductive Finish where
  | commit
  | abort
  | drop

inductive Step where
  | write (edits : List Edit) (finish : Finish)
  | sync
  | checkpoint
  /-- Close the store and open it again. -/
  | reopen (config : Config)

def load (config : Config) (disk : Disk) : Except StoreError Session :=
  match Store.load config disk with
  | (.ok store, disk) => .ok ⟨store, disk⟩
  | (.error error, _) => .error error

/-- A commit or a checkpoint that fails leaves a store to go on with, but without an open store
there is no session. -/
def step (session : Session) : Step → Except StoreError Session
  | .write edits .commit =>
    match session.store.commit (session.store.begin.attemptAll edits) session.disk with
    | (.ok store, disk) => .ok ⟨store, disk⟩
    | (.error _, disk) => .ok ⟨session.store, disk⟩
  | .write _ .abort => .ok session
  | .write _ .drop => .ok session
  | .sync => .ok session
  | .checkpoint =>
    let ((_, store), disk) := session.store.checkpoint session.disk
    .ok ⟨store, disk⟩
  | .reopen config => load config session.disk

def run (config : Config) (place : String) (steps : List Step) : Except StoreError Session := do
  steps.foldlM step (← load config (.empty place))

/-- How many numbers a step uses up: one where a commit has something to log and is not refused, one
for a checkpoint. -/
def spent (session : Session) : Step → Nat
  | .write edits .commit =>
    let tx := session.store.begin.attemptAll edits
    if tx.log ≠ [] ∧ (session.store.commit tx session.disk).1.isOk then 1 else 0
  | .checkpoint => 1
  | _ => 0

/-- What becomes of the batches in the log in a step that uses up so many numbers from `number`
on. -/
inductive Logged (number : Nat) :
    Step → Nat → List Log.Batch → List Log.Batch → Prop where
  | nothing {step : Step} {batches : List Log.Batch} (other : step ≠ .checkpoint) :
      Logged number step 0 batches batches
  | batch {step : Step} {batches : List Log.Batch} (other : step ≠ .checkpoint)
      (records : List Record) :
      Logged number step 1 batches (batches ++ [⟨number, records⟩])
  | checkpoint {batches : List Log.Batch} (records : List Record) :
      Logged number .checkpoint 1 batches [⟨number, records⟩]

theorem Logged.spent_le {number spent : Nat} {step : Step} {batches later : List Log.Batch}
    (logged : Logged number step spent batches later) : spent ≤ 1 := by
  cases logged with
  | nothing other => exact Nat.zero_le 1
  | batch other records => exact Nat.le_refl 1
  | checkpoint records => exact Nat.le_refl 1

/-- The log holds `batches`, up to its last byte, and they lead to the published tree, all of
which a checkpoint can write. -/
structure Synced (session : Session) (batches : List Log.Batch) : Prop where
  ready : Log.Ready session.disk session.store.writer batches
  replayed : Store.replay batches = .ok session.store.published
  storable : session.store.published.tree.Storable
  next : session.store.nextTxid = session.store.published.txid + 1

/-- All that a step does: the log stays in step with the published tree, and the published number
tells how many numbers were used up. -/
structure Advances (session : Session) (batches : List Log.Batch) (step : Step) (next : Session)
    (later : List Log.Batch) : Prop where
  done : session.step step = .ok next
  synced : next.Synced later
  logged : Logged session.store.nextTxid step (session.spent step) batches later
  number : next.store.published.txid = session.store.published.txid + session.spent step
  file : next.store.writer.sequence ≤ session.store.writer.sequence + 1

theorem synced_load_empty (config : Config) (place : String) (valid : config.validate = .ok ()) :
    ∃ session, load config (.empty place) = .ok session ∧ session.Synced [] ∧
      session.store.published.txid = 0 ∧ session.store.writer.sequence = 0 := by
  obtain ⟨writer, later, opened, sequence, _, attached⟩ := Store.load_of_empty config place valid
  refine ⟨⟨_, later⟩, by rw [load, opened], ⟨?_, rfl, Bucket.lawful_nil, rfl⟩, rfl, sequence⟩
  exact ⟨[], [], by simp, attached, rfl⟩

namespace Synced

variable {session : Session} {batches : List Log.Batch}

theorem load (synced : session.Synced batches) {config : Config}
    (valid : config.validate = .ok ()) :
    ∃ writer later, Store.load config session.disk = (.ok ⟨config, session.store.published,
        session.store.published.txid + 1, writer⟩, later) ∧
      writer.sequence = session.store.writer.sequence ∧ Log.Ready later writer batches := by
  obtain ⟨older, last, sound, attached, rfl⟩ := synced.ready
  obtain ⟨writer, later, opened, sequence, again⟩ :=
    Store.load_of_holds valid sound attached.holds synced.replayed
  exact ⟨writer, later, opened, sequence, older, last, sound, again, rfl⟩

theorem commit (synced : session.Synced batches) {tx : Transaction} {data : Bytes}
    (follows : tx.Follows session.store.published.tree) (changed : tx.log ≠ [])
    (encoded : Log.encodeBatch tx.log session.store.nextTxid = .ok data)
    (txid : session.store.nextTxid < Numeral.wordLimit)
    (bound : session.store.writer.sequence + 1 < Numeral.wordLimit) :
    ∃ writer later, session.store.commit tx session.disk =
        (.ok ⟨session.store.config, ⟨tx.tree, session.store.nextTxid⟩,
          session.store.nextTxid + 1, writer⟩, later) ∧
      writer.sequence ≤ session.store.writer.sequence + 1 ∧
      Synced ⟨⟨session.store.config, ⟨tx.tree, session.store.nextTxid⟩,
        session.store.nextTxid + 1, writer⟩, later⟩
        (batches ++ [⟨session.store.nextTxid, tx.log⟩]) := by
  obtain ⟨fits, _⟩ := Log.encodeBatch_eq_ok.mp encoded
  have sound : Log.Batch.Sound ⟨session.store.nextTxid, tx.log⟩ :=
    ⟨txid, fits, fun record member => (follows.mutating record member).1⟩
  obtain ⟨writer, later, appended, _, sequence, ready⟩ := synced.ready.append sound bound
  obtain ⟨before, last⟩ := Store.replay_eq_ok.mp synced.replayed
  have above : Store.lastTxid batches ≤ session.store.nextTxid := by
    rw [synced.next, last]
    exact Nat.le_succ _
  have highest := Store.lastTxid_append batches ⟨session.store.nextTxid, tx.log⟩ above
  have after : Bucket.replay (Store.recordsOf
      (batches ++ [⟨session.store.nextTxid, tx.log⟩])) [] = .ok tx.tree := by
    rw [Store.recordsOf_append, Bucket.replay_append, before, Store.recordsOf_singleton]
    exact follows.replayed
  refine ⟨writer, later, ?_, sequence, ready, ?_, ?_, rfl⟩
  · exact Store.commit_of_append _ _ changed appended
  · exact Store.replay_eq_ok.mpr ⟨after, highest.symm⟩
  · exact synced.storable.replay fits follows.replayed

theorem checkpoint (synced : session.Synced batches)
    (txid : session.store.nextTxid < Numeral.wordLimit)
    (bound : session.store.writer.sequence + 1 < Numeral.wordLimit) :
    ∃ result writer later, session.store.checkpoint session.disk =
        ((.ok result, ⟨session.store.config, ⟨session.store.published.tree,
          session.store.nextTxid⟩, session.store.nextTxid + 1, writer⟩), later) ∧
      writer.sequence = session.store.writer.sequence + 1 ∧
      Synced ⟨⟨session.store.config, ⟨session.store.published.tree, session.store.nextTxid⟩,
        session.store.nextTxid + 1, writer⟩, later⟩
        [⟨session.store.nextTxid, session.store.published.tree.snapshot⟩] := by
  obtain ⟨older, last, _, attached, _⟩ := synced.ready
  have sound := synced.storable.sound_snapshot txid
  obtain ⟨result, writer, later, done, sequence, _, kept⟩ :=
    Store.checkpoint_of_attached attached sound.encoded bound
  have whole : Log.Ready later writer
      [⟨session.store.nextTxid, session.store.published.tree.snapshot⟩] := by
    refine ⟨[], _, ?_, ?_, rfl⟩
    · intro batch member
      rw [List.mem_singleton.mp member]
      exact sound
    · rw [List.flatMap_singleton]
      exact kept
  refine ⟨result, writer, later, done, sequence, whole, ?_, synced.storable, rfl⟩
  apply Store.replay_eq_ok.mpr
  refine ⟨?_, (Nat.zero_max _).symm⟩
  rw [Store.recordsOf_singleton]
  exact synced.storable.replay_snapshot []

theorem stay (synced : session.Synced batches) {step : Step}
    (done : session.step step = .ok session) (unspent : session.spent step = 0)
    (other : step ≠ .checkpoint) : session.Advances batches step session batches where
  done
  synced
  logged := by
    rw [unspent]
    exact .nothing other
  number := by rw [unspent, Nat.add_zero]
  file := Nat.le_succ _

theorem step_commit (synced : session.Synced batches) (edits : List Edit)
    (txid : session.store.nextTxid < Numeral.wordLimit)
    (bound : session.store.writer.sequence + 1 < Numeral.wordLimit) :
    ∃ next later, session.Advances batches (.write edits .commit) next later := by
  have follows : (session.store.begin.attemptAll edits).Follows session.store.published.tree :=
    (Transaction.follows_start _ synced.storable.wellFormed).attemptAll edits
  have other : Step.write edits .commit ≠ .checkpoint := nofun
  by_cases unchanged : (session.store.begin.attemptAll edits).log = []
  · have skipped : session.store.commit (session.store.begin.attemptAll edits) session.disk =
        (.ok session.store, session.disk) := by
      rw [Store.commit, if_pos unchanged]
      rfl
    refine ⟨session, batches, synced.stay ?_ ?_ other⟩
    · simp only [Session.step, skipped]
    · exact if_neg fun given => given.1 unchanged
  · cases encoded : Log.encodeBatch (session.store.begin.attemptAll edits).log
        session.store.nextTxid with
    | error error =>
      have refused : session.store.commit (session.store.begin.attemptAll edits) session.disk =
          (.error error, session.disk) := Store.commit_of_refused unchanged encoded _
      refine ⟨session, batches, synced.stay ?_ ?_ other⟩
      · simp only [Session.step, refused]
      · refine if_neg fun given => ?_
        rw [refused] at given
        exact Bool.false_ne_true given.2
    | ok data =>
      obtain ⟨writer, later, done, sequence, next⟩ :=
        synced.commit follows unchanged encoded txid bound
      have spent : session.spent (.write edits .commit) = 1 := by
        refine if_pos ⟨unchanged, ?_⟩
        rw [done]
        rfl
      refine ⟨_, _, ?_, next, ?_, ?_, sequence⟩
      · simp only [Session.step, done]
      · rw [spent]
        exact .batch other _
      · rw [spent]
        exact synced.next

theorem step (synced : session.Synced batches) (step : Step)
    (valid : ∀ config, step = .reopen config → config.validate = .ok ())
    (txid : session.store.nextTxid < Numeral.wordLimit)
    (bound : session.store.writer.sequence + 1 < Numeral.wordLimit) :
    ∃ next later, session.Advances batches step next later := by
  cases step with
  | write edits finish =>
    cases finish with
    | commit => exact synced.step_commit edits txid bound
    | abort => exact ⟨session, batches, synced.stay rfl rfl nofun⟩
    | drop => exact ⟨session, batches, synced.stay rfl rfl nofun⟩
  | sync => exact ⟨session, batches, synced.stay rfl rfl nofun⟩
  | checkpoint =>
    obtain ⟨result, writer, later, done, sequence, next⟩ := synced.checkpoint txid bound
    refine ⟨_, _, ?_, next, .checkpoint _, synced.next, Nat.le_of_eq sequence⟩
    simp only [Session.step, done]
  | reopen config =>
    obtain ⟨writer, later, opened, sequence, ready⟩ := synced.load (valid config rfl)
    refine ⟨⟨⟨config, session.store.published, session.store.published.txid + 1, writer⟩, later⟩,
      batches, ?_, ⟨ready, synced.replayed, synced.storable, rfl⟩, .nothing nofun, rfl,
      Nat.le_succ_of_le (Nat.le_of_eq sequence)⟩
    simp only [Session.step, Session.load, opened]

end Synced

/-- After `count` steps the log leads to the published tree, and no number is higher than that. -/
structure Reached (session : Session) (count : Nat) : Prop where
  synced : ∃ batches, session.Synced batches
  txid : session.store.published.txid ≤ count
  sequence : session.store.writer.sequence ≤ count

namespace Reached

variable {session : Session} {count : Nat}

theorem next (reached : session.Reached count) : session.Reached (count + 1) :=
  ⟨reached.synced, Nat.le_succ_of_le reached.txid, Nat.le_succ_of_le reached.sequence⟩

/-- A commit publishes what its transaction holds; one that changed nothing holds what there was. -/
theorem commit (reached : session.Reached count) (bound : count + 1 < Numeral.wordLimit)
    {tx : Transaction} (follows : tx.Follows session.store.published.tree) {data : Bytes}
    (encoded : Log.encodeBatch tx.log session.store.nextTxid = .ok data) :
    ∃ store later, session.store.commit tx session.disk = (.ok store, later) ∧
      Reached ⟨store, later⟩ (count + 1) ∧ store.config = session.store.config ∧
      store.published.tree = tx.tree := by
  obtain ⟨batches, synced⟩ := reached.synced
  by_cases unchanged : tx.log = []
  · have same : session.store.published.tree = tx.tree := by
      have replayed := follows.replayed
      rw [unchanged] at replayed
      exact Except.ok.inj replayed
    refine ⟨session.store, session.disk, ?_, reached.next, rfl, same⟩
    rw [Store.commit, if_pos unchanged]
    rfl
  · have number : session.store.nextTxid ≤ count + 1 := synced.next ▸ Nat.succ_le_succ reached.txid
    have file : session.store.writer.sequence + 1 ≤ count + 1 := Nat.succ_le_succ reached.sequence
    obtain ⟨writer, later, done, sequence, next⟩ := synced.commit follows unchanged encoded
      (Nat.lt_of_le_of_lt number bound) (Nat.lt_of_le_of_lt file bound)
    exact ⟨_, later, done, ⟨⟨_, next⟩, number, Nat.le_trans sequence file⟩, rfl, rfl⟩

theorem commit_cases (reached : session.Reached count) (bound : count + 1 < Numeral.wordLimit)
    {tx : Transaction} (follows : tx.Follows session.store.published.tree) :
    (∃ error, session.store.commit tx session.disk = (.error error, session.disk)) ∨
      ∃ store later, session.store.commit tx session.disk = (.ok store, later) ∧
        Reached ⟨store, later⟩ (count + 1) ∧ store.config = session.store.config ∧
        store.published.tree = tx.tree := by
  cases encoded : Log.encodeBatch tx.log session.store.nextTxid with
  | ok data => exact .inr (reached.commit bound follows encoded)
  | error error =>
    refine .inl ⟨error, Store.commit_of_refused ?_ encoded session.disk⟩
    intro unchanged
    rw [unchanged, Log.encodeBatch_eq_ok.mpr ⟨by simp, rfl⟩] at encoded
    contradiction

theorem checkpoint (reached : session.Reached count) (bound : count + 1 < Numeral.wordLimit) :
    ∃ result store later, session.store.checkpoint session.disk = ((.ok result, store), later) ∧
      Reached ⟨store, later⟩ (count + 1) ∧ store.config = session.store.config ∧
      store.published.tree = session.store.published.tree := by
  obtain ⟨batches, synced⟩ := reached.synced
  have number : session.store.nextTxid ≤ count + 1 := synced.next ▸ Nat.succ_le_succ reached.txid
  have file : session.store.writer.sequence + 1 ≤ count + 1 := Nat.succ_le_succ reached.sequence
  obtain ⟨result, writer, later, done, sequence, next⟩ :=
    synced.checkpoint (Nat.lt_of_le_of_lt number bound) (Nat.lt_of_le_of_lt file bound)
  exact ⟨result, _, later, done,
    ⟨⟨_, next⟩, number, Nat.le_trans (Nat.le_of_eq sequence) file⟩, rfl, rfl⟩

theorem load (reached : session.Reached count) {config : Config}
    (valid : config.validate = .ok ()) :
    ∃ store later, Store.load config session.disk = (.ok store, later) ∧
      Reached ⟨store, later⟩ (count + 1) ∧ store.config = config ∧
      store.published.tree = session.store.published.tree := by
  obtain ⟨batches, synced⟩ := reached.synced
  obtain ⟨writer, later, opened, sequence, ready⟩ := synced.load valid
  exact ⟨_, later, opened, ⟨⟨batches, ready, synced.replayed, synced.storable, rfl⟩,
    reached.next.txid, Nat.le_trans (Nat.le_of_eq sequence) reached.next.sequence⟩, rfl, rfl⟩

end Reached

theorem run_snoc (config : Config) (place : String) (steps : List Step) (step : Step) :
    run config place (steps ++ [step]) =
      run config place steps >>= fun session => session.step step := by
  simp only [run, List.foldlM_append, List.foldlM_cons, List.foldlM_nil, bind_pure, bind_assoc]

theorem run_write {config : Config} {place : String} {steps : List Step} {session : Session}
    {edits : List Edit} {tx : Transaction} {writer : Log.Writer} {later : Disk}
    (done : run config place steps = .ok session)
    (attempted : session.store.begin.attemptAll edits = tx) (changed : tx.log ≠ [])
    (appended : session.store.writer.append tx.log session.store.nextTxid session.disk =
      (.ok writer, later)) :
    run config place (steps ++ [.write edits .commit]) = .ok ⟨⟨session.store.config,
      ⟨tx.tree, session.store.nextTxid⟩, session.store.nextTxid + 1, writer⟩, later⟩ := by
  have committed := Store.commit_of_append session.store tx changed appended
  rw [run_snoc, done]
  change session.step (.write edits .commit) = _
  simp only [step, attempted, committed]

/-- What holds of an empty log and is kept by every step holds after every run. -/
theorem run_invariant {config : Config} {place : String}
    (invariant : List Step → Session → List Log.Batch → Prop) (valid : config.validate = .ok ())
    (start : ∀ session, session.store.published.txid = 0 → invariant [] session [])
    (advance : ∀ steps step session batches next later, run config place steps = .ok session →
      session.Synced batches → invariant steps session batches →
      session.Advances batches step next later → invariant (steps ++ [step]) next later)
    (steps : List Step) (reopened : ∀ other, .reopen other ∈ steps → other.validate = .ok ())
    (bound : steps.length < Numeral.wordLimit) :
    ∃ session batches, run config place steps = .ok session ∧ session.Synced batches ∧
      session.store.published.txid ≤ steps.length ∧
      session.store.writer.sequence ≤ steps.length ∧ invariant steps session batches := by
  induction steps using List.reverseRecOn with
  | nil =>
    obtain ⟨session, opened, synced, txid, sequence⟩ := synced_load_empty config place valid
    refine ⟨session, [], ?_, synced, Nat.le_of_eq txid, Nat.le_of_eq sequence, start _ txid⟩
    rw [run, opened]
    rfl
  | append_singleton steps step ih =>
    rw [List.length_append, List.length_singleton] at bound ⊢
    obtain ⟨session, batches, done, synced, txid, sequence, kept⟩ :=
      ih (fun other member => reopened other (List.mem_append_left _ member)) (by omega)
    obtain ⟨next, later, advances⟩ := synced.step step
      (fun other same => reopened other (List.mem_append_right _ (same ▸ List.mem_cons_self)))
      (by rw [synced.next]; omega) (by omega)
    have number := advances.number
    have spent := advances.logged.spent_le
    have file := advances.file
    refine ⟨next, later, ?_, advances.synced, by omega, by omega,
      advance _ _ _ _ _ _ done synced kept advances⟩
    rw [run_snoc, done]
    exact advances.done

theorem synced_run (config : Config) (place : String) (steps : List Step)
    (valid : config.validate = .ok ())
    (reopened : ∀ other, .reopen other ∈ steps → other.validate = .ok ())
    (bound : steps.length < Numeral.wordLimit) :
    ∃ session batches, run config place steps = .ok session ∧ session.Synced batches ∧
      session.store.published.txid ≤ steps.length ∧
      session.store.writer.sequence ≤ steps.length := by
  obtain ⟨session, batches, done, synced, txid, sequence, _⟩ :=
    run_invariant (fun _ _ _ => True) valid (fun _ _ => trivial)
      (fun _ _ _ _ _ _ _ _ _ _ => trivial) steps reopened bound
  exact ⟨session, batches, done, synced, txid, sequence⟩

/-- After every step of every run, the log leads to the published tree and the highest number in it
is the published one, the newest file ends behind a batch, and a store that is opened on it
publishes the same.  A run is as long as its numbers, which are 64-bit words, last. -/
theorem run_recovers (config : Config) (place : String) (steps : List Step)
    (valid : config.validate = .ok ())
    (reopened : ∀ other, .reopen other ∈ steps → other.validate = .ok ())
    (bound : steps.length < Numeral.wordLimit) :
    ∃ session recovery tail, run config place steps = .ok session ∧
      Log.recover session.disk = (.ok recovery, session.disk) ∧
      Bucket.replay (Store.recordsOf recovery.batches) [] = .ok session.store.published.tree ∧
      Store.lastTxid recovery.batches = session.store.published.txid ∧
      recovery.tail = some tail ∧ tail.isClean ∧
      ∀ other, other.validate = .ok () → ∃ store later,
        Store.load other session.disk = (.ok store, later) ∧
          store.published = session.store.published := by
  obtain ⟨session, batches, done, synced, _⟩ := synced_run config place steps valid reopened bound
  obtain ⟨tree, txid⟩ := Store.replay_eq_ok.mp synced.replayed
  refine ⟨session, _, _, done, synced.ready.recover, tree, txid.symm, rfl, ?_, ?_⟩
  · exact decide_eq_true rfl
  · intro other otherValid
    obtain ⟨writer, later, opened, _⟩ := synced.load otherValid
    exact ⟨_, later, opened, rfl⟩

theorem run_recovers_of_checkpoint :
    let steps : List Step := [.write [.create [] [97], .create [] [97], .put [[97]] [107] [118]] .commit,
      .write [.remove [] [97]] .abort, .checkpoint, .reopen .durable, .sync]
    ∃ session recovery tail, run .relaxed "data" steps = .ok session ∧
      Log.recover session.disk = (.ok recovery, session.disk) ∧
      Bucket.replay (Store.recordsOf recovery.batches) [] = .ok session.store.published.tree ∧
      Store.lastTxid recovery.batches = session.store.published.txid ∧
      recovery.tail = some tail ∧ tail.isClean := by
  intro steps
  have reopened : ∀ other, Step.reopen other ∈ steps → other.validate = .ok () := by
    intro other member
    have same : other = .durable := by simpa [steps] using member
    rw [same]
    rfl
  obtain ⟨session, recovery, tail, done, found, tree, txid, last, clean, _⟩ :=
    run_recovers .relaxed "data" steps rfl reopened (by decide)
  exact ⟨session, recovery, tail, done, found, tree, txid, last, clean⟩

end Session

end ClusterRegistry
