import ClusterRegistry.Proofs.Log.Resumption
import ClusterRegistry.Proofs.Store.Checkpoint

/-!
The log files under one rotation size.  A batch goes to the newest file while it fits there and to a
new one where it does not; a checkpoint leaves one file with one batch.  So each file holds whole
batches, and more than one of them only where all of them stay within the size.  The numbers of the
files follow on each other, and only the newest file can have nothing in it yet.
-/
namespace ClusterRegistry

namespace Log

/-- What is done to a log that is written under one rotation size. -/
inductive Task where
  | append (batch : Batch)
  /-- Write a checkpoint of what a store has published. -/
  | checkpoint (store : Store)
  /-- Let go of the writer and make another one. -/
  | resume

/-- The batch that a checkpoint writes. -/
def snapshotOf (store : Store) : Batch :=
  ⟨store.nextTxid, store.published.tree.snapshot⟩

/-- The batches in the log after a task, by what can be encoded alone. -/
def Task.takenAfter (taken : List Batch) : Task → List Batch
  | .append batch => if batch.accepted then taken ++ [batch] else taken
  | .checkpoint store => if (snapshotOf store).accepted then [snapshotOf store] else taken
  | .resume => taken

/-- A log file as the batches that it is made of. -/
structure BatchFile where
  sequence : Nat
  batches : List Batch

namespace BatchFile

def contents (file : BatchFile) : Bytes :=
  file.batches.flatMap Batch.written

def stored (file : BatchFile) : Nat × Bytes :=
  (file.sequence, file.contents)

/-- No longer than the rotation size, or there is but one batch in it. -/
def Within (rotationSize : Nat) (file : BatchFile) : Prop :=
  file.contents.length ≤ rotationSize ∨ file.batches.length = 1

private theorem contents_eq_nil {file : BatchFile} : file.contents = [] ↔ file.batches = [] := by
  rw [contents, List.flatMap_eq_nil_iff]
  constructor
  · intro empty
    rw [List.eq_nil_iff_forall_not_mem]
    intro batch member
    exact batch.written_ne_nil (empty batch member)
  · intro none batch member
    rw [none] at member
    contradiction

private theorem contents_snoc (sequence : Nat) (batches : List Batch) (batch : Batch) :
    contents ⟨sequence, batches ++ [batch]⟩ = contents ⟨sequence, batches⟩ ++ batch.written := by
  rw [contents, List.flatMap_append, List.flatMap_singleton, contents]

private theorem contents_singleton (sequence : Nat) (batch : Batch) :
    contents ⟨sequence, [batch]⟩ = batch.written :=
  List.flatMap_singleton _ _

end BatchFile

namespace Progress

/-- A checkpoint that is written replaces all that was taken before. -/
def checkpoint (progress : Progress) (store : Store) : Progress :=
  match { store with writer := progress.writer }.checkpoint progress.disk with
  | ((.ok _, after), disk) => ⟨[snapshotOf store], after.writer, disk⟩
  | ((.error _, after), disk) => ⟨progress.taken, after.writer, disk⟩

def task (rotationSize : Nat) (progress : Progress) : Task → Except StoreError Progress
  | .append batch => progress.call (.append batch)
  | .checkpoint store => .ok (progress.checkpoint store)
  | .resume => progress.call (.resume rotationSize)

def runTasks (rotationSize : Nat) (disk : Disk) (tasks : List Task) :
    Except StoreError Progress := do
  tasks.foldlM (task rotationSize) (← resume [] rotationSize disk)

/-- The log files hold what was taken, file by file, in whole batches; the writer is at the end of
the newest and the only one that may be empty. -/
structure Rotated (rotationSize : Nat) (progress : Progress) (older : List BatchFile)
    (newest : BatchFile) : Prop where
  number : newest.sequence = progress.writer.sequence
  attached : Attached progress.disk progress.writer (older.map BatchFile.stored) newest.contents
  rotation : progress.writer.rotationSize = rotationSize
  taken : progress.taken = (older ++ [newest]).flatMap BatchFile.batches
  consecutive : ∃ first, older.map BatchFile.sequence = List.range' first older.length ∧
    newest.sequence = first + older.length
  filled : ∀ file ∈ older, file.contents ≠ []
  within : ∀ file ∈ older ++ [newest], file.Within rotationSize

private theorem rotated_start {disk : Disk} (vacant : Vacant disk) (rotationSize : Nat) :
    ∃ progress, resume [] rotationSize disk = .ok progress ∧ progress.taken = [] ∧
      progress.Rotated rotationSize [] ⟨0, []⟩ := by
  obtain ⟨writer, later, opened, sequence, rotation, attached⟩ :=
    openNewest_of_vacant vacant rotationSize
  refine ⟨⟨[], writer, later⟩, by rw [resume, opened], rfl, ?_⟩
  exact ⟨sequence.symm, attached, rotation, rfl, ⟨0, rfl, rfl⟩,
    List.forall_mem_nil _, List.forall_mem_singleton.mpr (.inl (Nat.zero_le _))⟩

namespace Rotated

variable {rotationSize : Nat} {progress : Progress} {older : List BatchFile} {newest : BatchFile}

/-- One batch more at the end of the newest file, which either was empty or has room for it. -/
theorem grown (rotated : progress.Rotated rotationSize older newest) {batch : Batch}
    (room : ¬(0 < newest.contents.length ∧
      rotationSize < newest.contents.length + batch.written.length)) {writer : Writer} {disk : Disk}
    (number : writer.sequence = progress.writer.sequence)
    (rotation : writer.rotationSize = progress.writer.rotationSize)
    (attached : Attached disk writer (older.map BatchFile.stored)
      (newest.contents ++ batch.written)) :
    Rotated rotationSize ⟨progress.taken ++ [batch], writer, disk⟩ older
      ⟨newest.sequence, newest.batches ++ [batch]⟩ where
  number := rotated.number.trans number.symm
  attached := by rwa [BatchFile.contents_snoc]
  rotation := rotation.trans rotated.rotation
  taken := by
    rw [rotated.taken]
    simp only [List.flatMap_append, List.flatMap_singleton, List.append_assoc]
  consecutive := rotated.consecutive
  filled := rotated.filled
  within := by
    obtain ⟨before, _⟩ := List.forall_mem_append.mp rotated.within
    refine List.forall_mem_append.mpr ⟨before, List.forall_mem_singleton.mpr ?_⟩
    -- An empty file takes a batch of any length, any other one only what it has room for.
    by_cases empty : newest.batches = []
    · right
      rw [empty]
      rfl
    · left
      have some : newest.contents ≠ [] := mt BatchFile.contents_eq_nil.mp empty
      have length := List.length_pos_iff.mpr some
      rw [BatchFile.contents_snoc, List.length_append]
      change newest.contents.length + _ ≤ _
      omega

/-- One file more, with one batch in it. -/
theorem moved (rotated : progress.Rotated rotationSize older newest) (batch : Batch)
    (some : newest.contents ≠ []) {writer : Writer} {disk : Disk}
    (number : writer.sequence = progress.writer.sequence + 1)
    (rotation : writer.rotationSize = progress.writer.rotationSize)
    (attached : Attached disk writer
      (older.map BatchFile.stored ++ [(progress.writer.sequence, newest.contents)])
      batch.written) :
    Rotated rotationSize ⟨progress.taken ++ [batch], writer, disk⟩ (older ++ [newest])
      ⟨newest.sequence + 1, [batch]⟩ where
  number := by rw [rotated.number, number]
  attached := by
    rw [BatchFile.contents_singleton, List.map_append, List.map_singleton, BatchFile.stored,
      rotated.number]
    exact attached
  rotation := rotation.trans rotated.rotation
  taken := by
    rw [rotated.taken]
    simp only [List.flatMap_append, List.flatMap_singleton]
  consecutive := by
    obtain ⟨first, numbers, last⟩ := rotated.consecutive
    refine ⟨first, ?_, ?_⟩
    · rw [List.map_append, numbers, List.map_singleton, last, List.length_append,
        List.length_singleton, List.range'_1_concat]
    · rw [last, List.length_append, List.length_singleton, Nat.add_assoc]
  filled := List.forall_mem_append.mpr ⟨rotated.filled, List.forall_mem_singleton.mpr some⟩
  within := List.forall_mem_append.mpr ⟨rotated.within, List.forall_mem_singleton.mpr (.inr rfl)⟩

theorem append (rotated : progress.Rotated rotationSize older newest) (batch : Batch)
    (bound : progress.writer.sequence + 1 < Numeral.wordLimit) :
    ∃ next after last, progress.call (.append batch) = .ok next ∧
      next.taken = Task.takenAfter progress.taken (.append batch) ∧
      next.Rotated rotationSize after last ∧
      next.writer.sequence ≤ progress.writer.sequence + 1 := by
  cases encoded : encodeBatch batch.records batch.txid with
  | error error =>
    refine ⟨progress, older, newest, ?_, ?_, rotated, Nat.le_succ _⟩
    · rw [call, append_of_refused encoded]
    · rw [Task.takenAfter, Batch.accepted_of_error encoded]
      rfl
  | ok data =>
    have taken : Task.takenAfter progress.taken (.append batch) = progress.taken ++ [batch] :=
      if_pos (Batch.accepted_of_ok encoded)
    obtain ⟨_, rfl⟩ := encodeBatch_eq_ok.mp encoded
    by_cases full : 0 < progress.writer.size ∧
        progress.writer.rotationSize < progress.writer.size + batch.written.length
    · obtain ⟨writer, disk, appended, number, rotation, attached⟩ :=
        rotated.attached.append_next encoded full bound
      have some : newest.contents ≠ [] := by
        rw [← List.length_pos_iff, ← rotated.attached.size]
        exact full.1
      refine ⟨_, _, _, ?_, taken.symm, rotated.moved batch some number rotation attached,
        Nat.le_of_eq number⟩
      rw [call, appended]
    · obtain ⟨writer, disk, appended, number, rotation, attached⟩ :=
        rotated.attached.append_here encoded full
      rw [rotated.attached.size, rotated.rotation] at full
      refine ⟨_, _, _, ?_, taken.symm, rotated.grown full number rotation attached,
        Nat.le_succ_of_le (Nat.le_of_eq number)⟩
      rw [call, appended]

theorem checkpoint (rotated : progress.Rotated rotationSize older newest) (store : Store)
    (bound : progress.writer.sequence + 1 < Numeral.wordLimit) :
    ∃ after last,
      (progress.checkpoint store).taken = Task.takenAfter progress.taken (.checkpoint store) ∧
      (progress.checkpoint store).Rotated rotationSize after last ∧
      (progress.checkpoint store).writer.sequence ≤ progress.writer.sequence + 1 := by
  cases encoded : encodeBatch store.published.tree.snapshot store.nextTxid with
  | error error =>
    have refused : Store.checkpoint { store with writer := progress.writer } progress.disk =
        ((.error error, { store with writer := progress.writer }), progress.disk) :=
      Store.checkpoint_of_refused rotated.attached.holds encoded
    have same : progress.checkpoint store = progress := by
      rw [Progress.checkpoint, refused]
    have unwritten : (snapshotOf store).accepted = false := Batch.accepted_of_error encoded
    have taken : Task.takenAfter progress.taken (.checkpoint store) = progress.taken := by
      rw [Task.takenAfter, unwritten]
      rfl
    rw [same, taken]
    exact ⟨older, newest, rfl, rotated, Nat.le_succ _⟩
  | ok data =>
    have taken : Task.takenAfter progress.taken (.checkpoint store) = [snapshotOf store] :=
      if_pos (Batch.accepted_of_ok encoded)
    obtain ⟨_, rfl⟩ := encodeBatch_eq_ok.mp encoded
    let store' : Store := { store with writer := progress.writer }
    have attached : Attached progress.disk store'.writer (older.map BatchFile.stored)
        newest.contents := rotated.attached
    obtain ⟨result, writer, disk, done, number, rotation, attached⟩ :=
      Store.checkpoint_of_attached attached encoded bound
    have next : progress.checkpoint store = ⟨[snapshotOf store], writer, disk⟩ := by
      rw [Progress.checkpoint, done]
    rw [next, taken]
    refine ⟨[], ⟨progress.writer.sequence + 1, [snapshotOf store]⟩, rfl,
      ⟨number.symm, ?_, rotation.trans rotated.rotation, rfl, ⟨_, rfl, rfl⟩,
        List.forall_mem_nil _, List.forall_mem_singleton.mpr (.inr rfl)⟩, Nat.le_of_eq number⟩
    rw [BatchFile.contents_singleton]
    exact attached

theorem resume (rotated : progress.Rotated rotationSize older newest) :
    ∃ next, progress.call (.resume rotationSize) = .ok next ∧ next.taken = progress.taken ∧
      next.Rotated rotationSize older newest ∧ next.writer.sequence = progress.writer.sequence := by
  obtain ⟨writer, disk, opened, number, rotation, attached⟩ :=
    openNewest_of_holds rotated.attached.holds rotationSize
  refine ⟨⟨progress.taken, writer, disk⟩, ?_, rfl, ?_, number⟩
  · rw [call, Progress.resume, opened]
  · exact { rotated with
      number := rotated.number.trans number.symm
      attached
      rotation }

theorem task (rotated : progress.Rotated rotationSize older newest) (task : Task)
    (bound : progress.writer.sequence + 1 < Numeral.wordLimit) :
    ∃ next after last, progress.task rotationSize task = .ok next ∧
      next.taken = task.takenAfter progress.taken ∧
      next.Rotated rotationSize after last ∧
      next.writer.sequence ≤ progress.writer.sequence + 1 := by
  cases task with
  | append batch => exact rotated.append batch bound
  | checkpoint store =>
    obtain ⟨after, last, taken, done, number⟩ := rotated.checkpoint store bound
    exact ⟨_, after, last, rfl, taken, done, number⟩
  | resume =>
    obtain ⟨next, done, taken, again, number⟩ := rotated.resume
    exact ⟨next, older, newest, done, taken, again, Nat.le_succ_of_le (Nat.le_of_eq number)⟩

theorem tasks (rotated : progress.Rotated rotationSize older newest) (tasks : List Task)
    (bound : progress.writer.sequence + tasks.length < Numeral.wordLimit) :
    ∃ final after last, tasks.foldlM (Progress.task rotationSize) progress = .ok final ∧
      final.taken = tasks.foldl Task.takenAfter progress.taken ∧
      final.Rotated rotationSize after last := by
  induction tasks generalizing progress older newest with
  | nil => exact ⟨progress, older, newest, rfl, rfl, rotated⟩
  | cons task tasks ih =>
    rw [List.length_cons] at bound
    obtain ⟨next, after, last, done, taken, rotated, number⟩ := rotated.task task (by omega)
    obtain ⟨final, after, last, rest, all, rotated⟩ := ih rotated (by omega)
    refine ⟨final, after, last, ?_, ?_, rotated⟩
    · rw [List.foldlM_cons, done]
      exact rest
    · rw [all, taken]
      rfl

end Rotated

/-- Under one rotation size, whatever is appended, checkpointed and resumed, the log files are made
of whole batches, all those that were taken and in their order, and of sound ones each file read by
itself gives its own.  Each file keeps to the size or has one batch only, their numbers follow on
each other up to the writer's own, none but the newest is empty, and the writer knows how long that
one is. -/
theorem rotation_of_runTasks {disk : Disk} (vacant : Vacant disk) (rotationSize : Nat)
    (tasks : List Task) (bound : tasks.length < Numeral.wordLimit) :
    ∃ progress older newest, runTasks rotationSize disk tasks = .ok progress ∧
      progress.taken = tasks.foldl Task.takenAfter [] ∧
      progress.taken = (older ++ [newest]).flatMap BatchFile.batches ∧
      Log.files progress.disk =
        (.ok ((older ++ [newest]).map fun file => numbered file.stored), progress.disk) ∧
      (∀ file ∈ older ++ [newest], (∀ batch ∈ file.batches, batch.Sound) →
        (scan file.contents).batches = file.batches) ∧
      (∀ file ∈ older ++ [newest],
        file.contents.length ≤ rotationSize ∨ file.batches.length = 1) ∧
      (∃ first, (older ++ [newest]).map BatchFile.sequence =
        List.range' first (older ++ [newest]).length) ∧
      newest.sequence = progress.writer.sequence ∧
      (∀ file ∈ older, file.contents ≠ []) ∧
      progress.writer.size = newest.contents.length := by
  obtain ⟨first, opened, empty, started⟩ := rotated_start vacant rotationSize
  have low : first.writer.sequence = 0 := started.number.symm
  obtain ⟨progress, older, newest, done, taken, rotated⟩ := started.tasks tasks (by omega)
  rw [empty] at taken
  refine ⟨progress, older, newest, ?_, taken, rotated.taken, ?_, ?_, rotated.within, ?_,
    rotated.number, rotated.filled, rotated.attached.size⟩
  · rw [runTasks, opened]
    exact done
  · rw [files_of_holds rotated.attached.holds, ← rotated.number]
    simp only [List.map_append, List.map_map, List.map_singleton]
    rfl
  · intro file _ sound
    rw [BatchFile.contents, scan_written file.batches sound]
    rfl
  · obtain ⟨lowest, numbers, last⟩ := rotated.consecutive
    refine ⟨lowest, ?_⟩
    rw [List.map_append, numbers, List.map_singleton, last, List.length_append,
      List.length_singleton, List.range'_1_concat]

/-- A batch that is longer than the size between two that are not, another writer, and a checkpoint
that is longer as well, with a batch behind it. -/
theorem rotation_of_runTasks_of_long_batch :
    let small : Batch := ⟨1, [.createBucket [] [97]]⟩
    let long : Batch := ⟨2, [.createBucket [] [98], .createBucket [] [99]]⟩
    let store : Store := ⟨.durable, ⟨[([97], .bucket [])], 3⟩, 4, ⟨0, 0, 0, ⟨0⟩⟩⟩
    let before : List Task := [.append small, .append long, .resume, .append small]
    let after : List Task := before ++ [.checkpoint store, .resume, .append small]
    (∃ progress older newest, runTasks 100 (.empty "data") before = .ok progress ∧
      [small, long, small] = (older ++ [newest]).flatMap BatchFile.batches ∧
      ∀ file ∈ older ++ [newest],
        file.contents.length ≤ 100 ∨ file.batches.length = 1) ∧
    ∃ progress older newest, runTasks 100 (.empty "data") after = .ok progress ∧
      [⟨4, [.checkpoint, .createBucket [] [97]]⟩, small] =
        (older ++ [newest]).flatMap BatchFile.batches ∧
      ∀ file ∈ older ++ [newest],
        file.contents.length ≤ 100 ∨ file.batches.length = 1 := by
  intro small long store before after
  have vacant : Vacant (.empty "data") := .inl rfl
  constructor
  · obtain ⟨progress, older, newest, done, taken, parts, _, _, within, _⟩ :=
      rotation_of_runTasks vacant 100 before (by decide)
    have all : before.foldl Task.takenAfter [] = [small, long, small] := by decide +kernel
    rw [taken, all] at parts
    exact ⟨progress, older, newest, done, parts, within⟩
  · obtain ⟨progress, older, newest, done, taken, parts, _, _, within, _⟩ :=
      rotation_of_runTasks vacant 100 after (by decide)
    have all : after.foldl Task.takenAfter [] =
        [⟨4, [.checkpoint, .createBucket [] [97]]⟩, small] := by decide +kernel
    rw [taken, all] at parts
    exact ⟨progress, older, newest, done, parts, within⟩

end Progress

end Log

end ClusterRegistry
