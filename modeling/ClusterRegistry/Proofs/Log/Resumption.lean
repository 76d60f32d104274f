import ClusterRegistry.Proofs.Log.CrashTail

/-!
A log that is written from an empty directory on, by one writer after another.  Each writer goes on
where the one before it stopped, in the newest file, and rotates by a size of its own; what has been
taken so far is always what recovery finds.
-/
namespace ClusterRegistry.Log

/-- There is no log directory, or one that is empty. -/
def Vacant (disk : Disk) : Prop :=
  OrderedMap.find? "wal" disk.top = none ∨ OrderedMap.find? "wal" disk.top = some (.folder [])

theorem openNewest_of_vacant {disk : Disk} (vacant : Vacant disk) (rotationSize : Nat) :
    ∃ writer later, Writer.openNewest rotationSize disk = (.ok writer, later) ∧
      writer.sequence = 0 ∧ writer.rotationSize = rotationSize ∧ Attached later writer [] [] := by
  obtain ⟨made, folder, holds⟩ : ∃ made, makeFolder disk = (.ok (), made) ∧ Holds made [] := by
    rcases vacant with absent | bare
    · exact makeFolder_of_absent absent
    · exact makeFolder_of_holds ⟨[], bare, listing_nil⟩
  exact openNewest_of_made folder holds rotationSize

inductive Call where
  | append (batch : Batch)
  /-- Let go of the writer and make another one. -/
  | resume (rotationSize : Nat)

/-- The batch that is in the log after a call and was not before. -/
def Call.taken? : Call → Option Batch
  | .append batch => if batch.accepted then some batch else none
  | .resume _ => none

private theorem Call.taken?_of_accepted {batch : Batch} (accepted : batch.accepted = true) :
    (append batch).taken? = some batch :=
  if_pos accepted

private theorem Call.taken?_of_refused {batch : Batch} (refused : batch.accepted = false) :
    (append batch).taken? = none :=
  if_neg (by rw [refused]; exact Bool.false_ne_true)

/-- The batches whose append succeeded, in that order, with the writer and the disk. -/
structure Progress where
  taken : List Batch
  writer : Writer
  disk : Disk

namespace Progress

def resume (taken : List Batch) (rotationSize : Nat) (disk : Disk) : Except StoreError Progress :=
  match Writer.openNewest rotationSize disk with
  | (.ok writer, disk) => .ok ⟨taken, writer, disk⟩
  | (.error error, _) => .error error

/-- After an append that fails the writer is there to go on with, but without one that could be
made there is no log to write. -/
def call (progress : Progress) : Call → Except StoreError Progress
  | .append batch =>
    match progress.writer.append batch.records batch.txid progress.disk with
    | (.ok writer, disk) => .ok ⟨progress.taken ++ [batch], writer, disk⟩
    | (.error _, disk) => .ok ⟨progress.taken, progress.writer, disk⟩
  | .resume rotationSize => resume progress.taken rotationSize progress.disk

def run (rotationSize : Nat) (disk : Disk) (calls : List Call) : Except StoreError Progress := do
  calls.foldlM call (← resume [] rotationSize disk)

/-- The log holds exactly what was taken, and the writer stands behind it. -/
def Settled (progress : Progress) : Prop :=
  Ready progress.disk progress.writer progress.taken

private theorem settled_start {disk : Disk} (vacant : Vacant disk) (rotationSize : Nat) :
    ∃ progress, resume [] rotationSize disk = .ok progress ∧ progress.Settled ∧
      progress.taken = [] ∧ progress.writer.sequence = 0 := by
  obtain ⟨writer, later, opened, sequence, _, attached⟩ :=
    openNewest_of_vacant vacant rotationSize
  refine ⟨⟨[], writer, later⟩, by rw [resume, opened], ?_, rfl, sequence⟩
  exact ⟨[], [], by simp, attached, rfl⟩

namespace Settled

variable {progress : Progress}

theorem call (settled : progress.Settled) (call : Call)
    (proper : ∀ batch, call = .append batch → batch.Proper)
    (bound : progress.writer.sequence + 1 < Numeral.wordLimit) :
    ∃ next, progress.call call = .ok next ∧ next.Settled ∧
      next.taken = progress.taken ++ call.taken?.toList ∧
      next.writer.sequence ≤ progress.writer.sequence + 1 := by
  cases call with
  | append batch =>
    rcases Ready.offer settled (proper batch rfl) bound with
      ⟨accepted, writer, later, appended, sequence, ready⟩ | ⟨refused, error, failed⟩
    · refine ⟨⟨progress.taken ++ [batch], writer, later⟩, ?_, ready, ?_, sequence⟩
      · rw [Progress.call, appended]
      · rw [Call.taken?_of_accepted accepted]
        rfl
    · refine ⟨progress, ?_, settled, ?_, Nat.le_succ _⟩
      · rw [Progress.call, failed]
      · rw [Call.taken?_of_refused refused]
        exact (List.append_nil _).symm
  | resume rotationSize =>
    obtain ⟨writer, later, opened, sequence, ready⟩ := Ready.resume settled rotationSize
    refine ⟨⟨progress.taken, writer, later⟩, ?_, ready, (List.append_nil _).symm, ?_⟩
    · rw [Progress.call, Progress.resume, opened]
    · exact Nat.le_succ_of_le (Nat.le_of_eq sequence)

theorem calls (settled : progress.Settled) (calls : List Call)
    (proper : ∀ batch, .append batch ∈ calls → batch.Proper)
    (bound : progress.writer.sequence + calls.length < Numeral.wordLimit) :
    ∃ last, calls.foldlM Progress.call progress = .ok last ∧ last.Settled ∧
      last.taken = progress.taken ++ calls.filterMap Call.taken? := by
  induction calls generalizing progress with
  | nil => exact ⟨progress, rfl, settled, (List.append_nil _).symm⟩
  | cons call calls ih =>
    rw [List.length_cons] at bound
    obtain ⟨next, done, settled, taken, sequence⟩ := settled.call call
      (fun batch same => proper batch (same ▸ List.mem_cons_self)) (by omega)
    obtain ⟨last, rest, settled, found⟩ := ih settled
      (fun batch member => proper batch (List.mem_cons_of_mem _ member)) (by omega)
    refine ⟨last, ?_, settled, ?_⟩
    · rw [List.foldlM_cons, done]
      exact rest
    · rw [found, taken, List.append_assoc]
      cases kept : call.taken? with
      | none => rw [List.filterMap_cons_none kept]; rfl
      | some batch => rw [List.filterMap_cons_some kept]; rfl

end Settled

/-- Batches of any records but commit records, taken or refused, by one writer after another:
recovery returns those that were taken, one by one and in their order, and behind them the newest
file ends.  Which are taken depends on nothing but their own records.  There are fewer calls than
numbers for files, which are 64-bit words. -/
theorem recover_taken {disk : Disk} (vacant : Vacant disk) (rotationSize : Nat) (calls : List Call)
    (proper : ∀ batch, .append batch ∈ calls → batch.Proper)
    (bound : calls.length < Numeral.wordLimit) :
    ∃ progress tail, run rotationSize disk calls = .ok progress ∧
      progress.taken = calls.filterMap Call.taken? ∧
      recover progress.disk = (.ok ⟨progress.taken, some tail⟩, progress.disk) ∧
      tail.isClean := by
  obtain ⟨first, opened, settled, empty, sequence⟩ := settled_start vacant rotationSize
  obtain ⟨last, done, settled, taken⟩ := settled.calls calls proper (by rw [sequence]; omega)
  rw [empty, List.nil_append] at taken
  refine ⟨last, _, ?_, taken, Ready.recover settled, decide_eq_true rfl⟩
  rw [run, opened]
  exact done

theorem recover_taken_of_refused :
    let first : Batch := ⟨7, [.put [] [107] (Record.commit 3).written, .checkpoint]⟩
    let refused : Batch := ⟨8, [.put [] (List.replicate 65536 0) []]⟩
    let bare : Batch := ⟨7, []⟩
    let calls : List Call := [.append first, .resume 0, .append refused, .append bare]
    ∃ progress tail, run 65536 (.empty "data") calls = .ok progress ∧
      recover progress.disk = (.ok ⟨[first, bare], some tail⟩, progress.disk) ∧
      tail.isClean := by
  intro first refused bare calls
  have proper : ∀ batch, .append batch ∈ calls → batch.Proper := by
    intro batch member
    have given : batch = first ∨ batch = refused ∨ batch = bare := by simpa [calls] using member
    rcases given with rfl | rfl | rfl
    · exact ⟨by decide, by decide⟩
    · refine ⟨by decide, fun record member => ?_⟩
      rw [List.mem_singleton.mp member]
      exact nofun
    · exact ⟨by decide, by decide⟩
  have long : refused.accepted = false := by
    cases encoded : encodeBatch refused.records refused.txid with
    | error error => rw [Batch.accepted, encoded]; rfl
    | ok data =>
      have short : (List.replicate 65536 (0 : UInt8)).length ≤ Record.shortLimit :=
        ((encodeBatch_eq_ok.mp encoded).1 _ List.mem_cons_self).key
      rw [List.length_replicate] at short
      exact absurd short (by decide)
  obtain ⟨progress, tail, done, taken, found, clean⟩ :=
    recover_taken (show Vacant (.empty "data") from .inl rfl) 65536 calls proper (by decide)
  have kept : progress.taken = [first, bare] := by
    have firstTaken : (Call.append first).taken? = some first := Call.taken?_of_accepted rfl
    have resumed : (Call.resume 0).taken? = none := rfl
    have bareTaken : (Call.append bare).taken? = some bare := Call.taken?_of_accepted rfl
    rw [taken, List.filterMap_cons_some firstTaken, List.filterMap_cons_none resumed,
      List.filterMap_cons_none (Call.taken?_of_refused long), List.filterMap_cons_some bareTaken,
      List.filterMap_nil]
  rw [kept] at found
  exact ⟨progress, tail, done, found, clean⟩

end Progress

end ClusterRegistry.Log
