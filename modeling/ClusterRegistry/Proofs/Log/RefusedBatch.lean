import ClusterRegistry.Proofs.Log.Appending

/-!
Batches that the writer cannot take.  A file that was opened for writing is there, so only the
encoding and the opening of the next file can refuse a batch, and both come before anything is
changed: whatever the log directory holds, an append that fails leaves the disk as it was.
-/
namespace ClusterRegistry

namespace Folder

variable {change : Option DiskEntry → Except DiskFault (Option DiskEntry)} {path : DiskPath}
  {folder later : Folder}

private theorem entry_of_alter (ok : alter change path folder = .ok later) :
    ∃ old new, change old = .ok new ∧ ∀ found, new = some found → entry path later = .ok found := by
  fun_induction alter change path folder generalizing later with
  | case1 folder => contradiction
  | case2 folder name =>
    obtain ⟨new, changed, ok⟩ := Outcome.bind_eq_ok.mp ok
    refine ⟨_, new, changed, ?_⟩
    rintro found rfl
    cases ok
    rw [entry, OrderedMap.find?_insert, if_pos rfl]
    cases found <;> rfl
  | case3 name path folder other absent => contradiction
  | case4 name path folder other contents found => contradiction
  | case5 name path folder other entries found ih =>
    obtain ⟨inner, altered, ok⟩ := Outcome.bind_eq_ok.mp ok
    obtain ⟨old, new, changed, leads⟩ := ih altered
    refine ⟨old, new, changed, ?_⟩
    intro found same
    cases ok
    rw [entry, OrderedMap.find?_insert, if_pos rfl]
    exact leads found same

private theorem alter_of_entry {old : DiskEntry} {new : Option DiskEntry} (present : path ≠ [])
    (found : entry path folder = .ok old) (changed : change (some old) = .ok new) :
    ∃ later, alter change path folder = .ok later := by
  fun_induction alter change path folder with
  | case1 folder => contradiction
  | case2 folder name =>
    rw [entry] at found
    split at found
    · contradiction
    · rename_i entries here
      cases found
      rw [here, changed]
      cases new <;> exact ⟨_, rfl⟩
    · rename_i contents here
      cases found
      rw [here, changed]
      cases new <;> exact ⟨_, rfl⟩
  | case3 name path folder other absent =>
    rw [entry, absent] at found
    contradiction
  | case4 name path folder other contents here =>
    rw [entry, here] at found
    dsimp only at found
    rw [if_neg other] at found
    contradiction
  | case5 name path folder other entries here ih =>
    rw [entry, here] at found
    obtain ⟨later, altered⟩ := ih other found
    exact ⟨_, by rw [altered]; rfl⟩

private theorem read_eq_ok {contents : Bytes} :
    read path folder = .ok contents ↔ entry path folder = .ok (.file contents) := by
  unfold read
  cases entry path folder with
  | error fault => simp [bind, Except.bind]
  | ok found => cases found <;> simp [bind, Except.bind, pure, Except.pure, throw]

private theorem read_of_write {change : Bytes → Bytes} (ok : write path change folder = .ok later) :
    ∃ contents, read path later = .ok contents := by
  obtain ⟨old, new, changed, leads⟩ := entry_of_alter ok
  unfold changeContents at changed
  split at changed
  · contradiction
  · contradiction
  · cases changed
    exact ⟨_, read_eq_ok.mpr (leads _ rfl)⟩

private theorem modify_of_read {contents : Bytes} (found : read path folder = .ok contents)
    (change : Bytes → Bytes) : ∃ later, modify path change folder = .ok later := by
  refine alter_of_entry ?_ (read_eq_ok.mp found) rfl
  rintro rfl
  contradiction

end Folder

namespace DiskM

variable {disk later : Disk} {error : StoreError} {path : DiskPath} {activity : String}

private theorem change_eq_error {operation : Disk → Except DiskFault Disk}
    (failed : change operation path activity disk = (.error error, later)) : later = disk := by
  unfold change at failed
  split at failed
  · cases failed
  · exact (congrArg Prod.snd failed).symm

theorem edit_eq_ok {operation : Folder → Except DiskFault Folder}
    (ok : edit operation path activity disk = (.ok (), later)) :
    ∃ top, operation disk.top = .ok top ∧ later = { disk with top } := by
  unfold edit change Disk.edit at ok
  cases made : operation disk.top with
  | error fault =>
    rw [made] at ok
    cases ok
  | ok top =>
    rw [made] at ok
    exact ⟨top, rfl, (congrArg Prod.snd ok).symm⟩

end DiskM

namespace Log.Writer

variable {disk later : Disk} {error : StoreError} {writer : Writer}

/-- The file that a writer has opened is there, under the name that it was opened by. -/
theorem openSequence_cases (sequence rotationSize : Nat) (disk : Disk) :
    (∃ error, openSequence sequence rotationSize disk = (.error error, disk)) ∨
      ∃ contents top, openSequence sequence rotationSize disk =
          (.ok ⟨sequence, contents.length, rotationSize, ⟨disk.opened.length⟩⟩,
            ⟨disk.place, top, disk.opened ++ [some (pathOf (fileName sequence))]⟩) ∧
        Folder.read (pathOf (fileName sequence)) top = .ok contents := by
  rcases made : DiskM.edit (Folder.write (pathOf (fileName sequence)) id)
    (pathOf (fileName sequence)) "Failed to open WAL file" disk with ⟨error | ⟨⟨⟩⟩, middle⟩
  · refine .inl ⟨error, ?_⟩
    unfold openSequence
    rw [DiskM.bind_of_error made, DiskM.change_eq_error made]
  · obtain ⟨top, written, rfl⟩ := DiskM.edit_eq_ok made
    obtain ⟨contents, found⟩ := Folder.read_of_write written
    refine .inr ⟨contents, top, ?_, found⟩
    unfold openSequence
    rw [DiskM.bind_of_ok made, DiskM.bind_of_ok (DiskM.view_of_ok found)]
    rfl

private theorem openSequence_eq_error {sequence rotationSize : Nat}
    (failed : openSequence sequence rotationSize disk = (.error error, later)) : later = disk := by
  obtain ⟨cause, same⟩ | ⟨contents, top, same, _⟩ := openSequence_cases sequence rotationSize disk
  · exact (congrArg Prod.snd (failed.symm.trans same))
  · cases failed.symm.trans same

private theorem write_of_openSequence {sequence rotationSize : Nat}
    (opened : openSequence sequence rotationSize disk = (.ok writer, later)) (data : Bytes) :
    ∃ next last, writer.write data later = (.ok next, last) := by
  obtain ⟨cause, same⟩ | ⟨contents, top, same, found⟩ :=
    openSequence_cases sequence rotationSize disk
  · cases opened.symm.trans same
  · cases opened.symm.trans same
    obtain ⟨last, modified⟩ := Folder.modify_of_read found (· ++ data)
    unfold write
    rw [DiskM.bind_of_ok (append_of_located (by simp [Disk.location]) modified)]
    exact ⟨_, _, rfl⟩

private theorem write_eq_error {data : Bytes}
    (failed : writer.write data disk = (.error error, later)) :
    later = disk := by
  unfold write at failed
  rcases done : DiskM.change (Disk.append writer.handle data) (pathOf writer.name)
    "WAL write failed" disk with ⟨cause | ⟨⟨⟩⟩, middle⟩
  · rw [DiskM.bind_of_error done] at failed
    cases failed
    exact DiskM.change_eq_error done
  · rw [DiskM.bind_of_ok done] at failed
    cases failed

/-- A batch that is refused leaves the disk as it was, be it that a record cannot be encoded or
that the next file cannot be opened: once that file is open, its bytes are taken. -/
theorem append_eq_error {records : List Record} {txid : Nat}
    (failed : writer.append records txid disk = (.error error, later)) : later = disk := by
  cases encoded : encodeBatch records txid with
  | error cause => exact congrArg Prod.snd (failed.symm.trans (append_of_refused encoded disk))
  | ok data =>
    unfold append at failed
    rw [DiskM.bind_of_ok (encoded_of_ok encoded)] at failed
    unfold rotate at failed
    split at failed
    · rcases opened : openSequence (writer.sequence + 1) writer.rotationSize disk with
        ⟨cause | fresh, middle⟩
      · rw [DiskM.bind_of_error opened] at failed
        cases failed
        exact openSequence_eq_error opened
      · obtain ⟨next, last, written⟩ := write_of_openSequence opened data
        rw [DiskM.bind_of_ok opened, written] at failed
        cases failed
    · exact write_eq_error failed

end Log.Writer

end ClusterRegistry
