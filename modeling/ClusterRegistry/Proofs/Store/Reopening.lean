import ClusterRegistry.Proofs.Log.CrashTail
import ClusterRegistry.Proofs.Store.Loading

/-!
Opening a store twice.  The first opening repairs the log, the second finds it whole: it publishes
the same and changes nothing on the disk.  Where the log does not replay, nothing is repaired.
-/
namespace ClusterRegistry

/-- Every path leads to the same file or directory as before, and a file holds the same bytes. -/
def Disk.SameFiles (disk later : Disk) : Prop :=
  ∀ path, Folder.read path later.top = Folder.read path disk.top

namespace Disk.SameFiles

variable {disk middle later : Disk}

private theorem of_top (same : later.top = disk.top) : disk.SameFiles later := by
  intro path
  rw [same]

theorem trans (first : disk.SameFiles middle) (second : middle.SameFiles later) :
    disk.SameFiles later :=
  fun path => (second path).trans (first path)

end Disk.SameFiles

namespace DiskM

variable {α β : Type} {disk later : Disk}

/-- The operation leaves all files as they are. -/
def Keeps (operation : DiskM α) (disk : Disk) : Prop :=
  disk.SameFiles (operation disk).2

private theorem keeps_of_eq {operation : DiskM α} {outcome : Except StoreError α}
    (done : operation disk = (outcome, later)) : operation.Keeps disk ↔ disk.SameFiles later := by
  rw [Keeps, done]

theorem Keeps.after {first : DiskM α} {next : α → DiskM β} {value : α}
    (ok : first disk = (.ok value, later)) (same : disk.SameFiles later)
    (further : (next value).Keeps later) : (first >>= next).Keeps disk := by
  rw [Keeps, bind_of_ok ok]
  exact same.trans further

end DiskM

namespace Log

variable {disk later : Disk} {files older : List (Nat × Bytes)} {sequence : Nat} {contents : Bytes}

private theorem read_within {top entries : Folder}
    (inside : OrderedMap.find? "wal" top = some (.folder entries)) (path : DiskPath) :
    Folder.read path (within entries top) = Folder.read path top := by
  cases path with
  | nil => rfl
  | cons name path =>
    have same : OrderedMap.find? name (within entries top) = OrderedMap.find? name top := by
      rw [within, OrderedMap.find?_insert]
      split
      · rename_i own
        rw [own, inside]
      · rfl
    simp only [Folder.read, Folder.entry, same]

private theorem sameFiles_makeFolder (holds : Holds disk files)
    (done : makeFolder disk = (.ok (), later)) : disk.SameFiles later := by
  obtain ⟨entries, inside, _⟩ := holds
  cases (makeFolder_of_folder inside).symm.trans done
  exact read_within inside

private theorem keeps_openSequence (holds : Holds disk files)
    (member : (sequence, contents) ∈ files)
    (rotationSize : Nat) : (Writer.openSequence sequence rotationSize).Keeps disk := by
  obtain ⟨entries, inside, listing⟩ := holds
  have opened := openSequence_of_file inside listing.ordered (listing.stored_of_mem member)
    rotationSize
  exact (DiskM.keeps_of_eq opened).mpr (read_within inside)

private theorem keeps_openNewest (holds : Holds disk (older ++ [(sequence, contents)]))
    (rotationSize : Nat) : (Writer.openNewest rotationSize).Keeps disk := by
  obtain ⟨made, folder, again⟩ := makeFolder_of_holds holds
  refine .after folder (sameFiles_makeFolder holds folder) ?_
  refine .after (files_of_holds again) (.of_top rfl) ?_
  rw [List.map_append, List.map_singleton, List.getLast?_concat]
  exact keeps_openSequence again (List.mem_append_right _ List.mem_cons_self) rotationSize

end Log

namespace Store

variable {disk : Disk} {config : Config} {files : List (Nat × Bytes)} {published : Snapshot}

/-- The newest log file ends behind a batch, and the log leads to `published`. -/
def Settled (disk : Disk) (published : Snapshot) : Prop :=
  ∃ older sequence contents, Log.Holds disk (older ++ [(sequence, contents)]) ∧
    (Log.scan contents).uncommitted = [] ∧
    replay (Log.batchesOf older ++ (Log.scan contents).batches) = .ok published

theorem Settled.load (settled : Settled disk published) (valid : config.validate = .ok ()) :
    ∃ writer later, load config disk =
        (.ok ⟨config, published, published.txid + 1, writer⟩, later) ∧ disk.SameFiles later := by
  obtain ⟨older, sequence, contents, holds, whole, ok⟩ := settled
  obtain ⟨made, folder, again⟩ := Log.makeFolder_of_holds holds
  obtain ⟨writer, later, opened, _⟩ := Log.openNewest_of_holds again config.rotationSize
  have kept := (DiskM.keeps_of_eq opened).mp (Log.keeps_openNewest again config.rotationSize)
  have replayed : replay (Log.recovered (older ++ [(sequence, contents)])).batches =
      .ok published := by rw [Log.recovered_committed, ok]
  have clean : ∀ tail, (Log.recovered (older ++ [(sequence, contents)])).tail = some tail →
      tail.isClean := by
    rw [Log.recovered_committed, Log.committed_of_settled whole]
    intro tail same
    cases same
    exact decide_eq_true rfl
  exact ⟨writer, later, load_of_steps valid folder (Log.recover_of_holds again) replayed
    (cutTail_of_clean clean) opened, (Log.sameFiles_makeFolder holds folder).trans kept⟩

private theorem load_settles (valid : config.validate = .ok ()) (holds : Log.Holds disk files)
    (ok : replay (Log.recovered files).batches = .ok published) :
    ∃ writer later, load config disk =
        (.ok ⟨config, published, published.txid + 1, writer⟩, later) ∧ Settled later published := by
  rcases List.eq_nil_or_concat files with rfl | ⟨older, ⟨sequence, contents⟩, rfl⟩
  · obtain ⟨made, folder, holds⟩ := Log.makeFolder_of_holds holds
    obtain ⟨writer, later, opened, _, _, attached⟩ := load_of_made valid folder holds
    have empty : Log.scan [] = Log.Scan.border [] [] := by
      rw [Log.scan_eq, Log.Scan.run_nil]
      rfl
    cases ok
    refine ⟨writer, later, opened, [], writer.sequence, [], attached.holds, ?_, ?_⟩
    · rw [empty]
      rfl
    · rw [empty]
      rfl
  · rw [List.concat_eq_append] at holds ok
    rw [Log.recovered_committed] at ok
    obtain ⟨writer, later, opened, _, attached⟩ := load_of_files valid holds ok
    refine ⟨writer, later, opened, older, writer.sequence, _, attached.holds, ?_, ?_⟩
    · rw [Log.scan_committed]
      rfl
    · rw [Log.scan_committed]
      exact ok

private theorem load_of_invalid {error : StoreError} (invalid : config.validate = .error error) :
    load config disk = (.error error, disk) := by
  have refused : (liftM config.validate : DiskM Unit) disk = (.error error, disk) := by
    rw [invalid]
    rfl
  unfold load
  rw [DiskM.bind_of_error refused]

/-- Over log files of any bytes, recovery is not changed by its own repair: once the newest file is
cut to the length that recovery reports, it finds the same batches and a clean tail of that length.
So a store that has opened opens again, with the same tree and number, and changes no file; and one
that does not open, be it for the config or since a batch does not replay, has changed none. -/
theorem recover_repaired (holds : Log.Holds disk files) :
    ∃ recovery, Log.recover disk = (.ok recovery, disk) ∧
      (∀ older sequence contents, files = older ++ [(sequence, contents)] →
        ∃ committed shortened,
          recovery.tail = some ⟨Log.fileName sequence, committed, contents.length⟩ ∧
          Log.Tail.cut ⟨Log.fileName sequence, committed, contents.length⟩ disk =
            (.ok (), shortened) ∧
          Log.recover shortened = (.ok ⟨recovery.batches,
            some ⟨Log.fileName sequence, committed, committed⟩⟩, shortened)) ∧
      (∀ config store later, load config disk = (.ok store, later) →
        config.validate = .ok () ∧ replay recovery.batches = .ok store.published ∧
          ∀ other, other.validate = .ok () → ∃ again final, load other later = (.ok again, final) ∧
            again.published = store.published ∧ later.SameFiles final) ∧
      ∀ config error later, load config disk = (.error error, later) →
        (config.validate = .error error ∨ ∃ cause, replay recovery.batches = .error cause) ∧
          disk.SameFiles later := by
  refine ⟨_, Log.recover_of_holds holds, ?_, ?_, ?_⟩
  · intro older sequence contents same
    subst same
    obtain ⟨shortened, cut, _, found⟩ := Log.recover_cut holds
    rw [Log.recovered_committed]
    exact ⟨_, shortened, rfl, cut, found⟩
  · intro config store later opened
    cases valid : config.validate with
    | error error => cases (load_of_invalid valid).symm.trans opened
    | ok _ =>
      cases replayed : replay (Log.recovered files).batches with
      | error cause =>
        obtain ⟨_, _, refused⟩ := load_of_unreplayed valid holds replayed
        cases refused.symm.trans opened
      | ok published =>
        obtain ⟨writer, _, done, settled⟩ := load_settles valid holds replayed
        cases done.symm.trans opened
        refine ⟨rfl, rfl, fun other otherValid => ?_⟩
        obtain ⟨_, final, again, same⟩ := settled.load otherValid
        exact ⟨_, final, again, rfl, same⟩
  · intro config error later failed
    cases valid : config.validate with
    | error cause =>
      cases (load_of_invalid valid).symm.trans failed
      exact ⟨.inl rfl, .of_top rfl⟩
    | ok _ =>
      cases replayed : replay (Log.recovered files).batches with
      | error cause =>
        obtain ⟨made, folder, refused⟩ := load_of_unreplayed valid holds replayed
        cases refused.symm.trans failed
        exact ⟨.inr ⟨cause, rfl⟩, Log.sameFiles_makeFolder holds folder⟩
      | ok published =>
        obtain ⟨_, _, done, _⟩ := load_settles valid holds replayed
        cases done.symm.trans failed

theorem recover_repaired_of_torn_record :
    let batch : Log.Batch := ⟨1, [.createBucket [] [97]]⟩
    let torn := (Record.put [[97]] [107] [118]).written.take 20
    let disk : Disk :=
      ⟨"data", Log.within [(Log.fileName 0, .file (batch.written ++ torn))] [], []⟩
    Log.Holds disk [(0, batch.written ++ torn)] ∧
    ∃ recovery committed shortened, Log.recover disk = (.ok recovery, disk) ∧
      recovery.tail = some ⟨Log.fileName 0, committed, (batch.written ++ torn).length⟩ ∧
      Log.Tail.cut ⟨Log.fileName 0, committed, (batch.written ++ torn).length⟩ disk =
        (.ok (), shortened) ∧
      Log.recover shortened = (.ok ⟨recovery.batches,
        some ⟨Log.fileName 0, committed, committed⟩⟩, shortened) ∧
      ∃ store later again final, load .durable disk = (.ok store, later) ∧
        load .relaxed later = (.ok again, final) ∧ again.published = store.published ∧
        later.SameFiles final := by
  intro batch torn disk
  have holds : Log.Holds disk [(0, batch.written ++ torn)] :=
    Log.holds_within [] rfl (Log.listing_nil.insert 0 (batch.written ++ torn) (by decide))
  obtain ⟨recovery, found, repaired, opened, failed⟩ := recover_repaired holds
  obtain ⟨committed, shortened, tail, cut, again⟩ := repaired [] 0 _ rfl
  have batches : replay recovery.batches = .ok ⟨[([97], .bucket [])], 1⟩ := by
    have sound : ∀ each ∈ [batch], each.Sound := by
      intro each member
      rw [List.mem_singleton.mp member]
      exact Log.Batch.Proper.sound ⟨by decide, by decide⟩
        (show Log.encodeBatch batch.records batch.txid = .ok batch.written by rfl)
    have free : Log.CommitFree torn := by decide +kernel
    cases (Log.recover_of_holds holds).symm.trans found
    rw [Log.recovered_batches, List.flatMap_singleton,
      ← List.flatMap_singleton Log.Batch.written batch, Log.scan_written_append _ _ sound,
      (Log.Scan.run_of_commitFree _ _ free).1]
    rfl
  refine ⟨holds, recovery, committed, shortened, found, tail, cut, again, ?_⟩
  rcases done : load .durable disk with ⟨error | store, later⟩
  · obtain ⟨invalid | ⟨cause, bad⟩, _⟩ := failed _ _ _ done
    · contradiction
    · cases batches.symm.trans bad
  · obtain ⟨_, _, further⟩ := opened _ _ _ done
    obtain ⟨second, final, reopened, same, kept⟩ := further .relaxed rfl
    exact ⟨store, later, second, final, rfl, reopened, same, kept⟩

end Store

end ClusterRegistry
