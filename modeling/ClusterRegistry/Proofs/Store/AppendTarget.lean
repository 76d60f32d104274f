import ClusterRegistry.Proofs.Log.CrashTail
import ClusterRegistry.Proofs.Log.Extension
import ClusterRegistry.Proofs.Log.Inventory
import ClusterRegistry.Proofs.Log.RefusedBatch
import ClusterRegistry.Proofs.Store.Loading
import ClusterRegistry.Proofs.Tree.Transaction

/-!
The file that the next batch goes to, over a log directory with anything in it.  Recovery cuts the
file that it lists last; the writer opens the file that bears the same number in its own name.  A
number that is spelled in more than one way makes these two files, and then what the second one has
behind its last commit record stays there, in front of the next batch.
-/
namespace ClusterRegistry

namespace Log

variable {disk later : Disk} {entries : Folder}

private theorem makeFolder_eq_ok (done : makeFolder disk = (.ok (), later)) :
    ∃ entries, OrderedMap.find? "wal" later.top = some (.folder entries) ∧
      (OrderedMap.find? "wal" disk.top = some (.folder entries) ∨
        OrderedMap.find? "wal" disk.top = none ∧ entries = []) := by
  obtain ⟨top, made, rfl⟩ := DiskM.edit_eq_ok done
  unfold folderPath Folder.makeFolders at made
  split at made
  · rename_i absent
    cases made
    exact ⟨[], find?_within _ _, .inr ⟨absent, rfl⟩⟩
  · rename_i entries inside
    cases made
    exact ⟨entries, find?_within _ _, .inl inside⟩
  · contradiction

theorem recoverFile_eq_ok {recovery next : Recovery} {file : File}
    (done : recoverFile recovery file disk = (.ok next, later)) :
    later = disk ∧ ∃ contents, file.entry = .file contents ∧
      next = recovery.addContents file.name contents := by
  unfold recoverFile at done
  cases kind : file.entry with
  | file contents =>
    rw [kind] at done
    cases done
    exact ⟨rfl, contents, rfl, rfl⟩
  | folder inner =>
    rw [kind] at done
    cases done

/-- The tail is that of the file that is read last. -/
theorem foldlM_recoverFile_eq_ok {front : List File} {last : File} {recovery result : Recovery}
    (done : (front ++ [last]).foldlM recoverFile recovery disk = (.ok result, later)) :
    later = disk ∧ ∃ contents, last.entry = .file contents ∧
      result.tail = some ⟨last.name, (committed contents).length, contents.length⟩ := by
  induction front generalizing recovery with
  | nil =>
    rw [List.nil_append, List.foldlM_cons] at done
    obtain ⟨next, middle, first, rest⟩ := DiskM.bind_eq_ok.mp done
    obtain ⟨rfl, contents, kind, rfl⟩ := recoverFile_eq_ok first
    cases rest
    exact ⟨rfl, contents, kind, by rw [length_committed]; rfl⟩
  | cons file front ih =>
    rw [List.cons_append, List.foldlM_cons] at done
    obtain ⟨next, middle, first, rest⟩ := DiskM.bind_eq_ok.mp done
    obtain ⟨rfl, -⟩ := recoverFile_eq_ok first
    exact ih rest

section Numbers

variable {name : String} {entry : DiskEntry} {sequence limit : Nat}

private theorem sequence_le_of_insert (number : sequence? name = some sequence)
    (inside : sequence ≤ limit)
    (below : ∀ file ∈ filesOf entries, file.sequence ≤ limit) :
    ∀ file ∈ filesOf (OrderedMap.insert name entry entries), file.sequence ≤ limit := by
  intro file member
  obtain ⟨read, stored⟩ := mem_filesOf.mp member
  rcases OrderedMap.mem_insert stored with new | old
  · rw [(Prod.mk.inj new).1, number] at read
    rwa [← Option.some.inj read]
  · exact below file (mem_filesOf.mpr ⟨read, old⟩)

private theorem newest_of_highest {file : File} (member : file ∈ filesOf entries)
    (number : file.sequence = limit) (below : ∀ other ∈ filesOf entries, other.sequence ≤ limit) :
    (filesOf entries).getLast?.map File.sequence = some limit := by
  cases newest : (filesOf entries).getLast? with
  | none =>
    rw [List.getLast?_eq_none_iff.mp newest] at member
    contradiction
  | some last =>
    have above := sequence_le_getLast newest member
    have within := below last (List.mem_of_getLast? newest)
    exact congrArg some (Nat.le_antisymm within (number ▸ above))

/-- Other contents under the name of the newest log file leave its number the highest. -/
theorem newest_of_insert {newest : File} (last : (filesOf entries).getLast? = some newest)
    (entry : DiskEntry) :
    (filesOf (OrderedMap.insert newest.name entry entries)).getLast?.map File.sequence =
      some newest.sequence := by
  have number := (mem_filesOf.mp (List.mem_of_getLast? last)).1
  have member : (⟨newest.sequence, newest.name, entry⟩ : File) ∈
      filesOf (OrderedMap.insert newest.name entry entries) :=
    mem_filesOf.mpr ⟨number, OrderedMap.mem_of_find? (by rw [OrderedMap.find?_insert, if_pos rfl])⟩
  exact newest_of_highest member rfl (sequence_le_of_insert number (Nat.le_refl _)
    fun file listed => sequence_le_getLast last listed)

end Numbers

/-- The writer appends to a file that holds `contents`, and no log file has a higher number,
whatever else is in the log directory. -/
structure Targets (disk : Disk) (writer : Writer) (contents : Bytes) : Prop where
  holds : ∃ entries, OrderedMap.find? "wal" disk.top = some (.folder entries) ∧
    OrderedMap.find? (fileName writer.sequence) entries = some (.file contents) ∧
    ∀ file ∈ filesOf entries, file.sequence ≤ writer.sequence
  located : disk.location writer.handle = some (pathOf writer.name)
  size : writer.size = contents.length

private theorem targets_of_openSequence
    (inside : OrderedMap.find? "wal" disk.top = some (.folder entries))
    {sequence : Nat} {contents : Bytes} (bound : sequence < Numeral.wordLimit)
    (below : ∀ file ∈ filesOf entries, file.sequence ≤ sequence)
    (found : (OrderedMap.find? (fileName sequence) entries).getD (.file []) = .file contents)
    (rotationSize : Nat) :
    ∃ writer later, Writer.openSequence sequence rotationSize disk = (.ok writer, later) ∧
      writer.sequence = sequence ∧ Targets later writer contents := by
  refine ⟨_, _, openSequence_of_entries inside found rotationSize, rfl, ?_, ?_, rfl⟩
  · refine ⟨_, find?_within _ _, by rw [OrderedMap.find?_insert, if_pos rfl], ?_⟩
    exact sequence_le_of_insert (sequence?_fileName sequence bound) (Nat.le_refl _) below
  · exact location_of_opened _ _ _

private theorem openSequence_of_folder {inner : Folder} {sequence : Nat}
    (inside : OrderedMap.find? "wal" disk.top = some (.folder entries))
    (taken : OrderedMap.find? (fileName sequence) entries = some (.folder inner))
    (rotationSize : Nat) :
    ∃ error, Writer.openSequence sequence rotationSize disk = (.error error, disk) := by
  have refused : Folder.write (pathOf (fileName sequence)) id disk.top = .error .isDirectory :=
    alter_of_error inside (by rw [taken]; rfl)
  unfold Writer.openSequence
  rw [DiskM.bind_of_error (by rw [DiskM.edit, DiskM.change, Disk.edit, refused]; rfl)]
  exact ⟨_, rfl⟩

private theorem openNewest_of_folder
    (inside : OrderedMap.find? "wal" disk.top = some (.folder entries))
    (rotationSize : Nat) :
    Writer.openNewest rotationSize disk =
      Writer.openSequence (((filesOf entries).getLast?.map File.sequence).getD 0) rotationSize
        { disk with top := within entries disk.top } := by
  unfold Writer.openNewest
  rw [DiskM.bind_of_ok (makeFolder_of_folder inside),
    DiskM.bind_of_ok (files_of_folder (find?_within _ _))]

/-- The writer goes on in the file that bears the highest number as its own name, or in a new one. -/
theorem targets_of_openNewest {writer : Writer} {rotationSize : Nat}
    (inside : OrderedMap.find? "wal" disk.top = some (.folder entries))
    (opened : Writer.openNewest rotationSize disk = (.ok writer, later)) :
    ∃ contents, writer.sequence = ((filesOf entries).getLast?.map File.sequence).getD 0 ∧
      (OrderedMap.find? (fileName writer.sequence) entries).getD (.file []) = .file contents ∧
      Targets later writer contents := by
  have here : OrderedMap.find? "wal" (Disk.mk disk.place (within entries disk.top)
      disk.opened).top = some (.folder entries) := find?_within _ _
  rw [openNewest_of_folder inside] at opened
  obtain ⟨bound, below⟩ : ((filesOf entries).getLast?.map File.sequence).getD 0 <
      Numeral.wordLimit ∧ ∀ file ∈ filesOf entries,
        file.sequence ≤ ((filesOf entries).getLast?.map File.sequence).getD 0 := by
    cases newest : (filesOf entries).getLast? with
    | none =>
      rw [List.getLast?_eq_none_iff.mp newest]
      exact ⟨by decide, nofun⟩
    | some last =>
      exact ⟨sequence?_lt (mem_filesOf.mp (List.mem_of_getLast? newest)).1,
        fun file member => sequence_le_getLast newest member⟩
  generalize ((filesOf entries).getLast?.map File.sequence).getD 0 = sequence at opened bound below
  cases found : (OrderedMap.find? (fileName sequence) entries).getD (.file []) with
  | folder inner =>
    obtain ⟨entry, stored, rfl⟩ : ∃ entry, OrderedMap.find? (fileName sequence) entries =
        some entry ∧ entry = .folder inner := by
      cases stored : OrderedMap.find? (fileName sequence) entries with
      | none => rw [stored] at found; contradiction
      | some entry => rw [stored] at found; exact ⟨entry, rfl, found⟩
    obtain ⟨error, refused⟩ := openSequence_of_folder here stored rotationSize
    cases refused.symm.trans opened
  | file contents =>
    obtain ⟨_, _, done, same, targets⟩ :=
      targets_of_openSequence here bound below found rotationSize
    cases done.symm.trans opened
    exact ⟨contents, same, by rw [same]; exact found, targets⟩

namespace Targets

variable {writer : Writer} {contents : Bytes}

theorem read (targets : Targets disk writer contents) :
    Folder.read (pathOf writer.name) disk.top = .ok contents := by
  obtain ⟨entries, inside, found, _⟩ := targets.holds
  exact read_eq inside found

theorem write (targets : Targets disk writer contents) (bound : writer.sequence < Numeral.wordLimit)
    (data : Bytes) :
    ∃ next later, writer.write data disk = (.ok next, later) ∧
      next.sequence = writer.sequence ∧ Targets later next (contents ++ data) := by
  obtain ⟨⟨entries, inside, found, below⟩, located, size⟩ := targets
  refine ⟨_, _, write_of_entries inside found located data, rfl, ?_, located, by simp [size]⟩
  refine ⟨_, find?_within _ _, by rw [OrderedMap.find?_insert, if_pos rfl], ?_⟩
  exact sequence_le_of_insert (sequence?_fileName _ bound) (Nat.le_refl _) below

theorem openNext (targets : Targets disk writer contents)
    (bound : writer.sequence + 1 < Numeral.wordLimit) :
    ∃ next later, Writer.openSequence (writer.sequence + 1) writer.rotationSize disk =
        (.ok next, later) ∧ next.sequence = writer.sequence + 1 ∧ Targets later next [] := by
  obtain ⟨entries, inside, _, below⟩ := targets.holds
  have absent := find?_fileName_of_above (fun file member => Nat.lt_succ_of_le (below file member))
    bound
  exact targets_of_openSequence inside bound (fun file member => Nat.le_succ_of_le (below file member))
    (by rw [absent]; rfl) writer.rotationSize

/-- A batch is written behind what the file holds, or into a new file. -/
theorem append (targets : Targets disk writer contents) {batch : Batch} (sound : batch.Sound)
    (bound : writer.sequence + 1 < Numeral.wordLimit) :
    ∃ next later, writer.append batch.records batch.txid disk = (.ok next, later) ∧
      Targets later next
        ((if next.sequence = writer.sequence then contents else []) ++ batch.written) := by
  by_cases full : 0 < writer.size ∧ writer.rotationSize < writer.size + batch.written.length
  · obtain ⟨fresh, middle, opened, sequence, empty⟩ := targets.openNext bound
    obtain ⟨next, later, written, same, grown⟩ := empty.write (sequence ▸ bound) batch.written
    refine ⟨next, later, by rw [append_of_full sound.encoded full opened, written], ?_⟩
    rwa [if_neg (by rw [same, sequence]; exact Nat.succ_ne_self _)]
  · obtain ⟨next, later, written, same, grown⟩ :=
      targets.write (Nat.lt_of_succ_lt bound) batch.written
    refine ⟨next, later, by rw [append_of_room sound.encoded full, written], ?_⟩
    rwa [if_pos same]

end Targets

/-- The file that is listed last bears its own name, or the file that does ends behind a commit
record. -/
def CutsTarget (disk : Disk) : Prop :=
  ∀ files newest stale, Log.files disk = (.ok files, disk) → files.getLast? = some newest →
    Folder.read (pathOf (fileName newest.sequence)) disk.top = .ok stale →
    newest.name = fileName newest.sequence ∨ (scan stale).uncommitted = []

private theorem cutsTarget_of_folder
    (inside : OrderedMap.find? "wal" disk.top = some (.folder entries)) :
    CutsTarget disk ↔ ∀ newest stale, (filesOf entries).getLast? = some newest →
      OrderedMap.find? (fileName newest.sequence) entries = some (.file stale) →
      newest.name = fileName newest.sequence ∨ (scan stale).uncommitted = [] := by
  have listed := files_of_folder inside
  constructor
  · intro cuts newest stale last found
    exact cuts _ newest stale listed last (read_eq inside found)
  · intro cuts files newest stale same last found
    cases listed.symm.trans same
    exact cuts newest stale last ((read_pathOf inside).mp found)

private theorem settled_nil : (scan []).uncommitted = [] := by
  rw [scan_eq, Scan.run_nil]
  rfl

/-- What the name of a number leads to once the file that is listed last is cut. -/
theorem settled_of_cut {number : Nat} {name : String} {contents found : Bytes}
    (stored : (OrderedMap.find? (fileName number)
      (OrderedMap.insert name (.file (committed contents)) entries)).getD (.file []) = .file found) :
    (scan found).uncommitted = [] ↔
      ∀ stale, OrderedMap.find? (fileName number) entries = some (.file stale) →
        name = fileName number ∨ (scan stale).uncommitted = [] := by
  rw [OrderedMap.find?_insert] at stored
  by_cases own : fileName number = name
  · rw [if_pos own] at stored
    cases stored
    exact iff_of_true (by rw [scan_committed]; rfl) fun _ _ => .inl own.symm
  · rw [if_neg own] at stored
    cases here : OrderedMap.find? (fileName number) entries with
    | none =>
      rw [here] at stored
      cases stored
      exact iff_of_true settled_nil nofun
    | some entry =>
      rw [here] at stored
      cases stored
      constructor
      · rintro settled _ ⟨⟩
        exact .inr settled
      · intro cuts
        exact (cuts found rfl).resolve_left (Ne.symm own)

private theorem cutsTarget_of_absent (absent : OrderedMap.find? "wal" disk.top = none) :
    CutsTarget disk := by
  intro files newest stale listed
  obtain ⟨error, failed⟩ | ⟨entries, inside, _⟩ := files_cases disk
  · cases failed.symm.trans listed
  · cases absent.symm.trans inside

/-- Where all log files bear their own names, the file that is cut is the one that is appended to. -/
theorem cutsTarget_of_holds {files : List (Nat × Bytes)} (holds : Holds disk files) :
    CutsTarget disk := by
  obtain ⟨entries, inside, listing⟩ := holds
  refine (cutsTarget_of_folder inside).mpr fun newest _ last _ => .inl ?_
  obtain ⟨number, member⟩ := mem_filesOf.mp (List.mem_of_getLast? last)
  have present := OrderedMap.find?_of_mem listing.ordered member
  exact listing.canonical newest.name newest.sequence (by rw [present]; rfl) number

end Log

namespace Store

variable {config : Config} {disk later : Disk} {store : Store}

section Opening

variable {entries : Folder} {rotationSize : Nat} {writer : Log.Writer}
  (inside : OrderedMap.find? "wal" disk.top = some (.folder entries))
include inside

private theorem targets_of_unlisted (none : Log.filesOf entries = [])
    (opened : Log.Writer.openNewest rotationSize disk = (.ok writer, later)) :
    Log.Targets later writer [] := by
  obtain ⟨contents, number, found, targets⟩ := Log.targets_of_openNewest inside opened
  rw [none] at number
  have absent : OrderedMap.find? (Log.fileName writer.sequence) entries = .none :=
    Log.find?_fileName_of_above (by rw [none]; nofun) (by rw [number]; decide)
  rw [absent] at found
  cases found
  exact targets

private theorem targets_of_newest (ordered : OrderedMap.Ordered entries) {newest : Log.File}
    {contents : Bytes} {recovery : Log.Recovery} {shortened : Disk}
    (last : (Log.filesOf entries).getLast? = some newest) (kind : newest.entry = .file contents)
    (tail : recovery.tail = some ⟨newest.name, (Log.committed contents).length, contents.length⟩)
    (cut : cutTail recovery disk = (.ok (), shortened))
    (opened : Log.Writer.openNewest rotationSize shortened = (.ok writer, later)) :
    ∃ found, Log.Targets later writer found ∧
      ((Log.scan found).uncommitted = [] ↔
        ∀ stale, OrderedMap.find? (Log.fileName newest.sequence) entries = some (.file stale) →
          newest.name = Log.fileName newest.sequence ∨ (Log.scan stale).uncommitted = []) := by
  obtain ⟨_, member⟩ := Log.mem_filesOf.mp (List.mem_of_getLast? last)
  rw [kind] at member
  obtain ⟨_, shorter, kept⟩ := cutTail_of_file inside ordered
    (OrderedMap.find?_of_mem ordered member) tail
  cases shorter.symm.trans cut
  obtain ⟨found, number, stored, targets⟩ := Log.targets_of_openNewest kept opened
  rw [Log.newest_of_insert last, Option.getD_some] at number
  rw [number] at stored
  exact ⟨found, targets, Log.settled_of_cut stored⟩

end Opening

/-- Once a store is open, the file that its writer appends to ends behind a commit record exactly
where it is the file that was cut, or needed no cut. -/
theorem targets_of_load (inOrder : Log.InOrder disk)
    (done : load config disk = (.ok store, later)) :
    ∃ contents, Log.Targets later store.writer contents ∧
      ((Log.scan contents).uncommitted = [] ↔ Log.CutsTarget disk) := by
  obtain ⟨made, recovery, read, shortened, folder, recovered, _, cut, opened, _⟩ :=
    steps_of_load done
  obtain ⟨entries, inside, before⟩ := Log.makeFolder_eq_ok folder
  have ordered : OrderedMap.Ordered entries := by
    rcases before with same | ⟨_, rfl⟩
    · exact inOrder entries same
    · exact List.Pairwise.nil
  have cuts : Log.CutsTarget disk ↔ ∀ newest stale, (Log.filesOf entries).getLast? = some newest →
      OrderedMap.find? (Log.fileName newest.sequence) entries = some (.file stale) →
      newest.name = Log.fileName newest.sequence ∨ (Log.scan stale).uncommitted = [] := by
    rcases before with same | ⟨absent, rfl⟩
    · exact Log.cutsTarget_of_folder same
    · exact iff_of_true (Log.cutsTarget_of_absent absent) nofun
  rw [cuts]
  rw [Log.recover_of_folder inside] at recovered
  rcases List.eq_nil_or_concat (Log.filesOf entries) with none | ⟨front, newest, parts⟩
  · rw [none] at recovered ⊢
    cases recovered
    cases cut
    exact ⟨[], targets_of_unlisted inside none opened, iff_of_true Log.settled_nil nofun⟩
  · rw [List.concat_eq_append] at parts
    rw [parts] at recovered
    obtain ⟨rfl, contents, kind, tail⟩ := Log.foldlM_recoverFile_eq_ok recovered
    have last : (Log.filesOf entries).getLast? = some newest := by
      rw [parts, List.getLast?_concat]
    obtain ⟨found, targets, settled⟩ := targets_of_newest inside ordered last kind tail cut opened
    refine ⟨found, targets, settled.trans ⟨?_, ?_⟩⟩
    · intro kept other stale same
      cases last.symm.trans same
      exact kept stale
    · intro kept stale
      exact kept newest stale last

/-- On whatever log directory a store opens, the file that the next batch goes to has nothing left
behind its last commit record exactly where it is the file that was cut, or needed no cut.  Then the
next batch is found as it was written, in that file or in a new one, unless some record in the file
claims more bytes than were there. -/
theorem append_target (inOrder : Log.InOrder disk) (done : load config disk = (.ok store, later)) :
    ∃ contents, later.location store.writer.handle = some (Log.pathOf store.writer.name) ∧
      Folder.read (Log.pathOf store.writer.name) later.top = .ok contents ∧
      (Log.scan contents = Log.Scan.border (Log.scan contents).batches [] ↔ Log.CutsTarget disk) ∧
      (Log.CutsTarget disk → Log.Contained contents → ∀ batch : Log.Batch, batch.Sound →
        store.writer.sequence + 1 < Numeral.wordLimit →
        ∃ writer last full,
          store.writer.append batch.records batch.txid later = (.ok writer, last) ∧
          Folder.read (Log.pathOf writer.name) last.top = .ok full ∧
          Log.scan full = Log.Scan.border ((if writer.sequence = store.writer.sequence then
            (Log.scan contents).batches else []) ++ [batch]) []) := by
  obtain ⟨contents, targets, settled⟩ := targets_of_load inOrder done
  refine ⟨contents, targets.located, targets.read, Log.scan_of_settled.trans settled, ?_⟩
  intro cuts contained batch sound bound
  obtain ⟨writer, last, appended, grown⟩ := targets.append sound bound
  refine ⟨writer, last, _, appended, grown.read, ?_⟩
  split
  · exact Log.scan_append (settled.mpr cuts) contained sound
  · have alone := Log.scan_written [batch] (List.forall_mem_singleton.mpr sound)
    rwa [List.flatMap_singleton] at alone

/-- A record of no commit is left behind a batch, and is cut off. -/
theorem append_target_of_left_record :
    let batch : Log.Batch := ⟨1, [.createBucket [] [97]]⟩
    let left := (Record.createBucket [] [98]).written
    let next : Log.Batch := ⟨2, [.createBucket [] [99]]⟩
    let disk : Disk :=
      ⟨"data", Log.within [(Log.fileName 1, .file (batch.written ++ left))] [], []⟩
    ∃ store later writer last full, load .relaxed disk = (.ok store, later) ∧
      Folder.read (Log.pathOf store.writer.name) later.top = .ok batch.written ∧
      store.writer.append next.records next.txid later = (.ok writer, last) ∧
      Folder.read (Log.pathOf writer.name) last.top = .ok full ∧
      Log.scan full = Log.Scan.border ((if writer.sequence = store.writer.sequence then
        [batch] else []) ++ [next]) [] := by
  intro batch left next disk
  have inside : OrderedMap.find? "wal" disk.top =
      some (.folder [(Log.fileName 1, .file (batch.written ++ left))]) := Log.find?_within _ _
  have inOrder : Log.InOrder disk :=
    Log.inOrder_of_folder inside (List.pairwise_singleton _ _)
  have cuts : Log.CutsTarget disk := Log.cutsTarget_of_holds
    (Log.holds_within [] rfl (Log.listing_nil.insert 1 (batch.written ++ left) (by decide)))
  have shown : (load .relaxed disk).1.toOption.map (fun store => (store.writer.sequence,
      (Folder.read (Log.pathOf store.writer.name) (load .relaxed disk).2.top).toOption)) =
        some (1, some batch.written) := by decide +kernel
  obtain ⟨store, opened, found⟩ := Outcome.toOption_map_eq_some.mp shown
  simp only [Prod.mk.injEq] at found
  obtain ⟨number, held⟩ := found
  have sound : batch.Sound := Log.Batch.Proper.sound ⟨by decide, by decide⟩
    (show Log.encodeBatch batch.records batch.txid = .ok batch.written by rfl)
  have nextSound : next.Sound := Log.Batch.Proper.sound ⟨by decide, by decide⟩
    (show Log.encodeBatch next.records next.txid = .ok next.written by rfl)
  have scanned := Log.scan_written [batch] (List.forall_mem_singleton.mpr sound)
  have contained := Log.Contained.written (List.forall_mem_singleton.mpr sound)
  rw [List.flatMap_singleton] at scanned contained
  have done : load .relaxed disk = (.ok store, (load .relaxed disk).2) := Prod.ext opened rfl
  obtain ⟨contents, _, read, _, appends⟩ := append_target inOrder done
  rw [read] at held
  obtain rfl := Option.some.inj held
  obtain ⟨writer, last, full, appended, grown, found⟩ :=
    appends cuts contained next nextSound (by rw [number]; decide)
  rw [scanned] at found
  exact ⟨store, _, writer, last, full, done, read, appended, grown, found⟩

section SecondName

/-- A log file under its own name, and an empty one under another name of the same number. -/
def twoNames (contents : Bytes) : Folder :=
  [(Log.fileName 1, .file contents), ("wal-1.labs", .file [])]

def diskOfTwoNames (contents : Bytes) (opened : List FileLocation) : Disk :=
  ⟨"data", Log.within (twoNames contents) [], opened⟩

variable (contents : Bytes) (opened : List FileLocation)

private theorem find?_twoNames :
    OrderedMap.find? (Log.fileName 1) (twoNames contents) = some (.file contents) :=
  if_pos rfl

private theorem inside_twoNames :
    OrderedMap.find? "wal" (diskOfTwoNames contents opened).top =
      some (.folder (twoNames contents)) :=
  Log.find?_within _ _

private theorem filesOf_twoNames : Log.filesOf (twoNames contents) =
    [⟨1, Log.fileName 1, .file contents⟩, ⟨1, "wal-1.labs", .file []⟩] := by
  have second : Log.File.ofEntry? ("wal-1.labs", .file []) = some ⟨1, "wal-1.labs", .file []⟩ :=
    Log.Listing.ofEntry?_eq_some.mpr ⟨by decide +kernel, rfl, rfl⟩
  refine Log.filesOf_of_ascending ?_ (List.pairwise_pair.mpr (Nat.le_refl 1))
  rw [twoNames, List.filterMap_cons_some (Log.ofEntry?_fileName 1 _ (by decide)),
    List.filterMap_cons_some second, List.filterMap_nil]

private theorem recover_twoNames : Log.recover (diskOfTwoNames contents opened) =
    (.ok ((Log.Recovery.empty.addContents (Log.fileName 1) contents).addContents "wal-1.labs" []),
      diskOfTwoNames contents opened) := by
  rw [Log.recover_of_folder (inside_twoNames contents opened), filesOf_twoNames]
  rfl

private theorem openNewest_twoNames (rotationSize : Nat) :
    Log.Writer.openNewest rotationSize (diskOfTwoNames contents []) =
      (.ok ⟨1, contents.length, rotationSize, ⟨0⟩⟩,
        diskOfTwoNames contents [some (Log.pathOf (Log.fileName 1))]) := by
  have found : (OrderedMap.find? (Log.fileName 1) (twoNames contents)).getD (.file []) =
      .file contents := by
    rw [find?_twoNames]
    rfl
  rw [Log.openNewest_of_folder (inside_twoNames contents []), filesOf_twoNames]
  exact Log.openSequence_of_entries (Log.find?_within _ _) found rotationSize

private theorem write_twoNames (size rotationSize : Nat) (data : Bytes) :
    (Log.Writer.mk 1 size rotationSize ⟨0⟩).write data
        (diskOfTwoNames contents [some (Log.pathOf (Log.fileName 1))]) =
      (.ok ⟨1, size + data.length, rotationSize, ⟨0⟩⟩,
        diskOfTwoNames (contents ++ data) [some (Log.pathOf (Log.fileName 1))]) := by
  let writer : Log.Writer := ⟨1, size, rotationSize, ⟨0⟩⟩
  have found : OrderedMap.find? (Log.fileName writer.sequence) (twoNames contents) =
      some (.file contents) := find?_twoNames contents
  have located : (diskOfTwoNames contents [some (Log.pathOf (Log.fileName 1))]).location
      writer.handle = some (Log.pathOf writer.name) := rfl
  have replaced : OrderedMap.insert (Log.fileName 1) (.file (contents ++ data))
      (twoNames contents) = twoNames (contents ++ data) := by rfl
  have written := Log.write_of_entries (inside_twoNames contents _) found located data
  rw [replaced] at written
  exact written

/-- The record of a transaction that was never committed is left in the file under its own name, and
the file that is cut is the empty one.  The next commit makes the record part of its own batch. -/
theorem append_target_fails_of_second_name :
    let stale := (Record.createBucket [] [97]).written
    ∃ store later next last recovery, load .relaxed (diskOfTwoNames stale []) = (.ok store, later) ∧
      Folder.read (Log.pathOf store.writer.name) later.top = .ok stale ∧
      (Log.scan stale).uncommitted = stale ∧
      store.commit (store.begin.attemptAll [.create [] [98]]) later = (.ok next, last) ∧
      next.published.tree.snapshot = [.checkpoint, .createBucket [] [98]] ∧
      Log.recover last = (.ok recovery, last) ∧
      recovery.batches = [⟨1, [.createBucket [] [97], .createBucket [] [98]]⟩] := by
  intro stale
  let batch : Log.Batch := ⟨1, [.createBucket [] [98]]⟩
  let store : Store := ⟨.relaxed, ⟨[], 0⟩, 1, ⟨1, stale.length, Config.relaxed.rotationSize, ⟨0⟩⟩⟩
  let held : List FileLocation := [some (Log.pathOf (Log.fileName 1))]
  have before : (Log.Recovery.empty.addContents (Log.fileName 1) stale).addContents
      "wal-1.labs" [] = ⟨[], some ⟨"wal-1.labs", 0, 0⟩⟩ := by decide +kernel
  have after : ((Log.Recovery.empty.addContents (Log.fileName 1)
      (stale ++ batch.written)).addContents "wal-1.labs" []).batches =
        [⟨1, [.createBucket [] [97], .createBucket [] [98]]⟩] := by decide +kernel
  have made : Log.makeFolder (diskOfTwoNames stale []) = (.ok (), diskOfTwoNames stale []) :=
    Log.makeFolder_of_folder (inside_twoNames stale [])
  have recovered := recover_twoNames stale []
  rw [before] at recovered
  have clean : ∀ tail, some (Log.Tail.mk "wal-1.labs" 0 0) = some tail → tail.isClean := by
    rintro _ ⟨⟩
    rfl
  have opened : load .relaxed (diskOfTwoNames stale []) = (.ok store, diskOfTwoNames stale held) :=
    load_of_steps rfl made recovered rfl (cutTail_of_clean clean) (openNewest_twoNames stale _)
  have room : ¬(0 < store.writer.size ∧
      store.writer.rotationSize < store.writer.size + batch.written.length) := by decide +kernel
  have encoded : Log.encodeBatch batch.records batch.txid = .ok batch.written := by rfl
  have appended := (Log.append_of_room encoded room).trans
    (write_twoNames stale stale.length Config.relaxed.rotationSize batch.written)
  have logged : (store.begin.attemptAll [.create [] [98]]).log = batch.records := by decide +kernel
  have committed := commit_of_append store (store.begin.attemptAll [.create [] [98]])
    (by rw [logged]; exact List.cons_ne_nil _ _) (by rw [logged]; exact appended)
  exact ⟨store, _, _, _, _, opened, Log.read_eq (inside_twoNames stale held) (find?_twoNames stale),
    by decide +kernel, committed, by decide +kernel, recover_twoNames _ held, after⟩

end SecondName

end Store

end ClusterRegistry
