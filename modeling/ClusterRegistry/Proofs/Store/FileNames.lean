import ClusterRegistry.Proofs.Store.Checkpoint
import ClusterRegistry.Proofs.Log.Inventory
import ClusterRegistry.Proofs.Text.FixedWidth

/-!
The names of log files.  They ascend with the numbers that they carry and are read back as these,
while the name of a draft is not read as one; so where no number has a second name, the listing of
the log directory is in the order of the numbers and of the names alike, with each file once.
-/
namespace ClusterRegistry.Log

theorem ofText_fileName_lt {first second : Nat} (below : first < second)
    (bound : second < Numeral.wordLimit) :
    Bytes.ofText (fileName first) < Bytes.ofText (fileName second) := by
  have length {sequence : Nat} (bound : sequence < Numeral.wordLimit) :
      (Bytes.ofText (Numeral.padded 16 16 sequence)).length = 16 :=
    Numeral.length_ofText_padded (by decide) (by decide) bound
  have digits : Bytes.ofText (Numeral.padded 16 16 first) <
      Bytes.ofText (Numeral.padded 16 16 second) :=
    Numeral.ofText_padded_lt (by decide) (by decide) below bound
  simp only [fileName, Bytes.ofText_append, List.append_assoc]
  exact List.append_left_lt (Bytes.append_lt_append
    ((length (Nat.lt_trans below bound)).trans (length bound).symm) digits _ _)

theorem ofText_fileName_lt_iff {first second : Nat} (bound : first < Numeral.wordLimit)
    (otherBound : second < Numeral.wordLimit) :
    Bytes.ofText (fileName first) < Bytes.ofText (fileName second) ↔ first < second := by
  refine ⟨fun below => ?_, fun below => ofText_fileName_lt below otherBound⟩
  rcases Nat.lt_trichotomy first second with less | same | more
  · exact less
  · rw [same] at below
    exact absurd below (List.lt_irrefl _)
  · exact absurd (ofText_fileName_lt more bound) (List.lt_asymm below)

/-- What is taken for a log file bears the name that its number is given. -/
def Canonical (entries : Folder) : Prop :=
  ∀ entry ∈ entries, ∀ sequence, sequence? entry.1 = some sequence → entry.1 = fileName sequence

section Listed

variable {entries : Folder}

private theorem mem_filesOf_of_canonical (canonical : Canonical entries) {file : File} :
    file ∈ filesOf entries ↔ file.sequence < Numeral.wordLimit ∧
      file.name = fileName file.sequence ∧ (file.name, file.entry) ∈ entries := by
  rw [mem_filesOf]
  constructor
  · rintro ⟨number, member⟩
    exact ⟨sequence?_lt number, canonical _ member _ number, member⟩
  · rintro ⟨bound, name, member⟩
    exact ⟨by rw [name, sequence?_fileName _ bound], member⟩

/-- Files of one number would have one name. -/
theorem ascending_filesOf (distinct : entries.Pairwise fun entry later => entry.1 ≠ later.1)
    (canonical : Canonical entries) :
    (filesOf entries).Pairwise fun file later => file.sequence < later.sequence := by
  have both := (pairwise_sequence_filesOf entries).and (pairwise_name_of_distinct distinct)
  refine both.imp_of_mem ?_
  intro file later member laterMember ⟨order, differs⟩
  refine Nat.lt_of_le_of_ne order fun same => differs ?_
  rw [((mem_filesOf_of_canonical canonical).mp member).2.1, same,
    ((mem_filesOf_of_canonical canonical).mp laterMember).2.1]

end Listed

/-- The name of a number is read back as that number, and names ascend byte by byte exactly as the
numbers do; the name of a draft is not that of a log file.  So of a directory, in whatever order it
is read, each file that bears the name of a number is listed once, by ascending number and name. -/
theorem fileName_order :
    (∀ first < Numeral.wordLimit, ∀ second < Numeral.wordLimit,
      sequence? (fileName first) = some first ∧
        (Bytes.ofText (fileName first) < Bytes.ofText (fileName second) ↔ first < second)) ∧
      (∀ sequence, sequence? (Store.draftName sequence) = none) ∧
      ∀ (disk : Disk) (entries : Folder),
        OrderedMap.find? "wal" disk.top = some (.folder entries) →
        (entries.map Prod.fst).Nodup → Canonical entries →
        ∃ files, Log.files disk = (.ok files, disk) ∧
          (∀ file, file ∈ files ↔ file.sequence < Numeral.wordLimit ∧
            file.name = fileName file.sequence ∧ (file.name, file.entry) ∈ entries) ∧
          files.Pairwise fun file later => file.sequence < later.sequence ∧
            Bytes.ofText file.name < Bytes.ofText later.name := by
  refine ⟨fun first bound second otherBound =>
    ⟨sequence?_fileName first bound, ofText_fileName_lt_iff bound otherBound⟩,
    Store.sequence?_draftName, ?_⟩
  intro disk entries inside distinct canonical
  have members : ∀ file, file ∈ filesOf entries ↔ file.sequence < Numeral.wordLimit ∧
      file.name = fileName file.sequence ∧ (file.name, file.entry) ∈ entries :=
    fun _ => mem_filesOf_of_canonical canonical
  refine ⟨filesOf entries, files_of_folder inside, members, ?_⟩
  refine (ascending_filesOf (List.pairwise_map.mp distinct) canonical).imp_of_mem ?_
  intro file later member laterMember below
  obtain ⟨_, name, _⟩ := (members file).mp member
  obtain ⟨bound, laterName, _⟩ := (members later).mp laterMember
  rw [name, laterName]
  exact ⟨below, ofText_fileName_lt below bound⟩

/-- Nine before ten, `a` in hexadecimal, though the directory has them the other way round and a
draft in between. -/
theorem fileName_order_of_unsorted_directory :
    let nine : File := ⟨9, fileName 9, .file [2]⟩
    let ten : File := ⟨10, fileName 10, .file [1]⟩
    let disk : Disk := ⟨"data", [("wal", .folder [(fileName 10, .file [1]),
      (Store.draftName 9, .file []), (fileName 9, .file [2])])], []⟩
    sequence? (fileName 9) = some 9 ∧ Bytes.ofText (fileName 9) < Bytes.ofText (fileName 10) ∧
      ∃ files, Log.files disk = (.ok files, disk) ∧ nine ∈ files ∧ ten ∈ files ∧
        files.Pairwise fun file later => file.sequence < later.sequence := by
  intro nine ten disk
  obtain ⟨names, draft, listing⟩ := fileName_order
  obtain ⟨read, order⟩ := names 9 (by decide) 10 (by decide)
  have canonical : Canonical [(fileName 10, .file [1]), (Store.draftName 9, .file []),
      (fileName 9, .file [2])] := by
    intro entry member sequence number
    rcases List.mem_cons.mp member with rfl | member
    · rw [(names 10 (by decide) 9 (by decide)).1] at number
      rw [← Option.some.inj number]
    · rcases List.mem_cons.mp member with rfl | member
      · rw [draft] at number
        cases number
      · rw [List.mem_singleton.mp member, read] at number
        rw [List.mem_singleton.mp member, ← Option.some.inj number]
  obtain ⟨files, listed, members, ascending⟩ := listing disk _ rfl (by decide) canonical
  refine ⟨read, order.mpr (by decide), files, listed, (members nine).mpr ?_, (members ten).mpr ?_,
    ascending.imp And.left⟩
  · exact ⟨by decide, rfl, by simp [nine]⟩
  · exact ⟨by decide, rfl, by simp [ten]⟩

end ClusterRegistry.Log
