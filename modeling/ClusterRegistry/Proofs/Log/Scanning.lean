import ClusterRegistry.Log.Batch
import ClusterRegistry.Proofs.Record.RoundTrip

/-!
What a scan finds.  Behind the border of two batches it takes in one written batch after another
and leaves the bytes behind the last one.  Bytes in which no commit record can be read add nothing;
which other bytes add a batch is said by the places that the reader comes to.
-/
namespace ClusterRegistry.Log

/-- What a transaction hands to the log: a number that fits its commit record, and records that
can be written and of which none closes a batch. -/
structure Batch.Sound (batch : Batch) : Prop where
  txid : batch.txid < Bytes.capacity 8
  encodable : ∀ record ∈ batch.records, record.Encodable
  unclosed : ∀ record ∈ batch.records, record.operation ≠ .commit

def Batch.written (batch : Batch) : Bytes :=
  batch.records.flatMap Record.written ++ (Record.commit batch.txid).written

theorem Batch.written_ne_nil (batch : Batch) : batch.written ≠ [] := by
  intro empty
  have size := congrArg List.length empty
  rw [written, List.length_append, Record.length_written, Record.headerSize,
    List.length_nil] at size
  omega

theorem Batch.written_eq (batch : Batch) :
    batch.written = (batch.records ++ [Record.commit batch.txid]).flatMap Record.written := by
  rw [List.flatMap_append, List.flatMap_singleton]
  rfl

theorem encodable_commit (txid : Nat) : (Record.commit txid).Encodable := by
  constructor <;> simp [Record.commit, Record.payload, Bytes.littleEndian_length,
    Record.shortLimit, Record.longLimit]

theorem encodeBatch_eq_ok {records : List Record} {txid : Nat} {data : Bytes} :
    encodeBatch records txid = .ok data ↔
      (∀ record ∈ records, record.Encodable) ∧ data = Batch.written ⟨txid, records⟩ := by
  unfold encodeBatch
  rw [Outcome.bind_eq_ok]
  constructor
  · intro given
    obtain ⟨parts, ok, rest⟩ := given
    obtain ⟨fits, rfl⟩ := (Outcome.mapM_eq_ok fun _ _ => Record.encode_eq_ok).mp ok
    obtain ⟨last, ok, same⟩ := Outcome.bind_eq_ok.mp rest
    obtain ⟨_, rfl⟩ := Record.encode_eq_ok.mp ok
    refine ⟨fits, ?_⟩
    rw [Batch.written, List.flatMap_def]
    exact (Except.ok.inj same).symm
  · intro given
    obtain ⟨fits, rfl⟩ := given
    refine ⟨_, (Outcome.mapM_eq_ok fun _ _ => Record.encode_eq_ok).mpr ⟨fits, rfl⟩, ?_⟩
    apply Outcome.bind_eq_ok.mpr
    refine ⟨_, Record.encode_eq_ok.mpr ⟨encodable_commit txid, rfl⟩, ?_⟩
    rw [Batch.written, List.flatMap_def]
    rfl

theorem Batch.Sound.encoded {batch : Batch} (sound : batch.Sound) :
    encodeBatch batch.records batch.txid = .ok batch.written :=
  encodeBatch_eq_ok.mpr ⟨sound.encodable, rfl⟩

namespace Scan

/-- Between two batches: nothing pending and nothing damaged. -/
def border (found : List Batch) (data : Bytes) : Scan :=
  ⟨found, [], false, data⟩

theorem run_nil (scan : Scan) : scan.run [] = scan := by
  rw [run]

theorem run_of_read {scan : Scan} {data rest : Bytes} {record : Record}
    (ok : Record.read data = .ok (record, rest)) :
    scan.run data = (scan.accept record rest).run rest := by
  cases data with
  | nil => exact absurd (Record.length_of_read ok) (by simp [Record.headerSize])
  | cons byte later =>
    rw [run]
    split
    · rename_i found
      cases ok.symm.trans found
      rfl
    · rename_i failed
      cases ok.symm.trans failed

theorem run_of_error {scan : Scan} {byte : UInt8} {later : Bytes} {error : StoreError}
    (failed : Record.read (byte :: later) = .error error) :
    scan.run (byte :: later) = scan.damage.run later := by
  rw [run]
  split
  · rename_i found
    cases failed.symm.trans found
  · rfl

theorem run_of_failed (scan : Scan) {byte : UInt8} {data : Bytes}
    (failed : (Record.read (byte :: data)).isOk = false) :
    scan.run (byte :: data) = scan.damage.run data := by
  cases read : Record.read (byte :: data) with
  | ok found =>
    rw [read] at failed
    contradiction
  | error error => exact run_of_error read

theorem accept_of_unclosed (scan : Scan) (rest : Bytes) {record : Record}
    (unclosed : record.operation ≠ .commit) :
    scan.accept record rest = { scan with pending := scan.pending ++ [record] } := by
  rw [accept, if_neg unclosed]

theorem run_written_records (scan : Scan) (records : List Record) (rest : Bytes)
    (fits : ∀ record ∈ records, record.Encodable)
    (unclosed : ∀ record ∈ records, record.operation ≠ .commit) :
    scan.run (records.flatMap Record.written ++ rest) =
      { scan with pending := scan.pending ++ records }.run rest := by
  induction records generalizing scan with
  | nil => simp
  | cons record records ih =>
    obtain ⟨fit, fits⟩ := List.forall_mem_cons.mp fits
    obtain ⟨mutation, unclosed⟩ := List.forall_mem_cons.mp unclosed
    rw [List.flatMap_cons, List.append_assoc,
      run_of_read (Record.read_written_append record _ fit), accept_of_unclosed _ _ mutation,
      ih _ fits unclosed, List.append_assoc]
    rfl

theorem run_written_batch (found : List Batch) (batch : Batch) (data rest : Bytes)
    (sound : batch.Sound) :
    (border found data).run (batch.written ++ rest) = (border (found ++ [batch]) rest).run rest := by
  rw [Batch.written, List.append_assoc,
    run_written_records _ _ _ sound.encodable sound.unclosed,
    run_of_read (Record.read_written_append _ _ (encodable_commit _)), accept,
    if_pos (show (Record.commit batch.txid).operation = .commit from rfl),
    Record.txid?_commit _ sound.txid]
  rfl

theorem run_written_batches (found batches : List Batch) (rest : Bytes)
    (sound : ∀ batch ∈ batches, batch.Sound) :
    (border found (batches.flatMap Batch.written ++ rest)).run
        (batches.flatMap Batch.written ++ rest) =
      (border (found ++ batches) rest).run rest := by
  induction batches generalizing found with
  | nil => simp
  | cons batch batches ih =>
    obtain ⟨first, sound⟩ := List.forall_mem_cons.mp sound
    rw [List.flatMap_cons, List.append_assoc, run_written_batch _ _ _ _ first, ih _ sound,
      List.append_assoc]
    rfl

end Scan

theorem scan_written_append (batches : List Batch) (rest : Bytes)
    (sound : ∀ batch ∈ batches, batch.Sound) :
    scan (batches.flatMap Batch.written ++ rest) = (Scan.border batches rest).run rest := by
  rw [scan_eq]
  exact Scan.run_written_batches [] batches rest sound

theorem scan_written (batches : List Batch) (sound : ∀ batch ∈ batches, batch.Sound) :
    scan (batches.flatMap Batch.written) = Scan.border batches [] := by
  have whole := scan_written_append batches [] sound
  rwa [List.append_nil, Scan.run_nil] at whole

def CommitFree (data : Bytes) : Prop :=
  ∀ offset record, Record.decode (data.drop offset) = .ok record → record.operation ≠ .commit

namespace CommitFree

theorem unclosed {data rest : Bytes} {record : Record} (free : CommitFree data)
    (ok : Record.read data = .ok (record, rest)) : record.operation ≠ .commit :=
  free 0 record (Record.decode_eq_ok.mpr ⟨rest, ok⟩)

theorem of_suffix {data rest : Bytes} (free : CommitFree data) (suffix : rest <:+ data) :
    CommitFree rest := by
  intro offset record ok
  rw [List.suffix_iff_eq_drop.mp suffix, List.drop_drop] at ok
  exact free _ record ok

end CommitFree

theorem Scan.run_of_commitFree (scan : Scan) (data : Bytes) (free : CommitFree data) :
    (scan.run data).batches = scan.batches ∧ (scan.run data).uncommitted = scan.uncommitted := by
  fun_induction run scan data with
  | case1 scan => exact ⟨rfl, rfl⟩
  | case2 scan byte later record rest ok ih =>
    have next := ih (free.of_suffix (Record.suffix_of_read ok))
    rw [accept_of_unclosed _ _ (free.unclosed ok)] at next ⊢
    exact next
  | case3 scan byte later error failed ih =>
    exact ih (free.of_suffix (List.suffix_cons _ _))

/-- The reader steps over whole records, and over a byte where none can be read. -/
inductive Reaches : Bytes → Bytes → Prop where
  | here (data : Bytes) : Reaches data data
  | record {data next rest : Bytes} {record : Record}
      (ok : Record.read data = .ok (record, next)) (later : Reaches next rest) : Reaches data rest
  | skip {byte : UInt8} {later rest : Bytes} {error : StoreError}
      (failed : Record.read (byte :: later) = .error error) (further : Reaches later rest) :
      Reaches (byte :: later) rest

/-- A whole batch stands in front: records without a gap, up to a commit record. -/
inductive StartsBatch : Bytes → Prop where
  | commit {data rest : Bytes} {record : Record} (ok : Record.read data = .ok (record, rest))
      (closing : record.operation = .commit) : StartsBatch data
  | record {data rest : Bytes} {record : Record} (ok : Record.read data = .ok (record, rest))
      (unclosed : record.operation ≠ .commit) (later : StartsBatch rest) : StartsBatch data

/-- The reader comes to a commit record with a whole batch directly behind it. -/
def HoldsBatch (data : Bytes) : Prop :=
  ∃ place rest record, Reaches data place ∧ Record.read place = .ok (record, rest) ∧
    record.operation = .commit ∧ StartsBatch rest

theorem reaches_of_read {data next : Bytes} {record : Record}
    (ok : Record.read data = .ok (record, next)) (place : Bytes) :
    Reaches data place ↔ place = data ∨ Reaches next place := by
  constructor
  · intro reached
    cases reached with
    | here => exact .inl rfl
    | record found later =>
      cases ok.symm.trans found
      exact .inr later
    | skip failed => cases ok.symm.trans failed
  · intro given
    rcases given with rfl | later
    · exact .here _
    · exact .record ok later

theorem reaches_of_error {byte : UInt8} {later : Bytes} {error : StoreError}
    (failed : Record.read (byte :: later) = .error error) (place : Bytes) :
    Reaches (byte :: later) place ↔ place = byte :: later ∨ Reaches later place := by
  constructor
  · intro reached
    cases reached with
    | here => exact .inl rfl
    | record found => cases failed.symm.trans found
    | skip _ further => exact .inr further
  · intro given
    rcases given with rfl | further
    · exact .here _
    · exact .skip failed further

theorem startsBatch_of_read {data rest : Bytes} {record : Record}
    (ok : Record.read data = .ok (record, rest)) :
    StartsBatch data ↔ record.operation = .commit ∨ StartsBatch rest := by
  constructor
  · intro starts
    cases starts with
    | commit found closing =>
      cases ok.symm.trans found
      exact .inl closing
    | record found unclosed later =>
      cases ok.symm.trans found
      exact .inr later
  · intro starts
    by_cases closing : record.operation = .commit
    · exact .commit ok closing
    · exact .record ok closing (starts.resolve_left closing)

theorem not_startsBatch_of_error {data : Bytes} {error : StoreError}
    (failed : Record.read data = .error error) : ¬StartsBatch data := by
  intro starts
  cases starts with
  | commit found => cases failed.symm.trans found
  | record found => cases failed.symm.trans found

theorem holdsBatch_of_read {data rest : Bytes} {record : Record}
    (ok : Record.read data = .ok (record, rest)) :
    HoldsBatch data ↔ (record.operation = .commit ∧ StartsBatch rest) ∨ HoldsBatch rest := by
  constructor
  · intro given
    obtain ⟨place, after, closing, reached, found, commit, starts⟩ := given
    rcases (reaches_of_read ok place).mp reached with rfl | later
    · cases ok.symm.trans found
      exact .inl ⟨commit, starts⟩
    · exact .inr ⟨place, after, closing, later, found, commit, starts⟩
  · intro given
    rcases given with ⟨commit, starts⟩ | ⟨place, after, closing, later, found, commit, starts⟩
    · exact ⟨data, rest, record, .here _, ok, commit, starts⟩
    · exact ⟨place, after, closing, .record ok later, found, commit, starts⟩

theorem holdsBatch_of_error {byte : UInt8} {later : Bytes} {error : StoreError}
    (failed : Record.read (byte :: later) = .error error) :
    HoldsBatch (byte :: later) ↔ HoldsBatch later := by
  constructor
  · intro given
    obtain ⟨place, after, closing, reached, found, rest⟩ := given
    rcases (reaches_of_error failed place).mp reached with rfl | further
    · cases failed.symm.trans found
    · exact ⟨place, after, closing, further, found, rest⟩
  · intro given
    obtain ⟨place, after, closing, further, rest⟩ := given
    exact ⟨place, after, closing, .skip failed further, rest⟩

theorem not_holdsBatch_nil : ¬HoldsBatch [] := by
  intro given
  obtain ⟨place, rest, record, reached, ok, _⟩ := given
  cases reached with
  | here => exact absurd (Record.length_of_read ok) (by simp [Record.headerSize])
  | record found => exact absurd (Record.length_of_read found) (by simp [Record.headerSize])

namespace Scan

theorem batches_prefix_run (scan : Scan) (data : Bytes) :
    scan.batches <+: (scan.run data).batches := by
  fun_induction run scan data with
  | case1 scan => exact List.prefix_rfl
  | case2 scan byte later record rest ok ih =>
    apply List.IsPrefix.trans _ ih
    unfold accept
    split
    · exact List.prefix_append _ _
    · exact List.prefix_rfl
  | case3 scan byte later error failed ih => exact ih

/-- Exactly when a scan adds no batch: the first commit record behind damage closes nothing, but
from there on a whole batch counts. -/
theorem run_batches_eq_iff (scan : Scan) (data : Bytes) :
    (scan.run data).batches = scan.batches ↔
      ¬(HoldsBatch data ∨ scan.damaged = false ∧ StartsBatch data) := by
  fun_induction run scan data with
  | case1 scan =>
    have empty : ¬StartsBatch [] := by
      intro starts
      cases starts with
      | commit ok => exact absurd (Record.length_of_read ok) (by simp [Record.headerSize])
      | record ok => exact absurd (Record.length_of_read ok) (by simp [Record.headerSize])
    simp [not_holdsBatch_nil, empty]
  | case2 scan byte later record rest ok ih =>
    rw [holdsBatch_of_read ok, startsBatch_of_read ok]
    by_cases closing : record.operation = .commit
    · cases damaged : scan.damaged with
      | true => simp_all [accept, or_comm]
      | false =>
        -- The batch that is closed here stays.
        have grown := (batches_prefix_run (scan.accept record rest) rest).length_le
        have differs : ((scan.accept record rest).run rest).batches ≠ scan.batches := by
          intro same
          rw [same] at grown
          simp only [accept, closing, damaged, if_true, Bool.false_eq_true, if_false,
            List.length_append, List.length_singleton] at grown
          omega
        simp [differs, closing]
    · rw [accept_of_unclosed _ _ closing] at ih ⊢
      simpa [closing] using ih
  | case3 scan byte later error failed ih =>
    rw [holdsBatch_of_error failed]
    simpa [damage, not_startsBatch_of_error failed] using ih

end Scan

private theorem prefix_append_cases {α : Type} {front first second : List α}
    (part : front <+: first ++ second) (differs : front ≠ first ++ second) :
    (front <+: first ∧ front ≠ first) ∨
      ∃ rest, front = first ++ rest ∧ rest <+: second ∧ rest ≠ second := by
  by_cases short : front.length < first.length
  · refine .inl ⟨?_, fun same => by simp [same] at short⟩
    exact List.prefix_of_prefix_length_le part (List.prefix_append _ _) (Nat.le_of_lt short)
  · have long : first <+: front :=
      List.prefix_of_prefix_length_le (List.prefix_append _ _) part (Nat.le_of_not_lt short)
    obtain ⟨rest, rfl⟩ := long
    refine .inr ⟨rest, rfl, (List.prefix_append_right_inj _).mp part, ?_⟩
    intro same
    subst same
    exact differs rfl

theorem startsBatch_written_append (records : List Record) (rest : Bytes)
    (fits : ∀ record ∈ records, record.Encodable)
    (unclosed : ∀ record ∈ records, record.operation ≠ .commit) :
    StartsBatch (records.flatMap Record.written ++ rest) ↔ StartsBatch rest := by
  induction records with
  | nil => rfl
  | cons record records ih =>
    obtain ⟨fit, fits⟩ := List.forall_mem_cons.mp fits
    obtain ⟨mutation, unclosed⟩ := List.forall_mem_cons.mp unclosed
    rw [List.flatMap_cons, List.append_assoc,
      startsBatch_of_read (Record.read_written_append record _ fit), ih fits unclosed]
    simp [mutation]

theorem holdsBatch_written_append (records : List Record) (rest : Bytes)
    (fits : ∀ record ∈ records, record.Encodable)
    (unclosed : ∀ record ∈ records, record.operation ≠ .commit) :
    HoldsBatch (records.flatMap Record.written ++ rest) ↔ HoldsBatch rest := by
  induction records with
  | nil => rfl
  | cons record records ih =>
    obtain ⟨fit, fits⟩ := List.forall_mem_cons.mp fits
    obtain ⟨mutation, unclosed⟩ := List.forall_mem_cons.mp unclosed
    rw [List.flatMap_cons, List.append_assoc,
      holdsBatch_of_read (Record.read_written_append record _ fit), ih fits unclosed]
    simp [mutation]

/-- Written records that are cut short are some of them whole and a part of the next one. -/
theorem torn_records {records : List Record} {data : Bytes}
    (torn : data <+: records.flatMap Record.written) (short : data ≠ records.flatMap Record.written) :
    ∃ whole cut part, whole ++ [cut] <+: records ∧ data = whole.flatMap Record.written ++ part ∧
      part <+: cut.written ∧ part ≠ cut.written := by
  induction records generalizing data with
  | nil => exact absurd (List.prefix_nil.mp torn) short
  | cons record records ih =>
    rw [List.flatMap_cons] at torn short
    rcases prefix_append_cases torn short with ⟨part, differs⟩ | ⟨rest, rfl, later, differs⟩
    · exact ⟨[], record, data, List.prefix_append [record] records, rfl, part, differs⟩
    · obtain ⟨whole, cut, part, inside, rfl, front, short⟩ := ih later differs
      refine ⟨record :: whole, cut, part, List.cons_prefix_cons.mpr ⟨rfl, inside⟩, ?_, front, short⟩
      rw [List.flatMap_cons, List.append_assoc]

end ClusterRegistry.Log
