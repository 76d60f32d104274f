import ClusterRegistry.Proofs.Log.Appending

/-!
What a crash leaves behind the last commit record.  As long as no commit record can be read in it,
recovery finds the batches before it and tells where they end; once the file is cut there, batches
that are appended later join the earlier ones and nothing of the tail comes back.
-/
namespace ClusterRegistry.Log

/-- A batch as callers hand it over: its number is a 64-bit word and none of its records closes a
batch. -/
structure Batch.Proper (batch : Batch) : Prop where
  txid : batch.txid < Bytes.capacity 8
  unclosed : ∀ record ∈ batch.records, record.operation ≠ .commit

def Batch.accepted (batch : Batch) : Bool :=
  (encodeBatch batch.records batch.txid).isOk

theorem Batch.accepted_of_ok {batch : Batch} {data : Bytes}
    (encoded : encodeBatch batch.records batch.txid = .ok data) : batch.accepted = true := by
  rw [accepted, encoded]
  rfl

theorem Batch.accepted_of_error {batch : Batch} {error : StoreError}
    (refused : encodeBatch batch.records batch.txid = .error error) : batch.accepted = false := by
  rw [accepted, refused]
  rfl

theorem Batch.Proper.sound {batch : Batch} {data : Bytes} (proper : batch.Proper)
    (ok : encodeBatch batch.records batch.txid = .ok data) : batch.Sound :=
  ⟨proper.txid, (encodeBatch_eq_ok.mp ok).1, proper.unclosed⟩

/-- A batch is taken by the log, or it is refused and the log stays as it was. -/
theorem Ready.offer {disk : Disk} {writer : Writer} {batches : List Batch}
    (ready : Ready disk writer batches) {batch : Batch} (proper : batch.Proper)
    (bound : writer.sequence + 1 < Numeral.wordLimit) :
    (batch.accepted = true ∧ ∃ next later,
      writer.append batch.records batch.txid disk = (.ok next, later) ∧
        next.sequence ≤ writer.sequence + 1 ∧ Ready later next (batches ++ [batch])) ∨
    (batch.accepted = false ∧ ∃ error,
      writer.append batch.records batch.txid disk = (.error error, disk)) := by
  cases encoded : encodeBatch batch.records batch.txid with
  | error error =>
    exact .inr ⟨Batch.accepted_of_error encoded, error, append_of_refused encoded disk⟩
  | ok data =>
    obtain ⟨next, later, appended, _, sequence, ready⟩ := ready.append (proper.sound encoded) bound
    exact .inl ⟨Batch.accepted_of_ok encoded, next, later, appended, sequence, ready⟩

def encodeBatches (batches : List Batch) : Except StoreError Bytes := do
  return (← batches.mapM fun batch => encodeBatch batch.records batch.txid).flatten

theorem encodeBatches_eq_ok {batches : List Batch} {data : Bytes}
    (ok : encodeBatches batches = .ok data) (proper : ∀ batch ∈ batches, batch.Proper) :
    (∀ batch ∈ batches, batch.Sound) ∧ data = batches.flatMap Batch.written := by
  obtain ⟨parts, encoded, same⟩ := Outcome.bind_eq_ok.mp ok
  have each (batch : Batch) (bytes : Bytes) : encodeBatch batch.records batch.txid = .ok bytes ↔
      (∀ record ∈ batch.records, record.Encodable) ∧ bytes = batch.written :=
    encodeBatch_eq_ok
  obtain ⟨fits, rfl⟩ := (Outcome.mapM_eq_ok each).mp encoded
  refine ⟨fun batch member => ⟨(proper batch member).txid, fits batch member,
    (proper batch member).unclosed⟩, ?_⟩
  rw [List.flatMap_def]
  exact (Except.ok.inj same).symm

/-- Append batches in turn, going on where one is refused.  The batches that were taken come with
the writer. -/
def Writer.appendAll (writer : Writer) (disk : Disk) : List Batch → (List Batch × Writer) × Disk
  | [] => (([], writer), disk)
  | batch :: rest =>
    match writer.append batch.records batch.txid disk with
    | (.ok next, disk) =>
      let ((taken, last), disk) := next.appendAll disk rest
      ((batch :: taken, last), disk)
    | (.error _, disk) => writer.appendAll disk rest

theorem Ready.appendAll {disk : Disk} {writer : Writer} {batches : List Batch}
    (ready : Ready disk writer batches) (calls : List Batch)
    (proper : ∀ batch ∈ calls, batch.Proper)
    (bound : writer.sequence + calls.length < Numeral.wordLimit) :
    (writer.appendAll disk calls).1.1 = calls.filter Batch.accepted ∧
      Ready (writer.appendAll disk calls).2 (writer.appendAll disk calls).1.2
        (batches ++ calls.filter Batch.accepted) := by
  induction calls generalizing disk writer batches with
  | nil => exact ⟨rfl, by simpa [Writer.appendAll] using ready⟩
  | cons call calls ih =>
    obtain ⟨first, proper⟩ := List.forall_mem_cons.mp proper
    rw [List.length_cons] at bound
    rcases ready.offer first (by omega) with
      ⟨accepted, next, later, appended, sequence, ready⟩ | ⟨refused, error, failed⟩
    · obtain ⟨taken, final⟩ := ih ready proper (by omega)
      simp only [Writer.appendAll, appended, List.filter_cons, accepted, if_true]
      refine ⟨congrArg _ taken, ?_⟩
      rwa [List.append_assoc] at final
    · obtain ⟨taken, final⟩ := ih ready proper (by omega)
      simp only [Writer.appendAll, failed, List.filter_cons, refused, Bool.false_eq_true, if_false]
      exact ⟨taken, final⟩

instance (data : Bytes) : Decidable (CommitFree data) :=
  decidable_of_iff (∀ offset < data.length, ((Record.decode (data.drop offset)).toOption.map
    Record.operation) ≠ some .commit) <| by
    constructor
    · intro free offset record ok closing
      by_cases inside : offset < data.length
      · exact free offset inside (by rw [ok]; exact congrArg some closing)
      · rw [List.drop_eq_nil_of_le (Nat.le_of_not_lt inside)] at ok
        contradiction
    · intro free offset _ closing
      cases ok : Record.decode (data.drop offset) with
      | error error => rw [ok] at closing; contradiction
      | ok record =>
        rw [ok] at closing
        exact free offset record ok (Option.some.inj closing)

variable {disk : Disk} {older : List (Nat × Bytes)} {sequence : Nat}

/-- Behind the last commit record there may be anything that no commit record can be read from, at
whatever offset.  Recovery finds the batches before it and how long they are; and when the file
has been cut to that length, all later batches are found behind them and nothing else is. -/
theorem recover_crash_tail {batches : List Batch} {data tail : Bytes}
    (proper : ∀ batch ∈ batches, batch.Proper) (written : encodeBatches batches = .ok data)
    (free : CommitFree tail) (holds : Holds disk (older ++ [(sequence, data ++ tail)])) :
    recover disk = (.ok ⟨batchesOf older ++ batches,
      some ⟨fileName sequence, data.length, (data ++ tail).length⟩⟩, disk) ∧
    ∀ rotationSize calls, (∀ call ∈ calls, call.Proper) →
      sequence + calls.length < Numeral.wordLimit →
      ∃ shortened writer resumed,
        Tail.cut ⟨fileName sequence, data.length, (data ++ tail).length⟩ disk =
          (.ok (), shortened) ∧
        Writer.openNewest rotationSize shortened = (.ok writer, resumed) ∧
        let ((taken, last), final) := writer.appendAll resumed calls
        taken = calls.filter Batch.accepted ∧
          recover final = (.ok ⟨batchesOf older ++ batches ++ taken,
            some ⟨last.name, last.size, last.size⟩⟩, final) := by
  obtain ⟨sound, rfl⟩ := encodeBatches_eq_ok written proper
  constructor
  · obtain ⟨kept, uncommitted⟩ := (Scan.border batches tail).run_of_commitFree tail free
    rw [recover_written_append sound holds, kept, uncommitted]
    simp [Scan.border]
  · intro rotationSize calls callsProper bound
    obtain ⟨shortened, cut, front⟩ := cut_of_holds holds (batches.flatMap Batch.written).length
      (batches.flatMap Batch.written ++ tail).length
    rw [List.take_left] at front
    obtain ⟨writer, resumed, opened, same, -, attached⟩ := openNewest_of_holds front rotationSize
    have ready : Ready resumed writer (batchesOf older ++ batches) :=
      ⟨older, batches, sound, attached, rfl⟩
    obtain ⟨taken, final⟩ := ready.appendAll calls callsProper (by omega)
    refine ⟨shortened, writer, resumed, cut, opened, taken, ?_⟩
    rw [← taken] at final
    exact final.recover

theorem recover_crash_tail_of_records :
    let batch : Batch := ⟨1, [.createBucket [] [97]]⟩
    let next : Batch := ⟨2, [.put [[97]] [107] [119]]⟩
    let record := Record.put [[97]] [107] [118]
    let tail := record.written ++ record.written.take 20
    let disk : Disk := ⟨"data", within [(fileName 0, .file (batch.written ++ tail))] [], []⟩
    recover disk = (.ok ⟨[batch], some ⟨fileName 0, batch.written.length,
      (batch.written ++ tail).length⟩⟩, disk) ∧
    ∃ shortened writer resumed,
      Tail.cut ⟨fileName 0, batch.written.length, (batch.written ++ tail).length⟩ disk =
        (.ok (), shortened) ∧
      Writer.openNewest 65536 shortened = (.ok writer, resumed) ∧
      let ((taken, last), final) := writer.appendAll resumed [next]
      taken = [next] ∧
        recover final = (.ok ⟨[batch] ++ taken, some ⟨last.name, last.size, last.size⟩⟩, final) := by
  intro batch next record tail disk
  have proper : ∀ each ∈ [batch], each.Proper := by
    intro each member
    rw [List.mem_singleton.mp member]
    exact ⟨by decide, by decide⟩
  have nextProper : ∀ each ∈ [next], each.Proper := by
    intro each member
    rw [List.mem_singleton.mp member]
    exact ⟨by decide, by decide⟩
  have written : encodeBatches [batch] = .ok batch.written := by rfl
  have free : CommitFree tail := by decide +kernel
  have holds : Holds disk ([] ++ [(0, batch.written ++ tail)]) :=
    holds_within [] rfl (listing_nil.insert 0 (batch.written ++ tail) (by decide))
  obtain ⟨found, later⟩ := recover_crash_tail proper written free holds
  exact ⟨found, later 65536 [next] nextProper (by decide)⟩

end ClusterRegistry.Log
