import ClusterRegistry.Proofs.Log.Directory

/-!
A log file cut behind its last commit record.  Whatever the bytes from there on were, the reader
goes the same way without them: it steps over the same records and the same single bytes, and finds
the same batches with nothing left behind them.
-/
namespace ClusterRegistry.Log

/-- A scan either comes to no commit record, or it ends between two batches on the bytes up to the
last one, with the same batches and whatever it was to leave uncommitted. -/
theorem Scan.run_committed (scan : Scan) (data : Bytes) :
    (scan.run data).uncommitted = scan.uncommitted ∧ (scan.run data).batches = scan.batches ∨
      ∃ front, data = front ++ (scan.run data).uncommitted ∧
        ∀ other, { scan with uncommitted := other }.run front =
          border (scan.run data).batches [] := by
  fun_induction run scan data with
  | case1 scan => exact .inl ⟨rfl, rfl⟩
  | case2 scan byte later record rest ok ih =>
    obtain ⟨taken, whole⟩ := Record.suffix_of_read ok
    rw [← whole] at ok ⊢
    have again (front : Bytes) (other : Bytes) :
        { scan with uncommitted := other }.run (taken ++ front) =
          ({ scan with uncommitted := other }.accept record front).run front :=
      run_of_read (Record.read_of_read_append ok front)
    by_cases closing : record.operation = .commit
    · have closed (other front : Bytes) :
          { scan with uncommitted := other }.accept record front =
            border (scan.accept record rest).batches front := by
        simp only [accept, if_pos closing]
        rfl
      -- If no other commit record follows, the front ends with this one.
      rcases ih with ⟨left, same⟩ | ⟨front, cut, found⟩
      · refine .inr ⟨taken, ?_, fun other => ?_⟩
        · rw [left, accept, if_pos closing]
        · have last := again [] other
          rw [List.append_nil, closed, run_nil, ← same] at last
          exact last
      · refine .inr ⟨taken ++ front, by rw [List.append_assoc, ← cut], fun other => ?_⟩
        rw [again, closed, ← found front]
        simp only [accept, if_pos closing]
        rfl
    · rw [accept_of_unclosed _ _ closing] at ih ⊢
      rcases ih with kept | ⟨front, cut, found⟩
      · exact .inl kept
      · refine .inr ⟨taken ++ front, by rw [List.append_assoc, ← cut], fun other => ?_⟩
        rw [again, accept_of_unclosed _ _ closing]
        exact found other
  | case3 scan byte later error failed ih =>
    rcases ih with kept | ⟨front, cut, found⟩
    · exact .inl kept
    · refine .inr ⟨byte :: front, by rw [List.cons_append, ← cut], fun other => ?_⟩
      -- What can be read from the shorter bytes could be read from the longer ones.
      rw [cut, ← List.cons_append] at failed
      obtain ⟨error, failed⟩ := Record.error_of_read_append failed
      rw [run_of_error failed]
      exact found other

/-- The bytes up to the last commit record. -/
def committed (data : Bytes) : Bytes :=
  data.take (data.length - (scan data).uncommitted.length)

private theorem scan_parts (data : Bytes) :
    data = committed data ++ (scan data).uncommitted ∧
      scan (committed data) = Scan.border (scan data).batches [] := by
  obtain ⟨front, cut, found⟩ : ∃ front, data = front ++ (scan data).uncommitted ∧
      scan front = Scan.border (scan data).batches [] := by
    rw [scan_eq data]
    rcases (Scan.start data).run_committed data with ⟨all, none⟩ | ⟨front, cut, found⟩
    · refine ⟨[], all.symm, ?_⟩
      rw [none, scan_eq, Scan.run_nil]
      rfl
    · exact ⟨front, cut, (scan_eq front).trans (found front)⟩
  have length := congrArg List.length cut
  rw [List.length_append] at length
  have same : front = committed data := by
    rw [committed, length, Nat.add_sub_cancel]
    exact List.prefix_iff_eq_take.mp ⟨_, cut.symm⟩
  rw [← same]
  exact ⟨cut, found⟩

theorem scan_committed (data : Bytes) :
    scan (committed data) = Scan.border (scan data).batches [] :=
  (scan_parts data).2

theorem length_committed (data : Bytes) :
    (committed data).length = data.length - (scan data).uncommitted.length := by
  rw [committed, List.length_take]
  exact Nat.min_eq_left (Nat.sub_le _ _)

theorem committed_of_settled {data : Bytes} (settled : (scan data).uncommitted = []) :
    committed data = data := by
  rw [committed, settled, List.length_nil, Nat.sub_zero, List.take_length]

variable {disk : Disk} {older : List (Nat × Bytes)} {sequence : Nat} {contents : Bytes}

theorem recovered_committed (older : List (Nat × Bytes)) (sequence : Nat) (contents : Bytes) :
    recovered (older ++ [(sequence, contents)]) = ⟨batchesOf older ++ (scan contents).batches,
      some ⟨fileName sequence, (committed contents).length, contents.length⟩⟩ := by
  rw [recovered_append, length_committed]

/-- Once the newest file is cut where its committed part ends, recovery finds the same batches and
nothing behind them. -/
theorem recover_cut (holds : Holds disk (older ++ [(sequence, contents)])) :
    ∃ shortened, Tail.cut ⟨fileName sequence, (committed contents).length, contents.length⟩ disk =
        (.ok (), shortened) ∧
      Holds shortened (older ++ [(sequence, committed contents)]) ∧
      recover shortened = (.ok ⟨batchesOf older ++ (scan contents).batches,
        some ⟨fileName sequence, (committed contents).length, (committed contents).length⟩⟩,
        shortened) := by
  obtain ⟨shortened, cut, kept⟩ := cut_of_holds holds (committed contents).length contents.length
  rw [length_committed, ← committed] at kept
  refine ⟨shortened, cut, kept, ?_⟩
  rw [recover_of_holds kept, recovered_committed, scan_committed, committed_of_settled]
  · rfl
  · rw [scan_committed]
    rfl

end ClusterRegistry.Log
