import ClusterRegistry.Proofs.Store.Session

/-!
The numbers of transactions.  What is in the log is numbered without a gap, up to the number that
the store has published: from one on, or from the latest checkpoint, whose batch took the place of
all before it.
-/
namespace ClusterRegistry.Session

/-- The number that the log begins with after `steps`. -/
inductive StartsAt (config : Config) (place : String) : List Step → Nat → Prop where
  | fresh {steps : List Step} (absent : .checkpoint ∉ steps) : StartsAt config place steps 1
  | checkpoint {before after : List Step} {taken : Session} (latest : .checkpoint ∉ after)
      (done : run config place (before ++ [.checkpoint]) = .ok taken) :
      StartsAt config place (before ++ .checkpoint :: after) taken.store.published.txid

namespace StartsAt

variable {config : Config} {place : String} {steps : List Step} {first : Nat}

theorem snoc (starts : StartsAt config place steps first) {step : Step}
    (other : step ≠ .checkpoint) : StartsAt config place (steps ++ [step]) first := by
  have apart (others : List Step) (absent : .checkpoint ∉ others) :
      .checkpoint ∉ others ++ [step] := by
    intro member
    rcases List.mem_append.mp member with old | new
    · exact absent old
    · exact other (List.mem_singleton.mp new).symm
  cases starts with
  | fresh absent => exact .fresh (apart _ absent)
  | checkpoint latest done =>
    rw [List.append_assoc, List.cons_append]
    exact .checkpoint (apart _ latest) done

end StartsAt

/-- The numbers of `batches` follow one another from where the log begins to the published one. -/
def Consecutive (config : Config) (place : String) (steps : List Step) (session : Session)
    (batches : List Log.Batch) : Prop :=
  ∃ first, StartsAt config place steps first ∧
    batches.map Log.Batch.txid = List.range' first batches.length ∧
    first + batches.length = session.store.published.txid + 1

namespace Consecutive

variable {config : Config} {place : String}

theorem start (session : Session) (unused : session.store.published.txid = 0) :
    Consecutive config place [] session [] :=
  ⟨1, .fresh List.not_mem_nil, rfl, by rw [unused]; rfl⟩

theorem advance {steps : List Step} {step : Step} {session next : Session}
    {batches later : List Log.Batch} (done : run config place steps = .ok session)
    (synced : session.Synced batches) (consecutive : Consecutive config place steps session batches)
    (advances : session.Advances batches step next later) :
    Consecutive config place (steps ++ [step]) next later := by
  obtain ⟨first, starts, numbers, last⟩ := consecutive
  obtain ⟨stepped, _, logged, number, _⟩ := advances
  -- Which of the three it is says both what was added to the log and how many numbers were used.
  generalize session.spent step = spent at logged number
  cases logged with
  | nothing other => exact ⟨first, starts.snoc other, numbers, by rw [last, number, Nat.add_zero]⟩
  | batch other records =>
    refine ⟨first, starts.snoc other, ?_, ?_⟩
    · rw [List.map_append, numbers, List.length_append, List.length_singleton,
        List.range'_1_concat, last, ← synced.next]
      rfl
    · rw [List.length_append, List.length_singleton, ← Nat.add_assoc, last, number]
  | checkpoint records =>
    have taken : run config place (steps ++ [.checkpoint]) = .ok next := by
      rw [run_snoc, done]
      exact stepped
    refine ⟨_, .checkpoint List.not_mem_nil taken, ?_, rfl⟩
    rw [number, ← synced.next]
    rfl

end Consecutive

/-- After every run the batches in the log bear consecutive numbers: the first is one, or that of
the latest checkpoint, and the last is the published one, which the next number to be used follows.
A step adds as many numbers as it uses up. -/
theorem run_numbers (config : Config) (place : String) (steps : List Step)
    (valid : config.validate = .ok ())
    (reopened : ∀ other, .reopen other ∈ steps → other.validate = .ok ())
    (bound : steps.length + 1 < Numeral.wordLimit) :
    ∃ session recovery first, run config place steps = .ok session ∧
      Log.recover session.disk = (.ok recovery, session.disk) ∧
      StartsAt config place steps first ∧
      recovery.batches.map Log.Batch.txid = List.range' first recovery.batches.length ∧
      first + recovery.batches.length = session.store.published.txid + 1 ∧
      session.store.nextTxid = session.store.published.txid + 1 ∧
      ∀ step, (∀ other, step = .reopen other → other.validate = .ok ()) →
        ∃ next, session.step step = .ok next ∧
          next.store.published.txid = session.store.published.txid + session.spent step := by
  obtain ⟨session, batches, done, synced, txid, sequence, first, starts, numbers, last⟩ :=
    run_invariant (Consecutive config place) valid Consecutive.start
      (fun _ _ _ _ _ _ done synced consecutive advances =>
        Consecutive.advance done synced consecutive advances) steps reopened (by omega)
  refine ⟨session, _, first, done, synced.ready.recover, starts, numbers, last, synced.next, ?_⟩
  intro step other
  obtain ⟨next, _, advances⟩ :=
    synced.step step other (by rw [synced.next]; omega) (by omega)
  exact ⟨next, advances.done, advances.number⟩

theorem run_numbers_of_checkpoint :
    let steps : List Step := [.write [.create [] [97], .create [] [97]] .commit, .write [] .commit,
      .write [.create [] [98]] .abort, .checkpoint, .reopen .durable,
      .write [.put [[97]] [107] [118]] .commit]
    ∃ session recovery first, run .relaxed "data" steps = .ok session ∧
      Log.recover session.disk = (.ok recovery, session.disk) ∧
      StartsAt .relaxed "data" steps first ∧
      recovery.batches.map Log.Batch.txid = List.range' first recovery.batches.length ∧
      first + recovery.batches.length = session.store.published.txid + 1 := by
  intro steps
  have reopened : ∀ other, Step.reopen other ∈ steps → other.validate = .ok () := by
    intro other member
    have same : other = .durable := by simpa [steps] using member
    rw [same]
    rfl
  obtain ⟨session, recovery, first, done, found, starts, numbers, last, _⟩ :=
    run_numbers .relaxed "data" steps rfl reopened (by decide)
  exact ⟨session, recovery, first, done, found, starts, numbers, last⟩

end ClusterRegistry.Session
