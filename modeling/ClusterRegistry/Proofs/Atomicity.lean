import ClusterRegistry.Proofs.Log.RefusedBatch
import ClusterRegistry.Proofs.Registry

/-!
All or nothing.  A transaction that is not committed, whatever stops it and whatever it has done by
then, leaves the store and the disk as they were, so a run goes on as if it had not been in it; and
a request that is answered with an error leaves all clusters and the log as they were.
-/
namespace ClusterRegistry

namespace Store

variable {store : Store} {disk later : Disk}

private theorem commit_eq_error {tx : Transaction} {error : StoreError}
    (failed : store.commit tx disk = (.error error, later)) : later = disk := by
  unfold commit at failed
  split at failed
  · cases failed
  · rcases appended : store.writer.append tx.log store.nextTxid disk with ⟨cause | writer, middle⟩
    · rw [DiskM.bind_of_error appended] at failed
      cases failed
      exact Log.Writer.append_eq_error appended
    · rw [DiskM.bind_of_ok appended] at failed
      cases failed

private theorem update_eq_error {ε α σ : Type} {context : Context} {now : Nat}
    {lift : StoreError → ε}
    {body : Transaction → σ → Except ε (α × Transaction) × σ} {state last : σ} {error : ε}
    (failed : store.update context now lift body state disk = (.error error, last, later)) :
    later = disk := by
  unfold update at failed
  split at failed
  · cases failed
    rfl
  · split at failed
    · cases failed
      rfl
    · split at failed
      · rename_i refused
        cases failed
        exact commit_eq_error refused
      · cases failed

end Store

namespace Session

/-- Whether a step is a transaction that comes to nothing: aborted, dropped, or refused. -/
def isUndone (session : Session) : Step → Bool
  | .write edits .commit =>
    !(session.store.commit (session.store.begin.attemptAll edits) session.disk).1.isOk
  | .write _ .abort => true
  | .write _ .drop => true
  | _ => false

private theorem step_of_isUndone {session : Session} {step : Step}
    (undone : session.isUndone step = true) :
    session.step step = .ok session := by
  unfold isUndone at undone
  split at undone
  · rename_i edits
    rcases done : session.store.commit (session.store.begin.attemptAll edits) session.disk with
      ⟨error | store, later⟩
    · simp only [Session.step, done, Store.commit_eq_error done]
    · rw [done] at undone
      contradiction
  · rfl
  · rfl
  · contradiction

/-- The steps of a run without the transactions that come to nothing in it. -/
def effective (session : Session) : List Step → List Step
  | [] => []
  | step :: rest =>
    match session.step step with
    | .error _ => [step]
    | .ok next =>
      if session.isUndone step then effective next rest else step :: effective next rest

private theorem foldlM_effective (session : Session) (steps : List Step) :
    (session.effective steps).foldlM Session.step session = steps.foldlM Session.step session := by
  induction steps generalizing session with
  | nil => rfl
  | cons step rest ih =>
    rw [effective]
    cases done : session.step step with
    | error error => simp only [List.foldlM_cons, done]; rfl
    | ok next =>
      dsimp only
      split
      · rename_i undone
        cases (step_of_isUndone undone).symm.trans done
        rw [ih, List.foldlM_cons, done]
        rfl
      · rw [List.foldlM_cons, List.foldlM_cons, done]
        exact ih next

end Session

def Answer.isOk : Answer → Bool
  | .cluster outcome => outcome.isOk
  | .clusters outcome => outcome.isOk
  | .done outcome => outcome.isOk

namespace Registry

variable {registry next : Registry} {context : Context} {now : Nat}

theorem transact_eq_error {α : Type}
    {body : Transaction → Clock → Except ClusterError (α × Transaction) × Clock}
    {error : ClusterError}
    (failed : registry.transact context now body = (.error error, next)) :
    next.store = registry.store ∧ next.disk = registry.disk := by
  unfold transact at failed
  split at failed
  · cases failed
  · rename_i refused
    cases failed
    exact ⟨rfl, Store.update_eq_error refused⟩

private theorem transact_of_not_isOk {α : Type}
    {body : Transaction → Clock → Except ClusterError (α × Transaction) × Clock}
    (failed : (registry.transact context now body).1.isOk = false) :
    (registry.transact context now body).2.store = registry.store ∧
      (registry.transact context now body).2.disk = registry.disk := by
  rcases done : registry.transact context now body with ⟨error | answer, next⟩
  · exact transact_eq_error done
  · rw [done] at failed
    contradiction

/-- Whatever the request, an error for an answer says that store and disk are as they were. -/
theorem call_of_not_isOk {request : Request}
    (failed : (registry.call context now request).1.isOk = false) :
    (registry.call context now request).2.store = registry.store ∧
      (registry.call context now request).2.disk = registry.disk := by
  cases request with
  | create cluster =>
    simp only [call, create, Answer.isOk] at failed ⊢
    split
    · exact ⟨rfl, rfl⟩
    · rename_i valid
      rw [valid] at failed
      exact transact_of_not_isOk failed
  | get id => exact ⟨rfl, rfl⟩
  | list => exact ⟨rfl, rfl⟩
  | update cluster =>
    simp only [call, update, Answer.isOk] at failed ⊢
    split
    · exact ⟨rfl, rfl⟩
    · rename_i named
      rw [if_neg named] at failed
      split
      · exact ⟨rfl, rfl⟩
      · rename_i valid
        rw [valid] at failed
        exact transact_of_not_isOk failed
  | label ids adds removes => exact transact_of_not_isOk failed
  | delete id => exact transact_of_not_isOk failed

/-- What is not committed leaves no trace, on any store and any disk.  A commit or an update that
is refused leaves the disk as it was; a transaction that is aborted, dropped or refused leaves the
store too, and a run goes on as if it had not been there; and a request that is answered with an
error has at most read the clock. -/
theorem unfinished_leaves_all (store : Store) (disk : Disk) :
    (∀ tx error later, store.commit tx disk = (.error error, later) → later = disk) ∧
      (∀ (ε α σ : Type) (context : Context) (now : Nat) (lift : StoreError → ε)
        (body : Transaction → σ → Except ε (α × Transaction) × σ) (state last : σ) (error : ε)
        (later : Disk), store.update context now lift body state disk = (.error error, last, later) →
          later = disk) ∧
      (∀ step, Session.isUndone ⟨store, disk⟩ step = true →
        Session.step ⟨store, disk⟩ step = .ok ⟨store, disk⟩) ∧
      (∀ steps, (Session.effective ⟨store, disk⟩ steps).foldlM Session.step ⟨store, disk⟩ =
        steps.foldlM Session.step ⟨store, disk⟩) ∧
      ∀ clock context now request answer next,
        call ⟨store, clock, disk⟩ context now request = (answer, next) → answer.isOk = false →
          next.store = store ∧ next.disk = disk := by
  refine ⟨?_, ?_, ?_, Session.foldlM_effective ⟨store, disk⟩, ?_⟩
  · intro tx error later refused
    exact Store.commit_eq_error refused
  · intro ε α σ context now lift body state last error later refused
    exact Store.update_eq_error refused
  · intro step undone
    exact Session.step_of_isUndone undone
  · intro clock context now request answer next called failed
    have kept := @call_of_not_isOk ⟨store, clock, disk⟩ context now request
    rw [called] at kept
    exact kept failed

private theorem length_written_put (txid : Nat) (key value : Bytes) :
    (⟨txid, [.put [] key value]⟩ : Log.Batch).written.length =
      92 + key.length + value.length := by
  simp [Log.Batch.written, Record.length_written, Record.payload, Record.put, Record.commit,
    Bytes.littleEndian_length, Record.headerSize]
  omega

/-- The log file is full, and a directory has the name of the next one. -/
theorem unfinished_leaves_all_of_blocked :
    let value := List.replicate 65536 0
    let batch : Log.Batch := ⟨1, [.put [] [107] value]⟩
    let disk : Disk := ⟨"data", Log.within [(Log.fileName 0, .file batch.written),
      (Log.fileName 1, .folder [])] [], [some (Log.pathOf (Log.fileName 0))]⟩
    let store : Store := ⟨⟨65536, 1024, 1048576, .relaxed⟩, ⟨[([107], .value value)], 1⟩, 2,
      ⟨0, 65629, 65536, ⟨0⟩⟩⟩
    let cluster : Cluster := ⟨"c", none, [], .empty, ⟨0, 0⟩, ⟨0, 0⟩⟩
    let blocked := DiskFault.isDirectory.during (disk.placeOf (Log.pathOf (Log.fileName 1)))
      "Failed to open WAL file"
    let step : Session.Step := .write [.create [] [97], .put [[97]] [107] []] .commit
    batch.written.length = store.writer.size ∧
      Session.step ⟨store, disk⟩ step = .ok ⟨store, disk⟩ ∧
      ∃ next, call ⟨store, ⟨⟨0, 0⟩, 1⟩, disk⟩ .background 0 (.create cluster) =
        (.cluster (.error (.store blocked)), next) ∧ next.store = store ∧ next.disk = disk := by
  intro value batch disk store cluster blocked step
  obtain ⟨_, _, undone, _, requests⟩ := unfinished_leaves_all store disk
  have answer : (call ⟨store, ⟨⟨0, 0⟩, 1⟩, disk⟩ .background 0 (.create cluster)).1 =
      .cluster (.error (.store blocked)) := by decide +kernel
  rcases called : call ⟨store, ⟨⟨0, 0⟩, 1⟩, disk⟩ .background 0 (.create cluster) with ⟨given, next⟩
  rw [called] at answer
  change given = _ at answer
  subst answer
  have size : batch.written.length = 65629 := by
    rw [length_written_put, List.length_replicate]
    rfl
  exact ⟨size, undone step (by decide +kernel), next, rfl, requests _ _ _ _ _ _ called rfl⟩

end Registry

end ClusterRegistry
