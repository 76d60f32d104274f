import ClusterRegistry.Context
import ClusterRegistry.Log.Recovery
import ClusterRegistry.Log.Writer
import ClusterRegistry.Store.Config

/-!
An open store: the published tree and the writer of the log that leads to it.  A commit first
appends its records to the log and publishes its tree after that, so what readers see is what
recovery would find.
-/
namespace ClusterRegistry

/-- What a reader sees: a tree and the transaction that published it. -/
structure Snapshot where
  tree : Bucket
  txid : Nat

structure Store where
  config : Config
  published : Snapshot
  nextTxid : Nat
  writer : Log.Writer

namespace Store

def replayBatch (tree : Bucket) (batch : Log.Batch) : Except (Nat × TreeError) Bucket :=
  (tree.replay batch.records).mapError fun error => (batch.txid, error)

/-- The tree that committed batches lead to, and the highest of their numbers. -/
def replay (batches : List Log.Batch) : Except (Nat × TreeError) Snapshot := do
  let tree ← batches.foldlM replayBatch []
  return ⟨tree, (batches.map Log.Batch.txid).foldl max 0⟩

def cutTail (recovery : Log.Recovery) : DiskM Unit :=
  match recovery.tail with
  | some tail => if tail.isClean then pure () else tail.cut
  | none => pure ()

def replayed (batches : List Log.Batch) : DiskM Snapshot := fun disk =>
  match replay batches with
  | .ok snapshot => (.ok snapshot, disk)
  | .error (txid, cause) =>
    (.error (.corrupted (disk.placeOf Log.folderPath) 0 (.unreplayable txid cause)), disk)

/-- The store that the log on a disk leads to.  A missing log directory is created; nothing else
is changed before the whole log has replayed. -/
def load (config : Config) : DiskM Store := do
  config.validate
  Log.makeFolder
  let recovery ← Log.recover
  let published ← replayed recovery.batches
  cutTail recovery
  let writer ← Log.Writer.openNewest config.rotationSize
  return ⟨config, published, published.txid + 1, writer⟩

def begin (store : Store) : Transaction :=
  .start store.config.limits store.published.tree

/-- Log a transaction, then publish it.  One without records is dropped and uses up no number. -/
def commit (store : Store) (tx : Transaction) : DiskM Store :=
  if tx.log = [] then pure store
  else do
    let writer ← store.writer.append tx.log store.nextTxid
    return ⟨store.config, ⟨tx.tree, store.nextTxid⟩, store.nextTxid + 1, writer⟩

/-- Read the published tree, if the context permits it. -/
def view (store : Store) (context : Context) (now : Nat) (lift : StoreError → ε)
    (body : Snapshot → Except ε α) : Except ε α :=
  match context.check now with
  | .error error => .error (lift error)
  | .ok () => body store.published

/-- Run `body` in a transaction, which commits if `body` succeeds.  The state `σ` is the caller's
own and is kept also where the transaction is not. -/
def update (store : Store) (context : Context) (now : Nat) (lift : StoreError → ε)
    (body : Transaction → σ → Except ε (α × Transaction) × σ) (state : σ) (disk : Disk) :
    Except ε (α × Store) × σ × Disk :=
  match context.check now with
  | .error error => (.error (lift error), state, disk)
  | .ok () =>
    match body store.begin state with
    | (.error error, state) => (.error error, state, disk)
    | (.ok (answer, tx), state) =>
      match store.commit tx disk with
      | (.error error, disk) => (.error (lift error), state, disk)
      | (.ok store, disk) => (.ok (answer, store), state, disk)

end Store

end ClusterRegistry
