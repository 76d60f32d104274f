import ClusterRegistry.Cluster.Collection
import ClusterRegistry.Store.Checkpoint

/-!
The cluster registry: an open store on a disk, and a clock.  Each operation is one transaction,
which commits as a whole or not at all.
-/
namespace ClusterRegistry

structure Registry where
  store : Store
  clock : Clock
  disk : Disk

namespace Registry

/-- Answer from the published tree. -/
def view (registry : Registry) (context : Context) (now : Nat)
    (body : Bucket → Except ClusterError α) : Except ClusterError α :=
  registry.store.view context now .store fun snapshot => body snapshot.tree

/-- Run `body` in a transaction.  The clock moves as far as `body` has read it, also where the
transaction fails. -/
def transact (registry : Registry) (context : Context) (now : Nat)
    (body : Transaction → Clock → Except ClusterError (α × Transaction) × Clock) :
    Except ClusterError α × Registry :=
  match registry.store.update context now .store body registry.clock registry.disk with
  | (.ok (answer, store), clock, disk) => (.ok answer, ⟨store, clock, disk⟩)
  | (.error error, clock, disk) => (.error error, ⟨registry.store, clock, disk⟩)

def get (registry : Registry) (context : Context) (now : Nat) (id : String) :
    Except ClusterError Cluster :=
  registry.view context now fun tree => Collection.get tree id

def list (registry : Registry) (context : Context) (now : Nat) :
    Except ClusterError (List Cluster) :=
  registry.view context now Collection.list

/-- Both instants of the new cluster are those of its creation. -/
def create (registry : Registry) (context : Context) (now : Nat) (cluster : Cluster) :
    Except ClusterError Cluster × Registry :=
  match cluster.validate with
  | .error error => (.error error, registry)
  | .ok () => registry.transact context now (Collection.create cluster)

def update (registry : Registry) (context : Context) (now : Nat) (cluster : Cluster) :
    Except ClusterError Cluster × Registry :=
  if cluster.id = "" then (.error (.invalidArgument .missingIdentifier), registry)
  else
    match validateGroups cluster.groups with
    | .error error => (.error error, registry)
    | .ok () => registry.transact context now (Collection.update cluster)

def label (registry : Registry) (context : Context) (now : Nat) (ids adds removes : List String) :
    Except ClusterError (List Cluster) × Registry :=
  registry.transact context now (Collection.label ids ⟨adds, removes⟩)

def delete (registry : Registry) (context : Context) (now : Nat) (id : String) :
    Except ClusterError Unit × Registry :=
  registry.transact context now fun tx clock =>
    ((Collection.delete id tx).map fun tx => ((), tx), clock)

end Registry

end ClusterRegistry
