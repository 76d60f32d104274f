import ClusterRegistry.Cluster.Collection
import ClusterRegistry.Proofs.Cluster.Admission

/-!
A directory: what the clusters of a registry come to without buckets, log and disk.  It is a finite
map from identifiers to clusters and a mark whether a collection has ever been made for them, which
stays when the last cluster goes.  Of the limits of a store it knows only which clusters they leave
no room for.
-/
namespace ClusterRegistry

structure Directory where
  founded : Bool
  /-- Clusters under the bytes of their identifiers. -/
  members : List (Key × Cluster)

/-- A clock, and what has been read from it. -/
structure Watch where
  clock : Clock
  readings : List Instant

def Watch.read (watch : Watch) : Instant × Watch :=
  let (now, clock) := watch.clock.read
  (now, ⟨clock, watch.readings ++ [now]⟩)

namespace Directory

open Collection (describe missing Relabelling)

def empty : Directory :=
  ⟨false, []⟩

def find? (directory : Directory) (id : String) : Option Cluster :=
  OrderedMap.find? (Bytes.ofText id) directory.members

def get (directory : Directory) (id : String) : Except ClusterError Cluster :=
  match directory.find? id with
  | some cluster => .ok cluster
  | none => .error (missing id)

def list (directory : Directory) : List Cluster :=
  directory.members.map Prod.snd

/-- Keep a cluster under its identifier, if there is room for it. -/
def save (limits : Limits) (cluster : Cluster) (directory : Directory) :
    Except ClusterError (Cluster × Directory) := do
  reporting (describe cluster.id) (cluster.accept limits)
  return (cluster, ⟨true, OrderedMap.insert (Bytes.ofText cluster.id) cluster directory.members⟩)

def create (limits : Limits) (cluster : Cluster) (directory : Directory) (watch : Watch) :
    Except ClusterError (Cluster × Directory) × Watch :=
  match directory.find? cluster.id with
  | some _ => (.error (.alreadyExists (describe cluster.id)), watch)
  | none =>
    let (now, watch) := watch.read
    (directory.save limits { cluster with createdAt := now, updatedAt := now }, watch)

def update (limits : Limits) (cluster : Cluster) (directory : Directory) (watch : Watch) :
    Except ClusterError (Cluster × Directory) × Watch :=
  match directory.find? cluster.id with
  | none => (.error (missing cluster.id), watch)
  | some old =>
    let (now, watch) := watch.read
    let updated := { old with status := cluster.status, groups := cluster.groups,
                              labels := cluster.labels, updatedAt := now.latest old.updatedAt }
    (directory.save limits updated, watch)

def relabel (limits : Limits) (change : Relabelling) (now : Instant) (id : String)
    (directory : Directory) : Except ClusterError (Cluster × Directory) := do
  let old ← directory.get id
  let labels := old.labels.changed change.adds change.removes
  directory.save limits { old with labels, updatedAt := now.latest old.updatedAt }

def relabelAll (limits : Limits) (change : Relabelling) (now : Instant) :
    List String → Directory → Except ClusterError (List Cluster × Directory)
  | [], directory => .ok ([], directory)
  | id :: rest, directory => do
    let (cluster, directory) ← relabel limits change now id directory
    let (clusters, directory) ← relabelAll limits change now rest directory
    return (cluster :: clusters, directory)

/-- All clusters change at one instant, which is read only where there is a collection. -/
def label (limits : Limits) (ids : List String) (change : Relabelling) (directory : Directory)
    (watch : Watch) : Except ClusterError (List Cluster × Directory) × Watch :=
  match ids with
  | [] => (.ok ([], directory), watch)
  | first :: _ =>
    if directory.founded then
      let (now, watch) := watch.read
      (directory.relabelAll limits change now ids, watch)
    else (.error (missing first), watch)

def delete (id : String) (directory : Directory) : Except ClusterError Directory :=
  if directory.founded then
    match directory.find? id with
    | some _ => .ok ⟨true, OrderedMap.erase (Bytes.ofText id) directory.members⟩
    | none => .error (missing id)
  else .ok directory

end Directory

end ClusterRegistry
