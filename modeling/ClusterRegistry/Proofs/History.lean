import ClusterRegistry.Proofs.Atomicity
import ClusterRegistry.Proofs.Cluster.Upkeep

/-!
The clusters of a registry in the course of a run, from an empty directory on.  Each action has a
configuration of its own, which a registry that is opened again takes on.  Whatever the clock says
and in whatever order, every entry of the collection stays the bucket of a valid cluster, and from
its creation to its removal a cluster keeps the one instant and never goes back in the other.
-/
namespace ClusterRegistry

/-- What is promised of an entry of the collection. -/
structure Collection.Registered (key : Key) (bucket : Bucket) (cluster : Cluster) : Prop where
  named : key = Bytes.ofText cluster.id
  identified : Identifier.validate cluster.id = .ok ()
  stored : Layout.field? bucket Layout.id = some key
  decoded : ∀ defaultId, Layout.readCluster bucket defaultId = .ok cluster
  sized : totalSize cluster.groups ≤ maxClusterSize
  chronological : cluster.updatedAt.isBefore cluster.createdAt = false

def Collection.Consistent (tree : Bucket) : Prop :=
  ∀ clusters, collection? tree = some clusters → ∀ entry ∈ clusters,
    ∃ bucket cluster, entry.2 = .bucket bucket ∧ Registered entry.1 bucket cluster

theorem Collection.Upkept.consistent {tree : Bucket} (upkept : Upkept tree)
    (wellFormed : tree.WellFormed) : Consistent tree := by
  intro clusters found entry member
  have ordered : OrderedMap.Ordered clusters := (wellFormed.child found).2.ordered
  have present : item? tree entry.1 = some entry.2 := by
    rw [item?, found]
    exact OrderedMap.find?_of_mem ordered member
  obtain ⟨bucket, cluster, same, tended⟩ := upkept _ _ present
  refine ⟨bucket, cluster, same, tended.named, tended.identified, ?_, tended.readCluster,
    tended.sized, tended.chronological⟩
  exact tended.named ▸ tended.shown.id

theorem Collection.upkept_of_holds_empty {tree : Bucket} (holds : Holds tree .empty) :
    Upkept tree := by
  cases holds
  intro key item present
  contradiction

def Request.Countable : Request → Prop
  | create cluster => cluster.Countable
  | update cluster => cluster.Countable
  | _ => True

def Action.Countable : Action → Prop
  | call _ _ request => request.Countable
  | _ => True

/-- A request that reads the clock if it is granted. -/
def Request.stamps : Request → Bool
  | create _ => true
  | update _ => true
  | label ids _ _ => !ids.isEmpty
  | _ => false

/-- An action in a run, with the registry that it met and the answer that it got. -/
structure Event where
  before : Registry
  action : Action
  answer : Answer

namespace Event

/-- The instant that a granted request has read from the clock. -/
def stamp? (event : Event) : Option Instant :=
  match event.action with
  | .call _ _ request =>
    if request.stamps && event.answer.isOk then some event.before.clock.next else none
  | _ => none

def deletes (id : String) (event : Event) : Bool :=
  match event.action with
  | .call _ _ (.delete other) => other = id && event.answer.isOk
  | _ => false

end Event

namespace Registry

/-- The events of a run and the registry after it, where each action has its configuration. -/
def trace : List (Config × Action) → Registry → Except StoreError (List Event × Registry)
  | [], registry => .ok ([], registry)
  | (config, action) :: rest, registry => do
    let (answer, next) ← registry.act config action
    let (events, last) ← trace rest next
    return (⟨registry, action, answer⟩ :: events, last)

def tree (registry : Registry) : Bucket :=
  registry.store.published.tree

def session (registry : Registry) : Session :=
  ⟨registry.store, registry.disk⟩

end Registry

open Collection

/-- An upkept collection stays so, and every cluster stays that the event does not delete. -/
def Event.Preserves (event : Event) (next : Registry) : Prop :=
  Upkept event.before.tree → (∀ instant ∈ event.stamp?, instant.Writable) →
    Upkept next.tree ∧ ∀ id, event.deletes id = false → Outlives id event.before.tree next.tree

theorem Event.preserves_of_same {event : Event} {next : Registry}
    (same : next.tree = event.before.tree) : event.Preserves next := by
  intro upkept _
  rw [same]
  exact ⟨upkept, fun id _ => .refl id _⟩

namespace Registry

variable {registry : Registry} {count : Nat} (context : Context) (now : Nat)

private theorem deleted_of_ok {id : String} {tx later : Transaction} {clock after : Clock}
    {answer : Unit}
    (ok : ((Collection.delete id tx).map fun tx => ((), tx), clock) = (.ok (answer, later), after)) :
    Collection.delete id tx = .ok later := by
  cases done : Collection.delete id tx with
  | error error =>
    rw [done] at ok
    cases ok
  | ok next =>
    rw [done] at ok
    cases ok
    rfl

/-- A transaction changes nothing at all, or publishes what its body has come to. -/
theorem transact_cases {α : Type} (reached : registry.session.Reached count)
    (bound : count + 1 < Numeral.wordLimit)
    {body : Transaction → Clock → Except ClusterError (α × Transaction) × Clock}
    (follows : ∀ tx answer later after, tx.Follows registry.tree →
      body tx registry.clock = (.ok (answer, later), after) → later.Follows registry.tree) :
    (registry.transact context now body).2.session.Reached (count + 1) ∧
      (((registry.transact context now body).1.isOk = false ∧
          (registry.transact context now body).2.tree = registry.tree) ∨
        ∃ tx answer later after, tx.tree = registry.tree ∧
          body tx registry.clock = (.ok (answer, later), after) ∧
          (registry.transact context now body).1 = .ok answer ∧
          (registry.transact context now body).2.tree = later.tree) := by
  obtain ⟨batches, synced⟩ := reached.synced
  have begins : registry.store.begin.Follows registry.tree :=
    Transaction.follows_start _ synced.storable.wellFormed
  unfold transact Store.update
  cases context.check now with
  | error error => exact ⟨reached.next, .inl ⟨rfl, rfl⟩⟩
  | ok =>
    rcases done : body registry.store.begin registry.clock with ⟨error | ⟨answer, later⟩, after⟩
    · exact ⟨reached.next, .inl ⟨rfl, rfl⟩⟩
    · dsimp only
      rcases reached.commit_cases bound (follows _ _ _ _ begins done) with
        ⟨error, refused⟩ | ⟨store, disk, committed, onward, _, same⟩
      · rw [session] at refused
        rw [refused]
        exact ⟨reached.next, .inl ⟨rfl, rfl⟩⟩
      · rw [session] at committed
        rw [committed]
        exact ⟨onward, .inr ⟨_, answer, later, after, rfl, done, rfl, same⟩⟩

theorem transact_preserves {α : Type} (reached : registry.session.Reached count)
    (bound : count + 1 < Numeral.wordLimit) (action : Action)
    (answered : Except ClusterError α → Answer)
    {body : Transaction → Clock → Except ClusterError (α × Transaction) × Clock}
    (follows : ∀ tx answer later after, tx.Follows registry.tree →
      body tx registry.clock = (.ok (answer, later), after) → later.Follows registry.tree)
    (keeps : ∀ tx answer later after, body tx registry.clock = (.ok (answer, later), after) →
      Upkept tx.tree →
      (∀ instant ∈ Event.stamp? ⟨registry, action, answered (.ok answer)⟩, instant.Writable) →
      Upkept later.tree ∧ ∀ id, Event.deletes id ⟨registry, action, answered (.ok answer)⟩ = false →
        Outlives id tx.tree later.tree) :
    (registry.transact context now body).2.session.Reached (count + 1) ∧
      Event.Preserves ⟨registry, action, answered (registry.transact context now body).1⟩
        (registry.transact context now body).2 := by
  obtain ⟨onward, ⟨_, unchanged⟩ | ⟨tx, answer, later, after, begun, done, granted, published⟩⟩ :=
    transact_cases context now reached bound follows
  · exact ⟨onward, Event.preserves_of_same unchanged⟩
  · refine ⟨onward, ?_⟩
    intro upkept timely
    rw [granted] at timely
    rw [granted, published]
    rw [← begun] at upkept
    have kept := keeps tx answer later after done upkept timely
    rwa [begun] at kept

/-- One request: whatever is granted upholds the collection. -/
theorem call_preserves (reached : registry.session.Reached count)
    (bound : count + 1 < Numeral.wordLimit) {request : Request} (countable : request.Countable) :
    (registry.call context now request).2.session.Reached (count + 1) ∧
      Event.Preserves ⟨registry, .call context now request, (registry.call context now request).1⟩
        (registry.call context now request).2 := by
  cases request with
  | get id => exact ⟨reached.next, Event.preserves_of_same rfl⟩
  | list => exact ⟨reached.next, Event.preserves_of_same rfl⟩
  | create cluster =>
    simp only [call, create]
    cases valid : cluster.validate with
    | error error => exact ⟨reached.next, Event.preserves_of_same rfl⟩
    | ok =>
      apply transact_preserves context now reached bound _ Answer.cluster
      · exact fun tx answer later after follows ok => follows.create ok
      · intro tx answer later after ok upkept timely
        have upholds := create_upholds upkept valid countable (timely _ rfl) ok
        exact ⟨upholds.upkept, fun id _ => upholds.outlives id⟩
  | update cluster =>
    simp only [call, update]
    split
    · exact ⟨reached.next, Event.preserves_of_same rfl⟩
    · cases valid : validateGroups cluster.groups with
      | error error => exact ⟨reached.next, Event.preserves_of_same rfl⟩
      | ok =>
        apply transact_preserves context now reached bound _ Answer.cluster
        · exact fun tx answer later after follows ok => follows.update ok
        · intro tx answer later after ok upkept timely
          have upholds := update_upholds upkept valid countable (timely _ rfl) ok
          exact ⟨upholds.upkept, fun id _ => upholds.outlives id⟩
  | label ids adds removes =>
    simp only [call, label]
    apply transact_preserves context now reached bound _ Answer.clusters
    · exact fun tx answer later after follows ok => follows.label ok
    · intro tx answer later after ok upkept timely
      have stamped : ids ≠ [] → registry.clock.next.Writable := by
        intro some
        apply timely
        simp [Event.stamp?, Request.stamps, Answer.isOk, Except.isOk, Except.toBool, some]
      have upholds := label_upholds upkept stamped ok
      exact ⟨upholds.upkept, fun id _ => upholds.outlives id⟩
  | delete id =>
    simp only [call, delete]
    apply transact_preserves context now reached bound _ Answer.done
    · intro tx answer later after follows ok
      exact follows.delete (deleted_of_ok ok)
    · intro tx answer later after ok upkept _
      obtain ⟨kept, outlives⟩ := delete_upkept upkept (deleted_of_ok ok)
      refine ⟨kept, fun other spared => outlives other ?_⟩
      rintro rfl
      simp [Event.deletes, Answer.isOk, Except.isOk, Except.toBool] at spared

theorem act_preserves (reached : registry.session.Reached count)
    (bound : count + 1 < Numeral.wordLimit) {config : Config} (valid : config.validate = .ok ())
    {action : Action} (countable : action.Countable) :
    ∃ answer next, registry.act config action = .ok (answer, next) ∧
      next.session.Reached (count + 1) ∧ Event.Preserves ⟨registry, action, answer⟩ next := by
  cases action with
  | call context now request => exact ⟨_, _, rfl, call_preserves context now reached bound countable⟩
  | checkpoint =>
    obtain ⟨result, store, later, done, onward, _, same⟩ := reached.checkpoint bound
    rw [session] at done
    exact ⟨_, { registry with store, disk := later }, by rw [act, done], onward,
      Event.preserves_of_same same⟩
  | reopen =>
    obtain ⟨store, later, opened, onward, _, same⟩ := reached.load valid
    rw [session] at opened
    exact ⟨_, ⟨store, registry.clock, later⟩, by rw [act, load, opened], onward,
      Event.preserves_of_same same⟩
  | wait clock => exact ⟨_, _, rfl, reached.next, Event.preserves_of_same rfl⟩

theorem trace_preserves (steps : List (Config × Action)) (reached : registry.session.Reached count)
    (bound : count + steps.length < Numeral.wordLimit)
    (valid : ∀ step ∈ steps, step.1.validate = .ok ())
    (countable : ∀ step ∈ steps, step.2.Countable) :
    ∃ events last, registry.trace steps = .ok (events, last) ∧
      last.session.Reached (count + steps.length) ∧
      (Upkept registry.tree → (∀ event ∈ events, ∀ instant ∈ event.stamp?, instant.Writable) →
        Upkept last.tree ∧ ∀ id, (∀ event ∈ events, event.deletes id = false) →
          Outlives id registry.tree last.tree) := by
  induction steps generalizing registry count with
  | nil =>
    exact ⟨[], registry, rfl, reached, fun upkept _ => ⟨upkept, fun id _ => .refl id _⟩⟩
  | cons step steps ih =>
    obtain ⟨config, action⟩ := step
    rw [List.length_cons] at bound
    obtain ⟨validHere, valid⟩ := List.forall_mem_cons.mp valid
    obtain ⟨countableHere, countable⟩ := List.forall_mem_cons.mp countable
    obtain ⟨answer, next, acted, onward, here⟩ :=
      act_preserves reached (by omega) validHere countableHere
    obtain ⟨events, last, traced, reached', rest⟩ := ih onward (by omega) valid countable
    refine ⟨⟨registry, action, answer⟩ :: events, last, ?_, ?_, ?_⟩
    · rw [trace, acted]
      change (next.trace steps >>= _) = _
      rw [traced]
      rfl
    · rwa [List.length_cons, Nat.add_comm steps.length 1, ← Nat.add_assoc]
    · intro upkept timely
      obtain ⟨timelyHere, timely⟩ := List.forall_mem_cons.mp timely
      obtain ⟨upkept, first⟩ := here upkept timelyHere
      obtain ⟨upkept, later⟩ := rest upkept timely
      refine ⟨upkept, fun id spared => ?_⟩
      obtain ⟨sparedHere, spared⟩ := List.forall_mem_cons.mp spared
      exact (first id sparedHere).trans (later id spared)

/-- A run from an empty directory on, cut anywhere in two, does not fail.  If the instants that its
granted requests read lie in years of four digits, then every entry of the collection at its end is
the bucket of one valid cluster, under whose identifier it stands, and which is read from it; and a
cluster that was stored at the cut and is not deleted afterwards is still stored, created at the same
instant and not updated before the instant that it had.  A 64-bit word counts the lists of a request
and the actions of a run. -/
theorem trace_consistent (config : Config) (place : String) (clock : Clock)
    (first rest : List (Config × Action)) (valid : config.validate = .ok ())
    (reopened : ∀ step ∈ first ++ rest, step.1.validate = .ok ())
    (countable : ∀ step ∈ first ++ rest, step.2.Countable)
    (bound : (first ++ rest).length < Numeral.wordLimit) :
    ∃ opened early middle late last, load config clock (.empty place) = .ok opened ∧
      opened.trace first = .ok (early, middle) ∧ middle.trace rest = .ok (late, last) ∧
      ((∀ event ∈ early ++ late, ∀ instant ∈ event.stamp?, instant.Writable) →
        Consistent last.tree ∧
        ∀ id cluster, Collection.get middle.tree id = .ok cluster →
          (∀ event ∈ late, event.deletes id = false) →
          ∃ later, Collection.get last.tree id = .ok later ∧ later.Succeeds cluster) := by
  rw [List.forall_mem_append] at reopened countable
  rw [List.length_append] at bound
  obtain ⟨opened, opens, mirrors⟩ := mirrors_load_empty valid place clock
  obtain ⟨early, middle, begun, reached, upkeep⟩ :=
    trace_preserves first mirrors.reached (by omega) reopened.1 countable.1
  obtain ⟨late, last, continued, ended, onward⟩ :=
    trace_preserves rest reached (by omega) reopened.2 countable.2
  refine ⟨opened, early, middle, late, last, opens, begun, continued, ?_⟩
  intro timely
  rw [List.forall_mem_append] at timely
  have empty : Upkept opened.tree := upkept_of_holds_empty mirrors.holds
  obtain ⟨upkept, _⟩ := upkeep empty timely.1
  obtain ⟨upkept, outlives⟩ := onward upkept timely.2
  obtain ⟨batches, synced⟩ := ended.synced
  refine ⟨upkept.consistent synced.storable.wellFormed, ?_⟩
  intro id cluster stored spared
  exact outlives id spared cluster stored

/-- A cluster is updated at an earlier time than it was created at, and labelled after a checkpoint
and under another configuration. -/
theorem trace_consistent_of_earlier_update :
    let cluster : Cluster :=
      ⟨"c", none, [⟨3, "small", "here", none, .empty⟩], .ofList ["a"], ⟨7, 7⟩, ⟨8, 8⟩⟩
    let clock : Clock := ⟨⟨1700000000, 0⟩, 1000000000⟩
    let request : Request → Action := .call .background 0
    let first : List (Config × Action) := [(.relaxed, request (.create cluster))]
    let rest : List (Config × Action) := [(.relaxed, .wait ⟨⟨1000000000, 5⟩, 0⟩),
      (.relaxed, request (.update { cluster with groups := [] })), (.relaxed, .checkpoint),
      (.durable, .reopen), (.durable, request (.label ["c"] ["b"] ["a"]))]
    let created := { cluster with createdAt := clock.next, updatedAt := clock.next }
    ∃ opened early middle late last, load .relaxed clock (.empty "data") = .ok opened ∧
      opened.trace first = .ok (early, middle) ∧ middle.trace rest = .ok (late, last) ∧
      (∀ event ∈ early ++ late, ∀ instant ∈ event.stamp?, instant.Writable) ∧
      (∀ event ∈ late, event.deletes "c" = false) ∧
      Collection.get middle.tree "c" = .ok created ∧ Consistent last.tree ∧
      ∃ later, Collection.get last.tree "c" = .ok later ∧ later.Succeeds created := by
  intro cluster clock request first rest created
  have countable : ∀ step ∈ first ++ rest, step.2.Countable := by
    simp only [first, rest, List.cons_append, List.nil_append, List.forall_mem_cons]
    exact ⟨⟨by decide, by simp [cluster]⟩, trivial, ⟨by decide, by simp⟩, trivial, trivial, trivial,
      by simp⟩
  obtain ⟨opened, early, middle, late, last, opens, begun, continued, kept⟩ :=
    trace_consistent .relaxed "data" clock first rest rfl (by decide) countable (by decide)
  have evaluated : (do
      let opened ← load .relaxed clock (.empty "data")
      let (early, middle) ← opened.trace first
      let (late, _) ← middle.trace rest
      return decide ((∀ event ∈ early ++ late, ∀ instant ∈ event.stamp?, instant.Writable) ∧
        (∀ event ∈ late, event.deletes "c" = false) ∧
        Collection.get middle.tree "c" = .ok created)) = Except.ok true := by
    decide +kernel
  obtain ⟨_, opens', evaluated⟩ := Outcome.bind_eq_ok.mp evaluated
  cases opens.symm.trans opens'
  obtain ⟨_, begun', evaluated⟩ := Outcome.bind_eq_ok.mp evaluated
  cases begun.symm.trans begun'
  obtain ⟨_, continued', evaluated⟩ := Outcome.bind_eq_ok.mp evaluated
  cases continued.symm.trans continued'
  obtain ⟨timely, spared, stored⟩ := of_decide_eq_true (Except.ok.inj evaluated)
  obtain ⟨consistent, outlives⟩ := kept timely
  exact ⟨opened, early, middle, late, last, opens, begun, continued, timely, spared, stored,
    consistent, outlives "c" created stored spared⟩

end Registry

end ClusterRegistry
