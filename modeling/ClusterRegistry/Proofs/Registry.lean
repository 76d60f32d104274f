import ClusterRegistry.Proofs.Cluster.Collection
import ClusterRegistry.Proofs.Store.Session
import ClusterRegistry.Registry

/-!
A registry at work, from an empty directory on: requests, checkpoints, and closing and opening it
again, in any order and at any times.  Every answer is the one that a directory of clusters gives,
which has no tree, no log and no disk.
-/
namespace ClusterRegistry

inductive Request where
  | create (cluster : Cluster)
  | get (id : String)
  | list
  | update (cluster : Cluster)
  | label (ids adds removes : List String)
  | delete (id : String)

/-- Identifiers that are no longer than a key, and lists that are no longer than a length can say. -/
def Request.Fits (limits : Limits) : Request → Prop
  | create cluster => (Bytes.ofText cluster.id).length ≤ limits.maxKeySize ∧ cluster.Countable
  | get id => (Bytes.ofText id).length ≤ limits.maxKeySize
  | list => True
  | update cluster => (Bytes.ofText cluster.id).length ≤ limits.maxKeySize ∧ cluster.Countable
  | label ids _ _ => ∀ id ∈ ids, (Bytes.ofText id).length ≤ limits.maxKeySize
  | delete id => (Bytes.ofText id).length ≤ limits.maxKeySize

inductive Answer where
  | cluster (outcome : Except ClusterError Cluster)
  | clusters (outcome : Except ClusterError (List Cluster))
  | done (outcome : Except ClusterError Unit)
deriving DecidableEq

inductive Action where
  /-- A request under a context, which is checked at the time `now`. -/
  | call (context : Context) (now : Nat) (request : Request)
  | checkpoint
  /-- Close the registry and open it again. -/
  | reopen
  /-- Time passes, and the clock stands elsewhere. -/
  | wait (clock : Clock)

def Action.Fits (limits : Limits) : Action → Prop
  | call _ _ request => request.Fits limits
  | checkpoint => True
  | reopen => True
  | wait _ => True

namespace Registry

def load (config : Config) (clock : Clock) (disk : Disk) : Except StoreError Registry :=
  match Store.load config disk with
  | (.ok store, disk) => .ok ⟨store, clock, disk⟩
  | (.error error, _) => .error error

def call (registry : Registry) (context : Context) (now : Nat) : Request → Answer × Registry
  | .create cluster =>
    let (outcome, registry) := registry.create context now cluster
    (.cluster outcome, registry)
  | .get id => (.cluster (registry.get context now id), registry)
  | .list => (.clusters (registry.list context now), registry)
  | .update cluster =>
    let (outcome, registry) := registry.update context now cluster
    (.cluster outcome, registry)
  | .label ids adds removes =>
    let (outcome, registry) := registry.label context now ids adds removes
    (.clusters outcome, registry)
  | .delete id =>
    let (outcome, registry) := registry.delete context now id
    (.done outcome, registry)

/-- Without an open store there is no registry to go on with. -/
def act (config : Config) (registry : Registry) : Action → Except StoreError (Answer × Registry)
  | .call context now request => .ok (registry.call context now request)
  | .checkpoint =>
    let ((outcome, store), disk) := registry.store.checkpoint registry.disk
    .ok (.done ((outcome.map fun _ => ()).mapError .store), { registry with store, disk })
  | .reopen =>
    match load config registry.clock registry.disk with
    | .ok registry => .ok (.done (.ok ()), registry)
    | .error error => .error error
  | .wait clock => .ok (.done (.ok ()), { registry with clock })

def run (config : Config) : List Action → Registry → Except StoreError (List Answer)
  | [], _ => .ok []
  | action :: rest, registry => do
    let (answer, registry) ← registry.act config action
    let answers ← run config rest registry
    return answer :: answers

end Registry

/-- What a registry is held against: a directory and a clock. -/
structure Reference where
  directory : Directory
  watch : Watch

namespace Reference

def empty (clock : Clock) : Reference :=
  ⟨.empty, clock, []⟩

def view {α : Type} (context : Context) (now : Nat) (answer : Except ClusterError α) :
    Except ClusterError α :=
  match context.check now with
  | .error error => .error (.store error)
  | .ok () => answer

/-- A change happens as a whole or not at all, but what was read from the clock stays read. -/
def transact {α : Type} (reference : Reference) (context : Context) (now : Nat)
    (change : Directory → Watch → Except ClusterError (α × Directory) × Watch) :
    Except ClusterError α × Reference :=
  match context.check now with
  | .error error => (.error (.store error), reference)
  | .ok () =>
    match change reference.directory reference.watch with
    | (.ok (answer, directory), watch) => (.ok answer, ⟨directory, watch⟩)
    | (.error error, watch) => (.error error, ⟨reference.directory, watch⟩)

def create (limits : Limits) (reference : Reference) (context : Context) (now : Nat)
    (cluster : Cluster) : Except ClusterError Cluster × Reference :=
  match cluster.validate with
  | .error error => (.error error, reference)
  | .ok () => reference.transact context now (Directory.create limits cluster)

def update (limits : Limits) (reference : Reference) (context : Context) (now : Nat)
    (cluster : Cluster) : Except ClusterError Cluster × Reference :=
  if cluster.id = "" then (.error (.invalidArgument .missingIdentifier), reference)
  else
    match validateGroups cluster.groups with
    | .error error => (.error error, reference)
    | .ok () => reference.transact context now (Directory.update limits cluster)

def label (limits : Limits) (reference : Reference) (context : Context) (now : Nat)
    (ids adds removes : List String) : Except ClusterError (List Cluster) × Reference :=
  reference.transact context now (Directory.label limits ids ⟨adds, removes⟩)

def delete (reference : Reference) (context : Context) (now : Nat) (id : String) :
    Except ClusterError Unit × Reference :=
  reference.transact context now fun directory watch =>
    ((directory.delete id).map fun directory => ((), directory), watch)

def call (limits : Limits) (reference : Reference) (context : Context) (now : Nat) :
    Request → Answer × Reference
  | .create cluster =>
    let (outcome, reference) := reference.create limits context now cluster
    (.cluster outcome, reference)
  | .get id => (.cluster (view context now (reference.directory.get id)), reference)
  | .list => (.clusters (view context now (.ok reference.directory.list)), reference)
  | .update cluster =>
    let (outcome, reference) := reference.update limits context now cluster
    (.cluster outcome, reference)
  | .label ids adds removes =>
    let (outcome, reference) := reference.label limits context now ids adds removes
    (.clusters outcome, reference)
  | .delete id =>
    let (outcome, reference) := reference.delete context now id
    (.done outcome, reference)

/-- Nothing that is kept is changed by keeping it another way. -/
def act (limits : Limits) (reference : Reference) : Action → Answer × Reference
  | .call context now request => reference.call limits context now request
  | .checkpoint => (.done (.ok ()), reference)
  | .reopen => (.done (.ok ()), reference)
  | .wait clock => (.done (.ok ()), ⟨reference.directory, clock, reference.watch.readings⟩)

def run (limits : Limits) : List Action → Reference → List Answer × Reference
  | [], reference => ([], reference)
  | action :: rest, reference =>
    let (answer, next) := reference.act limits action
    let (answers, last) := run limits rest next
    (answer :: answers, last)

variable {α : Type} {reference : Reference} {context : Context} {now : Nat}
  {change : Directory → Watch → Except ClusterError (α × Directory) × Watch}

theorem timely_transact (permitted : context.check now = .ok ())
    (timely : ∀ reading ∈ (reference.transact context now change).2.watch.readings,
      reading.Writable) : Collection.Timely (change reference.directory reference.watch) := by
  rw [transact, permitted] at timely
  dsimp only at timely
  generalize change reference.directory reference.watch = changed at timely ⊢
  obtain ⟨outcome, watch⟩ := changed
  cases outcome <;> exact timely

theorem readings_transact
    (kept : ∀ directory watch, watch.readings <+: (change directory watch).2.readings) :
    reference.watch.readings <+: (reference.transact context now change).2.watch.readings := by
  unfold transact
  cases context.check now with
  | error error => exact List.prefix_rfl
  | ok =>
    have longer := kept reference.directory reference.watch
    dsimp only
    generalize change reference.directory reference.watch = changed at longer ⊢
    obtain ⟨outcome, watch⟩ := changed
    cases outcome <;> exact longer

/-- What was read stays noted. -/
theorem readings_act (limits : Limits) (reference : Reference) (action : Action) :
    reference.watch.readings <+: (reference.act limits action).2.watch.readings := by
  have read : ∀ watch : Watch, watch.readings <+: watch.read.2.readings :=
    fun _ => List.prefix_append _ _
  cases action with
  | checkpoint => exact List.prefix_rfl
  | reopen => exact List.prefix_rfl
  | wait clock => exact List.prefix_rfl
  | call context now request =>
    cases request with
    | get id => exact List.prefix_rfl
    | list => exact List.prefix_rfl
    | create cluster =>
      change _ <+: (reference.create limits context now cluster).2.watch.readings
      unfold create
      split
      · exact List.prefix_rfl
      · refine readings_transact fun directory watch => ?_
        unfold Directory.create
        split
        · exact List.prefix_rfl
        · exact read watch
    | update cluster =>
      change _ <+: (reference.update limits context now cluster).2.watch.readings
      unfold update
      split
      · exact List.prefix_rfl
      · split
        · exact List.prefix_rfl
        · refine readings_transact fun directory watch => ?_
          unfold Directory.update
          split
          · exact List.prefix_rfl
          · exact read watch
    | label ids adds removes =>
      change _ <+: (reference.label limits context now ids adds removes).2.watch.readings
      unfold label
      refine readings_transact fun directory watch => ?_
      unfold Directory.label
      split
      · exact List.prefix_rfl
      · split
        · exact read watch
        · exact List.prefix_rfl
    | delete id =>
      change _ <+: (reference.delete context now id).2.watch.readings
      unfold delete
      exact readings_transact fun _ _ => List.prefix_rfl

theorem readings_run (limits : Limits) (actions : List Action) (reference : Reference) :
    reference.watch.readings <+: (reference.run limits actions).2.watch.readings := by
  induction actions generalizing reference with
  | nil => exact List.prefix_rfl
  | cons action actions ih =>
    exact (readings_act limits reference action).trans (ih (reference.act limits action).2)

end Reference

namespace Registry

private theorem view_eq {α : Type} (registry : Registry) (context : Context) (now : Nat)
    (body : Bucket → Except ClusterError α) :
    registry.view context now body =
      Reference.view context now (body registry.store.published.tree) := by
  unfold view Store.view Reference.view
  cases context.check now <;> rfl

/-- The published tree holds the directory, the log leads to it, and the clocks agree; after `count`
actions no number is higher than that. -/
structure Mirrors (config : Config) (count : Nat) (registry : Registry) (reference : Reference) :
    Prop where
  synced : ∃ batches, Session.Synced ⟨registry.store, registry.disk⟩ batches
  config : registry.store.config = config
  holds : Collection.Holds registry.store.published.tree reference.directory
  clock : registry.clock = reference.watch.clock
  txid : registry.store.published.txid ≤ count
  sequence : registry.store.writer.sequence ≤ count

namespace Mirrors

variable {config : Config} {count : Nat} {registry : Registry} {reference : Reference}

theorem next (mirrors : Mirrors config count registry reference) :
    Mirrors config (count + 1) registry reference :=
  { mirrors with
    txid := Nat.le_succ_of_le mirrors.txid
    sequence := Nat.le_succ_of_le mirrors.sequence }

theorem reached (mirrors : Mirrors config count registry reference) :
    Session.Reached ⟨registry.store, registry.disk⟩ count :=
  ⟨mirrors.synced, mirrors.txid, mirrors.sequence⟩

private theorem of_reached {store : Store} {disk : Disk} {directory : Directory} {watch : Watch}
    (reached : Session.Reached ⟨store, disk⟩ count) (same : store.config = config)
    (holds : Collection.Holds store.published.tree directory) :
    Mirrors config count ⟨store, watch.clock, disk⟩ ⟨directory, watch⟩ :=
  ⟨reached.synced, same, holds, rfl, reached.txid, reached.sequence⟩

theorem commit (mirrors : Mirrors config count registry reference)
    (bound : count + 1 < Numeral.wordLimit) {tx : Transaction} {directory : Directory} (watch : Watch)
    (tracks : Collection.Tracks registry.store.published.tree config.limits tx directory) :
    ∃ store later, registry.store.commit tx registry.disk = (.ok store, later) ∧
      Mirrors config (count + 1) ⟨store, watch.clock, later⟩ ⟨directory, watch⟩ := by
  have encoded : Log.encodeBatch tx.log registry.store.nextTxid = .ok _ :=
    Log.encodeBatch_eq_ok.mpr ⟨tracks.recorded.encodable, rfl⟩
  obtain ⟨store, later, done, reached, same, tree⟩ :=
    mirrors.reached.commit bound tracks.recorded.toFollows encoded
  exact ⟨store, later, done, .of_reached reached (same.trans mirrors.config) (tree ▸ tracks.holds)⟩

theorem transact {α : Type} (mirrors : Mirrors config count registry reference)
    (valid : config.validate = .ok ()) (bound : count + 1 < Numeral.wordLimit) (context : Context)
    (now : Nat)
    {body : Transaction → Clock → Except ClusterError (α × Transaction) × Clock}
    {change : Directory → Watch → Except ClusterError (α × Directory) × Watch}
    (follows : context.check now = .ok () → ∀ tx,
      Collection.Tracks registry.store.published.tree config.limits tx reference.directory →
      Collection.Follows registry.store.published.tree config.limits
        (body tx reference.watch.clock) (change reference.directory reference.watch)) :
    (registry.transact context now body).1 = (reference.transact context now change).1 ∧
      Mirrors config (count + 1) (registry.transact context now body).2
        (reference.transact context now change).2 := by
  obtain ⟨batches, synced⟩ := mirrors.synced
  have tracks : Collection.Tracks registry.store.published.tree config.limits registry.store.begin
      reference.directory := by
    refine ⟨mirrors.holds, ?_, congrArg Config.limits mirrors.config⟩
    rw [Store.begin, mirrors.config]
    exact .start (Config.recordable_limits valid) synced.storable.wellFormed
  unfold Registry.transact Reference.transact Store.update
  rw [mirrors.clock]
  cases permitted : context.check now with
  | error error => exact ⟨rfl, { mirrors.next with clock := rfl }⟩
  | ok =>
    obtain ⟨agrees, clock⟩ := follows permitted _ tracks
    dsimp only
    generalize body registry.store.begin reference.watch.clock = outcome at agrees clock
    generalize change reference.directory reference.watch = goal at agrees clock
    obtain ⟨outcome, after⟩ := outcome
    obtain ⟨goal, watch⟩ := goal
    dsimp only at agrees clock
    subst clock
    cases agrees with
    | error => exact ⟨rfl, { mirrors.next with clock := rfl }⟩
    | ok tracks =>
      obtain ⟨store, later, committed, mirrors'⟩ := mirrors.commit bound watch tracks
      dsimp only
      rw [committed]
      exact ⟨rfl, mirrors'⟩

variable (mirrors : Mirrors config count registry reference) (valid : config.validate = .ok ())
  (ample : config.limits.Ample) (bound : count + 1 < Numeral.wordLimit) (context : Context)
  (now : Nat)
include mirrors valid ample bound

theorem create {cluster : Cluster} (countable : cluster.Countable)
    (timely : ∀ reading ∈
      (reference.create config.limits context now cluster).2.watch.readings, reading.Writable) :
    (registry.create context now cluster).1 =
        (reference.create config.limits context now cluster).1 ∧
      Mirrors config (count + 1) (registry.create context now cluster).2
        (reference.create config.limits context now cluster).2 := by
  unfold Reference.create at timely ⊢
  unfold Registry.create
  cases accepted : cluster.validate with
  | error error => exact ⟨rfl, mirrors.next⟩
  | ok =>
    rw [accepted] at timely
    exact mirrors.transact valid bound context now fun permitted tx tracks =>
      Collection.create_follows ample tracks accepted countable
        (Reference.timely_transact permitted timely)

theorem update {cluster : Cluster} (countable : cluster.Countable)
    (timely : ∀ reading ∈
      (reference.update config.limits context now cluster).2.watch.readings, reading.Writable) :
    (registry.update context now cluster).1 =
        (reference.update config.limits context now cluster).1 ∧
      Mirrors config (count + 1) (registry.update context now cluster).2
        (reference.update config.limits context now cluster).2 := by
  unfold Reference.update at timely ⊢
  unfold Registry.update
  by_cases nameless : cluster.id = ""
  · rw [if_pos nameless, if_pos nameless]
    exact ⟨rfl, mirrors.next⟩
  · rw [if_neg nameless] at timely ⊢
    rw [if_neg nameless]
    cases accepted : validateGroups cluster.groups with
    | error error => exact ⟨rfl, mirrors.next⟩
    | ok =>
      rw [accepted] at timely
      exact mirrors.transact valid bound context now fun permitted tx tracks =>
        Collection.update_follows ample tracks countable
          (Reference.timely_transact permitted timely)

theorem label {ids adds removes : List String}
    (timely : ∀ reading ∈
      (reference.label config.limits context now ids adds removes).2.watch.readings,
      reading.Writable) :
    (registry.label context now ids adds removes).1 =
        (reference.label config.limits context now ids adds removes).1 ∧
      Mirrors config (count + 1) (registry.label context now ids adds removes).2
        (reference.label config.limits context now ids adds removes).2 :=
  mirrors.transact valid bound context now fun permitted _ tracks =>
    Collection.label_follows ample tracks ids ⟨adds, removes⟩
      (Reference.timely_transact permitted timely)

omit ample in
theorem delete {id : String} (short : (Bytes.ofText id).length ≤ config.limits.maxKeySize) :
    (registry.delete context now id).1 = (reference.delete context now id).1 ∧
      Mirrors config (count + 1) (registry.delete context now id).2
        (reference.delete context now id).2 := by
  apply mirrors.transact valid bound context now
  intro _ tx tracks
  exact ⟨Collection.delete_agrees tracks short, rfl⟩

/-- One request: the answers are the same, and so is what is kept. -/
theorem call {request : Request} (fits : request.Fits config.limits)
    (timely : ∀ reading ∈ (reference.call config.limits context now request).2.watch.readings,
      reading.Writable) :
    (registry.call context now request).1 = (reference.call config.limits context now request).1 ∧
      Mirrors config (count + 1) (registry.call context now request).2
        (reference.call config.limits context now request).2 := by
  cases request with
  | get id =>
    have same : registry.get context now id =
        Reference.view context now (reference.directory.get id) := by
      rw [Registry.get, view_eq, Collection.get_of_holds mirrors.holds]
    exact ⟨congrArg Answer.cluster same, mirrors.next⟩
  | list =>
    obtain ⟨_, synced⟩ := mirrors.synced
    have same : registry.list context now =
        Reference.view context now (.ok reference.directory.list) := by
      rw [Registry.list, view_eq,
        Collection.list_of_holds mirrors.holds synced.storable.wellFormed]
    exact ⟨congrArg Answer.clusters same, mirrors.next⟩
  | create cluster =>
    have follows := mirrors.create valid ample bound context now fits.2 timely
    exact ⟨congrArg Answer.cluster follows.1, follows.2⟩
  | update cluster =>
    have follows := mirrors.update valid ample bound context now fits.2 timely
    exact ⟨congrArg Answer.cluster follows.1, follows.2⟩
  | label ids adds removes =>
    have follows := mirrors.label valid ample bound context now timely
    exact ⟨congrArg Answer.clusters follows.1, follows.2⟩
  | delete id =>
    have follows := mirrors.delete valid bound context now fits
    exact ⟨congrArg Answer.done follows.1, follows.2⟩

/-- One action: neither a checkpoint nor closing and opening changes what is kept. -/
theorem act {action : Action} (fits : action.Fits config.limits)
    (timely : ∀ reading ∈ (reference.act config.limits action).2.watch.readings,
      reading.Writable) :
    ∃ next, registry.act config action = .ok ((reference.act config.limits action).1, next) ∧
      Mirrors config (count + 1) next (reference.act config.limits action).2 := by
  cases action with
  | call context now request =>
    have follows := mirrors.call valid ample bound context now fits timely
    exact ⟨_, congrArg (fun answer => Except.ok (answer, _)) follows.1, follows.2⟩
  | checkpoint =>
    obtain ⟨result, store, later, done, reached, same, tree⟩ := mirrors.reached.checkpoint bound
    refine ⟨_, by rw [Registry.act, done]; rfl, ?_⟩
    rw [mirrors.clock]
    exact .of_reached reached (same.trans mirrors.config) (tree ▸ mirrors.holds)
  | reopen =>
    obtain ⟨store, later, opened, reached, same, tree⟩ := mirrors.reached.load valid
    refine ⟨_, by rw [Registry.act, load, opened]; rfl, ?_⟩
    rw [mirrors.clock]
    exact .of_reached reached same (tree ▸ mirrors.holds)
  | wait clock => exact ⟨_, rfl, { mirrors.next with clock := rfl }⟩

omit bound in
theorem run (actions : List Action) (fits : ∀ action ∈ actions, action.Fits config.limits)
    (bound : count + actions.length < Numeral.wordLimit)
    (timely : ∀ reading ∈ (reference.run config.limits actions).2.watch.readings,
      reading.Writable) :
    registry.run config actions = .ok (reference.run config.limits actions).1 := by
  induction actions generalizing count registry reference with
  | nil => rfl
  | cons action actions ih =>
    rw [List.length_cons] at bound
    obtain ⟨first, fits⟩ := List.forall_mem_cons.mp fits
    have soon : ∀ reading ∈ (reference.act config.limits action).2.watch.readings,
        reading.Writable := fun reading noted =>
      timely reading ((Reference.readings_run _ actions _).subset noted)
    obtain ⟨next, done, mirrors'⟩ := mirrors.act valid ample (by omega) first soon
    have rest := ih mirrors' fits (by omega) timely
    rw [Registry.run, done]
    change (next.run config actions >>= _) = _
    rw [rest]
    rfl

end Mirrors

theorem mirrors_load_empty {config : Config} (valid : config.validate = .ok ()) (place : String)
    (clock : Clock) :
    ∃ registry, load config clock (.empty place) = .ok registry ∧
      Mirrors config 0 registry (.empty clock) := by
  obtain ⟨writer, later, opened, sequence, _, attached⟩ := Store.load_of_empty config place valid
  refine ⟨_, by rw [load, opened], ?_⟩
  exact ⟨⟨[], ⟨[], [], by simp, attached, rfl⟩, rfl, Bucket.lawful_nil, rfl⟩, rfl, .nothing, rfl,
    Nat.le_refl _, Nat.le_of_eq sequence⟩

/-- Over every run, from an empty directory on, every answer of a registry is that of the reference,
with checkpoints and reopenings anywhere in between.  What the configuration, the requests and the
clock must fit is what the layout of a cluster and the numbers of the log can hold. -/
theorem run_answers (config : Config) (place : String) (clock : Clock) (actions : List Action)
    (valid : config.validate = .ok ()) (ample : config.limits.Ample)
    (fits : ∀ action ∈ actions, action.Fits config.limits)
    (timely : ∀ reading ∈
      (Reference.run config.limits actions (.empty clock)).2.watch.readings, reading.Writable)
    (bound : actions.length < Numeral.wordLimit) :
    ∃ registry, load config clock (.empty place) = .ok registry ∧
      registry.run config actions = .ok (Reference.run config.limits actions (.empty clock)).1 := by
  obtain ⟨registry, opened, mirrors⟩ := mirrors_load_empty valid place clock
  exact ⟨registry, opened, mirrors.run valid ample actions fits (by omega) timely⟩

/-- A cluster is created twice, labelled twice at once, and updated at an earlier time than it was
created at; the collection survives it, so that a label of a missing cluster reads the clock. -/
theorem run_answers_of_earlier_update :
    let cluster : Cluster :=
      ⟨"c1", some .created, [⟨3, "small", "here", some ⟨"main", ["tcp"], [], [], "dht"⟩, .ofList ["x"]⟩],
        .ofList ["b", "a"], ⟨7, 7⟩, ⟨8, 8⟩⟩
    let clock : Clock := ⟨⟨1700000000, 0⟩, 1000000000⟩
    let request : Request → Action := .call .background 0
    let actions : List Action := [request (.create cluster), request (.create cluster), .checkpoint,
      request (.label ["c1", "c1"] ["c", "a"] ["b"]), .wait ⟨⟨1000000000, 5⟩, 0⟩, .reopen,
      request (.update { cluster with status := none, groups := [] }), request .list,
      request (.delete "c1"), request (.label ["c1"] [] []), request (.get "c1")]
    let created := { cluster with createdAt := ⟨1700000000, 0⟩, updatedAt := ⟨1700000000, 0⟩ }
    let labelled := { created with labels := .ofList ["a", "c"], updatedAt := ⟨1700000001, 0⟩ }
    let updated := { labelled with status := none, groups := [], labels := cluster.labels }
    let missing := Collection.missing "c1"
    ∃ registry, load .relaxed clock (.empty "data") = .ok registry ∧
      registry.run .relaxed actions = .ok [.cluster (.ok created),
        .cluster (.error (.alreadyExists (Collection.describe "c1"))), .done (.ok ()),
        .clusters (.ok [labelled, labelled]), .done (.ok ()), .done (.ok ()), .cluster (.ok updated),
        .clusters (.ok [updated]), .done (.ok ()), .clusters (.error missing),
        .cluster (.error missing)] := by
  intro cluster clock request actions created labelled updated missing
  have short : (Bytes.ofText "c1").length ≤ Config.relaxed.limits.maxKeySize := by decide +kernel
  have both : ∀ id ∈ ["c1", "c1"], (Bytes.ofText id).length ≤ Config.relaxed.limits.maxKeySize := by
    simp [short]
  have countable : cluster.Countable := by
    refine ⟨by decide, ?_⟩
    intro group member peer inside
    rw [List.mem_singleton.mp member] at inside
    cases inside
    exact ⟨by decide, by decide, by decide⟩
  have fits : ∀ action ∈ actions, action.Fits Config.relaxed.limits := by
    simp only [actions, List.forall_mem_cons]
    exact ⟨⟨short, countable⟩, ⟨short, countable⟩, trivial, both, trivial, trivial,
      ⟨short, by decide, by simp⟩, trivial, short, by simpa [request, Action.Fits, Request.Fits],
      short, by simp⟩
  obtain ⟨registry, opened, answers⟩ := run_answers .relaxed "data" clock actions rfl
    ⟨by decide, by decide⟩ fits (by decide +kernel) (by decide)
  refine ⟨registry, opened, answers.trans (congrArg Except.ok ?_)⟩
  decide +kernel

/-- A label is a key, and no key is empty: a valid cluster with an empty label is not inserted. -/
theorem run_refuses_empty_label :
    let cluster : Cluster := ⟨"c1", none, [], .ofList [""], ⟨0, 0⟩, ⟨0, 0⟩⟩
    let clock : Clock := ⟨⟨1700000000, 0⟩, 1000000000⟩
    let actions : List Action :=
      [.call .background 0 (.create cluster), .call .background 0 (.get "c1")]
    let created := { cluster with createdAt := clock.next, updatedAt := clock.next }
    cluster.validate = .ok () ∧ ∃ registry, load .relaxed clock (.empty "data") = .ok registry ∧
      registry.run .relaxed actions = .ok [
        .cluster (.error (.during (Collection.describe "c1") (.store .emptyKey))),
        .cluster (.error (Collection.missing "c1"))] ∧
      registry.run .relaxed actions ≠ .ok [.cluster (.ok created), .cluster (.ok created)] := by
  intro cluster clock actions created
  have short : (Bytes.ofText "c1").length ≤ Config.relaxed.limits.maxKeySize := by decide +kernel
  have fits : ∀ action ∈ actions, action.Fits Config.relaxed.limits := by
    simp only [actions, List.forall_mem_cons]
    exact ⟨⟨short, by decide, by simp [cluster]⟩, short, by simp⟩
  have timely : ∀ reading ∈
      (Reference.run Config.relaxed.limits actions (.empty clock)).2.watch.readings,
      reading.Writable := by decide +kernel
  have valid : Config.relaxed.validate = .ok () := rfl
  obtain ⟨registry, opened, mirrors⟩ := mirrors_load_empty valid "data" clock
  have answers := mirrors.run valid ⟨by decide, by decide⟩ actions fits (by decide) timely
  have refused : (Reference.run Config.relaxed.limits actions (.empty clock)).1 = [
      .cluster (.error (.during (Collection.describe "c1") (.store .emptyKey))),
      .cluster (.error (Collection.missing "c1"))] := by decide +kernel
  rw [refused] at answers
  refine ⟨by decide +kernel, registry, opened, answers, ?_⟩
  rw [answers]
  decide +kernel

end Registry

end ClusterRegistry
