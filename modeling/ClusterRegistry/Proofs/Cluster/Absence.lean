import ClusterRegistry.Proofs.Registry

/-!
What the operations say about a cluster that is not there.  Reading a stored cluster fails only as
malformed, so an answer of not found says that nothing is stored, and an update or a label says the
same.  To delete is to remove a bucket: that goes by the bucket alone, empty or not, and by whether
its key is within the limits.
-/
namespace ClusterRegistry

private theorem ClusterError.kind_store_ne_notFound (cause : StoreError) :
    (ClusterError.store cause).kind ≠ .notFound := by
  cases cause <;> simp [ClusterError.kind]

namespace Layout

/-- If this fails, then because of what was stored. -/
def FailsMalformed {α : Type} (outcome : Except ClusterError α) : Prop :=
  ∀ error, outcome = .error error → error.kind = .malformed

namespace FailsMalformed

variable {α β : Type}

theorem ok (value : α) : FailsMalformed (.ok value : Except ClusterError α) :=
  nofun

theorem malformed (cause : Malformed) :
    FailsMalformed (.error (.malformed cause) : Except ClusterError α) := by
  intro error failed
  cases failed
  rfl

theorem bind {first : Except ClusterError α} {next : α → Except ClusterError β}
    (one : FailsMalformed first) (other : ∀ value, FailsMalformed (next value)) :
    FailsMalformed (first >>= next) := by
  intro error failed
  cases first with
  | error cause =>
    cases failed
    exact one _ rfl
  | ok value => exact other value error failed

theorem reporting {outcome : Except ClusterError α} (fails : FailsMalformed outcome)
    (activity : String) : FailsMalformed (reporting activity outcome) := by
  intro error failed
  cases outcome with
  | error cause =>
    cases failed
    exact fails cause rfl
  | ok value => cases failed

theorem mapM {step : α → Except ClusterError β} (each : ∀ item, FailsMalformed (step item))
    (items : List α) : FailsMalformed (items.mapM step) := by
  induction items with
  | nil => exact .ok []
  | cons item rest ih =>
    rw [List.mapM_cons]
    exact (each item).bind fun first => ih.bind fun others => .ok (first :: others)

theorem foldlM {step : β → α → Except ClusterError β}
    (each : ∀ value item, FailsMalformed (step value item)) (items : List α) (start : β) :
    FailsMalformed (items.foldlM step start) := by
  induction items generalizing start with
  | nil => exact .ok start
  | cons item rest ih =>
    rw [List.foldlM_cons]
    exact (each start item).bind ih

end FailsMalformed

variable (bucket : Bucket)

private theorem readText_fails (field : String) (raw : Bytes) :
    FailsMalformed (readText field raw) := by
  unfold readText
  split
  · exact .ok _
  · exact .malformed _

private theorem readInteger_fails (field : String) (limit : Nat) (raw : Bytes) :
    FailsMalformed (readInteger field limit raw) := by
  refine (readText_fails field raw).bind fun text => ?_
  split
  · exact .ok _
  · exact .malformed _

private theorem readInstant_fails (field : String) (raw : Bytes) :
    FailsMalformed (readInstant field raw) := by
  refine (readText_fails field raw).bind fun text => ?_
  split
  · exact .ok _
  · exact .malformed _

private theorem textField_fails (name : String) : FailsMalformed (textField bucket name) := by
  unfold textField
  split
  · exact readText_fails _ _
  · exact .ok _

private theorem instantField_fails (name : String) : FailsMalformed (instantField bucket name) := by
  unfold instantField
  split
  · exact readInstant_fails _ _
  · exact .malformed _

private theorem readTimestamps_fails : FailsMalformed (readTimestamps bucket) :=
  (instantField_fails bucket _).bind fun _ => (instantField_fails bucket _).bind fun _ => .ok _

private theorem readLabels_fails : FailsMalformed (readLabels bucket) := by
  unfold readLabels
  split
  · exact .foldlM (fun _ _ => (readText_fails _ _).bind fun _ => .ok _) _ _
  · exact .ok _

private theorem checkLength_fails (gap length : Nat) :
    FailsMalformed (checkLength bucket gap length) := by
  unfold checkLength
  split
  · exact .malformed _
  · split
    · exact .malformed _
    · exact .ok _

private theorem sequenceLength_fails (isPresent : Key → Bool) :
    FailsMalformed (sequenceLength bucket isPresent) := by
  unfold sequenceLength
  dsimp only
  split
  · exact .ok _
  · exact (readInteger_fails _ _ _).bind fun _ => checkLength_fails _ _ _

private theorem readTexts_fails (name : String) : FailsMalformed (readTexts bucket name) := by
  unfold readTexts
  split
  · exact .ok _
  · refine .reporting ?_ _
    exact (sequenceLength_fails _ _).bind fun _ => .mapM (fun _ => readText_fails _ _) _

private theorem readPeer_fails : FailsMalformed (readPeer bucket) := by
  unfold readPeer
  split
  · exact .ok _
  · exact (readTexts_fails _ _).bind fun _ => (readTexts_fails _ _).bind fun _ =>
      (readTexts_fails _ _).bind fun _ => (textField_fails _ _).bind fun _ =>
      (textField_fails _ _).bind fun _ => .ok _

private theorem sizeField_fails : FailsMalformed (sizeField bucket) := by
  unfold sizeField
  split
  · exact (readInteger_fails _ _ _).bind fun _ => .ok _
  · exact .ok _

private theorem readGroup_fails : FailsMalformed (readGroup bucket) :=
  (readLabels_fails bucket).bind fun _ => ((readPeer_fails bucket).reporting _).bind fun _ =>
    (textField_fails bucket _).bind fun _ => (textField_fails bucket _).bind fun _ =>
    (sizeField_fails bucket).bind fun _ => .ok _

private theorem readGroups_fails : FailsMalformed (readGroups bucket) := by
  unfold readGroups
  split
  · exact .ok _
  · exact ((sequenceLength_fails _ _).reporting _).bind fun _ =>
      .mapM (fun _ => (readGroup_fails _).reporting _) _

private theorem readStatus_fails : FailsMalformed (readStatus bucket) := by
  refine (textField_fails bucket _).bind fun name => ?_
  split
  · exact .ok _
  · split
    · exact .ok _
    · exact .malformed _

theorem readCluster_fails (defaultId : String) : FailsMalformed (readCluster bucket defaultId) := by
  unfold readCluster
  refine (readTimestamps_fails bucket).bind fun _ => (readGroups_fails bucket).bind fun _ =>
    (readLabels_fails bucket).bind fun _ => ?_
  split
  · exact (textField_fails bucket _).bind fun _ => (readStatus_fails bucket).bind fun _ => .ok _
  · exact (readStatus_fails bucket).bind fun _ => .ok _

end Layout

namespace Collection

variable {tree clusters : Bucket} {id : String}

private theorem stored?_of_get {error : ClusterError} (failed : get tree id = .error error)
    (kind : error.kind = .notFound) : stored? tree id = none ∧ error = missing id := by
  unfold get at failed
  split at failed
  · rename_i bucket found
    have malformed := (Layout.readCluster_fails bucket id).reporting (describe id) error failed
    rw [kind] at malformed
    contradiction
  · rename_i absent
    cases failed
    exact ⟨absent, rfl⟩

/-- Nothing is stored where there is no bucket, or an empty one. -/
theorem stored?_eq_none (made : collection? tree = some clusters) :
    stored? tree id = none ↔
      clusters.child? (Bytes.ofText id) = none ∨ clusters.child? (Bytes.ofText id) = some [] := by
  rw [stored?, made]
  dsimp only
  cases clusters.child? (Bytes.ofText id) with
  | none => simp
  | some bucket => cases bucket <;> simp

section Delete

variable {tx : Transaction}

private theorem delete_of_made (made : collection? tx.tree = some clusters) :
    delete id tx = match tx.perform (.remove collectionPath (Bytes.ofText id)) with
      | .ok tx => .ok tx
      | .error (.tree (.bucketNotFound _)) | .error .emptyKey | .error (.tree (.incompatible _)) =>
        .error (missing id)
      | .error error => .error (.during (describe id) (.store error)) := by
  rw [delete, made]
  rfl

private theorem openAt_collectionPath (made : collection? tx.tree = some clusters) :
    tx.tree.openAt collectionPath = .ok clusters :=
  Bucket.openAt_cons.mpr ⟨clusters, made, rfl⟩

private theorem delete_of_oversized (made : collection? tx.tree = some clusters) (named : id ≠ "")
    (oversized : tx.limits.maxKeySize < (Bytes.ofText id).length) :
    delete id tx = .error (.during (describe id) (.store
      (.oversized "key" (Bytes.ofText id).length tx.limits.maxKeySize))) := by
  have invalid : tx.limits.checkKey (Bytes.ofText id) =
      .error (.oversized "key" (Bytes.ofText id).length tx.limits.maxKeySize) := by
    have full : Bytes.ofText id ≠ [] := fun empty => named (Bytes.ofText_injective empty)
    rw [Limits.checkKey, if_neg full, if_pos oversized]
  rw [delete_of_made made, Transaction.perform_remove_of_invalid (openAt_collectionPath made) invalid]

private theorem delete_of_childless (made : collection? tx.tree = some clusters)
    (childless : clusters.child? (Bytes.ofText id) = none)
    (valid : tx.limits.checkKey (Bytes.ofText id) = .ok ()) :
    delete id tx = .error (missing id) := by
  have found := openAt_collectionPath made
  rw [delete_of_made made]
  cases item : clusters.item? (Bytes.ofText id) with
  | none => rw [Transaction.perform_remove_of_absent found item valid]
  | some other =>
    cases other with
    | bucket entries =>
      rw [Bucket.child?, item] at childless
      contradiction
    | value bytes =>
      have refused : clusters.removeChild (Bytes.ofText id) =
          .error (.incompatible (Bytes.ofText id)) := by
        rw [Bucket.removeChild, item]
      rw [Transaction.perform_of_refused_change (.remove collectionPath (Bytes.ofText id)) found rfl
        valid refused]

/-- The transaction that removes a bucket from the collection. -/
def removal (limits : Limits) (tree clusters : Bucket) (id : String) : Transaction :=
  ⟨limits, Bucket.replaceAt (OrderedMap.erase (Bytes.ofText id) clusters) collectionPath tree,
    [.deleteBucket collectionPath (Bytes.ofText id)]⟩

private theorem delete_of_child {limits : Limits} (made : collection? tree = some clusters)
    {bucket : Bucket} (there : clusters.child? (Bytes.ofText id) = some bucket)
    (valid : limits.checkKey (Bytes.ofText id) = .ok ()) :
    delete id (.start limits tree) = .ok (removal limits tree clusters id) := by
  have found : tree.openAt collectionPath = .ok clusters :=
    Bucket.openAt_cons.mpr ⟨clusters, made, rfl⟩
  have removed : clusters.removeChild (Bytes.ofText id) =
      .ok (OrderedMap.erase (Bytes.ofText id) clusters) :=
    Bucket.removeChild_eq_ok.mpr ⟨⟨bucket, there⟩, rfl⟩
  have performed : (Transaction.start limits tree).perform
      (.remove collectionPath (Bytes.ofText id)) = .ok (removal limits tree clusters id) := by
    rw [Transaction.perform, Transaction.run, Transaction.write, Transaction.start, Edit.path, found]
    simp only [Edit.work, OpenBucket.remove, OpenBucket.validKey, OpenBucket.run_require, valid,
      OpenBucket.change, removed]
    rfl
  rw [delete_of_made made, performed]

end Delete

end Collection

/-- The answer is an error that says that something is not there. -/
def SaysMissing {α : Type} (outcome : Except ClusterError α) : Prop :=
  ∃ error, outcome = .error error ∧ error.kind = .notFound

namespace Registry

variable {registry : Registry} {context : Context} {now : Nat} {id : String} {clusters : Bucket}

private theorem transact_of_refused {α : Type}
    {body : Transaction → Clock → Except ClusterError (α × Transaction) × Clock}
    (permitted : context.check now = .ok ()) {error : ClusterError} {clock : Clock}
    (refused : body registry.store.begin registry.clock = (.error error, clock)) :
    registry.transact context now body = (.error error, { registry with clock }) := by
  rw [transact, Store.update, permitted]
  simp only [refused]

private theorem transact_of_accepted {α : Type}
    {body : Transaction → Clock → Except ClusterError (α × Transaction) × Clock}
    (permitted : context.check now = .ok ()) {answer : α} {tx : Transaction} {clock : Clock}
    (accepted : body registry.store.begin registry.clock = (.ok (answer, tx), clock)) :
    registry.transact context now body =
      match registry.store.commit tx registry.disk with
      | (.ok store, disk) => (.ok answer, ⟨store, clock, disk⟩)
      | (.error error, disk) => (.error (.store error), ⟨registry.store, clock, disk⟩) := by
  rw [transact, Store.update, permitted]
  simp only [accepted]
  rcases registry.store.commit tx registry.disk with ⟨error | store, disk⟩ <;> rfl

theorem get_eq_error {error : ClusterError} (failed : registry.get context now id = .error error)
    (kind : error.kind = .notFound) :
    context.check now = .ok () ∧ Collection.stored? registry.store.published.tree id = none ∧
      error = Collection.missing id := by
  unfold get view Store.view at failed
  split at failed
  · cases failed
    exact absurd kind (ClusterError.kind_store_ne_notFound _)
  · rename_i permitted
    exact ⟨permitted, Collection.stored?_of_get failed kind⟩

theorem update_of_missing {cluster : Cluster} (permitted : context.check now = .ok ())
    (named : cluster.id ≠ "") (valid : validateGroups cluster.groups = .ok ())
    (absent : Collection.stored? registry.store.published.tree cluster.id = none) :
    registry.update context now cluster = (.error (Collection.missing cluster.id), registry) := by
  rw [update, if_neg named, valid]
  refine transact_of_refused permitted ?_
  rw [Collection.update, Store.begin, Transaction.start, absent]

/-- The clock is read before the clusters are looked up. -/
theorem label_of_missing (permitted : context.check now = .ok ())
    (made : Collection.collection? registry.store.published.tree = some clusters)
    (absent : Collection.stored? registry.store.published.tree id = none)
    (adds removes : List String) :
    registry.label context now [id] adds removes =
      (.error (Collection.missing id), { registry with clock := registry.clock.read.2 }) := by
  refine transact_of_refused permitted ?_
  have unlabelled : Collection.relabelAll ⟨adds, removes⟩ registry.clock.read.1 [id]
      registry.store.begin = .error (Collection.missing id) := by
    rw [Collection.relabelAll, Collection.relabel, Collection.get, Store.begin, Transaction.start,
      absent]
    rfl
  rw [Collection.label, Store.begin, Transaction.start, made]
  exact congrArg (·, _) unlabelled

private theorem delete_of_refused (permitted : context.check now = .ok ()) {error : ClusterError}
    (refused : Collection.delete id registry.store.begin = .error error) :
    registry.delete context now id = (.error error, registry) := by
  refine transact_of_refused permitted ?_
  rw [refused]
  rfl

theorem delete_of_empty (permitted : context.check now = .ok ())
    (made : Collection.collection? registry.store.published.tree = some clusters)
    (empty : clusters.child? (Bytes.ofText id) = some [])
    (valid : registry.store.config.limits.checkKey (Bytes.ofText id) = .ok ()) :
    registry.delete context now id =
      match registry.store.commit (Collection.removal registry.store.config.limits
        registry.store.published.tree clusters id) registry.disk with
      | (.ok store, disk) => (.ok (), ⟨store, registry.clock, disk⟩)
      | (.error error, disk) =>
        (.error (.store error), ⟨registry.store, registry.clock, disk⟩) := by
  refine transact_of_accepted permitted ?_
  rw [Store.begin, Collection.delete_of_child made empty valid]
  rfl

/-- Of a cluster that is not found, an update with valid groups and a label of it alone say the
same, and change neither the store nor the disk.  To delete it says the same where it has no bucket
and its identifier is within the limit of a key, and nowhere else: beyond the limit the answer is
about the size of the key, and an empty bucket is removed. -/
theorem get_missing {error : ClusterError} (named : id ≠ "")
    (made : Collection.collection? registry.store.published.tree = some clusters)
    (failed : registry.get context now id = .error error) (kind : error.kind = .notFound) :
    let key := Bytes.ofText id
    let limits := registry.store.config.limits
    error = Collection.missing id ∧
      (∀ cluster : Cluster, cluster.id = id → validateGroups cluster.groups = .ok () →
        registry.update context now cluster = (.error (Collection.missing id), registry)) ∧
      (∀ adds removes, registry.label context now [id] adds removes =
        (.error (Collection.missing id), { registry with clock := registry.clock.read.2 })) ∧
      (SaysMissing (registry.delete context now id).1 ↔
        clusters.child? key = none ∧ key.length ≤ limits.maxKeySize) ∧
      (clusters.child? key = none → key.length ≤ limits.maxKeySize →
        registry.delete context now id = (.error (Collection.missing id), registry)) ∧
      (limits.maxKeySize < key.length → registry.delete context now id =
        (.error (.during (Collection.describe id)
          (.store (.oversized "key" key.length limits.maxKeySize))), registry)) ∧
      (clusters.child? key = some [] → key.length ≤ limits.maxKeySize →
        registry.delete context now id =
          match registry.store.commit (Collection.removal limits registry.store.published.tree
            clusters id) registry.disk with
          | (.ok store, disk) => (.ok (), ⟨store, registry.clock, disk⟩)
          | (.error error, disk) =>
            (.error (.store error), ⟨registry.store, registry.clock, disk⟩)) := by
  intro key limits
  obtain ⟨permitted, absent, same⟩ := get_eq_error failed kind
  have full : key ≠ [] := fun empty => named (Bytes.ofText_injective empty)
  have missing (childless : clusters.child? key = none) (short : key.length ≤ limits.maxKeySize) :
      registry.delete context now id = (.error (Collection.missing id), registry) :=
    delete_of_refused permitted (Collection.delete_of_childless made childless
      (Limits.checkKey_eq_ok.mpr ⟨full, short⟩))
  have oversized (long : limits.maxKeySize < key.length) : registry.delete context now id =
      (.error (.during (Collection.describe id)
        (.store (.oversized "key" key.length limits.maxKeySize))), registry) :=
    delete_of_refused permitted (Collection.delete_of_oversized made named long)
  have emptied (empty : clusters.child? key = some []) (short : key.length ≤ limits.maxKeySize) :=
    delete_of_empty permitted made empty (Limits.checkKey_eq_ok.mpr ⟨full, short⟩)
  refine ⟨same, ?_, label_of_missing permitted made absent, ?_, missing, oversized, emptied⟩
  · rintro cluster rfl valid
    exact update_of_missing permitted named valid absent
  · constructor
    · intro said
      obtain ⟨cause, answered, notFound⟩ := said
      by_cases short : key.length ≤ limits.maxKeySize
      · rcases (Collection.stored?_eq_none made).mp absent with childless | empty
        · exact ⟨childless, short⟩
        · rw [emptied empty short] at answered
          split at answered
          · cases answered
          · cases answered
            exact absurd notFound (ClusterError.kind_store_ne_notFound _)
      · rw [oversized (Nat.lt_of_not_le short)] at answered
        cases answered
        contradiction
    · intro given
      rw [missing given.1 given.2]
      exact ⟨_, rfl, rfl⟩

/-- A field in the place of a cluster is none, for every operation. -/
theorem get_missing_of_field :
    let clusters : Bucket := [(Bytes.ofText "c", .value [1]), (Bytes.ofText "d", .bucket [])]
    let registry : Registry := ⟨⟨.relaxed, ⟨Collection.treeOf clusters, 1⟩, 2, ⟨0, 0, 65536, ⟨0⟩⟩⟩,
      ⟨⟨1700000000, 0⟩, 1000000000⟩, .empty "data"⟩
    let cluster : Cluster := ⟨"c", none, [], .empty, ⟨0, 0⟩, ⟨0, 0⟩⟩
    let missing := Collection.missing "c"
    registry.get .background 0 "c" = .error missing ∧
      registry.update .background 0 cluster = (.error missing, registry) ∧
      registry.label .background 0 ["c"] ["x"] [] =
        (.error missing, { registry with clock := registry.clock.read.2 }) ∧
      registry.delete .background 0 "c" = (.error missing, registry) := by
  intro clusters registry cluster missing
  have made : Collection.collection? registry.store.published.tree = some clusters :=
    Collection.collection?_treeOf clusters
  have failed : registry.get .background 0 "c" = .error missing := by decide +kernel
  obtain ⟨_, updated, labelled, _, deleted, _⟩ := get_missing (by decide) made failed rfl
  have childless : clusters.child? (Bytes.ofText "c") = none := by
    simp [clusters, Bucket.child?, Bucket.item?, OrderedMap.find?]
  exact ⟨failed, updated cluster rfl rfl, labelled ["x"] [],
    deleted childless (by decide +kernel)⟩

/-- Two clusters that are not found and yet not missing to a deletion: one with an empty bucket,
which is removed in a transaction of its own, and one with an identifier too long for a key. -/
theorem get_missing_fails_of_deletion :
    let clock : Clock := ⟨⟨1700000000, 0⟩, 1000000000⟩
    let registry (session : Session) : Registry := ⟨session.store, clock, session.disk⟩
    let small : Config := { Config.relaxed with maxKeySize := 8 }
    (∃ session, Session.run .relaxed "data" [.write [.create [] Collection.collectionKey,
        .create Collection.collectionPath (Bytes.ofText "c1")] .commit] = .ok session ∧
      (registry session).get .background 0 "c1" = .error (Collection.missing "c1") ∧
      session.store.published.txid = 1 ∧
      ((registry session).delete .background 0 "c1").1 = .ok () ∧
      ((registry session).delete .background 0 "c1").2.store.published.txid = 2) ∧
    ∃ session, Session.run small "data" [.write [.create [] Collection.collectionKey] .commit] =
        .ok session ∧
      (registry session).get .background 0 "ninebytes" = .error (Collection.missing "ninebytes") ∧
      ((registry session).delete .background 0 "ninebytes").1 =
        .error (.during (Collection.describe "ninebytes") (.store (.oversized "key" 9 8))) := by
  intro clock registry small
  constructor
  · have shown : (Session.run .relaxed "data" [.write [.create [] Collection.collectionKey,
        .create Collection.collectionPath (Bytes.ofText "c1")] .commit]).toOption.map
        (fun session => ((registry session).get .background 0 "c1", session.store.published.txid,
          ((registry session).delete .background 0 "c1").1,
          ((registry session).delete .background 0 "c1").2.store.published.txid)) =
        some (.error (Collection.missing "c1"), 1, .ok (), 2) := by decide +kernel
    obtain ⟨session, opened, answers⟩ := Outcome.toOption_map_eq_some.mp shown
    simp only [Prod.mk.injEq] at answers
    obtain ⟨absent, first, deleted, second⟩ := answers
    exact ⟨session, opened, absent, first, deleted, second⟩
  · have shown : (Session.run small "data" [.write [.create [] Collection.collectionKey]
        .commit]).toOption.map
        (fun session => ((registry session).get .background 0 "ninebytes",
          ((registry session).delete .background 0 "ninebytes").1)) =
        some (.error (Collection.missing "ninebytes"),
          .error (.during (Collection.describe "ninebytes") (.store (.oversized "key" 9 8)))) := by
      decide +kernel
    obtain ⟨session, opened, answers⟩ := Outcome.toOption_map_eq_some.mp shown
    simp only [Prod.mk.injEq] at answers
    obtain ⟨absent, refused⟩ := answers
    exact ⟨session, opened, absent, refused⟩

end Registry

end ClusterRegistry
