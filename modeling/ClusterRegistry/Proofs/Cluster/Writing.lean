import ClusterRegistry.Cluster.Layout
import ClusterRegistry.Proofs.Cluster.Written
import ClusterRegistry.Proofs.Tree.Edit

/-!
Scripts in a bucket.  Where nothing of another kind stands in the way of its edits, a script is
refused exactly where one of its keys or values breaks the limits, with the error of the first that
does; and otherwise it turns the bucket that it works in into another one, which is the same in
every tree.
-/
namespace ClusterRegistry.Layout

/-- The first step that breaks the limits, as the failure that it is reported as. -/
def check (limits : Limits) (script : Script) : Except ClusterError Unit :=
  script.forM fun step => (step.edit.check limits).mapError step.failure

/-- Below `path` the script turns `before` into `after` within the limits and is refused otherwise,
in whatever tree it is run. -/
structure Runs (limits : Limits) (path : BucketPath) (script : Script) (before after : Bucket) :
    Prop where
  done : check limits script = .ok () → ∀ {base opened : Bucket} {tx : Transaction},
    base.openAt path = .ok opened → tx.limits = limits →
    tx.tree = Bucket.replaceAt before path base →
    ∃ later, run script tx = (.ok (), later) ∧ later.limits = limits ∧
      later.tree = Bucket.replaceAt after path base
  refused : ∀ error, check limits script = .error error → ∀ {base opened : Bucket}
    {tx : Transaction}, base.openAt path = .ok opened → tx.limits = limits →
    tx.tree = Bucket.replaceAt before path base → (run script tx).1 = .error error

theorem check_append (limits : Limits) (script rest : Script) :
    check limits (script ++ rest) = check limits script >>= fun _ => check limits rest :=
  List.forM_append ..

theorem run_append (script rest : Script) (tx : Transaction) :
    run (script ++ rest) tx = match run script tx with
      | (.ok (), middle) => run rest middle
      | (.error error, middle) => (.error error, middle) := by
  induction script generalizing tx with
  | nil => rfl
  | cons step script ih =>
    rw [List.cons_append, run, run]
    cases tx.perform step.edit with
    | ok next => exact ih next
    | error error => rfl

private theorem map_mapIdx {α β γ : Type} (f : Nat → α → β) (g : β → γ) (items : List α) :
    (items.mapIdx f).map g = items.mapIdx fun index item => g (f index item) :=
  List.ext_getElem (by simp) (by simp)

private theorem mapIdx_map {α β γ : Type} (f : α → β) (g : Nat → β → γ) (items : List α) :
    (items.map f).mapIdx g = items.mapIdx fun index item => g index (f item) :=
  List.ext_getElem (by simp) (by simp)

namespace Runs

variable {limits : Limits} {path : BucketPath} {script rest : Script}
  {before middle after : Bucket}

theorem nil : Runs limits path [] before before where
  done _ _ _ tx _ limited tree := ⟨tx, rfl, limited, tree⟩
  refused _ invalid := by cases invalid

theorem append (first : Runs limits path script before middle)
    (second : Runs limits path rest middle after) :
    Runs limits path (script ++ rest) before after where
  done valid {base opened tx} found limited tree := by
    rw [check_append] at valid
    obtain ⟨_, validFirst, validSecond⟩ := Outcome.bind_eq_ok.mp valid
    obtain ⟨next, ran, limited', tree'⟩ := first.done validFirst found limited tree
    obtain ⟨later, ran', limited'', tree''⟩ := second.done validSecond found limited' tree'
    refine ⟨later, ?_, limited'', tree''⟩
    rw [run_append, ran]
    exact ran'
  refused error invalid {base opened tx} found limited tree := by
    rw [check_append] at invalid
    rw [run_append]
    cases validFirst : check limits script with
    | error cause =>
      rw [validFirst] at invalid
      cases invalid
      have stopped := first.refused _ validFirst found limited tree
      generalize run script tx = ran at stopped
      obtain ⟨outcome, middle⟩ := ran
      cases outcome with
      | ok => cases stopped
      | error =>
        cases stopped
        rfl
    | ok =>
      rw [validFirst] at invalid
      obtain ⟨next, ran, limited', tree'⟩ := first.done validFirst found limited tree
      rw [ran]
      exact second.refused error invalid found limited' tree'

theorem of_edit {edit : Edit} (makes : edit.Makes limits before after) (part : Option String) :
    Runs limits edit.path [⟨edit, part⟩] before after := by
  have checked : check limits [⟨edit, part⟩] =
      (edit.check limits).mapError (Step.failure ⟨edit, part⟩) := by
    change ((edit.check limits).mapError _ >>= fun _ => pure ()) = _
    cases edit.check limits <;> rfl
  constructor
  · intro valid base opened tx found limited tree
    rw [checked] at valid
    subst limited
    have accepted : edit.check tx.limits = .ok () := by
      cases outcome : edit.check tx.limits with
      | ok => rfl
      | error error =>
        rw [outcome] at valid
        cases valid
    obtain ⟨later, performed, limited, changed⟩ :=
      Transaction.perform_of_makes makes found tree accepted
    refine ⟨later, ?_, limited, changed⟩
    rw [run, performed]
    rfl
  · intro error invalid base opened tx found limited tree
    rw [checked] at invalid
    subst limited
    cases outcome : edit.check tx.limits with
    | ok =>
      rw [outcome] at invalid
      cases invalid
    | error cause =>
      rw [outcome] at invalid
      cases invalid
      have here : tx.tree.openAt edit.path = .ok before := tree ▸ Bucket.openAt_replaceAt found before
      rw [run, Transaction.perform_of_refused makes here outcome]

/-- A script that runs in a child runs in the bucket around it. -/
theorem inside {key : Key} {child changed : Bucket}
    (runs : Runs limits (path ++ [key]) script child changed) (around : Bucket) :
    Runs limits path script (OrderedMap.insert key (.bucket child) around)
      (OrderedMap.insert key (.bucket changed) around) := by
  have focus : ∀ {base opened : Bucket}, base.openAt path = .ok opened → ∀ other,
      Bucket.replaceAt other (path ++ [key])
        (Bucket.replaceAt (OrderedMap.insert key (.bucket child) around) path base) =
      Bucket.replaceAt (OrderedMap.insert key (.bucket other) around) path base := by
    intro base opened found other
    rw [Bucket.replaceAt_snoc (Bucket.openAt_replaceAt found _) (Bucket.child?_insert _ _ _),
      Bucket.replaceAt_replaceAt found, OrderedMap.insert_insert]
  constructor
  · intro valid base opened tx found limited tree
    have reached := Bucket.openAt_snoc (Bucket.openAt_replaceAt found _)
      (Bucket.child?_insert key child around)
    obtain ⟨later, ran, limited', tree'⟩ :=
      runs.done valid reached limited (tree.trans (focus found child).symm)
    exact ⟨later, ran, limited', tree'.trans (focus found changed)⟩
  · intro error invalid base opened tx found limited tree
    have reached := Bucket.openAt_snoc (Bucket.openAt_replaceAt found _)
      (Bucket.child?_insert key child around)
    exact runs.refused error invalid reached limited (tree.trans (focus found child).symm)

theorem put {key : Key} {value : Bytes} (inner : path ≠ []) (vacant : before.child? key = none)
    (part : Option String) :
    Runs limits path [⟨.put path key value, part⟩] before
      (OrderedMap.insert key (.value value) before) :=
  of_edit (Edit.makes_put inner vacant) part

theorem putText (name : String) (inner : path ≠ []) (vacant : child? before name = none)
    (text : String) (part : Option String) :
    Runs limits path [⟨Layout.putText path name text, part⟩] before (withText name text before) :=
  put inner vacant part

/-- Fields are put one after another into a bucket that has no children. -/
theorem puts (inner : path ≠ []) (childless : ∀ key, before.child? key = none)
    (fields : List (Key × Bytes)) (part : Option String) :
    Runs limits path (fields.map fun field => ⟨.put path field.1 field.2, part⟩) before
      (OrderedMap.insertAll (fields.map fun field => (field.1, .value field.2)) before) := by
  induction fields generalizing before with
  | nil => exact nil
  | cons field fields ih =>
    have next : ∀ key, Bucket.child? (OrderedMap.insert field.1 (.value field.2) before) key =
        none := by
      intro key
      have old := childless key
      unfold Bucket.child? Bucket.item? at old ⊢
      rw [OrderedMap.find?_insert]
      split
      · rename_i same
        split at same
        · cases same
        · rw [same] at old
          cases old
      · rfl
    exact (put inner (childless field.1) part).append (ih next)

theorem recreate {name : String} (vacant : field? before name = none) (part : Option String) :
    Runs limits path [⟨Layout.recreate path name, part⟩] before (withBucket name [] before) :=
  of_edit (Edit.makes_recreate vacant) part

/-- A bucket is made afresh, and a script fills it. -/
theorem refill {name : String} {child : Bucket} (vacant : field? before name = none)
    (part : Option String) (fills : Runs limits (below path name) script [] child) :
    Runs limits path (⟨Layout.recreate path name, part⟩ :: script) before
      (withBucket name child before) :=
  (recreate vacant part).append (fills.inside (without name before))

theorem labels (set : Labels) (vacant : field? before Layout.labels = none) (part : Option String) :
    Runs limits path ((writeLabels path set).map fun edit => ⟨edit, part⟩) before
      (withBucket Layout.labels (labelBucket set) before) := by
  have inner : below path Layout.labels ≠ [] := by simp [below]
  have filled : Runs limits (below path Layout.labels) _ [] _ := puts inner (fun _ => rfl)
    (set.toList.map fun label => (Bytes.ofText label, Bytes.ofText "")) part
  have ordered : OrderedMap.Ordered (labelBucket set) :=
    List.pairwise_map.mpr set.ordered
  have whole : OrderedMap.insertAll (labelBucket set) [] = labelBucket set :=
    OrderedMap.insertAll_above ordered
  rw [List.map_map, List.map_map] at filled
  change Runs _ _ _ [] (OrderedMap.insertAll (labelBucket set) []) at filled
  rw [whole] at filled
  rw [writeLabels, List.map_cons, List.map_map]
  exact refill vacant part filled

theorem texts (name : String) (items : List String) (vacant : field? before name = none)
    (part : Option String) :
    Runs limits path ((writeTexts path name items).map fun edit => ⟨edit, part⟩) before
      (withBucket name (textBucket items) before) := by
  have inner : below path name ≠ [] := by simp [below]
  have counted : Runs limits (below path name) _ [] _ :=
    putText count inner rfl (toString items.length) part
  have filled : Runs limits (below path name) _ (withText count (toString items.length) []) _ :=
    puts inner (by
      intro key
      unfold Bucket.child? Bucket.item? withText OrderedMap.insert
      rw [OrderedMap.find?]
      split <;> simp_all [OrderedMap.find?])
    (items.mapIdx fun index item => (Numeral.indexKey index, Bytes.ofText item)) part
  rw [map_mapIdx, map_mapIdx] at filled
  rw [writeTexts, List.map_cons, List.map_cons, map_mapIdx, textBucket, listBucket,
    List.length_map, mapIdx_map]
  exact refill vacant part (counted.append filled)

theorem peer (peer : Peer) (vacant : field? before definition = none) (part : Option String) :
    Runs limits path ((writePeer path peer).map fun edit => ⟨edit, part⟩) before
      (withBucket definition (peerBucket peer) before) := by
  have inner : below path definition ≠ [] := by simp [below]
  have transported : Runs limits (below path definition) _ [] _ :=
    texts transports peer.transports rfl part
  have muxed := transported.append (texts muxers peer.muxers
    (by simp +decide only [field?_withBucket, if_false]) part)
  have secured := muxed.append (texts securityTransports peer.securityTransports
    (by simp +decide only [field?_withBucket, if_false]) part)
  have referenced := secured.append (putText gitReference inner
    (by simp +decide only [child?_withBucket, if_false]) peer.gitReference part)
  have routed := referenced.append (putText routing inner
    (by simp +decide only [child?_withText, child?_withBucket, if_false]) peer.routing part)
  rw [writePeer, List.map_cons]
  simp only [List.map_append, List.append_assoc, List.map_cons, List.map_nil, List.cons_append,
    List.nil_append] at routed ⊢
  exact refill vacant part routed

theorem group (inner : path ≠ []) (group : Group) (part : Option String) :
    Runs limits path ((writeGroup path group).map fun edit => ⟨edit, part⟩) []
      (groupBucket group) := by
  have labelled : Runs limits path _ [] _ := labels group.labels rfl part
  have peered : Runs limits path
      (((group.peer.map (writePeer path)).getD []).map fun edit => ⟨edit, part⟩)
      (withBucket Layout.labels (labelBucket group.labels) [])
      (withPeer group.peer (withBucket Layout.labels (labelBucket group.labels) [])) := by
    cases group.peer with
    | none => exact nil
    | some peer => exact Runs.peer peer (by simp +decide only [field?_withBucket, if_false]) part
  have sized := (labelled.append peered).append (putText size inner
    (by simp +decide only [child?_withPeer, child?_withBucket, ne_eq, if_false])
    (toString group.size.toNat) part)
  have typed := sized.append (putText instanceType inner
    (by simp +decide only [child?_withText, child?_withPeer, child?_withBucket, ne_eq, if_false])
    group.instanceType part)
  have placed := typed.append (putText region inner
    (by simp +decide only [child?_withText, child?_withPeer, child?_withBucket, ne_eq, if_false])
    group.region part)
  rw [writeGroup]
  simp only [List.map_append, List.append_assoc, List.map_cons, List.map_nil, List.cons_append,
    List.nil_append] at placed ⊢
  exact placed

theorem groupSteps (index : Nat) (group : Group)
    (absent : before.item? (Numeral.indexKey index) = none) :
    Runs limits path (Layout.groupSteps path index group) before
      (OrderedMap.insert (Numeral.indexKey index) (.bucket (groupBucket group)) before) :=
  (of_edit (Edit.makes_create absent) none).append
    ((Runs.group (by simp) group _).inside before)

/-- Groups go under their indices, from `front` on, into a bucket that has none of these. -/
theorem groups (groups : List Group) (front : Nat)
    (absent : ∀ index, front ≤ index → before.item? (Numeral.indexKey index) = none) :
    Runs limits path
      (groups.mapIdx fun index group => Layout.groupSteps path (front + index) group).flatten before
      (OrderedMap.insertAll (groups.mapIdx fun index group =>
        (Numeral.indexKey (front + index), .bucket (groupBucket group))) before) := by
  induction groups generalizing front before with
  | nil => exact nil
  | cons group groups ih =>
    have first : Runs limits path _ before _ :=
      groupSteps front group (absent front (Nat.le_refl _))
    have later : ∀ index, front + 1 ≤ index → Bucket.item?
        (OrderedMap.insert (Numeral.indexKey front) (.bucket (groupBucket group)) before)
        (Numeral.indexKey index) = none := by
      intro index above
      have differs : Numeral.indexKey index ≠ Numeral.indexKey front := fun same => by
        have := Numeral.indexKey_injective same
        omega
      rw [Bucket.item?, OrderedMap.find?_insert, if_neg differs]
      exact absent index (by omega)
    have rest := ih (front + 1) later
    simp only [List.mapIdx_cons, List.flatten_cons, Nat.add_zero]
    simp only [Nat.add_assoc, Nat.add_comm 1] at rest ⊢
    exact first.append rest

end Runs

/-- A bucket in which nothing of the wrong kind stands where a cluster is to be written. -/
structure Hospitable (bucket : Bucket) : Prop where
  createdAt : child? bucket createdAt = none
  updatedAt : child? bucket updatedAt = none
  id : child? bucket id = none
  status : child? bucket status = none
  definition : field? bucket definition = none
  labels : field? bucket labels = none

theorem hospitable_nil : Hospitable [] :=
  ⟨rfl, rfl, rfl, rfl, rfl, rfl⟩

theorem Hospitable.clusterBucket {prior : Bucket} (hospitable : Hospitable prior)
    (cluster : Cluster) : Hospitable (clusterBucket prior cluster) := by
  have grouped : field? (withGroups cluster.groups
      (withText Layout.updatedAt (Timestamp.text cluster.updatedAt)
        (withText Layout.createdAt (Timestamp.text cluster.createdAt) prior)))
      Layout.definition = none := by
    unfold withGroups
    split
    · simp +decide only [field?_withoutChild, field?_withText, if_false, hospitable.definition]
    · simp only [field?_withBucket, if_true]
  constructor <;>
    simp +decide only [Layout.clusterBucket, child?_withText, child?_withBucket, child?_withGroups,
      field?_withText, field?_withBucket, ne_eq, if_true, if_false, hospitable.createdAt, grouped]

theorem Runs.listedGroups {limits : Limits} {path : BucketPath} {before : Bucket}
    {groups : List Group} (listed : groups ≠ []) (vacant : field? before definition = none) :
    Runs limits path (writeGroups path groups) before (withBucket definition
      (listBucket (groups.map fun group => .bucket (groupBucket group))) before) := by
  have inner : below path definition ≠ [] := by simp [below]
  have counted : Runs limits (below path definition) _ [] _ :=
    Runs.putText count inner rfl (toString groups.length) none
  have absent : ∀ index, 0 ≤ index →
      (withText count (toString groups.length) []).item? (Numeral.indexKey index) = none := by
    intro index _
    have other : Numeral.indexKey index ≠ Bytes.ofText count :=
      Numeral.indexKey_ne_ofText (by decide) index
    rw [Bucket.item?, withText, OrderedMap.find?_insert, if_neg other]
    rfl
  have filled : Runs limits (below path definition) _ _ _ := Runs.groups groups 0 absent
  simp only [Nat.zero_add] at filled
  rw [writeGroups, if_neg listed, listBucket, List.length_map, mapIdx_map]
  exact Runs.refill vacant none (counted.append filled)

theorem Runs.withGroups {limits : Limits} {path : BucketPath} {before : Bucket}
    (groups : List Group) (valid : limits.checkKey (Bytes.ofText definition) = .ok ())
    (vacant : field? before definition = none) :
    Runs limits path (writeGroups path groups) before (withGroups groups before) := by
  unfold Layout.withGroups
  split
  · rename_i empty
    rw [writeGroups, if_pos empty]
    exact of_edit (Edit.makes_discard valid) none
  · rename_i listed
    exact listedGroups listed vacant

/-- What writing a cluster leaves in its bucket. -/
theorem Runs.cluster {limits : Limits} {path : BucketPath} {prior : Bucket} (inner : path ≠ [])
    (valid : limits.checkKey (Bytes.ofText definition) = .ok ()) (hospitable : Hospitable prior)
    (cluster : Cluster) :
    Runs limits path (writeCluster path cluster) prior (clusterBucket prior cluster) := by
  have created : Runs limits path _ prior _ := Runs.putText createdAt inner hospitable.createdAt
    (Timestamp.text cluster.createdAt) none
  have updated := created.append (Runs.putText updatedAt inner
    (by simp +decide only [child?_withText, if_false, hospitable.updatedAt])
    (Timestamp.text cluster.updatedAt) none)
  have grouped := updated.append (Runs.withGroups cluster.groups valid
    (by simp +decide only [field?_withText, if_false, hospitable.definition]))
  have labelled := grouped.append (Runs.labels cluster.labels
    (by simp +decide only [field?_withGroups, field?_withText, ne_eq, if_false, hospitable.labels])
    none)
  have named := labelled.append (Runs.putText id inner
    (by simp +decide only [child?_withBucket, child?_withGroups, child?_withText, ne_eq, if_false,
      hospitable.id]) cluster.id none)
  have whole := named.append (Runs.putText status inner
    (by simp +decide only [child?_withBucket, child?_withGroups, child?_withText, ne_eq, if_false,
      hospitable.status]) (statusText cluster.status) none)
  unfold writeCluster writeTimestamps
  simp only [List.append_assoc, List.map_cons, List.map_nil, List.cons_append,
    List.nil_append] at whole ⊢
  exact whole

end ClusterRegistry.Layout
