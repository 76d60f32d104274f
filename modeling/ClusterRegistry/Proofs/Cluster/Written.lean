import ClusterRegistry.Proofs.Cluster.Labels
import ClusterRegistry.Proofs.Cluster.Sequence
import ClusterRegistry.Proofs.Time.Timestamp

/-!
A written cluster.  The bucket of a cluster is described by what writing leaves in it, over anything
that was there before; and reading this bucket gives the cluster, whatever was there before.
-/
namespace ClusterRegistry

/-- Lists that are no longer than a length can say. -/
structure Peer.Countable (peer : Peer) : Prop where
  transports : peer.transports.length < Numeral.wordLimit
  muxers : peer.muxers.length < Numeral.wordLimit
  securityTransports : peer.securityTransports.length < Numeral.wordLimit

structure Cluster.Countable (cluster : Cluster) : Prop where
  groups : cluster.groups.length < Numeral.wordLimit
  peers : ∀ group ∈ cluster.groups, ∀ peer ∈ group.peer, peer.Countable

namespace Layout

def withText (name text : String) (bucket : Bucket) : Bucket :=
  OrderedMap.insert (Bytes.ofText name) (.value (Bytes.ofText text)) bucket

def without (name : String) (bucket : Bucket) : Bucket :=
  OrderedMap.erase (Bytes.ofText name) bucket

def withBucket (name : String) (child bucket : Bucket) : Bucket :=
  OrderedMap.insert (Bytes.ofText name) (.bucket child) (without name bucket)

/-- A child is removed if it is there; a field of that name stays. -/
def withoutChild (name : String) (bucket : Bucket) : Bucket :=
  if (child? bucket name).isSome then without name bucket else bucket

def labelBucket (set : Labels) : Bucket :=
  set.toList.map fun label => (Bytes.ofText label, .value [])

def textBucket (items : List String) : Bucket :=
  listBucket (items.map fun item => .value (Bytes.ofText item))

def peerBucket (peer : Peer) : Bucket :=
  withText routing peer.routing (withText gitReference peer.gitReference
    (withBucket securityTransports (textBucket peer.securityTransports)
      (withBucket muxers (textBucket peer.muxers)
        (withBucket transports (textBucket peer.transports) []))))

def withPeer (peer : Option Peer) (bucket : Bucket) : Bucket :=
  match peer with
  | some peer => withBucket definition (peerBucket peer) bucket
  | none => bucket

def groupBucket (group : Group) : Bucket :=
  withText region group.region (withText instanceType group.instanceType
    (withText size (toString group.size.toNat)
      (withPeer group.peer (withBucket labels (labelBucket group.labels) []))))

def withGroups (groups : List Group) (bucket : Bucket) : Bucket :=
  if groups = [] then withoutChild definition bucket
  else withBucket definition (listBucket (groups.map fun group => .bucket (groupBucket group))) bucket

/-- The bucket of a cluster after it is written over what `prior` holds. -/
def clusterBucket (prior : Bucket) (cluster : Cluster) : Bucket :=
  withText status (statusText cluster.status) (withText id cluster.id
    (withBucket labels (labelBucket cluster.labels) (withGroups cluster.groups
      (withText updatedAt (Timestamp.text cluster.updatedAt)
        (withText createdAt (Timestamp.text cluster.createdAt) prior)))))

private theorem field?_of_child? {name : String} {bucket : Bucket}
    (present : (child? bucket name).isSome = true) : field? bucket name = none := by
  unfold child? Bucket.child? at present
  unfold field? Bucket.field?
  split at present
  · rename_i found
    rw [found]
  · contradiction

section LookUp

variable (name other text : String) (child bucket : Bucket)

private theorem ofText_eq_ofText : Bytes.ofText name = Bytes.ofText other ↔ name = other :=
  ⟨Bytes.ofText_injective, congrArg Bytes.ofText⟩

theorem field?_withText : field? (withText name text bucket) other =
    if other = name then some (Bytes.ofText text) else field? bucket other := by
  by_cases same : other = name <;> simp [field?, Bucket.field?, Bucket.item?, withText,
    OrderedMap.find?_insert, ofText_eq_ofText, same]

theorem child?_withText : child? (withText name text bucket) other =
    if other = name then none else child? bucket other := by
  by_cases same : other = name <;> simp [child?, Bucket.child?, Bucket.item?, withText,
    OrderedMap.find?_insert, ofText_eq_ofText, same]

theorem field?_without : field? (without name bucket) other =
    if other = name then none else field? bucket other := by
  by_cases same : other = name <;> simp [field?, Bucket.field?, Bucket.item?, without,
    OrderedMap.find?_erase, ofText_eq_ofText, same]

theorem child?_without : child? (without name bucket) other =
    if other = name then none else child? bucket other := by
  by_cases same : other = name <;> simp [child?, Bucket.child?, Bucket.item?, without,
    OrderedMap.find?_erase, ofText_eq_ofText, same]

theorem field?_withoutChild : field? (withoutChild name bucket) other = field? bucket other := by
  unfold withoutChild
  split
  · rename_i present
    rw [field?_without]
    split
    · rename_i same
      rw [same, field?_of_child? present]
    · rfl
  · rfl

theorem child?_withoutChild : child? (withoutChild name bucket) other =
    if other = name then none else child? bucket other := by
  unfold withoutChild
  split
  · exact child?_without name other bucket
  · rename_i absent
    split
    · rename_i same
      rw [same]
      exact Option.not_isSome_iff_eq_none.mp absent
    · rfl

theorem field?_withBucket : field? (withBucket name child bucket) other =
    if other = name then none else field? bucket other := by
  by_cases same : other = name <;> simp [field?, Bucket.field?, Bucket.item?, withBucket, without,
    OrderedMap.find?_insert, OrderedMap.find?_erase, ofText_eq_ofText, same]

theorem child?_withBucket : child? (withBucket name child bucket) other =
    if other = name then some child else child? bucket other := by
  by_cases same : other = name <;> simp [child?, Bucket.child?, Bucket.item?, withBucket, without,
    OrderedMap.find?_insert, OrderedMap.find?_erase, ofText_eq_ofText, same]

variable {other : String} (differs : other ≠ definition)
include differs

theorem child?_withPeer (peer : Option Peer) :
    child? (withPeer peer bucket) other = child? bucket other := by
  cases peer with
  | none => rfl
  | some peer => rw [withPeer, child?_withBucket, if_neg differs]

theorem field?_withGroups (groups : List Group) :
    field? (withGroups groups bucket) other = field? bucket other := by
  unfold withGroups
  split
  · exact field?_withoutChild definition other bucket
  · rw [field?_withBucket, if_neg differs]

theorem child?_withGroups (groups : List Group) :
    child? (withGroups groups bucket) other = child? bucket other := by
  unfold withGroups
  split
  · rw [child?_withoutChild, if_neg differs]
  · rw [child?_withBucket, if_neg differs]

end LookUp

variable {bucket : Bucket} {name : String}

theorem textField_of_field? {text : String} (found : field? bucket name = some (Bytes.ofText text)) :
    textField bucket name = .ok text := by
  rw [textField, found]
  exact readText_ofText name text

theorem instantField_of_field? {instant : Instant} (writable : instant.Writable)
    (found : field? bucket name = some (Bytes.ofText (Timestamp.text instant))) :
    instantField bucket name = .ok instant := by
  have read := Timestamp.parse_text writable
  generalize Timestamp.text instant = text at found read
  rw [instantField, found]
  dsimp only
  rw [readInstant, readText_ofText]
  simp only [bind, Except.bind, read]
  rfl

theorem readLabels_of_child? {set : Labels} (found : child? bucket labels = some (labelBucket set)) :
    readLabels bucket = .ok set := by
  have fields : Bucket.fields (labelBucket set) =
      set.toList.map fun label => (Bytes.ofText label, []) := by
    rw [Bucket.fields, labelBucket, List.filterMap_map]
    exact congrFun (List.filterMap_eq_map (f := fun label => (Bytes.ofText label, []))) _
  have folded : ∀ (front : Labels) (texts : List String),
      (texts.map fun label => (Bytes.ofText label, ([] : Bytes))).foldlM
        (fun found field => do return found.insert (← readText labels field.1)) front =
      (.ok (front.addAll texts) : Except ClusterError Labels) := by
    intro front texts
    induction texts generalizing front with
    | nil => rfl
    | cons text texts ih =>
      rw [List.map_cons, List.foldlM_cons, readText_ofText]
      exact ih (front.insert text)
  rw [readLabels, found]
  change (Bucket.fields (labelBucket set)).foldlM _ Labels.empty = _
  rw [fields, folded]
  exact congrArg _ (Labels.ofList_toList set)

theorem readTexts_of_child? {items : List String} (short : items.length < Numeral.wordLimit)
    (found : child? bucket name = some (textBucket items)) : readTexts bucket name = .ok items := by
  have stored : ∀ index text, items[index]? = some text →
      Bucket.field? (textBucket items) (Numeral.indexKey index) = some (Bytes.ofText text) := by
    intro index text at_
    rw [Bucket.field?, textBucket, item?_listBucket, List.getElem?_map, at_]
    rfl
  have present : ∀ index < (items.map fun item => Item.value (Bytes.ofText item)).length,
      (Bucket.field? (textBucket items) (Numeral.indexKey index)).isSome = true := by
    intro index inside
    rw [List.length_map] at inside
    rw [stored index _ (List.getElem?_eq_getElem inside)]
    rfl
  have length := sequenceLength_listBucket (by rwa [List.length_map])
    (fun key => (Bucket.field? (textBucket items) key).isSome) present
  rw [List.length_map] at length
  have read : (List.range items.length).mapM (fun index =>
      readText (toString index)
        ((Bucket.field? (textBucket items) (Numeral.indexKey index)).getD [])) = .ok items := by
    refine Outcome.mapM_range_eq_ok.mpr ⟨rfl, ?_⟩
    intro index text at_
    rw [stored index text at_]
    exact readText_ofText _ _
  rw [readTexts, found]
  change reporting name (sequenceLength (listBucket _) _ >>= _) = _
  rw [length]
  change reporting name ((List.range items.length).mapM _) = _
  rw [read]
  rfl

theorem readPeer_of_child? {peer : Peer} (countable : peer.Countable)
    (found : child? bucket definition = some (peerBucket peer)) :
    readPeer bucket = .ok (some peer) := by
  have transports : readTexts (peerBucket peer) transports = .ok peer.transports :=
    readTexts_of_child? countable.transports
      (by simp +decide only [peerBucket, child?_withText, child?_withBucket, if_true, if_false])
  have muxers : readTexts (peerBucket peer) muxers = .ok peer.muxers :=
    readTexts_of_child? countable.muxers
      (by simp +decide only [peerBucket, child?_withText, child?_withBucket, if_true, if_false])
  have securityTransports :
      readTexts (peerBucket peer) securityTransports = .ok peer.securityTransports :=
    readTexts_of_child? countable.securityTransports
      (by simp +decide only [peerBucket, child?_withText, child?_withBucket, if_true, if_false])
  have gitReference : textField (peerBucket peer) gitReference = .ok peer.gitReference :=
    textField_of_field? (by simp +decide only [peerBucket, field?_withText, if_true, if_false])
  have routing : textField (peerBucket peer) routing = .ok peer.routing :=
    textField_of_field? (by simp +decide only [peerBucket, field?_withText, if_true])
  rw [readPeer, found]
  dsimp only
  rw [transports, muxers, securityTransports, gitReference, routing]
  rfl

theorem readPeer_withPeer {peer : Option Peer} (countable : ∀ each ∈ peer, each.Countable)
    (found : child? bucket definition = peer.map peerBucket) : readPeer bucket = .ok peer := by
  cases peer with
  | none =>
    rw [readPeer, found]
    rfl
  | some peer => exact readPeer_of_child? (countable peer rfl) found

theorem sizeField_of_field? {amount : UInt32}
    (found : field? bucket size = some (Bytes.ofText (toString amount.toNat))) :
    sizeField bucket = .ok amount := by
  rw [sizeField, found]
  dsimp only
  rw [readInteger_toString size amount.toNat_lt]
  exact congrArg Except.ok UInt32.ofNat_toNat

theorem readGroup_groupBucket {group : Group} (countable : ∀ peer ∈ group.peer, peer.Countable) :
    readGroup (groupBucket group) = .ok group := by
  have labels : readLabels (groupBucket group) = .ok group.labels :=
    readLabels_of_child? (by simp +decide only [groupBucket, child?_withText, child?_withPeer,
      child?_withBucket, ne_eq, if_true, if_false])
  have peer : readPeer (groupBucket group) = .ok group.peer := by
    apply readPeer_withPeer countable
    simp +decide only [groupBucket, child?_withText, if_false]
    cases group.peer with
    | none =>
      simp +decide only [withPeer, child?_withBucket, if_false]
      rfl
    | some peer => simp only [withPeer, child?_withBucket, if_true, Option.map_some]
  have instanceType : textField (groupBucket group) instanceType = .ok group.instanceType :=
    textField_of_field? (by simp +decide only [groupBucket, field?_withText, if_true, if_false])
  have region : textField (groupBucket group) region = .ok group.region :=
    textField_of_field? (by simp +decide only [groupBucket, field?_withText, if_true])
  have size : sizeField (groupBucket group) = .ok group.size :=
    sizeField_of_field? (by simp +decide only [groupBucket, field?_withText, if_true, if_false])
  rw [readGroup, labels]
  change (reporting _ (readPeer _) >>= _) = _
  rw [peer]
  change (textField _ _ >>= _) = _
  rw [instanceType]
  change (textField _ _ >>= _) = _
  rw [region]
  change (sizeField _ >>= _) = _
  rw [size]
  rfl

theorem readGroups_withGroups {groups : List Group} (short : groups.length < Numeral.wordLimit)
    (countable : ∀ group ∈ groups, ∀ peer ∈ group.peer, peer.Countable)
    (found : child? bucket definition =
      if groups = [] then none
      else some (listBucket (groups.map fun group => .bucket (groupBucket group)))) :
    readGroups bucket = .ok groups := by
  by_cases none : groups = []
  · subst none
    rw [readGroups, found]
    rfl
  rw [if_neg none] at found
  generalize written : listBucket (groups.map fun group => .bucket (groupBucket group)) =
    list at found
  have stored : ∀ index group, groups[index]? = some group →
      list.child? (Numeral.indexKey index) = some (groupBucket group) := by
    intro index group at_
    rw [← written, Bucket.child?, item?_listBucket, List.getElem?_map, at_]
    rfl
  have present : ∀ index < (groups.map fun group => Item.bucket (groupBucket group)).length,
      (list.child? (Numeral.indexKey index)).isSome = true := by
    intro index inside
    rw [List.length_map] at inside
    rw [stored index _ (List.getElem?_eq_getElem inside)]
    rfl
  have length := sequenceLength_listBucket (by rwa [List.length_map])
    (fun key => (list.child? key).isSome) present
  rw [List.length_map, written] at length
  have read : (List.range groups.length).mapM (fun index =>
      reporting ("group " ++ toString index)
        (readGroup ((list.child? (Numeral.indexKey index)).getD []))) = .ok groups := by
    refine Outcome.mapM_range_eq_ok.mpr ⟨rfl, ?_⟩
    intro index group at_
    rw [stored index group at_, Option.getD_some,
      readGroup_groupBucket (countable group (List.mem_of_getElem? at_))]
    rfl
  rw [readGroups, found]
  dsimp only
  rw [length]
  exact read

private theorem ofName?_name (status : Status) : Status.ofName? status.name = some status := by
  cases status <;> decide

theorem readStatus_of_field? {state : Option Status}
    (found : field? bucket status = some (Bytes.ofText (statusText state))) :
    readStatus bucket = .ok state := by
  rw [readStatus, textField_of_field? found]
  cases state with
  | none => rfl
  | some status =>
    simp only [statusText, Option.map_some, Option.getD_some, bind, Except.bind, ofName?_name]
    rfl

/-- What a bucket has to say for a cluster to be read from it; of anything else in it nothing is
read. -/
structure Shows (bucket : Bucket) (cluster : Cluster) : Prop where
  createdAt : field? bucket createdAt = some (Bytes.ofText (Timestamp.text cluster.createdAt))
  updatedAt : field? bucket updatedAt = some (Bytes.ofText (Timestamp.text cluster.updatedAt))
  definition : child? bucket definition = if cluster.groups = [] then none
    else some (listBucket (cluster.groups.map fun group => .bucket (groupBucket group)))
  labels : child? bucket labels = some (labelBucket cluster.labels)
  id : field? bucket id = some (Bytes.ofText cluster.id)
  status : field? bucket status = some (Bytes.ofText (statusText cluster.status))

namespace Shows

variable {cluster : Cluster}

theorem ne_nil (shown : Shows bucket cluster) : bucket ≠ [] := by
  rintro rfl
  exact nomatch shown.id

theorem readTimestamps (shown : Shows bucket cluster) (created : cluster.createdAt.Writable)
    (updated : cluster.updatedAt.Writable) :
    readTimestamps bucket = .ok (cluster.createdAt, cluster.updatedAt) := by
  rw [Layout.readTimestamps, instantField_of_field? created shown.createdAt,
    instantField_of_field? updated shown.updatedAt]
  rfl

theorem readCluster (shown : Shows bucket cluster) (countable : cluster.Countable)
    (created : cluster.createdAt.Writable) (updated : cluster.updatedAt.Writable)
    (defaultId : String) : readCluster bucket defaultId = .ok cluster := by
  rw [Layout.readCluster, shown.readTimestamps created updated]
  change (readGroups _ >>= _) = _
  rw [readGroups_withGroups countable.groups countable.peers shown.definition]
  change (readLabels _ >>= _) = _
  rw [readLabels_of_child? shown.labels]
  simp only [shown.id, textField_of_field? shown.id, readStatus_of_field? shown.status]
  rfl

end Shows

theorem shows_clusterBucket (prior : Bucket) (cluster : Cluster) :
    Shows (clusterBucket prior cluster) cluster := by
  have groups : child? (withGroups cluster.groups
      (withText updatedAt (Timestamp.text cluster.updatedAt)
        (withText createdAt (Timestamp.text cluster.createdAt) prior))) definition =
      if cluster.groups = [] then none
      else some (listBucket (cluster.groups.map fun group => .bucket (groupBucket group))) := by
    unfold withGroups
    split
    · simp only [child?_withoutChild, if_true]
    · simp only [child?_withBucket, if_true]
  constructor <;>
    simp +decide only [clusterBucket, field?_withText, field?_withBucket, field?_withGroups,
      child?_withText, child?_withBucket, ne_eq, if_true, if_false, groups]

theorem readTimestamps_clusterBucket (prior : Bucket) {cluster : Cluster}
    (created : cluster.createdAt.Writable) (updated : cluster.updatedAt.Writable) :
    readTimestamps (clusterBucket prior cluster) = .ok (cluster.createdAt, cluster.updatedAt) :=
  (shows_clusterBucket prior cluster).readTimestamps created updated

/-- What is written is read back, over any prior content and under any name. -/
theorem readCluster_clusterBucket (prior : Bucket) {cluster : Cluster}
    (countable : cluster.Countable) (created : cluster.createdAt.Writable)
    (updated : cluster.updatedAt.Writable) (defaultId : String) :
    readCluster (clusterBucket prior cluster) defaultId = .ok cluster :=
  (shows_clusterBucket prior cluster).readCluster countable created updated defaultId

end Layout

end ClusterRegistry
