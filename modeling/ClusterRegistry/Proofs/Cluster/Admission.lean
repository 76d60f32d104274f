import ClusterRegistry.Proofs.Cluster.Writing

/-!
Which clusters a store has room for.  Its limits bear on labels, which become keys, and on texts,
which become values.  Everything else that a cluster is written with is short, so limits that leave
room for an identifier refuse the writing of a cluster exactly where they refuse one of these.
-/
namespace ClusterRegistry

/-- Room for the longest identifier, as a key and as a value. -/
structure Limits.Ample (limits : Limits) : Prop where
  key : maxIdentifierLength ≤ limits.maxKeySize
  value : maxIdentifierLength ≤ limits.maxValueSize

namespace Limits.Ample

variable {limits : Limits}

theorem checkKey (ample : limits.Ample) {key : Key} (nonempty : key ≠ [])
    (short : key.length ≤ maxIdentifierLength) : limits.checkKey key = .ok () :=
  Limits.checkKey_eq_ok.mpr ⟨nonempty, Nat.le_trans short ample.key⟩

theorem checkValue (ample : limits.Ample) {value : Bytes}
    (short : value.length ≤ maxIdentifierLength) : limits.checkValue value = .ok () :=
  Limits.checkValue_eq_ok.mpr (Nat.le_trans short ample.value)

end Limits.Ample

def Labels.accept (limits : Limits) (set : Labels) : Except StoreError Unit :=
  set.toList.forM fun label => limits.checkKey (Bytes.ofText label)

def Limits.acceptText (limits : Limits) (text : String) : Except StoreError Unit :=
  limits.checkValue (Bytes.ofText text)

def Peer.accept (limits : Limits) (peer : Peer) : Except StoreError Unit := do
  peer.transports.forM limits.acceptText
  peer.muxers.forM limits.acceptText
  peer.securityTransports.forM limits.acceptText
  limits.acceptText peer.gitReference
  limits.acceptText peer.routing

def Group.accept (limits : Limits) (group : Group) : Except StoreError Unit := do
  group.labels.accept limits
  group.peer.elim (pure ()) (Peer.accept limits)
  limits.acceptText group.instanceType
  limits.acceptText group.region

/-- The first label or text of a cluster that breaks the limits, as the failure to write it. -/
def Cluster.accept (limits : Limits) (cluster : Cluster) : Except ClusterError Unit := do
  cluster.groups.zipIdx.forM fun (group, index) =>
    reporting ("group " ++ toString index) ((group.accept limits).mapError .store)
  (cluster.labels.accept limits).mapError .store

namespace Layout

variable {limits : Limits}

private theorem check_map {part : Option String} {wrap : StoreError → ClusterError}
    (wrapped : ∀ edit, Step.failure ⟨edit, part⟩ = wrap) (edits : List Edit) :
    check limits (edits.map fun edit => ⟨edit, part⟩) =
      (edits.forM (Edit.check limits)).mapError wrap := by
  rw [check, Outcome.mapError_forM]
  simp only [List.forM_eq_forM, List.forM_map, wrapped]

private theorem check_plain (edits : List Edit) :
    check limits (edits.map Step.plain) = (edits.forM (Edit.check limits)).mapError .store :=
  check_map (fun _ => rfl) edits

private theorem checkKey_indexKey (ample : limits.Ample) {index : Nat}
    (short : index < Numeral.wordLimit) :
    limits.checkKey (Numeral.indexKey index) = .ok () := by
  refine ample.checkKey ?_ (Nat.le_trans (Numeral.length_ofText_toString_word short) (by decide))
  intro empty
  have nameless : toString index = "" := Bytes.ofText_injective empty
  rw [Numeral.toString_eq, String.ofList_eq_empty_iff] at nameless
  exact Nat.toDigits_ne_nil nameless

private theorem acceptText_toString (ample : limits.Ample) {value : Nat}
    (short : value < Numeral.wordLimit) :
    limits.acceptText (toString value) = .ok () :=
  ample.checkValue (Nat.le_trans (Numeral.length_ofText_toString_word short) (by decide))

/-- The names of the fields and buckets of a cluster are in no one's way. -/
theorem checkKey_ofText (ample : limits.Ample) {name : String}
    (fits : name ≠ "" ∧ (Bytes.ofText name).length ≤ maxIdentifierLength) :
    limits.checkKey (Bytes.ofText name) = .ok () :=
  ample.checkKey (fun empty => fits.1 (Bytes.ofText_injective empty)) fits.2

private theorem check_putText (ample : limits.Ample) (path : BucketPath) (name : String)
    (fits : name ≠ "" ∧ (Bytes.ofText name).length ≤ maxIdentifierLength) (text : String) :
    (putText path name text).check limits = limits.acceptText text := by
  rw [putText, Edit.check, checkKey_ofText ample fits]
  rfl

private theorem check_recreate (ample : limits.Ample) (path : BucketPath) (name : String)
    (fits : name ≠ "" ∧ (Bytes.ofText name).length ≤ maxIdentifierLength) :
    (recreate path name).check limits = .ok () :=
  checkKey_ofText ample fits

private theorem check_writeLabels (ample : limits.Ample) (path : BucketPath) (set : Labels) :
    (writeLabels path set).forM (Edit.check limits) = set.accept limits := by
  have each : ∀ label, (putText (below path labels) label "").check limits =
      limits.checkKey (Bytes.ofText label) := by
    intro label
    have empty : limits.checkValue (Bytes.ofText "") = .ok () := limits.checkValue_nil
    rw [putText, Edit.check, empty]
    exact bind_pure_unit
  change ((recreate path labels).check limits >>= fun _ => List.forM _ _) = _
  rw [check_recreate ample path labels (by decide +kernel), Labels.accept]
  simp only [List.forM_eq_forM, List.forM_map, each]
  rfl

private theorem check_writeTexts (ample : limits.Ample) (path : BucketPath) (name : String)
    (fits : name ≠ "" ∧ (Bytes.ofText name).length ≤ maxIdentifierLength) {items : List String}
    (short : items.length < Numeral.wordLimit) :
    (writeTexts path name items).forM (Edit.check limits) = items.forM limits.acceptText := by
  change ((recreate path name).check limits >>= fun _ =>
    (putText (below path name) count (toString items.length)).check limits >>= fun _ =>
      List.forM _ _) = _
  rw [check_recreate ample path name fits, check_putText ample _ count (by decide +kernel),
    acceptText_toString ample short]
  apply Outcome.forM_mapIdx
  intro index item inside
  rw [Edit.check, checkKey_indexKey ample (Nat.lt_trans inside short)]
  rfl

private theorem check_writePeer (ample : limits.Ample) (path : BucketPath) {peer : Peer}
    (countable : peer.Countable) :
    (writePeer path peer).forM (Edit.check limits) = peer.accept limits := by
  have transported := check_writeTexts ample (below path definition) transports
    (by decide +kernel) countable.transports
  have muxed := check_writeTexts ample (below path definition) muxers
    (by decide +kernel) countable.muxers
  have secured := check_writeTexts ample (below path definition) securityTransports
    (by decide +kernel) countable.securityTransports
  simp only [List.forM_eq_forM] at transported muxed secured
  rw [writePeer, Peer.accept]
  simp only [List.forM_eq_forM, List.forM_cons, List.forM_append, List.forM_nil, transported, muxed,
    secured, check_recreate ample path definition (by decide +kernel),
    check_putText ample _ gitReference (by decide +kernel),
    check_putText ample _ routing (by decide +kernel), bind_pure_unit, bind_assoc]
  rfl

private theorem check_writeGroup (ample : limits.Ample) (path : BucketPath) {group : Group}
    (countable : ∀ peer ∈ group.peer, peer.Countable) :
    (writeGroup path group).forM (Edit.check limits) = group.accept limits := by
  have labelled := check_writeLabels ample path group.labels
  have peered : ((group.peer.map (writePeer path)).getD []).forM (Edit.check limits) =
      group.peer.elim (pure ()) (Peer.accept limits) := by
    cases present : group.peer with
    | none => rfl
    | some peer => exact check_writePeer ample path (countable peer present)
  have sized := acceptText_toString ample
    (Nat.lt_trans group.size.toNat_lt (by decide : UInt32.size < Numeral.wordLimit))
  simp only [List.forM_eq_forM] at labelled peered
  rw [writeGroup, Group.accept]
  simp only [List.forM_eq_forM, List.forM_cons, List.forM_append, List.forM_nil, labelled, peered,
    check_putText ample _ size (by decide +kernel), sized,
    check_putText ample _ instanceType (by decide +kernel),
    check_putText ample _ region (by decide +kernel), bind_pure_unit, bind_assoc]
  rfl

private theorem check_groupSteps (ample : limits.Ample) (path : BucketPath) {index : Nat}
    (short : index < Numeral.wordLimit) {group : Group}
    (countable : ∀ peer ∈ group.peer, peer.Countable) :
    check limits (groupSteps path index group) =
      reporting ("group " ++ toString index) ((group.accept limits).mapError .store) := by
  have reported : check limits ((writeGroup (path ++ [Numeral.indexKey index]) group).map
      fun edit => ⟨edit, some ("group " ++ toString index)⟩) =
      (group.accept limits).mapError fun error =>
        .during ("group " ++ toString index) (.store error) := by
    rw [← check_writeGroup ample (path ++ [Numeral.indexKey index]) countable]
    exact check_map (fun _ => rfl) _
  have created : (Edit.create path (Numeral.indexKey index)).check limits = .ok () :=
    checkKey_indexKey ample short
  change (((Edit.create path (Numeral.indexKey index)).check limits).mapError _ >>= fun _ =>
    check limits _) = _
  rw [created, reported, reporting]
  cases group.accept limits <;> rfl

private theorem check_groups (ample : limits.Ample) (path : BucketPath) (groups : List Group)
    (countable : ∀ group ∈ groups, ∀ peer ∈ group.peer, peer.Countable) (front : Nat)
    (short : front + groups.length ≤ Numeral.wordLimit) :
    check limits (groups.mapIdx fun index group => groupSteps path (front + index) group).flatten =
      (groups.zipIdx front).forM fun (group, index) =>
        reporting ("group " ++ toString index) ((group.accept limits).mapError .store) := by
  induction groups generalizing front with
  | nil => rfl
  | cons group groups ih =>
    obtain ⟨first, countable⟩ := List.forall_mem_cons.mp countable
    rw [List.length_cons] at short
    have rest := ih countable (front + 1) (by omega)
    simp only [Nat.add_assoc, Nat.add_comm 1] at rest
    rw [List.mapIdx_cons, List.flatten_cons, check_append, Nat.add_zero,
      check_groupSteps ample path (by omega) first, rest]
    rfl

private theorem check_writeGroups (ample : limits.Ample) (path : BucketPath) {groups : List Group}
    (countable : ∀ group ∈ groups, ∀ peer ∈ group.peer, peer.Countable)
    (short : groups.length < Numeral.wordLimit) :
    check limits (writeGroups path groups) = groups.zipIdx.forM fun (group, index) =>
      reporting ("group " ++ toString index) ((group.accept limits).mapError .store) := by
  unfold writeGroups
  split
  · rename_i none
    rw [none]
    have discarded : (Edit.discard path (Bytes.ofText definition)).check limits = .ok () :=
      checkKey_ofText ample (by decide +kernel)
    change (((Edit.discard path (Bytes.ofText definition)).check limits).mapError _ >>= fun _ => _) = _
    rw [discarded]
    rfl
  · have rest := check_groups ample (below path definition) groups countable 0 (by omega)
    simp only [Nat.zero_add] at rest
    change (((recreate path definition).check limits).mapError _ >>= fun _ =>
      ((putText (below path definition) count (toString groups.length)).check limits).mapError _ >>=
        fun _ => check limits _) = _
    rw [check_recreate ample path definition (by decide +kernel),
      check_putText ample _ count (by decide +kernel), acceptText_toString ample short]
    exact rest

private theorem acceptText_text (ample : limits.Ample) {instant : Instant}
    (writable : instant.Writable) :
    limits.acceptText (Timestamp.text instant) = .ok () := by
  apply ample.checkValue
  rw [Timestamp.ofText_text writable, Timestamp.length_written]
  decide

private theorem acceptText_statusText (ample : limits.Ample) (status : Option Status) :
    limits.acceptText (statusText status) = .ok () := by
  apply ample.checkValue
  rcases status with _ | status
  · decide
  · cases status <;> decide

/-- The writing of a cluster is refused exactly where a label or a text of it breaks the limits. -/
theorem check_writeCluster (ample : limits.Ample) (path : BucketPath) {cluster : Cluster}
    (countable : cluster.Countable) (named : (Bytes.ofText cluster.id).length ≤ maxIdentifierLength)
    (created : cluster.createdAt.Writable) (updated : cluster.updatedAt.Writable) :
    check limits (writeCluster path cluster) = cluster.accept limits := by
  have stamped : check limits ((writeTimestamps path cluster.createdAt cluster.updatedAt).map
      Step.plain) = pure () := by
    rw [check_plain, writeTimestamps]
    simp only [List.forM_eq_forM, List.forM_cons, List.forM_nil,
      check_putText ample _ createdAt (by decide +kernel), acceptText_text ample created,
      check_putText ample _ updatedAt (by decide +kernel), acceptText_text ample updated]
    rfl
  have last : check limits [Step.plain (putText path id cluster.id),
      Step.plain (putText path status (statusText cluster.status))] = pure () := by
    have identified : limits.acceptText cluster.id = .ok () := ample.checkValue named
    refine (check_plain [putText path id cluster.id,
      putText path status (statusText cluster.status)]).trans ?_
    simp only [List.forM_eq_forM, List.forM_cons, List.forM_nil,
      check_putText ample _ id (by decide +kernel), identified,
      check_putText ample _ status (by decide +kernel), acceptText_statusText ample]
    rfl
  rw [writeCluster, check_append, check_append, check_append, stamped, last, check_plain,
    check_writeLabels ample, check_writeGroups ample path countable.peers countable.groups,
    Cluster.accept]
  simp only [pure_bind, bind_pure_unit]

end Layout

end ClusterRegistry
