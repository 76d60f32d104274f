import ClusterRegistry.Cluster.Labels

/-!
Sets of labels, taken one label at a time.  A set is made up again from its own labels, and to add
some labels and remove others is to take the union with the ones and the difference from the others.
-/
namespace ClusterRegistry

private theorem labelBefore_asymm {label other : String} (before : labelBefore label other) :
    ¬labelBefore other label :=
  Std.Asymm.asymm (r := fun a b : Bytes => a < b) _ _ before

private theorem insertLabel_above {label : String} {labels : List String}
    (above : ∀ other ∈ labels, labelBefore other label) :
    insertLabel label labels = labels ++ [label] := by
  induction labels with
  | nil => rfl
  | cons next rest ih =>
    obtain ⟨first, above⟩ := List.forall_mem_cons.mp above
    have differs : label ≠ next := by
      rintro rfl
      exact labelBefore_asymm first first
    rw [insertLabel, if_neg (labelBefore_asymm first), if_neg differs, ih above]
    rfl

namespace Labels

@[ext]
theorem ext {labels others : Labels} (same : labels.toList = others.toList) : labels = others := by
  cases labels
  cases others
  cases same
  rfl

private theorem addAll_above {labels : Labels} {added : List String}
    (ordered : (labels.toList ++ added).Pairwise labelBefore) :
    (labels.addAll added).toList = labels.toList ++ added := by
  induction added generalizing labels with
  | nil => rw [List.append_nil]; rfl
  | cons label added ih =>
    have above : ∀ other ∈ labels.toList, labelBefore other label := fun other member =>
      (List.pairwise_append.mp ordered).2.2 other member label List.mem_cons_self
    have inserted : (labels.insert label).toList = labels.toList ++ [label] :=
      insertLabel_above above
    rw [List.append_cons, ← inserted] at ordered
    rw [List.append_cons, ← inserted]
    exact ih ordered

theorem ofList_toList (labels : Labels) : ofList labels.toList = labels :=
  Labels.ext (addAll_above (by exact labels.ordered))

theorem mem_insert {label other : String} {labels : Labels} :
    other ∈ (labels.insert label).toList ↔ other = label ∨ other ∈ labels.toList :=
  mem_insertLabel

private theorem mem_addAll {label : String} {labels : Labels} {added : List String} :
    label ∈ (labels.addAll added).toList ↔ label ∈ labels.toList ∨ label ∈ added := by
  induction added generalizing labels with
  | nil => simp [addAll]
  | cons first added ih =>
    change label ∈ ((labels.insert first).addAll added).toList ↔ _
    rw [ih, mem_insert, List.mem_cons, or_assoc, or_left_comm]

private theorem mem_removeAll {label : String} {labels : Labels} {removed : List String} :
    label ∈ (labels.removeAll removed).toList ↔ label ∈ labels.toList ∧ label ∉ removed := by
  induction removed generalizing labels with
  | nil => simp [removeAll]
  | cons first removed ih =>
    change label ∈ ((labels.erase first).removeAll removed).toList ↔ _
    rw [ih, erase, List.mem_filter, List.mem_cons, decide_eq_true_eq, not_or, and_assoc]

theorem mem_ofList {label : String} {labels : List String} :
    label ∈ (ofList labels).toList ↔ label ∈ labels := by
  rw [ofList, mem_addAll]
  simp [empty]

/-- Sets with the same labels are the same. -/
theorem ext_mem {labels others : Labels}
    (same : ∀ label, label ∈ labels.toList ↔ label ∈ others.toList) : labels = others := by
  have distinct : ∀ set : Labels, set.toList.Nodup := by
    intro set
    refine List.Pairwise.imp ?_ set.ordered
    rintro label _ before rfl
    exact labelBefore_asymm before before
  apply Labels.ext
  apply List.Perm.eq_of_pairwise _ labels.ordered others.ordered
    ((List.perm_ext_iff_of_nodup (distinct labels) (distinct others)).mpr same)
  intro label other _ _ before after
  exact absurd after (labelBefore_asymm before)

/-- The labels of the set and the added ones, without the removed ones. -/
def changed (labels : Labels) (added removed : List String) : Labels :=
  .ofList ((labels.toList ++ added).filter fun label => label ∉ removed)

theorem removeAll_addAll (labels : Labels) (added removed : List String) :
    (labels.addAll added).removeAll removed = labels.changed added removed := by
  apply ext_mem
  intro label
  rw [mem_removeAll, mem_addAll, changed, mem_ofList, List.mem_filter, List.mem_append,
    decide_eq_true_eq]

end Labels

end ClusterRegistry
