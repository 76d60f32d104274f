import ClusterRegistry.Bytes

/-!
Sets of labels.  A set is the list of its labels in ascending byte order, each once, so equal
sets are equal lists.
-/
namespace ClusterRegistry

def labelBefore (label later : String) : Prop :=
  Bytes.ofText label < Bytes.ofText later

instance (label later : String) : Decidable (labelBefore label later) :=
  inferInstanceAs (Decidable (Bytes.ofText label < Bytes.ofText later))

theorem Bytes.ofText_injective {text other : String}
    (same : Bytes.ofText text = Bytes.ofText other) : text = other :=
  Option.some.inj (by rw [← Bytes.text?_ofText, same, Bytes.text?_ofText])

theorem labelBefore_trans {first second third : String} (left : labelBefore first second)
    (right : labelBefore second third) : labelBefore first third :=
  List.lt_trans left right

theorem labelBefore_of_not {label other : String} (after : ¬labelBefore label other)
    (differs : label ≠ other) : labelBefore other label :=
  Classical.byContradiction fun before =>
    differs (Bytes.ofText_injective
      (Std.Trichotomous.trichotomous (r := fun a b : Bytes => a < b) _ _ after before))

def insertLabel (label : String) : List String → List String
  | [] => [label]
  | next :: rest =>
    if labelBefore label next then label :: next :: rest
    else if label = next then next :: rest
    else next :: insertLabel label rest

theorem mem_insertLabel {label other : String} {labels : List String} :
    other ∈ insertLabel label labels ↔ other = label ∨ other ∈ labels := by
  induction labels with
  | nil => simp [insertLabel]
  | cons next rest ih =>
    unfold insertLabel
    split
    · simp
    · split
      · rename_i same
        simp [same]
      · simp only [List.mem_cons, ih]
        constructor
        · intro member
          rcases member with here | there | later <;> simp [*]
        · intro member
          rcases member with here | there | later <;> simp [*]

theorem insertLabel_pairwise (label : String) (labels : List String)
    (ordered : labels.Pairwise labelBefore) : (insertLabel label labels).Pairwise labelBefore := by
  induction labels with
  | nil => simp [insertLabel]
  | cons next rest ih =>
    obtain ⟨head, tail⟩ := List.pairwise_cons.mp ordered
    unfold insertLabel
    split
    · rename_i before
      refine List.pairwise_cons.mpr ⟨?_, ordered⟩
      intro other member
      rcases List.mem_cons.mp member with same | later
      · exact same ▸ before
      · exact labelBefore_trans before (head other later)
    · rename_i after
      split
      · exact ordered
      · rename_i differs
        refine List.pairwise_cons.mpr ⟨?_, ih tail⟩
        intro other member
        rcases mem_insertLabel.mp member with same | later
        · exact same ▸ labelBefore_of_not after differs
        · exact head other later

structure Labels where
  toList : List String
  ordered : toList.Pairwise labelBefore

namespace Labels

instance : DecidableEq Labels := fun labels other =>
  decidable_of_iff (labels.toList = other.toList) (by
    constructor
    · intro same
      cases labels
      cases other
      simpa using same
    · exact congrArg toList)

def empty : Labels :=
  ⟨[], List.Pairwise.nil⟩

def insert (label : String) (labels : Labels) : Labels :=
  ⟨insertLabel label labels.toList, insertLabel_pairwise label _ labels.ordered⟩

def erase (label : String) (labels : Labels) : Labels :=
  ⟨labels.toList.filter (· ≠ label), labels.ordered.filter _⟩

def addAll (labels : Labels) (added : List String) : Labels :=
  added.foldl (fun labels label => labels.insert label) labels

def removeAll (labels : Labels) (removed : List String) : Labels :=
  removed.foldl (fun labels label => labels.erase label) labels

def ofList (labels : List String) : Labels :=
  empty.addAll labels

end Labels

end ClusterRegistry
