import ClusterRegistry.Cluster.Reading
import ClusterRegistry.Proofs.OrderedMap
import ClusterRegistry.Proofs.Outcome
import ClusterRegistry.Proofs.Text.Numeral
import ClusterRegistry.Proofs.Tree.Lawful

/-!
Lists in buckets.  A list that is written with its length and an entry for each index is read back
with that length, and each of its items is found under its index.
-/
namespace ClusterRegistry

theorem Numeral.indexKey_ne_ofText {name : String} (other : name.toList.all Char.isDigit = false)
    (index : Nat) : indexKey index ≠ Bytes.ofText name := by
  intro same
  have digits : name.toList.all Char.isDigit = true := by
    rw [← Bytes.ofText_injective same, toString_eq, String.toList_ofList, List.all_eq_true]
    intro digit member
    exact Nat.isDigit_of_mem_toDigits (by omega) (by omega) member
  rw [other] at digits
  contradiction

namespace Layout

open Numeral

/-- A list as it is written. -/
def listBucket (items : List Item) : Bucket :=
  OrderedMap.insertAll (items.mapIdx fun index item => (indexKey index, item))
    [(Bytes.ofText count, .value (Bytes.ofText (toString items.length)))]

private theorem distinct_indexed (items : List Item) :
    (items.mapIdx fun index item => (indexKey index, item)).Pairwise
      fun entry later => entry.1 ≠ later.1 := by
  rw [List.pairwise_iff_getElem]
  intro index later inside laterInside before
  rw [List.getElem_mapIdx, List.getElem_mapIdx]
  intro same
  have equal := indexKey_injective same
  omega

private theorem find?_indexed (items : List Item) (front index : Nat) :
    OrderedMap.find? (indexKey (front + index))
      (items.mapIdx fun place item => (indexKey (front + place), item)) = items[index]? := by
  induction items generalizing front index with
  | nil => rfl
  | cons item items ih =>
    rw [List.mapIdx_cons, OrderedMap.find?]
    cases index with
    | zero => rw [if_pos rfl]; rfl
    | succ index =>
      have later := ih (front + 1) index
      simp only [Nat.add_assoc, Nat.add_comm 1] at later
      rw [if_neg fun same => by have := indexKey_injective same; omega, List.getElem?_cons_succ]
      exact later

theorem item?_listBucket (items : List Item) (index : Nat) :
    (listBucket items).item? (indexKey index) = items[index]? := by
  have found := find?_indexed items 0 index
  simp only [Nat.zero_add] at found
  have other : indexKey index ≠ Bytes.ofText count := indexKey_ne_ofText (by decide) index
  rw [Bucket.item?, listBucket, OrderedMap.find?_insertAll _ (distinct_indexed items), found]
  simp [OrderedMap.find?, other]

private theorem field?_count_listBucket (items : List Item) :
    field? (listBucket items) count = some (Bytes.ofText (toString items.length)) := by
  have absent : OrderedMap.find? (Bytes.ofText count)
      (items.mapIdx fun index item => (indexKey index, item)) = none := by
    apply OrderedMap.find?_of_absent
    intro entry member
    obtain ⟨index, inside, rfl⟩ := List.mem_mapIdx.mp member
    exact (indexKey_ne_ofText (by decide) index).symm
  rw [field?, Bucket.field?, Bucket.item?, listBucket,
    OrderedMap.find?_insertAll _ (distinct_indexed items), absent]
  rfl

/-- Entries under different indices are different entries. -/
theorem length_le_of_present {items : Bucket} {length : Nat}
    (present : ∀ index < length, (items.item? (indexKey index)).isSome = true) :
    length ≤ items.length := by
  have inside : (List.range length).map indexKey ⊆ items.map Prod.fst := by
    intro key member
    obtain ⟨index, below, rfl⟩ := List.mem_map.mp member
    obtain ⟨item, found⟩ := Option.isSome_iff_exists.mp (present index (List.mem_range.mp below))
    exact List.mem_map.mpr ⟨_, OrderedMap.mem_of_find? found, rfl⟩
  have distinct : ((List.range length).map indexKey).Nodup :=
    List.Pairwise.map indexKey (fun _ _ differ same => differ (indexKey_injective same))
      List.nodup_range
  have fewer := distinct.length_le_of_subset inside
  rwa [List.length_map, List.length_map, List.length_range] at fewer

private theorem length_le_listBucket (items : List Item) :
    items.length ≤ (listBucket items).length := by
  apply length_le_of_present
  intro index inside
  rw [item?_listBucket, List.getElem?_eq_getElem inside]
  rfl

private theorem strayIndex?_listBucket {items : List Item} (short : items.length < wordLimit) :
    strayIndex? (listBucket items) items.length = none := by
  rw [strayIndex?, List.findSome?_eq_none_iff]
  intro entry member
  rcases OrderedMap.mem_insertAll member with item | length
  · obtain ⟨index, inside, rfl⟩ := List.mem_mapIdx.mp item
    rw [index?_indexKey (Nat.lt_trans inside short)]
    simp [inside]
  · have other : index? (Bytes.ofText count) = none := by decide +kernel
    rw [List.mem_singleton.mp length, other]
    rfl

private theorem le_firstGap_self (isPresent : Nat → Bool) (bound index : Nat) :
    index ≤ firstGap isPresent bound index := by
  induction bound generalizing index with
  | zero => exact Nat.le_refl _
  | succ bound ih =>
    rw [firstGap]
    split
    · exact Nat.le_trans (Nat.le_succ _) (ih (index + 1))
    · exact Nat.le_refl _

theorem le_firstGap {isPresent : Nat → Bool} {length bound index : Nat}
    (present : ∀ place, index ≤ place → place < length → isPresent place = true)
    (enough : length ≤ index + bound) (start : index ≤ length) :
    length ≤ firstGap isPresent bound index := by
  induction bound generalizing index with
  | zero => exact enough
  | succ bound ih =>
    by_cases last : index = length
    · rw [← last]
      exact le_firstGap_self isPresent (bound + 1) index
    · rw [firstGap, if_pos (present index (Nat.le_refl _) (by omega))]
      exact ih (fun place after => present place (by omega)) (by omega) (by omega)

theorem readText_ofText (field text : String) : readText field (Bytes.ofText text) = .ok text := by
  rw [readText, Bytes.text?_ofText]

theorem readInteger_toString (field : String) {limit value : Nat} (bound : value < limit) :
    readInteger field limit (Bytes.ofText (toString value)) = .ok value := by
  rw [readInteger, readText_ofText]
  simp only [bind, Except.bind, parse?_toString bound]
  rfl

theorem sequenceLength_listBucket {items : List Item} (short : items.length < wordLimit)
    (isPresent : Key → Bool)
    (present : ∀ index < items.length, isPresent (indexKey index) = true) :
    sequenceLength (listBucket items) isPresent = .ok items.length := by
  have gap : items.length ≤
      firstGap (fun index => isPresent (indexKey index)) (listBucket items).length 0 :=
    le_firstGap (fun index _ => present index) (by have := length_le_listBucket items; omega)
      (Nat.zero_le _)
  simp only [sequenceLength, field?_count_listBucket, readInteger_toString count short]
  change checkLength _ _ _ = _
  rw [checkLength, if_neg (Nat.not_lt.mpr gap), strayIndex?_listBucket short]

end Layout

end ClusterRegistry
