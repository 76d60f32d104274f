import ClusterRegistry.Log.File
import ClusterRegistry.Proofs.Text.Numeral

/-!
The log files of a directory.  The name of a number is read back as that number, so a directory in
which every log file bears its own name is the same thing as a map from numbers to contents, and
the listing by ascending number is that map.
-/
namespace ClusterRegistry.Log

theorem isPrefixOf?_append (front rest : List Char) :
    List.isPrefixOf? front (front ++ rest) = some rest := by
  induction front with
  | nil => cases rest <;> rfl
  | cons first front ih =>
    have next : List.isPrefixOf? (first :: front) (first :: (front ++ rest)) =
      if first == first then List.isPrefixOf? front (front ++ rest) else none := rfl
    rw [List.cons_append, next, beq_self_eq_true, if_pos rfl, ih]

private theorem isSuffixOf?_append (front rest : List Char) :
    List.isSuffixOf? rest (front ++ rest) = some front := by
  change (List.isPrefixOf? rest.reverse (front ++ rest).reverse).map List.reverse = _
  rw [List.reverse_append, isPrefixOf?_append, Option.map_some, List.reverse_reverse]

theorem sequence?_fileName (sequence : Nat) (bound : sequence < Numeral.wordLimit) :
    sequence? (fileName sequence) = some sequence := by
  have digits := Numeral.ofDigits?_leftpad_toDigits 16 16 sequence (by decide) (by decide)
  have start : nameStart.toList.isPrefixOf? (fileName sequence).toList =
      some ((Nat.toDigits 16 sequence).leftpad 16 '0' ++ nameEnd.toList) := by
    simp only [fileName, Numeral.padded, String.toList_append, String.toList_ofList,
      List.append_assoc]
    exact isPrefixOf?_append _ _
  unfold sequence?
  rw [start, Option.bind_eq_bind, Option.bind_some, isSuffixOf?_append, Option.bind_some]
  exact Numeral.parse?_ofList 16 _ sequence _ digits bound

theorem sequence?_lt {name : String} {sequence : Nat} (ok : sequence? name = some sequence) :
    sequence < Numeral.wordLimit := by
  unfold sequence? at ok
  obtain ⟨rest, _, ok⟩ := Option.bind_eq_some_iff.mp ok
  obtain ⟨digits, _, ok⟩ := Option.bind_eq_some_iff.mp ok
  simpa using (Option.filter_eq_some_iff.mp ok).2

theorem fileName_injective {first second : Nat} (bound : first < Numeral.wordLimit)
    (otherBound : second < Numeral.wordLimit) (same : fileName first = fileName second) :
    first = second := by
  have read := sequence?_fileName first bound
  rw [same, sequence?_fileName second otherBound] at read
  exact (Option.some.inj read).symm

theorem fileName_ne_of_other {name : String} {sequence : Nat} (other : sequence? name = none)
    (bound : sequence < Numeral.wordLimit) : fileName sequence ≠ name := by
  intro same
  rw [← same, sequence?_fileName sequence bound] at other
  contradiction

theorem pairwise_sequence_filesOf (entries : Folder) :
    (filesOf entries).Pairwise fun file later => file.sequence ≤ later.sequence := by
  have sorted : (filesOf entries).Pairwise fun file later =>
      decide (file.sequence ≤ later.sequence) = true :=
    List.pairwise_mergeSort
      (fun _ _ _ first second => by simp only [decide_eq_true_eq] at *; omega)
      (fun first second => by simp only [Bool.or_eq_true, decide_eq_true_eq]; omega)
      (entries.filterMap File.ofEntry?)
  exact sorted.imp fun below => of_decide_eq_true below

def numbered (file : Nat × Bytes) : File :=
  ⟨file.1, fileName file.1, .file file.2⟩

/-- The log files in a directory are `files`, by ascending number, and each bears its own name.
Whatever else is in the directory is a file too. -/
structure Listing (entries : Folder) (files : List (Nat × Bytes)) : Prop where
  ordered : OrderedMap.Ordered entries
  ascending : OrderedMap.Ordered files
  bounded : ∀ file ∈ files, file.1 < Numeral.wordLimit
  stored : ∀ sequence < Numeral.wordLimit, OrderedMap.find? (fileName sequence) entries =
    (OrderedMap.find? sequence files).map DiskEntry.file
  canonical : ∀ name sequence, (OrderedMap.find? name entries).isSome →
    sequence? name = some sequence → name = fileName sequence
  plain : ∀ name inner, OrderedMap.find? name entries ≠ some (.folder inner)

theorem listing_nil : Listing [] [] := by
  constructor <;> simp [OrderedMap.Ordered, OrderedMap.find?]

namespace Listing

variable {entries : Folder} {files : List (Nat × Bytes)}

theorem ofEntry?_eq_some {entry : String × DiskEntry} {file : File} :
    File.ofEntry? entry = some file ↔
      sequence? entry.1 = some file.sequence ∧ file.name = entry.1 ∧ file.entry = entry.2 := by
  unfold File.ofEntry?
  rw [Option.map_eq_some_iff]
  constructor
  · intro given
    obtain ⟨sequence, ok, rfl⟩ := given
    exact ⟨ok, rfl, rfl⟩
  · intro given
    obtain ⟨ok, name, contents⟩ := given
    exact ⟨file.sequence, ok, by rw [← name, ← contents]⟩

private theorem mem_filterMap_iff (listing : Listing entries files) (file : File) :
    file ∈ entries.filterMap File.ofEntry? ↔ file ∈ files.map numbered := by
  rw [List.mem_filterMap, List.mem_map]
  constructor
  · intro given
    obtain ⟨⟨name, entry⟩, member, ok⟩ := given
    obtain ⟨sequence, rfl, rfl⟩ := ofEntry?_eq_some.mp ok
    have found := OrderedMap.find?_of_mem listing.ordered member
    have own : file.name = fileName file.sequence :=
      listing.canonical _ _ (by rw [found]; rfl) sequence
    rw [own, listing.stored _ (sequence?_lt sequence)] at found
    obtain ⟨contents, stored, same⟩ := Option.map_eq_some_iff.mp found
    exact ⟨_, OrderedMap.mem_of_find? stored, by
      cases file
      simp only [numbered, File.mk.injEq, true_and]
      exact ⟨own.symm, same⟩⟩
  · intro given
    obtain ⟨⟨sequence, contents⟩, member, rfl⟩ := given
    have bound := listing.bounded _ member
    have stored := listing.stored sequence bound
    rw [OrderedMap.find?_of_mem listing.ascending member] at stored
    exact ⟨_, OrderedMap.mem_of_find? stored,
      ofEntry?_eq_some.mpr ⟨sequence?_fileName sequence bound, rfl, rfl⟩⟩

private theorem nodup_filterMap (listing : Listing entries files) :
    (entries.filterMap File.ofEntry?).Nodup := by
  apply List.pairwise_filterMap.mpr
  apply listing.ordered.imp
  intro entry later below file ok other otherOk same
  subst same
  have name := (ofEntry?_eq_some.mp ok).2.1
  rw [name.symm.trans (ofEntry?_eq_some.mp otherOk).2.1] at below
  exact Std.Irrefl.irrefl (r := fun a b : String => a < b) _ below

theorem pairwise_numbered (listing : Listing entries files) :
    (files.map numbered).Pairwise fun file later => file.sequence < later.sequence :=
  List.pairwise_map.mpr listing.ascending

theorem filesOf_eq (listing : Listing entries files) : filesOf entries = files.map numbered := by
  have ascending := listing.pairwise_numbered
  have distinct : (files.map numbered).Nodup := by
    apply ascending.imp
    intro file later below same
    subst same
    exact Nat.lt_irrefl _ below
  have members : (entries.filterMap File.ofEntry?).Perm (files.map numbered) :=
    (List.perm_ext_iff_of_nodup listing.nodup_filterMap distinct).mpr listing.mem_filterMap_iff
  apply List.Perm.eq_of_pairwise _ (pairwise_sequence_filesOf entries)
    (ascending.imp Nat.le_of_lt) ((List.mergeSort_perm _ _).trans members)
  -- A number names one file only.
  intro file other member otherMember below above
  have own := (List.mergeSort_perm _ _).mem_iff.mp member
  obtain ⟨first, inside, rfl⟩ := List.mem_map.mp ((listing.mem_filterMap_iff file).mp own)
  obtain ⟨second, otherInside, rfl⟩ := List.mem_map.mp otherMember
  have same : first.1 = second.1 := Nat.le_antisymm below above
  have left : OrderedMap.find? first.1 files = some first.2 :=
    OrderedMap.find?_of_mem listing.ascending inside
  have right : OrderedMap.find? second.1 files = some second.2 :=
    OrderedMap.find?_of_mem listing.ascending otherInside
  rw [same, right] at left
  exact congrArg numbered (Prod.ext same (Option.some.inj left).symm)

theorem plain_insert (listing : Listing entries files) (key : String) (contents : Bytes)
    (name : String) (inner : Folder) :
    OrderedMap.find? name (OrderedMap.insert key (.file contents) entries) ≠
      some (.folder inner) := by
  rw [OrderedMap.find?_insert]
  split
  · simp
  · exact listing.plain name inner

theorem plain_erase (listing : Listing entries files) (key name : String) (inner : Folder) :
    OrderedMap.find? name (OrderedMap.erase key entries) ≠ some (.folder inner) := by
  rw [OrderedMap.find?_erase]
  split
  · simp
  · exact listing.plain name inner

theorem insert (listing : Listing entries files) (sequence : Nat) (contents : Bytes)
    (bound : sequence < Numeral.wordLimit) :
    Listing (OrderedMap.insert (fileName sequence) (.file contents) entries)
      (OrderedMap.insert sequence contents files) where
  ordered := OrderedMap.ordered_insert _ _ listing.ordered
  ascending := OrderedMap.ordered_insert _ _ listing.ascending
  bounded file member := by
    rcases OrderedMap.mem_insert member with rfl | old
    · exact bound
    · exact listing.bounded file old
  stored other otherBound := by
    rw [OrderedMap.find?_insert, OrderedMap.find?_insert]
    by_cases same : other = sequence
    · simp [same]
    · rw [if_neg same, if_neg fun names => same (fileName_injective otherBound bound names)]
      exact listing.stored other otherBound
  canonical name other present read := by
    rw [OrderedMap.find?_insert] at present
    split at present
    · rename_i own
      rw [own, sequence?_fileName sequence bound] at read
      rw [own, Option.some.inj read]
    · exact listing.canonical name other present read
  plain := listing.plain_insert _ _

theorem insert_other (listing : Listing entries files) (name : String) (contents : Bytes)
    (other : sequence? name = none) :
    Listing (OrderedMap.insert name (.file contents) entries) files where
  ordered := OrderedMap.ordered_insert _ _ listing.ordered
  ascending := listing.ascending
  bounded := listing.bounded
  stored sequence bound := by
    rw [OrderedMap.find?_insert, if_neg (fileName_ne_of_other other bound)]
    exact listing.stored sequence bound
  canonical found sequence present read := by
    rw [OrderedMap.find?_insert] at present
    split at present
    · rename_i same
      rw [same, other] at read
      contradiction
    · exact listing.canonical found sequence present read
  plain := listing.plain_insert _ _

theorem erase (listing : Listing entries files) (sequence : Nat)
    (bound : sequence < Numeral.wordLimit) :
    Listing (OrderedMap.erase (fileName sequence) entries) (OrderedMap.erase sequence files) where
  ordered := OrderedMap.ordered_erase _ listing.ordered
  ascending := OrderedMap.ordered_erase _ listing.ascending
  bounded file member := listing.bounded file (List.mem_filter.mp member).1
  stored other otherBound := by
    rw [OrderedMap.find?_erase, OrderedMap.find?_erase]
    by_cases same : other = sequence
    · simp [same]
    · rw [if_neg same, if_neg fun names => same (fileName_injective otherBound bound names)]
      exact listing.stored other otherBound
  canonical name other present read := by
    rw [OrderedMap.find?_erase] at present
    split at present
    · contradiction
    · exact listing.canonical name other present read
  plain := listing.plain_erase _

theorem erase_other (listing : Listing entries files) (name : String)
    (other : sequence? name = none) : Listing (OrderedMap.erase name entries) files where
  ordered := OrderedMap.ordered_erase _ listing.ordered
  ascending := listing.ascending
  bounded := listing.bounded
  stored sequence bound := by
    rw [OrderedMap.find?_erase, if_neg (fileName_ne_of_other other bound)]
    exact listing.stored sequence bound
  canonical found sequence present read := by
    rw [OrderedMap.find?_erase] at present
    split at present
    · contradiction
    · exact listing.canonical found sequence present read
  plain := listing.plain_erase _

theorem stored_of_mem (listing : Listing entries files) {sequence : Nat} {contents : Bytes}
    (member : (sequence, contents) ∈ files) :
    OrderedMap.find? (fileName sequence) entries = some (.file contents) := by
  rw [listing.stored sequence (listing.bounded _ member),
    OrderedMap.find?_of_mem listing.ascending member]
  rfl

theorem absent (listing : Listing entries files) {sequence : Nat}
    (bound : sequence < Numeral.wordLimit) (fresh : ∀ file ∈ files, file.1 ≠ sequence) :
    OrderedMap.find? (fileName sequence) entries = none := by
  rw [listing.stored sequence bound]
  cases found : OrderedMap.find? sequence files with
  | none => rfl
  | some contents => exact absurd rfl (fresh _ (OrderedMap.mem_of_find? found))

end Listing

end ClusterRegistry.Log
