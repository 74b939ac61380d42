import Mathlib.Data.List.Dedup
import Mathlib.Data.List.Sort

/-!
# Ordered sets and maps

A finite set kept as its strictly increasing enumeration.  Iteration order is
part of the value, so two sets are equal exactly when they have the same
members.  A map keeps its entries in the order of their keys.
-/

/-- A strictly increasing list, regarded as the set of its members. -/
structure OrderedSet (α : Type*) [LinearOrder α] where
  toList : List α
  increasing : toList.Pairwise (· < ·)

namespace OrderedSet

variable {α : Type*} [LinearOrder α]

instance : DecidableEq (OrderedSet α) := fun first second =>
  decidable_of_iff (first.toList = second.toList) (by
    cases first
    cases second
    simp)

instance : Membership α (OrderedSet α) where
  mem set value := value ∈ set.toList

instance (value : α) (set : OrderedSet α) : Decidable (value ∈ set) :=
  inferInstanceAs (Decidable (value ∈ set.toList))

instance : HasSubset (OrderedSet α) where
  Subset first second := ∀ value ∈ first.toList, value ∈ second.toList

instance (first second : OrderedSet α) : Decidable (first ⊆ second) :=
  inferInstanceAs (Decidable (∀ value ∈ first.toList, value ∈ second.toList))

/-- Number of members. -/
def card (set : OrderedSet α) : Nat := set.toList.length

theorem subset_iff {first second : OrderedSet α} :
    first ⊆ second ↔ ∀ value, value ∈ first → value ∈ second :=
  Iff.rfl

theorem subset_refl (set : OrderedSet α) : set ⊆ set :=
  fun _ member => member

theorem subset_trans {first second third : OrderedSet α}
    (left : first ⊆ second) (right : second ⊆ third) : first ⊆ third :=
  fun value member => right value (left value member)

theorem ext_toList {first second : OrderedSet α}
    (same : first.toList = second.toList) : first = second := by
  cases first
  cases second
  simpa using same

/-- Collect the distinct values of a list. -/
def ofList (values : List α) : OrderedSet α where
  toList := values.dedup.insertionSort (· ≤ ·)
  increasing := by
    have ordered : (values.dedup.insertionSort (· ≤ ·)).Pairwise (· ≤ ·) :=
      List.pairwise_insertionSort (· ≤ ·) _
    have distinct : (values.dedup.insertionSort (· ≤ ·)).Nodup :=
      (List.perm_insertionSort (· ≤ ·) _).nodup_iff.mpr (List.nodup_dedup values)
    exact (ordered.and distinct).imp fun related => lt_of_le_of_ne related.1 related.2

@[simp]
theorem mem_ofList {values : List α} {value : α} :
    value ∈ ofList values ↔ value ∈ values := by
  change value ∈ values.dedup.insertionSort (· ≤ ·) ↔ value ∈ values
  rw [List.mem_insertionSort, List.mem_dedup]

/-- A set as large as the list it was collected from lists the same values. -/
theorem perm_ofList_of_card {values : List α}
    (all : (ofList values).card = values.length) :
    (ofList values).toList.Perm values := by
  have sorted : (ofList values).toList.Perm values.dedup :=
    List.perm_insertionSort (· ≤ ·) _
  have whole : values.dedup = values :=
    (List.dedup_sublist values).eq_of_length (sorted.length_eq.symm.trans all)
  rwa [whole] at sorted

/-- Collecting an enumeration gives the enumerated set back. -/
@[simp]
theorem ofList_toList (set : OrderedSet α) : ofList set.toList = set := by
  have distinct : set.toList.Nodup :=
    set.increasing.imp fun below => ne_of_lt below
  have ordered : set.toList.Pairwise (· ≤ ·) :=
    set.increasing.imp fun below => le_of_lt below
  cases set with
  | mk values increasing =>
      simp only [ofList, mk.injEq]
      rw [List.Nodup.dedup distinct, List.Pairwise.insertionSort_eq ordered]

end OrderedSet

/-- Entries in the order of strictly increasing keys, regarded as a map. -/
structure OrderedMap (Key : Type*) (Value : Type*) [LinearOrder Key] where
  entries : List (Key × Value)
  increasing : entries.Pairwise fun first second => first.1 < second.1

namespace OrderedMap

variable {Key : Type*} {Value Image : Type*} [LinearOrder Key]

/-- Number of entries. -/
def card (map : OrderedMap Key Value) : Nat := map.entries.length

def get? (map : OrderedMap Key Value) (key : Key) : Option Value :=
  (map.entries.find? fun entry => decide (entry.1 = key)).map Prod.snd

theorem mem_of_get? {map : OrderedMap Key Value} {key : Key} {value : Value}
    (found : map.get? key = some value) : (key, value) ∈ map.entries := by
  unfold get? at found
  obtain ⟨entry, chosen, rfl⟩ := Option.map_eq_some_iff.mp found
  have sameKey : entry.1 = key := by
    simpa using List.find?_some chosen
  rw [← sameKey]
  exact List.mem_of_find?_eq_some chosen

/-- Rewrite every value. -/
def mapValues (map : OrderedMap Key Value) (image : Value → Image) :
    OrderedMap Key Image where
  entries := map.entries.map fun entry => (entry.1, image entry.2)
  increasing := List.pairwise_map.mpr map.increasing

theorem get?_mapValues (map : OrderedMap Key Value) (image : Value → Image)
    (key : Key) : (map.mapValues image).get? key = (map.get? key).map image := by
  simp only [get?, mapValues, List.find?_map, Option.map_map]
  rfl

end OrderedMap
