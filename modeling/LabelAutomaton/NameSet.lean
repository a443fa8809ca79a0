import LabelAutomaton.Callback
import LabelAutomaton.Json.Value
import LabelAutomaton.SortedMap

/-!
# Sets of state names

A `NameSet` is a finite set of names: the keys of a map that has nothing beside them.
`NameSet.toList` lists the names in increasing order, so each of them once
(`NameSet.pairwise_toList`), and this is how a set is written.

A set is told by its members (`NameSet.ext_mem`). It does not matter in which order they were given,
nor how often (`NameSet.ofList_eq_ofList_iff`).
-/

set_option autoImplicit false

namespace LabelAutomaton

/-- A set of state names, in increasing order. -/
structure NameSet where
  /-- The names, each with nothing beside it. -/
  names : SortedMap Unit

namespace NameSet

/-- The set of the names in a list. -/
def ofList (names : List StateName) : NameSet :=
  ⟨SortedMap.ofList (names.map fun name ↦ (name, ()))⟩

/-- The names in increasing order. -/
def toList (s : NameSet) : List StateName := s.names.keys

/-- Whether the name is in the set. -/
def contains (s : NameSet) (name : StateName) : Bool := s.names.contains name

/-- The text of the set: an array of its names. -/
def toJson (s : NameSet) : String := (Json.Value.ofList (s.toList.map .ofString)).toText

theorem contains_iff {s : NameSet} {name : StateName} :
    s.contains name = true ↔ name ∈ s.toList := by
  rw [contains, SortedMap.contains, Option.isSome_iff_exists, toList, SortedMap.mem_keys_iff]

theorem pairwise_toList (s : NameSet) : s.toList.Pairwise (· < ·) := s.names.pairwise_keys

@[simp] theorem mem_toList_ofList {names : List StateName} {name : StateName} :
    name ∈ (ofList names).toList ↔ name ∈ names := by
  rw [← contains_iff, contains, ofList, SortedMap.contains_ofList_iff, List.map_map]
  simp

/-- A set is told by its members. -/
theorem ext_mem {s t : NameSet} (h : ∀ name, name ∈ s.toList ↔ name ∈ t.toList) : s = t := by
  have hfind (name : StateName) : s.names.find? name = t.names.find? name := by
    have hname := h name
    rw [← contains_iff, ← contains_iff, contains, contains, SortedMap.contains,
      SortedMap.contains] at hname
    cases hs : s.names.find? name <;> cases ht : t.names.find? name <;> simp_all
  cases s
  cases t
  exact congrArg mk (SortedMap.ext_find? hfind)

/-- A set is made of its members, in whatever order and however often they are given. -/
theorem ofList_eq_ofList_iff {l l' : List StateName} :
    ofList l = ofList l' ↔ ∀ name, name ∈ l ↔ name ∈ l' := by
  constructor
  · intro h name
    rw [← mem_toList_ofList, h, mem_toList_ofList]
  · intro h
    exact ext_mem fun name ↦ by rw [mem_toList_ofList, mem_toList_ofList, h]

@[simp] theorem ofList_toList (s : NameSet) : ofList s.toList = s :=
  ext_mem fun _ ↦ mem_toList_ofList

end NameSet

end LabelAutomaton
