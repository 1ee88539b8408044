import CollectionSchema.Json.Basic
import Mathlib.Data.List.Nodup

/-!
# Values in order

A value is in order if sorting changes nothing: the members of its objects are ascending by name,
also inside. The parts of a value in order are in order (`sorted_of_mem_array`,
`sorted_of_mem_object`), and sorting an object with different names loses no member
(`exists_perm_sorted`).
-/

namespace CollectionSchema.Json

theorem sortedItems_eq_map (items : List Json) : sortedItems items = items.map sorted := by
  induction items with
  | nil => rfl
  | cons item rest ih => rw [sortedItems, ih, List.map_cons]

theorem sortedMembers_eq_map (members : List (String × Json)) :
    sortedMembers members = members.map fun member => (member.1, member.2.sorted) := by
  induction members with
  | nil => rfl
  | cons member rest ih => rw [sortedMembers, ih, List.map_cons]

theorem sorted_string (s : String) : (string s).sorted = .string s := rfl

theorem sorted_bool (b : Bool) : (bool b).sorted = .bool b := rfl

theorem sorted_array (items : List Json) : (array items).sorted = .array (items.map sorted) :=
  congrArg array (sortedItems_eq_map items)

theorem sorted_object (members : List (String × Json)) : (object members).sorted =
    .object (ascendingByKey (members.map fun member => (member.1, member.2.sorted))) :=
  congrArg (fun entries => object (ascendingByKey entries)) (sortedMembers_eq_map members)

theorem sorted_of_mem_array {items : List Json} (h : (array items).sorted = .array items) :
    ∀ item ∈ items, item.sorted = item := by
  rw [sorted_array, array.injEq] at h
  exact List.map_inj_left.mp (h.trans (List.map_id items).symm)

theorem sorted_of_mem_object {members : List (String × Json)}
    (h : (object members).sorted = .object members) :
    ∀ member ∈ members, member.2.sorted = member.2 := by
  rw [sorted_object, object.injEq] at h
  let sortedMembers := members.map fun member : String × Json => (member.1, member.2.sorted)
  have hkeys : sortedMembers.map (·.1) = members.map (·.1) := by
    simp only [sortedMembers, List.map_map, Function.comp_def]
  have hascending : members.Pairwise (·.1 < ·.1) := h ▸ pairwise_ascendingByKey sortedMembers
  have hmapped : sortedMembers.Pairwise (·.1 < ·.1) := by
    rw [← List.pairwise_map (R := (· < ·)), hkeys, List.pairwise_map]
    exact hascending
  have hnodup : (sortedMembers.map (·.1)).Nodup :=
    List.pairwise_map.mpr (hmapped.imp String.ne_of_lt)
  -- two lists that are ascending by key and have the same members are equal
  have heq : sortedMembers = members := by
    have hperm : sortedMembers.Perm members :=
      (perm_ascendingByKey hnodup).symm.trans (List.Perm.of_eq h)
    refine List.Perm.eq_of_pairwise ?_ hmapped hascending hperm
    intro a b _ _ hab hba
    exact absurd (String.lt_trans hab hba) (String.lt_irrefl _)
  intro member hmember
  have hself := List.map_inj_left.mp (heq.trans (List.map_id members).symm) member hmember
  exact (Prod.ext_iff.mp hself).2

/-- A member of an object in order is in order. -/
theorem sorted_of_lookup {found : List (String × Json)}
    (hsorted : (object found).sorted = .object found) {name : String} {value : Json}
    (h : found.lookup name = some value) : value.sorted = value := by
  obtain ⟨before, after, rfl, -⟩ := List.lookup_eq_some_iff.mp h
  exact sorted_of_mem_object hsorted (name, value) (by simp)

/-- Members in the order of their names are the same members. -/
theorem exists_perm_sorted {members : List (String × Json)} {value : Json}
    (hvalue : value = .object members) (hkeys : (members.map (·.1)).Nodup) :
    ∃ found, value.sorted = .object found ∧
      found.Perm (members.map fun member => (member.1, member.2.sorted)) := by
  subst hvalue
  refine ⟨_, sorted_object members, perm_ascendingByKey ?_⟩
  rwa [List.map_map]

end CollectionSchema.Json
