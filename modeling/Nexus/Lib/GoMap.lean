import Mathlib.Data.List.AList

/-! Finite maps as a program sees them: keyed lookup, insertion and deletion,
and iteration in an order the program does not choose. -/

set_option autoImplicit false

namespace Nexus.Lib

abbrev GoMap (κ ν : Type) := AList fun _ : κ => ν

namespace GoMap

variable {κ ν : Type}

def values (map : GoMap κ ν) : List ν := map.entries.map Sigma.snd

/-- One order in which ranging over the map may deliver its values. -/
structure Order (map : GoMap κ ν) where
  values : List ν
  perm : values.Perm map.values

def Order.stored (map : GoMap κ ν) : Order map := ⟨map.values, .refl _⟩

theorem Order.mem_values {map : GoMap κ ν} (order : Order map) {value : ν} :
    value ∈ order.values ↔ value ∈ map.values :=
  order.perm.mem_iff

/-- Selecting from every order of iteration yields every order of the
selection. -/
theorem Order.forall_filter_iff (map : GoMap κ ν) (selected : ν → Bool)
    (statement : List ν → Prop) :
    (∀ order : Order map, statement (order.values.filter selected)) ↔
      ∀ chosen : List ν, chosen.Perm (map.values.filter selected) → statement chosen := by
  constructor
  · intro everyOrder chosen permuted
    let rest := map.values.filter (fun value => !selected value)
    have whole : (chosen ++ rest).Perm map.values :=
      (permuted.append_right rest).trans (List.filter_append_perm selected map.values)
    have keepsChosen : chosen.filter selected = chosen := by
      rw [List.filter_eq_self]
      intro value member
      exact (List.mem_filter.mp (permuted.mem_iff.mp member)).2
    have dropsRest : rest.filter selected = [] := by simp [rest]
    have chosenOnly := everyOrder ⟨chosen ++ rest, whole⟩
    simpa only [List.filter_append, keepsChosen, dropsRest, List.append_nil] using chosenOnly
  · intro everyChosen order
    exact everyChosen _ (order.perm.filter selected)

@[simp] theorem values_singleton (key : κ) (value : ν) :
    GoMap.values (AList.singleton key value) = [value] := rfl

variable [DecidableEq κ]

theorem mem_values_iff {map : GoMap κ ν} {value : ν} :
    value ∈ map.values ↔ ∃ key, map.lookup key = some value := by
  constructor
  · intro member
    obtain ⟨⟨key, stored⟩, included, rfl⟩ := List.mem_map.mp member
    exact ⟨key, AList.mem_lookup_iff.mpr included⟩
  · intro stored
    obtain ⟨key, found⟩ := stored
    exact List.mem_map.mpr ⟨⟨key, value⟩, AList.mem_lookup_iff.mp found, rfl⟩

/-- Values that know the key they are stored under are told apart by it. -/
theorem nodup_values_of_keyed {map : GoMap κ ν} {key : ν → κ}
    (keyed : ∀ {k value}, map.lookup k = some value → key value = k) :
    (map.values.map key).Nodup := by
  have keys : map.values.map key = map.keys := by
    rw [values, List.map_map, AList.keys, List.keys]
    apply List.map_congr_left
    intro entry stored
    exact keyed (AList.mem_lookup_iff.mpr stored)
  rw [keys]
  exact map.nodupKeys

theorem lookup_insert_eq (map : GoMap κ ν) (key other : κ) (value : ν) :
    (map.insert key value).lookup other =
      if other = key then some value else map.lookup other := by
  by_cases same : other = key
  · subst other
    simp
  · rw [if_neg same, AList.lookup_insert_ne same]

theorem lookup_erase_eq (map : GoMap κ ν) (key other : κ) :
    (map.erase key).lookup other = if other = key then none else map.lookup other := by
  by_cases same : other = key
  · subst other
    simp
  · rw [if_neg same, AList.lookup_erase_ne same]

theorem values_insert_of_notMem {map : GoMap κ ν} {key : κ} (value : ν)
    (fresh : key ∉ map) : GoMap.values (map.insert key value) = value :: map.values := by
  simp only [values, AList.entries_insert_of_notMem fresh, List.map_cons]

theorem mem_values_insert {map : GoMap κ ν} {key : κ} {value candidate : ν}
    (member : candidate ∈ GoMap.values (map.insert key value)) :
    candidate = value ∨ candidate ∈ map.values := by
  obtain ⟨other, found⟩ := mem_values_iff.mp member
  rw [lookup_insert_eq] at found
  split at found
  · exact .inl (Option.some.inj found).symm
  · exact .inr (mem_values_iff.mpr ⟨other, found⟩)

theorem values_erase_subset (map : GoMap κ ν) (key : κ) :
    GoMap.values (map.erase key) ⊆ map.values := by
  intro value member
  obtain ⟨other, found⟩ := mem_values_iff.mp member
  rw [lookup_erase_eq] at found
  split at found
  · cases found
  · exact mem_values_iff.mpr ⟨other, found⟩

end GoMap

end Nexus.Lib
