import Nexus.Lib.GoMap

/-! Finite maps followed through the updates made to them. What is known is a
function, so that nothing depends on how a map keeps its entries. -/

set_option autoImplicit false

namespace Nexus.Lib

universe u

variable {κ ν : Type} [DecidableEq κ]

inductive Update (κ ν : Type) where
  | put (key : κ) (value : ν)
  | remove (key : κ)

def Update.apply (known : κ → Option ν) : Update κ ν → κ → Option ν
  | .put key value, other => if other = key then some value else known other
  | .remove key, other => if other = key then none else known other

/-- What is known after some updates. -/
def ledger (known : κ → Option ν) (updates : List (Update κ ν)) : κ → Option ν :=
  updates.foldl Update.apply known

/-- One more event, which may have made an update. -/
theorem ledger_filterMap_append {α : Type u} (known : κ → Option ν) (made : α → Option (Update κ ν))
    (past : List α) (event : α) :
    ledger known ((past ++ [event]).filterMap made) =
      ledger (ledger known (past.filterMap made)) (made event).toList := by
  rw [List.filterMap_append, ledger, List.foldl_append, List.filterMap_cons]
  cases made event <;> rfl

/-- The map holds what is known, and each value tells its key. -/
structure Files (map : GoMap κ ν) (key : ν → κ) (known : κ → Option ν) : Prop where
  keeps : ∀ k, map.lookup k = known k
  keyed : ∀ {k value}, map.lookup k = some value → key value = k

/-- The items are the known values, each of them once. -/
structure Lists (items : List ν) (key : ν → κ) (known : κ → Option ν) : Prop where
  once : (items.map key).Nodup
  complete : ∀ item, item ∈ items ↔ known (key item) = some item

namespace Files

variable {map : GoMap κ ν} {key : ν → κ} {known : κ → Option ν}

theorem put (files : Files map key known) {k : κ} {value : ν} (own : key value = k) :
    Files (map.insert k value) key ((Update.put k value).apply known) where
  keeps := by
    intro other
    rw [GoMap.lookup_insert_eq, files.keeps other]
    rfl
  keyed := by
    intro other stored found
    rw [GoMap.lookup_insert_eq] at found
    split at found
    · rename_i same
      cases found
      exact own.trans same.symm
    · exact files.keyed found

theorem remove (files : Files map key known) (k : κ) :
    Files (map.erase k) key ((Update.remove k : Update κ ν).apply known) where
  keeps := by
    intro other
    rw [GoMap.lookup_erase_eq, files.keeps other]
    rfl
  keyed := by
    intro other stored found
    rw [GoMap.lookup_erase_eq] at found
    split at found
    · cases found
    · exact files.keyed found

/-- Every order of iteration lists the map. -/
theorem lists (files : Files map key known) (order : map.Order) :
    Lists order.values key known where
  once := (order.perm.map key).nodup_iff.mpr (GoMap.nodup_values_of_keyed files.keyed)
  complete := by
    intro item
    rw [order.mem_values, GoMap.mem_values_iff]
    constructor
    · rintro ⟨k, found⟩
      rw [← files.keeps, files.keyed found]
      exact found
    · intro found
      exact ⟨key item, (files.keeps _).trans found⟩

end Files

end Nexus.Lib
