import Nexus.Middleware.Http

/-! What a header holds after calls of `Set`, of which the last one for a name
counts. -/

set_option autoImplicit false

namespace Nexus.Middleware

open Nexus.Go

/-- `h.Get(name)` -/
def Header.get (h : Header) (name : String) : String :=
  match h.find? fun field => field.1 == name with
  | some field => field.2
  | none => ""

theorem Header.get_set_self (h : Header) (name value : String) :
    (h.set name value).get name = value := by
  have dropped : (h.filter fun field => field.1 ≠ name).find? (fun field => field.1 == name) =
      none := by
    rw [List.find?_eq_none]
    intro field listed
    simpa using (List.mem_filter.mp listed).2
  rw [Header.get, Header.set, List.find?_append, dropped, Option.none_or]
  simp

theorem Header.get_set_other (h : Header) {name other : String} (value : String)
    (different : other ≠ name) : (h.set name value).get other = h.get other := by
  have kept : (h.filter fun field => field.1 ≠ name).find? (fun field => field.1 == other) =
      h.find? fun field => field.1 == other := by
    rw [List.find?_filter]
    refine congrArg (fun test => h.find? test) (funext fun field => ?_)
    by_cases found : field.1 = other
    · simp [found, different]
    · simp [found]
  have last : [(name, value)].find? (fun field => field.1 == other) = none := by
    simpa using different.symm
  rw [Header.get, Header.get, Header.set, List.find?_append, kept, last, Option.or_none]

theorem Header.get_setAll_other (h fields : Header) {name : String}
    (foreign : name ∉ fields.map Prod.fst) : (h.setAll fields).get name = h.get name := by
  induction fields generalizing h with
  | nil => rfl
  | cons field fields ih =>
      rw [List.map_cons, List.mem_cons, not_or] at foreign
      obtain ⟨different, others⟩ := foreign
      have rest : ((h.set field.1 field.2).setAll fields).get name = _ := ih _ others
      rw [Header.get_set_other h field.2 different] at rest
      exact rest

theorem Header.get_setAll (h fields : Header) (once : (fields.map Prod.fst).Nodup)
    {name value : String} (listed : (name, value) ∈ fields) :
    (h.setAll fields).get name = value := by
  induction fields generalizing h with
  | nil => cases listed
  | cons field fields ih =>
      rw [List.map_cons, List.nodup_cons] at once
      obtain ⟨foreign, once⟩ := once
      rcases List.mem_cons.mp listed with rfl | listed
      · have rest : ((h.set name value).setAll fields).get name = _ :=
          Header.get_setAll_other _ fields foreign
        rw [Header.get_set_self] at rest
        exact rest
      · exact ih _ once listed

end Nexus.Middleware
