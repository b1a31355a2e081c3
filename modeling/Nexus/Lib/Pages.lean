import Mathlib.Data.List.Infix

/-! Pages of a list, and what a reader has seen of a log that grows at its end
while it asks for one page after the other, newest first. -/

set_option autoImplicit false

namespace Nexus.Lib

universe u

variable {α : Type u}

/-- The page after `earlier` pages. -/
def pageOf (all : List α) (size earlier : Nat) : List α :=
  (all.drop (earlier * size)).take size

/-- The number of pages that hold a number of entries. -/
def pageCount (total size : Nat) : Nat := (total + size - 1) / size

theorem pageCount_covers (total : Nat) {size : Nat} (positive : 0 < size) :
    total ≤ pageCount total size * size := by
  have whole := Nat.div_add_mod' (total + size - 1) size
  have rest := Nat.mod_lt (total + size - 1) positive
  rw [pageCount]
  omega

theorem mul_lt_of_lt_pageCount {total size earlier : Nat} (positive : 0 < size)
    (before : earlier < pageCount total size) : earlier * size < total := by
  have next := (Nat.le_div_iff_mul_le positive).mp (Nat.succ_le_of_lt before)
  rw [Nat.succ_mul] at next
  omega

theorem pageOf_eq_nil_iff {all : List α} {size earlier : Nat} (positive : 0 < size) :
    pageOf all size earlier = [] ↔ all.length ≤ earlier * size := by
  rw [pageOf, List.take_eq_nil_iff, List.drop_eq_nil_iff]
  constructor
  · rintro (none | behind)
    · omega
    · exact behind
  · exact .inr

theorem length_pageOf {all : List α} {size earlier : Nat}
    (next : earlier * size + size ≤ all.length) : (pageOf all size earlier).length = size := by
  rw [pageOf, List.length_take, List.length_drop]
  omega

/-- The pages of a list that stays as it is are the list. -/
theorem flatten_pages (all : List α) (size count : Nat) :
    ((List.range count).map (pageOf all size)).flatten = all.take (count * size) := by
  induction count with
  | zero => simp
  | succ count ih =>
      rw [List.range_succ, List.map_append, List.flatten_append, ih, List.map_singleton,
        List.flatten_singleton, pageOf, Nat.succ_mul, List.take_add]

/-- A page of a log in reverse, by positions in the log. -/
theorem pageOf_reverse (log : List α) (size earlier : Nat) :
    pageOf log.reverse size earlier =
      ((log.take (log.length - earlier * size)).drop
        (log.length - earlier * size - size)).reverse := by
  rw [pageOf, List.drop_reverse, List.take_reverse, List.length_take]
  congr 2
  omega

/-- The crossing argument: everything from position `rest` on has been shown,
and the log has grown since, so the next page overlaps or adjoins it. -/
theorem shown_next {old log shown : List α} {earlier rest : Nat} (size : Nat) (grown : old <+: log)
    (seen : (old.drop rest).reverse.Sublist shown) (reached : rest ≤ log.length - earlier * size) :
    (old.drop (log.length - earlier * size - size)).reverse.Sublist
      (shown ++ pageOf log.reverse size earlier) := by
  rw [pageOf_reverse]
  generalize log.length - earlier * size = upper at *
  by_cases overlap : upper - size ≤ rest
  · have split : old.drop (upper - size) =
        (old.drop (upper - size)).take (rest - (upper - size)) ++ old.drop rest := by
      have whole := List.take_append_drop (rest - (upper - size)) (old.drop (upper - size))
      rw [List.drop_drop, Nat.add_sub_cancel' overlap] at whole
      exact whole.symm
    have within : (old.drop (upper - size)).take (rest - (upper - size)) <+:
        (log.take upper).drop (upper - size) := by
      rw [List.drop_take]
      exact ((grown.drop (upper - size)).take _).trans (List.take_prefix_take_left (by omega))
    rw [split, List.reverse_append]
    exact seen.append within.sublist.reverse
  · have fewer : (old.drop (upper - size)).Sublist (old.drop rest) := by
      have moved := List.drop_sublist (upper - size - rest) (old.drop rest)
      rwa [List.drop_drop, Nat.add_sub_cancel' (by omega)] at moved
    exact (fewer.reverse.trans seen).trans (List.sublist_append_left _ _)

end Nexus.Lib
