import Mathlib.Data.List.Chain

/-! The front of a list, newest first, that a counter goes on counting as long
as each entry comes near enough to the one before it, and the entries of a list
that a window still covers. -/

set_option autoImplicit false

namespace Nexus.Lib

universe u

variable {α : Type u}

section
variable (near : α → α → Prop) [DecidableRel near]

def streak : List α → List α
  | [] => []
  | [only] => [only]
  | newest :: earlier :: older =>
      if near newest earlier then newest :: streak (earlier :: older) else [newest]

variable {near}

theorem streak_front (entries : List α) : streak near entries <+: entries := by
  fun_induction streak near entries with
  | case1 => exact List.prefix_refl _
  | case2 only => exact List.prefix_refl _
  | case3 newest earlier older close ih => exact (List.prefix_cons_inj newest).mpr ih
  | case4 newest earlier older far => exact ⟨earlier :: older, rfl⟩

theorem streak_isChain (entries : List α) : (streak near entries).IsChain near := by
  fun_induction streak near entries with
  | case1 => exact .nil
  | case2 only => exact .singleton only
  | case3 newest earlier older close ih =>
      have front : streak near (earlier :: older) <+: earlier :: older := streak_front _
      cases next : streak near (earlier :: older) with
      | nil => exact .singleton newest
      | cons head rest =>
          rw [next] at front ih
          obtain ⟨rfl, _⟩ := List.cons_prefix_cons.mp front
          exact .cons_cons close ih
  | case4 newest earlier older far => exact .singleton newest

/-- No front that keeps together is longer than the streak. -/
theorem length_le_streak {chain entries : List α} (front : chain <+: entries)
    (together : chain.IsChain near) : chain.length ≤ (streak near entries).length := by
  fun_induction streak near entries generalizing chain with
  | case1 => exact front.length_le
  | case2 only => exact front.length_le
  | case3 newest earlier older close ih =>
      cases chain with
      | nil => exact Nat.zero_le _
      | cons head rest =>
          have later := (List.cons_prefix_cons.mp front).2
          exact Nat.succ_le_succ (ih later together.tail)
  | case4 newest earlier older far =>
      match chain, front with
      | [], _ => exact Nat.zero_le _
      | [_], _ => exact Nat.le_refl _
      | head :: next :: rest, front =>
          obtain ⟨rfl, later⟩ := List.cons_prefix_cons.mp front
          obtain ⟨rfl, _⟩ := List.cons_prefix_cons.mp later
          exact absurd (List.isChain_cons_cons.mp together).1 far

end

theorem head?_of_front {front entries : List α} (prefixed : front <+: entries) {first : α}
    (head : first ∈ front.head?) : first ∈ entries.head? := by
  obtain ⟨rest, rfl⟩ := prefixed
  rw [List.head?_append, Option.mem_def.mp head]
  rfl

/-- Where a list has whatever it covers at its front, it covers `count` entries
exactly if it covers the first `count`. -/
theorem le_length_filter_iff {covered : α → Bool} {entries : List α} {count : Nat}
    (fronts : entries.Pairwise fun newer older => covered older = true → covered newer = true) :
    count ≤ (entries.filter covered).length ↔
      count ≤ entries.length ∧ ∀ entry ∈ entries.take count, covered entry = true := by
  induction entries generalizing count with
  | nil => simp
  | cons newest older ih =>
      obtain ⟨first, rest⟩ := List.pairwise_cons.mp fronts
      cases count with
      | zero => simp
      | succ count =>
          rw [List.take_succ_cons, List.forall_mem_cons, List.length_cons, Nat.succ_le_succ_iff]
          by_cases inside : covered newest = true
          · rw [List.filter_cons_of_pos inside, List.length_cons, Nat.succ_le_succ_iff, ih rest]
            simp only [inside, true_and]
          · have nothing : older.filter covered = [] := by
              rw [List.filter_eq_nil_iff]
              intro entry member
              exact mt (first entry member) inside
            rw [List.filter_cons_of_neg inside, nothing]
            simp [inside]

end Nexus.Lib
