import Nexus.Audit.Logger
import Nexus.Lib.Pages
import Mathlib.Algebra.Group.Nat.Defs

/-! What logging adds to the trail and what a page of it shows. -/

set_option autoImplicit false

namespace Nexus.Audit

open Nexus.Go Nexus.Lib

/-- The event as it is stored: `Log` fills in a missing ID and timestamp. -/
def Event.filled (env : Env) (event : Event) : Event :=
  let event := if event.id = "" then { event with id := env.eventID } else event
  if event.timestamp = none then { event with timestamp := some env.now } else event

/-- What `Log` does while it holds the lock. -/
def MemoryLogger.append (m : MemoryLogger) (event : Event) : MemoryLogger :=
  { m with events := m.events ++ [event] }

theorem MemoryLogger.log_eq (m : MemoryLogger) (env : Env) (event : Event) :
    m.log env event = m.append (event.filled env) := rfl

/-- An event without its ID and its timestamp. -/
def Event.anonymous (event : Event) : Event := { event with id := "", timestamp := none }

@[simp] theorem Event.anonymous_filled (env : Env) (event : Event) :
    (event.filled env).anonymous = event.anonymous := by
  unfold filled
  by_cases unnamed : event.id = "" <;> by_cases undated : event.timestamp = none <;>
    simp [unnamed, undated, anonymous]

theorem Event.filled_timestamp (env : Env) {event : Event} (undated : event.timestamp = none) :
    (event.filled env).timestamp = some env.now := by
  unfold filled
  by_cases unnamed : event.id = "" <;> simp [unnamed, undated]

/-! ## Pages -/

theorem ofNat_negative {n : Nat} (low : 2 ^ 63 ≤ n) (high : n < 2 ^ 64) :
    (Int64.ofNat n).toInt < 0 := by
  rw [Int64.toInt_ofNat', Int.bmod]
  simp only [Int64.size]
  omega

theorem pageOffset_eq {size : Int64} (positive : 0 < size) (earlier : Nat) :
    (Int64.ofNat (earlier + 1) - 1) * size = Int64.ofNat (earlier * size.toNatClampNeg) := by
  have sized : Int64.ofNat size.toNatClampNeg = size :=
    Int64.ofNat_toNatClampNeg size (Int64.le_of_lt positive)
  rw [Int64.ofNat_mul, sized, Int64.ofNat_add]
  congr 1
  exact Int64.add_sub_cancel _ _

/-- A page that starts within the integers: one that would end outside them
makes slicing panic, unless it starts behind the last event. -/
theorem MemoryLogger.list_eq (m : MemoryLogger) (bounded : m.events.length < 2 ^ 63)
    {size : Int64} (positive : 0 < size) {earlier : Nat}
    (fits : earlier * size.toNatClampNeg < 2 ^ 63) :
    m.list (Int64.ofNat (earlier + 1)) size =
      if m.events.length ≤ earlier * size.toNatClampNeg ∨
          earlier * size.toNatClampNeg + size.toNatClampNeg < 2 ^ 63 then
        some (pageOf m.events.reverse size.toNatClampNeg earlier, m.events.length)
      else none := by
  have sized : Int64.ofNat size.toNatClampNeg = size :=
    Int64.ofNat_toNatClampNeg size (Int64.le_of_lt positive)
  have width : size.toNatClampNeg < 2 ^ 63 := size.toNatClampNeg_lt
  have start := pageOffset_eq positive earlier
  have stop : Int64.ofNat (earlier * size.toNatClampNeg) + size =
      Int64.ofNat (earlier * size.toNatClampNeg + size.toNatClampNeg) := by
    rw [Int64.ofNat_add, sized]
  generalize size.toNatClampNeg = s at *
  simp only [list, start, stop, ge_iff_le, gt_iff_lt, Int64.ofNat_le_iff_le bounded fits]
  by_cases empty : m.events.length = 0
  · have nothing := List.length_eq_zero_iff.mp empty
    simp [nothing, pageOf]
  by_cases behind : m.events.length ≤ earlier * s
  · have nothing : pageOf m.events.reverse s earlier = [] := by
      rw [pageOf, List.drop_of_length_le (by rwa [List.length_reverse]), List.take_nil]
    simp only [empty, if_false, behind, if_true, true_or, nothing]
  have started : (0 : Int64) ≤ Int64.ofNat (earlier * s) :=
    (Int64.ofNat_le_iff_le (by decide) fits).mpr (Nat.zero_le _)
  by_cases ends : earlier * s + s < 2 ^ 63
  · simp only [empty, if_false, behind, ends, or_true, if_true,
      Int64.ofNat_lt_iff_lt bounded ends, started, true_and]
    by_cases long : m.events.length < earlier * s + s
    · have within : Int64.ofNat (earlier * s) ≤ Int64.ofNat m.events.length :=
        (Int64.ofNat_le_iff_le fits bounded).mpr (by omega)
      have all : m.events.reverse.take m.events.length = m.events.reverse :=
        List.take_of_length_le (by rw [List.length_reverse])
      have rest : (m.events.reverse.drop (earlier * s)).take s =
          m.events.reverse.drop (earlier * s) :=
        List.take_of_length_le (by rw [List.length_drop, List.length_reverse]; omega)
      simp only [long, if_true, within, Int64.toNatClampNeg_ofNat_of_lt bounded,
        Int64.toNatClampNeg_ofNat_of_lt fits, all, pageOf, rest]
    · have within : Int64.ofNat (earlier * s) ≤ Int64.ofNat (earlier * s + s) :=
        (Int64.ofNat_le_iff_le fits ends).mpr (by omega)
      have cut : (m.events.reverse.take (earlier * s + s)).drop (earlier * s) =
          (m.events.reverse.drop (earlier * s)).take s := by
        rw [List.drop_take, Nat.add_sub_cancel_left]
      simp only [long, if_false, within, if_true, Int64.toNatClampNeg_ofNat_of_lt ends,
        Int64.toNatClampNeg_ofNat_of_lt fits, cut, pageOf]
  · have negative := ofNat_negative (Nat.le_of_not_lt ends) (by omega)
    have positive : 0 ≤ (Int64.ofNat m.events.length).toInt := by
      rw [Int64.toInt_ofNat_of_lt bounded]
      omega
    have reversed : ¬Int64.ofNat (earlier * s) ≤ Int64.ofNat (earlier * s + s) := by
      rw [Int64.le_iff_toInt_le, Int64.toInt_ofNat_of_lt fits]
      omega
    have short : ¬Int64.ofNat m.events.length < Int64.ofNat (earlier * s + s) := by
      rw [Int64.lt_iff_toInt_lt]
      omega
    simp only [empty, if_false, behind, ends, or_self, short, reversed, and_false]

end Nexus.Audit
