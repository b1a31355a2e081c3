import Nexus.Audit.Handler
import Nexus.Audit.PagingProperties

/-! The pages that the audit handler asks the memory logger for, including
those whose offset no longer fits an `int`. -/

set_option autoImplicit false

namespace Nexus.Audit

open Nexus.Go Nexus.Lib

/-- What the handler lets through to the logger. -/
structure Admitted (page pageSize : Int64) : Prop where
  page_pos : 0 < page
  pageSize_pos : 0 < pageSize
  pageSize_le : pageSize ≤ 200

theorem params_admitted (page pageSize : String) :
    Admitted (pageParam page) (pageSizeParam pageSize) := by
  refine ⟨?_, ?_, ?_⟩
  · unfold pageParam
    cases atoi page with
    | none => exact show (0 : Int64) < 1 by decide
    | some v =>
        by_cases positive : v > 0
        · simp only [positive, if_true]
        · simp only [positive, if_false]
          decide
  all_goals
    unfold pageSizeParam
    cases atoi pageSize with
    | none => decide
    | some v =>
        by_cases admitted : v > 0 ∧ v ≤ 200
        · simp only [admitted, and_self, if_true]
        · simp only [admitted, if_false]
          decide

/-! ## Offsets that wrap around -/

theorem ofNat_mod_size (n : Nat) : Int64.ofNat (n % 2 ^ 64) = Int64.ofNat n := by
  apply Int64.toInt.inj
  rw [Int64.toInt_ofNat', Int64.toInt_ofNat', Int.natCast_emod]
  exact Int.emod_bmod _ _

/-- The logger shows something of every page that starts before the last event. -/
theorem MemoryLogger.behind_of_list_nil {m : MemoryLogger} (bounded : m.events.length < 2 ^ 63)
    {page pageSize : Int64} (positive : 0 < pageSize) {count : Nat}
    (listed : m.list page pageSize = some ([], count)) :
    m.events = [] ∨ Int64.ofNat m.events.length ≤ (page - 1) * pageSize := by
  unfold MemoryLogger.list at listed
  generalize (page - 1) * pageSize = start at listed ⊢
  by_cases empty : m.events.length = 0
  · exact .inl (List.length_eq_zero_iff.mp empty)
  refine .inr (Int64.not_lt.mp fun before => ?_)
  have within := before
  rw [Int64.lt_iff_toInt_lt, Int64.toInt_ofNat_of_lt bounded] at within
  simp only [empty, if_false, ge_iff_le, Int64.not_le.mpr before] at listed
  generalize stopped : (if start + pageSize > Int64.ofNat m.events.length then
    Int64.ofNat m.events.length else start + pageSize) = stop at listed
  by_cases ordered : 0 ≤ start ∧ start ≤ stop
  · obtain ⟨started, advanced⟩ := ordered
    have further : start < stop := by
      subst stopped
      by_cases clipped : start + pageSize > Int64.ofNat m.events.length
      · simpa only [clipped, if_true] using before
      · simp only [clipped, if_false] at advanced ⊢
        refine Int64.lt_of_le_of_ne advanced fun still => ?_
        have width : pageSize = 0 := Int64.left_eq_add.mp still
        exact Int64.lt_irrefl (width ▸ positive)
    simp only [started, advanced, and_self, if_true, Option.some.injEq, Prod.mk.injEq,
      List.drop_eq_nil_iff, List.length_take, List.length_reverse, ← Int64.toNat_toInt] at listed
    rw [Int64.le_iff_toInt_le, Int64.toInt_zero] at started
    rw [Int64.lt_iff_toInt_lt] at further
    omega
  · rw [if_neg ordered] at listed
    cases listed

theorem ofNat_le_of_wrapped {count offset : Nat} (bounded : count < 2 ^ 63) :
    Int64.ofNat count ≤ Int64.ofNat offset ↔
      count ≤ offset % 2 ^ 64 ∧ offset % 2 ^ 64 < 2 ^ 63 := by
  rw [← ofNat_mod_size offset]
  have below := Nat.mod_lt offset (show 0 < 2 ^ 64 by decide)
  generalize offset % 2 ^ 64 = wrapped at below
  by_cases small : wrapped < 2 ^ 63
  · rw [Int64.ofNat_le_iff_le bounded small]
    exact (and_iff_left small).symm
  · have negative := ofNat_negative (Nat.le_of_not_lt small) below
    rw [Int64.le_iff_toInt_le, Int64.toInt_ofNat_of_lt bounded]
    omega

/-- A page whose end is an `int`, or whose wrapped offset lies behind the last
event as the offset itself does. -/
def MemoryLogger.Pageable (m : MemoryLogger) (size earlier : Nat) : Prop :=
  m.events = [] ∨ earlier * size + size < 2 ^ 63 ∨
    (m.events.length ≤ earlier * size % 2 ^ 64 ∧ earlier * size % 2 ^ 64 < 2 ^ 63)

/-- The logger returns the page of the reverse-ordered log that the positions
name, neither another one nor a panic, exactly for the pageable pages. -/
theorem list_page_iff (m : MemoryLogger) (bounded : m.events.length < 2 ^ 63)
    {page pageSize : Int64} (admitted : Admitted page pageSize) :
    m.list page pageSize = some (pageOf m.events.reverse pageSize.toNatClampNeg
        (page.toNatClampNeg - 1), m.events.length) ↔
      m.Pageable pageSize.toNatClampNeg (page.toNatClampNeg - 1) := by
  obtain ⟨first, positive, _⟩ := admitted
  have number : Int64.ofNat (page.toNatClampNeg - 1 + 1) = page := by
    have := (Int64.toNatClampNeg_pos_iff page).mpr first
    rw [Nat.sub_add_cancel this]
    exact Int64.ofNat_toNatClampNeg page (Int64.le_of_lt first)
  have width := (Int64.toNatClampNeg_pos_iff pageSize).mpr positive
  have start := pageOffset_eq positive (page.toNatClampNeg - 1)
  have within (fits : (page.toNatClampNeg - 1) * pageSize.toNatClampNeg < 2 ^ 63) :=
    m.list_eq bounded positive fits
  rw [number] at start within
  generalize page.toNatClampNeg - 1 = earlier at *
  unfold MemoryLogger.Pageable
  by_cases fits : earlier * pageSize.toNatClampNeg < 2 ^ 63
  · rw [within fits, Nat.mod_eq_of_lt (by omega), and_iff_left fits]
    constructor
    · intro listed
      split at listed
      · rename_i reachable
        exact .inr reachable.symm
      · cases listed
    · intro pageable
      refine if_pos ?_
      rcases pageable with empty | ends | behind
      · exact .inl (by simp [empty])
      · exact .inr ends
      · exact .inl behind
  · have nothing : pageOf m.events.reverse pageSize.toNatClampNeg earlier = [] := by
      rw [pageOf_eq_nil_iff width, List.length_reverse]
      omega
    rw [nothing, ← ofNat_le_of_wrapped bounded, ← start]
    constructor
    · intro listed
      exact (MemoryLogger.behind_of_list_nil bounded positive listed).imp_right .inr
    · rintro (empty | ends | behind)
      · simp [MemoryLogger.list, empty]
      · omega
      · by_cases empty : m.events.length = 0
        · simp [MemoryLogger.list, List.length_eq_zero_iff.mp empty]
        · simp only [MemoryLogger.list, empty, if_false, ge_iff_le, behind, if_true]

theorem list_page_beyond :
    (⟨[entry "1", entry "2", entry "3"]⟩ : MemoryLogger).list 2 2 = some ([entry "1"], 3) :=
  (list_page_iff ⟨[entry "1", entry "2", entry "3"]⟩ (by decide)
    ⟨by decide, by decide, by decide⟩).mpr (.inr (.inl (by decide)))

/-- With 2 events a page, page 2 ^ 62 + 1 has a negative offset. -/
theorem list_page_wraps :
    ¬ ∀ (m : MemoryLogger) (page pageSize : Int64), Admitted page pageSize →
      m.list page pageSize = some (pageOf m.events.reverse pageSize.toNatClampNeg
        (page.toNatClampNeg - 1), m.events.length) := by
  intro always
  have listed := always ⟨[entry "1"]⟩ 4611686018427387905 2 ⟨by decide, by decide, by decide⟩
  exact absurd listed (by decide)

end Nexus.Audit
