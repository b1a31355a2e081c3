import Nexus.Audit.TrailProperties

/-! Paging through the trail while others write to it. -/

set_option autoImplicit false

namespace Nexus.Audit

open Nexus.Lib Nexus.Go

variable {pageSize : Int64}

/-- A fetch changes nothing or adds a page, which is the next one as long as it
starts within the integers. -/
theorem fetch_cases (positive : 0 < pageSize) (p : Paging) :
    ((paging pageSize).step p .fetch).1 = p ∨
      ∃ page, ((paging pageSize).step p .fetch).1 = { p with pages := p.pages ++ [page] } ∧
        p.pages.getLast? ≠ some [] ∧
        (p.trail.logger.events.length < 2 ^ 63 →
          p.pages.length * pageSize.toNatClampNeg < 2 ^ 63 →
          page = pageOf p.trail.logger.events.reverse pageSize.toNatClampNeg p.pages.length) := by
  by_cases finished : p.pages.getLast? = some []
  · exact .inl (by simp only [paging, finished, if_true])
  · cases listed : p.trail.logger.list (Int64.ofNat (p.pages.length + 1)) pageSize with
    | none => exact .inl (by simp only [paging, finished, if_false, trail_list, listed])
    | some result =>
        obtain ⟨page, total⟩ := result
        refine .inr ⟨page, ?_, finished, ?_⟩
        · simp only [paging, finished, if_false, trail_list, listed]
        · intro bounded fits
          rw [p.trail.logger.list_eq bounded positive fits] at listed
          split at listed
          · cases listed
            rfl
          · cases listed

/-- Of the events `old`, all but the `rest` oldest have been shown, and the next
page reaches them, however much is logged before it is fetched. -/
structure Covering (size : Nat) (old : List Event) (p : Paging) : Prop where
  grown : old <+: p.trail.logger.events
  shown : p.trail.logger.events.length < 2 ^ 63 → (p.pages.length - 1) * size < 2 ^ 63 →
    ∃ rest, (old.drop rest).reverse.Sublist p.pages.flatten ∧
      rest ≤ p.trail.logger.events.length - p.pages.length * size ∧
      (p.pages.getLast? = some [] → rest = 0)

theorem covering_start (size : Nat) (t : Trail) :
    Covering size t.logger.events { trail := t, pages := [] } where
  grown := List.prefix_refl _
  shown _ _ := ⟨t.logger.events.length, by simp, by simp, by simp⟩

theorem covering_other {size : Nat} {old : List Event} {p : Paging} (call : Call)
    (covering : Covering size old p) :
    Covering size old ((paging pageSize).step p (.other call)).1 := by
  have longer := trail_grows p.trail call
  refine ⟨covering.grown.trans longer, ?_⟩
  intro bounded fits
  have earlierBounded := Nat.lt_of_le_of_lt longer.length_le bounded
  obtain ⟨rest, seen, reached, done⟩ := covering.shown earlierBounded fits
  refine ⟨rest, seen, ?_, done⟩
  have lengths := longer.length_le
  change rest ≤ (trail.step p.trail call).1.logger.events.length - p.pages.length * size
  omega

theorem covering_fetch (positive : 0 < pageSize) {old : List Event} {p : Paging}
    (covering : Covering pageSize.toNatClampNeg old p) :
    Covering pageSize.toNatClampNeg old ((paging pageSize).step p .fetch).1 := by
  have width : 0 < pageSize.toNatClampNeg := (Int64.toNatClampNeg_pos_iff pageSize).mpr positive
  rcases fetch_cases positive p with same | ⟨page, fetched, _, next⟩
  · rw [same]
    exact covering
  · rw [fetched]
    refine ⟨covering.grown, ?_⟩
    intro bounded fits
    change p.trail.logger.events.length < 2 ^ 63 at bounded
    rw [List.length_append, List.length_singleton, Nat.add_sub_cancel] at fits
    have earlierFits : (p.pages.length - 1) * pageSize.toNatClampNeg < 2 ^ 63 :=
      Nat.lt_of_le_of_lt (Nat.mul_le_mul_right _ (Nat.sub_le _ _)) fits
    obtain ⟨rest, seen, reached, _⟩ := covering.shown bounded earlierFits
    have further := shown_next pageSize.toNatClampNeg covering.grown seen reached
    rw [← next bounded fits, Nat.sub_sub, ← Nat.succ_mul] at further
    refine ⟨p.trail.logger.events.length - p.pages.length.succ * pageSize.toNatClampNeg,
      ?_, ?_, ?_⟩
    · rw [List.flatten_append, List.flatten_singleton]
      exact further
    · rw [List.length_append, List.length_singleton]
    · intro empty
      have last : page = [] := by simpa using empty
      rw [next bounded fits, pageOf_eq_nil_iff width, List.length_reverse] at last
      rw [Nat.succ_mul]
      omega

theorem run_covering (positive : 0 < pageSize) {old : List Event} {p : Paging}
    (covering : Covering pageSize.toNatClampNeg old p) (calls : List PagingCall) :
    Covering pageSize.toNatClampNeg old ((paging pageSize).run p calls) := by
  induction calls generalizing p with
  | nil => exact covering
  | cons call calls ih =>
      rw [Machine.run_cons]
      cases call with
      | other call => exact ih (covering_other call covering)
      | fetch => exact ih (covering_fetch positive covering)

/-! ## A trail that stays as it is -/

structure Undisturbed (size : Nat) (all : List Event) (p : Paging) : Prop where
  kept : p.trail.logger.events = all
  filled : ∀ page ∈ p.pages.dropLast, page ≠ []
  shown : all.length < 2 ^ 63 → (p.pages.length - 1) * size < 2 ^ 63 →
    p.pages = (List.range p.pages.length).map (pageOf all.reverse size)

theorem undisturbed_start (size : Nat) (t : Trail) :
    Undisturbed size t.logger.events { trail := t, pages := [] } where
  kept := rfl
  filled := by simp
  shown _ _ := rfl

theorem undisturbed_other {size : Nat} {all : List Event} {p : Paging} {call : Call}
    (quiet : (PagingCall.other call).Quiet) (undisturbed : Undisturbed size all p) :
    Undisturbed size all ((paging pageSize).step p (.other call)).1 := by
  have unchanged : (trail.step p.trail call).1.logger.events = p.trail.logger.events := by
    cases call with
    | fill env event => rfl
    | append position => cases quiet
    | list page size => rw [trail_list_keeps]
  exact ⟨unchanged.trans undisturbed.kept, undisturbed.filled, undisturbed.shown⟩

theorem undisturbed_fetch (positive : 0 < pageSize) {all : List Event} {p : Paging}
    (undisturbed : Undisturbed pageSize.toNatClampNeg all p) :
    Undisturbed pageSize.toNatClampNeg all ((paging pageSize).step p .fetch).1 := by
  rcases fetch_cases positive p with same | ⟨page, fetched, unfinished, next⟩
  · rw [same]
    exact undisturbed
  · rw [fetched]
    rw [undisturbed.kept] at next
    refine ⟨undisturbed.kept, ?_, ?_⟩
    · intro earlier member
      rw [List.dropLast_concat] at member
      cases shown : p.pages.getLast? with
      | none =>
          rw [List.getLast?_eq_none_iff.mp shown] at member
          cases member
      | some last =>
          rw [← List.dropLast_append_getLast? last shown] at member
          rcases List.mem_append.mp member with before | final
          · exact undisturbed.filled earlier before
          · rintro rfl
            rw [List.mem_singleton.mp final] at unfinished
            exact unfinished shown
    · intro bounded fits
      rw [List.length_append, List.length_singleton, Nat.add_sub_cancel] at fits
      have earlierFits : (p.pages.length - 1) * pageSize.toNatClampNeg < 2 ^ 63 :=
        Nat.lt_of_le_of_lt (Nat.mul_le_mul_right _ (Nat.sub_le _ _)) fits
      rw [List.length_append, List.length_singleton, List.range_succ, List.map_append,
        List.map_singleton, ← undisturbed.shown bounded earlierFits, next bounded fits]

theorem run_undisturbed (positive : 0 < pageSize) {all : List Event} {p : Paging}
    (undisturbed : Undisturbed pageSize.toNatClampNeg all p) {calls : List PagingCall}
    (quiet : ∀ call ∈ calls, call.Quiet) :
    Undisturbed pageSize.toNatClampNeg all ((paging pageSize).run p calls) := by
  induction calls generalizing p with
  | nil => exact undisturbed
  | cons call calls ih =>
      have later := fun next member => quiet next (List.mem_cons_of_mem call member)
      rw [Machine.run_cons]
      cases call with
      | other call =>
          exact ih (undisturbed_other (quiet _ List.mem_cons_self) undisturbed) later
      | fetch => exact ih (undisturbed_fetch positive undisturbed) later

theorem Undisturbed.complete {size : Nat} (width : 0 < size) {all : List Event} {p : Paging}
    (undisturbed : Undisturbed size all p) (bounded : all.length < 2 ^ 63)
    (fits : (p.pages.length - 1) * size < 2 ^ 63) (finished : p.pages.getLast? = some []) :
    p.pages.flatten = all.reverse ∧ ∀ page ∈ p.pages.dropLast.dropLast, page.length = size := by
  have shown := undisturbed.shown bounded fits
  have started : p.pages.length ≠ 0 := by
    intro none
    rw [List.length_eq_zero_iff.mp none] at finished
    cases finished
  obtain ⟨count, counted⟩ := Nat.exists_eq_succ_of_ne_zero started
  rw [counted, Nat.succ_eq_add_one, List.range_succ, List.map_append, List.map_singleton] at shown
  have behind : all.length ≤ count * size := by
    rw [shown, List.getLast?_concat, Option.some.injEq, pageOf_eq_nil_iff width,
      List.length_reverse] at finished
    exact finished
  refine ⟨?_, ?_⟩
  · have pages := undisturbed.shown bounded fits
    rw [pages, flatten_pages, counted]
    apply List.take_of_length_le
    rw [List.length_reverse, Nat.succ_mul]
    omega
  · intro page member
    have filled := undisturbed.filled
    rw [shown, List.dropLast_concat] at member filled
    cases count with
    | zero => cases member
    | succ count =>
        rw [List.range_succ, List.map_append, List.map_singleton, List.dropLast_concat,
          List.mem_map] at member
        obtain ⟨earlier, before, rfl⟩ := member
        have listed : pageOf all.reverse size (earlier + 1) ∈
            (List.range (count + 1)).map (pageOf all.reverse size) := by
          refine List.mem_map_of_mem (List.mem_range.mpr ?_)
          have := List.mem_range.mp before
          omega
        have more := mt (pageOf_eq_nil_iff width).mpr (filled _ listed)
        rw [Nat.succ_mul] at more
        exact length_pageOf (by omega)

/-! ## Reading to the end -/

theorem run_unread {p : Paging} {calls : List PagingCall} (unread : PagingCall.fetch ∉ calls) :
    ((paging pageSize).run p calls).pages = p.pages := by
  induction calls generalizing p with
  | nil => rfl
  | cons call calls ih =>
      rw [List.mem_cons, not_or] at unread
      rw [Machine.run_cons, ih unread.2]
      cases call with
      | other call => rfl
      | fetch => exact absurd rfl unread.1

theorem run_grows (positive : 0 < pageSize) (p : Paging) (calls : List PagingCall) :
    p.trail.logger.events <+: ((paging pageSize).run p calls).trail.logger.events := by
  induction calls generalizing p with
  | nil => exact List.prefix_refl _
  | cons call calls ih =>
      rw [Machine.run_cons]
      refine List.IsPrefix.trans ?_ (ih _)
      cases call with
      | other call => exact trail_grows p.trail call
      | fetch =>
          rcases fetch_cases positive p with same | ⟨page, fetched, _⟩
          · rw [same]
          · rw [fetched]

/-- A client that pages until it receives an empty page has received every
event logged before it began, in reverse order and as often as logged; if
nothing is logged meanwhile, it has received nothing else, in full pages. -/
theorem paging_loses_nothing (positive : 0 < pageSize) (start : Trail)
    {past future : List PagingCall} (unread : PagingCall.fetch ∉ past) {first final : Paging}
    (begun : pagingRun pageSize start past = first)
    (ended : pagingRun pageSize start (past ++ .fetch :: future) = final)
    (bounded : final.trail.logger.events.length < 2 ^ 63)
    (fits : (final.pages.length - 1) * pageSize.toNatClampNeg < 2 ^ 63)
    (finished : final.pages.getLast? = some []) :
    first.trail.logger.events.reverse.Sublist final.pages.flatten ∧
      ∀ during after, .fetch :: future = during ++ after → (∀ call ∈ during, call.Quiet) →
        PagingCall.fetch ∉ after →
        final.pages.flatten = first.trail.logger.events.reverse ∧
          ∀ page ∈ final.pages.dropLast.dropLast, page.length = pageSize.toNatClampNeg := by
  have width : 0 < pageSize.toNatClampNeg := (Int64.toNatClampNeg_pos_iff pageSize).mpr positive
  have blank : first = { trail := first.trail, pages := [] } := by
    have nothing : first.pages = [] := by
      rw [← begun]
      exact run_unread unread
    rw [← nothing]
  rw [pagingRun, Machine.run_append] at ended
  rw [pagingRun] at begun
  rw [begun] at ended
  have earlierBounded : first.trail.logger.events.length < 2 ^ 63 := by
    rw [← ended] at bounded
    exact Nat.lt_of_le_of_lt (run_grows positive first _).length_le bounded
  refine ⟨?_, ?_⟩
  · have covering := covering_start pageSize.toNatClampNeg first.trail
    rw [← blank] at covering
    have covered := run_covering positive covering (.fetch :: future)
    rw [ended] at covered
    obtain ⟨rest, seen, _, done⟩ := covered.shown bounded fits
    rw [done finished, List.drop_zero] at seen
    exact seen
  · intro during after split quiet unreadAfter
    have undisturbed := undisturbed_start pageSize.toNatClampNeg first.trail
    rw [← blank] at undisturbed
    have reading := run_undisturbed positive undisturbed quiet
    rw [split, Machine.run_append] at ended
    have pages : final.pages = ((paging pageSize).run first during).pages := by
      rw [← ended]
      exact run_unread unreadAfter
    rw [pages] at fits finished ⊢
    exact reading.complete width earlierBounded fits finished

def entry (id : String) : Event where
  id := id
  action := actionLoginSuccess

/-- Three events are stored and two Log calls are under way. -/
def busyTrail : Trail where
  logger := ⟨[entry "1", entry "2", entry "3"]⟩
  pending := [entry "4", entry "5"]

theorem paging_busy_trail :
    [entry "4", entry "3", entry "2", entry "1"].Sublist
        (pagingRun 2 busyTrail ([.other (.append 0)] ++
          .fetch :: [.other (.append 0), .fetch, .fetch, .fetch])).pages.flatten :=
  (paging_loses_nothing (by decide) busyTrail
    (show PagingCall.fetch ∉ [.other (.append 0)] by simp) rfl rfl
    (by decide) (by decide) (by decide)).1

end Nexus.Audit
