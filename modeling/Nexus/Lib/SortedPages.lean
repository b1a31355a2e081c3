import Mathlib.Data.List.Perm.Basic
import Mathlib.Order.Lattice
import Nexus.Lib.Pages

/-! Pages of rows that a query sorts by a key, latest first. Rows with equal
keys come in any order, which may differ from page to page. -/

set_option autoImplicit false

namespace Nexus.Lib

variable {α κ : Type} [LinearOrder κ] {key : α → κ} {rows : List α}

/-- An order in which a sorted query may return the rows. -/
structure Latest (key : α → κ) (rows : List α) where
  values : List α
  perm : values.Perm rows
  sorted : values.Pairwise fun earlier later => key later ≤ key earlier

/-- No rows with equal keys lie on both sides of a position, however the rows
are sorted: of those with the key of any row, none or all come before it. -/
def Unsplit (key : α → κ) (rows : List α) (position : Nat) : Prop :=
  ∀ row ∈ rows, position ≤ rows.countP (key row < key ·) ∨
    rows.countP (key row ≤ key ·) ≤ position

instance (position : Nat) : Decidable (Unsplit key rows position) :=
  inferInstanceAs (Decidable (∀ row ∈ rows, _))

/-- The pages of a reader whose queries come back in the given orders. -/
def sortedPages (orders : Nat → Latest key rows) (size count : Nat) : List α :=
  (List.range count).flatMap fun earlier => pageOf (orders earlier).values size earlier

theorem sortedPages_succ (orders : Nat → Latest key rows) (size count : Nat) :
    sortedPages orders size (count + 1) =
      sortedPages orders size count ++ pageOf (orders count).values size count := by
  rw [sortedPages, List.range_succ, List.flatMap_append, List.flatMap_singleton, sortedPages]

theorem sortedPages_constant (order : Latest key rows) {orders : Nat → Latest key rows}
    (size : Nat) {count : Nat} (constant : ∀ earlier < count, orders earlier = order) :
    sortedPages orders size count = order.values.take (count * size) := by
  rw [← flatten_pages, sortedPages, List.flatMap_def]
  congr 1
  refine List.map_congr_left fun earlier within => ?_
  rw [constant earlier (List.mem_range.mp within)]

/-! ## Undivided groups -/

theorem Latest.countP_eq (order : Latest key rows) (selected : α → Bool) :
    rows.countP selected = order.values.countP selected :=
  (order.perm.countP_eq selected).symm

section
variable (order : Latest key rows) {front later : List α} {row : α}
  (shape : order.values = front ++ row :: later)
include shape

theorem Latest.countP_after_le : rows.countP (key row < key ·) ≤ front.length := by
  have sorted := order.sorted
  rw [shape] at sorted
  have bound := (List.pairwise_cons.mp (List.pairwise_append.mp sorted).2.1).1
  have none : later.countP (key row < key ·) = 0 :=
    List.countP_eq_zero.mpr fun other member => by
      simpa using bound other member
  have itself : decide (key row < key row) = false := decide_eq_false (lt_irrefl _)
  rw [order.countP_eq, shape, List.countP_append, List.countP_cons, none, itself]
  exact List.countP_le_length

theorem Latest.lt_countP_from : front.length < rows.countP (key row ≤ key ·) := by
  have sorted := order.sorted
  rw [shape] at sorted
  have bound := (List.pairwise_append.mp sorted).2.2
  have all : front.countP (key row ≤ key ·) = front.length :=
    List.countP_eq_length.mpr fun other member => by
      simpa using bound other member row (List.mem_cons_self ..)
  have itself : decide (key row ≤ key row) = true := decide_eq_true le_rfl
  rw [order.countP_eq, shape, List.countP_append, all, List.countP_cons, itself, if_pos rfl]
  omega

end

/-- What comes before an unsplit position is told by the keys alone. -/
theorem Latest.take_eq_filter (order : Latest key rows) {position : Nat}
    (unsplit : Unsplit key rows position) :
    order.values.take position =
      order.values.filter fun row => rows.countP (key row ≤ key ·) ≤ position := by
  have before : (order.values.take position).filter
      (fun row => rows.countP (key row ≤ key ·) ≤ position) = order.values.take position := by
    refine List.filter_eq_self.mpr fun row member => ?_
    obtain ⟨front, middle, split⟩ := List.append_of_mem member
    have shape : order.values = front ++ row :: (middle ++ order.values.drop position) := by
      rw [← List.cons_append, ← List.append_assoc, ← split, List.take_append_drop]
    have fewer : front.length < position := by
      have whole := congrArg List.length split
      rw [List.length_take, List.length_append, List.length_cons] at whole
      omega
    have above := order.countP_after_le shape
    have stored : row ∈ rows := order.perm.mem_iff.mp (List.mem_of_mem_take member)
    rcases unsplit row stored with none | all
    · omega
    · exact decide_eq_true all
  have after : (order.values.drop position).filter
      (fun row => rows.countP (key row ≤ key ·) ≤ position) = [] := by
    refine List.filter_eq_nil_iff.mpr fun row member => ?_
    obtain ⟨middle, later, split⟩ := List.append_of_mem member
    have shape : order.values =
        (order.values.take position ++ middle) ++ row :: later := by
      rw [List.append_assoc, ← split, List.take_append_drop]
    have reached : position ≤ (order.values.take position ++ middle).length := by
      have whole := congrArg List.length split
      rw [List.length_drop, List.length_append, List.length_cons] at whole
      rw [List.length_append, List.length_take]
      omega
    have among := order.lt_countP_from shape
    simp only [decide_eq_true_eq]
    omega
  conv_rhs => rw [← List.take_append_drop position order.values]
  rw [List.filter_append, before, after, List.append_nil]

theorem Latest.take_perm (order other : Latest key rows) {position : Nat}
    (unsplit : Unsplit key rows position) :
    (order.values.take position).Perm (other.values.take position) := by
  rw [order.take_eq_filter unsplit, other.take_eq_filter unsplit]
  exact (order.perm.trans other.perm.symm).filter _

/-- If every page ends between two keys, the pages hold every row once. -/
theorem sortedPages_perm {size : Nat} (unsplit : ∀ earlier, Unsplit key rows (earlier * size))
    (orders : Nat → Latest key rows) {count : Nat} (enough : rows.length ≤ count * size) :
    (sortedPages orders size count).Perm rows := by
  have upTo : ∀ order : Latest key rows,
      (sortedPages orders size count).Perm (order.values.take (count * size)) := by
    clear enough
    induction count with
    | zero =>
        intro order
        rw [Nat.zero_mul, List.take_zero]
        exact .refl _
    | succ count ih =>
        intro order
        have page := (ih (orders count)).append_right (pageOf (orders count).values size count)
        rw [pageOf, ← List.take_add, ← Nat.succ_mul] at page
        rw [sortedPages_succ]
        exact page.trans ((orders count).take_perm order (unsplit (count + 1)))
  have whole := upTo (orders 0)
  rw [List.take_of_length_le (by rw [(orders 0).perm.length_eq]; exact enough)] at whole
  exact whole.trans (orders 0).perm

/-! ## Divided groups -/

/-- A position that is not unsplit lies between two rows with equal keys. -/
theorem Latest.exists_tie (order : Latest key rows) {position : Nat}
    (split : ¬ Unsplit key rows position) :
    ∃ front x y later, order.values = front ++ x :: y :: later ∧ front.length + 1 = position ∧
      key x = key y := by
  obtain ⟨row, _, within⟩ : ∃ row ∈ rows, rows.countP (key row < key ·) < position ∧
      position < rows.countP (key row ≤ key ·) := by
    by_contra undivided
    refine split fun row member => ?_
    by_contra both
    exact undivided ⟨row, member, by omega⟩
  rw [order.countP_eq, order.countP_eq] at within
  obtain ⟨fewer, more⟩ := within
  have inside : position < order.values.length := more.trans_le List.countP_le_length
  have firsts : order.values.take position ≠ [] := by
    rw [Ne, List.take_eq_nil_iff]
    rintro (zero | empty)
    · omega
    · simp [empty] at inside
  obtain ⟨front, x, upTo⟩ :=
    (List.eq_nil_or_concat (order.values.take position)).resolve_left firsts
  obtain ⟨y, later, rest⟩ := List.exists_cons_of_ne_nil
    (mt List.drop_eq_nil_iff.mp (Nat.not_le_of_lt inside))
  have shape : order.values = front ++ [x] ++ y :: later := by
    rw [← List.concat_eq_append, ← upTo, ← rest, List.take_append_drop]
  have measured : front.length + 1 = position := by
    have whole := congrArg List.length upTo
    rw [List.length_take, List.length_concat] at whole
    omega
  have sorted := order.sorted
  rw [shape] at sorted fewer more
  obtain ⟨above, below, across⟩ := List.pairwise_append.mp sorted
  refine ⟨front, x, y, later, by simpa using shape, measured, ?_⟩
  refine le_antisymm ?_ (across x (by simp) y (by simp))
  by_contra apart
  rw [not_le] at apart
  by_cases low : key row ≤ key y
  · have all : (front ++ [x]).countP (key row < key ·) = (front ++ [x]).length := by
      refine List.countP_eq_length.mpr fun other member => decide_eq_true ?_
      have reached : key x ≤ key other := by
        rcases List.mem_append.mp member with before | last
        · exact (List.pairwise_append.mp above).2.2 other before x (List.mem_singleton_self x)
        · rw [List.mem_singleton.mp last]
      exact (low.trans_lt apart).trans_le reached
    rw [List.countP_append, all, List.length_append, List.length_singleton] at fewer
    omega
  · have none : (y :: later).countP (key row ≤ key ·) = 0 := by
      refine List.countP_eq_zero.mpr fun other member => ?_
      have reached : key other ≤ key y := by
        rcases List.mem_cons.mp member with rfl | after
        · exact le_rfl
        · exact (List.pairwise_cons.mp below).1 other after
      exact fun above => low ((of_decide_eq_true above).trans reached)
    have bound := List.countP_le_length (p := fun other => decide (key row ≤ key other))
      (l := front ++ [x])
    rw [List.countP_append, none] at more
    rw [List.length_append, List.length_singleton] at bound
    omega

/-- The order a stable sort gives. -/
def Latest.stable (key : α → κ) (rows : List α) : Latest key rows where
  values := rows.mergeSort fun row other => key other ≤ key row
  perm := List.mergeSort_perm rows _
  sorted := by
    let notBefore : α → α → Bool := fun row other => decide (key other ≤ key row)
    have transitive : ∀ first second third, notBefore first second = true →
        notBefore second third = true → notBefore first third = true :=
      fun _ _ _ left right => decide_eq_true
        ((of_decide_eq_true right).trans (of_decide_eq_true left))
    have total : ∀ first second, (notBefore first second || notBefore second first) = true :=
      fun first second => by simpa [notBefore] using le_total (key second) (key first)
    exact (List.pairwise_mergeSort transitive total rows).imp of_decide_eq_true

/-- The order that swaps two neighbours with equal keys. -/
def Latest.swap (order : Latest key rows) {front later : List α} {x y : α}
    (shape : order.values = front ++ x :: y :: later) (tied : key x = key y) :
    Latest key rows where
  values := front ++ y :: x :: later
  perm := by
    refine List.Perm.trans ?_ order.perm
    rw [shape]
    exact (List.Perm.swap x y later).append_left front
  sorted := by
    have sorted := order.sorted
    rw [shape] at sorted
    simp only [List.pairwise_append, List.pairwise_cons, List.mem_cons, forall_eq_or_imp] at *
    grind

theorem unsplit_of_distinct (distinct : (rows.map key).Nodup) (position : Nat) :
    Unsplit key rows position := by
  by_contra split
  obtain ⟨front, x, y, later, shape, _, tied⟩ := (Latest.stable key rows).exists_tie split
  have apart := ((Latest.stable key rows).perm.map key).nodup_iff.mpr distinct
  rw [shape, List.map_append, List.map_cons, List.map_cons, tied] at apart
  exact (List.nodup_cons.mp (List.nodup_append.mp apart).2.1).1 List.mem_cons_self

/-- If a page ends within a group of equal keys, queries that order the group
differently show one row of it twice. -/
theorem exists_repeated {size earlier : Nat} (positive : 0 < size)
    (split : ¬ Unsplit key rows (earlier * size)) :
    ∃ orders : Nat → Latest key rows, ∃ page < earlier,
      ∃ row ∈ pageOf (orders page).values size page,
        row ∈ pageOf (orders earlier).values size earlier := by
  obtain ⟨front, x, y, later, shape, measured, tied⟩ := (Latest.stable key rows).exists_tie split
  let orders : Nat → Latest key rows := fun page =>
    if page < earlier then Latest.stable key rows else (Latest.stable key rows).swap shape tied
  have shown : x ∈ sortedPages orders size earlier := by
    rw [sortedPages_constant (Latest.stable key rows) size fun page before => if_pos before, shape,
      ← measured, List.take_append]
    simp
  have again : x ∈ pageOf (orders earlier).values size earlier := by
    have swapped : (orders earlier).values = front ++ y :: x :: later := by
      simp only [orders, lt_irrefl, if_false, Latest.swap]
    obtain ⟨less, rfl⟩ : ∃ less, size = less + 1 := ⟨size - 1, by omega⟩
    have behind : (front ++ y :: x :: later).drop (front.length + 1) = x :: later := by
      rw [List.drop_append, List.drop_of_length_le (Nat.le_succ _), Nat.add_sub_cancel_left]
      rfl
    rw [pageOf, swapped, ← measured, behind]
    exact List.mem_cons_self
  obtain ⟨page, before, member⟩ := List.mem_flatMap.mp shown
  exact ⟨orders, page, List.mem_range.mp before, x, member, again⟩

end Nexus.Lib
