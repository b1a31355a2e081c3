import Nexus.Audit.Trail
import Nexus.Auth.ServiceProperties

/-! In which order the trail shows its events. -/

set_option autoImplicit false

namespace Nexus.Audit

open Nexus.Lib Nexus.Go
open Nexus.Auth (plainEnv)

theorem trail_list_keeps (t : Trail) (page pageSize : Int64) :
    (trail.step t (.list page pageSize)).1 = t := by
  simp only [trail]
  cases t.logger.list page pageSize <;> rfl

theorem trail_grows (t : Trail) (call : Call) :
    t.logger.events <+: (trail.step t call).1.logger.events := by
  cases call with
  | fill env event => exact List.prefix_refl _
  | append position =>
      simp only [trail]
      cases t.pending[position]? with
      | none => exact List.prefix_refl _
      | some event => exact List.prefix_append _ _
  | list page pageSize =>
      rw [trail_list_keeps]

theorem run_trail_grows (t : Trail) (calls : List Call) :
    t.logger.events <+: (trail.run t calls).logger.events := by
  induction calls generalizing t with
  | nil => exact List.prefix_refl _
  | cons call calls ih => exact (trail_grows t call).trans (ih _)

theorem trail_list (t : Trail) (page pageSize : Int64) :
    (trail.step t (.list page pageSize)).2 =
      match t.logger.list page pageSize with
      | none => .panicked
      | some (events, total) => .listed events total := by
  simp only [trail]
  cases t.logger.list page pageSize <;> rfl

/-! ## Chronological order -/

def Event.time (event : Event) : Time := event.timestamp.getD 0

def NewestFirst (events : List Event) : Prop :=
  events.Pairwise fun newer older => older.time ≤ newer.time

/-- The first pages of one snapshot. -/
def MemoryLogger.Shows (m : MemoryLogger) (pageSize : Int64) (pages : List (List Event)) : Prop :=
  ∀ earlier page, pages[earlier]? = some page →
    ∃ total, m.list (Int64.ofNat (earlier + 1)) pageSize = some (page, total)

/-- Reverse-chronological order: of each page, and of pages read on end. -/
structure MemoryLogger.Chronological (m : MemoryLogger) : Prop where
  page : ∀ {page pageSize events total}, m.list page pageSize = some (events, total) →
    NewestFirst events
  pages : ∀ {pageSize pages}, 0 < pageSize →
    (pages.length - 1) * pageSize.toNatClampNeg < 2 ^ 63 → m.Shows pageSize pages →
    NewestFirst pages.flatten

/-- A Log call appends its event in turn: no Log call that read the clock at a
later time has appended before it. -/
def InTurn (next : Transition Trail Call Answer) : Prop :=
  ∀ position event, next.event = .append position →
    next.before.pending[position]? = some event →
    ∀ stored ∈ next.before.logger.events, stored.time ≤ event.time

theorem inTurn_of_other {next : Transition Trail Call Answer}
    (other : ∀ position, next.event ≠ .append position) : InTurn next :=
  fun position _ appended => absurd appended (other position)

theorem MemoryLogger.list_sublist {m : MemoryLogger} {page pageSize : Int64}
    {events : List Event} {total : Nat} (listed : m.list page pageSize = some (events, total)) :
    events.Sublist m.events.reverse := by
  unfold list at listed
  simp only at listed
  split at listed
  · cases listed
    exact List.nil_sublist _
  · split at listed
    · cases listed
      exact List.nil_sublist _
    · simp only [Option.ite_none_right_eq_some, Option.some.injEq, Prod.mk.injEq] at listed
      obtain ⟨_, rfl, _⟩ := listed
      exact (List.drop_sublist _ _).trans (List.take_sublist _ _)

theorem MemoryLogger.shows_flatten {m : MemoryLogger} (bounded : m.events.length < 2 ^ 63)
    {pageSize : Int64} {pages : List (List Event)} (positive : 0 < pageSize)
    (fits : (pages.length - 1) * pageSize.toNatClampNeg < 2 ^ 63)
    (shows : m.Shows pageSize pages) :
    pages.flatten.Sublist m.events.reverse := by
  have windows : pages =
      (List.range pages.length).map (pageOf m.events.reverse pageSize.toNatClampNeg) := by
    apply List.ext_getElem
    · rw [List.length_map, List.length_range]
    · intro earlier within _
      obtain ⟨total, listed⟩ := shows earlier _ (List.getElem?_eq_getElem within)
      have starts : earlier * pageSize.toNatClampNeg < 2 ^ 63 :=
        Nat.lt_of_le_of_lt (Nat.mul_le_mul_right _ (by omega)) fits
      rw [m.list_eq bounded positive starts] at listed
      rw [List.getElem_map, List.getElem_range]
      simp only [Option.ite_none_right_eq_some, Option.some.injEq, Prod.mk.injEq] at listed
      exact listed.2.1.symm
  rw [windows, flatten_pages]
  exact List.take_sublist _ _

theorem MemoryLogger.chronological_iff {m : MemoryLogger} (bounded : m.events.length < 2 ^ 63) :
    m.Chronological ↔ NewestFirst m.events.reverse := by
  constructor
  · intro chronological
    cases empty : m.events with
    | nil => exact .nil
    | cons event events =>
        have size : (Int64.ofNat m.events.length).toNatClampNeg = m.events.length :=
          Int64.toNatClampNeg_ofNat_of_lt bounded
        have positive : 0 < Int64.ofNat m.events.length := by
          rw [← Int64.toNatClampNeg_pos_iff, size, empty]
          exact Nat.succ_pos _
        have starts : 0 * (Int64.ofNat m.events.length).toNatClampNeg < 2 ^ 63 := by simp
        have listed := m.list_eq bounded positive starts
        rw [if_pos (.inr (by rw [size]; omega)), size, pageOf, Nat.zero_mul, List.drop_zero,
          List.take_of_length_le (by rw [List.length_reverse])] at listed
        rw [← empty]
        exact chronological.page listed
  · intro newestFirst
    refine ⟨fun listed => newestFirst.sublist (list_sublist listed), ?_⟩
    intro pageSize pages positive fits shows
    exact newestFirst.sublist (shows_flatten bounded positive fits shows)

theorem newestFirst_append_iff (m : MemoryLogger) (event : Event) :
    NewestFirst (m.append event).events.reverse ↔
      (∀ stored ∈ m.events, stored.time ≤ event.time) ∧ NewestFirst m.events.reverse := by
  simp only [MemoryLogger.append, List.reverse_append, List.reverse_singleton,
    List.singleton_append, NewestFirst, List.pairwise_cons, List.mem_reverse]

/-- A step keeps the order exactly when it does not append out of turn. -/
theorem newestFirst_step_iff {t : Trail} (newestFirst : NewestFirst t.logger.events.reverse)
    (call : Call) :
    NewestFirst (trail.step t call).1.logger.events.reverse ↔ InTurn (trail.fire t call) := by
  cases call with
  | fill env event =>
      exact iff_of_true newestFirst (inTurn_of_other (by simp))
  | append position =>
      cases waiting : t.pending[position]? with
      | none =>
          simp only [trail, waiting]
          refine iff_of_true newestFirst ?_
          intro other event appended found
          cases appended
          rw [Machine.fire_before, waiting] at found
          cases found
      | some event =>
          simp only [trail, waiting, newestFirst_append_iff, newestFirst, and_true]
          constructor
          · intro later other waited appended found
            cases appended
            rw [Machine.fire_before, waiting] at found
            cases found
            exact later
          · intro inTurn
            exact inTurn position event rfl waiting
  | list page pageSize =>
      rw [trail_list_keeps]
      exact iff_of_true newestFirst (inTurn_of_other (by simp))

def Call.clock : Call → Option Time
  | .fill env _ => some env.now
  | _ => none

def Undated (calls : List Call) : Prop :=
  ∀ env event, Call.fill env event ∈ calls → event.timestamp = none

/-- The clock never goes back. -/
def ClockForward (calls : List Call) : Prop := (calls.filterMap Call.clock).Pairwise (· ≤ ·)

/-- Log calls append in the order in which they completed their events. -/
def FirstComeFirstServed (calls : List Call) : Prop :=
  ∀ position, Call.append position ∈ calls → position = 0

/-- Stored events, then waiting ones, then the clock readings to come. -/
def Queued (t : Trail) (calls : List Call) : Prop :=
  ((t.logger.events ++ t.pending).map Event.time ++
    calls.filterMap Call.clock).Pairwise (· ≤ ·)

theorem queued_fill {t : Trail} {env : Env} {event : Event} {calls : List Call}
    (undated : event.timestamp = none) (queued : Queued t (.fill env event :: calls)) :
    Queued (trail.step t (.fill env event)).1 calls := by
  have read : (event.filled env).time = env.now := by
    rw [Event.time, event.filled_timestamp env undated]
    rfl
  change ((t.logger.events ++ (t.pending ++ [event.filled env])).map Event.time ++
    calls.filterMap Call.clock).Pairwise (· ≤ ·)
  rw [← List.append_assoc, List.map_append, List.map_singleton, read, List.append_assoc,
    List.singleton_append]
  exact queued

/-- The event that has waited longest is appended in turn, and the queue stays
the same. -/
theorem queued_append {t : Trail} {calls : List Call} (queued : Queued t (.append 0 :: calls)) :
    InTurn (trail.fire t (.append 0)) ∧ Queued (trail.step t (.append 0)).1 calls := by
  cases waiting : t.pending with
  | nil =>
      refine ⟨?_, ?_⟩
      · intro position event appended found
        cases appended
        rw [Machine.fire_before, waiting] at found
        cases found
      · simp only [trail, waiting, List.getElem?_nil]
        exact queued
  | cons event pending =>
      unfold Queued at queued
      rw [waiting] at queued
      refine ⟨?_, ?_⟩
      · intro position other appended found stored member
        cases appended
        rw [Machine.fire_before, waiting] at found
        cases found
        have sorted := (List.pairwise_append.mp queued).1
        rw [List.map_append, List.pairwise_append] at sorted
        exact sorted.2.2 _ (List.mem_map_of_mem member) _ (List.mem_map_of_mem List.mem_cons_self)
      · simp only [Queued, trail, waiting, List.getElem?_cons_zero, MemoryLogger.append,
          List.eraseIdx_cons_zero, List.append_assoc, List.singleton_append]
        exact queued

theorem inTurn_of_queued {calls : List Call} {t : Trail} (undated : Undated calls)
    (served : FirstComeFirstServed calls) (queued : Queued t calls) :
    trail.Always (fun _ next => InTurn next) t calls := by
  induction calls generalizing t with
  | nil => exact Machine.always_nil _ _
  | cons call calls ih =>
      have later := fun {t} => @ih t
        (fun env event member => undated env event (List.mem_cons_of_mem call member))
        (fun position member => served position (List.mem_cons_of_mem call member))
      rw [Machine.always_cons_iff]
      cases call with
      | fill env event =>
          exact ⟨inTurn_of_other (by simp),
            later (queued_fill (undated env event List.mem_cons_self) queued)⟩
      | append position =>
          obtain rfl := served position List.mem_cons_self
          obtain ⟨inTurn, still⟩ := queued_append queued
          exact ⟨inTurn, later still⟩
      | list page pageSize =>
          refine ⟨inTurn_of_other (by simp), ?_⟩
          rw [trail_list_keeps]
          exact later queued

/-- The trail reads in reverse-chronological order at every moment of a run if
and only if every Log call appends in turn. With a clock that never goes back
it is enough that Log calls append in the order in which they read the clock. -/
theorem trail_chronological_iff (calls : List Call)
    (bounded : (trail.run .new calls).logger.events.length < 2 ^ 63) :
    (trail.Always (fun _ next => next.after.logger.Chronological) .new calls ↔
        trail.Always (fun _ next => InTurn next) .new calls) ∧
      (Undated calls → ClockForward calls → FirstComeFirstServed calls →
        trail.Always (fun _ next => InTurn next) .new calls) := by
  refine ⟨?_, ?_⟩
  · apply Machine.Always.congr_run (fun t rest => NewestFirst t.logger.events.reverse ∧
      (trail.run t rest).logger.events.length < 2 ^ 63)
    · exact ⟨.nil, bounded⟩
    · intro t call rest both
      obtain ⟨newestFirst, fits⟩ := both
      have after := Nat.lt_of_le_of_lt (run_trail_grows (trail.step t call).1 rest).length_le fits
      rw [Machine.fire_after, MemoryLogger.chronological_iff after]
      exact newestFirst_step_iff newestFirst call
    · intro t call rest both inTurn
      exact ⟨(newestFirst_step_iff both.1 call).mpr inTurn, both.2⟩
  · intro undated forward served
    exact inTurn_of_queued undated served forward

def audited (action : Action) : Event where
  action := action

/-- The login that reads the clock first appends last. -/
def overtaking : List Call :=
  [.fill (plainEnv 1 "") (audited actionLoginFailed),
    .fill (plainEnv 2 "") (audited actionLoginSuccess), .append 1, .append 0]

theorem overtaken_event :
    Undated overtaking ∧ ClockForward overtaking ∧
      (trail.run .new overtaking).logger.list 1 50 =
        some ([(audited actionLoginFailed).filled (plainEnv 1 ""),
          (audited actionLoginSuccess).filled (plainEnv 2 "")], 2) ∧
      ¬ NewestFirst [(audited actionLoginFailed).filled (plainEnv 1 ""),
        (audited actionLoginSuccess).filled (plainEnv 2 "")] := by
  refine ⟨?_, ?_, by decide, ?_⟩
  · intro env event member
    simp only [overtaking, List.mem_cons, Call.fill.injEq, reduceCtorEq, List.not_mem_nil,
      or_false] at member
    rcases member with ⟨_, rfl⟩ | ⟨_, rfl⟩ <;> rfl
  · show [(1 : Time), 2].Pairwise (· ≤ ·)
    decide
  · intro newestFirst
    have ordered := List.rel_of_pairwise_cons newestFirst List.mem_cons_self
    exact absurd ordered (by decide)

/-- A run whose two Log calls append in turn. -/
theorem trail_chronological_in_turn :
    trail.Always (fun _ next => next.after.logger.Chronological) .new
      [.fill (plainEnv 1 "") (audited actionLoginFailed),
        .fill (plainEnv 2 "") (audited actionLoginSuccess), .append 0, .append 0] := by
  have both := trail_chronological_iff
    [.fill (plainEnv 1 "") (audited actionLoginFailed),
      .fill (plainEnv 2 "") (audited actionLoginSuccess), .append 0, .append 0] (by decide)
  apply both.1.mpr
  apply both.2
  · intro env event member
    simp only [List.mem_cons, Call.fill.injEq, reduceCtorEq, List.not_mem_nil, or_false] at member
    rcases member with ⟨_, rfl⟩ | ⟨_, rfl⟩ <;> rfl
  · show [(1 : Time), 2].Pairwise (· ≤ ·)
    decide
  · intro position member
    simpa using member

end Nexus.Audit
