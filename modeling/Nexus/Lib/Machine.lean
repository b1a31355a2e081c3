import Mathlib.Data.List.Induction
import Mathlib.Tactic.Tauto

/-! Deterministic event machines, their runs and the histories those runs
leave. Whatever the environment decides (clocks, random draws, orders of
iteration, bytes from a client) belongs to the event, so one event has one
outcome and a statement about every run quantifies over event lists. -/

set_option autoImplicit false

namespace Nexus.Lib

universe u v w

/-- A list around one of its positions. -/
theorem exists_around {α : Type u} {entries : List α} {position : Nat} {entry : α}
    (found : entries[position]? = some entry) :
    ∃ front back, entries = front ++ entry :: back ∧
      (∀ other, entries.set position other = front ++ other :: back) ∧
      entries.eraseIdx position = front ++ back := by
  induction entries generalizing position with
  | nil => cases found
  | cons head entries ih =>
      cases position with
      | zero =>
          cases found
          exact ⟨[], entries, rfl, fun _ => rfl, rfl⟩
      | succ position =>
          obtain ⟨front, back, split, replaced, erased⟩ := ih found
          exact ⟨head :: front, back, by rw [split]; rfl, fun other => by
            rw [List.set_cons_succ, replaced]
            rfl, by
            rw [List.eraseIdx_cons_succ, erased]
            rfl⟩

structure Machine (State : Type u) (Event : Type v) (Output : Type w) where
  step : State → Event → State × Output

structure Transition (State : Type u) (Event : Type v) (Output : Type w) where
  before : State
  event : Event
  output : Output
  after : State

namespace Machine

variable {State : Type u} {Event : Type v} {Output : Type w}
variable (machine : Machine State Event Output)

def fire (state : State) (event : Event) : Transition State Event Output where
  before := state
  event := event
  output := (machine.step state event).2
  after := (machine.step state event).1

@[simp] theorem fire_before (state : State) (event : Event) :
    (machine.fire state event).before = state := rfl

@[simp] theorem fire_event (state : State) (event : Event) :
    (machine.fire state event).event = event := rfl

@[simp] theorem fire_output (state : State) (event : Event) :
    (machine.fire state event).output = (machine.step state event).2 := rfl

@[simp] theorem fire_after (state : State) (event : Event) :
    (machine.fire state event).after = (machine.step state event).1 := rfl

def run : State → List Event → State
  | state, [] => state
  | state, event :: events => run (machine.step state event).1 events

def trace : State → List Event → List (Transition State Event Output)
  | _, [] => []
  | state, event :: events =>
      machine.fire state event :: trace (machine.step state event).1 events

@[simp] theorem run_nil (state : State) : machine.run state [] = state := rfl

@[simp] theorem run_cons (state : State) (event : Event) (events : List Event) :
    machine.run state (event :: events) =
      machine.run (machine.step state event).1 events := rfl

@[simp] theorem trace_nil (state : State) : machine.trace state [] = [] := rfl

@[simp] theorem trace_cons (state : State) (event : Event) (events : List Event) :
    machine.trace state (event :: events) =
      machine.fire state event :: machine.trace (machine.step state event).1 events := rfl

theorem run_append (state : State) (first second : List Event) :
    machine.run state (first ++ second) =
      machine.run (machine.run state first) second := by
  induction first generalizing state with
  | nil => rfl
  | cons event first ih => exact ih (machine.step state event).1

theorem trace_append (state : State) (first second : List Event) :
    machine.trace state (first ++ second) =
      machine.trace state first ++ machine.trace (machine.run state first) second := by
  induction first generalizing state with
  | nil => rfl
  | cons event first ih =>
      simp only [List.cons_append, trace_cons, run_cons]
      rw [ih (machine.step state event).1]

/-- The induction rule for facts that tie the current state to its history:
it is enough that each further event extends both consistently. -/
theorem history_invariant {start : State}
    (invariant : List (Transition State Event Output) → State → Prop)
    (initially : invariant [] start)
    (maintained : ∀ past state event, invariant past state →
      invariant (past ++ [machine.fire state event]) (machine.step state event).1)
    (events : List Event) :
    invariant (machine.trace start events) (machine.run start events) := by
  induction events using List.reverseRecOn with
  | nil => exact initially
  | append_singleton events event ih =>
      rw [trace_append, run_append]
      exact maintained _ _ event ih

/-- A property of states that every admitted event keeps holds after every
run of admitted events. -/
theorem run_invariant {invariant : State → Prop} {admitted : Event → Prop}
    (maintained : ∀ state event, admitted event → invariant state →
      invariant (machine.step state event).1)
    {start : State} (initially : invariant start) {events : List Event}
    (allAdmitted : ∀ event ∈ events, admitted event) :
    invariant (machine.run start events) := by
  induction events generalizing start with
  | nil => exact initially
  | cons event events ih =>
      apply ih
      · exact maintained start event (allAdmitted event List.mem_cons_self) initially
      · intro later member
        exact allAdmitted later (List.mem_cons_of_mem event member)

theorem mem_trace {start : State} {events : List Event}
    {transition : Transition State Event Output}
    (member : transition ∈ machine.trace start events) :
    ∃ past event future, events = past ++ event :: future ∧
      transition = machine.fire (machine.run start past) event := by
  induction events generalizing start with
  | nil => cases member
  | cons head events ih =>
      rcases List.mem_cons.mp member with rfl | later
      · exact ⟨[], head, events, rfl, rfl⟩
      · obtain ⟨past, event, future, split, fired⟩ := ih later
        exact ⟨head :: past, event, future, by rw [split]; rfl, fired⟩

/-- A law about each moment of a run: the history so far and the transition
that comes next. -/
def Always (law : List (Transition State Event Output) →
    Transition State Event Output → Prop) (start : State) (events : List Event) : Prop :=
  ∀ past event future, events = past ++ event :: future →
    law (machine.trace start past) (machine.fire (machine.run start past) event)

variable {machine}

theorem always_nil
    (law : List (Transition State Event Output) → Transition State Event Output → Prop)
    (start : State) : machine.Always law start [] := by
  intro past event future split
  cases past <;> cases split

theorem always_cons_iff
    {law : List (Transition State Event Output) → Transition State Event Output → Prop}
    {start : State} {event : Event} {events : List Event} :
    machine.Always law start (event :: events) ↔ law [] (machine.fire start event) ∧
      machine.Always (fun past => law (machine.fire start event :: past))
        (machine.step start event).1 events := by
  constructor
  · intro always
    refine ⟨always [] event events rfl, ?_⟩
    intro past later future split
    subst split
    exact always (event :: past) later future rfl
  · intro both past next future split
    obtain ⟨now, later⟩ := both
    cases past with
    | nil =>
        cases split
        exact now
    | cons first past =>
        cases split
        exact later past next future rfl

theorem Always.of_append
    {law : List (Transition State Event Output) → Transition State Event Output → Prop}
    {start : State} {events later : List Event}
    (always : machine.Always law start (events ++ later)) : machine.Always law start events := by
  intro past event future split
  apply always past event (future ++ later)
  rw [split, List.append_assoc, List.cons_append]

/-- What each step of a run maintains as long as it keeps a law holds after a
run whose steps all keep it. -/
theorem Always.run_invariant (invariant : State → Prop)
    {law : Transition State Event Output → Prop}
    (maintained : ∀ state event, invariant state → law (machine.fire state event) →
      invariant (machine.step state event).1)
    {start : State} (initially : invariant start) {events : List Event}
    (always : machine.Always (fun _ next => law next) start events) :
    invariant (machine.run start events) := by
  induction events generalizing start with
  | nil => exact initially
  | cons event events ih =>
      obtain ⟨now, later⟩ := always_cons_iff.mp always
      exact ih (maintained start event initially now) later

/-- A law whose first violation sets a latch that stays set holds throughout a
run exactly if the latch is not set at its end. -/
theorem Always.iff_not_latched {assumed law : Transition State Event Output → Prop}
    (invariant latched : State → Prop)
    (maintained : ∀ state event, invariant state → assumed (machine.fire state event) →
      invariant (machine.step state event).1)
    (latch : ∀ state event, invariant state → assumed (machine.fire state event) →
      (latched (machine.step state event).1 ↔
        latched state ∨ ¬ law (machine.fire state event)))
    {start : State} (initially : invariant start) (unlatched : ¬ latched start)
    {events : List Event} (always : machine.Always (fun _ next => assumed next) start events) :
    machine.Always (fun _ next => law next) start events ↔
      ¬ latched (machine.run start events) := by
  suffices outcome : latched (machine.run start events) ↔
      latched start ∨ ¬ machine.Always (fun _ next => law next) start events by
    rw [outcome, or_iff_right unlatched, not_not]
  clear unlatched
  induction events generalizing start with
  | nil => simp [always_nil]
  | cons event events ih =>
      obtain ⟨now, later⟩ := always_cons_iff.mp always
      rw [run_cons, ih (maintained start event initially now) later,
        latch start event initially now, always_cons_iff]
      tauto

/-- Two laws that agree at each moment of a run hold throughout it alike. -/
theorem Always.congr
    {law other : List (Transition State Event Output) → Transition State Event Output → Prop}
    {start : State} {events : List Event}
    (agree : ∀ past, ∀ event ∈ events, law (machine.trace start past)
        (machine.fire (machine.run start past) event) ↔
      other (machine.trace start past) (machine.fire (machine.run start past) event)) :
    machine.Always law start events ↔ machine.Always other start events := by
  have occurs : ∀ {past : List Event} {event future}, events = past ++ event :: future →
      event ∈ events := by
    intro past event future split
    subst split
    simp
  constructor
  · intro always past event future split
    exact (agree past event (occurs split)).mp (always past event future split)
  · intro always past event future split
    exact (agree past event (occurs split)).mpr (always past event future split)

/-- Where an invariant of the state and the events to come decides whether two
laws about single steps agree, and the second law maintains it, they hold
throughout a run alike: at the first step that breaks one, both are broken. -/
theorem Always.congr_run {law other : Transition State Event Output → Prop}
    (invariant : State → List Event → Prop) {start : State} {events : List Event}
    (initially : invariant start events)
    (agree : ∀ state event rest, invariant state (event :: rest) →
      (law (machine.fire state event) ↔ other (machine.fire state event)))
    (maintained : ∀ state event rest, invariant state (event :: rest) →
      other (machine.fire state event) → invariant (machine.step state event).1 rest) :
    machine.Always (fun _ next => law next) start events ↔
      machine.Always (fun _ next => other next) start events := by
  induction events generalizing start with
  | nil => exact ⟨fun _ => always_nil _ _, fun _ => always_nil _ _⟩
  | cons event events ih =>
      have now := agree start event events initially
      have later := fun kept => ih (maintained start event events initially kept)
      rw [always_cons_iff, always_cons_iff]
      constructor
      · intro both
        exact ⟨now.mp both.1, (later (now.mp both.1)).mp both.2⟩
      · intro both
        exact ⟨now.mpr both.1, (later both.1).mpr both.2⟩

theorem Always.congr_step {law other : Transition State Event Output → Prop}
    (invariant : State → Prop) {start : State} {events : List Event}
    (initially : invariant start)
    (agree : ∀ state, ∀ event ∈ events, invariant state →
      (law (machine.fire state event) ↔ other (machine.fire state event)))
    (maintained : ∀ state, ∀ event ∈ events, invariant state →
      other (machine.fire state event) → invariant (machine.step state event).1) :
    machine.Always (fun _ next => law next) start events ↔
      machine.Always (fun _ next => other next) start events := by
  apply Always.congr_run (fun state rest => invariant state ∧ rest ⊆ events)
  · exact ⟨initially, List.Subset.refl events⟩
  · intro state event rest both
    exact agree state event (both.2 List.mem_cons_self) both.1
  · intro state event rest both kept
    exact ⟨maintained state event (both.2 List.mem_cons_self) both.1 kept,
      fun _ member => both.2 (List.mem_cons_of_mem event member)⟩

end Machine

end Nexus.Lib
