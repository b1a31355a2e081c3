import Nexus.Lib.Machine

/-! One machine inside another: each event of the concrete machine performs at
most one event of the abstract one, and otherwise the abstract machine waits. -/

set_option autoImplicit false

namespace Nexus.Lib.Machine

universe u v w x y z

variable {State : Type u} {Event : Type v} {Output : Type w}
  {Abstract : Type x} {Operation : Type y} {Answer : Type z}
variable (concrete : Machine State Event Output) (spec : Machine Abstract Operation Answer)

/-- The operations that a concrete run performs, in order. -/
def performed (performs : State → Event → Option Operation) :
    State → List Event → List Operation
  | _, [] => []
  | state, event :: events =>
      (performs state event).toList ++ performed performs (concrete.step state event).1 events

variable {performs : State → Event → Option Operation}

theorem performed_append (state : State) (first second : List Event) :
    concrete.performed performs state (first ++ second) =
      concrete.performed performs state first ++
        concrete.performed performs (concrete.run state first) second := by
  induction first generalizing state with
  | nil => rfl
  | cons event first ih =>
      simp only [List.cons_append, performed, run_cons, List.append_assoc]
      rw [ih (concrete.step state event).1]

theorem performed_singleton (state : State) (event : Event) :
    concrete.performed performs state [event] = (performs state event).toList :=
  List.append_nil _

variable {concrete spec}

/-- The forward simulation of histories: it is enough that each concrete event
extends the abstract run by the operation it performs, or leaves it. -/
theorem history_refines {start : State} {origin : Abstract}
    (related : List (Transition State Event Output) → State →
      List (Transition Abstract Operation Answer) → Abstract → Prop)
    (initially : related [] start [] origin)
    (stutters : ∀ past state history abstract event,
      related past state history abstract → performs state event = none →
      related (past ++ [concrete.fire state event]) (concrete.step state event).1
        history abstract)
    (simulates : ∀ past state history abstract event operation,
      related past state history abstract → performs state event = some operation →
      related (past ++ [concrete.fire state event]) (concrete.step state event).1
        (history ++ [spec.fire abstract operation]) (spec.step abstract operation).1)
    (events : List Event) :
    related (concrete.trace start events) (concrete.run start events)
      (spec.trace origin (concrete.performed performs start events))
      (spec.run origin (concrete.performed performs start events)) := by
  induction events using List.reverseRecOn with
  | nil => exact initially
  | append_singleton events event ih =>
      rw [trace_append, run_append, performed_append, performed_singleton]
      cases chosen : performs (concrete.run start events) event with
      | none =>
          rw [Option.toList_none, List.append_nil]
          exact stutters _ _ _ _ event ih chosen
      | some operation =>
          rw [Option.toList_some, trace_append, run_append]
          exact simulates _ _ _ _ event operation ih chosen

end Nexus.Lib.Machine
