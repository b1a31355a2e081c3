import Nexus.Audit.LoggerPostgres
import Nexus.Lib.Machine

/-! The server process from start to exit. `main` shuts it down: after a signal
`srv.Shutdown` waits for the handlers, for 30 seconds at most, and the process
exits once `done` is closed. Beside the handlers run the goroutines that `Log`
starts, for which nothing waits. A handler holds the event of the `Log` call it
is in. Handlers and goroutines are named by their positions. A handler counts
from the moment its connection becomes active, which `Shutdown` waits for, so that
what it does may all come after the signal. -/

set_option autoImplicit false

namespace Nexus.Server

open Nexus.Lib Nexus.Go Nexus.Audit

inductive Phase where
  | serving
  | draining -- in `srv.Shutdown`
  | done -- the channel `done` is closed
  | exited
  deriving DecidableEq

structure Process where
  phase : Phase
  handlers : List (Option Event)
  writers : List Event -- goroutines that have not executed their INSERT
  auditLogs : AuditLogs
  returned : List Event -- an observation: the events whose `Log` call returned

def Process.start (auditLogs : AuditLogs) : Process where
  phase := .serving
  handlers := []
  writers := []
  auditLogs := auditLogs
  returned := []

inductive ProcessEvent where
  | accept -- a connection becomes active
  | log (handler : Nat) (env : Env) (event : Event)
  | logReturns (handler : Nat)
  | handlerReturns (handler : Nat)
  | insert (writer : Nat)
  | signal
  | drained
  | timeout
  | exit

/-- A rejected INSERT is only reported on the console. -/
def Process.insert (s : Process) (writer : Nat) (event : Event) : Process where
  phase := s.phase
  handlers := s.handlers
  writers := s.writers.eraseIdx writer
  auditLogs :=
    match s.auditLogs.insert event with
    | .ok auditLogs => auditLogs
    | .error _ => s.auditLogs
  returned := s.returned

/-- A step of a process that has not exited. One that cannot happen changes
nothing. -/
def Process.next (s : Process) : ProcessEvent → Process
  | .accept =>
      if s.phase = .serving then { s with handlers := s.handlers ++ [none] } else s
  | .log handler env event =>
      match s.handlers[handler]? with
      | some none =>
          let stored := PostgresLogger.log env event
          { s with
            handlers := s.handlers.set handler (some stored)
            writers := s.writers ++ [stored] }
      | _ => s
  | .logReturns handler =>
      match s.handlers[handler]? with
      | some (some stored) =>
          { s with
            handlers := s.handlers.set handler none
            returned := s.returned ++ [stored] }
      | _ => s
  | .handlerReturns handler =>
      match s.handlers[handler]? with
      | some none => { s with handlers := s.handlers.eraseIdx handler }
      | _ => s
  | .insert writer =>
      match s.writers[writer]? with
      | some event => s.insert writer event
      | none => s
  | .signal => if s.phase = .serving then { s with phase := .draining } else s
  | .drained =>
      if s.phase = .draining ∧ s.handlers = [] then { s with phase := .done } else s
  | .timeout => if s.phase = .draining then { s with phase := .done } else s
  | .exit => if s.phase = .done then { s with phase := .exited } else s

def process : Machine Process ProcessEvent Unit where
  step s event := if s.phase = .exited then (s, ()) else (s.next event, ())

/-- Every INSERT that is executed succeeds, and `uuid.New` names each event anew. -/
structure Dependable (next : Transition Process ProcessEvent Unit) : Prop where
  inserted : ∀ writer event, next.event = .insert writer → next.before.phase ≠ .exited →
    next.before.writers[writer]? = some event →
      ∃ after, next.before.auditLogs.insert event = .ok after
  named : ∀ handler env event, next.event = .log handler env event →
    (PostgresLogger.log env event).id.length ≤ 64 ∧
      (PostgresLogger.log env event).id ∉ next.before.writers.map Event.id ∧
      (PostgresLogger.log env event).id ∉ next.before.auditLogs.rows.map AuditRow.id

/-- No `Log` call has returned whose event is still to be inserted at the exit. -/
def WritersDone (next : Transition Process ProcessEvent Unit) : Prop :=
  next.event = .exit → next.before.phase = .done →
    ∀ event ∈ next.before.returned, event ∉ next.before.writers

/-- After the exit every event whose `Log` call returned is in the table. -/
def Process.Complete (s : Process) : Prop :=
  s.phase = .exited → ∀ event ∈ s.returned, s.auditLogs.Records event

end Nexus.Server
