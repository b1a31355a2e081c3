import Nexus.Audit.LoggerProperties
import Nexus.Lib.Machine

/-! Calls of the in-memory logger, in any interleaving. `Log` takes two steps:
it completes the event on its own, the clock included, and appends it later,
under the lock, with other calls in between. An event that waits is named by
its position. -/

set_option autoImplicit false

namespace Nexus.Audit

open Nexus.Lib Nexus.Go

structure Trail where
  logger : MemoryLogger
  pending : List Event

def Trail.new : Trail where
  logger := newMemoryLogger
  pending := []

inductive Call where
  | fill (env : Env) (event : Event)
  | append (position : Nat)
  | list (page pageSize : Int64)

inductive Answer where
  | filled (event : Event)
  | appended (event : Event)
  | absent -- no event waits at the position
  | listed (events : List Event) (total : Nat)
  | panicked

def trail : Machine Trail Call Answer where
  step t
    | .fill env event =>
        ({ t with pending := t.pending ++ [event.filled env] }, .filled (event.filled env))
    | .append position =>
        match t.pending[position]? with
        | none => (t, .absent)
        | some event =>
            ({ logger := t.logger.append event, pending := t.pending.eraseIdx position },
              .appended event)
    | .list page pageSize =>
        match t.logger.list page pageSize with
        | none => (t, .panicked)
        | some (events, total) => (t, .listed events total)

/-! ## One client that pages through the trail -/

structure Paging where
  trail : Trail
  pages : List (List Event)

inductive PagingCall where
  | other (call : Call)
  | fetch

/-- The client asks for page 1, 2 and so on, until it has received an empty
page. A request that panics is made again. -/
def paging (pageSize : Int64) : Machine Paging PagingCall Unit where
  step p
    | .other call => ({ p with trail := (trail.step p.trail call).1 }, ())
    | .fetch =>
        if p.pages.getLast? = some [] then (p, ())
        else
          match (trail.step p.trail
              (.list (Int64.ofNat (p.pages.length + 1)) pageSize)).2 with
          | .listed events _ => ({ p with pages := p.pages ++ [events] }, ())
          | _ => (p, ())

def pagingRun (pageSize : Int64) (start : Trail) (calls : List PagingCall) : Paging :=
  (paging pageSize).run { trail := start, pages := [] } calls

/-- A call that adds nothing to the trail. -/
def PagingCall.Quiet : PagingCall → Prop
  | .other (.append _) => False
  | _ => True

end Nexus.Audit
