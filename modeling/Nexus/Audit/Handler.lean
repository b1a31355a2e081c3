import Nexus.Server.World

/-! The audit log over HTTP. Query parameters are empty when absent. -/

set_option autoImplicit false

namespace Nexus.Audit

open Nexus.Go Nexus.Server

variable {σ : Type}

def pageParam (page : String) : Int64 :=
  match atoi page with
  | some v => if v > 0 then v else 1
  | none => 1

def pageSizeParam (pageSize : String) : Int64 :=
  match atoi pageSize with
  | some v => if v > 0 ∧ v ≤ 200 then v else 50
  | none => 50

def Handler.list (page pageSize : String) : HandlerFunc σ :=
  fun _ _ _ w =>
    match w.audit.list (pageParam page) (pageSizeParam pageSize) with
    | none => (w, panicked)
    | some (events, total) =>
        (w, respond (writeJSON 200 (.obj
          [("events", .arr (events.map Event.toJson)),
            ("page", .num (pageParam page).toInt),
            ("page_size", .num (pageSizeParam pageSize).toInt), ("total", .num total)])))

end Nexus.Audit
