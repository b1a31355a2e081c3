import Nexus.Server.RouteProperties

/-! From handlers to routes: what holds of every handler, and of a refusal by a
guard, holds of every route. -/

set_option autoImplicit false

namespace Nexus.Server

open Nexus.Lib Nexus.Go Nexus.Users Nexus.Auth

variable {σ : Type}

/-- The law holds of what a handler does to every world for every request. -/
def Everywhere (law : Env → (World σ → World σ × Reply) → World σ → Prop)
    (handler : HandlerFunc σ) : Prop :=
  ∀ env r ctx w, law env (handler env r ctx) w

section
variable {law : Env → (World σ → World σ × Reply) → World σ → Prop} {next : HandlerFunc σ}

theorem everywhere_requireAuth {svc : Service}
    (refuses : ∀ env w status message,
      law env (fun w => (w, respond (writeError status message))) w)
    (behind : Everywhere law next) : Everywhere law (requireAuth svc next) := by
  intro env r ctx w
  unfold requireAuth
  split
  · exact refuses env w 401 _
  · split
    · exact refuses env w 401 _
    · rename_i claims _
      exact behind env r (some claims) w

theorem everywhere_requireRole {role : Role}
    (refuses : ∀ env w status message,
      law env (fun w => (w, respond (writeError status message))) w)
    (behind : Everywhere law next) : Everywhere law (requireRole role next) := by
  intro env r ctx w
  unfold requireRole
  cases ctx with
  | none => exact refuses env w 401 _
  | some claims =>
      dsimp only
      split
      · exact refuses env w 403 _
      · exact behind env r (some claims) w

theorem everywhere_requireAnyRole {roles : List Role}
    (refuses : ∀ env w status message,
      law env (fun w => (w, respond (writeError status message))) w)
    (behind : Everywhere law next) : Everywhere law (requireAnyRole roles next) := by
  intro env r ctx w
  unfold requireAnyRole
  cases ctx with
  | none => exact refuses env w 401 _
  | some claims =>
      dsimp only
      split
      · exact refuses env w 403 _
      · exact behind env r (some claims) w

end

/-- The guards in front of a handler are all of these. -/
theorem everywhere_route [UserStore σ] {p : Platform}
    {law : Env → (World σ → World σ × Reply) → World σ → Prop} {route : Route}
    (refuses : ∀ env w status message,
      law env (fun w => (w, respond (writeError status message))) w)
    (limits : ∀ next, Everywhere law next → Everywhere law (withRateLimit next))
    (handler : Everywhere law (observed (route.handler p))) :
    Everywhere law (registerRoutes p route) := by
  cases route with
  | health | register => exact handler
  | login => exact limits _ handler
  | me | mfaSetup | mfaVerify | userOrAdmin | listPolicies | checkAccess =>
      exact everywhere_requireAuth refuses handler
  | adminOnly | listUsers =>
      exact everywhere_requireAuth refuses (everywhere_requireRole refuses handler)
  | createPolicy | deletePolicy | listAudit =>
      exact everywhere_requireAuth refuses (everywhere_requireAnyRole refuses handler)

end Nexus.Server
