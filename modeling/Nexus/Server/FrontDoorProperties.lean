import Nexus.Middleware.HttpProperties
import Nexus.Server.FrontDoor
import Nexus.Server.GuardProperties
import Nexus.Server.MediationProperties

/-! What the routes look like from the network. A request is either routed, with
its body cut off at the limit, or answered without touching the state. -/

set_option autoImplicit false

namespace Nexus.Server

open Nexus.Lib Nexus.Go Nexus.Users Nexus.Auth Nexus.Audit Nexus.Policy Nexus.Middleware

variable {σ : Type}

/-! ## What handlers write -/

/-- What the health check answers. -/
def healthy : Response where
  status := 200
  headers := [("Content-Type", "application/json")]
  body := .raw "\x7b\"status\":\"ok\",\"service\":\"nexus-identity-platform\"\x7d"

/-- The shapes of a handler's response. -/
inductive Plain (response : Response) : Prop where
  | granted (status : Nat) (value : Json) (fine : status / 100 = 2)
      (written : response = writeJSON status value)
  | refused (status : Nat) (message : String) (failed : status / 100 ≠ 2)
      (written : response = writeError status message)
  | health (written : response = healthy)
  | limited (written : response = rateLimited)

def WritesPlain (_ : Env) (act : World σ → World σ × Reply) (w : World σ) : Prop :=
  ∀ response, (act w).2.response = some response → Plain response

theorem plain_writeError (env : Env) (w : World σ) (status : Nat) (message : String) :
    WritesPlain env (fun w => (w, respond (writeError status message))) w := by
  rintro response ⟨⟩
  by_cases fine : status / 100 = 2
  · exact .granted status _ fine rfl
  · exact .refused status message fine rfl

theorem plain_withRateLimit {next : HandlerFunc σ} (plain : Everywhere WritesPlain next) :
    Everywhere WritesPlain (withRateLimit next) := by
  intro env r ctx w
  by_cases exhausted : w.limiter.isRateLimited env r.remoteAddr = .ok true
  · intro response answered
    rw [withRateLimit_of_limited exhausted next ctx] at answered
    cases answered
    exact .limited rfl
  · intro response answered
    rw [withRateLimit_of_unlimited exhausted next ctx] at answered
    exact plain env r ctx w response answered

variable [UserStore σ] {p : Platform}

theorem plain_handler (route : Route) :
    Everywhere WritesPlain (observed (route.handler p) : HandlerFunc σ) := by
  intro env r ctx w response answered
  rw [observed_response] at answered
  cases route with
  | health =>
      cases answered
      exact .health rfl
  | register body =>
      simp only [Route.handler, Auth.Handler.register, registerError] at answered
      (repeat' split at answered) <;> cases answered <;>
        first | exact .refused _ _ (by decide) rfl | exact .granted _ _ (by decide) rfl
  | login body =>
      simp only [Route.handler, Auth.Handler.login] at answered
      (repeat' split at answered) <;> cases answered <;>
        first | exact .refused _ _ (by decide) rfl | exact .granted _ _ (by decide) rfl
  | mfaVerify body =>
      simp only [Route.handler, Auth.Handler.mfaVerify] at answered
      (repeat' split at answered) <;> cases answered <;>
        first | exact .refused _ _ (by decide) rfl | exact .granted _ _ (by decide) rfl
  | createPolicy body =>
      simp only [Route.handler, Policy.Handler.createPolicy] at answered
      (repeat' split at answered) <;> cases answered <;>
        first | exact .refused _ _ (by decide) rfl | exact .granted _ _ (by decide) rfl
  | deletePolicy id =>
      simp only [Route.handler, Policy.Handler.deletePolicy] at answered
      (repeat' split at answered) <;> cases answered <;>
        first | exact .refused _ _ (by decide) rfl | exact .granted _ _ (by decide) rfl
  | checkAccess body =>
      simp only [Route.handler, Policy.Handler.checkAccess] at answered
      (repeat' split at answered) <;> cases answered <;>
        first | exact .refused _ _ (by decide) rfl | exact .granted _ _ (by decide) rfl
  | me | mfaSetup | adminOnly | userOrAdmin | listUsers | listPolicies | listAudit =>
      simp only [Route.handler, Auth.Handler.me, Auth.Handler.mfaSetup,
        Auth.Handler.adminOnly, Auth.Handler.userOrAdmin, Auth.Handler.listUsers,
        Policy.Handler.listPolicies, Audit.Handler.list, greeting] at answered
      (repeat' split at answered) <;> cases answered <;>
        first | exact .refused _ _ (by decide) rfl | exact .granted _ _ (by decide) rfl

theorem plain_step {w : World σ} {incoming : Incoming} {response : Response}
    (answered : ((server p).step w incoming).2.response = some response) : Plain response :=
  everywhere_route plain_writeError (fun _ => plain_withRateLimit) (plain_handler incoming.route)
    incoming.env incoming.request none w response answered

theorem Plain.headers {response : Response} (plain : Plain response) {name value : String}
    (written : (name, value) ∈ response.headers) :
    name = "Content-Type" ∨ name = "Retry-After" := by
  cases plain with
  | granted _ _ _ same | refused _ _ _ same | health same =>
      rw [same] at written
      simp only [writeError, writeJSON, healthy, List.mem_singleton, Prod.mk.injEq] at written
      exact .inl written.1
  | limited same =>
      rw [same] at written
      simp only [rateLimited, List.mem_cons, List.not_mem_nil, or_false, Prod.mk.injEq] at written
      exact written.imp And.left And.left

/-! ## Routing -/

/-- The server-wide question whose answer `http.Server` keeps to itself. -/
def serverWide (r : Middleware.Request) : Prop := r.requestURI = "*" ∧ r.method = "OPTIONS"

instance (r : Middleware.Request) : Decidable (serverWide r) :=
  inferInstanceAs (Decidable (_ ∧ _))

/-- The request that gets to the routes, if one does. -/
def Arriving.incoming (arriving : Arriving) : Option Incoming :=
  let r := arriving.request
  if r.method = "OPTIONS" ∨ r.requestURI = "*" then none
  else
    match findHandler endpoints r.method r.path with
    | .handler endpoint values =>
        some {
          env := arriving.env
          request := r.http
          route := endpoint { r with body := r.body.maxBytes (1 <<< 20) } values }
    | _ => none

/-- What the middleware sets before the router is asked. -/
def presetHeader (p : Platform) (corsOrigin : String) (r : Middleware.Request) : Header :=
  let h : Header :=
    if admits p.unicode (allowedOrigins corsOrigin) r.origin then
      Header.setAll [] (corsFields r.origin)
    else []
  h.setAll securityFields

/-- What `net/http` answers for the router. -/
inductive RouterAnswer (h : Header) (r : Middleware.Request) : Response → Prop where
  | badRequest : RouterAnswer h r { status := 400, headers := h, body := .raw "" }
  | redirect (url : String) : RouterAnswer h r (redirect h r url)
  | methodNotAllowed (allowed : String) :
      RouterAnswer h r (httpError (h.set "Allow" allowed) "Method Not Allowed" 405)
  | notFound : RouterAnswer h r (httpError h "404 page not found" 404)

/-- The outcomes of a request from the network. -/
inductive Passed (p : Platform) (corsOrigin : String) (w : World σ) (arriving : Arriving)
    (outcome : World σ × Reply) : Prop where
  | serverWide (asked : serverWide arriving.request) (unrouted : arriving.incoming = none)
      (result : outcome = (w, respond
        { status := 200, headers := [("Content-Length", "0")], body := .raw "" }))
  | preflight (specific : ¬ Server.serverWide arriving.request)
      (asked : arriving.request.method = "OPTIONS") (unrouted : arriving.incoming = none)
      (result : outcome = (w, respond {
        status := 204
        headers :=
          if admits p.unicode (allowedOrigins corsOrigin) arriving.request.origin then
            Header.setAll [] (corsFields arriving.request.origin)
          else []
        body := .raw "" }))
  | unrouted (asked : arriving.request.method ≠ "OPTIONS") (unrouted : arriving.incoming = none)
      {response : Response}
      (answer : RouterAnswer (presetHeader p corsOrigin arriving.request) arriving.request response)
      (result : outcome = (w, respond (withoutBody arriving.request.method response)))
  | routed (asked : arriving.request.method ≠ "OPTIONS") (incoming : Incoming)
      (found : arriving.incoming = some incoming)
      (result : outcome = (((server p).step w incoming).1,
        { ((server p).step w incoming).2 with
          response := ((server p).step w incoming).2.response.map fun response =>
            withoutBody arriving.request.method
              ((presetHeader p corsOrigin arriving.request).under response) }))

/-- The inversion of a step at the front door. -/
theorem frontDoor_step (corsOrigin : String) (w : World σ) (arriving : Arriving) :
    Passed p corsOrigin w arriving ((frontDoor p corsOrigin).step w arriving) := by
  obtain ⟨env, r⟩ := arriving
  by_cases wide : serverWide r
  · refine .serverWide wide ?_ ?_
    · exact if_pos (.inl wide.2)
    · simp only [frontDoor, serveHTTP]
      exact if_pos wide
  · have past : (frontDoor p corsOrigin).step w ⟨env, r⟩ =
        ((mainHandler p corsOrigin [] env r w).1, { (mainHandler p corsOrigin [] env r w).2 with
          response := (mainHandler p corsOrigin [] env r w).2.response.map
            (withoutBody r.method) }) := by
      simp only [frontDoor, serveHTTP]
      exact if_neg wide
    rw [past]
    by_cases options : r.method = "OPTIONS"
    · refine .preflight wide options (if_pos (.inl options)) ?_
      have notHead : ¬ r.method = "HEAD" := by
        rw [options]
        decide
      simp only [mainHandler, CORS, if_pos options, respond, Option.map_some, withoutBody,
        if_neg notHead]
    · have reached : mainHandler p corsOrigin [] env r w =
          serveMux p (presetHeader p corsOrigin r) env
            { r with body := r.body.maxBytes (1 <<< 20) } w := by
        simp only [mainHandler, CORS, if_neg options]
        rfl
      rw [reached]
      by_cases star : r.requestURI = "*"
      · refine .unrouted options (if_pos (.inr star)) .badRequest ?_
        simp only [serveMux, if_pos star, respond, Option.map_some]
      · have either : ¬ (r.method = "OPTIONS" ∨ r.requestURI = "*") := not_or.mpr ⟨options, star⟩
        simp only [serveMux, if_neg star]
        cases dispatched : findHandler endpoints r.method r.path with
        | redirect path =>
            refine .unrouted options ?_ (.redirect (urlString path r.rawQuery)) rfl
            simp only [Arriving.incoming, if_neg either, dispatched]
        | methodNotAllowed allowed =>
            refine .unrouted options ?_ (.methodNotAllowed (", ".intercalate allowed)) rfl
            simp only [Arriving.incoming, if_neg either, dispatched]
        | notFound =>
            refine .unrouted options ?_ .notFound rfl
            simp only [Arriving.incoming, if_neg either, dispatched]
        | handler endpoint values =>
            let incoming : Incoming := {
              env := env
              request := r.http
              route := endpoint { r with body := r.body.maxBytes (1 <<< 20) } values }
            refine .routed options incoming ?_ ?_
            · simp only [Arriving.incoming, if_neg either, dispatched]
              rfl
            · simp only [Option.map_map]
              rfl

/-- At the front door the server is the machine of its routes. -/
theorem frontDoor_state (corsOrigin : String) (w : World σ) (arriving : Arriving) :
    ((frontDoor p corsOrigin).step w arriving).1 =
      (server p).run w arriving.incoming.toList := by
  cases frontDoor_step (p := p) corsOrigin w arriving with
  | serverWide _ unrouted result =>
      rw [result, unrouted]
      rfl
  | preflight _ _ unrouted result =>
      rw [result, unrouted]
      rfl
  | unrouted _ unrouted _ result =>
      rw [result, unrouted]
      rfl
  | routed _ incoming found result =>
      rw [result, found]
      rfl

theorem frontDoor_run (corsOrigin : String) (w : World σ) (events : List Arriving) :
    (frontDoor p corsOrigin).run w events =
      (server p).run w (events.filterMap Arriving.incoming) := by
  induction events generalizing w with
  | nil => rfl
  | cons arriving events ih =>
      rw [Machine.run_cons, ih, frontDoor_state]
      cases found : arriving.incoming with
      | none =>
          rw [List.filterMap_cons_none found]
          rfl
      | some incoming =>
          rw [List.filterMap_cons_some found]
          rfl

/-! ## Headers -/

/-- The middleware sees the request and admits its origin. -/
def AdmittedOrigin (p : Platform) (corsOrigin : String) (r : Middleware.Request) : Prop :=
  ¬ serverWide r ∧ admits p.unicode (allowedOrigins corsOrigin) r.origin = true

instance (p : Platform) (corsOrigin : String) (r : Middleware.Request) :
    Decidable (AdmittedOrigin p corsOrigin r) := inferInstanceAs (Decidable (_ ∧ _))

/-- A page of another origin may read exactly what the middleware admits, and no
handler takes a header of the middleware back. -/
structure Shielded (p : Platform) (corsOrigin : String) (r : Middleware.Request)
    (response : Response) : Prop where
  cors : ∀ field ∈ corsFields r.origin, Header.get response.headers field.1 =
    if AdmittedOrigin p corsOrigin r then field.2 else ""
  security : r.method ≠ "OPTIONS" → ∀ field ∈ securityFields,
    Header.get response.headers field.1 = field.2

theorem withoutBody_headers (method : String) (response : Response) :
    (withoutBody method response).headers = response.headers := by
  unfold withoutBody
  split <;> rfl

theorem securityFields_once : (securityFields.map Prod.fst).Nodup := by decide

theorem corsFields_once (origin : String) : ((corsFields origin).map Prod.fst).Nodup := by
  rw [show (corsFields origin).map Prod.fst = (corsFields "").map Prod.fst from rfl]
  decide

/-- The names of the fields that the middleware sets. -/
def presetNames : List String := (corsFields "").map Prod.fst ++ securityFields.map Prod.fst

theorem corsFields_names {origin : String} {field : String × String}
    (listed : field ∈ corsFields origin) : field.1 ∈ (corsFields "").map Prod.fst := by
  have named : field.1 ∈ (corsFields origin).map Prod.fst := List.mem_map_of_mem listed
  exact named

theorem preset_foreign {name : String} (listed : name ∈ presetNames) :
    name ≠ "Content-Type" ∧ name ≠ "Retry-After" ∧ name ≠ "Allow" ∧ name ≠ "Location" := by
  have foreign : ∀ name ∈ presetNames,
      name ≠ "Content-Type" ∧ name ≠ "Retry-After" ∧ name ≠ "Allow" ∧ name ≠ "Location" := by
    decide
  exact foreign name listed

/-- The headers of the middleware that no answer sets, and the one it sets alike. -/
theorem shielded_of_foreign {corsOrigin : String} {r : Middleware.Request} {headers : Header}
    (asked : r.method ≠ "OPTIONS")
    (kept : ∀ name ∈ presetNames, headers.get name = (presetHeader p corsOrigin r).get name)
    {response : Response} (written : response.headers = headers) :
    Shielded p corsOrigin r response := by
  refine ⟨?_, ?_⟩
  · intro field listed
    have name := corsFields_names listed
    have foreign : field.1 ∉ securityFields.map Prod.fst := by
      have disjoint : ∀ name ∈ (corsFields "").map Prod.fst,
          name ∉ securityFields.map Prod.fst := by decide
      exact disjoint field.1 name
    have specific : ¬ serverWide r := fun wide => asked wide.2
    rw [written, kept field.1 (List.mem_append_left _ name), presetHeader,
      Header.get_setAll_other _ _ foreign]
    by_cases admitted : admits p.unicode (allowedOrigins corsOrigin) r.origin = true
    · rw [if_pos admitted, if_pos ⟨specific, admitted⟩]
      exact Header.get_setAll _ _ (corsFields_once r.origin) listed
    · rw [if_neg admitted, if_neg fun both => admitted both.2]
      rfl
  · intro _ field listed
    have name := List.mem_map_of_mem (f := Prod.fst) listed
    rw [written, kept field.1 (List.mem_append_right _ name), presetHeader]
    exact Header.get_setAll _ _ securityFields_once listed

theorem shielded_answer {corsOrigin : String} {r : Middleware.Request} {response : Response}
    (asked : r.method ≠ "OPTIONS")
    (answer : RouterAnswer (presetHeader p corsOrigin r) r response) :
    Shielded p corsOrigin r response := by
  have sniffing : (presetHeader p corsOrigin r).get "X-Content-Type-Options" = "nosniff" :=
    Header.get_setAll _ _ securityFields_once (by simp [securityFields])
  have error : ∀ (h : Header) (message : String) (status : Nat),
      (∀ name ∈ presetNames, h.get name = (presetHeader p corsOrigin r).get name) →
      Shielded p corsOrigin r (httpError h message status) := by
    intro h message status kept
    refine shielded_of_foreign asked ?_ rfl
    intro name listed
    by_cases same : name = "X-Content-Type-Options"
    · rw [same, sniffing]
      exact Header.get_setAll _ _ (by simp) (by simp)
    · obtain ⟨notType, _⟩ := preset_foreign listed
      rw [← kept name listed]
      exact Header.get_setAll_other _ _ (by simp [notType, same])
  cases answer with
  | badRequest => exact shielded_of_foreign asked (fun _ _ => rfl) rfl
  | notFound => exact error _ _ _ (fun _ _ => rfl)
  | methodNotAllowed allowed =>
      refine error _ _ _ ?_
      intro name listed
      obtain ⟨_, _, notAllow, _⟩ := preset_foreign listed
      exact Header.get_set_other _ _ notAllow
  | redirect url =>
      refine shielded_of_foreign asked ?_ rfl
      intro name listed
      obtain ⟨notType, _, _, notLocation⟩ := preset_foreign listed
      simp only [redirect]
      split
      · rw [Header.get_set_other _ _ notType, Header.get_set_other _ _ notLocation]
      · exact Header.get_set_other _ _ notLocation

/-- Whatever request gets to the handler, in whatever state the server is. -/
theorem responses_shielded (p : Platform) (corsOrigin : String) (w : World σ)
    (arriving : Arriving) (response : Response)
    (answered : ((frontDoor p corsOrigin).step w arriving).2.response = some response) :
    Shielded p corsOrigin arriving.request response := by
  cases frontDoor_step (p := p) corsOrigin w arriving with
  | serverWide wide _ result =>
      rw [result] at answered
      cases answered
      refine ⟨?_, fun asked => absurd wide.2 asked⟩
      intro field listed
      have foreign : ∀ name ∈ (corsFields "").map Prod.fst,
          Header.get [("Content-Length", "0")] name = "" := by decide
      rw [if_neg fun both => both.1 wide]
      exact foreign field.1 (corsFields_names listed)
  | preflight specific asked _ result =>
      rw [result] at answered
      cases answered
      refine ⟨?_, fun others => absurd asked others⟩
      intro field listed
      dsimp only
      by_cases admitted :
          admits p.unicode (allowedOrigins corsOrigin) arriving.request.origin = true
      · rw [if_pos admitted, if_pos ⟨specific, admitted⟩]
        exact Header.get_setAll _ _ (corsFields_once _) listed
      · rw [if_neg admitted, if_neg fun both => admitted both.2]
        rfl
  | unrouted asked _ answer result =>
      rw [result] at answered
      cases answered
      obtain ⟨cors, security⟩ := shielded_answer asked answer
      exact ⟨by rwa [withoutBody_headers], by rwa [withoutBody_headers]⟩
  | routed asked incoming _ result =>
      rw [result] at answered
      obtain ⟨plainResponse, served, rfl⟩ := Option.map_eq_some_iff.mp answered
      refine shielded_of_foreign asked ?_ (withoutBody_headers _ _)
      intro name listed
      obtain ⟨notType, notRetry, _⟩ := preset_foreign listed
      refine Header.get_setAll_other _ _ ?_
      intro own
      obtain ⟨field, member, same⟩ := List.mem_map.mp own
      have written : (field.1, field.2) ∈ plainResponse.headers := member
      rcases (plain_step served).headers written with
        isType | isRetry
      · exact notType (same ▸ isType)
      · exact notRetry (same ▸ isRetry)

/-- The question that a browser asks before a page of another origin may post. -/
def mayPost (origin : String) : Arriving where
  env := plainEnv 0 "n-1"
  request := {
    method := "OPTIONS"
    requestURI := "/api/v1/policies"
    path := "/api/v1/policies"
    origin := origin }

theorem responses_shielded_preflight :
    Shielded plainPlatform "" (mayPost "http://localhost:5173").request
      { status := 204, headers := corsFields "http://localhost:5173", body := .raw "" } :=
  responses_shielded plainPlatform "" plainWorld (mayPost "http://localhost:5173") _
    rfl

end Nexus.Server
