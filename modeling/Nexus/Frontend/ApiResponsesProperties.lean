import Nexus.Frontend.ApiResponses
import Nexus.Frontend.JourneyProperties
import Nexus.Server.ResponseProperties

/-! A call of the client and its answer, there and back. -/

set_option autoImplicit false

namespace Nexus.Frontend

open Nexus.Lib Nexus.Go Nexus.Users Nexus.Auth Nexus.Policy Nexus.Server Nexus.JavaScript
open Nexus.JavaScript.Json

variable {σ : Type} [UserStore σ] {p : Platform}

/-! ## Values -/

theorem ok_iff (status : ℕ) : ok status = true ↔ status / 100 = 2 := by
  simp only [ok, Bool.and_eq_true, decide_eq_true_eq]
  omega

theorem ofString_eq_nil {text : String} : ofString text = [] ↔ text = "" := by
  constructor
  · intro empty
    exact ofString_injective empty
  · rintro rfl
    rfl

theorem property_view (name text : String) :
    (view (.obj [(name, .str text)])).property name = some (.string (ofString text)) := by
  simp [view, viewFields, viewField, Value.property]

theorem property_other {name other : String} (different : other ≠ name) (text : String) :
    (view (.obj [(other, .str text)])).property name = none := by
  have units : ofString other ≠ ofString name := fun same => different (ofString_injective same)
  simp [view, viewFields, viewField, Value.property, units]

/-- The message of an error that the server wrote. -/
theorem errorMessage_error (message : String) (status : ℕ) :
    errorMessage (view (.obj [("error", .str message)])) status =
      .string (ofString (if message = "" then
        "Request failed with status " ++ toString status
      else message)) := by
  rw [errorMessage, property_view, property_other (by decide), either]
  by_cases empty : message = ""
  · rw [if_pos empty, empty]
    rfl
  · have truthy : (Value.string (ofString message)).truthy = true := by
      simp [Value.truthy, ofString_eq_nil, empty]
    rw [if_neg empty]
    simp only [truthy, if_true]

/-! ## Answers -/

/-- What the answer of a handler comes to in the browser. -/
inductive Understood : Option Response → Settled → Prop where
  | granted {status : ℕ} {value : Go.Json} (fine : status / 100 = 2)
      (marshals : value.marshals = true) :
      Understood (some (writeJSON status value)) (.resolved (view value.sortMaps))
  | unwritten {status : ℕ} {value : Go.Json} (fine : status / 100 = 2)
      (unreadable : value.marshals = false) :
      Understood (some (writeJSON status value)) (.resolved .null)
  | refused {status : ℕ} {message : String} (failed : status / 100 ≠ 2) (told : message ≠ "") :
      Understood (some (writeError status message)) (.refused (.string (ofString message)))
  | unexplained {status : ℕ} (failed : status / 100 ≠ 2) :
      Understood (some (writeError status ""))
        (.refused (.string (ofString ("Request failed with status " ++ toString status))))
  | limited :
      Understood (some rateLimited) (.refused (.string
        (ofString "too many failed login attempts; try again in 15 minutes")))
  | healthy :
      Understood (some healthy) (.resolved (.object [
        (ofString "status", .string (ofString "ok")),
        (ofString "service", .string (ofString "nexus-identity-platform"))]))
  | silent : Understood none .broken

/-- An object that a handler writes out by hand is read like one that is encoded. -/
theorem responseJson_raw {text : String} {fields : List (String × Go.Json)}
    (distinct : Distinct (.obj fields)) (same : ofString text = units (encode (.obj fields))) :
    responseJson (.raw text) = some (view (.obj fields)) := by
  rw [responseJson, Body.text, same]
  exact parse_encode_obj distinct

theorem responseJson_healthy : responseJson healthy.body = some (.object [
    (ofString "status", .string (ofString "ok")),
    (ofString "service", .string (ofString "nexus-identity-platform"))]) := by
  have distinct : Distinct (.obj [("status", .str "ok"),
      ("service", .str "nexus-identity-platform")]) :=
    ⟨by decide, trivial, trivial, trivial⟩
  exact responseJson_raw distinct (by decide +kernel)

theorem responseJson_rateLimited : responseJson rateLimited.body = some (view (.obj [("error",
    .str "too many failed login attempts; try again in 15 minutes")])) :=
  responseJson_raw ⟨by decide, trivial, trivial⟩ (by decide +kernel)

/-- The headers of the middleware do not matter to the client. -/
theorem settle_shown (call : ApiCall) (corsOrigin : String) (network : Network)
    (response : Option Response) :
    call.settle (response.map (shown p corsOrigin network)) = call.settle response := by
  cases response <;> rfl

theorem settle_request {call : ApiCall} (asks : call ≠ .checkHealth) (response : Response) :
    call.settle (some response) =
      if ok response.status then .resolved ((responseJson response.body).getD .null)
      else .refused (errorMessage ((responseJson response.body).getD .null) response.status) := by
  cases call with
  | checkHealth => exact absurd rfl asks
  | _ => rfl

theorem settle_checkHealth : ApiCall.checkHealth.settle (some healthy) = .resolved (.object [
    (ofString "status", .string (ofString "ok")),
    (ofString "service", .string (ofString "nexus-identity-platform"))]) := by
  simp only [ApiCall.settle, responseJson_healthy]

theorem understood_request {call : ApiCall} (asks : call ≠ .checkHealth) {response : Response}
    (plain : Plain response) (distinct : DistinctBody response.body) :
    Understood (some response) (call.settle (some response)) := by
  rw [settle_request asks]
  cases plain with
  | granted status value fine written =>
      subst written
      have good : ok status = true := (ok_iff status).mpr fine
      have read : responseJson (writeJSON status value).body = _ := responseJson_json distinct
      rw [read, writeJSON_status, if_pos good]
      cases marshals : value.marshals with
      | true => exact .granted fine marshals
      | false => exact .unwritten fine marshals
  | refused status message failed written =>
      subst written
      have bad : ok status ≠ true := fun good => failed ((ok_iff status).mp good)
      have read : responseJson (writeError status message).body =
          some (view (.obj [("error", .str message)])) := responseJson_json distinct
      rw [read, writeError_status, if_neg bad, Option.getD_some, errorMessage_error]
      by_cases told : message = ""
      · subst told
        exact .unexplained failed
      · rw [if_neg told]
        exact .refused failed told
  | health written =>
      subst written
      rw [responseJson_healthy]
      exact .healthy
  | limited written =>
      subst written
      rw [responseJson_rateLimited, Option.getD_some, errorMessage_error]
      exact .limited

theorem understood_step (w : World σ) (maps : MapTrail w) (call : ApiCall) (client : ApiClient)
    (network : Network) (env : Env) :
    Understood ((server p).step w (call.incoming client network env)).2.response
      (call.settle ((server p).step w (call.incoming client network env)).2.response) := by
  by_cases health : call = .checkHealth
  · subst health
    have answered : ((server p).step w
        (ApiCall.checkHealth.incoming client network env)).2.response = some healthy := rfl
    rw [answered, settle_checkHealth]
    exact .healthy
  · have distinct := (clean_step (p := p) w (call.incoming client network env) maps).1
    cases answered : ((server p).step w (call.incoming client network env)).2.response with
    | none => cases call <;> exact .silent
    | some response =>
        exact understood_request health (plain_step answered) (distinct response answered)

/-! ## Round trips -/

theorem frontDoor_run_maps {start : World σ} (maps : MapTrail start) (corsOrigin : String)
    (events : List Arriving) : MapTrail ((frontDoor p corsOrigin).run start events) := by
  have kept : ∀ (w : World σ) (arriving : Arriving), True → MapTrail w →
      MapTrail ((frontDoor p corsOrigin).step w arriving).1 := by
    intro w arriving _ maps
    rw [frontDoor_state]
    cases arriving.incoming with
    | none => exact maps
    | some incoming => exact (clean_step w incoming maps).2
  exact (frontDoor p corsOrigin).run_invariant kept maps fun _ _ => trivial

/-- A policy whose name has a quotation mark, an umlaut, a line feed and a pair of
surrogates. -/
def nightShift : PolicyDraft where
  name := [0x22, 0xFC, 0x0A, 0xD83C, 0xDF19]
  role := ofString "developer"
  application := ofString "aws-console"
  requireMFA := true
  requireTrustedDevice := false
  maxRiskScore := ⟨-7, by decide⟩
  decision := ofString "ALLOW"
  enabled := true

theorem nightShift_sendable : (ApiCall.createPolicy nightShift).Sendable := by
  rintro members ⟨⟩
  refine ⟨?_, by decide +kernel⟩
  simp only [PolicyDraft.members, List.forall_mem_cons]
  refine ⟨?_, ofString_isString _, ofString_isString _, trivial, trivial, trivial,
    ofString_isString _, trivial, List.forall_mem_nil _⟩
  exact List.all_iff_forall_prop.mp (by decide)

def alicesNetwork : Network := ⟨"", "", "192.0.2.7:50000"⟩

end Nexus.Frontend
