import Nexus.JavaScript.EncodeProperties
import Nexus.Audit.TrailProperties
import Nexus.Server.GuardProperties

/-! Every body the server sends is read by a browser as the value that the
handler wrote: no object repeats a name, whatever the trail has come to hold. -/

set_option autoImplicit false

namespace Nexus.Server

open Nexus.Lib Nexus.Go Nexus.Users Nexus.Auth Nexus.Audit Nexus.Policy
open Nexus.JavaScript.Json (Distinct DistinctItems DistinctFields distinctItems_iff
  distinctFields_iff responseJson responseJson_json view)

variable {σ : Type}

/-! ## Values -/

theorem distinct_error (message : String) :
    Distinct (.obj [("error", .str message)]) := by
  simp [Distinct, DistinctFields, JavaScript.Json.DistinctField]

theorem distinct_sublist {fewer fields : List (String × Json)} (kept : fewer.Sublist fields)
    (distinct : Distinct (.obj fields)) : Distinct (.obj fewer) := by
  refine ⟨distinct.1.sublist (kept.map Prod.fst), ?_⟩
  rw [distinctFields_iff]
  intro field listed
  exact (distinctFields_iff fields).mp distinct.2 field (kept.subset listed)

theorem omitEmpty_sublist (name value : String) :
    (Json.omitEmpty name value).Sublist [(name, .str value)] := by
  unfold Json.omitEmpty
  split
  · exact List.nil_sublist _
  · exact List.Sublist.refl _

theorem distinct_publicUser (u : PublicUser) : Distinct (publicUserJson u) := by
  refine distinct_sublist (((List.Sublist.refl _).append
    (omitEmpty_sublist "organization_id" u.organizationID)).append_right _) ?_
  simp [Distinct, DistinctFields, JavaScript.Json.DistinctField]

theorem distinct_policy (p : Policy) : Distinct (policyJson p) := by
  simp [policyJson, Distinct, DistinctFields, JavaScript.Json.DistinctField]

theorem distinct_result (result : Result) : Distinct (resultJson result) := by
  refine distinct_sublist ((List.Sublist.refl _).append
    (omitEmpty_sublist "policy_id" result.policyID)) ?_
  simp [Distinct, DistinctFields, JavaScript.Json.DistinctField]

/-- The metadata of an event is a map. -/
def IsMap (event : Event) : Prop := (event.metadata.map Prod.fst).Nodup

theorem distinct_event {event : Event} (map : IsMap event) : Distinct event.toJson := by
  let entries : List (String × Json) :=
    event.metadata.map fun entry => (entry.1, .str entry.2)
  have metadata : Distinct (.obj entries) := by
    refine ⟨?_, ?_⟩
    · rw [List.map_map]
      exact map
    · rw [distinctFields_iff]
      intro field listed
      obtain ⟨entry, _, rfl⟩ := List.mem_map.mp listed
      trivial
  have optional : (if event.metadata = [] then [] else [("metadata", Json.obj entries)]).Sublist
      [("metadata", Json.obj entries)] := by
    split
    · exact List.nil_sublist _
    · exact List.Sublist.refl _
  refine distinct_sublist (((((((List.Sublist.refl _).append
    (omitEmpty_sublist "user_id" event.userID)).append (List.Sublist.refl _)).append
    (omitEmpty_sublist "resource" event.resource)).append
    (omitEmpty_sublist "ip_address" event.ipAddress)).append
    (omitEmpty_sublist "user_agent" event.userAgent)).append optional |>.append_right _) ?_
  simpa [Distinct, DistinctFields, JavaScript.Json.DistinctField] using metadata

/-! ## Handlers -/

/-- A JSON body, if it is one, repeats no name. -/
def DistinctBody : Body → Prop
  | .json value => Distinct value
  | .raw _ => True

def DistinctReply (reply : Reply) : Prop :=
  ∀ response, reply.response = some response → DistinctBody response.body

/-- All metadata on the trail are maps. -/
def MapTrail (w : World σ) : Prop := ∀ event ∈ w.audit.events, IsMap event

theorem distinctReply_respond {status : Nat} {value : Json} (distinct : Distinct value) :
    DistinctReply (respond (writeJSON status value)) := by
  intro response same
  cases same
  exact distinct

theorem distinctReply_error (status : Nat) (message : String) :
    DistinctReply (respond (writeError status message)) :=
  distinctReply_respond (distinct_error message)

theorem distinctReply_panicked : DistinctReply panicked := nofun

/-- The reply repeats no name, and the trail keeps to maps. -/
def Clean (_ : Env) (serve : World σ → World σ × Reply) (w : World σ) : Prop :=
  MapTrail w → DistinctReply (serve w).2 ∧ MapTrail (serve w).1

theorem mapTrail_log {w : World σ} (maps : MapTrail w) (env : Env) {event : Event}
    (map : IsMap event) : MapTrail (w.log env event) := by
  intro other listed
  rcases List.mem_append.mp listed with before | added
  · exact maps other before
  · have filled : other = event.filled env := List.mem_singleton.mp added
    have same := congrArg Event.metadata (Event.anonymous_filled env event)
    have metadata : (event.filled env).metadata = event.metadata := same
    rw [filled, IsMap, metadata]
    exact map

theorem clean_observed {handler : HandlerFunc σ} (clean : Everywhere Clean handler) :
    Everywhere Clean (observed handler) := by
  intro env r ctx w maps
  exact clean env r ctx w maps

theorem clean_withRateLimit (next : HandlerFunc σ) (clean : Everywhere Clean next) :
    Everywhere Clean (withRateLimit next) := by
  intro env r ctx w maps
  by_cases exhausted : w.limiter.isRateLimited env r.remoteAddr = .ok true
  · rw [withRateLimit_of_limited exhausted]
    refine ⟨?_, mapTrail_log maps env List.nodup_nil⟩
    intro response same
    cases same
    trivial
  · rw [withRateLimit_of_unlimited exhausted]
    exact clean env r ctx w maps

/-! ## Handlers -/

section
variable [UserStore σ] {p : Platform}

theorem clean_register (body : Option RegisterRequest) :
    Everywhere Clean (Auth.Handler.register p body : HandlerFunc σ) := by
  intro env r ctx w maps
  unfold Auth.Handler.register
  cases body with
  | none => exact ⟨distinctReply_error 400 _, maps⟩
  | some req =>
      dsimp only
      generalize p.service.register env w.store _ = outcome
      obtain ⟨store, result⟩ := outcome
      cases result with
      | error err =>
          refine ⟨?_, mapTrail_log maps env (by simp [IsMap])⟩
          simp only [registerError]
          repeat' split
          all_goals exact distinctReply_error _ _
      | ok u =>
          refine ⟨distinctReply_respond ?_, mapTrail_log maps env (by simp [IsMap])⟩
          have user := distinct_publicUser u.toPublic
          simpa [Distinct, DistinctFields, JavaScript.Json.DistinctField] using user

theorem clean_login (body : Option LoginRequest) :
    Everywhere Clean (Auth.Handler.login p body : HandlerFunc σ) := by
  intro env r ctx w maps
  unfold Auth.Handler.login
  cases body with
  | none => exact ⟨distinctReply_error 400 _, maps⟩
  | some req =>
      dsimp only
      split
      · split
        · exact ⟨distinctReply_error 401 _, mapTrail_log maps env (by simp [IsMap])⟩
        · exact ⟨distinctReply_error 500 _, maps⟩
      · refine ⟨distinctReply_respond ?_, mapTrail_log maps env (by simp [IsMap])⟩
        simp [Distinct, DistinctFields, JavaScript.Json.DistinctField]

theorem clean_mfaVerify (body : Option MFAVerifyRequest) :
    Everywhere Clean (Auth.Handler.mfaVerify p body : HandlerFunc σ) := by
  intro env r ctx w maps
  simp only [Auth.Handler.mfaVerify]
  repeat' split
  all_goals first
    | exact ⟨distinctReply_error _ _, maps⟩
    | exact ⟨distinctReply_panicked, maps⟩
    | exact ⟨distinctReply_error _ _, mapTrail_log maps env List.nodup_nil⟩
    | refine ⟨distinctReply_respond ?_, mapTrail_log maps env List.nodup_nil⟩
  simp [Distinct, DistinctFields, JavaScript.Json.DistinctField]

end

theorem clean_checkAccess (body : Option AccessCheckRequest) :
    Everywhere Clean (Policy.Handler.checkAccess body : HandlerFunc σ) := by
  intro env r ctx w maps
  simp only [Policy.Handler.checkAccess]
  repeat' split
  all_goals first
    | exact ⟨distinctReply_error _ _, maps⟩
    | exact ⟨distinctReply_respond (distinct_result _),
        mapTrail_log maps env (by simp [IsMap, accessEvent])⟩

theorem clean_createPolicy (body : Option CreatePolicyRequest) :
    Everywhere Clean (Policy.Handler.createPolicy body : HandlerFunc σ) := by
  intro env r ctx w maps
  simp only [Policy.Handler.createPolicy]
  repeat' split
  all_goals first
    | exact ⟨distinctReply_error _ _, maps⟩
    | exact ⟨distinctReply_panicked, maps⟩
    | exact ⟨distinctReply_respond (distinct_policy _), mapTrail_log maps env (by simp [IsMap])⟩

theorem clean_deletePolicy (id : String) :
    Everywhere Clean (Policy.Handler.deletePolicy id : HandlerFunc σ) := by
  intro env r ctx w maps
  simp only [Policy.Handler.deletePolicy]
  repeat' split
  all_goals first
    | exact ⟨distinctReply_error _ _, maps⟩
    | exact ⟨distinctReply_panicked, maps⟩
    | refine ⟨distinctReply_respond ?_, mapTrail_log maps env List.nodup_nil⟩
  simp [Distinct, DistinctFields, JavaScript.Json.DistinctField]

theorem clean_list (page pageSize : String) :
    Everywhere Clean (Audit.Handler.list page pageSize : HandlerFunc σ) := by
  intro env r ctx w maps
  simp only [Audit.Handler.list]
  split
  · exact ⟨distinctReply_panicked, maps⟩
  · rename_i events total listed
    refine ⟨distinctReply_respond ?_, maps⟩
    have all : DistinctItems (events.map Event.toJson) := by
      rw [distinctItems_iff]
      intro item member
      obtain ⟨event, shows, rfl⟩ := List.mem_map.mp member
      have onTrail := (MemoryLogger.list_sublist listed).subset shows
      exact distinct_event (maps event (List.mem_reverse.mp onTrail))
    simpa [Distinct, DistinctFields, JavaScript.Json.DistinctField] using all

variable [UserStore σ] {p : Platform}

theorem clean_handler (route : Route) : Everywhere Clean (route.handler p : HandlerFunc σ) := by
  cases route with
  | register body => exact clean_register (p := p) body
  | login body => exact clean_login (p := p) body
  | mfaVerify body => exact clean_mfaVerify (p := p) body
  | checkAccess body => exact clean_checkAccess body
  | createPolicy body => exact clean_createPolicy body
  | deletePolicy id => exact clean_deletePolicy id
  | listAudit page pageSize => exact clean_list page pageSize
  | health =>
      intro env r ctx w maps
      refine ⟨?_, maps⟩
      intro response same
      cases same
      trivial
  | me | mfaSetup | adminOnly | userOrAdmin =>
      intro env r ctx w maps
      simp only [Route.handler, Auth.Handler.me, Auth.Handler.mfaSetup, Auth.Handler.adminOnly,
        Auth.Handler.userOrAdmin, greeting]
      repeat' split
      all_goals first
        | exact ⟨distinctReply_error _ _, maps⟩
        | exact ⟨distinctReply_panicked, maps⟩
        | exact ⟨distinctReply_respond (distinct_publicUser _), maps⟩
        | exact ⟨distinctReply_respond
            (by simp [Distinct, DistinctFields, JavaScript.Json.DistinctField]), maps⟩
  | listUsers =>
      intro env r ctx w maps
      simp only [Route.handler, Auth.Handler.listUsers]
      split
      · exact ⟨distinctReply_error _ _, maps⟩
      · rename_i userList _
        refine ⟨distinctReply_respond ?_, maps⟩
        have all : DistinctItems (userList.map fun u => publicUserJson u.toPublic) := by
          rw [distinctItems_iff]
          intro item member
          obtain ⟨u, _, rfl⟩ := List.mem_map.mp member
          exact distinct_publicUser u.toPublic
        simpa [Distinct, DistinctFields, JavaScript.Json.DistinctField] using all
  | listPolicies =>
      intro env r ctx w maps
      refine ⟨distinctReply_respond ?_, maps⟩
      have all : DistinctItems
          ((w.engine.listPolicies (env.range w.engine.policies)).map policyJson) := by
        rw [distinctItems_iff]
        intro item member
        obtain ⟨policy, _, rfl⟩ := List.mem_map.mp member
        exact distinct_policy policy
      simpa [Distinct, DistinctFields, JavaScript.Json.DistinctField] using all

/-! ## Every answer of every run -/

theorem clean_step (w : World σ) (incoming : Incoming) (maps : MapTrail w) :
    DistinctReply ((server p).step w incoming).2 ∧ MapTrail ((server p).step w incoming).1 := by
  have route : Everywhere Clean (registerRoutes p incoming.route : HandlerFunc σ) :=
    everywhere_route (fun _ w status message maps => ⟨distinctReply_error status message, maps⟩)
      clean_withRateLimit (clean_observed (clean_handler incoming.route))
  exact route incoming.env incoming.request none w maps

/-- The browser reads a JSON body as the value it was made from, numbers being
compared by their literals; only instants that no four-digit year holds leave the
body empty. -/
def ReadBack (next : Transition (World σ) Incoming Reply) : Prop :=
  ∀ response value, next.output.response = some response → response.body = .json value →
    responseJson response.body =
      if value.marshals then some (view value.sortMaps) else none

theorem responses_read_back (p : Platform) {start : World σ} (maps : MapTrail start)
    (events : List Incoming) :
    (server p).Always (fun _ next => ReadBack next) start events := by
  intro past incoming future _ response value answered written
  have kept : ∀ (w : World σ) incoming, True → MapTrail w →
      MapTrail ((server p).step w incoming).1 :=
    fun w incoming _ maps => (clean_step w incoming maps).2
  have mapsThen : MapTrail ((server p).run start past) :=
    (server p).run_invariant kept maps fun _ _ => trivial
  have distinct := (clean_step ((server p).run start past) incoming mapsThen).1 response answered
  rw [written] at distinct ⊢
  exact responseJson_json distinct

/-- A world that remembers an access that was denied. -/
def wary : World MemoryUserStore :=
  plainWorld.log (plainEnv 0 "e-0") {
    userID := "u-2"
    action := actionAccessDenied
    resource := "vault"
    metadata := [("decision", decisionDeny), ("reason", "<none>")] }

theorem responses_read_back_alice :
    (server plainPlatform).Always (fun _ next => ReadBack next) wary
      [aliceSends (.checkAccess (some { application := "aws-console" })),
        aliceSends (.listAudit "1" "20")] := by
  refine responses_read_back plainPlatform ?_ _
  exact mapTrail_log (fun _ listed => absurd listed List.not_mem_nil) _ (by simp [IsMap])

end Nexus.Server
