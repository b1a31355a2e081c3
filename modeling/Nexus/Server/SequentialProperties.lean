import Nexus.Lib.Refinement
import Nexus.Server.Concurrent
import Nexus.Server.GuardProperties

/-! Interleaved requests against requests served one after the other. But for
what the trail looks like while events wait to be appended, the server of
`Concurrent` is the server of `Routes`, run on the requests in the order in
which they act. -/

set_option autoImplicit false

namespace Nexus.Server

open Nexus.Lib Nexus.Go Nexus.Users Nexus.Auth Nexus.Audit Nexus.Policy

variable {σ : Type}

/-! ## Handlers that do not read the trail -/

/-- The world with another trail. -/
def World.withTrail (w : World σ) (events : List Event) : World σ :=
  { w with audit := { events := events } }

@[simp] theorem World.withTrail_store (w : World σ) (events : List Event) :
    (w.withTrail events).store = w.store := rfl

@[simp] theorem World.withTrail_engine (w : World σ) (events : List Event) :
    (w.withTrail events).engine = w.engine := rfl

@[simp] theorem World.withTrail_limiter (w : World σ) (events : List Event) :
    (w.withTrail events).limiter = w.limiter := rfl

@[simp] theorem World.withTrail_events (w : World σ) (events : List Event) :
    (w.withTrail events).audit.events = events := rfl

@[simp] theorem World.withTrail_withTrail (w : World σ) (events later : List Event) :
    (w.withTrail events).withTrail later = w.withTrail later := rfl

@[simp] theorem World.withTrail_same (w : World σ) : w.withTrail w.audit.events = w := rfl

/-- The request appends to the trail, and what it does depends on the rest of
the world only. -/
def Blind (_ : Env) (serve : World σ → World σ × Reply) (w : World σ) : Prop :=
  ∃ added, ∀ events,
    serve (w.withTrail events) = ((serve w).1.withTrail (events ++ added), (serve w).2)

/-- A reply that leaves the world alone. -/
theorem blind_of_silent (w : World σ) (reply : Reply) : ∃ added, ∀ events,
    (w.withTrail events, reply) = (w.withTrail (events ++ added), reply) :=
  ⟨[], fun events => by rw [List.append_nil]⟩

/-- A reply after one event. -/
theorem blind_of_log (w : World σ) (env : Env) (event : Event) (reply : Reply) :
    ∃ added, ∀ events, ((w.withTrail events).log env event, reply) =
      ((w.log env event).withTrail (events ++ added), reply) :=
  ⟨[event.filled env], fun _ => rfl⟩

theorem blind_observed {handler : HandlerFunc σ} (blind : Everywhere Blind handler) :
    Everywhere Blind (observed handler) := by
  intro env r ctx w
  obtain ⟨added, same⟩ := blind env r ctx w
  refine ⟨added, fun events => ?_⟩
  simp only [observed, same]

theorem blind_withRateLimit (next : HandlerFunc σ) (blind : Everywhere Blind next) :
    Everywhere Blind (withRateLimit next) := by
  intro env r ctx w
  by_cases exhausted : w.limiter.isRateLimited env r.remoteAddr = .ok true
  · obtain ⟨added, same⟩ := blind_of_log w env (limitedEvent r) (respond rateLimited)
    refine ⟨added, fun events => ?_⟩
    have still : (w.withTrail events).limiter.isRateLimited env r.remoteAddr = .ok true :=
      exhausted
    rw [withRateLimit_of_limited exhausted, withRateLimit_of_limited still, same]
  · obtain ⟨added, same⟩ := blind env r ctx w
    refine ⟨added, fun events => ?_⟩
    have still : (w.withTrail events).limiter.isRateLimited env r.remoteAddr ≠ .ok true :=
      exhausted
    rw [withRateLimit_of_unlimited exhausted, withRateLimit_of_unlimited still, same]

def Route.listsAudit : Route → Bool
  | .listAudit _ _ => true
  | _ => false

theorem blind_register [UserStore σ] {p : Platform} (body : Option RegisterRequest) :
    Everywhere Blind (Auth.Handler.register p body : HandlerFunc σ) := by
  intro env r ctx w
  unfold Blind
  simp only [Auth.Handler.register, World.withTrail_store]
  cases body with
  | none => exact blind_of_silent w _
  | some req =>
      dsimp only
      generalize p.service.register env w.store _ = outcome
      obtain ⟨store, result⟩ := outcome
      cases result with
      | error err => exact blind_of_log { w with store := store } env _ _
      | ok u => exact blind_of_log { w with store := store } env _ _

theorem blind_createPolicy (body : Option CreatePolicyRequest) :
    Everywhere Blind (Policy.Handler.createPolicy body : HandlerFunc σ) := by
  intro env r ctx w
  unfold Blind
  simp only [Policy.Handler.createPolicy, World.withTrail_engine]
  cases body with
  | none => exact blind_of_silent w _
  | some req =>
      dsimp only
      split
      · exact blind_of_silent w _
      · let changed : World σ := {
          w with engine := (w.engine.createPolicy env.newID req.policy).1 }
        cases ctx with
        | none => exact blind_of_silent changed _
        | some claims => exact blind_of_log changed env _ _

theorem blind_deletePolicy (id : String) :
    Everywhere Blind (Policy.Handler.deletePolicy id : HandlerFunc σ) := by
  intro env r ctx w
  unfold Blind
  simp only [Policy.Handler.deletePolicy, World.withTrail_engine]
  split
  · exact blind_of_silent w _
  · generalize w.engine.deletePolicy id = outcome
    obtain ⟨engine, result⟩ := outcome
    let changed : World σ := { w with engine := engine }
    cases result with
    | error err => exact blind_of_silent changed _
    | ok _ =>
        cases ctx with
        | none => exact blind_of_silent changed _
        | some claims => exact blind_of_log changed env _ _

variable [UserStore σ] {p : Platform}

theorem blind_handler {route : Route} (other : route.listsAudit = false) :
    Everywhere Blind (route.handler p : HandlerFunc σ) := by
  cases route with
  | listAudit => cases other
  | register body => exact blind_register body
  | createPolicy body => exact blind_createPolicy body
  | deletePolicy id => exact blind_deletePolicy id
  | health | me | mfaSetup | adminOnly | userOrAdmin | listUsers | listPolicies =>
      intro env r ctx w
      unfold Blind
      simp only [Route.handler, Server.health, Auth.Handler.me, Auth.Handler.mfaSetup,
        Auth.Handler.adminOnly, Auth.Handler.userOrAdmin, greeting, Auth.Handler.listUsers,
        Policy.Handler.listPolicies, World.withTrail_store, World.withTrail_engine]
      repeat' split
      all_goals exact blind_of_silent w _
  | login | mfaVerify | checkAccess =>
      intro env r ctx w
      unfold Blind
      simp only [Route.handler, Auth.Handler.login, Auth.Handler.mfaVerify,
        Policy.Handler.checkAccess, World.withTrail_store, World.withTrail_engine]
      repeat' split
      all_goals first | exact blind_of_silent w _ | exact blind_of_log w env _ _

theorem blind_route {route : Route} (other : route.listsAudit = false) :
    Everywhere Blind (registerRoutes p route : HandlerFunc σ) :=
  everywhere_route (fun _ w _ _ => blind_of_silent w _) blind_withRateLimit
    (blind_observed (blind_handler other))

/-- Listing the trail is let through or refused whatever the trail holds, and
changes nothing. -/
theorem step_listAudit {w : World σ} {incoming : Incoming}
    (listing : incoming.route.listsAudit = true) (events : List Event) :
    ((server p).step w incoming).1 = w ∧
      ((server p).step (w.withTrail events) incoming).2.entered =
        ((server p).step w incoming).2.entered := by
  obtain ⟨env, request, route⟩ := incoming
  cases route with
  | listAudit page pageSize =>
      have reads : ∀ ctx, (Audit.Handler.list page pageSize env request ctx w).1 = w :=
        fun ctx => @handler_readsOnly σ _ p (.listAudit page pageSize) rfl env request ctx w
      simp only [server, registerRoutes, requireAuth, requireAnyRole]
      repeat' split
      all_goals first
        | exact ⟨rfl, rfl⟩
        | exact ⟨(observed_state _ _ _ _ w).trans (reads _), rfl⟩
  | _ => cases listing

/-! ## What a client learns apart from the trail -/

/-- An answer without the trail it shows. -/
def Answered.apartFromTrail (answered : Answered) : Answered :=
  if answered.incoming.route.listsAudit then
    { answered with reply.response := none }
  else answered

/-- The answer of one step of the server. -/
def answerOf (next : Transition (World σ) Incoming Reply) : Answered where
  incoming := next.event
  reply := next.output

/-- A step does and answers the same whatever the trail holds. -/
theorem step_withTrail (w : World σ) (incoming : Incoming) :
    ∃ added, ((server p).step w incoming).1.audit.events = w.audit.events ++ added ∧
      ∀ events,
        ((server p).step (w.withTrail events) incoming).1 =
            ((server p).step w incoming).1.withTrail (events ++ added) ∧
          (answerOf ((server p).fire (w.withTrail events) incoming)).apartFromTrail =
            (answerOf ((server p).fire w incoming)).apartFromTrail := by
  by_cases listing : incoming.route.listsAudit = true
  · refine ⟨[], ?_, fun events => ⟨?_, ?_⟩⟩
    · rw [(step_listAudit listing []).1, List.append_nil]
    · rw [(step_listAudit listing []).1, (step_listAudit listing []).1, List.append_nil]
    · simp only [Answered.apartFromTrail, answerOf, Machine.fire_event, listing, if_true,
        Machine.fire_output]
      rw [(step_listAudit listing events).2]
  · have other : incoming.route.listsAudit = false := Bool.eq_false_iff.mpr listing
    obtain ⟨added, same⟩ := blind_route (p := p) other incoming.env incoming.request none w
    refine ⟨added, ?_, fun events => ⟨congrArg Prod.fst (same events), ?_⟩⟩
    · have whole := congrArg (fun outcome => outcome.1.audit.events) (same w.audit.events)
      exact whole
    · have both : (server p).step (w.withTrail events) incoming =
          (((server p).step w incoming).1.withTrail (events ++ added),
            ((server p).step w incoming).2) := same events
      have reply := congrArg Prod.snd both
      simp only [answerOf, Machine.fire_event, Machine.fire_output, reply]

/-! ## One step of the traffic -/

/-- The request that a step of the traffic serves, if it serves one. -/
def Traffic.serves (s : Traffic σ) : Progress → Option Incoming
  | .act position =>
      match s.inFlight[position]? with
      | some { incoming, stage := .arrived } => some incoming
      | _ => none
  | _ => none

/-- The answer that a request in flight waits to be given. -/
def Flight.pending : Flight → Option Answered
  | { incoming := _, stage := .arrived } => none
  | { incoming, stage := .acted _ reply } => some { incoming := incoming, reply := reply }

def Traffic.pending (s : Traffic σ) : List Answered := s.inFlight.filterMap Flight.pending

def answers (past : List (Transition (Traffic σ) Progress (Option Answered))) :
    List Answered :=
  past.filterMap Transition.output

/-- A step that serves no request moves an event to the trail or an answer to
its client, at most. -/
theorem stutter {s : Traffic σ} {event : Progress} (idle : s.serves event = none) :
    ((traffic p).step s event).1.world =
        s.world.withTrail ((traffic p).step s event).1.world.audit.events ∧
      (((traffic p).step s event).1.world.audit.events ++
        ((traffic p).step s event).1.unlogged).Perm (s.world.audit.events ++ s.unlogged) ∧
      (((traffic p).step s event).2.toList ++ ((traffic p).step s event).1.pending).Perm
        s.pending := by
  cases event with
  | arrive incoming =>
      simp [traffic, Traffic.unlogged, Traffic.pending, Flight.unlogged, Flight.pending,
        List.filterMap_cons]
  | act position =>
      simp only [Traffic.serves] at idle
      simp only [traffic]
      split
      · rename_i incoming ready
        rw [ready] at idle
        cases idle
      · simp
  | log position =>
      simp only [traffic]
      split
      · rename_i incoming logged unlogged reply ready
        obtain ⟨front, back, around, replaced, _⟩ := exists_around ready
        rw [replaced]
        refine ⟨rfl, ?_, ?_⟩
        · refine List.perm_iff_count.mpr fun event => ?_
          simp only [Traffic.unlogged, around, MemoryLogger.append,
            List.flatMap_append, List.flatMap_cons, Flight.unlogged, List.cons_append,
            List.count_append, List.count_cons, List.count_nil]
          omega
        · simp [Traffic.pending, around, Flight.pending]
      · simp
  | answer position =>
      simp only [traffic]
      split
      · rename_i incoming reply ready
        obtain ⟨front, back, around, _, erased⟩ := exists_around ready
        rw [erased]
        refine ⟨rfl, ?_, ?_⟩
        · simp [Traffic.unlogged, around, Flight.unlogged]
        · simp only [Traffic.pending, around, List.filterMap_append,
            List.filterMap_cons, Flight.pending, Option.toList_some,
            List.singleton_append]
          exact List.perm_middle.symm
      · simp

/-- A step that serves a request does to the world what the server does, but
for the trail, and leaves an answer and events waiting. -/
theorem serve {s : Traffic σ} {event : Progress} {incoming : Incoming}
    (serves : s.serves event = some incoming) :
    ((traffic p).step s event).1.world =
        ((server p).step s.world incoming).1.withTrail s.world.audit.events ∧
      (((traffic p).step s event).1.world.audit.events ++
        ((traffic p).step s event).1.unlogged).Perm
          (((server p).step s.world incoming).1.audit.events ++ s.unlogged) ∧
      (((traffic p).step s event).2.toList ++ ((traffic p).step s event).1.pending).Perm
        (s.pending ++ [answerOf ((server p).fire s.world incoming)]) := by
  cases event with
  | arrive | log | answer => cases serves
  | act position =>
      simp only [Traffic.serves] at serves
      split at serves
      · rename_i found ready
        cases serves
        obtain ⟨front, back, around, replaced, _⟩ := exists_around ready
        obtain ⟨added, grown, _⟩ := step_withTrail (p := p) s.world incoming
        simp only [traffic, ready, Traffic.serve, grown, List.drop_left, replaced]
        refine ⟨rfl, ?_, ?_⟩
        · refine List.perm_iff_count.mpr fun event => ?_
          simp only [Traffic.unlogged, around, List.flatMap_append,
            List.flatMap_cons, Flight.unlogged, List.nil_append, List.count_append]
          omega
        · simp only [Traffic.pending, around, List.filterMap_append, List.filterMap_cons,
            Flight.pending, Option.toList_none, List.nil_append, List.append_assoc]
          refine List.Perm.append_left _ ?_
          exact (List.perm_append_singleton _ _).symm
      · cases serves

/-! ## Whole runs -/

/-- Requests in flight against the same requests served one after the other. -/
structure Sequential (past : List (Transition (Traffic σ) Progress (Option Answered)))
    (s : Traffic σ) (history : List (Transition (World σ) Incoming Reply)) (w : World σ) :
    Prop where
  world : w.withTrail s.world.audit.events = s.world
  trail : (s.world.audit.events ++ s.unlogged).Perm w.audit.events
  answers : ((Server.answers past ++ s.pending).map Answered.apartFromTrail).Perm
    (history.map fun next => (answerOf next).apartFromTrail)

section
variable {past : List (Transition (Traffic σ) Progress (Option Answered))} {s : Traffic σ}
  {history : List (Transition (World σ) Incoming Reply)} {w : World σ} {event : Progress}

omit [UserStore σ] in
theorem answers_append (next : Transition (Traffic σ) Progress (Option Answered)) :
    answers (past ++ [next]) = answers past ++ next.output.toList := by
  cases given : next.output <;> simp [answers, given]

theorem sequential_stutter (before : Sequential past s history w)
    (idle : s.serves event = none) :
    Sequential (past ++ [(traffic p).fire s event]) ((traffic p).step s event).1
      history w := by
  obtain ⟨world, trail, pending⟩ := stutter (p := p) idle
  refine ⟨?_, trail.trans before.trail, ?_⟩
  · rw [world, ← before.world]
    rfl
  · refine List.Perm.trans (List.Perm.map _ ?_) before.answers
    rw [answers_append, List.append_assoc]
    exact pending.append_left _

theorem sequential_serve (before : Sequential past s history w) {incoming : Incoming}
    (serves : s.serves event = some incoming) :
    Sequential (past ++ [(traffic p).fire s event]) ((traffic p).step s event).1
      (history ++ [(server p).fire w incoming]) ((server p).step w incoming).1 := by
  obtain ⟨world, trail, pending⟩ := serve (p := p) serves
  obtain ⟨added, grown, same⟩ := step_withTrail (p := p) w incoming
  have now := same s.world.audit.events
  rw [before.world] at now
  obtain ⟨after, answer⟩ := now
  refine ⟨?_, ?_, ?_⟩
  · rw [world, after]
    rfl
  · rw [grown]
    refine trail.trans ?_
    rw [after]
    refine List.perm_iff_count.mpr fun event => ?_
    have counted := before.trail.count_eq event
    simp only [World.withTrail_events, List.count_append] at counted ⊢
    omega
  · have more : (answers (past ++ [(traffic p).fire s event]) ++
        ((traffic p).step s event).1.pending).Perm
          ((answers past ++ s.pending) ++ [answerOf ((server p).fire s.world incoming)]) := by
      rw [answers_append, List.append_assoc, List.append_assoc]
      exact pending.append_left _
    have extended := before.answers.append_right
      [(answerOf ((server p).fire w incoming)).apartFromTrail]
    refine (more.map Answered.apartFromTrail).trans ?_
    simpa only [List.map_append, List.map_singleton, answer] using extended

end

/-- The requests of a run in the order in which they act. -/
def actingOrder (p : Platform) (s : Traffic σ) (events : List Progress) : List Incoming :=
  (traffic p).performed Traffic.serves s events

/-- However requests interleave, the users, the policies and every answer that
does not show the trail are those of a server that handles the requests one
after the other in the order in which they act; and no answer and no event is
lost or given twice. -/
theorem traffic_linearizable (p : Platform) (w : World σ) (events : List Progress) :
    Sequential ((traffic p).trace (.idle w) events) ((traffic p).run (.idle w) events)
      ((server p).trace w (actingOrder p (.idle w) events))
      ((server p).run w (actingOrder p (.idle w) events)) := by
  apply Machine.history_refines Sequential
  · exact ⟨rfl, by simp [Traffic.idle, Traffic.unlogged], .refl _⟩
  · intro past state history abstract event before idle
    exact sequential_stutter before idle
  · intro past state history abstract event incoming before serves
    exact sequential_serve before serves

end Nexus.Server
