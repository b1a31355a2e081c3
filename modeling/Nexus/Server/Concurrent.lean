import Nexus.Audit.LoggerProperties
import Nexus.Lib.Replay
import Nexus.Server.RouteProperties

/-! Any number of requests in flight. A request arrives, acts, logs and is
answered, with steps of other requests in between. It acts in one step: no
request changes the limiter, and apart from it a handler takes the lock of the
users, the policies or the trail at most once before it logs. Each event is
appended under the lock of the logger. Requests are named by their positions. -/

set_option autoImplicit false

namespace Nexus.Server

open Nexus.Lib Nexus.Go Nexus.Auth Nexus.Audit Nexus.Policy

inductive Stage where
  | arrived
  | acted (unlogged : List Event) (reply : Reply)

structure Flight where
  incoming : Incoming
  stage : Stage

structure Traffic (σ : Type) where
  world : World σ
  inFlight : List Flight

def Traffic.idle {σ : Type} (w : World σ) : Traffic σ where
  world := w
  inFlight := []

inductive Progress where
  | arrive (incoming : Incoming)
  | act (position : Nat)
  | log (position : Nat)
  | answer (position : Nat)

structure Answered where
  incoming : Incoming
  reply : Reply

variable {σ : Type} [UserStore σ] (p : Platform)

/-- What a request does, apart from appending its events. -/
def Traffic.serve (s : Traffic σ) (position : Nat) (incoming : Incoming) : Traffic σ :=
  let (w, reply) := (server p).step s.world incoming
  let unlogged := w.audit.events.drop s.world.audit.events.length
  { world := { w with audit := s.world.audit }
    inFlight := s.inFlight.set position
      { incoming := incoming, stage := .acted unlogged reply } }

/-- A step that cannot happen changes nothing. -/
def traffic : Machine (Traffic σ) Progress (Option Answered) where
  step s
    | .arrive incoming =>
        ({ s with inFlight := s.inFlight ++ [{ incoming := incoming, stage := .arrived }] }, none)
    | .act position =>
        match s.inFlight[position]? with
        | some ⟨incoming, .arrived⟩ => (s.serve p position incoming, none)
        | _ => (s, none)
    | .log position =>
        match s.inFlight[position]? with
        | some ⟨incoming, .acted (event :: unlogged) reply⟩ =>
            ({ world := { s.world with audit := s.world.audit.append event }
               inFlight := s.inFlight.set position
                { incoming := incoming, stage := .acted unlogged reply } }, none)
        | _ => (s, none)
    | .answer position =>
        match s.inFlight[position]? with
        | some ⟨incoming, .acted [] reply⟩ =>
            ({ s with inFlight := s.inFlight.eraseIdx position },
              some { incoming := incoming, reply := reply })
        | _ => (s, none)

def Flight.unlogged : Flight → List Event
  | { incoming := _, stage := .arrived } => []
  | { incoming := _, stage := .acted unlogged _ } => unlogged

/-- The events that wait to be appended. -/
def Traffic.unlogged (s : Traffic σ) : List Event := s.inFlight.flatMap Flight.unlogged

/-! ## Accounts -/

/-- What the trail keeps an account of for each user. -/
inductive Account where
  | accessGranted
  | accessDenied
  | loginSuccess
  | mfaSuccess
  | mfaFailed

def Account.action : Account → Action
  | accessGranted => actionAccessGranted
  | accessDenied => actionAccessDenied
  | loginSuccess => actionLoginSuccess
  | mfaSuccess => actionMFASuccess
  | mfaFailed => actionMFAFailed

def Account.records (account : Account) (userID : String) (event : Event) : Bool :=
  decide (event.action = account.action ∧ event.userID = userID)

/-- The decision in the answer to an access check. -/
def decisionOf (response : Response) : Option Decision :=
  if response.status ≠ 200 then none
  else
    match response.body with
    | .json (.obj (("decision", .str decision) :: _)) => some decision
    | _ => none

/-- The token in the answer to a login. -/
def tokenOf (response : Response) : Option String :=
  if response.status ≠ 200 then none
  else
    match response.body with
    | .json (.obj [("token", .str token)]) => some token
    | _ => none

/-- Whom a request was answered something that the account is about. -/
def Account.recipient (svc : Service) (account : Account) (answered : Answered) :
    Option String :=
  let user := (caller svc answered.incoming.env answered.incoming.request).map Claims.userID
  match account, answered.incoming.route, answered.reply.response with
  | .accessGranted, .checkAccess _, some response =>
      if decisionOf response = some decisionAllow then user else none
  | .accessDenied, .checkAccess _, some response =>
      if (decisionOf response).any (· ≠ decisionAllow) then user else none
  | .loginSuccess, .login _, some response =>
      (tokenOf response).bind fun token =>
        (svc.jwt.parseUnverified token).toOption.map fun parsed => parsed.2.userID
  | .mfaSuccess, .mfaVerify _, some response => if response.status = 200 then user else none
  | .mfaFailed, .mfaVerify _, some response => if response.status = 401 then user else none
  | _, _, _ => none

/-- The step answers the user something that the account is about. -/
def Account.answers (svc : Service) (account : Account) (userID : String)
    (next : Transition (Traffic σ) Progress (Option Answered)) : Bool :=
  next.output.any fun answered => account.recipient svc answered = some userID

/-! ## Policies -/

/-- What an event says about the set of policies. -/
def policyChange (event : Event) : Option (Change String) :=
  if event.action = actionPolicyCreated then some (.add event.resource)
  else if event.action = actionPolicyDeleted then some (.remove event.resource)
  else none

def changes (events : List Event) : List (Change String) := events.filterMap policyChange

/-- `uuid.New` draws an ID that no policy has had. -/
def FreshPolicy (seeded : List String)
    (next : Transition (Traffic σ) Progress (Option Answered)) : Prop :=
  ∀ position incoming body, next.event = .act position →
    next.before.inFlight[position]? = some { incoming := incoming, stage := .arrived } →
    incoming.route = .createPolicy body →
      incoming.env.newID ∉ seeded ∧
        .add incoming.env.newID ∉ changes (next.before.world.audit.events ++ next.before.unlogged)

/-- No deletion of a policy is logged while its creation still waits. -/
def LogsInOrder (next : Transition (Traffic σ) Progress (Option Answered)) : Prop :=
  ∀ position incoming event unlogged reply id, next.event = .log position →
    next.before.inFlight[position]? =
      some { incoming := incoming, stage := .acted (event :: unlogged) reply } →
    policyChange event = some (.remove id) → .add id ∉ changes next.before.unlogged

end Nexus.Server
