import Nexus.Server.RouteProperties
import Nexus.Auth.StoreProperties
import Nexus.Auth.TotpProperties

/-! Enrolment in MFA over whole runs: whether the secret a user was handed by
the setup route is the one the verify route checks codes against. -/

set_option autoImplicit false

namespace Nexus.Server

open Nexus.Lib Nexus.Go Nexus.Users Nexus.Auth

/-! ## The promise -/

section

variable {σ : Type} [UserStore σ] (p : Platform)

/-- The request asks for a secret on behalf of a user. -/
def AsksSecret (incoming : Incoming) (userID : String) : Prop :=
  incoming.route = .mfaSetup ∧
    ∃ claims, caller p.service incoming.env incoming.request = some claims ∧
      claims.userID = userID

/-- The user's latest setup handed out this secret. -/
def HandedOut (past : List (Transition (World σ) Incoming Reply)) (userID secret : String) :
    Prop :=
  ∃ older setup newer, past = older ++ setup :: newer ∧
    AsksSecret p setup.event userID ∧
    (∃ message uri, setup.output.response = some (writeJSON 200 (.obj
      [("message", message), ("secret", .str secret), ("totp_uri", uri)]))) ∧
    ∀ later ∈ newer, ¬ AsksSecret p later.event userID

/-- The request presents the code that the user's secret yields right now. -/
structure PresentsCode (past : List (Transition (World σ) Incoming Reply))
    (incoming : Incoming) (userID code : String) : Prop where
  route : incoming.route = .mfaVerify (some { code := code })
  identified : ∃ claims, caller p.service incoming.env incoming.request = some claims ∧
    claims.userID = userID
  generated : ∃ secret, HandedOut p past userID secret ∧
    generateTOTP p.hmacSHA1 p.unicode secret incoming.env.now = .ok code

/-- The verification is answered with 200 and leaves the user enrolled. -/
def Enrolled (next : Transition (World σ) Incoming Reply) (userID : String) : Prop :=
  (∃ response, next.output.response = some response ∧ response.status = 200) ∧
    ∃ u, getUserByID next.after.store userID = .ok u ∧ u.mfaEnabled = true

def EnrolmentRoundTrip (past : List (Transition (World σ) Incoming Reply))
    (next : Transition (World σ) Incoming Reply) : Prop :=
  ∀ userID code, PresentsCode p past next.event userID code → Enrolled next userID

/-! ## What the server checks -/

/-- The stored record of the user is already enrolled, with a secret that
accepts the code. -/
def AlreadyEnrolled (store : σ) (now : Time) (userID code : String) : Prop :=
  ∃ u, getUserByID store userID = .ok u ∧ u.mfaEnabled = true ∧ u.mfaSecret ≠ "" ∧
    verifyTOTP p.hmacSHA1 p.unicode u.mfaSecret code now = .ok true

variable {p}

private theorem panic_no_success :
    ¬ ∃ response, panicked.response = some response ∧ response.status = 200 := by
  intro succeeded
  obtain ⟨response, answered, _⟩ := succeeded
  cases answered

private theorem error_no_success {status : Nat} {message : String} (other : status ≠ 200) :
    ¬ ∃ response, (respond (writeError status message)).response = some response ∧
      response.status = 200 := by
  intro success
  obtain ⟨response, answered, succeeded⟩ := success
  cases answered
  exact other succeeded

theorem mfaVerify_handler_iff {claims : Claims} {env : Env} {r : HttpRequest} {w : World σ}
    {code : String} :
    (∃ response, (Auth.Handler.mfaVerify p (some { code := code }) env r (some claims)
        w).2.response = some response ∧ response.status = 200) ↔
      AlreadyEnrolled p w.store env.now claims.userID code := by
  unfold AlreadyEnrolled
  simp only [Auth.Handler.mfaVerify]
  constructor
  · intro succeeded
    split at succeeded
    · exact absurd succeeded (error_no_success (by decide))
    cases found : getUserByID w.store claims.userID with
    | error err =>
        rw [found] at succeeded
        exact absurd succeeded (error_no_success (by decide))
    | ok u =>
        rw [found] at succeeded
        dsimp only at succeeded
        split at succeeded
        · exact absurd succeeded (error_no_success (by decide))
        rename_i enabled
        simp only [Bool.or_eq_true, Bool.not_eq_true', beq_iff_eq, not_or,
          Bool.not_eq_false] at enabled
        refine ⟨u, rfl, enabled.1, enabled.2, ?_⟩
        cases verified : verifyTOTP p.hmacSHA1 p.unicode u.mfaSecret code env.now with
        | error fault =>
            rw [verified] at succeeded
            cases fault with
            | panic => exact absurd succeeded panic_no_success
            | error text => exact absurd succeeded (error_no_success (by decide))
        | ok accepted =>
            rw [verified] at succeeded
            cases accepted with
            | true => rfl
            | false => exact absurd succeeded (error_no_success (by decide))
  · intro already
    obtain ⟨u, found, enabled, nonempty, accepted⟩ := already
    have noDefault : (u.mfaSecret == "") = false := beq_false_of_ne nonempty
    simp only [len_of_verifyTOTP accepted, found, enabled, noDefault, accepted, ne_eq,
      not_true_eq_false, if_false, Bool.not_true, Bool.or_self, Bool.false_eq_true]
    exact ⟨_, rfl, rfl⟩

theorem mfaSetup_step {w : World σ} {incoming : Incoming} {claims : Claims} {secret : String}
    (route : incoming.route = .mfaSetup)
    (known : caller p.service incoming.env incoming.request = some claims)
    (drawn : generateMFASecret incoming.env = some secret) :
    ∃ message, ((server p).step w incoming).2.response = some (writeJSON 200 (.obj
      [("message", message), ("secret", .str secret),
        ("totp_uri", .str (totpURI claims.username secret))])) := by
  rw [step_of_caller (by rw [route]; rfl) known, observed_response, route]
  simp only [Route.handler, Auth.Handler.mfaSetup, drawn]
  exact ⟨_, rfl⟩

theorem mfaVerify_step {w : World σ} {incoming : Incoming} {claims : Claims} {code : String}
    (route : incoming.route = .mfaVerify (some { code := code }))
    (known : caller p.service incoming.env incoming.request = some claims) :
    ((∃ response, ((server p).step w incoming).2.response = some response ∧
        response.status = 200) ↔
      AlreadyEnrolled p w.store incoming.env.now claims.userID code) ∧
    ((server p).step w incoming).1.store = w.store := by
  constructor
  · rw [step_of_caller (by rw [route]; rfl) known, observed_response, route]
    simp only [Route.handler]
    exact mfaVerify_handler_iff
  · have effect := (server_effect (p := p) w incoming).2
    rw [route] at effect
    cases effect with
    | nothing store => exact store

/-- A verification that succeeds is one of an enrolled user. -/
theorem mfaVerify_enrolled {w : World σ} {incoming : Incoming} {claims : Claims}
    {body : Option MFAVerifyRequest} (route : incoming.route = .mfaVerify body)
    (known : caller p.service incoming.env incoming.request = some claims)
    (succeeded : ∃ response, ((server p).step w incoming).2.response = some response ∧
      response.status = 200) :
    ∃ u, getUserByID w.store claims.userID = .ok u ∧ u.mfaEnabled = true := by
  cases body with
  | none =>
      rw [step_of_caller (by rw [route]; rfl) known, observed_response, route] at succeeded
      exact absurd succeeded (error_no_success (by decide))
  | some req =>
      obtain ⟨u, found, enabled, _⟩ := (mfaVerify_step route known).1.mp succeeded
      exact ⟨u, found, enabled⟩

end

/-! ## The verdict -/

/-- Nobody's stored record is enrolled. -/
def NobodyEnrolled (store : MemoryUserStore) : Prop :=
  ∀ u ∈ store.byID.values, u.mfaEnabled = false

variable {p : Platform}

theorem register_enrols_nobody {env : Env} {store : MemoryUserStore} {input : RegisterInput}
    (nobody : NobodyEnrolled store) :
    NobodyEnrolled (p.service.register env store input).1 := by
  rw [register_eq]
  cases admitted : p.service.newUser env input with
  | error err => exact nobody
  | ok u =>
      intro record member
      rcases MemoryUserStore.createUser_values member with rfl | older
      · rw [stamped, (newUser_ok admitted).record]
      · exact nobody record older

theorem run_enrols_nobody {start : World MemoryUserStore} (nobody : NobodyEnrolled start.store)
    (events : List Incoming) : NobodyEnrolled ((server p).run start events).store := by
  induction events generalizing start with
  | nil => exact nobody
  | cons incoming events ih =>
      apply ih
      have effect := (server_effect (p := p) start incoming).2
      obtain ⟨env, request, route⟩ := incoming
      cases effect with
      | nothing store | creates store | deletes store =>
          rw [store]
          exact nobody
      | registers input store =>
          rw [store]
          exact register_enrols_nobody nobody

/-- The verification after a setup enrols the user exactly when the stored
record was enrolled before, with a secret that accepts the code; no request
stores a secret. From a store in which nobody is enrolled it never does. -/
theorem enrolment_iff (p : Platform) (start : World MemoryUserStore) (events : List Incoming) :
    ((server p).Always (EnrolmentRoundTrip p) start events ↔
        (server p).Always (fun past next => ∀ userID code,
          PresentsCode p past next.event userID code →
          AlreadyEnrolled p next.before.store next.event.env.now userID code) start events) ∧
      ((∀ u ∈ start.store.byID.values, u.mfaEnabled = false) →
        (server p).Always (fun past next => ∀ userID code,
          PresentsCode p past next.event userID code → ¬ Enrolled next userID)
          start events) := by
  constructor
  · apply Machine.Always.congr
    intro past incoming _
    refine forall_congr' fun userID => forall_congr' fun code => imp_congr_right ?_
    intro presents
    obtain ⟨claims, known, rfl⟩ := presents.identified
    obtain ⟨answered, unchanged⟩ :=
      mfaVerify_step (w := (server p).run start past) presents.route known
    constructor
    · intro enrolled
      exact answered.mp enrolled.1
    · intro already
      obtain ⟨u, found, enabled, _⟩ := id already
      have stillFound := congrArg (getUserByID · claims.userID) unchanged
      exact ⟨answered.mpr already, u, stillFound.trans found, enabled⟩
  · intro nobody past incoming future _ userID code presents enrolled
    obtain ⟨claims, known, rfl⟩ := presents.identified
    obtain ⟨answered, _⟩ :=
      mfaVerify_step (w := (server p).run start past) presents.route known
    obtain ⟨u, found, enabled, _⟩ := answered.mp enrolled.1
    have stored := MemoryUserStore.getUserByID_ok_iff.mp found
    have none := run_enrols_nobody (p := p) nobody past u
      (GoMap.mem_values_iff.mpr ⟨_, stored⟩)
    rw [none] at enabled
    cases enabled

/-- Alice sets MFA up and at once presents the code of her new secret. -/
def aliceEnrols : List Incoming :=
  [aliceSends .mfaSetup, aliceSends (.mfaVerify (some { code := "000000" }))]

theorem enrolment_lost :
    ¬ (server plainPlatform).Always (EnrolmentRoundTrip plainPlatform) plainWorld
      aliceEnrols := by
  intro always
  have identified : caller plainPlatform.service (aliceSends .mfaSetup).env
      (aliceSends .mfaSetup).request = some aliceClaims := by rfl
  have drawn : generateMFASecret (aliceSends .mfaSetup).env =
      some "AAAAAAAAAAAAAAAAAAAAAAAAAAAAAAAA" := by decide
  have handedOut : HandedOut plainPlatform
      ((server plainPlatform).trace plainWorld [aliceSends .mfaSetup]) "u-1"
      "AAAAAAAAAAAAAAAAAAAAAAAAAAAAAAAA" := by
    obtain ⟨message, answered⟩ := mfaSetup_step (w := plainWorld) rfl identified drawn
    refine ⟨[], (server plainPlatform).fire plainWorld (aliceSends .mfaSetup), [], ?_, ?_, ?_, ?_⟩
    · rw [Machine.trace_cons, Machine.trace_nil, List.nil_append]
    · exact ⟨rfl, aliceClaims, identified, rfl⟩
    · exact ⟨message, _, answered⟩
    · intro later member
      exact absurd member List.not_mem_nil
  have presents : PresentsCode plainPlatform
      ((server plainPlatform).trace plainWorld [aliceSends .mfaSetup])
      (aliceSends (.mfaVerify (some { code := "000000" }))) "u-1" "000000" :=
    ⟨rfl, ⟨aliceClaims, identified, rfl⟩, ⟨_, handedOut, by decide⟩⟩
  have enrolled := always [aliceSends .mfaSetup]
    (aliceSends (.mfaVerify (some { code := "000000" }))) [] rfl "u-1" "000000" presents
  obtain ⟨u, found, enabled⟩ := enrolled.2
  cases found
  cases enabled

theorem enrolment_never :
    (server plainPlatform).Always (fun past next => ∀ userID code,
      PresentsCode plainPlatform past next.event userID code → ¬ Enrolled next userID)
      plainWorld aliceEnrols :=
  (enrolment_iff plainPlatform plainWorld aliceEnrols).2 (by decide)

end Nexus.Server
