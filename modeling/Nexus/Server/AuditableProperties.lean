import Nexus.Audit.LoggerPostgresProperties
import Nexus.Policy.EngineProperties
import Nexus.Policy.Handler

/-! Which access decisions PostgreSQL can store in the audit trail. -/

set_option autoImplicit false

namespace Nexus.Server

open Nexus.Lib Nexus.Go Nexus.Auth Nexus.Audit Nexus.Policy Nexus.Postgres

/-! ## Reasons -/

theorem hasNul_eq_false_iff {text : String} : hasNul text = false ↔ nul ∉ text.toList := by
  simp [hasNul, nul]

theorem hasNul_append (first second : String) :
    hasNul (first ++ second) = (hasNul first || hasNul second) := by
  simp [hasNul, String.toList_append]

theorem hasNul_natRepr (n : Nat) : hasNul n.repr = false := by
  rw [hasNul_eq_false_iff, Nat.toList_repr]
  intro member
  exact absurd (Nat.isDigit_of_mem_toDigits (by decide) (by decide) member) (by decide)

theorem hasNul_intRepr (n : Int) : hasNul n.repr = false := by
  cases n with
  | ofNat n => exact hasNul_natRepr n
  | negSucc n =>
      have sign : hasNul "-" = false := by decide
      simp only [Int.repr, hasNul_append, sign, hasNul_natRepr, Bool.or_self]

/-- A policy whose objection is its own decision, and names it. -/
def DeniesByName (p : Policy) (req : Request) : Prop :=
  p.exceedsRisk req = false ∧ p.distrustsDevice req = false ∧ p.wantsMFA req = false ∧
    p.decision = decisionDeny

theorem riskReason_hasNul (score bound : Int) :
    hasNul s!"risk score {score} exceeds policy maximum of {bound}" = false := by
  have before : hasNul "risk score " = false := by decide
  have between : hasNul " exceeds policy maximum of " = false := by decide
  show hasNul ("risk score " ++ score.repr ++ " exceeds policy maximum of " ++ bound.repr) = false
  simp only [hasNul_append, hasNul_intRepr, before, between, Bool.or_self]

theorem denialReason_hasNul (name : String) :
    hasNul s!"policy '{name}' explicitly denies access" = hasNul name := by
  have before : hasNul "policy '" = false := by decide
  have after : hasNul "' explicitly denies access" = false := by decide
  show hasNul ("policy '" ++ name ++ "' explicitly denies access") = hasNul name
  simp only [hasNul_append, before, after, Bool.false_or, Bool.or_false]

theorem noPolicyReason_hasNul (req : Request) :
    hasNul (noPolicy req).reason = (hasNul req.role || hasNul req.application) := by
  have before : hasNul "no policy grants role '" = false := by decide
  have between : hasNul "' access to '" = false := by decide
  have after : hasNul "'" = false := by decide
  show hasNul ("no policy grants role '" ++ req.role ++ "' access to '" ++ req.application ++
    "'") = (hasNul req.role || hasNul req.application)
  simp only [hasNul_append, before, between, after, Bool.false_or, Bool.or_false]

/-- The texts of an objection contain NUL only through the policy's name. -/
theorem objection_hasNul {p : Policy} {req : Request} {result : Result}
    (objects : p.objection req = some result) :
    hasNul result.decision = false ∧
      (hasNul result.reason = false ↔ (DeniesByName p req → hasNul p.name = false)) := by
  have deny : hasNul decisionDeny = false := by decide
  have demand : hasNul decisionRequireMFA = false := by decide
  have device : hasNul "trusted device required by policy" = false := by decide
  have verification : hasNul "MFA verification required by policy" = false := by decide
  unfold DeniesByName
  unfold Policy.objection at objects
  cases risky : p.exceedsRisk req with
  | true =>
      rw [if_pos risky] at objects
      cases objects
      exact ⟨deny, iff_of_true (riskReason_hasNul _ _) (fun named => nomatch named.1)⟩
  | false =>
      rw [if_neg (by simp [risky])] at objects
      cases distrusted : p.distrustsDevice req with
      | true =>
          rw [if_pos distrusted] at objects
          cases objects
          exact ⟨deny, iff_of_true device (fun named => nomatch named.2.1)⟩
      | false =>
          rw [if_neg (by simp [distrusted])] at objects
          cases owes : p.wantsMFA req with
          | true =>
              rw [if_pos owes] at objects
              cases objects
              exact ⟨demand, iff_of_true verification (fun named => nomatch named.2.2.1)⟩
          | false =>
              rw [if_neg (by simp [owes])] at objects
              split at objects
              · rename_i explicitDeny
                cases objects
                refine ⟨deny, ?_⟩
                rw [denialReason_hasNul]
                exact ⟨fun free _ => free,
                  fun free => free ⟨rfl, rfl, rfl, eq_of_beq explicitDeny⟩⟩
              · cases objects

/-- The policy whose objection the engine answers with. -/
def objectingPolicy (rules : List Policy) (req : Request) : Option Policy :=
  rules.find? fun p => (p.objection req).isSome

theorem evaluateMatching_hasNul (req : Request) (rules : List Policy) :
    hasNul (evaluateMatching req rules).decision = false ∧
      (hasNul (evaluateMatching req rules).reason = false ↔
        ∀ p ∈ objectingPolicy rules req, DeniesByName p req → hasNul p.name = false) := by
  induction rules with
  | nil =>
      have allow : hasNul granted.decision = false := by decide
      have reason : hasNul granted.reason = false := by decide
      exact ⟨allow, iff_of_true reason nofun⟩
  | cons p rest ih =>
      unfold evaluateMatching objectingPolicy
      rw [List.find?_cons]
      cases objects : p.objection req with
      | none => exact ih
      | some result => simpa using objection_hasNul objects

theorem evaluate_hasNul (e : Engine) (order : e.policies.Order) (req : Request) :
    hasNul (e.evaluate order req).decision = false ∧
      (hasNul (e.evaluate order req).reason = false ↔
        (order.values.filter (·.applies req) = [] →
          hasNul req.role = false ∧ hasNul req.application = false) ∧
        ∀ p ∈ objectingPolicy (order.values.filter (·.applies req)) req,
          DeniesByName p req → hasNul p.name = false) := by
  unfold Engine.evaluate
  cases consulted : order.values.filter (·.applies req) with
  | nil =>
      have deny : hasNul (noPolicy req).decision = false := by
        have text : hasNul decisionDeny = false := by decide
        exact text
      refine ⟨deny, ?_⟩
      simp [noPolicyReason_hasNul, objectingPolicy]
  | cons p rest =>
      have matched := evaluateMatching_hasNul req (p :: rest)
      simpa using matched

/-! ## Decisions -/

instance (p : Policy) (req : Request) : Decidable (DeniesByName p req) :=
  inferInstanceAs (Decidable (_ ∧ _ ∧ _ ∧ _))

/-- What the audit table asks of a decision: texts that fit their columns and
no NUL, also in what the reason quotes, the role and the application where no
policy applies, and the name of the policy that denies by its own decision. -/
structure Recordable (e : Engine) (order : e.policies.Order) (claims : Claims)
    (req : AccessCheckRequest) (r : HttpRequest) : Prop where
  userID : hasNul claims.userID = false ∧ FitsColumn 64 claims.userID
  application : hasNul req.application = false ∧ FitsColumn 128 req.application
  remoteAddr : hasNul r.remoteAddr = false ∧ FitsColumn 64 r.remoteAddr
  role : order.values.filter (·.applies (accessRequest claims req r)) = [] →
    hasNul claims.role = false
  denier : ∀ p ∈ objectingPolicy (order.values.filter (·.applies (accessRequest claims req r)))
      (accessRequest claims req r),
    DeniesByName p (accessRequest claims req r) → hasNul p.name = false

theorem holdsNul_texts (result : Result) :
    ¬ HoldsNul [("decision", result.decision), ("reason", result.reason)] ↔
      hasNul result.decision = false ∧ hasNul result.reason = false := by
  have decision : nul ∉ "decision".toList := by decide
  have reason : nul ∉ "reason".toList := by decide
  simp only [holdsNul_cons, decision, reason, false_or, hasNul_eq_false_iff]
  simp [HoldsNul]

section
variable {σ : Type} {env : Env} {r : HttpRequest} {w : World σ} {claims : Claims}
  {req : AccessCheckRequest}

/-- The event of an answered access check. -/
theorem event_of_answered {event : Event} {result : Result}
    (answered : Handler.checkAccess (some req) env r (some claims) w =
      (w.log env event, respond (writeJSON 200 (resultJson result)))) :
    event.filled env = (accessEvent claims req r (w.engine.evaluate
      (env.range w.engine.policies) (accessRequest claims req r))).filled env := by
  simp only [Handler.checkAccess] at answered
  split at answered
  · have response := congrArg Reply.response (Prod.mk.inj answered).2
    have status := congrArg Response.status (Option.some.inj response)
    exact absurd status (by simp)
  · have trail := congrArg (MemoryLogger.events ∘ World.audit) (Prod.mk.inj answered).1
    simp only [Function.comp, World.log, MemoryLogger.log_eq, MemoryLogger.append] at trail
    exact (List.singleton_inj.mp (List.append_cancel_left trail)).symm

/-- The constraints on the event of a decision, whatever the decision is. -/
theorem storable_accessEvent_iff (headers : hasNul r.userAgent = false)
    (uuid : env.eventID.length = 36 ∧ hasNul env.eventID = false) (result : Result) :
    Storable ((accessEvent claims req r result).filled env) ↔
      (hasNul claims.userID = false ∧ FitsColumn 64 claims.userID) ∧
      (hasNul req.application = false ∧ FitsColumn 128 req.application) ∧
      (hasNul r.remoteAddr = false ∧ FitsColumn 64 r.remoteAddr) ∧
      hasNul result.decision = false ∧ hasNul result.reason = false := by
  have action : hasNul (accessEvent claims req r result).action = false ∧
      FitsColumn 64 (accessEvent claims req r result).action := by
    unfold accessEvent
    dsimp only
    split <;> exact ⟨by decide, fitsColumn_of_length (by decide)⟩
  have id : FitsColumn 64 env.eventID := fitsColumn_of_length (by rw [uuid.1]; decide)
  constructor
  · intro storable
    have texts := storable.parameters
    simp only [insertParameters, List.forall_mem_cons] at texts
    obtain ⟨_, user, _, application, remote, _⟩ := texts
    exact ⟨⟨user, storable.userID⟩, ⟨application, storable.resource⟩,
      ⟨remote, storable.ipAddress⟩, (holdsNul_texts result).mp storable.metadata⟩
  · rintro ⟨user, application, remote, metadata⟩
    exact {
      parameters := by
        simp only [insertParameters, List.forall_mem_cons, List.not_mem_nil, false_imp_iff,
          implies_true, and_true]
        exact ⟨uuid.2, user.1, action.1, application.1, remote.1, headers⟩
      metadata := (holdsNul_texts result).mpr metadata
      id := id
      userID := user.2
      action := action.2
      resource := application.2
      ipAddress := remote.2 }

/-- PostgreSQL takes the audit event of an answered access check if and only if
the decision is recordable. The key of the event is a new UUID. -/
theorem decision_stored_iff {event : Event} {result : Result}
    (answered : Handler.checkAccess (some req) env r (some claims) w =
      (w.log env event, respond (writeJSON 200 (resultJson result))))
    (headers : hasNul r.userAgent = false)
    (uuid : env.eventID.length = 36 ∧ hasNul env.eventID = false) (logs : AuditLogs)
    (fresh : env.eventID ∉ logs.rows.map AuditRow.id) :
    (∃ after, logs.insert (PostgresLogger.log env event) = .ok after) ↔
      Recordable w.engine (env.range w.engine.policies) claims req r := by
  have key : ∀ cut, varchar 64 env.eventID = .ok cut → cut ∉ logs.rows.map AuditRow.id := by
    intro cut kept
    rw [varchar, if_pos (by rw [uuid.1]; decide)] at kept
    cases kept
    exact fresh
  obtain ⟨decision, reason⟩ := evaluate_hasNul w.engine (env.range w.engine.policies)
    (accessRequest claims req r)
  rw [AuditLogs.insert_ok_iff, PostgresLogger.log_eq, event_of_answered answered,
    storable_accessEvent_iff headers uuid, reason]
  constructor
  · rintro ⟨⟨user, application, remote, _, unmatched, denier⟩, _⟩
    exact ⟨user, application, remote, fun none => (unmatched none).1, denier⟩
  · intro recordable
    exact ⟨⟨recordable.userID, recordable.application, recordable.remoteAddr, decision,
      fun none => ⟨recordable.role none, recordable.application.1⟩, recordable.denier⟩, key⟩

end

/-- The server with its default policies, and nobody in its store. -/
def defaultWorld : World Unit where
  store := ()
  engine := newEngine "dev" "adm" "vwr"
  audit := newMemoryLogger
  limiter := .disabled

def auditEnv : Env :=
  { plainEnv 0 "" with eventID := "7c9e6679-7425-40de-944b-e07fc1f90ae7" }

theorem decision_stored_alice :
    ∃ after, AuditLogs.empty.insert (PostgresLogger.log auditEnv (accessEvent aliceClaims
      { application := "payroll", mfaVerified := true } {} granted)) = .ok after := by
  have answered : Handler.checkAccess (some { application := "payroll", mfaVerified := true })
      auditEnv {} (some aliceClaims) defaultWorld =
        (defaultWorld.log auditEnv (accessEvent aliceClaims
          { application := "payroll", mfaVerified := true } {} granted),
        respond (writeJSON 200 (resultJson granted))) := rfl
  refine (decision_stored_iff answered (by decide) (by decide) .empty (by decide)).mpr ?_
  exact {
    userID := ⟨by decide, fitsColumn_of_length (by decide)⟩
    application := ⟨by decide, fitsColumn_of_length (by decide)⟩
    remoteAddr := ⟨by decide, fitsColumn_of_length (by decide)⟩
    role := fun _ => by decide
    denier := by decide }

def letters (count : Nat) : String := String.ofList (List.replicate count 'a')

theorem length_letters (count : Nat) : (letters count).length = count := by
  rw [letters, String.length_ofList, List.length_replicate]

theorem letters_overflow {width count : Nat} (longer : width < count) :
    ¬ FitsColumn width (letters count) := by
  intro fits
  have last : 'a' ∈ (letters count).toList.drop width := by
    rw [letters, String.toList_ofList, List.drop_replicate]
    exact List.mem_replicate.mpr ⟨by omega, rfl⟩
  exact absurd (fits 'a' last) (by decide)

/-- One letter more than the column holds: the answer is given, and its event
is refused. -/
theorem long_application_unrecorded :
    Handler.checkAccess (some { application := letters 129, mfaVerified := true }) auditEnv {}
        (some aliceClaims) defaultWorld =
      (defaultWorld.log auditEnv (accessEvent aliceClaims
          { application := letters 129, mfaVerified := true } {} granted),
        respond (writeJSON 200 (resultJson granted))) ∧
    ¬ ∃ after, AuditLogs.empty.insert (PostgresLogger.log auditEnv (accessEvent aliceClaims
      { application := letters 129, mfaVerified := true } {} granted)) = .ok after := by
  have measured := length_letters 129
  have overflow := letters_overflow (by decide : 128 < 129)
  generalize letters 129 = name at measured overflow ⊢
  constructor
  · have named : name ≠ "" := by
      rintro rfl
      exact absurd measured (by decide)
    simp only [Handler.checkAccess, if_neg named]
    rfl
  · intro stored
    exact overflow ((AuditLogs.insert_ok_iff _ _).mp stored).1.resource

end Nexus.Server
