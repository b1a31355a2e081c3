import Nexus.Frontend.JourneyProperties
import Nexus.Frontend.Pages
import Nexus.Frontend.SessionProperties

/-! What the pages offer to a user against what the guards of the server let
through. -/

set_option autoImplicit false

namespace Nexus.Frontend

open Nexus.Lib Nexus.Go Nexus.Users Nexus.Auth Nexus.Server Nexus.JavaScript AuthProvider

/-! ## Loading -/

/-- A provider that is loading waits for the profile. -/
def Browser.Loading (b : Browser) : Prop :=
  b.session.isLoading = true → ∃ carried, .fetchProfile carried ∈ b.pending

theorem fetchProfile_kept {front back rest : List Operation} {operation : Operation}
    (other : ∀ carried, .fetchProfile carried ≠ operation)
    (waiting : ∃ carried, .fetchProfile carried ∈ front ++ operation :: back)
    (kept : ∀ more ∈ front ++ back, more ∈ rest) : ∃ carried, .fetchProfile carried ∈ rest := by
  obtain ⟨carried, member⟩ := waiting
  refine ⟨carried, kept _ ?_⟩
  rcases List.mem_append.mp member with before | after
  · exact List.mem_append_left _ before
  · rcases List.mem_cons.mp after with same | after
    · exact absurd same (other carried)
    · exact List.mem_append_right _ after

section
variable {b : Browser} {position : Nat} {operation : Operation}

theorem Browser.Loading.started (loading : b.Loading) (operation : Operation) :
    { b with pending := b.pending ++ [operation] }.Loading := by
  intro unsettled
  obtain ⟨carried, member⟩ := loading unsettled
  exact ⟨carried, List.mem_append_left _ member⟩

/-- Another operation goes on. -/
theorem Browser.Loading.replaced (loading : b.Loading)
    (found : b.pending[position]? = some operation)
    (other : ∀ carried, .fetchProfile carried ≠ operation) {session : Session}
    (same : session.isLoading = b.session.isLoading) (next : Operation) :
    (⟨session, b.pending.set position next⟩ : Browser).Loading := by
  intro unsettled
  obtain ⟨front, back, split, replaced, _⟩ := exists_around found
  have waiting := loading (same.symm.trans unsettled)
  rw [split] at waiting
  rw [replaced]
  refine fetchProfile_kept other waiting fun more member => ?_
  rcases List.mem_append.mp member with before | after
  · exact List.mem_append_left _ before
  · exact List.mem_append_right _ (List.mem_cons_of_mem _ after)

/-- Another operation ends. -/
theorem Browser.Loading.ended (loading : b.Loading)
    (found : b.pending[position]? = some operation)
    (other : ∀ carried, .fetchProfile carried ≠ operation) {session : Session}
    (same : session.isLoading = b.session.isLoading) :
    (⟨session, b.pending.eraseIdx position⟩ : Browser).Loading := by
  intro unsettled
  obtain ⟨front, back, split, _, erased⟩ := exists_around found
  have waiting := loading (same.symm.trans unsettled)
  rw [split] at waiting
  rw [erased]
  exact fetchProfile_kept other waiting fun more member => member

theorem loading_fetchProfile (loading : b.Loading) : (fetchProfile b).1.Loading := by
  unfold fetchProfile
  cases b.session.api.getToken with
  | none =>
      intro unsettled
      cases unsettled
  | some carried => exact loading.started _

theorem loading_step {owner : Token → PublicUser} (loading : b.Loading) (event : Event) :
    (step owner b event).1.Loading := by
  cases event with
  | refreshProfile => exact loading_fetchProfile loading
  | login | register => exact loading.started _
  | logout => exact loading
  | registered position =>
      simp only [step, registered]
      split
      · exact loading.replaced ‹_› (by rintro carried ⟨⟩) rfl _
      · exact loading
  | issued position token =>
      simp only [step, issued]
      split
      · exact loading.replaced ‹_› (by rintro carried ⟨⟩) rfl _
      · exact loading
  | resumed position =>
      simp only [step, resumed]
      split
      · exact loading.replaced ‹_› (by rintro carried ⟨⟩) rfl _
      · exact loading
  | profile position =>
      simp only [step, profile]
      split
      · intro unsettled
        cases unsettled
      · exact loading.ended ‹_› (by rintro carried ⟨⟩) rfl
      · exact loading
  | failed position =>
      simp only [step, failed]
      split
      · intro unsettled
        cases unsettled
      · exact loading.ended ‹_› (by rintro carried ⟨⟩) rfl
      · exact loading.ended ‹_› (by rintro carried ⟨⟩) rfl
      · exact loading.ended ‹_› (by rintro carried ⟨⟩) rfl
      · exact loading

theorem loading_mounted (sessionStorage : Option Token) : (mounted sessionStorage).Loading := by
  cases sessionStorage with
  | none =>
      intro unsettled
      cases unsettled
  | some carried => exact fun _ => ⟨carried, List.mem_singleton.mpr rfl⟩

end

/-- An idle provider after an orderly run: nothing loads, and the user is the owner
of the client's token. -/
theorem idle_session {owner : Token → PublicUser} {sessionStorage : Option Token}
    {events : List Event}
    (orderly : (machine owner).Always (fun _ next => Orderly owner next.before next.event)
      (mounted sessionStorage) events)
    {s : Session} (idle : (machine owner).run (mounted sessionStorage) events = ⟨s, []⟩)
    {token : Token} (carried : s.api.token = some token) :
    s.isLoading = false ∧ s.user = some (owner token) := by
  have waits : ∀ (b : Browser) (event : Event), True → b.Loading →
      ((machine owner).step b event).1.Loading :=
    fun _ event _ loading => loading_step loading event
  have loading : ((machine owner).run (mounted sessionStorage) events).Loading :=
    (machine owner).run_invariant waits (loading_mounted sessionStorage) fun _ _ => trivial
  have settling : ((machine owner).run (mounted sessionStorage) events).Settling owner :=
    Machine.Always.run_invariant (Browser.Settling owner)
      (fun _ event settling law => (settling_step settling event).mpr law)
      (settling_mounted sessionStorage) orderly
  rw [idle] at loading settling
  constructor
  · cases unsettled : s.isLoading with
    | false => rfl
    | true =>
        obtain ⟨fetched, member⟩ := loading unsettled
        cases member
  · rcases settling.user with shown | ⟨_, member, _⟩
    · rw [shown, carried]
      rfl
    · cases member

/-! ## Roles -/

section
variable {s : Session} {user : PublicUser}

theorem hasRole_iff (signedIn : s.user = some user) (allowed : List Role) :
    s.hasRole allowed = true ↔ user.role ∈ roleSuperAdmin :: allowed := by
  rw [Session.hasRole, signedIn]
  by_cases super : user.role = roleSuperAdmin
  · simp [super]
  · simp [super]

/-- Whom a page is shown to. -/
theorem outlet_iff (settled : s.isLoading = false) (signedIn : s.user = some user)
    (allowedRoles : Option (List Role)) :
    protectedRoute s allowedRoles = .outlet ↔
      ∀ allowed, allowedRoles = some allowed → user.role ∈ roleSuperAdmin :: allowed := by
  cases allowedRoles with
  | none => simp [protectedRoute, settled, signedIn]
  | some allowed =>
      simp only [Option.some.injEq, forall_eq', ← hasRole_iff signedIn]
      cases admitted : s.hasRole allowed <;> simp [protectedRoute, settled, signedIn, admitted]

/-- Whom a page lets make a call. -/
theorem offers_iff (settled : s.isLoading = false) (signedIn : s.user = some user) (page : Page)
    (call : ApiCall) :
    s.Offers page call ↔
      (∀ allowed, page.allowedRoles = some allowed → user.role ∈ roleSuperAdmin :: allowed) ∧
        (call.managesPolicies = true →
          user.role ∈ [roleSuperAdmin, roleAdmin, roleSecurityManager, roleSuperAdmin]) := by
  rw [Session.Offers, outlet_iff settled signedIn, Session.canManagePolicies, hasRole_iff signedIn]

/-- Who finds a link to a page, of the users with a role that the server gives out. -/
theorem isAllowed_iff (signedIn : s.user = some user) (valid : user.role ∈ validRoles)
    (page : Page) :
    page.isAllowed s = true ↔
      ∀ allowed, page.allowedRoles = some allowed → user.role ∈ roleSuperAdmin :: allowed := by
  cases page with
  | dashboard | applications | security | settings =>
      simp [Page.isAllowed, Page.navRoles, Page.allowedRoles]
  | users | roles | audit =>
      simp only [Page.isAllowed, Page.navRoles, Page.allowedRoles, hasRole_iff signedIn,
        Option.some.injEq, forall_eq']
  | policies =>
      simp only [Page.isAllowed, Page.navRoles, Page.allowedRoles, hasRole_iff signedIn]
      refine iff_of_true ?_ (by rintro allowed ⟨⟩)
      simp only [validRoles, List.mem_cons] at valid ⊢
      tauto

end

/-! ## Calls -/

/-- No page calls a route that is open to anyone. -/
theorem Page.Calls.guarded {page : Page} {call : ApiCall} (made : page.Calls call) :
    call.route.access ≠ .anyone := by
  cases made <;> rintro ⟨⟩

/-- The roles that a page goes by are those of the guard, apart from the analyst's
on the audit page. -/
theorem Page.Calls.agree_iff {page : Page} {call : ApiCall} (made : page.Calls call)
    (proper : page ≠ .dashboard) (role : Role) :
    (((∀ allowed, page.allowedRoles = some allowed → role ∈ roleSuperAdmin :: allowed) ∧
        (call.managesPolicies = true →
          role ∈ [roleSuperAdmin, roleAdmin, roleSecurityManager, roleSuperAdmin])) ↔
      call.route.access.admits role) ↔ ¬ (page = .audit ∧ role = roleAnalyst) := by
  cases made with
  | recentEvents | countUsers | testAdmin | testUser => exact absurd rfl proper
  | launchApp | fetchPolicies | runEvaluation | setupMFA | verifyMFA | refreshProfile =>
      simp [Page.allowedRoles, ApiCall.managesPolicies, ApiCall.route, Route.access, Access.admits]
  | createPolicy | deletePolicy =>
      have managers : role ∈ [roleSuperAdmin, roleAdmin, roleSecurityManager, roleSuperAdmin] ↔
          role ∈ [roleSuperAdmin, roleAdmin, roleSecurityManager] := by
        simp only [List.mem_cons]
        tauto
      simp [Page.allowedRoles, ApiCall.managesPolicies, ApiCall.route, Route.access, Access.admits,
        -List.mem_cons, managers]
  | fetchUsers =>
      have admins : role ∈ [roleSuperAdmin, roleAdmin, roleSuperAdmin] ↔
          role ∈ [roleSuperAdmin, roleAdmin] := by
        simp only [List.mem_cons]
        tauto
      simp [Page.allowedRoles, ApiCall.managesPolicies, ApiCall.route, Route.access, Access.admits,
        -List.mem_cons, admins]
  | fetchLogs =>
      have readers : role ∈ [roleSuperAdmin, roleAdmin, roleSecurityManager, roleAnalyst,
          roleSuperAdmin] ↔
          role ∈ [roleSuperAdmin, roleAdmin, roleSecurityManager] ∨ role = roleAnalyst := by
        simp only [List.mem_cons]
        tauto
      have apart : roleAnalyst ∉ [roleSuperAdmin, roleAdmin, roleSecurityManager] := by decide
      simp only [Page.allowedRoles, ApiCall.managesPolicies, ApiCall.route, Route.access,
        Access.admits, Option.some.injEq, forall_eq', readers]
      by_cases analyst : role = roleAnalyst
      · subst analyst
        simp [-List.mem_cons, apart]
      · simp [-List.mem_cons, analyst]

/-- Wherever an orderly session comes to rest with a token of the server, its links
are its pages, and a page other than the dashboard offers a call exactly if the
server lets it through, in whatever state: except that analysts find an audit
page that the server serves to others only. -/
theorem pages_follow_guards (p : Platform) (sound : p.service.jwt.Sound) (corsOrigin : String)
    {owner : Token → PublicUser} {sessionStorage : Option Token} {events : List Event}
    (orderly : (machine owner).Always (fun _ next => Orderly owner next.before next.event)
      (mounted sessionStorage) events)
    {s : Session} (idle : (machine owner).run (mounted sessionStorage) events = ⟨s, []⟩)
    {u : User} {signIn look : Env} {token : Token} (carried : s.api.token = some token)
    (issued : p.service.generateJWT signIn u = .ok token.text)
    (trimmed : trimSpace token.text = token.text) (owned : owner token = u.toPublic)
    (unexpired : look.now < newNumericDate (signIn.now + tokenExpiry)) (network : Network)
    (w : World MemoryUserStore) (page : Page) :
    (u.role ∈ validRoles →
      (page.isAllowed s = true ↔ protectedRoute s page.allowedRoles = .outlet)) ∧
    ∀ call, page.Calls call → call.Sendable → page ≠ .dashboard →
      ((s.Offers page call ↔
        ((frontDoor p corsOrigin).step w (call.arriving s.api network look)).2.entered ≠ none) ↔
        ¬ (page = .audit ∧ u.role = roleAnalyst)) := by
  obtain ⟨settled, signedIn⟩ := idle_session orderly idle carried
  have role : (owner token).role = u.role := by
    rw [owned]
    rfl
  refine ⟨?_, ?_⟩
  · intro valid
    rw [outlet_iff settled signedIn, isAllowed_iff signedIn (role ▸ valid)]
  · intro call made sendable proper
    rw [offers_iff settled signedIn, role,
      call_entered_iff sound issued trimmed carried unexpired sendable made.guarded]
    exact made.agree_iff proper u.role

/-- The token that alice gets at the start of time. -/
def alicesJwt : Token := ⟨"jwt", by decide⟩

theorem pages_follow_guards_alice :
    (alice.role ∈ validRoles →
      (Page.isAllowed ⟨some alice.toPublic, some alicesJwt, false, .constructor (some alicesJwt)⟩
          .users = true ↔
        protectedRoute ⟨some alice.toPublic, some alicesJwt, false,
          .constructor (some alicesJwt)⟩ Page.users.allowedRoles = .outlet)) ∧
    ∀ call, Page.users.Calls call → call.Sendable → Page.users ≠ .dashboard →
      ((Session.Offers ⟨some alice.toPublic, some alicesJwt, false,
          .constructor (some alicesJwt)⟩ .users call ↔
        ((frontDoor plainPlatform "").step plainWorld
          (call.arriving (.constructor (some alicesJwt)) bobsNetwork
            (plainEnv minute "n-1"))).2.entered ≠ none) ↔
        ¬ (Page.users = .audit ∧ alice.role = roleAnalyst)) := by
  have orderly : (machine fun _ => alice.toPublic).Always
      (fun _ next => Orderly (fun _ => alice.toPublic) next.before next.event)
      (mounted (some alicesJwt)) [.profile 0] := by
    refine Machine.always_cons_iff.mpr ⟨?_, Machine.always_nil _ _⟩
    intro operation carried found fetches
    cases found
    cases fetches
    exact .inl rfl
  have issued : plainPlatform.service.generateJWT (plainEnv 0 "t-1") alice =
      .ok alicesJwt.text := rfl
  exact pages_follow_guards plainPlatform (plainJwt_sound aliceClaims) "" orderly rfl rfl issued
    (by decide +kernel) rfl (by decide) bobsNetwork plainWorld .users

end Nexus.Frontend
