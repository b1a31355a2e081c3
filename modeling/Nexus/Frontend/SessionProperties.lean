import Nexus.Frontend.AuthProvider
import Mathlib.Tactic.Push

/-! Sessions under any interleaving of operations and responses: what makes an
idle provider consistent, and what a rejected login leaves behind. -/

set_option autoImplicit false

namespace Nexus.Frontend

open Nexus.Lib Nexus.Users AuthProvider

variable {owner : Token → PublicUser}

/-- One token in three places, and its owner as the user. -/
structure Session.Consistent (owner : Token → PublicUser) (s : Session) : Prop where
  client : s.token = s.api.token
  stored : s.api.sessionStorage = s.api.token
  present : s.user.isSome = s.token.isSome
  owned : ∀ user token, s.user = some user → s.token = some token → user = owner token

/-- The token whose owner a profile that arrives now would show. -/
def Operation.fetches : Operation → Option Token
  | .fetchProfile carried => some carried
  | .getMe carried => carried
  | .register | .login | .loggedIn _ => none

/-- The token whose owner the operation will show if it succeeds. -/
def Operation.awaits : Operation → Option Token
  | .loggedIn token => some token
  | operation => operation.fetches

/-- One of the operations is fetching the owner of the client's token. -/
def ApiClient.Fetching (api : ApiClient) (operations : List Operation) : Prop :=
  ∃ operation ∈ operations, ∃ token, operation.awaits = some token ∧ api.token = some token

/-- One of the operations is about to hand the client's token to the provider. -/
def ApiClient.HandingOver (api : ApiClient) (operations : List Operation) : Prop :=
  ∃ token, .loggedIn token ∈ operations ∧ api.token = some token

structure Browser.Settling (owner : Token → PublicUser) (b : Browser) : Prop where
  stored : b.session.api.sessionStorage = b.session.api.token
  token : b.session.token = b.session.api.token ∨ b.session.api.HandingOver b.pending
  user : b.session.user = b.session.api.token.map owner ∨ b.session.api.Fetching b.pending

/-- The condition on a step. A provider takes over the token that is current, or
another operation will hand that one over; a profile arrives for the owner of
the current token, or another operation fetches that one; and a profile that
fails to arrive after a login is shown already, or is fetched by another
operation too. -/
def Orderly (owner : Token → PublicUser) (b : Browser) : Event → Prop
  | .resumed position => ∀ token, b.pending[position]? = some (.loggedIn token) →
      b.session.api.token = some token ∨
        b.session.api.HandingOver (b.pending.eraseIdx position)
  | .profile position => ∀ operation carried, b.pending[position]? = some operation →
      operation.fetches = some carried →
      b.session.api.token.map owner = some (owner carried) ∨
        b.session.api.Fetching (b.pending.eraseIdx position)
  | .failed position => ∀ carried, b.pending[position]? = some (.getMe carried) →
      b.session.user = b.session.api.token.map owner ∨
        b.session.api.Fetching (b.pending.eraseIdx position)
  | _ => True

theorem Browser.Settling.consistent {b : Browser} (settling : b.Settling owner)
    (idle : b.pending = []) : b.session.Consistent owner := by
  obtain ⟨stored, token, user⟩ := settling
  rw [idle] at token user
  have taken : b.session.token = b.session.api.token := by
    rcases token with same | ⟨_, member, _⟩
    · exact same
    · cases member
  have shown : b.session.user = b.session.token.map owner := by
    rcases user with same | ⟨_, member, _⟩
    · rw [taken, same]
    · cases member
  refine ⟨taken, stored, ?_, ?_⟩
  · rw [shown, Option.isSome_map]
  · intro user token showing held
    rw [shown, held] at showing
    exact (Option.some.inj showing).symm

section
variable {api : ApiClient} {operations more front back : List Operation} {operation : Operation}

theorem Fetching.mono (fetching : api.Fetching operations) (kept : operations ⊆ more) :
    api.Fetching more := by
  obtain ⟨operation, member, awaited⟩ := fetching
  exact ⟨operation, kept member, awaited⟩

theorem HandingOver.mono (handing : api.HandingOver operations) (kept : operations ⊆ more) :
    api.HandingOver more := by
  obtain ⟨token, member, current⟩ := handing
  exact ⟨token, kept member, current⟩

theorem fetching_around : api.Fetching (front ++ operation :: back) ↔
    (∃ token, operation.awaits = some token ∧ api.token = some token) ∨
      api.Fetching (front ++ back) := by
  simp only [ApiClient.Fetching, List.mem_append, List.mem_cons, or_and_right, exists_or,
    exists_eq_left]
  exact or_left_comm

theorem handingOver_around : api.HandingOver (front ++ operation :: back) ↔
    (∃ token, .loggedIn token = operation ∧ api.token = some token) ∨
      api.HandingOver (front ++ back) := by
  simp only [ApiClient.HandingOver, List.mem_append, List.mem_cons, or_and_right, exists_or]
  exact or_left_comm

/-- Only an operation of its own kind hands a token over. -/
theorem handingOver_other (other : ∀ token, .loggedIn token ≠ operation) :
    api.HandingOver (front ++ operation :: back) ↔ api.HandingOver (front ++ back) := by
  rw [handingOver_around]
  refine or_iff_right ?_
  rintro ⟨token, handing, _⟩
  exact other token handing

end

variable {session : Session} {front back : List Operation}

/-- Operations that fetch and hand over nothing may come and go. -/
theorem settling_around {operation : Operation} (silent : operation.awaits = none) :
    (⟨session, front ++ operation :: back⟩ : Browser).Settling owner ↔
      (⟨session, front ++ back⟩ : Browser).Settling owner := by
  have fetching : session.api.Fetching (front ++ operation :: back) ↔
      session.api.Fetching (front ++ back) := by
    rw [fetching_around, silent]
    refine or_iff_right ?_
    rintro ⟨_, awaited, _⟩
    cases awaited
  have handing : session.api.HandingOver (front ++ operation :: back) ↔
      session.api.HandingOver (front ++ back) := by
    refine handingOver_other ?_
    rintro token rfl
    cases silent
  constructor
  · intro settling
    exact ⟨settling.stored, settling.token.imp_right handing.mp,
      settling.user.imp_right fetching.mp⟩
  · intro settling
    exact ⟨settling.stored, settling.token.imp_right handing.mpr,
      settling.user.imp_right fetching.mpr⟩

theorem settling_handing (token : Token) :
    (⟨{ session with api := session.api.setToken (some token) },
      front ++ .loggedIn token :: back⟩ : Browser).Settling owner where
  stored := rfl
  token := .inr ⟨token, by simp, rfl⟩
  user := .inr ⟨.loggedIn token, by simp, token, rfl, rfl⟩

theorem settling_taken_iff {token : Token}
    (settling : (⟨session, front ++ .loggedIn token :: back⟩ : Browser).Settling owner) :
    (⟨{ session with token := some token },
      front ++ .getMe session.api.authorization :: back⟩ : Browser).Settling owner ↔
        session.api.token = some token ∨ session.api.HandingOver (front ++ back) := by
  have handing : session.api.HandingOver (front ++ .getMe session.api.authorization :: back) ↔
      session.api.HandingOver (front ++ back) := handingOver_other (by simp)
  have user : session.user = session.api.token.map owner ∨
      session.api.Fetching (front ++ .getMe session.api.authorization :: back) := by
    cases current : session.api.token with
    | none =>
        rcases settling.user with same | ⟨_, _, _, _, missing⟩
        · exact .inl (same.trans (by rw [current]))
        · rw [current] at missing
          cases missing
    | some held =>
        exact .inr ⟨_, List.mem_append_right _ List.mem_cons_self, held, current, current⟩
  constructor
  · intro after
    exact after.token.imp Eq.symm handing.mp
  · intro law
    exact ⟨settling.stored, law.imp Eq.symm handing.mpr, user⟩

theorem settling_shown_iff {operation : Operation} {carried : Token} {shown : Session}
    (fetches : operation.fetches = some carried)
    (settling : (⟨session, front ++ operation :: back⟩ : Browser).Settling owner)
    (user : shown.user = some (owner carried)) (token : shown.token = session.token)
    (api : shown.api = session.api) :
    (⟨shown, front ++ back⟩ : Browser).Settling owner ↔
      session.api.token.map owner = some (owner carried) ∨
        session.api.Fetching (front ++ back) := by
  have handing : session.api.HandingOver (front ++ operation :: back) ↔
      session.api.HandingOver (front ++ back) := by
    refine handingOver_other ?_
    rintro token rfl
    cases fetches
  constructor
  · intro after
    have settled := after.user
    rw [user, api] at settled
    exact settled.imp_left Eq.symm
  · intro law
    refine ⟨?_, ?_, ?_⟩
    · rw [api]
      exact settling.stored
    · rw [token, api]
      exact settling.token.imp_right handing.mp
    · rw [user, api]
      exact law.imp_left Eq.symm

theorem settling_unwelcome_iff {carried : Option Token}
    (settling : (⟨session, front ++ .getMe carried :: back⟩ : Browser).Settling owner) :
    (⟨session, front ++ back⟩ : Browser).Settling owner ↔
      session.user = session.api.token.map owner ∨ session.api.Fetching (front ++ back) := by
  have handing : session.api.HandingOver (front ++ .getMe carried :: back) ↔
      session.api.HandingOver (front ++ back) := handingOver_other (by simp)
  constructor
  · exact fun after => after.user
  · intro law
    exact ⟨settling.stored, settling.token.imp_right handing.mp, law⟩

variable {b : Browser}

/-- Starting an operation. -/
theorem Browser.Settling.started (settling : b.Settling owner) (operation : Operation) :
    { b with pending := b.pending ++ [operation] }.Settling owner where
  stored := settling.stored
  token := settling.token.imp_right fun handing =>
    HandingOver.mono handing (List.subset_append_left _ _)
  user := settling.user.imp_right fun fetching =>
    Fetching.mono fetching (List.subset_append_left _ _)

/-- A session that is signed out everywhere. -/
theorem settling_signedOut {pending : List Operation} (client : session.api.token = none)
    (stored : session.api.sessionStorage = none) (token : session.token = none)
    (user : session.user = none) : (⟨session, pending⟩ : Browser).Settling owner where
  stored := stored.trans client.symm
  token := .inl (token.trans client.symm)
  user := .inl (user.trans (congrArg (Option.map owner) client).symm)

theorem settling_fetchProfile (settling : b.Settling owner) :
    (fetchProfile b).1.Settling owner := by
  unfold fetchProfile
  cases current : b.session.api.getToken with
  | none => exact ⟨settling.stored, settling.token, .inl (congrArg (Option.map owner) current).symm⟩
  | some carried => exact settling.started _

theorem settling_registered (settling : b.Settling owner) (position : Nat) :
    (registered b position).Settling owner := by
  unfold registered
  split
  · rename_i found
    obtain ⟨front, back, split, replaced, _⟩ := exists_around found
    obtain ⟨session, pending⟩ := b
    subst split
    rw [replaced]
    exact (settling_around rfl).mpr ((settling_around rfl).mp settling)
  · exact settling

theorem settling_issued (settling : b.Settling owner) (position : Nat) (token : Token) :
    (issued b position token).Settling owner := by
  unfold issued
  split
  · rename_i found
    obtain ⟨front, back, _, replaced, _⟩ := exists_around found
    rw [replaced]
    exact settling_handing token
  · exact settling

theorem settling_resumed_iff (settling : b.Settling owner) (position : Nat) :
    (resumed b position).Settling owner ↔ Orderly owner b (.resumed position) := by
  simp only [Orderly]
  unfold resumed
  split
  · rename_i token found
    obtain ⟨front, back, split, replaced, erased⟩ := exists_around found
    obtain ⟨session, pending⟩ := b
    subst split
    rw [replaced, erased]
    refine (settling_taken_iff settling).trans ⟨fun law other same => ?_, fun law => law _ found⟩
    rw [found] at same
    cases same
    exact law
  · rename_i other
    exact iff_of_true settling fun token found => absurd found (other token)

theorem settling_dropped {operation : Operation} {position : Nat} (settling : b.Settling owner)
    (found : b.pending[position]? = some operation) (silent : operation.awaits = none) :
    { b with pending := b.pending.eraseIdx position }.Settling owner := by
  obtain ⟨front, back, split, _, erased⟩ := exists_around found
  obtain ⟨session, pending⟩ := b
  subst split
  rw [erased]
  exact (settling_around silent).mp settling

theorem settling_profile_iff (settling : b.Settling owner) (position : Nat) :
    (profile owner b position).1.Settling owner ↔ Orderly owner b (.profile position) := by
  simp only [Orderly]
  have arrived {operation : Operation} {carried : Token} {shown : Session}
      (found : b.pending[position]? = some operation)
      (fetches : operation.fetches = some carried)
      (user : shown.user = some (owner carried)) (token : shown.token = b.session.token)
      (api : shown.api = b.session.api) :
      (⟨shown, b.pending.eraseIdx position⟩ : Browser).Settling owner ↔
        ∀ operation carried, b.pending[position]? = some operation →
          operation.fetches = some carried →
          b.session.api.token.map owner = some (owner carried) ∨
            b.session.api.Fetching (b.pending.eraseIdx position) := by
    obtain ⟨front, back, split, _, erased⟩ := exists_around found
    obtain ⟨session, pending⟩ := b
    subst split
    rw [erased]
    refine (settling_shown_iff fetches settling user token api).trans
      ⟨fun law other another same also => ?_, fun law => law _ _ found fetches⟩
    rw [found] at same
    cases same
    rw [fetches] at also
    cases also
    exact law
  unfold profile
  split
  · rename_i carried found
    exact arrived found rfl rfl rfl rfl
  · rename_i carried found
    exact arrived found rfl rfl rfl rfl
  · rename_i notProfile notMe
    refine iff_of_true settling fun operation carried found fetches => ?_
    cases operation with
    | fetchProfile other => exact absurd found (notProfile other)
    | getMe other =>
        cases fetches
        exact absurd found (notMe carried)
    | register | login | loggedIn => cases fetches

theorem settling_failed_iff (settling : b.Settling owner) (position : Nat) :
    (failed b position).1.Settling owner ↔ Orderly owner b (.failed position) := by
  simp only [Orderly]
  have unexpected {operation : Operation} (found : b.pending[position]? = some operation)
      (other : ∀ carried, operation ≠ .getMe carried) (carried : Option Token)
      (same : b.pending[position]? = some (.getMe carried)) :
      b.session.user = b.session.api.token.map owner ∨
        b.session.api.Fetching (b.pending.eraseIdx position) := by
    rw [found] at same
    exact absurd (Option.some.inj same) (other carried)
  unfold failed
  split
  · rename_i carried found
    exact iff_of_true (settling_signedOut rfl rfl rfl rfl) (unexpected found (by simp))
  · rename_i found
    exact iff_of_true (settling_dropped settling found rfl) (unexpected found (by simp))
  · rename_i found
    exact iff_of_true (settling_dropped settling found rfl) (unexpected found (by simp))
  · rename_i carried found
    obtain ⟨front, back, split, _, erased⟩ := exists_around found
    obtain ⟨session, pending⟩ := b
    subst split
    rw [erased]
    exact (settling_unwelcome_iff settling).trans ⟨fun law _ _ => law, fun law => law _ found⟩
  · rename_i notGetMe
    exact iff_of_true settling fun carried found => absurd found (notGetMe carried)

/-- What one step makes of a settling provider. -/
theorem settling_step (settling : b.Settling owner) (event : Event) :
    (step owner b event).1.Settling owner ↔ Orderly owner b event := by
  cases event with
  | refreshProfile => exact iff_of_true (settling_fetchProfile settling) trivial
  | login => exact iff_of_true (settling.started _) trivial
  | register => exact iff_of_true (settling.started _) trivial
  | logout => exact iff_of_true (settling_signedOut rfl rfl rfl rfl) trivial
  | registered position => exact iff_of_true (settling_registered settling position) trivial
  | issued position token => exact iff_of_true (settling_issued settling position token) trivial
  | resumed position => exact settling_resumed_iff settling position
  | profile position => exact settling_profile_iff settling position
  | failed position => exact settling_failed_iff settling position

theorem settling_mounted (sessionStorage : Option Token) :
    (mounted sessionStorage).Settling owner := by
  cases sessionStorage with
  | none => exact ⟨rfl, .inl rfl, .inl rfl⟩
  | some token =>
      exact ⟨rfl, .inl rfl, .inr ⟨.fetchProfile token, List.mem_cons_self, token, rfl, rfl⟩⟩

/-- In a run whose steps are all orderly, the session is consistent whenever no
operation is in flight. The orderly runs are exactly those that never leave the
user or the token wrong with nothing under way to correct it. -/
theorem session_consistency (owner : Token → PublicUser) (sessionStorage : Option Token)
    (events : List Event) :
    ((machine owner).Always (fun _ next => Orderly owner next.before next.event)
        (mounted sessionStorage) events →
      ((machine owner).run (mounted sessionStorage) events).pending = [] →
      ((machine owner).run (mounted sessionStorage) events).session.Consistent owner) ∧
    ((machine owner).Always (fun _ next => next.after.Settling owner)
        (mounted sessionStorage) events ↔
      (machine owner).Always (fun _ next => Orderly owner next.before next.event)
        (mounted sessionStorage) events) := by
  have initially : (mounted sessionStorage).Settling owner := settling_mounted sessionStorage
  refine ⟨?_, ?_⟩
  · intro orderly idle
    refine (Machine.Always.run_invariant (Browser.Settling owner) ?_ initially orderly).consistent
      idle
    intro b event settling law
    exact (settling_step settling event).mpr law
  · refine Machine.Always.congr_step (Browser.Settling owner) initially ?_ ?_
    · intro b event _ settling
      exact settling_step settling event
    · intro b event _ settling law
      exact (settling_step settling event).mpr law

/-- The token of alice's. -/
def aliceToken : Token := ⟨"alice", by decide⟩

def bobToken : Token := ⟨"bob", by decide⟩

/-- The user that a token is named after. -/
def namesake (token : Token) : PublicUser where
  id := token.text
  username := token.text
  role := roleViewer
  organizationID := ""
  status := statusActive
  mfaEnabled := false
  createdAt := 0

theorem session_consistency_mounted :
    ((machine namesake).run (mounted (some aliceToken)) [.profile 0]).session.Consistent
      namesake := by
  refine (session_consistency namesake (some aliceToken) [.profile 0]).1 ?_ rfl
  refine Machine.always_cons_iff.mpr ⟨?_, Machine.always_nil _ _⟩
  intro operation carried found fetches
  cases found
  cases fetches
  exact .inl rfl

/-- A logout while the profile of the mounted page is under way. -/
theorem session_stale_profile :
    ¬ ∀ (sessionStorage : Option Token) (events : List Event),
      ((machine namesake).run (mounted sessionStorage) events).pending = [] →
      ((machine namesake).run (mounted sessionStorage) events).session.Consistent namesake := by
  intro always
  have consistent := always (some aliceToken) [.logout, .profile 0] (by decide)
  exact absurd consistent.present (by decide)

/-! ## A login with nothing else running -/

/-- The events of a login, given the token it is issued, if any, and whether the
profile arrives. -/
def loginAlone (answer : Option Token) (profileArrives : Bool) : List Event :=
  .login :: match answer with
    | none => [.failed 0]
    | some token => [.issued 0 token, .resumed 0, if profileArrives then .profile 0 else .failed 0]

/-- Whether a promise is rejected, by the settlements on the way. -/
theorem rejects_iff (start : Browser) (events : List Event) :
    (∃ next ∈ (machine owner).trace start events, next.output = some .rejected) ↔
      some .rejected ∈ ((machine owner).trace start events).map (·.output) := by
  rw [List.mem_map]

/-- A rejected login leaves the session as it was exactly if the login request
was what failed, or the session held the new token in all three places. -/
theorem login_rejection_iff (owner : Token → PublicUser) (before : Session)
    (answer : Option Token) (profileArrives : Bool) :
    ((∃ next ∈ (machine owner).trace ⟨before, []⟩ (loginAlone answer profileArrives),
          next.output = some .rejected) →
        ((machine owner).run ⟨before, []⟩ (loginAlone answer profileArrives)).session = before) ↔
      answer = none ∨ profileArrives = true ∨ (before.token = answer ∧
        before.api.token = answer ∧ before.api.sessionStorage = answer) := by
  rw [rejects_iff]
  cases answer with
  | none => exact iff_of_true (fun _ => rfl) (.inl rfl)
  | some token =>
      cases profileArrives with
      | true =>
          have settled : ((machine owner).trace ⟨before, []⟩ (loginAlone (some token) true)).map
              (·.output) = [none, none, none, some .resolved] := rfl
          rw [settled]
          exact iff_of_true (fun rejected => absurd rejected (by decide)) (.inr (.inl rfl))
      | false =>
          have settled : ((machine owner).trace ⟨before, []⟩ (loginAlone (some token) false)).map
              (·.output) = [none, none, none, some .rejected] := rfl
          have after : ((machine owner).run ⟨before, []⟩ (loginAlone (some token) false)).session =
              { before with token := some token, api := before.api.setToken (some token) } := rfl
          rw [settled, after]
          constructor
          · intro unchanged
            have same := unchanged (by simp)
            exact .inr (.inr ⟨congrArg Session.token same |>.symm,
              congrArg (·.api.token) same |>.symm, congrArg (·.api.sessionStorage) same |>.symm⟩)
          · rintro (missing | arrived | ⟨provider, client, stored⟩) _
            · cases missing
            · cases arrived
            · obtain ⟨user, token, isLoading, api⟩ := before
              obtain ⟨current, item⟩ := api
              cases provider
              cases client
              cases stored
              rfl

/-- Signed in as alice, and the profile of bob's does not arrive. -/
theorem login_rejection_replaces :
    ¬ ∀ (before : Session) (answer : Option Token) (profileArrives : Bool),
      (∃ next ∈ (machine namesake).trace ⟨before, []⟩ (loginAlone answer profileArrives),
          next.output = some .rejected) →
        ((machine namesake).run ⟨before, []⟩ (loginAlone answer profileArrives)).session =
          before := by
  intro always
  have rejected : some Settlement.rejected ∈ ((machine namesake).trace
      ⟨((machine namesake).run (mounted (some aliceToken)) [.profile 0]).session, []⟩
      (loginAlone (some bobToken) false)).map (·.output) := by decide
  have unchanged := always _ (some bobToken) false (List.mem_map.mp rejected)
  exact absurd unchanged (by decide)

end Nexus.Frontend
