import Nexus.Server.AccountProperties

/-! The trail accounts for every answer and every policy, however requests
interleave. -/

set_option autoImplicit false

namespace Nexus.Server

open Nexus.Lib Nexus.Go Nexus.Users Nexus.Auth Nexus.Audit Nexus.Policy

/-! ## One step -/

/-- All that a step can do to the requests in flight. -/
inductive Moves (p : Platform) (s : Traffic MemoryUserStore) (event : Progress)
    (result : Traffic MemoryUserStore × Option Answered) : Prop where
  | stuck (unready : ∀ position incoming logged unlogged reply, event = .log position →
        s.inFlight[position]? ≠
          some { incoming := incoming, stage := .acted (logged :: unlogged) reply })
      (same : result = (s, none))
  | arrives (incoming : Incoming) (arrival : event = .arrive incoming)
      (joined : result = ({ s with
        inFlight := s.inFlight ++ [{ incoming := incoming, stage := .arrived }] }, none))
  | acts {position : Nat} {incoming : Incoming} {front back : List Flight}
      {after : World MemoryUserStore} {reply : Reply} {added : List Event}
      (action : event = .act position)
      (ready : s.inFlight[position]? = some { incoming := incoming, stage := .arrived })
      (around : s.inFlight = front ++ { incoming := incoming, stage := .arrived } :: back)
      (accounted : Accounted p.service s.world after
        { incoming := incoming, reply := reply } added)
      (acted : result = ({
        world := { after with audit := s.world.audit }
        inFlight := front ++
          { incoming := incoming, stage := .acted added reply } :: back }, none))
  | logs {position : Nat} {incoming : Incoming} {front back : List Flight} {logged : Event}
      {unlogged : List Event} {reply : Reply} (append : event = .log position)
      (ready : s.inFlight[position]? =
        some { incoming := incoming, stage := .acted (logged :: unlogged) reply })
      (around : s.inFlight = front ++
        { incoming := incoming, stage := .acted (logged :: unlogged) reply } :: back)
      (appended : result = ({
        world := { s.world with audit := s.world.audit.append logged }
        inFlight := front ++
          { incoming := incoming, stage := .acted unlogged reply } :: back }, none))
  | answers {position : Nat} {incoming : Incoming} {front back : List Flight} {reply : Reply}
      (answer : event = .answer position)
      (around : s.inFlight = front ++ { incoming := incoming, stage := .acted [] reply } :: back)
      (left : result = ({ s with inFlight := front ++ back },
        some { incoming := incoming, reply := reply }))

section
variable {p : Platform} {s : Traffic MemoryUserStore}

theorem serve_eq {position : Nat} {incoming : Incoming} {added : List Event}
    (accounted : Accounted p.service s.world ((server p).step s.world incoming).1
      { incoming := incoming, reply := ((server p).step s.world incoming).2 } added) :
    s.serve p position incoming = {
      world := { ((server p).step s.world incoming).1 with audit := s.world.audit }
      inFlight := s.inFlight.set position {
        incoming := incoming
        stage := .acted added ((server p).step s.world incoming).2 } } := by
  unfold Traffic.serve
  generalize (server p).step s.world incoming = outcome at accounted ⊢
  dsimp only
  rw [accounted.trail, List.drop_left]

theorem traffic_step (sound : p.service.jwt.Sound) (keyed : Keyed s.world.store)
    (event : Progress) : Moves p s event ((traffic p).step s event) := by
  cases event with
  | arrive incoming => exact .arrives incoming rfl rfl
  | act position =>
      simp only [traffic]
      split
      · rename_i incoming ready
        obtain ⟨front, back, around, replaced, _⟩ := exists_around ready
        obtain ⟨added, accounted⟩ := step_accounted sound keyed incoming
        refine .acts rfl ready around accounted ?_
        rw [serve_eq accounted, replaced]
      · exact .stuck (fun _ _ _ _ _ another => nomatch another) rfl
  | log position =>
      simp only [traffic]
      split
      · rename_i incoming logged unlogged reply ready
        obtain ⟨front, back, around, replaced, _⟩ := exists_around ready
        refine .logs rfl ready around ?_
        rw [replaced]
      · rename_i unready
        refine .stuck ?_ rfl
        intro other incoming logged unlogged reply same ready
        cases same
        exact unready incoming logged unlogged reply ready
  | answer position =>
      simp only [traffic]
      split
      · rename_i incoming reply ready
        obtain ⟨front, back, around, _, erased⟩ := exists_around ready
        refine .answers rfl around ?_
        rw [erased]
      · exact .stuck (fun _ _ _ _ _ another => nomatch another) rfl

end

/-! ## Accounts -/

/-- All events of the requests so far, appended or not. -/
def Traffic.events (s : Traffic MemoryUserStore) : List Event :=
  s.world.audit.events ++ s.unlogged

/-- A request that has acted owes its user an answer about the account. -/
def Account.due (svc : Service) (account : Account) (userID : String) (flight : Flight) : Bool :=
  match flight.stage with
  | .arrived => false
  | .acted _ reply =>
      account.recipient svc { incoming := flight.incoming, reply := reply } = some userID

/-- The events account for the answers given and the answers due. -/
structure Balanced (svc : Service)
    (past : List (Transition (Traffic MemoryUserStore) Progress (Option Answered)))
    (s : Traffic MemoryUserStore) : Prop where
  keyed : Keyed s.world.store
  balance : ∀ account userID, s.events.countP (Account.records account userID) =
    past.countP (account.answers svc userID) + s.inFlight.countP (account.due svc userID)

theorem balanced_step {p : Platform} (sound : p.service.jwt.Sound)
    (past : List (Transition (Traffic MemoryUserStore) Progress (Option Answered)))
    (s : Traffic MemoryUserStore) (event : Progress) (balanced : Balanced p.service past s) :
    Balanced p.service (past ++ [(traffic p).fire s event]) ((traffic p).step s event).1 := by
  have moves := traffic_step sound balanced.keyed event
  have fired : ∀ account userID,
      (past ++ [(traffic p).fire s event]).countP (Account.answers p.service account userID) =
        past.countP (Account.answers p.service account userID) +
          if ((traffic p).step s event).2.any (fun answered =>
            account.recipient p.service answered = some userID) = true then 1 else 0 := by
    intro account userID
    rw [List.countP_append, List.countP_singleton]
    rfl
  generalize (traffic p).step s event = result at moves fired ⊢
  generalize past ++ [(traffic p).fire s event] = present at fired ⊢
  cases moves with
  | stuck _ same =>
      subst same
      exact {
        keyed := balanced.keyed
        balance := fun account userID => by
          rw [fired, balanced.balance]
          rfl }
  | arrives incoming _ joined =>
      subst joined
      refine { keyed := balanced.keyed, balance := fun account userID => ?_ }
      have before := balanced.balance account userID
      simp only [Traffic.events, Traffic.unlogged, List.flatMap_append, List.flatMap_cons,
        List.flatMap_nil, Flight.unlogged, List.append_nil, List.countP_append, List.countP_cons,
        List.countP_nil, Account.due, fired, Option.any_none] at before ⊢
      simpa using before
  | acts _ _ around accounted acted =>
      subst acted
      refine { keyed := accounted.keyed, balance := fun account userID => ?_ }
      have before := balanced.balance account userID
      have added := accounted.balance account userID
      simp only [Traffic.events, Traffic.unlogged, around, List.flatMap_append, List.flatMap_cons,
        Flight.unlogged, List.nil_append, List.countP_append, List.countP_cons, Account.due,
        fired, Option.any_none, decide_eq_true_eq] at before added ⊢
      simp only [Bool.false_eq_true, if_false] at before ⊢
      omega
  | logs _ _ around appended =>
      subst appended
      refine { keyed := balanced.keyed, balance := fun account userID => ?_ }
      have before := balanced.balance account userID
      simp only [Traffic.events, Traffic.unlogged, around, MemoryLogger.append,
        List.flatMap_append, List.flatMap_cons, Flight.unlogged, List.cons_append,
        List.countP_append, List.countP_cons, List.countP_nil, Account.due, fired,
        Option.any_none, decide_eq_true_eq] at before ⊢
      simp only [Bool.false_eq_true, if_false] at before ⊢
      omega
  | answers _ around left =>
      subst left
      refine { keyed := balanced.keyed, balance := fun account userID => ?_ }
      have before := balanced.balance account userID
      simp only [Traffic.events, Traffic.unlogged, around, List.flatMap_append, List.flatMap_cons,
        Flight.unlogged, List.nil_append, List.countP_append, List.countP_cons, Account.due,
        fired, Option.any_some, decide_eq_true_eq] at before ⊢
      omega

/-! ## Policies -/

/-- The policies are those the events tell of, and none is deleted twice. -/
structure Booked (seeded : List String) (s : Traffic MemoryUserStore) : Prop where
  keyed : Keyed s.world.store
  policies : ∀ id, id ∈ s.world.engine.policies ↔
    (id ∈ seeded ∨ .add id ∈ changes s.events) ∧ .remove id ∉ changes s.events
  once : ∀ id, (changes s.events).count (.remove id) ≤ 1
  known : ∀ id, .remove id ∈ changes s.events → id ∈ seeded ∨ .add id ∈ changes s.events

section
variable {p : Platform} {seeded : List String} {s : Traffic MemoryUserStore}

theorem Booked.of_changes (booked : Booked seeded s) {later : Traffic MemoryUserStore}
    (keyed : Keyed later.world.store) (sameEngine : later.world.engine = s.world.engine)
    (same : (changes later.events).Perm (changes s.events)) : Booked seeded later := by
  refine ⟨keyed, ?_, ?_, ?_⟩
  · intro id
    rw [sameEngine, same.mem_iff, same.mem_iff]
    exact booked.policies id
  · intro id
    rw [same.count_eq]
    exact booked.once id
  · intro id
    rw [same.mem_iff, same.mem_iff]
    exact booked.known id

/-- Events have moved from the requests to the trail, if at all. -/
theorem Booked.of_perm (booked : Booked seeded s) {later : Traffic MemoryUserStore}
    (keyed : Keyed later.world.store) (sameEngine : later.world.engine = s.world.engine)
    (sameEvents : later.events.Perm s.events) : Booked seeded later :=
  booked.of_changes keyed sameEngine (sameEvents.filterMap _)

/-- A request has acted. -/
theorem Booked.of_effect (booked : Booked seeded s) {later : Traffic MemoryUserStore}
    (keyed : Keyed later.world.store) {incoming : Incoming} {added : List Event}
    (more : later.events.Perm (s.events ++ added))
    (effect : PolicyEffect incoming s.world.engine later.world.engine added)
    (fresh : ∀ body, incoming.route = .createPolicy body →
      incoming.env.newID ∉ seeded ∧ .add incoming.env.newID ∉ changes s.events) :
    Booked seeded later := by
  have grown : (changes later.events).Perm (changes s.events ++ changes added) := by
    rw [← changes_append]
    exact more.filterMap _
  cases effect with
  | nothing same silent =>
      rw [silent, List.append_nil] at grown
      exact booked.of_changes keyed same grown
  | creates route stored recorded =>
      obtain ⟨unseeded, unused⟩ := fresh _ route
      have unremoved : .remove incoming.env.newID ∉ changes s.events := fun removed =>
        (booked.known _ removed).elim unseeded unused
      rw [recorded] at grown
      refine ⟨keyed, ?_, ?_, ?_⟩
      · intro id
        rw [stored, booked.policies, grown.mem_iff, grown.mem_iff]
        by_cases same : id = incoming.env.newID
        · simp [same, unremoved]
        · simp [same]
      · intro id
        rw [grown.count_eq]
        simpa using booked.once id
      · intro id
        rw [grown.mem_iff, grown.mem_iff]
        intro removed
        have before := booked.known id (by simpa using removed)
        simp only [List.mem_append]
        exact before.imp_right .inl
  | deletes present removed recorded =>
      rename_i id
      obtain ⟨held, unremoved⟩ := (booked.policies id).mp present
      rw [recorded] at grown
      refine ⟨keyed, ?_, ?_, ?_⟩
      · intro other
        rw [removed, booked.policies, grown.mem_iff, grown.mem_iff]
        simp only [List.mem_append, List.mem_singleton, reduceCtorEq, or_false,
          Change.remove.injEq, not_or]
        tauto
      · intro other
        rw [grown.count_eq, List.count_append]
        by_cases same : other = id
        · subst same
          rw [List.count_eq_zero_of_not_mem unremoved]
          simp
        · have apart : Change.remove id ≠ Change.remove other := fun equal =>
            same (Change.remove.inj equal).symm
          rw [List.count_singleton]
          simpa [apart] using booked.once other
      · intro other
        rw [grown.mem_iff, grown.mem_iff]
        simp only [List.mem_append, List.mem_singleton, reduceCtorEq, or_false,
          Change.remove.injEq]
        rintro (before | rfl)
        · exact booked.known other before
        · exact held

theorem booked_step (sound : p.service.jwt.Sound) (booked : Booked seeded s) {event : Progress}
    (fresh : FreshPolicy seeded ((traffic p).fire s event)) :
    Booked seeded ((traffic p).step s event).1 := by
  have moves := traffic_step sound booked.keyed event
  generalize (traffic p).step s event = result at moves ⊢
  cases moves with
  | stuck _ same =>
      subst same
      exact booked
  | arrives incoming _ joined =>
      subst joined
      refine booked.of_perm booked.keyed rfl ?_
      simp [Traffic.events, Traffic.unlogged, Flight.unlogged]
  | acts action ready around accounted acted =>
      subst acted
      refine booked.of_effect accounted.keyed ?_ accounted.policies fun body route =>
        fresh _ _ body action ready route
      refine List.perm_iff_count.mpr fun event => ?_
      simp only [Traffic.events, Traffic.unlogged, around, List.flatMap_append, List.flatMap_cons,
        Flight.unlogged, List.nil_append, List.count_append]
      omega
  | logs _ _ around appended =>
      subst appended
      refine booked.of_perm booked.keyed rfl ?_
      refine List.perm_iff_count.mpr fun event => ?_
      simp only [Traffic.events, Traffic.unlogged, around, MemoryLogger.append,
        List.flatMap_append, List.flatMap_cons, Flight.unlogged, List.cons_append,
        List.count_append, List.count_cons, List.count_nil]
      omega
  | answers _ around left =>
      subst left
      refine booked.of_perm booked.keyed rfl ?_
      simp [Traffic.events, Traffic.unlogged, around, Flight.unlogged]

end

/-! ## Whole runs -/

section
variable {p : Platform} {w : World MemoryUserStore} {seeded : List String}
  {s : Traffic MemoryUserStore}

theorem freshPolicy_other {event : Progress} (other : ∀ position, event ≠ .act position) :
    FreshPolicy seeded ((traffic p).fire s event) :=
  fun position _ _ act => absurd act (other position)

theorem freshPolicy_route {position : Nat} {incoming : Incoming}
    (ready : s.inFlight[position]? = some { incoming := incoming, stage := .arrived })
    (other : ∀ body, incoming.route ≠ .createPolicy body) :
    FreshPolicy seeded ((traffic p).fire s (.act position)) := by
  intro _ _ body act found route
  cases act
  have same := ready.symm.trans found
  cases same
  exact absurd route (other body)

theorem unlogged_of_quiet (quiet : s.inFlight = []) : s.unlogged = [] := by
  rw [Traffic.unlogged, quiet]
  rfl

theorem events_of_quiet (quiet : s.inFlight = []) : s.events = s.world.audit.events := by
  rw [Traffic.events, unlogged_of_quiet quiet, List.append_nil]

theorem events_idle (empty : w.audit.events = []) : (Traffic.idle w).events = [] :=
  (events_of_quiet rfl).trans empty

theorem balanced_idle (keyed : Keyed w.store) (empty : w.audit.events = []) :
    Balanced p.service [] (.idle w) where
  keyed := keyed
  balance account userID := by
    rw [events_idle empty]
    rfl

theorem booked_idle (keyed : Keyed w.store) (empty : w.audit.events = []) :
    Booked w.engine.policies.keys (.idle w) := by
  refine ⟨keyed, ?_, ?_, ?_⟩ <;> intro id <;> rw [events_idle empty]
  · simp [changes, Traffic.idle, AList.mem_keys]
  · exact Nat.zero_le 1
  · exact fun removed => absurd removed List.not_mem_nil

/-- The events of a request that has acted are appended one by one. -/
theorem run_log {incoming : Incoming} {reply : Reply} (unlogged : List Event)
    (acted : s.inFlight = [{ incoming := incoming, stage := .acted unlogged reply }]) :
    (traffic p).run s (List.replicate unlogged.length (.log 0)) = {
      world := { s.world with audit.events := s.world.audit.events ++ unlogged }
      inFlight := [{ incoming := incoming, stage := .acted [] reply }] } := by
  induction unlogged generalizing s with
  | nil =>
      rw [List.append_nil, ← acted]
      rfl
  | cons logged unlogged ih =>
      have next : ((traffic p).step s (.log 0)).1 = {
          world := { s.world with audit := s.world.audit.append logged }
          inFlight := [{ incoming := incoming, stage := .acted unlogged reply }] } := by
        simp [traffic, acted]
      rw [List.length_cons, List.replicate_succ, Machine.run_cons, next, ih rfl]
      simp [MemoryLogger.append]

/-- A request that nothing comes between does what the server does. -/
theorem traffic_alone (sound : p.service.jwt.Sound) (keyed : Keyed w.store)
    (incoming : Incoming) :
    ∃ count,
      (traffic p).run (.idle w) ([.arrive incoming, .act 0] ++ List.replicate count (.log 0)) = {
        world := ((server p).step w incoming).1
        inFlight := [{
          incoming := incoming
          stage := .acted [] ((server p).step w incoming).2 }] } := by
  obtain ⟨added, accounted⟩ := step_accounted sound keyed incoming
  refine ⟨added.length, ?_⟩
  have acts : (traffic p).run (.idle w) [.arrive incoming, .act 0] =
      ({ world := w, inFlight := [{ incoming := incoming, stage := .arrived }] } :
        Traffic MemoryUserStore).serve p 0 incoming := rfl
  rw [Machine.run_append, acts, serve_eq accounted, run_log added rfl]
  rw [← accounted.trail]

end

/-- Whenever no request is in flight, the trail tells how often each user was
given each kind of answer, and the policies are those created and not deleted. -/
theorem audit_accounting (p : Platform) (sound : p.service.jwt.Sound)
    {w : World MemoryUserStore} (keyed : Keyed w.store) (empty : w.audit.events = [])
    {events : List Progress}
    (fresh : (traffic p).Always (fun _ next => FreshPolicy w.engine.policies.keys next)
      (.idle w) events)
    (quiet : ((traffic p).run (.idle w) events).inFlight = []) :
    (∀ account userID,
      ((traffic p).run (.idle w) events).world.audit.events.countP
          (Account.records account userID) =
        ((traffic p).trace (.idle w) events).countP
          (Account.answers p.service account userID)) ∧
    ∀ id, id ∈ ((traffic p).run (.idle w) events).world.engine.policies ↔
      (id ∈ w.engine.policies ∨
        .add id ∈ changes ((traffic p).run (.idle w) events).world.audit.events) ∧
      .remove id ∉ changes ((traffic p).run (.idle w) events).world.audit.events := by
  constructor
  · intro account userID
    have balanced := (traffic p).history_invariant (Balanced p.service)
      (balanced_idle keyed empty) (balanced_step sound) events
    have balance := balanced.balance account userID
    rw [events_of_quiet quiet, quiet, List.countP_nil, Nat.add_zero] at balance
    exact balance
  · intro id
    have booked := fresh.run_invariant (Booked w.engine.policies.keys)
      (fun _ _ before law => booked_step sound before law) (booked_idle keyed empty)
    have policies := booked.policies id
    rw [events_of_quiet quiet, AList.mem_keys.symm] at policies
    exact policies

theorem plainWorld_keyed : Keyed plainWorld.store :=
  keyed_createUser keyed_new (plainEnv 0 "") alice

def aliceCreates : Incoming :=
  aliceSends (.createPolicy (some { name := "Payroll", application := "payroll" }))

theorem aliceCreates_fresh :
    FreshPolicy plainWorld.engine.policies.keys ((traffic plainPlatform).fire
      { world := plainWorld, inFlight := [{ incoming := aliceCreates, stage := .arrived }] }
      (.act 0)) := by
  intro position incoming body act ready _
  cases act
  cases ready
  exact ⟨by decide, List.not_mem_nil⟩

/-- Alice creates a policy and is denied access by another, with steps in between. -/
def aliceRuns : List Progress :=
  [.arrive aliceCreates, .act 0,
    .arrive (aliceSends (.checkAccess (some { application := "payroll" }))),
    .act 1, .log 1, .answer 1, .log 0, .answer 0]

theorem aliceRuns_fresh :
    (traffic plainPlatform).Always
      (fun _ next => FreshPolicy plainWorld.engine.policies.keys next)
      (.idle plainWorld) aliceRuns := by
  unfold aliceRuns
  iterate 8 rw [Machine.always_cons_iff]
  exact ⟨freshPolicy_other nofun, aliceCreates_fresh, freshPolicy_other nofun,
    freshPolicy_route rfl nofun, freshPolicy_other nofun, freshPolicy_other nofun,
    freshPolicy_other nofun, freshPolicy_other nofun, Machine.always_nil _ _⟩

theorem audit_accounting_alice :
    ((traffic plainPlatform).run (.idle plainWorld) aliceRuns).world.audit.events.countP
        (Account.records .accessDenied "u-1") =
      ((traffic plainPlatform).trace (.idle plainWorld) aliceRuns).countP
        (Account.answers plainPlatform.service .accessDenied "u-1") :=
  (audit_accounting plainPlatform (plainJwt_sound aliceClaims) plainWorld_keyed rfl
    aliceRuns_fresh rfl).1 .accessDenied "u-1"

end Nexus.Server
