import Nexus.Server.ConcurrentProperties

/-! Replaying the trail reproduces the policies exactly if no deletion was
logged before the creation. -/

set_option autoImplicit false

namespace Nexus.Server

open Nexus.Lib Nexus.Go Nexus.Users Nexus.Auth Nexus.Audit Nexus.Policy

/-- A deletion was logged before the creation of the same policy. -/
def Overtaken (s : Traffic MemoryUserStore) : Prop :=
  Overtakes (changes s.world.audit.events) (changes s.unlogged)

section
variable {p : Platform} {seeded : List String} {s : Traffic MemoryUserStore}

theorem logsInOrder_idle {event : Progress}
    (unready : ∀ position incoming logged unlogged reply, event = .log position →
      s.inFlight[position]? ≠
        some { incoming := incoming, stage := .acted (logged :: unlogged) reply }) :
    LogsInOrder ((traffic p).fire s event) := by
  intro position incoming logged unlogged reply id append ready
  exact absurd ready (unready position incoming logged unlogged reply append)

theorem logsInOrder_other {event : Progress} (other : ∀ position, event ≠ .log position) :
    LogsInOrder ((traffic p).fire s event) :=
  logsInOrder_idle fun position _ _ _ _ append => absurd append (other position)

theorem logsInOrder_log_iff {position : Nat} {incoming : Incoming} {logged : Event}
    {unlogged : List Event} {reply : Reply}
    (ready : s.inFlight[position]? =
      some { incoming := incoming, stage := .acted (logged :: unlogged) reply }) :
    LogsInOrder ((traffic p).fire s (.log position)) ↔
      ∀ id, policyChange logged = some (.remove id) → .add id ∉ changes s.unlogged := by
  constructor
  · intro ordered id
    exact ordered position incoming logged unlogged reply id rfl ready
  · intro ordered other _ _ _ _ id append found
    cases append
    have same := ready.symm.trans found
    cases same
    exact ordered id

theorem changes_cons_of_none {event : Event} (silent : policyChange event = none)
    (events : List Event) : changes (event :: events) = changes events :=
  List.filterMap_cons_none silent

theorem changes_cons_of_some {event : Event} {change : Change String}
    (recorded : policyChange event = some change) (events : List Event) :
    changes (event :: events) = change :: changes events :=
  List.filterMap_cons_some recorded

/-- Logging brings changes out of order only where it logs a deletion while the
creation still waits. -/
theorem overtakes_log_iff {trail unlogged rest : List Event} {logged : Event}
    (moved : (logged :: rest).Perm unlogged) :
    Overtakes (changes (trail ++ [logged])) (changes rest) ↔
      Overtakes (changes trail) (changes unlogged) ∨
        ¬ ∀ id, policyChange logged = some (.remove id) → .add id ∉ changes unlogged := by
  have waiting : (changes (logged :: rest)).Perm (changes unlogged) := moved.filterMap _
  rw [changes_append]
  cases recorded : policyChange logged with
  | none =>
      rw [changes_cons_of_none recorded] at waiting ⊢
      have ordered : ∀ id, (none : Option (Change String)) = some (.remove id) →
          .add id ∉ changes unlogged := fun _ another => nomatch another
      have nothing : changes trail ++ changes [] = changes trail := List.append_nil _
      have more : (changes rest).Perm (changes unlogged ++ []) := by simpa using waiting
      rw [or_iff_left (not_not_intro ordered), nothing]
      exact overtakes_issue_iff more fun _ created => nomatch created
  | some change =>
      rw [changes_cons_of_some recorded] at waiting ⊢
      refine (overtakes_append_iff waiting).trans (or_congr_right ?_)
      push Not
      constructor
      · rintro ⟨id, rfl, added⟩
        exact ⟨id, rfl, waiting.subset (List.mem_cons_of_mem _ added)⟩
      · rintro ⟨id, same, added⟩
        cases same
        have later := waiting.mem_iff.mpr added
        exact ⟨id, rfl, by simpa using later⟩

/-- No removal of a policy is recorded before the policy is created. -/
theorem PolicyEffect.created_unremoved {incoming : Incoming} {before after : Engine}
    {added : List Event} (effect : PolicyEffect incoming before after added)
    (booked : Booked seeded s)
    (fresh : ∀ body, incoming.route = .createPolicy body →
      incoming.env.newID ∉ seeded ∧ .add incoming.env.newID ∉ changes s.events)
    {id : String} (created : .add id ∈ changes added) : .remove id ∉ changes s.events := by
  cases effect with
  | nothing _ silent =>
      rw [silent] at created
      cases created
  | creates route _ recorded =>
      rw [recorded, List.mem_singleton] at created
      cases created
      obtain ⟨unseeded, unused⟩ := fresh _ route
      exact fun removed => (booked.known _ removed).elim unseeded unused
  | deletes _ _ recorded =>
      rw [recorded, List.mem_singleton] at created
      cases created

/-- The step that first logs a deletion before its creation sets the latch. -/
theorem overtaken_step (sound : p.service.jwt.Sound) (booked : Booked seeded s)
    {event : Progress} (fresh : FreshPolicy seeded ((traffic p).fire s event)) :
    Overtaken ((traffic p).step s event).1 ↔
      Overtaken s ∨ ¬ LogsInOrder ((traffic p).fire s event) := by
  have quiet : ∀ later : Traffic MemoryUserStore, LogsInOrder ((traffic p).fire s event) →
      (Overtaken later ↔ Overtaken s) →
      (Overtaken later ↔ Overtaken s ∨ ¬ LogsInOrder ((traffic p).fire s event)) := by
    intro later ordered same
    rw [same, or_iff_left (not_not_intro ordered)]
  have moves := traffic_step sound booked.keyed event
  generalize (traffic p).step s event = result at moves ⊢
  cases moves with
  | stuck unready same =>
      subst same
      exact quiet s (logsInOrder_idle unready) Iff.rfl
  | arrives incoming arrival joined =>
      subst joined
      refine quiet _ (logsInOrder_other ?_) ?_
      · subst arrival
        intro position another
        cases another
      · simp [Overtaken, Traffic.unlogged, Flight.unlogged]
  | acts action ready around accounted acted =>
      rename_i position incoming front back after reply added
      subst acted
      refine quiet _ (logsInOrder_other ?_) ?_
      · subst action
        intro position another
        cases another
      · have unremoved : ∀ id, .add id ∈ changes added →
            .remove id ∉ changes s.world.audit.events := by
          intro id created removed
          refine accounted.policies.created_unremoved booked ?_ created ?_
          · exact fun body route => fresh _ _ body action ready route
          · rw [Traffic.events, changes_append]
            exact List.mem_append_left _ removed
        refine overtakes_issue_iff ?_ unremoved
        refine List.perm_iff_count.mpr fun change => ?_
        simp only [Traffic.unlogged, around, List.flatMap_append, List.flatMap_cons,
          Flight.unlogged, List.nil_append, changes_append, List.count_append]
        omega
  | logs append ready around appended =>
      rename_i position incoming front back logged unlogged reply
      subst appended
      subst append
      rw [logsInOrder_log_iff ready]
      have moved : (logged :: (front ++ { incoming := incoming, stage := .acted unlogged reply } ::
          back).flatMap Flight.unlogged).Perm s.unlogged := by
        simp only [Traffic.unlogged, around, List.flatMap_append, List.flatMap_cons,
          Flight.unlogged, List.cons_append]
        exact List.perm_middle.symm
      exact overtakes_log_iff moved
  | answers answer around left =>
      subst left
      refine quiet _ (logsInOrder_other ?_) ?_
      · subst answer
        intro position another
        cases another
      · simp [Overtaken, Traffic.unlogged, around, Flight.unlogged]

theorem overtaken_idle {w : World MemoryUserStore} (empty : w.audit.events = []) :
    ¬ Overtaken (.idle w) := by
  have nothing : changes (Traffic.idle w).world.audit.events = [] := by
    rw [Traffic.idle, empty]
    rfl
  rw [Overtaken, nothing]
  exact overtakes_nil _

end

/-- Whenever no request is in flight, replaying the trail from its oldest event
to its newest reproduces the policies if and only if so far no deletion of a
policy was logged while the creation of that policy still waited to be. -/
theorem replay_reproduces_iff (p : Platform) (sound : p.service.jwt.Sound)
    {w : World MemoryUserStore} (keyed : Keyed w.store) (empty : w.audit.events = [])
    {events : List Progress}
    (fresh : (traffic p).Always (fun _ next => FreshPolicy w.engine.policies.keys next)
      (.idle w) events)
    (quiet : ((traffic p).run (.idle w) events).inFlight = []) :
    (∀ id, id ∈ replay w.engine.policies.keys
          (changes ((traffic p).run (.idle w) events).world.audit.events) ↔
        id ∈ ((traffic p).run (.idle w) events).world.engine.policies) ↔
      (traffic p).Always (fun _ next => LogsInOrder next) (.idle w) events := by
  have step : ∀ s event, Booked w.engine.policies.keys s →
      FreshPolicy w.engine.policies.keys ((traffic p).fire s event) →
      Booked w.engine.policies.keys ((traffic p).step s event).1 :=
    fun _ _ booked law => booked_step sound booked law
  have start : Booked w.engine.policies.keys (.idle w) := booked_idle keyed empty
  have booked := fresh.run_invariant (Booked w.engine.policies.keys) step start
  have latched := Machine.Always.iff_not_latched (Booked w.engine.policies.keys) Overtaken step
    (fun _ _ before law => overtaken_step sound before law) start (overtaken_idle empty) fresh
  rw [latched, Overtaken, unlogged_of_quiet quiet]
  obtain ⟨_, policies, once, _⟩ := booked
  rw [events_of_quiet quiet] at policies once
  simp only [policies]
  exact replay_iff_ordered once

/-- Alice creates a policy, sees it in a listing and deletes it. -/
def alicePolicies : List Progress :=
  [.arrive aliceCreates, .act 0, .log 0, .answer 0,
    .arrive (aliceSends .listPolicies), .act 0, .answer 0,
    .arrive (aliceSends (.deletePolicy "n-1")), .act 0, .log 0, .answer 0]

theorem alicePolicies_fresh :
    (traffic plainPlatform).Always
      (fun _ next => FreshPolicy plainWorld.engine.policies.keys next)
      (.idle plainWorld) alicePolicies := by
  unfold alicePolicies
  iterate 11 rw [Machine.always_cons_iff]
  refine ⟨freshPolicy_other nofun, aliceCreates_fresh, freshPolicy_other nofun,
    freshPolicy_other nofun, freshPolicy_other nofun, freshPolicy_route rfl nofun,
    freshPolicy_other nofun, freshPolicy_other nofun, freshPolicy_route rfl nofun,
    freshPolicy_other nofun, freshPolicy_other nofun, Machine.always_nil _ _⟩

theorem replay_reproduces_alice :
    "n-1" ∈ replay plainWorld.engine.policies.keys (changes
        ((traffic plainPlatform).run (.idle plainWorld) alicePolicies).world.audit.events) ↔
      "n-1" ∈
        ((traffic plainPlatform).run (.idle plainWorld) alicePolicies).world.engine.policies := by
  refine (replay_reproduces_iff plainPlatform (plainJwt_sound aliceClaims) plainWorld_keyed rfl
    alicePolicies_fresh rfl).mpr ?_ "n-1"
  unfold alicePolicies
  iterate 11 rw [Machine.always_cons_iff]
  refine ⟨logsInOrder_other nofun, logsInOrder_other nofun, (logsInOrder_log_iff rfl).mpr ?_,
    logsInOrder_other nofun, logsInOrder_other nofun, logsInOrder_other nofun,
    logsInOrder_other nofun, logsInOrder_other nofun, logsInOrder_other nofun,
    (logsInOrder_log_iff rfl).mpr ?_, logsInOrder_other nofun, Machine.always_nil _ _⟩
  · intro id removed
    cases removed
  · intro id _ created
    cases created with
    | tail _ created => cases created

/-- The deletion comes before the creation is logged. -/
def aliceHurries : List Progress :=
  [.arrive aliceCreates, .act 0,
    .arrive (aliceSends .listPolicies), .act 1, .answer 1,
    .arrive (aliceSends (.deletePolicy "n-1")), .act 1, .log 1, .answer 1,
    .log 0, .answer 0]

theorem deletion_overtakes_creation :
    (traffic plainPlatform).Always
        (fun _ next => FreshPolicy plainWorld.engine.policies.keys next)
        (.idle plainWorld) aliceHurries ∧
      ((traffic plainPlatform).run (.idle plainWorld) aliceHurries).inFlight = [] ∧
      ¬ ∀ id, id ∈ replay plainWorld.engine.policies.keys (changes
          ((traffic plainPlatform).run (.idle plainWorld) aliceHurries).world.audit.events) ↔
        id ∈
          ((traffic plainPlatform).run (.idle plainWorld) aliceHurries).world.engine.policies := by
  refine ⟨?_, rfl, ?_⟩
  · unfold aliceHurries
    iterate 11 rw [Machine.always_cons_iff]
    exact ⟨freshPolicy_other nofun, aliceCreates_fresh, freshPolicy_other nofun,
      freshPolicy_route rfl nofun, freshPolicy_other nofun, freshPolicy_other nofun,
      freshPolicy_route rfl nofun, freshPolicy_other nofun, freshPolicy_other nofun,
      freshPolicy_other nofun, freshPolicy_other nofun, Machine.always_nil _ _⟩
  · intro reproduces
    have kept := (reproduces "n-1").mp (by decide)
    exact absurd kept (by decide)

end Nexus.Server
