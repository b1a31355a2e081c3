import Nexus.Security.RateLimitProperties
import Nexus.Security.Replicas

/-! Which counters expire when replicas and failures interleave. -/

set_option autoImplicit false

namespace Nexus.Security

open Nexus.Lib Nexus.Go
open Nexus.Auth (plainEnv)

theorem Redis.find_eq_some_iff {client : Redis} {now : Time} {key : String} {counter : Counter} :
    client.find now key = some counter ↔
      client.lookup key = some counter ∧ counter.live now = true :=
  Option.filter_eq_some_iff

theorem Counter.live_of_none {counter : Counter} (immortal : counter.deadline = none)
    (now : Time) : counter.live now = true := by
  rw [Counter.live, immortal]

theorem Redis.incr_deadline (client : Redis) (now : Time) (key : String) :
    ∃ counter : Counter, (client.incr now key).1 = client.insert key counter ∧
      (counter.deadline = none ∨
        ∃ old, client.lookup key = some old ∧ old.deadline = counter.deadline) := by
  rw [incr]
  cases found : client.find now key with
  | none => exact ⟨{ value := 1 }, rfl, .inl rfl⟩
  | some old =>
      exact ⟨{ old with value := old.value + 1 }, rfl,
        .inr ⟨old, (find_eq_some_iff.mp found).1, rfl⟩⟩

/-- What one command leaves of a counter: an INCR may create it without a
deadline, and the EXPIRE is then still to come; an EXPIRE sets one; and any
other counter keeps its own. -/
theorem execute_lookup {clock : Time} {client : Redis} {recording : Recording} {key : String}
    {counter : Counter}
    (found : (recording.execute clock client).1.lookup key = some counter) :
    (counter.deadline = none ∧ (recording.execute clock client).2.awaits key) ∨
      counter.deadline = some (clock + lockoutDuration) ∨
      ((∃ old, client.lookup key = some old ∧ old.deadline = counter.deadline) ∧
        (counter.deadline = none → ¬ recording.awaits key)) := by
  obtain ⟨own, stage⟩ := recording
  have another : key ≠ own → ∀ stage, ¬ (Recording.mk own stage).awaits key :=
    fun different _ awaits => different awaits.1.symm
  cases stage with
  | queued =>
      obtain ⟨created, inserted, kept⟩ := client.incr_deadline clock own
      simp only [Recording.execute] at found ⊢
      rw [inserted, GoMap.lookup_insert_eq] at found
      split at found
      · rename_i same
        subst same
        cases found
        rcases kept with immortal | kept
        · exact .inl ⟨immortal, rfl, nofun⟩
        · by_cases immortal : counter.deadline = none
          · exact .inl ⟨immortal, rfl, nofun⟩
          · exact .inr (.inr ⟨kept, fun none => absurd none immortal⟩)
      · rename_i different
        exact .inr (.inr ⟨⟨counter, found, rfl⟩, fun _ => another different _⟩)
  | incremented count =>
      simp only [Recording.execute, Redis.expire] at found ⊢
      cases present : client.find clock own with
      | none =>
          rw [present] at found
          refine .inr (.inr ⟨⟨counter, found, rfl⟩, ?_⟩)
          intro immortal awaits
          obtain rfl := awaits.1
          rw [Redis.find_eq_some_iff.mpr ⟨found, Counter.live_of_none immortal clock⟩] at present
          cases present
      | some old =>
          rw [present, GoMap.lookup_insert_eq] at found
          split at found
          · cases found
            exact .inr (.inl rfl)
          · rename_i different
            exact .inr (.inr ⟨⟨counter, found, rfl⟩, fun _ => another different _⟩)
  | expired count =>
      exact .inr (.inr ⟨⟨counter, found, rfl⟩, fun _ awaits => awaits.2 count rfl⟩)

/-! ## What holds of every run -/

/-- No deadline lies too far ahead, and EXPIRE is still to come where one is
missing. -/
structure Replicas.Sound (s : Replicas) : Prop where
  timely : ∀ {key counter}, s.client.lookup key = some counter →
    ∀ deadline ∈ counter.deadline, deadline ≤ s.clock + lockoutDuration
  awaited : ∀ {key counter}, s.client.lookup key = some counter → counter.deadline = none →
    ∃ recording ∈ s.inProgress, recording.awaits key

theorem sound_new (clock : Time) : (Replicas.new clock).Sound where
  timely found := by cases found
  awaited found := by cases found

theorem Replicas.Sound.bounded {s : Replicas} (sound : s.Sound) (idle : s.inProgress = []) :
    s.Bounded := by
  intro key counter found
  have stored := (Redis.find_eq_some_iff.mp found).1
  cases deadline : counter.deadline with
  | none =>
      obtain ⟨recording, member, _⟩ := sound.awaited stored deadline
      rw [idle] at member
      cases member
  | some deadline' => exact ⟨deadline', rfl, sound.timely stored deadline' deadline⟩

theorem sound_pass {s : Replicas} (sound : s.Sound) (elapsed : Nat) :
    (replicas.step s (.pass elapsed)).1.Sound where
  timely := by
    intro key counter found deadline set
    have before := sound.timely found deadline set
    have later : s.clock ≤ s.clock + elapsed :=
      Int.le_add_of_nonneg_right (Int.natCast_nonneg elapsed)
    exact Int.le_trans before (Int.add_le_add_right later lockoutDuration)
  awaited := sound.awaited

theorem sound_execute {s : Replicas} (sound : s.Sound) (position : Nat) :
    (replicas.step s (.execute position)).1.Sound := by
  simp only [replicas]
  cases present : s.inProgress[position]? with
  | none => exact sound
  | some recording =>
      obtain ⟨front, back, around, replaced, _⟩ := exists_around present
      simp only [replaced]
      constructor
      · intro key counter found deadline set
        rcases execute_lookup found with ⟨immortal, _⟩ | renewed | ⟨⟨old, stored, same⟩, _⟩
        · rw [immortal] at set
          cases set
        · rw [renewed] at set
          cases set
          exact Int.le_refl _
        · exact sound.timely stored deadline (same ▸ set)
      · intro key counter found immortal
        rcases execute_lookup found with ⟨_, awaits⟩ | renewed | ⟨⟨old, stored, same⟩, unawaited⟩
        · exact ⟨_, List.mem_append_right front List.mem_cons_self, awaits⟩
        · rw [immortal] at renewed
          cases renewed
        · obtain ⟨other, member, awaits⟩ := sound.awaited stored (same.trans immortal)
          rw [around, List.perm_middle.mem_iff, List.mem_cons] at member
          rcases member with rfl | elsewhere
          · exact absurd awaits (unawaited immortal)
          · refine ⟨other, ?_, awaits⟩
            rw [List.perm_middle.mem_iff]
            exact List.mem_cons_of_mem _ elsewhere

theorem sound_leave {s : Replicas} (sound : s.Sound) {position : Nat} {recording : Recording}
    (present : s.inProgress[position]? = some recording)
    (covered : ∀ {key counter}, s.client.lookup key = some counter → counter.deadline = none →
      recording.awaits key → ∃ other ∈ s.inProgress.eraseIdx position, other.awaits key) :
    ({ s with inProgress := s.inProgress.eraseIdx position } : Replicas).Sound where
  timely := sound.timely
  awaited := by
    intro key counter found immortal
    obtain ⟨front, back, around, _, erased⟩ := exists_around present
    obtain ⟨other, member, awaits⟩ := sound.awaited found immortal
    rw [around, List.perm_middle.mem_iff, List.mem_cons] at member
    rcases member with rfl | elsewhere
    · exact covered found immortal awaits
    · exact ⟨other, erased ▸ elsewhere, awaits⟩

theorem sound_step {s : Replicas} (sound : s.Sound) {event : ReplicaEvent}
    (uncut : ¬ CutsOff (replicas.fire s event)) : (replicas.step s event).1.Sound := by
  cases event with
  | pass elapsed => exact sound_pass sound elapsed
  | recordFailedLogin ip =>
      refine ⟨sound.timely, ?_⟩
      intro key counter found immortal
      obtain ⟨recording, member, awaits⟩ := sound.awaited found immortal
      exact ⟨recording, List.mem_append_left _ member, awaits⟩
  | execute position => exact sound_execute sound position
  | finish position =>
      simp only [replicas]
      split
      · rename_i key count present
        exact sound_leave sound present fun _ _ awaits => absurd rfl (awaits.2 count)
      · exact sound
  | fail position =>
      simp only [replicas]
      cases present : s.inProgress[position]? with
      | none => exact sound
      | some recording =>
          apply sound_leave sound present
          intro key counter found immortal awaits
          obtain rfl := awaits.1
          by_contra nobody
          refine uncut ⟨position, recording, rfl, present, awaits, ⟨counter, found, immortal⟩, ?_⟩
          exact fun other member awaited => nobody ⟨other, member, awaited⟩
  | isRateLimited ip answered => exact sound
  | resetFailedLogins ip executed answered =>
      cases executed with
      | false => exact sound
      | true =>
          have kept : ∀ {key counter}, (s.client.del (loginKey ip)).lookup key = some counter →
              s.client.lookup key = some counter := by
            intro key counter found
            rw [Redis.del, GoMap.lookup_erase_eq] at found
            exact (Option.ite_none_left_eq_some.mp found).2
          exact ⟨fun found => sound.timely (kept found), fun found => sound.awaited (kept found)⟩

theorem Replicas.Sound.unabandoned {s : Replicas} (sound : s.Sound) (key : String) :
    ¬ s.Abandons key := by
  intro abandons
  obtain ⟨⟨counter, found, immortal⟩, nobody⟩ := abandons
  obtain ⟨recording, member, awaits⟩ := sound.awaited found immortal
  exact nobody recording member awaits

theorem CutsOff.abandons {s : Replicas} {event : ReplicaEvent}
    (cut : CutsOff (replicas.fire s event)) :
    ∃ key, (replicas.step s event).1.Abandons key := by
  obtain ⟨position, recording, failed, present, _, immortal, nobody⟩ := cut
  rw [Machine.fire_event] at failed
  subst failed
  rw [Machine.fire_before] at present immortal nobody
  refine ⟨recording.key, ?_⟩
  simp only [replicas, present]
  exact ⟨immortal, nobody⟩

/-- Undisturbed, a pipeline is the method of the limiter. -/
theorem recordFailedLogin_steps (s : Replicas) {env : Env} (up : env.redisUp = true)
    (now : env.now = s.clock) (ip : String) :
    let position := s.inProgress.length
    let sent := replicas.run s
      [.recordFailedLogin ip, .execute position, .execute position]
    ∃ result, (replicas.step sent (.finish position)).2 = .recorded result ∧
      (replicas.step sent (.finish position)).1.inProgress = s.inProgress ∧
      (Limiter.redis s.client).recordFailedLogin env ip =
        (.redis (replicas.step sent (.finish position)).1.client, result) := by
  simp [replicas, Recording.execute, Limiter.recordFailedLogin, up, now,
    List.eraseIdx_append_of_length_le]

/-- As long as no connection fails before the EXPIRE of a counter without a
deadline while nobody else is about to set one, every counter expires within 15
minutes whenever no call is in progress. These are exactly the runs that never
leave such a counter to no call in progress. -/
theorem counters_expire_iff (clock : Time) (events : List ReplicaEvent) :
    (replicas.Always (fun _ next => ¬ CutsOff next) (.new clock) events →
        ∀ past future, events = past ++ future →
          (replicas.run (.new clock) past).inProgress = [] →
          (replicas.run (.new clock) past).Bounded) ∧
      (replicas.Always (fun _ next => ∀ key, ¬ next.after.Abandons key) (.new clock) events ↔
        replicas.Always (fun _ next => ¬ CutsOff next) (.new clock) events) := by
  refine ⟨?_, ?_⟩
  · intro uncut past future split idle
    subst split
    have sound := Machine.Always.run_invariant Replicas.Sound
      (fun _ _ kept uncut => sound_step kept uncut) (sound_new clock) uncut.of_append
    exact sound.bounded idle
  · apply Machine.Always.congr_step Replicas.Sound (sound_new clock)
    · intro s event _ sound
      constructor
      · intro unabandoned cut
        obtain ⟨key, abandons⟩ := cut.abandons
        exact unabandoned key abandons
      · intro uncut
        exact (sound_step sound uncut).unabandoned
    · exact fun s event _ sound uncut => sound_step sound uncut

/-- A connection fails before EXPIRE, while the next failure is on its way. -/
def mendedPipeline : List ReplicaEvent :=
  [.recordFailedLogin "192.0.2.7", .execute 0, .recordFailedLogin "192.0.2.7", .fail 0,
    .execute 0, .execute 0, .finish 0]

theorem mendedPipeline_uncut :
    replicas.Always (fun _ next => ¬ CutsOff next) (.new 0) mendedPipeline := by
  have other : ∀ (s : Replicas) (event : ReplicaEvent), (∀ position, event ≠ .fail position) →
      ¬ CutsOff (replicas.fire s event) := by
    rintro s event calm ⟨position, _, failed, _⟩
    exact calm position failed
  simp only [mendedPipeline, Machine.always_cons_iff]
  refine ⟨other _ _ nofun, other _ _ nofun, other _ _ nofun, ?_, other _ _ nofun, other _ _ nofun,
    other _ _ nofun, Machine.always_nil _ _⟩
  rintro ⟨position, recording, ⟨⟩, present, _, _, nobody⟩
  cases present
  exact nobody ⟨loginKey "192.0.2.7", .queued⟩ (by simp [replicas, Replicas.new]) ⟨rfl, nofun⟩

theorem counter_expires :
    (replicas.run (.new 0) mendedPipeline).client.lookup (loginKey "192.0.2.7") ≠ none ∧
      (replicas.run (.new 0) mendedPipeline).Bounded :=
  ⟨by decide, (counters_expire_iff 0 mendedPipeline).1 mendedPipeline_uncut mendedPipeline []
    (List.append_nil _).symm (by decide)⟩

/-- INCR reaches Redis, and the connection fails before EXPIRE does. -/
def brokenPipeline : List ReplicaEvent :=
  [.recordFailedLogin "192.0.2.7", .execute 0, .fail 0]

theorem counter_outlives :
    (replicas.run (.new 0) brokenPipeline).inProgress = [] ∧
      ¬ (replicas.run (.new 0) brokenPipeline).Bounded := by
  refine ⟨by decide, ?_⟩
  intro bounded
  obtain ⟨deadline, set, _⟩ := bounded (loginKey "192.0.2.7") { value := 1 } (by decide)
  cases set

end Nexus.Security
