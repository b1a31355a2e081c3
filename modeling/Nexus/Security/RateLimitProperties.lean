import Nexus.Auth.ServiceProperties
import Nexus.Lib.Streak
import Nexus.Security.RateLimitMachine

/-! What the limiter answers after any calls: its counter is the length of the
last chain of failures, and its deadline the end of the lockout. -/

set_option autoImplicit false

namespace Nexus.Security

open Nexus.Lib Nexus.Go
open Nexus.Auth (plainEnv)

/-! ## Redis commands -/

namespace Redis

theorem find_insert {client : Redis} {now : Time} {key : String} {counter : Counter}
    (live : counter.live now = true) :
    find (client.insert key counter) now key = some counter := by
  rw [find, AList.lookup_insert, Option.filter_some, if_pos live]

theorem incr_eq (client : Redis) (now : Time) (key : String) :
    ∃ counter : Counter, counter.live now = true ∧
      counter.value = (client.get now key).elim 1 (· + 1) ∧
      client.incr now key = (client.insert key counter, counter.value) := by
  rw [incr, get]
  cases found : client.find now key with
  | none => exact ⟨{ value := 1 }, rfl, rfl, rfl⟩
  | some counter =>
      have live := (Option.filter_eq_some_iff.mp found).2
      exact ⟨{ counter with value := counter.value + 1 }, live, rfl, rfl⟩

theorem expire_insert {client : Redis} {now : Time} {key : String} {counter : Counter}
    (live : counter.live now = true) (duration : Int) :
    expire (client.insert key counter) now key duration =
      client.insert key { counter with deadline := some (now + duration) } := by
  rw [expire, find_insert live]
  exact AList.insert_insert client

end Redis

theorem loginKey_inj {ip other : String} : loginKey ip = loginKey other ↔ ip = other := by
  constructor
  · intro same
    exact String.append_right_inj _ |>.mp same
  · intro same
    rw [same]

/-- The counter that failures leave behind. -/
def counterOf (failures : List Time) : Option Counter :=
  failures.head?.map fun latest =>
    { value := (streak Close failures).length, deadline := some (latest + lockoutDuration) }

def Tracks (client : Redis) (calls : List LimiterCall) : Prop :=
  ∀ ip, client.lookup (loginKey ip) = counterOf (failuresOf ip calls)

theorem live_iff {value : Int} {latest now : Time} :
    ({ value := value, deadline := some (latest + lockoutDuration) } : Counter).live now = true ↔
      Close now latest := by
  simp only [Counter.live, decide_eq_true_eq, Close]
  rw [Int.sub_lt_iff, Int.add_comm]

theorem find_of_tracks {client : Redis} {calls : List LimiterCall} (tracks : Tracks client calls)
    (now : Time) (ip : String) :
    client.get now (loginKey ip) =
      (failuresOf ip calls).head?.bind fun latest =>
        if Close now latest then some ((streak Close (failuresOf ip calls)).length : Int)
        else none := by
  rw [Redis.get, Redis.find, tracks ip, counterOf]
  cases (failuresOf ip calls).head? with
  | none => rfl
  | some latest =>
      by_cases close : Close now latest
      · simp [close, live_iff.mpr close]
      · simp [close, mt live_iff.mp close]

/-! ## Calls of the limiter -/

theorem recordFailedLogin_up {env : Env} (up : env.redisUp = true) (ip : String)
    (client : Redis) {count : Int}
    (counted : (client.get env.now (loginKey ip)).elim 1 (· + 1) = count) :
    (Limiter.redis client).recordFailedLogin env ip =
      (.redis (client.insert (loginKey ip)
        { value := count, deadline := some (env.now + lockoutDuration) }),
        .ok (count, decide (maxLoginAttempts ≤ count))) := by
  obtain ⟨counter, live, value, incremented⟩ := client.incr_eq env.now (loginKey ip)
  rw [counted] at value
  simp only [Limiter.recordFailedLogin, up, if_true, incremented, Redis.expire_insert live, value]

/-- One more failure makes the chain longer or starts a new one. -/
theorem streak_cons (now : Time) (failures : List Time) :
    ((streak Close (now :: failures)).length : Int) =
      (failures.head?.bind fun latest =>
        if Close now latest then some ((streak Close failures).length : Int) else none).elim
        1 (· + 1) := by
  cases failures with
  | nil => rfl
  | cons latest older =>
      by_cases close : Close now latest
      · simp [streak, close]
      · simp [streak, close]

theorem failuresOf_append (ip : String) (calls : List LimiterCall) (call : LimiterCall) :
    failuresOf ip (calls ++ [call]) = call.tally ip (failuresOf ip calls) := by
  rw [failuresOf, List.foldl_append]
  rfl

theorem tracks_step {client : Redis} {calls : List LimiterCall} (tracks : Tracks client calls)
    {call : LimiterCall} (up : call.env.redisUp = true) :
    ∃ after, (limiting.step (.redis client) call).1 = .redis after ∧
      Tracks after (calls ++ [call]) := by
  obtain ⟨env, method, address⟩ := call
  replace up : env.redisUp = true := up
  cases method with
  | recordFailedLogin =>
      have found := find_of_tracks tracks env.now address
      have counted := (congrArg (Option.elim · 1 (· + 1)) found).trans
        (streak_cons env.now (failuresOf address calls)).symm
      refine ⟨_, congrArg Prod.fst (recordFailedLogin_up up address client counted), ?_⟩
      intro ip
      rw [GoMap.lookup_insert_eq, failuresOf_append, LimiterCall.tally]
      by_cases same : address = ip
      · subst same
        simp [counterOf]
      · rw [if_neg (fun equal => same (loginKey_inj.mp equal).symm), if_neg same]
        exact tracks ip
  | isRateLimited =>
      refine ⟨client, rfl, ?_⟩
      intro ip
      rw [failuresOf_append, LimiterCall.tally, ite_self]
      exact tracks ip
  | resetFailedLogins =>
      refine ⟨client.del (loginKey address), by simp [limiting, Limiter.resetFailedLogins, up], ?_⟩
      intro ip
      rw [Redis.del, GoMap.lookup_erase_eq, failuresOf_append, LimiterCall.tally]
      by_cases same : address = ip
      · subst same
        simp [counterOf]
      · rw [if_neg (fun equal => same (loginKey_inj.mp equal).symm), if_neg same]
        exact tracks ip

theorem run_tracks (calls : List LimiterCall)
    (answered : ∀ call ∈ calls, call.env.redisUp = true) :
    ∃ client, limiting.run (.redis ∅) calls = .redis client ∧ Tracks client calls := by
  induction calls using List.reverseRecOn with
  | nil => exact ⟨∅, rfl, fun _ => rfl⟩
  | append_singleton calls call ih =>
      obtain ⟨client, reached, tracks⟩ :=
        ih fun earlier member => answered earlier (List.mem_append_left [call] member)
      rw [Machine.run_append, reached]
      exact tracks_step tracks (answered call List.mem_concat_self)

/-! ## The lockout -/

def lockedOut (failures : List Time) (now : Time) : Bool :=
  failures.head?.any fun latest =>
    decide (Close now latest) && decide (maxLoginAttempts ≤ (streak Close failures).length)

theorem lockedOut_iff {failures : List Time} {now : Time} :
    lockedOut failures now = true ↔ LockedOut failures now := by
  simp only [lockedOut, Option.any_eq_true, Bool.and_eq_true, decide_eq_true_eq]
  constructor
  · rintro ⟨latest, first, close, long⟩
    refine ⟨_, streak_front failures, long, streak_isChain failures, ?_⟩
    intro head within
    have same := first.symm.trans (head?_of_front (streak_front failures) within)
    cases same
    exact close
  · rintro ⟨chain, front, long, together, close⟩
    have streaked := length_le_streak front together
    cases chain with
    | nil => exact absurd long (by decide)
    | cons latest older =>
        refine ⟨latest, head?_of_front front rfl, close latest rfl, ?_⟩
        exact Int.le_trans long (Int.ofNat_le.mpr streaked)

theorem isRateLimited_of_tracks {client : Redis} {calls : List LimiterCall}
    (tracks : Tracks client calls) {env : Env} (up : env.redisUp = true) (ip : String) :
    (Limiter.redis client).isRateLimited env ip =
      .ok (lockedOut (failuresOf ip calls) env.now) := by
  simp only [Limiter.isRateLimited, up, if_true, find_of_tracks tracks, lockedOut]
  cases (failuresOf ip calls).head? with
  | none => rfl
  | some latest =>
      by_cases close : Close env.now latest
      · simp [close]
      · simp [close]

theorem failuresOf_filter (ip : String) (calls : List LimiterCall) :
    failuresOf ip (calls.filter (·.ip = ip)) = failuresOf ip calls := by
  induction calls using List.reverseRecOn with
  | nil => rfl
  | append_singleton calls call ih =>
      rw [List.filter_append, failuresOf_append]
      by_cases own : call.ip = ip
      · have kept : [call].filter (·.ip = ip) = [call] := by simp [own]
        rw [kept, failuresOf_append, ih]
      · have dropped : [call].filter (·.ip = ip) = [] := by simp [own]
        rw [dropped, List.append_nil, ih, LimiterCall.tally, if_neg own]

/-- After any calls the limiter answers that an address is limited exactly if it
is locked out by the failures recorded since its last reset, calls for other
addresses never matter, and a recorded failure reports what a check right after
it answers. -/
theorem lockout_exact (calls : List LimiterCall)
    (answered : ∀ call ∈ calls, call.env.redisUp = true) (env : Env) (up : env.redisUp = true)
    (ip : String) :
    (∃ limited, (limiting.run (.redis ∅) calls).isRateLimited env ip = .ok limited ∧
        (limited = true ↔ LockedOut (failuresOf ip calls) env.now)) ∧
      (limiting.run (.redis ∅) (calls.filter (·.ip = ip))).isRateLimited env ip =
        (limiting.run (.redis ∅) calls).isRateLimited env ip ∧
      ∃ after count limited,
        (limiting.run (.redis ∅) calls).recordFailedLogin env ip = (after, .ok (count, limited)) ∧
          after.isRateLimited env ip = .ok limited := by
  obtain ⟨client, reached, tracks⟩ := run_tracks calls answered
  have checked := isRateLimited_of_tracks tracks up ip
  rw [reached]
  refine ⟨⟨_, checked, lockedOut_iff⟩, ?_, ?_⟩
  · obtain ⟨other, alsoReached, alsoTracks⟩ := run_tracks (calls.filter (·.ip = ip))
      fun call member => answered call (List.mem_of_mem_filter member)
    rw [alsoReached, checked, isRateLimited_of_tracks alsoTracks up, failuresOf_filter]
  · obtain ⟨count, counted⟩ : ∃ count, (client.get env.now (loginKey ip)).elim 1 (· + 1) = count :=
      ⟨_, rfl⟩
    refine ⟨_, _, _, recordFailedLogin_up up ip client counted, ?_⟩
    have alive : (⟨count, some (env.now + lockoutDuration)⟩ : Counter).live env.now = true := by
      rw [live_iff, Close, Int.sub_self]
      decide
    simp only [Limiter.isRateLimited, up, if_true, Redis.get, Redis.find_insert alive,
      Option.map_some, ge_iff_le]

/-- Failed logins from one address, at the given minutes. -/
def failing (minutes : List Int) : List LimiterCall :=
  minutes.map fun m =>
    { env := plainEnv (m * minute) "", method := .recordFailedLogin, ip := "192.0.2.7" }

theorem lockout_exact_five :
    ∃ limited, (limiting.run (.redis ∅) (failing [0, 1, 2, 3, 4])).isRateLimited
        (plainEnv (18 * minute) "") "192.0.2.7" = .ok limited ∧
      (limited = true ↔ LockedOut (failuresOf "192.0.2.7" (failing [0, 1, 2, 3, 4]))
        (18 * minute)) :=
  (lockout_exact (failing [0, 1, 2, 3, 4]) (by decide) (plainEnv (18 * minute) "") rfl
    "192.0.2.7").1

/-! ## The sliding window -/

theorem failuresOf_mem {ip : String} {calls : List LimiterCall} {failure : Time}
    (member : failure ∈ failuresOf ip calls) : failure ∈ calls.map (·.env.now) := by
  induction calls using List.reverseRecOn with
  | nil => cases member
  | append_singleton calls call ih =>
      rw [failuresOf_append, LimiterCall.tally] at member
      rw [List.map_append, List.mem_append]
      split at member
      · cases method : call.method with
        | recordFailedLogin =>
            rw [method] at member
            rcases List.mem_cons.mp member with rfl | older
            · exact .inr (List.mem_singleton.mpr rfl)
            · exact .inl (ih older)
        | isRateLimited =>
            rw [method] at member
            exact .inl (ih member)
        | resetFailedLogins =>
            rw [method] at member
            cases member
      · exact .inl (ih member)

theorem failuresOf_sorted (ip : String) {calls : List LimiterCall}
    (clock : (calls.map (·.env.now)).Pairwise (· ≤ ·)) :
    (failuresOf ip calls).Pairwise (· ≥ ·) := by
  induction calls using List.reverseRecOn with
  | nil => exact .nil
  | append_singleton calls call ih =>
      rw [List.map_append, List.pairwise_append] at clock
      obtain ⟨before, _, last⟩ := clock
      rw [failuresOf_append, LimiterCall.tally]
      split
      · cases call.method with
        | recordFailedLogin =>
            refine List.pairwise_cons.mpr ⟨?_, ih before⟩
            intro failure member
            exact last failure (failuresOf_mem member) _ (List.mem_singleton.mpr rfl)
        | isRateLimited => exact ih before
        | resetFailedLogins => exact .nil
      · exact ih before

theorem lockedOut_iff_recent {failures : List Time} {now : Time} :
    LockedOut failures now ↔
      maxLoginAttempts ≤ failures.length ∧ (now :: recent failures).IsChain Close := by
  rw [List.isChain_cons]
  constructor
  · rintro ⟨chain, front, long, together, close⟩
    have enough : maxLoginAttempts.toNat ≤ chain.length := Int.toNat_le.mpr long
    have same : recent failures = chain.take maxLoginAttempts.toNat := by
      obtain ⟨rest, rfl⟩ := front
      exact List.take_append_of_le_length enough
    refine ⟨Int.le_trans long (Int.ofNat_le.mpr front.length_le), ?_, ?_⟩
    · intro first head
      rw [same] at head
      exact close first (head?_of_front (List.take_prefix _ _) head)
    · rw [same]
      exact together.take _
  · rintro ⟨long, close, together⟩
    have enough : maxLoginAttempts.toNat ≤ failures.length := Int.toNat_le.mpr long
    refine ⟨recent failures, List.take_prefix _ _, ?_, together, close⟩
    rw [recent, List.length_take, Nat.min_eq_left enough]
    decide

theorem windowFull_iff_recent {failures : List Time} {now : Time}
    (sorted : failures.Pairwise (· ≥ ·)) :
    WindowFull failures now ↔
      maxLoginAttempts ≤ failures.length ∧ ∀ failure ∈ recent failures, Close now failure := by
  have fronts : failures.Pairwise fun newer older =>
      decide (Close now older) = true → decide (Close now newer) = true := by
    refine sorted.imp ?_
    intro newer older order
    simp only [decide_eq_true_eq]
    exact Int.lt_of_le_of_lt (Int.sub_le_sub_left order now)
  rw [WindowFull, ← Int.toNat_le, le_length_filter_iff fronts, Int.toNat_le]
  simp only [decide_eq_true_eq, recent]

/-- Failures that all lie within the last 15 minutes form a chain. -/
theorem isChain_of_close {failures : List Time} {now : Time}
    (sorted : failures.Pairwise (· ≥ ·)) (past : ∀ failure ∈ failures, failure ≤ now)
    (close : ∀ failure ∈ failures, Close now failure) : (now :: failures).IsChain Close := by
  apply List.Pairwise.isChain
  refine List.pairwise_cons.mpr ⟨close, sorted.imp_of_mem ?_⟩
  intro newer older newerMember olderMember _
  have nearer := Int.sub_le_sub_right (past newer newerMember) older
  exact Int.lt_of_le_of_lt nearer (close older olderMember)

/-- With a clock that never goes back, the limiter answers as a window over the
last 15 minutes would exactly if the five latest failures are not stretched. -/
theorem sliding_window_iff (calls : List LimiterCall)
    (answered : ∀ call ∈ calls, call.env.redisUp = true) (env : Env) (up : env.redisUp = true)
    (clock : (calls.map (·.env.now) ++ [env.now]).Pairwise (· ≤ ·)) (ip : String) :
    ((limiting.run (.redis ∅) calls).isRateLimited env ip = .ok true ↔
        WindowFull (failuresOf ip calls) env.now) ↔
      ¬ Stretched (failuresOf ip calls) env.now := by
  obtain ⟨client, reached, tracks⟩ := run_tracks calls answered
  obtain ⟨before, _, last⟩ := List.pairwise_append.mp clock
  have sorted := failuresOf_sorted ip before
  have past : ∀ failure ∈ failuresOf ip calls, failure ≤ env.now := by
    intro failure member
    exact last failure (failuresOf_mem member) _ List.mem_cons_self
  rw [reached, isRateLimited_of_tracks tracks up, Except.ok.injEq, lockedOut_iff,
    lockedOut_iff_recent, windowFull_iff_recent sorted, Stretched]
  constructor
  · rintro agree ⟨long, together, failure, member, far⟩
    exact far ((agree.mp ⟨long, together⟩).2 failure member)
  · intro tight
    constructor
    · rintro ⟨long, together⟩
      refine ⟨long, ?_⟩
      intro failure member
      by_contra far
      exact tight ⟨long, together, failure, member, far⟩
    · rintro ⟨long, close⟩
      have front : recent (failuresOf ip calls) <+: failuresOf ip calls := List.take_prefix _ _
      refine ⟨long, isChain_of_close (sorted.sublist front.sublist) ?_ close⟩
      exact fun failure member => past failure (front.subset member)

/-- Five failures in 56 minutes, of which two are in the window. -/
theorem slow_failures_limited :
    (limiting.run (.redis ∅) (failing [0, 14, 28, 42, 56])).isRateLimited
        (plainEnv (56 * minute) "") "192.0.2.7" = .ok true ∧
      ¬ WindowFull (failuresOf "192.0.2.7" (failing [0, 14, 28, 42, 56])) (56 * minute) := by
  refine ⟨by decide, ?_⟩
  unfold WindowFull
  decide

theorem sliding_window_burst :
    (limiting.run (.redis ∅) (failing [0, 1, 2, 3, 4])).isRateLimited
        (plainEnv (14 * minute) "") "192.0.2.7" = .ok true ↔
      WindowFull (failuresOf "192.0.2.7" (failing [0, 1, 2, 3, 4])) (14 * minute) :=
  (sliding_window_iff (failing [0, 1, 2, 3, 4]) (by decide) (plainEnv (14 * minute) "") rfl
    (by decide) "192.0.2.7").mpr (by
      unfold Stretched
      decide)

end Nexus.Security
