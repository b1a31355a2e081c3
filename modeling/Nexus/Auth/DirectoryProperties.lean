import Nexus.Auth.Directory
import Nexus.Auth.ServiceProperties
import Nexus.Auth.StoreProperties

/-! The user directory under any interleaving of registrations and reads. What
a state owes to its history is the invariant `Reached`, kept by each of the
three kinds of step in `Stepped`. -/

set_option autoImplicit false

namespace Nexus.Auth

open Nexus.Lib Nexus.Go Nexus.Users

variable {svc : Service}

/-! ## Steps -/

/-- Answers that leave the directory as it was. -/
def Answer.Quiet : Answer → Prop
  | .hashed _ | .created _ _ => False
  | _ => True

inductive Stepped (svc : Service) (t : Transition Directory Call Answer) : Prop where
  | unchanged (after : t.after = t.before) (quiet : t.output.Quiet)
  | hashed {env : Env} {input : RegisterInput} {u : User} (event : t.event = .register env input)
      (admitted : svc.newUser env input = .ok u)
      (after : t.after = { t.before with pending := t.before.pending ++ [u] })
      (output : t.output = .hashed u)
  | created {env : Env} {position : Nat} {u : User}
      (pending : t.before.pending[position]? = some u)
      (after : t.after =
        { store := (MemoryUserStore.createUser env t.before.store u).1
          pending := t.before.pending.eraseIdx position })
      (output : t.output = .created u (MemoryUserStore.createUser env t.before.store u).2)

theorem directory_step (svc : Service) (d : Directory) (call : Call) :
    Stepped svc ((directory svc).fire d call) := by
  cases call with
  | register env input =>
      cases admitted : svc.newUser env input with
      | error err =>
          apply Stepped.unchanged <;> simp [directory, admitted, Answer.Quiet]
      | ok u =>
          apply Stepped.hashed rfl admitted <;> simp [directory, admitted]
  | createUser env position =>
      cases pending : d.pending[position]? with
      | none =>
          apply Stepped.unchanged <;> simp [directory, pending, Answer.Quiet]
      | some u =>
          have after : ((directory svc).fire d (.createUser env position)).after =
              { store := (MemoryUserStore.createUser env d.store u).1
                pending := d.pending.eraseIdx position } := by
            simp [directory, pending]
          exact .created pending after (by simp [directory, pending])
  | login | getUserByID | listUsers => exact .unchanged rfl trivial

/-- A registration nobody interrupts is its two steps in a row. -/
theorem register_two_steps (d : Directory) (env : Env) (input : RegisterInput) :
    (directory svc).run d [.register env input, .createUser env d.pending.length] =
      { d with store := (svc.register env d.store input).1 } := by
  rw [register_eq]
  cases admitted : svc.newUser env input with
  | error err => simp [directory, admitted]
  | ok u =>
      simp [directory, admitted, List.eraseIdx_append_of_length_le]
      rfl

/-! ## Histories -/

abbrev History := List (Transition Directory Call Answer)

def Answer.drawnID : Answer → Option String
  | .hashed u => some u.id
  | _ => none

/-- The user IDs drawn so far. -/
def History.drawnIDs (past : History) : List String := past.filterMap (·.output.drawnID)

/-- No two registrations drew one ID, and none drew the empty one. -/
def History.FreshIDs (past : History) : Prop := past.drawnIDs.Nodup ∧ "" ∉ past.drawnIDs

/-- Some registration under this username has reached the store. -/
def History.Attempted (past : History) (username : String) : Prop :=
  ∃ t ∈ past, ∃ u result, t.output = .created u result ∧ u.username = username

theorem History.FreshIDs.before {past recent : History}
    (fresh : History.FreshIDs (past ++ recent)) : past.FreshIDs := by
  simp only [History.FreshIDs, History.drawnIDs, List.filterMap_append] at fresh ⊢
  exact ⟨(List.nodup_append.mp fresh.1).1, fun empty => fresh.2 (List.mem_append_left _ empty)⟩

structure Registrable (u : User) : Prop where
  trimmed : trimSpace u.username = u.username
  longEnough : 3 ≤ len u.username
  shortEnough : len u.username ≤ 50
  role : u.role ∈ validRoles

theorem Service.Admits.registrable {env : Env} {input : RegisterInput} {u : User}
    (admits : svc.Admits env input u) : Registrable u := by
  have username : u.username = trimSpace input.username := by rw [admits.record]
  have role : u.role = input.role := by rw [admits.record]
  refine ⟨?_, ?_, ?_, ?_⟩
  · rw [username, trimSpace_trimSpace]
  · rw [username]
    exact admits.longEnough
  · rw [username]
    exact admits.shortEnough
  · rw [role]
    exact admits.role

/-! ## The invariant -/

/-- What holds of a directory after a history in which IDs were fresh. -/
structure Reached (past : History) (d : Directory) : Prop where
  coherent : d.store.Coherent
  pendingIDs : (d.pending.map User.id).Nodup
  apart : ∀ u ∈ d.pending, d.store.byID.lookup u.id = none
  drawnStored : ∀ {id u}, d.store.byID.lookup id = some u → id ∈ past.drawnIDs
  drawnPending : ∀ u ∈ d.pending, u.id ∈ past.drawnIDs
  storedRegistrable : ∀ u ∈ d.store.byID.values, Registrable u
  pendingRegistrable : ∀ u ∈ d.pending, Registrable u
  taken : ∀ username, (∃ u, d.store.byUsername.lookup username = some u) ↔
    past.Attempted username
  kept : ∀ t ∈ past, ∀ u v, t.output = .created u (.ok v) →
    d.store.byUsername.lookup v.username = some v

theorem reached_new : Reached [] .new where
  coherent := .empty
  pendingIDs := .nil
  apart _ member := by cases member
  drawnStored found := by cases found
  drawnPending _ member := by cases member
  storedRegistrable _ member := by cases member
  pendingRegistrable _ member := by cases member
  taken username := by
    constructor
    · intro stored
      obtain ⟨u, found⟩ := stored
      cases found
    · intro attempted
      obtain ⟨t, member, _⟩ := attempted
      cases member
  kept _ member := by cases member

section
variable {past : History} {d : Directory} {t : Transition Directory Call Answer}

@[simp] theorem drawnIDs_append (recent : History) :
    History.drawnIDs (past ++ recent) = past.drawnIDs ++ recent.drawnIDs :=
  List.filterMap_append

theorem attempted_append {username : String} : History.Attempted (past ++ [t]) username ↔
    past.Attempted username ∨
      ∃ u result, t.output = .created u result ∧ u.username = username := by
  simp only [History.Attempted, List.mem_append, List.mem_singleton, or_and_right,
    exists_or, exists_eq_left]

theorem attempted_quiet {username : String} (silent : ∀ u result, t.output ≠ .created u result) :
    History.Attempted (past ++ [t]) username ↔ past.Attempted username := by
  rw [attempted_append, or_iff_left]
  intro attempt
  obtain ⟨u, result, created, _⟩ := attempt
  exact silent u result created

theorem Reached.unchanged (reached : Reached past d) (quiet : t.output.Quiet) :
    Reached (past ++ [t]) d := by
  have silent : ∀ u result, t.output ≠ .created u result := by
    intro u result created
    rw [created] at quiet
    exact quiet
  exact { reached with
    drawnStored := fun found => by
      rw [drawnIDs_append]
      exact List.mem_append_left _ (reached.drawnStored found)
    drawnPending := fun u member => by
      rw [drawnIDs_append]
      exact List.mem_append_left _ (reached.drawnPending u member)
    taken := fun username => (reached.taken username).trans (attempted_quiet silent).symm
    kept := fun earlier member u v created => by
      rcases List.mem_append.mp member with old | new
      · exact reached.kept earlier old u v created
      · rw [List.mem_singleton.mp new] at created
        exact absurd created (silent u _) }

/-- A registration that passed validation brings an ID nobody has. -/
theorem Reached.hashed (reached : Reached past d) {env : Env} {input : RegisterInput} {u : User}
    (admitted : svc.newUser env input = .ok u) (output : t.output = .hashed u)
    (fresh : History.FreshIDs (past ++ [t])) :
    Reached (past ++ [t]) { d with pending := d.pending ++ [u] } := by
  have drawn : History.drawnIDs [t] = [u.id] := by
    simp [History.drawnIDs, output, Answer.drawnID]
  have new : u.id ∉ past.drawnIDs := by
    intro old
    have distinct := fresh.1
    rw [drawnIDs_append, drawn] at distinct
    exact (List.nodup_append.mp distinct).2.2 u.id old u.id List.mem_cons_self rfl
  have silent : ∀ v result, t.output ≠ .created v result := by
    rw [output]
    exact nofun
  refine ⟨reached.coherent, ?_, ?_, ?_, ?_, reached.storedRegistrable, ?_, ?_, ?_⟩
  · rw [List.map_append, List.nodup_append]
    refine ⟨reached.pendingIDs, by simp, ?_⟩
    intro id old other member same
    rw [List.map_singleton, List.mem_singleton] at member
    obtain ⟨v, pending, rfl⟩ := List.mem_map.mp old
    exact new (member ▸ same ▸ reached.drawnPending v pending)
  · intro v member
    rcases List.mem_append.mp member with old | added
    · exact reached.apart v old
    · rw [List.mem_singleton.mp added]
      cases held : d.store.byID.lookup u.id with
      | none => rfl
      | some owner => exact absurd (reached.drawnStored held) new
  · intro id v found
    rw [drawnIDs_append]
    exact List.mem_append_left _ (reached.drawnStored found)
  · intro v member
    rw [drawnIDs_append, drawn]
    rcases List.mem_append.mp member with old | added
    · exact List.mem_append_left _ (reached.drawnPending v old)
    · rw [List.mem_singleton.mp added]
      exact List.mem_append_right _ List.mem_cons_self
  · intro v member
    rcases List.mem_append.mp member with old | added
    · exact reached.pendingRegistrable v old
    · rw [List.mem_singleton.mp added]
      exact (newUser_ok admitted).registrable
  · exact fun username => (reached.taken username).trans (attempted_quiet silent).symm
  · intro earlier member v stored created
    rcases List.mem_append.mp member with old | added
    · exact reached.kept earlier old v stored created
    · rw [List.mem_singleton.mp added] at created
      exact absurd created (silent v _)

private theorem pending_apart {pending : List User} {position : Nat} {u : User}
    (distinct : (pending.map User.id).Nodup) (chosen : pending[position]? = some u) :
    ∀ v ∈ pending.eraseIdx position, v.id ≠ u.id := by
  obtain ⟨bounded, rfl⟩ := List.getElem?_eq_some_iff.mp chosen
  have permuted := (List.getElem_cons_eraseIdx_perm bounded).map User.id
  have apart := permuted.nodup_iff.mpr distinct
  rw [List.map_cons, List.nodup_cons] at apart
  intro v member same
  exact apart.1 (same ▸ List.mem_map_of_mem member)

private theorem drawnIDs_created {u : User} {result : Except AuthError User}
    (output : t.output = .created u result) :
    History.drawnIDs (past ++ [t]) = past.drawnIDs := by
  rw [drawnIDs_append]
  simp [History.drawnIDs, output, Answer.drawnID]

private theorem attempted_created {u : User} {result : Except AuthError User}
    (output : t.output = .created u result) (username : String) :
    History.Attempted (past ++ [t]) username ↔
      past.Attempted username ∨ u.username = username := by
  rw [attempted_append, output]
  apply or_congr_right
  constructor
  · intro attempt
    obtain ⟨v, _, created, rfl⟩ := attempt
    cases created
    rfl
  · intro same
    exact ⟨u, result, rfl, same⟩

/-- A registration whose username is taken is over, and nothing else changes. -/
theorem Reached.refused (reached : Reached past d) {position : Nat} {u owner : User}
    (held : d.store.byUsername.lookup u.username = some owner)
    (output : t.output = .created u (.error errUserAlreadyExists)) :
    Reached (past ++ [t]) { d with pending := d.pending.eraseIdx position } := by
  have rest := List.eraseIdx_sublist d.pending position
  have sameIDs : History.drawnIDs (past ++ [t]) = past.drawnIDs := drawnIDs_created output
  refine ⟨reached.coherent, reached.pendingIDs.sublist (rest.map User.id), ?_, ?_, ?_,
    reached.storedRegistrable, ?_, ?_, ?_⟩
  · exact fun v member => reached.apart v (rest.subset member)
  · intro id v found
    rw [sameIDs]
    exact reached.drawnStored found
  · intro v member
    rw [sameIDs]
    exact reached.drawnPending v (rest.subset member)
  · exact fun v member => reached.pendingRegistrable v (rest.subset member)
  · intro username
    rw [attempted_created output, reached.taken, or_iff_left_of_imp]
    intro same
    subst same
    exact (reached.taken u.username).mp ⟨owner, held⟩
  · intro earlier member v stored created
    rcases List.mem_append.mp member with old | added
    · exact reached.kept earlier old v stored created
    · rw [List.mem_singleton.mp added, output] at created
      cases created

/-- A registration whose username is free takes it. -/
theorem Reached.stored (reached : Reached past d) {env : Env} {position : Nat} {u : User}
    (pending : d.pending[position]? = some u)
    (free : d.store.byUsername.lookup u.username = none) (named : u.id ≠ "")
    (output : t.output = .created u (.ok (stamped env u))) :
    Reached (past ++ [t])
      { store := (MemoryUserStore.createUser env d.store u).1
        pending := d.pending.eraseIdx position } := by
  have member : u ∈ d.pending := List.mem_of_getElem? pending
  have sameID : (stamped env u).id = u.id := if_neg named
  have rest := List.eraseIdx_sublist d.pending position
  have sameIDs : History.drawnIDs (past ++ [t]) = past.drawnIDs := drawnIDs_created output
  have newID : d.store.byID.lookup (stamped env u).id = none := by
    rw [sameID]
    exact reached.apart u member
  have coherent := MemoryUserStore.createUser_coherent reached.coherent newID
  rw [MemoryUserStore.createUser_free free] at coherent ⊢
  refine ⟨coherent, reached.pendingIDs.sublist (rest.map User.id), ?_, ?_, ?_, ?_, ?_, ?_, ?_⟩
  · intro v other
    rw [GoMap.lookup_insert_eq, if_neg]
    · exact reached.apart v (rest.subset other)
    · rw [sameID]
      exact pending_apart reached.pendingIDs pending v other
  · intro id v found
    rw [sameIDs]
    rw [GoMap.lookup_insert_eq] at found
    split at found
    · rename_i same
      rw [same, sameID]
      exact reached.drawnPending u member
    · exact reached.drawnStored found
  · intro v other
    rw [sameIDs]
    exact reached.drawnPending v (rest.subset other)
  · intro v stored
    rcases GoMap.mem_values_insert stored with rfl | old
    · have registrable := reached.pendingRegistrable u member
      exact ⟨registrable.trimmed, registrable.longEnough, registrable.shortEnough,
        registrable.role⟩
    · exact reached.storedRegistrable v old
  · exact fun v other => reached.pendingRegistrable v (rest.subset other)
  · intro username
    rw [attempted_created output, ← reached.taken, GoMap.lookup_insert_eq]
    by_cases same : username = u.username
    · simp [same]
    · simp [same, Ne.symm same]
  · intro earlier found v stored created
    rcases List.mem_append.mp found with old | added
    · have held := reached.kept earlier old v stored created
      have stillHeld : (MemoryUserStore.createUser env d.store u).1.byUsername.lookup
          stored.username = some stored := MemoryUserStore.createUser_keeps held u
      rw [MemoryUserStore.createUser_free free] at stillHeld
      exact stillHeld
    · rw [List.mem_singleton.mp added, output] at created
      cases created
      rw [GoMap.lookup_insert_eq]
      exact if_pos rfl

end

theorem run_reached (events : List Call)
    (fresh : History.FreshIDs ((directory svc).trace .new events)) :
    Reached ((directory svc).trace .new events) ((directory svc).run .new events) := by
  have maintained : ∀ (past : History) (d : Directory) (call : Call),
      (past.FreshIDs → Reached past d) →
      History.FreshIDs (past ++ [(directory svc).fire d call]) →
      Reached (past ++ [(directory svc).fire d call]) ((directory svc).fire d call).after := by
    intro past d call held freshNow
    have reached := held freshNow.before
    cases directory_step svc d call with
    | unchanged after quiet =>
        rw [after]
        exact reached.unchanged quiet
    | hashed _ admitted after output =>
        rw [after]
        exact reached.hashed admitted output freshNow
    | created pending after output =>
        rename_i env position u
        rw [after]
        have named : u.id ≠ "" := by
          intro unnamed
          have drawn := reached.drawnPending u (List.mem_of_getElem? pending)
          exact freshNow.before.2 (unnamed ▸ drawn)
        cases taken : d.store.byUsername.lookup u.username with
        | some owner =>
            rw [Machine.fire_before, MemoryUserStore.createUser_taken taken] at output ⊢
            exact reached.refused taken output
        | none =>
            refine reached.stored pending taken named ?_
            rw [output, Machine.fire_before, MemoryUserStore.createUser_free taken]
  exact (directory svc).history_invariant
    (fun past d => History.FreshIDs past → Reached past d) (fun _ => reached_new) maintained
    events fresh

/-! ## Where registrations come from and what becomes of them -/

/-- Some call of `Register` made this record. -/
def MadeBy (svc : Service) (past : History) (u : User) : Prop :=
  ∃ t ∈ past, ∃ env input, t.event = .register env input ∧ svc.Admits env input u

theorem MadeBy.later {past : History} {u : User} (made : MadeBy svc past u)
    (recent : History) : MadeBy svc (past ++ recent) u := by
  obtain ⟨t, member, origin⟩ := made
  exact ⟨t, List.mem_append_left recent member, origin⟩

/-- Every record pending or tried on the store was made by a call. -/
structure Originated (svc : Service) (past : History) (d : Directory) : Prop where
  pending : ∀ u ∈ d.pending, MadeBy svc past u
  tried : ∀ t ∈ past, ∀ u result, t.output = .created u result → MadeBy svc past u

theorem Originated.step {past : History} {d : Directory} (originated : Originated svc past d)
    (call : Call) :
    Originated svc (past ++ [(directory svc).fire d call])
      ((directory svc).fire d call).after := by
  have older : ∀ t ∈ past, ∀ u result, t.output = .created u result →
      MadeBy svc (past ++ [(directory svc).fire d call]) u :=
    fun t member u result created => (originated.tried t member u result created).later _
  cases directory_step svc d call with
  | unchanged after quiet =>
      rw [after]
      refine ⟨fun u member => (originated.pending u member).later _, ?_⟩
      intro t member u result created
      rcases List.mem_append.mp member with old | added
      · exact older t old u result created
      · rw [List.mem_singleton.mp added] at created
        rw [created] at quiet
        exact absurd quiet id
  | hashed event admitted after output =>
      rename_i env input u
      rw [after]
      refine ⟨?_, ?_⟩
      · intro v member
        rcases List.mem_append.mp member with old | added
        · exact (originated.pending v old).later _
        · rw [List.mem_singleton.mp added]
          exact ⟨_, List.mem_append_right past List.mem_cons_self, env, input, event,
            newUser_ok admitted⟩
      · intro t member v result created
        rcases List.mem_append.mp member with old | added
        · exact older t old v result created
        · rw [List.mem_singleton.mp added, output] at created
          cases created
  | created chosen after output =>
      rename_i env position u
      rw [after]
      have rest := List.eraseIdx_sublist d.pending position
      refine ⟨fun v member => (originated.pending v (rest.subset member)).later _, ?_⟩
      intro t member v result created
      rcases List.mem_append.mp member with old | added
      · exact older t old v result created
      · rw [List.mem_singleton.mp added, output] at created
        cases created
        exact (originated.pending u (List.mem_of_getElem? chosen)).later _

theorem originated_new : Originated svc [] .new where
  pending _ member := absurd member List.not_mem_nil
  tried _ member := absurd member List.not_mem_nil

theorem run_originated (events : List Call) :
    Originated svc ((directory svc).trace .new events) ((directory svc).run .new events) :=
  (directory svc).history_invariant (Originated svc) originated_new
    (fun _ _ call originated => originated.step call) events

def Answer.FailedRegistration : Answer → Prop
  | .rejected _ | .created _ (.error _) => True
  | _ => False

/-- A failed registration leaves the store alone, wherever it fails. -/
theorem fire_failed {d : Directory} {call : Call}
    (failed : ((directory svc).fire d call).output.FailedRegistration) :
    ((directory svc).fire d call).after.store = d.store := by
  cases directory_step svc d call with
  | unchanged after => rw [after, Machine.fire_before]
  | hashed _ _ after => rw [after, Machine.fire_before]
  | created pending after output =>
      rename_i env position u
      rw [after, Machine.fire_before]
      cases held : d.store.byUsername.lookup u.username with
      | some owner => rw [MemoryUserStore.createUser_taken held]
      | none =>
          rw [output, Machine.fire_before, MemoryUserStore.createUser_free held] at failed
          exact absurd failed id

/-! ## The directory -/

structure MemoryUserStore.Consistent (s : MemoryUserStore) : Prop where
  ownID : ∀ id u, s.byID.lookup id = some u → u.id = id
  ownUsername : ∀ username u, s.byUsername.lookup username = some u → u.username = username
  sameUsers : ∀ u, u ∈ s.byID.values ↔ u ∈ s.byUsername.values
  uniqueUsernames : ∀ u ∈ s.byID.values, ∀ v ∈ s.byID.values, u.username = v.username → u = v
  registrable : ∀ u ∈ s.byID.values, Registrable u

theorem Reached.consistent {past : History} {d : Directory} (reached : Reached past d) :
    d.store.Consistent where
  ownID _ _ found := (reached.coherent.fromLeft found).1
  ownUsername _ _ found := (reached.coherent.fromRight found).1
  sameUsers _ := reached.coherent.same_records
  uniqueUsernames _ stored _ alsoStored same := reached.coherent.unique stored alsoStored same
  registrable := reached.storedRegistrable

/-- A user whose registration succeeded is found under both keys, with the hash
and the role of the call that registered it. -/
def Retained (svc : Service) (history : History) (s : MemoryUserStore)
    (t : Transition Directory Call Answer) : Prop :=
  ∀ u v, t.output = .created u (.ok v) →
    s.getUserByID v.id = .ok v ∧ s.getUserByUsername v.username = .ok v ∧
      v.id = u.id ∧ v.username = u.username ∧ v.passwordHash = u.passwordHash ∧
      v.role = u.role ∧ MadeBy svc history u

/-- Of the registrations under one username the first to reach the store
succeeds, and the others learn that the name is taken. -/
def FirstComeFirstServed (past : History) (next : Transition Directory Call Answer) : Prop :=
  ∀ u result, next.output = .created u result →
    (past.Attempted u.username → result = .error errUserAlreadyExists) ∧
      (¬ past.Attempted u.username → ∃ v, result = .ok v)

theorem Reached.serves {past : History} {d : Directory} (reached : Reached past d) (call : Call) :
    FirstComeFirstServed past ((directory svc).fire d call) := by
  intro u result created
  cases directory_step svc d call with
  | unchanged _ quiet =>
      rw [created] at quiet
      exact absurd quiet id
  | hashed _ _ _ output =>
      rw [output] at created
      cases created
  | created pending after output =>
      rename_i env position v
      rw [output] at created
      cases created
      rw [← reached.taken]
      constructor
      · intro owned
        obtain ⟨owner, held⟩ := owned
        rw [Machine.fire_before, MemoryUserStore.createUser_taken held]
      · intro free
        have unheld : d.store.byUsername.lookup u.username = none := by
          cases held : d.store.byUsername.lookup u.username with
          | none => rfl
          | some owner => exact absurd ⟨owner, held⟩ free
        exact ⟨stamped env u, by rw [Machine.fire_before, MemoryUserStore.createUser_free unheld]⟩

/-- The record a registration leaves is the one it made, stamped with the time. -/
theorem Reached.created_ok {past : History} {d : Directory} (reached : Reached past d)
    (fresh : past.FreshIDs) {call : Call} {u v : User}
    (created : ((directory svc).fire d call).output = .created u (.ok v)) :
    v.id = u.id ∧ v.username = u.username ∧ v.passwordHash = u.passwordHash ∧
      v.role = u.role := by
  cases directory_step svc d call with
  | unchanged _ quiet =>
      rw [created] at quiet
      exact absurd quiet id
  | hashed _ _ _ output =>
      rw [output] at created
      cases created
  | created pending after output =>
      rename_i env position w
      rw [output] at created
      obtain ⟨rfl, stored⟩ := Answer.created.inj created
      rw [MemoryUserStore.createUser_ok stored]
      have named : w.id ≠ "" := by
        intro unnamed
        exact fresh.2 (unnamed ▸ reached.drawnPending w (List.mem_of_getElem? pending))
      exact ⟨if_neg named, rfl, rfl, rfl⟩

/-- The directory under every interleaving: both indexes hold the same users
under their own keys, usernames are unique and every record is registrable;
registered users stay; failed registrations leave no trace; and under each
username the first registration to reach the store wins. -/
theorem directory_invariant (svc : Service) (events : List Call)
    (fresh : History.FreshIDs ((directory svc).trace .new events)) :
    ((directory svc).run .new events).store.Consistent ∧
      (∀ t ∈ (directory svc).trace .new events,
        Retained svc ((directory svc).trace .new events)
          ((directory svc).run .new events).store t) ∧
      (∀ t ∈ (directory svc).trace .new events, t.output.FailedRegistration →
        t.after.store = t.before.store) ∧
      (directory svc).Always FirstComeFirstServed .new events := by
  have reached := run_reached events fresh
  have freshBefore : ∀ {past call future}, events = past ++ call :: future →
      History.FreshIDs ((directory svc).trace .new past) := by
    intro past call future split
    rw [split, Machine.trace_append] at fresh
    exact fresh.before
  refine ⟨reached.consistent, ?_, ?_, ?_⟩
  · intro t member u v created
    have byUsername := reached.kept t member u v created
    have byID := (reached.coherent.fromRight byUsername).2
    refine ⟨MemoryUserStore.getUserByID_ok_iff.mpr byID,
      MemoryUserStore.getUserByUsername_ok_iff.mpr byUsername, ?_⟩
    have made := (run_originated events).tried t member u _ created
    obtain ⟨past, call, _, split, rfl⟩ := (directory svc).mem_trace member
    have freshPast := freshBefore split
    obtain ⟨sameID, sameName, sameHash, sameRole⟩ :=
      (run_reached past freshPast).created_ok freshPast created
    exact ⟨sameID, sameName, sameHash, sameRole, made⟩
  · intro t member failed
    obtain ⟨past, call, _, _, rfl⟩ := (directory svc).mem_trace member
    exact fire_failed failed
  · intro past call future split
    exact (run_reached past (freshBefore split)).serves call

/-- Two clients register one name at once; the second to hash is the first to
reach the store. -/
def race : List Call :=
  [.register (plainEnv 0 "u-1") { username := "alice", password := "hunter22", role := "viewer" },
    .register (plainEnv 1 "u-2") { username := " alice", password := "letmein!", role := "viewer" },
    .createUser (plainEnv 2 "") 1,
    .createUser (plainEnv 3 "") 0]

theorem directory_invariant_race :
    ((directory plainService).run .new race).store.Consistent :=
  (directory_invariant plainService race ⟨by decide, by decide⟩).1

end Nexus.Auth
