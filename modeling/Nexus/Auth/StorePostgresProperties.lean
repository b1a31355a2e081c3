import Nexus.Auth.StorePostgres
import Nexus.Auth.StoreMachineProperties

/-! When the two implementations of user stores can stand in for each other.
Both serve the same calls side by side, each with its own clock and its own
order of iteration, and their answers are compared call by call. -/

set_option autoImplicit false

namespace Nexus.Auth

open Nexus.Lib Nexus.Go Nexus.Users

structure PairedCall where
  memory : Env
  postgres : Env
  call : StoreCall

def sideBySide : Machine (MemoryUserStore × PostgresUserStore) PairedCall
    (StoreAnswer × StoreAnswer) where
  step stores paired :=
    let (memory, first) := answer paired.memory stores.1 paired.call
    let (postgres, second) := answer paired.postgres stores.2 paired.call
    ((memory, postgres), (first, second))

/-! ## The promise -/

/-- A user without its timestamps. -/
def timeless (u : User) : User := { u with createdAt := 0, updatedAt := 0 }

/-- Both calls succeeded with results that are the same, or both failed with
errors that callers cannot tell apart. -/
def SameResult {α : Type} (same : α → α → Prop) :
    Except AuthError α → Except AuthError α → Prop
  | .ok result, .ok other => same result other
  | .error err, .error other => err.is .userAlreadyExists = other.is .userAlreadyExists ∧
      err.is .userNotFound = other.is .userNotFound
  | _, _ => False

def SameUser (u v : User) : Prop := timeless u = timeless v

def SameUsers (us vs : List User) : Prop := ∀ u, u ∈ us.map timeless ↔ u ∈ vs.map timeless

def StoreAnswer.Agrees : StoreAnswer → StoreAnswer → Prop
  | .created first, .created second => SameResult SameUser first second
  | .updated first, .updated second => SameResult SameUser first second
  | .found first, .found second => SameResult SameUser first second
  | .listed first, .listed second => SameResult SameUsers first second
  | _, _ => False

/-- The user has an ID and no organization, and its fields fit their columns. -/
structure FitsColumns (u : User) : Prop where
  named : u.id ≠ ""
  organization : u.organizationID = ""
  noNul : ∀ text ∈ userParameters u, hasNul text = false
  id : u.id.length ≤ 64
  username : u.username.length ≤ 64
  passwordHash : u.passwordHash.length ≤ 255
  role : u.role.length ≤ 32
  status : u.status.length ≤ 32
  mfaSecret : u.mfaSecret.length ≤ 64

def StoreCall.Fits : StoreCall → Prop
  | .createUser u | .updateUser u => FitsColumns u
  | .getUserByUsername text | .getUserByID text => hasNul text = false
  | .listUsers => True

/-! ## What the database does -/

theorem varchar_fits {width : Nat} {text : String} (fits : text.length ≤ width) :
    varchar width text = .ok text := if_pos fits

/-- The row of a user that fits. -/
def fittingRow (u : User) : UserRow where
  id := u.id
  username := u.username
  passwordHash := u.passwordHash
  role := u.role
  organizationID := none
  status := u.status
  mfaSecret := some u.mfaSecret
  mfaEnabled := u.mfaEnabled
  createdAt := timestamptz u.createdAt
  updatedAt := timestamptz u.updatedAt

theorem userRow_fits {u : User} (fits : FitsColumns u) : userRow u = .ok (fittingRow u) := by
  have organization : varchar 64 u.organizationID = .ok "" := by
    rw [fits.organization]
    rfl
  unfold userRow
  rw [varchar_fits fits.id, varchar_fits fits.username, varchar_fits fits.passwordHash,
    varchar_fits fits.role, organization, varchar_fits fits.status,
    varchar_fits fits.mfaSecret]
  rfl

theorem timeless_fittingRow {u : User} (fits : FitsColumns u) :
    timeless (fittingRow u).user = timeless u := by
  simp [timeless, UserRow.user, fittingRow, fits.organization]

theorem parameters_fit {u : User} (fits : FitsColumns u) :
    (userParameters u).any hasNul = false := by
  rw [List.any_eq_false]
  intro text listed
  rw [fits.noNul text listed]
  exact Bool.false_ne_true

namespace PostgresUserStore

variable {s : PostgresUserStore} {u : User}

theorem references_none (users : UsersTable) :
    s.references users none = .ok { s with users := users } := if_pos nofun

theorem insertUser_free (fits : FitsColumns u) (newID : s.users.findKey u.id = none)
    (newName : s.users.findColumn u.username = none) :
    ∃ users, s.insertUser u = .ok { s with users := users } ∧
      users.rows = s.users.rows.insert u.id (fittingRow u) := by
  obtain ⟨users, inserted, rows⟩ :=
    s.users.insert_free (fittingRow u) newID newName
  refine ⟨users, ?_, rows⟩
  simp only [insertUser, parameters_fit fits, Bool.false_eq_true, if_false, userRow_fits fits,
    inserted]
  exact references_none users

theorem insertUser_taken (fits : FitsColumns u)
    (taken : ¬ (s.users.findKey u.id = none ∧ s.users.findColumn u.username = none)) :
    s.insertUser u = .error .uniqueViolation := by
  have refused := s.users.insert_taken (fittingRow u) taken
  simp only [insertUser, parameters_fit fits, Bool.false_eq_true, if_false, userRow_fits fits,
    refused]

theorem setUser_unknown (fits : FitsColumns u) (unknown : s.users.findKey u.id = none) :
    s.setUser u = .ok (s, 0) := by
  simp only [setUser, parameters_fit fits, Bool.false_eq_true, if_false, unknown]

theorem setUser_free (fits : FitsColumns u) {row : UserRow}
    (stored : s.users.findKey u.id = some row)
    (own : ∀ other ∈ s.users.findColumn u.username, other.id = u.id) :
    ∃ users, s.setUser u = .ok ({ s with users := users }, 1) ∧
      users.rows = s.users.rows.insert row.id ((fittingRow u).setOn row) := by
  obtain ⟨users, updated, rows⟩ := s.users.update_free (fittingRow u).setOn
    (fun _ => rfl) stored own
  have referenced : s.references users (fittingRow u).organizationID =
      .ok { s with users := users } := references_none users
  refine ⟨users, ?_, rows⟩
  simp only [setUser, parameters_fit fits, Bool.false_eq_true, if_false, stored,
    userRow_fits fits, updated, referenced]

theorem setUser_taken (fits : FitsColumns u) {row other : UserRow}
    (stored : s.users.findKey u.id = some row)
    (held : s.users.findColumn u.username = some other) (another : other.id ≠ u.id) :
    s.setUser u = .error .uniqueViolation := by
  have refused := s.users.update_taken (fittingRow u).setOn (fun _ => rfl) stored held
    another
  simp only [setUser, parameters_fit fits, Bool.false_eq_true, if_false, stored,
    userRow_fits fits, refused]

end PostgresUserStore

/-! ## Call by call -/

def Shows (u : User) (row : UserRow) : Prop := SameUser u row.user

theorem shows_username (u : User) (row : UserRow) (same : Shows u row) :
    u.username = row.username := congrArg User.username same

/-- The in-memory maps mirror the table of the database. -/
abbrev Alike (m : MemoryUserStore) (s : PostgresUserStore) : Prop :=
  Mirrors User.id User.username Shows m.byID m.byUsername s.users

theorem stamped_fits {u : User} (fits : FitsColumns u) (env : Env) :
    FitsColumns (stamped env u) := by
  have same : stamped env u = { u with createdAt := env.now, updatedAt := env.now } := by
    simp only [stamped, if_neg fits.named]
  rw [same]
  exact { fits with }

theorem touched_fits {u : User} (fits : FitsColumns u) (env : Env) :
    FitsColumns (touched env u) := { fits with }

theorem createUser_eq (env : Env) (s : PostgresUserStore) {u : User} (named : u.id ≠ "") :
    PostgresUserStore.createUser env s u = match s.insertUser (stamped env u) with
      | .error err =>
          if err = .uniqueViolation then (s, .error errUserAlreadyExists)
          else (s, .error (wrapAfter "postgres create user" err.toError))
      | .ok s => (s, .ok (stamped env u)) := by
  have dated : stamped env u = { u with createdAt := env.now, updatedAt := env.now } := by
    simp only [stamped, if_neg named]
  rw [dated]
  cases inserted : s.insertUser { u with createdAt := env.now, updatedAt := env.now } with
  | error err => simp only [PostgresUserStore.createUser, if_neg named, inserted]
  | ok after => simp only [PostgresUserStore.createUser, if_neg named, inserted]

theorem updateUser_eq (env : Env) (s : PostgresUserStore) (u : User) :
    s.updateUser env u = match s.setUser (touched env u) with
      | .error err => (s, .error (wrapAfter "postgres update user" err.toError))
      | .ok (s, rows) =>
          if rows = 0 then (s, .error errUserNotFound) else (s, .ok (touched env u)) := rfl

/-- What one call does to stores that are alike: it clashes and is answered
differently, or it is answered alike and leaves them alike. -/
def Decided (paired : PairedCall) (m : MemoryUserStore) (s : PostgresUserStore) : Prop :=
  let first := answer paired.memory m paired.call
  let second := answer paired.postgres s paired.call
  (paired.call.Clashes paired.memory m ∧ ¬ first.2.Agrees second.2) ∨
    (¬ paired.call.Clashes paired.memory m ∧ first.2.Agrees second.2 ∧
      Alike first.1 second.1)

section
variable {memory postgres : Env} {m : MemoryUserStore} {s : PostgresUserStore} {u : User}

theorem createUser_decided (alike : Alike m s) (fits : FitsColumns u) :
    Decided ⟨memory, postgres, .createUser u⟩ m s := by
  have mine : (stamped memory u).id = u.id := if_neg fits.named
  have theirs : (stamped postgres u).id = u.id := if_neg fits.named
  have fitting := stamped_fits fits postgres
  have created := createUser_eq postgres s fits.named
  change (StoreCall.Clashes memory m (.createUser u) ∧ ¬ SameResult SameUser
      (m.createUser memory u).2 (s.createUser postgres u).2) ∨
    (¬ StoreCall.Clashes memory m (.createUser u) ∧ SameResult SameUser
      (m.createUser memory u).2 (s.createUser postgres u).2 ∧
      Alike (m.createUser memory u).1 (s.createUser postgres u).1)
  cases held : m.byUsername.lookup u.username with
  | some owner =>
      obtain ⟨row, queried, _⟩ := alike.storedRight shows_username held
      have refused := PostgresUserStore.insertUser_taken (s := s) fitting (by
        intro unused
        cases queried.symm.trans unused.2)
      rw [MemoryUserStore.createUser_taken held, created, refused]
      refine .inr ⟨?_, ⟨rfl, rfl⟩, alike⟩
      simp [StoreCall.Clashes, held]
  | none =>
      rw [MemoryUserStore.createUser_free held, created]
      cases known : m.byID.lookup (stamped memory u).id with
      | some holder =>
          obtain ⟨row, stored, _⟩ := alike.stored known
          have refused := PostgresUserStore.insertUser_taken (s := s) fitting (by
            intro unused
            rw [theirs, ← mine] at unused
            cases stored.symm.trans unused.1)
          rw [refused]
          exact .inl ⟨⟨held, holder, known⟩, id⟩
      | none =>
          have newID : s.users.findKey (stamped postgres u).id = none := by
            rw [theirs, ← mine]
            exact (alike.unused_iff _).mp known
          have newName : s.users.findColumn (stamped postgres u).username = none :=
            (alike.unusedRight_iff shows_username _).mp held
          obtain ⟨users, inserted, rows⟩ :=
            PostgresUserStore.insertUser_free fitting newID newName
          rw [inserted]
          have same : SameUser (stamped memory u) (stamped postgres u) := by
            simp only [SameUser, timeless, stamped, if_neg fits.named]
          have shown : Shows (stamped memory u) (fittingRow (stamped postgres u)) :=
            same.trans (timeless_fittingRow fitting).symm
          refine .inr ⟨?_, same, ?_⟩
          · simp [StoreCall.Clashes, known]
          · exact alike.put shown (theirs.trans mine.symm)
              (alike.coherent.insert known held) rows

theorem updateUser_decided (alike : Alike m s) (fits : FitsColumns u) :
    Decided ⟨memory, postgres, .updateUser u⟩ m s := by
  have fitting := touched_fits fits postgres
  have updated := updateUser_eq postgres s u
  change (StoreCall.Clashes memory m (.updateUser u) ∧ ¬ SameResult SameUser
      (m.updateUser memory u).2 (s.updateUser postgres u).2) ∨
    (¬ StoreCall.Clashes memory m (.updateUser u) ∧ SameResult SameUser
      (m.updateUser memory u).2 (s.updateUser postgres u).2 ∧
      Alike (m.updateUser memory u).1 (s.updateUser postgres u).1)
  cases known : m.byID.lookup u.id with
  | none =>
      have absent := (alike.unused_iff u.id).mp known
      rw [PostgresUserStore.setUser_unknown fitting absent] at updated
      rw [MemoryUserStore.updateUser_unknown known, updated]
      refine .inr ⟨?_, ⟨rfl, rfl⟩, alike⟩
      simp [StoreCall.Clashes, known]
  | some existing =>
      obtain ⟨row, stored, shown⟩ := alike.stored known
      have filed : row.id = u.id := s.users.keyed stored
      rw [MemoryUserStore.updateUser_known known]
      by_cases own : ∀ owner ∈ m.byUsername.lookup u.username, owner.id = u.id
      · have ownRow : ∀ other ∈ s.users.findColumn u.username, other.id = u.id := by
          intro other queried
          obtain ⟨owner, held, sameID, _⟩ :=
            alike.recordedRight shows_username queried
          exact sameID.trans (own owner held)
        obtain ⟨users, set_, rows⟩ := PostgresUserStore.setUser_free fitting stored ownRow
        rw [updated, set_]
        have kept := alike.coherent.replace (touched memory u) known own
        have shownAfter : Shows (touched memory u)
            ((fittingRow (touched postgres u)).setOn row) := by
          have fields := timeless_fittingRow fits
          simp only [timeless, UserRow.user, fittingRow, User.mk.injEq] at fields
          simp [Shows, SameUser, timeless, UserRow.user, UserRow.setOn, touched, fittingRow,
            filed, fields]
        refine .inr ⟨?_, rfl, alike.put shownAfter filed kept rows⟩
        simp only [StoreCall.Clashes, not_and, not_exists, not_not]
        exact fun _ owner held => own owner held
      · obtain ⟨owner, held, another⟩ : ∃ owner, m.byUsername.lookup u.username = some owner ∧
            owner.id ≠ u.id := by
          simpa using own
        obtain ⟨other, queried, sameID, _⟩ :=
          alike.storedRight shows_username held
        have refused := PostgresUserStore.setUser_taken fitting stored queried
          (fun same => another (sameID.symm.trans same))
        rw [updated, refused]
        exact .inl ⟨⟨⟨existing, known⟩, owner, held, another⟩, id⟩

theorem getUserByUsername_decided (alike : Alike m s) {username : String}
    (fits : hasNul username = false) :
    Decided ⟨memory, postgres, .getUserByUsername username⟩ m s := by
  refine .inr ⟨id, ?_, alike⟩
  change SameResult SameUser (m.getUserByUsername username) (s.getUserByUsername username)
  simp only [MemoryUserStore.getUserByUsername, PostgresUserStore.getUserByUsername,
    PostgresUserStore.selectUser, fits, Bool.false_eq_true, if_false]
  cases held : m.byUsername.lookup username with
  | none =>
      rw [(alike.unusedRight_iff shows_username username).mp held]
      exact ⟨rfl, rfl⟩
  | some owner =>
      obtain ⟨row, queried, _, shown⟩ := alike.storedRight shows_username held
      rw [queried]
      exact shown

theorem getUserByID_decided (alike : Alike m s) {id_ : String} (fits : hasNul id_ = false) :
    Decided ⟨memory, postgres, .getUserByID id_⟩ m s := by
  refine .inr ⟨id, ?_, alike⟩
  change SameResult SameUser (m.getUserByID id_) (s.getUserByID id_)
  simp only [MemoryUserStore.getUserByID, PostgresUserStore.getUserByID,
    PostgresUserStore.selectUser, fits, Bool.false_eq_true, if_false]
  cases known : m.byID.lookup id_ with
  | none =>
      rw [(alike.unused_iff id_).mp known]
      exact ⟨rfl, rfl⟩
  | some existing =>
      obtain ⟨row, stored, shown⟩ := alike.stored known
      rw [stored]
      exact shown

theorem listUsers_decided (alike : Alike m s) :
    Decided ⟨memory, postgres, .listUsers⟩ m s := by
  refine .inr ⟨id, ?_, alike⟩
  change SameUsers (memory.range m.byID).values _
  intro view
  simp only [List.mem_map, GoMap.Order.mem_values, GoMap.mem_values_iff, List.mem_mergeSort]
  constructor
  · intro listed
    obtain ⟨u, ⟨k, found⟩, rfl⟩ := listed
    obtain ⟨row, stored, shown⟩ := alike.stored found
    exact ⟨row.user, ⟨row, ⟨k, stored⟩, rfl⟩, shown.symm⟩
  · intro listed
    obtain ⟨_, ⟨row, ⟨k, stored⟩, rfl⟩, rfl⟩ := listed
    obtain ⟨u, found, shown⟩ := alike.recorded stored
    exact ⟨u, ⟨k, found⟩, shown⟩

end

theorem call_decided {m : MemoryUserStore} {s : PostgresUserStore} (alike : Alike m s)
    (paired : PairedCall) (fits : paired.call.Fits) : Decided paired m s := by
  obtain ⟨memory, postgres, call⟩ := paired
  cases call with
  | createUser u => exact createUser_decided alike fits
  | updateUser u => exact updateUser_decided alike fits
  | getUserByUsername username => exact getUserByUsername_decided alike fits
  | getUserByID id => exact getUserByID_decided alike fits
  | listUsers => exact listUsers_decided alike

/-! ## Over every sequence of calls -/

/-- The two implementations answer a sequence of calls alike exactly when no
call creates a user under a taken ID or renames one onto a taken name. -/
theorem stores_agree_iff (calls : List PairedCall) (fits : ∀ paired ∈ calls, paired.call.Fits) :
    sideBySide.Always (fun _ next => next.output.1.Agrees next.output.2) (.new, .new) calls ↔
      sideBySide.Always (fun _ next =>
        ¬ next.event.call.Clashes next.event.memory next.before.1) (.new, .new) calls := by
  apply Machine.Always.congr_step (fun stores : MemoryUserStore × PostgresUserStore =>
    Alike stores.1 stores.2) .empty
  · intro stores paired listed alike
    rcases call_decided alike paired (fits paired listed) with clashing | harmless
    · exact ⟨fun agrees => absurd agrees clashing.2, fun free => absurd clashing.1 free⟩
    · exact ⟨fun _ => harmless.1, fun _ => harmless.2.1⟩
  · intro stores paired listed alike free
    rcases call_decided alike paired (fits paired listed) with clashing | harmless
    · exact absurd clashing.1 free
    · exact harmless.2.2

theorem alice_fits : FitsColumns alice where
  named := by decide
  organization := rfl
  noNul := by decide
  id := by decide
  username := by decide
  passwordHash := by decide
  role := by decide
  status := by decide
  mfaSecret := by decide

theorem stores_agree_alice :
    sideBySide.Always (fun _ next => next.output.1.Agrees next.output.2) (.new, .new)
      [⟨plainEnv 0 "n-1", plainEnv minute "n-2", .createUser alice⟩,
        ⟨plainEnv 0 "n-1", plainEnv 0 "n-2", .getUserByUsername "alice"⟩] := by
  refine (stores_agree_iff _ ?_).mpr ?_
  · intro paired listed
    simp only [List.mem_cons, List.not_mem_nil, or_false] at listed
    rcases listed with rfl | rfl
    · exact alice_fits
    · exact (by decide : hasNul "alice" = false)
  · rw [Machine.always_cons_iff, Machine.always_cons_iff]
    refine ⟨?_, id, Machine.always_nil _ _⟩
    intro clashing
    obtain ⟨_, holder, found⟩ := clashing
    cases found

theorem takeover_told_apart :
    ¬ sideBySide.Always (fun _ next => next.output.1.Agrees next.output.2) (.new, .new)
      (takeover.map fun call => ⟨plainEnv 0 "n-1", plainEnv 0 "n-1", call⟩) := by
  intro always
  have agrees := always [⟨plainEnv 0 "n-1", plainEnv 0 "n-1", .createUser alice⟩,
    ⟨plainEnv 0 "n-1", plainEnv 0 "n-1", .createUser carol⟩] _ [] rfl
  exact agrees

end Nexus.Auth
