import Nexus.Database.MigrationProperties
import Nexus.Database.UserRowProperties
import Nexus.Lib.SqlRows

/-! The store of users as what the database holds: after the migrations, and
after every statement of the stores, its table shows the rows of the store. -/

set_option autoImplicit false

namespace Nexus.Database

open Nexus.Auth Nexus.Go Nexus.Lib Nexus.Lib.Sql Nexus.Users

/-! ## Tables -/

/-- The table holds the rows of the store's, whose IDs fit their column. -/
structure ShowsUsers (users : UsersTable) (table : Sql.Table ColumnType ColumnValue) : Prop where
  definition : table.definition = ⟨"users", usersColumns, [["id"], ["username"]]⟩
  unique : table.unique = true
  rows : ∀ cells, cells ∈ table.rows ↔
    ∃ row, users.findKey row.id = some row ∧ cells = userCells row
  kept : ∀ row, users.findKey row.id = some row → Kept 64 row.id

structure ShowsOrganizations (ids : List String) (table : Sql.Table ColumnType ColumnValue) :
    Prop where
  key : table.hasKey ["id"] = true
  rows : ∀ id, (∃ cells ∈ table.rows, cells.cell "id" = some (.text id)) ↔ id ∈ ids

/-- The database holds what the store of users shows. -/
def Represents (s : PostgresUserStore) (db : Schema) : Prop :=
  (∃ table, db.find "users" = some table ∧ ShowsUsers s.users table) ∧
    ∃ table, db.find "organizations" = some table ∧ ShowsOrganizations s.organizations table

variable {s : PostgresUserStore} {db : Schema} {users : UsersTable}
  {table : Sql.Table ColumnType ColumnValue}

theorem fresh_userCells_iff (shows : ShowsUsers users table) {others : List (Row ColumnValue)}
    {row : UserRow} :
    table.Fresh others (userCells row) ↔
      (∀ other ∈ others, other.cell "id" ≠ some (.text row.id)) ∧
        ∀ other ∈ others, other.cell "username" ≠ some (.text row.username) := by
  have apart (name : String) {value : ColumnValue} (held : (userCells row).cell name = some value)
      (other : Row ColumnValue) :
      (userCells row).agrees [name] other = false ↔ other.cell name ≠ some value := by
    rw [← Bool.not_eq_true, agrees_singleton held]
  simp only [Table.Fresh, shows.definition, List.forall_mem_cons, List.not_mem_nil,
    false_imp_iff, implies_true, and_true, apart "id" rfl, apart "username" rfl]

theorem ShowsUsers.unused_iff (shows : ShowsUsers users table) {id : String} :
    (∀ other ∈ table.rows, other.cell "id" ≠ some (.text id)) ↔ users.findKey id = none := by
  constructor
  · intro unused
    by_contra used
    obtain ⟨row, found⟩ := Option.ne_none_iff_exists'.mp used
    have own : row.id = id := users.keyed found
    subst own
    exact unused (userCells row) ((shows.rows _).mpr ⟨row, found, rfl⟩) rfl
  · intro unused other listed same
    obtain ⟨row, found, rfl⟩ := (shows.rows other).mp listed
    have own : row.id = id := ColumnValue.text.inj (Option.some.inj same)
    rw [own, unused] at found
    cases found

theorem ShowsUsers.free_iff (shows : ShowsUsers users table) {username : String} :
    (∀ other ∈ table.rows, other.cell "username" ≠ some (.text username)) ↔
      users.findColumn username = none := by
  constructor
  · intro free
    by_contra taken
    obtain ⟨row, found⟩ := Option.ne_none_iff_exists'.mp taken
    obtain ⟨stored, named⟩ := Table.findColumn_eq_some_iff.mp found
    subst named
    exact free (userCells row) ((shows.rows _).mpr ⟨row, stored, rfl⟩) rfl
  · intro free other listed same
    obtain ⟨row, stored, rfl⟩ := (shows.rows other).mp listed
    have named : row.username = username := ColumnValue.text.inj (Option.some.inj same)
    have found := Table.findColumn_eq_some_iff.mpr ⟨stored, named⟩
    rw [free] at found
    cases found

/-- Whether the organization of a row exists is asked of the other table. -/
theorem satisfiesReferences_users_iff {ids : List String}
    {organizations changed : Sql.Table ColumnType ColumnValue}
    (found : db.find "organizations" = some organizations)
    (shows : ShowsOrganizations ids organizations) (named : changed.definition.name = "users")
    {row : UserRow} :
    (db.put changed).satisfiesReferences usersColumns (userCells row) = true ↔
      ∀ id ∈ row.organizationID, id ∈ ids := by
  have target : (db.put changed).target ("organizations", "id") = some organizations := by
    rw [Database.target, find_put_other named (by decide), found]
    exact Option.filter_some_pos shows.key
  have only : (db.put changed).satisfiesReferences usersColumns (userCells row) =
      (row.organizationID.map ColumnValue.text).all fun value =>
        organizations.rows.any fun other => decide (other.cell "id" = some value) := by
    simp only [Database.satisfiesReferences, usersColumns, List.all_cons, List.all_nil, required,
      column, withDefault, referring, stamped, Option.all_none, Option.all_some, Bool.true_and,
      Bool.and_true, target, Option.any_some]
    rfl
  rw [only]
  cases row.organizationID with
  | none => simp
  | some id => simp [← shows.rows id]

/-! ## Creation -/

theorem userRow_createdAt {u : User} {row : UserRow} (fits : userRow u = .ok row) :
    row.createdAt = timestamptz u.createdAt := by
  obtain ⟨_, _, _, _, _, _, _, _, _, _, _, _, _, _, rfl⟩ := userRow_ok_iff.mp fits
  rfl

theorem userRow_id {u : User} {row : UserRow} (fits : userRow u = .ok row) :
    varchar 64 u.id = .ok row.id := by
  obtain ⟨id, fitsID, _, _, _, _, _, _, _, _, _, _, _, _, rfl⟩ := userRow_ok_iff.mp fits
  exact fitsID

/-- What the insertion of a user asks for, of the store. -/
structure Insertable (s : PostgresUserStore) (u : User) (row : UserRow) : Prop where
  clean : (userParameters u).any hasNul = false
  fits : userRow u = .ok row
  unused : s.users.findKey row.id = none
  free : s.users.findColumn row.username = none
  known : ∀ id ∈ row.organizationID, id ∈ s.organizations

theorem insertUser_ok_iff {after : PostgresUserStore} {u : User} :
    s.insertUser u = .ok after ↔ ∃ row users, Insertable s u row ∧
      s.users.insert row = some users ∧ after = { s with users := users } := by
  unfold PostgresUserStore.insertUser PostgresUserStore.references
  constructor
  · intro inserted
    split at inserted
    · cases inserted
    · rename_i clean
      split at inserted
      · cases inserted
      · rename_i row fits
        split at inserted
        · cases inserted
        · rename_i users filed
          split at inserted
          · rename_i known
            cases inserted
            have room : s.users.findKey row.id = none ∧
                s.users.findColumn row.username = none := by
              by_contra taken
              rw [s.users.insert_taken row taken] at filed
              cases filed
            exact ⟨row, users, ⟨by simpa using clean, fits, room.1, room.2, known⟩, filed, rfl⟩
          · cases inserted
  · intro admits
    obtain ⟨row, users, insertable, filed, rfl⟩ := admits
    simp only [insertable.clean, insertable.fits, filed, if_pos insertable.known,
      Bool.false_eq_true, if_false]

theorem insertsRow_iff (shows : ShowsUsers s.users table)
    {organizations : Sql.Table ColumnType ColumnValue}
    (found : db.find "organizations" = some organizations)
    (known : ShowsOrganizations s.organizations organizations) {now : Time} {u : User}
    {cells : Row ColumnValue} :
    InsertsRow dialect now db table (usersColumns.map Column.name) (createdValues u) cells ↔
      ∃ row, Insertable s u row ∧ cells = userCells row := by
  have columns : table.definition.columns = usersColumns := by rw [shows.definition]
  have named (rows : List (Row ColumnValue)) :
      ({ table with rows := rows } : Sql.Table ColumnType ColumnValue).definition.name =
        "users" := by rw [shows.definition]
  constructor
  · intro checks
    obtain ⟨built, fresh, referring⟩ := checks
    rw [columns] at built referring
    obtain ⟨clean, row, fits, rfl⟩ := (buildRow_users_iff (fill_created now u)).mp built
    rw [← userRow_createdAt fits] at fresh referring ⊢
    obtain ⟨unused, free⟩ := (fresh_userCells_iff shows).mp fresh
    exact ⟨row, ⟨clean, fits, shows.unused_iff.mp unused, shows.free_iff.mp free,
      (satisfiesReferences_users_iff found known (named _)).mp referring⟩, rfl⟩
  · intro admits
    obtain ⟨row, insertable, rfl⟩ := admits
    refine ⟨?_, ?_, ?_⟩
    · rw [columns, buildRow_users_iff (fill_created now u)]
      refine ⟨insertable.clean, row, insertable.fits, ?_⟩
      rw [← userRow_createdAt insertable.fits]
    · exact (fresh_userCells_iff shows).mpr
        ⟨shows.unused_iff.mpr insertable.unused, shows.free_iff.mpr insertable.free⟩
    · rw [columns]
      exact (satisfiesReferences_users_iff found known (named _)).mpr insertable.known

theorem insert_users_iff (found : db.find "users" = some table) (shows : ShowsUsers s.users table)
    {organizations : Sql.Table ColumnType ColumnValue}
    (foundOrganizations : db.find "organizations" = some organizations)
    (known : ShowsOrganizations s.organizations organizations) (now : Time) (u : User)
    (changed : Schema) :
    db.insert dialect now "users" (usersColumns.map Column.name) [createdValues u] none =
        .ok changed ↔
      ∃ row, Insertable s u row ∧
        changed = db.put { table with rows := table.rows ++ [userCells row] } := by
  have named : table.hasColumns (usersColumns.map Column.name) = true := by
    rw [Table.hasColumns, shows.definition]
    decide
  constructor
  · intro inserted
    obtain ⟨cells, inserts, rfl⟩ := insertsRow_of_insert found inserted
    obtain ⟨row, insertable, rfl⟩ := (insertsRow_iff shows foundOrganizations known).mp inserts
    exact ⟨row, insertable, rfl⟩
  · intro admits
    obtain ⟨row, insertable, rfl⟩ := admits
    exact ((insertsRow_iff shows foundOrganizations known).mpr ⟨row, insertable, rfl⟩).insert
      found named rfl

/-- The tables after the insertion show the store after it. -/
theorem ShowsUsers.insert (shows : ShowsUsers s.users table) {u : User} {row : UserRow}
    (insertable : Insertable s u row) (filed : s.users.insert row = some users) :
    ShowsUsers users { table with rows := table.rows ++ [userCells row] } := by
  obtain ⟨after, inserted, rows⟩ := s.users.insert_free row insertable.unused insertable.free
  cases filed.symm.trans inserted
  have lookup (id : String) : users.findKey id =
      if id = row.id then some row else s.users.findKey id := by
    rw [Table.findKey, rows, GoMap.lookup_insert_eq]
    rfl
  refine ⟨shows.definition, ?_, ?_, ?_⟩
  · refine (unique_middle_iff table table.rows [] (userCells row)).mpr ⟨?_, ?_⟩
    · rw [List.append_nil, fresh_userCells_iff shows]
      exact ⟨shows.unused_iff.mpr insertable.unused, shows.free_iff.mpr insertable.free⟩
    · rw [List.append_nil]
      exact shows.unique
  · intro cells
    rw [List.mem_append, List.mem_singleton, shows.rows]
    constructor
    · intro either
      rcases either with ⟨old, stored, rfl⟩ | rfl
      · have another : old.id ≠ row.id := by
          intro same
          rw [same, insertable.unused] at stored
          cases stored
        exact ⟨old, by rw [lookup, if_neg another, stored], rfl⟩
      · exact ⟨row, by rw [lookup, if_pos rfl], rfl⟩
    · intro shown
      obtain ⟨other, stored, rfl⟩ := shown
      rw [lookup] at stored
      split at stored
      · cases stored
        exact .inr rfl
      · exact .inl ⟨other, stored, rfl⟩
  · intro other stored
    rw [lookup] at stored
    split at stored
    · cases stored
      have clean := insertable.clean
      simp only [userParameters, List.any_cons, Bool.or_eq_false_iff] at clean
      exact varchar_kept (userRow_id insertable.fits) clean.1
    · exact shows.kept other stored

theorem apply_ok {env : Env} {operation : Operation} {after : Schema}
    (executed : exec dialect env.now db (operation.statement env) = .ok after) :
    operation.apply env db = after := by
  rw [Operation.apply, executed]

/-- A change to the table of users leaves the organizations. -/
theorem represents_put (represents : Represents s db)
    {changed : Sql.Table ColumnType ColumnValue} (shows : ShowsUsers users changed) :
    Represents { s with users := users } (db.put changed) := by
  obtain ⟨⟨table, found, _⟩, organizations, foundOrganizations, known⟩ := represents
  have named : changed.definition.name = "users" := by rw [shows.definition]
  refine ⟨⟨changed, ?_, shows⟩, organizations, ?_, known⟩
  · rw [find_put, if_pos named, found]
    rfl
  · rw [find_put_other named (by decide), foundOrganizations]

theorem stamped_eq (env : Env) (u : User) : Auth.stamped env u =
    { (if u.id = "" then { u with id := env.storeID } else u) with
      createdAt := env.now, updatedAt := env.now } := by
  unfold Auth.stamped
  split <;> rfl

theorem createUser_stored {env : Env} {u : User} {after : PostgresUserStore}
    (inserted : s.insertUser (Auth.stamped env u) = .ok after) :
    (PostgresUserStore.createUser env s u).1 = after := by
  rw [stamped_eq] at inserted
  simp only [PostgresUserStore.createUser, inserted]

theorem createUser_refused {env : Env} {u : User} {err : SqlError}
    (refused : s.insertUser (Auth.stamped env u) = .error err) :
    (PostgresUserStore.createUser env s u).1 = s := by
  rw [stamped_eq] at refused
  simp only [PostgresUserStore.createUser, refused]
  split <;> rfl

theorem createUser_represents (represents : Represents s db) (env : Env) (u : User) :
    Represents (PostgresUserStore.createUser env s u).1
      ((Operation.createUser u).apply env db) := by
  obtain ⟨⟨table, found, shows⟩, organizations, foundOrganizations, known⟩ := id represents
  have admitted {changed : Schema} :=
    insert_users_iff found shows foundOrganizations known env.now (Auth.stamped env u) changed
  cases inserted : s.insertUser (Auth.stamped env u) with
  | ok after =>
      obtain ⟨row, users, insertable, filed, rfl⟩ := insertUser_ok_iff.mp inserted
      have executed := admitted.mpr ⟨row, insertable, rfl⟩
      rw [← exec_createUser] at executed
      rw [createUser_stored inserted, apply_ok executed]
      exact represents_put represents (shows.insert insertable filed)
  | error err =>
      rw [createUser_refused inserted, Operation.apply]
      cases executed : exec dialect env.now db ((Operation.createUser u).statement env) with
      | error fault => exact represents
      | ok after =>
          rw [exec_createUser] at executed
          obtain ⟨row, insertable, _⟩ := admitted.mp executed
          obtain ⟨users, filed, _⟩ :=
            s.users.insert_free row insertable.unused insertable.free
          have stored := insertUser_ok_iff.mpr ⟨row, users, insertable, filed, rfl⟩
          rw [inserted] at stored
          cases stored

/-! ## Updates -/

/-- What the update of a user asks for, of the store that has the user. -/
structure Updatable (s : PostgresUserStore) (u : User) (row : UserRow) : Prop where
  clean : (userParameters u).any hasNul = false
  fits : userRow u = .ok row
  own : ∀ other ∈ s.users.findColumn row.username, other.id = u.id
  known : ∀ id ∈ row.organizationID, id ∈ s.organizations

theorem setUser_ok_iff {u : User} {old : UserRow} (stored : s.users.findKey u.id = some old)
    {after : PostgresUserStore} {count : Nat} :
    s.setUser u = .ok (after, count) ↔ ∃ row users, Updatable s u row ∧
      s.users.update u.id row.setOn (fun _ => rfl) = some (users, count) ∧
      after = { s with users := users } := by
  simp only [PostgresUserStore.setUser, PostgresUserStore.references, stored]
  constructor
  · intro updated
    split at updated
    · cases updated
    · rename_i clean
      split at updated
      · cases updated
      · rename_i row fits
        split at updated
        · cases updated
        · rename_i users rows filed
          by_cases known : ∀ id ∈ row.organizationID, id ∈ s.organizations
          · rw [if_pos known] at updated
            cases updated
            refine ⟨row, users, ⟨by simpa using clean, fits, ?_, known⟩, filed, rfl⟩
            intro other held
            by_contra another
            have refused := s.users.update_taken row.setOn (fun _ => rfl) stored held another
            rw [filed] at refused
            cases refused
          · rw [if_neg known] at updated
            cases updated
  · intro admits
    obtain ⟨row, users, updatable, filed, rfl⟩ := admits
    simp only [updatable.clean, updatable.fits, filed, if_pos updatable.known,
      Bool.false_eq_true, if_false]

/-- The row of a stored user, and the rows around it, which have other IDs. -/
structure Located (table : Sql.Table ColumnType ColumnValue) (front back : List (Row ColumnValue))
    (old : UserRow) : Prop where
  rows : table.rows = front ++ userCells old :: back
  fresh : table.Fresh (front ++ back) (userCells old)
  unique : ({ table with rows := front ++ back } : Sql.Table ColumnType ColumnValue).unique = true

theorem ShowsUsers.located (shows : ShowsUsers users table) {id : String} {old : UserRow}
    (stored : users.findKey id = some old) : ∃ front back, Located table front back old := by
  have own : old.id = id := users.keyed stored
  subst own
  obtain ⟨front, back, split⟩ := List.append_of_mem ((shows.rows _).mpr ⟨old, stored, rfl⟩)
  have unique := shows.unique
  have same : table = { table with rows := front ++ userCells old :: back } := by rw [← split]
  rw [same, unique_middle_iff] at unique
  exact ⟨front, back, split, unique.1, unique.2⟩

section
variable {front back : List (Row ColumnValue)} {old : UserRow}

theorem Located.apart (located : Located table front back old) (shows : ShowsUsers users table) :
    ∀ other ∈ front ++ back, other.cell "id" ≠ some (.text old.id) :=
  ((fresh_userCells_iff shows).mp located.fresh).1

theorem Located.around_iff (located : Located table front back old)
    (shows : ShowsUsers users table) {cells : Row ColumnValue} :
    cells ∈ front ++ back ↔
      ∃ row, users.findKey row.id = some row ∧ row.id ≠ old.id ∧ cells = userCells row := by
  have listed : cells ∈ table.rows ↔ cells = userCells old ∨ cells ∈ front ++ back := by
    rw [located.rows, List.mem_append, List.mem_cons, List.mem_append]
    tauto
  rw [shows.rows] at listed
  constructor
  · intro around
    obtain ⟨row, stored, rfl⟩ := listed.mpr (.inr around)
    have another : row.id ≠ old.id := fun same =>
      located.apart shows _ around (congrArg (some ∘ ColumnValue.text) same)
    exact ⟨row, stored, another, rfl⟩
  · intro shown
    obtain ⟨row, stored, another, rfl⟩ := shown
    refine (listed.mp ⟨row, stored, rfl⟩).resolve_left fun same => another ?_
    have cell : (userCells row).cell "id" = (userCells old).cell "id" := by rw [same]
    exact ColumnValue.text.inj (Option.some.inj cell)

/-- Whether a name is free around a user's row is whether it is free or the
user's own. -/
theorem Located.own_iff (located : Located table front back old) (shows : ShowsUsers users table)
    {username : String} :
    (∀ other ∈ front ++ back, other.cell "username" ≠ some (.text username)) ↔
      ∀ other ∈ users.findColumn username, other.id = old.id := by
  constructor
  · intro free other held
    obtain ⟨stored, rfl⟩ := Table.findColumn_eq_some_iff.mp held
    by_contra another
    exact free _ ((located.around_iff shows).mpr ⟨other, stored, another, rfl⟩) rfl
  · intro own other around same
    obtain ⟨row, stored, another, rfl⟩ := (located.around_iff shows).mp around
    have named : row.username = username := ColumnValue.text.inj (Option.some.inj same)
    exact another (own row (Table.findColumn_eq_some_iff.mpr ⟨stored, named⟩))

theorem updatesRow_iff (shows : ShowsUsers s.users table)
    {organizations : Sql.Table ColumnType ColumnValue}
    (found : db.find "organizations" = some organizations)
    (known : ShowsOrganizations s.organizations organizations) {u : User}
    (stored : s.users.findKey u.id = some old) (located : Located table front back old)
    {cells : Row ColumnValue} :
    UpdatesRow dialect db table front back (updatedCells u) (userCells old) cells ↔
      ∃ row, Updatable s u row ∧ cells = userCells (row.setOn old) := by
  have own : old.id = u.id := s.users.keyed stored
  have kept : Kept 64 u.id := by
    have stays := shows.kept old (by rw [own]; exact stored)
    rwa [own] at stays
  have columns : table.definition.columns = usersColumns := by rw [shows.definition]
  have named (rows : List (Row ColumnValue)) :
      ({ table with rows := rows } : Sql.Table ColumnType ColumnValue).definition.name =
        "users" := by rw [shows.definition]
  have renewed {row : UserRow} (fits : userRow u = .ok row) :
      { row with createdAt := old.createdAt } = row.setOn old := by
    have same : row.id = old.id := by
      rw [own]
      exact Except.ok.inj ((userRow_id fits).symm.trans kept.2)
    rw [UserRow.setOn, ← same]
  have owned {username : String} :
      (∀ other ∈ front ++ back, other.cell "username" ≠ some (.text username)) ↔
        ∀ other ∈ s.users.findColumn username, other.id = u.id := by
    rw [located.own_iff shows, own]
  constructor
  · intro checks
    obtain ⟨built, fresh, referring⟩ := checks
    rw [columns] at built referring
    obtain ⟨clean, row, fits, rfl⟩ := (buildRow_users_iff (assign_updated own kept)).mp built
    rw [renewed fits] at fresh referring ⊢
    exact ⟨row, ⟨clean, fits, owned.mp ((fresh_userCells_iff shows).mp fresh).2,
      (satisfiesReferences_users_iff found known (named _)).mp referring⟩, rfl⟩
  · intro admits
    obtain ⟨row, updatable, rfl⟩ := admits
    refine ⟨?_, ?_, ?_⟩
    · rw [columns, buildRow_users_iff (assign_updated own kept)]
      exact ⟨updatable.clean, row, updatable.fits, by rw [renewed updatable.fits]⟩
    · exact (fresh_userCells_iff shows).mpr
        ⟨located.apart shows, owned.mpr updatable.own⟩
    · rw [columns]
      exact (satisfiesReferences_users_iff found known (named _)).mpr updatable.known

theorem update_users_iff (found : db.find "users" = some table) (shows : ShowsUsers s.users table)
    {organizations : Sql.Table ColumnType ColumnValue}
    (foundOrganizations : db.find "organizations" = some organizations)
    (known : ShowsOrganizations s.organizations organizations) {u : User}
    (stored : s.users.findKey u.id = some old) (located : Located table front back old)
    (changed : Schema) :
    db.update dialect "users" (updatedCells u) "id" (.text u.id) = .ok changed ↔
      ∃ row, Updatable s u row ∧
        changed = db.put { table with rows := front ++ userCells (row.setOn old) :: back } := by
  have own : old.id = u.id := s.users.keyed stored
  have named : table.hasColumns ("id" :: (updatedCells u).map Prod.fst) = true := by
    rw [Table.hasColumns, shows.definition]
    rfl
  have apart := located.apart shows
  rw [own] at apart
  have hit : (userCells old).cell "id" = some (.text u.id) := by
    rw [← own]
    rfl
  have middle {rows : List (Row ColumnValue)} :
      Updates dialect db table (updatedCells u) "id" (.text u.id) rows ↔
        ∃ cells, UpdatesRow dialect db table front back (updatedCells u) (userCells old) cells ∧
          rows = front ++ cells :: back :=
    updates_middle_iff located.rows apart hit located.unique named
  have updatesRow {cells : Row ColumnValue} :
      UpdatesRow dialect db table front back (updatedCells u) (userCells old) cells ↔
        ∃ row, Updatable s u row ∧ cells = userCells (row.setOn old) :=
    updatesRow_iff shows foundOrganizations known stored located
  constructor
  · intro updated
    obtain ⟨rows, updates, rfl⟩ := updates_of_update found updated
    obtain ⟨cells, updatesCells, rfl⟩ := middle.mp updates
    obtain ⟨row, updatable, rfl⟩ := updatesRow.mp updatesCells
    exact ⟨row, updatable, rfl⟩
  · intro admits
    obtain ⟨row, updatable, rfl⟩ := admits
    exact (middle.mpr ⟨_, updatesRow.mpr ⟨row, updatable, rfl⟩, rfl⟩).update found

/-- The tables after the update show the store after it. -/
theorem ShowsUsers.update (shows : ShowsUsers s.users table) {u : User} {row : UserRow}
    (stored : s.users.findKey u.id = some old) (located : Located table front back old)
    (updatable : Updatable s u row) {count : Nat}
    (filed : s.users.update u.id row.setOn (fun _ => rfl) = some (users, count)) :
    ShowsUsers users { table with rows := front ++ userCells (row.setOn old) :: back } := by
  have own : old.id = u.id := s.users.keyed stored
  obtain ⟨after, updated, rows⟩ :=
    s.users.update_free row.setOn (fun _ => rfl) stored updatable.own
  cases filed.symm.trans updated
  have lookup (id : String) : users.findKey id =
      if id = old.id then some (row.setOn old) else s.users.findKey id := by
    rw [Table.findKey, rows, GoMap.lookup_insert_eq]
    rfl
  refine ⟨shows.definition, ?_, ?_, ?_⟩
  · refine (unique_middle_iff table front back _).mpr ⟨?_, located.unique⟩
    refine (fresh_userCells_iff shows).mpr ⟨located.apart shows, ?_⟩
    rw [located.own_iff shows, own]
    exact updatable.own
  · intro cells
    have listed : cells ∈ front ++ userCells (row.setOn old) :: back ↔
        cells = userCells (row.setOn old) ∨ cells ∈ front ++ back := by
      rw [List.mem_append, List.mem_cons, List.mem_append]
      tauto
    rw [listed, located.around_iff shows]
    constructor
    · intro either
      rcases either with rfl | ⟨other, found, another, rfl⟩
      · exact ⟨row.setOn old, (lookup _).trans (if_pos rfl), rfl⟩
      · exact ⟨other, by rw [lookup, if_neg another, found], rfl⟩
    · intro shown
      obtain ⟨other, found, rfl⟩ := shown
      rw [lookup] at found
      split at found
      · cases found
        exact .inl rfl
      · rename_i another
        exact .inr ⟨other, found, another, rfl⟩
  · intro other found
    rw [lookup] at found
    split at found
    · cases found
      exact shows.kept old (by rw [own]; exact stored)
    · exact shows.kept other found

end

theorem updateUser_stored {env : Env} {u : User} {after : PostgresUserStore} {count : Nat}
    (updated : s.setUser (touched env u) = .ok (after, count)) :
    (s.updateUser env u).1 = after := by
  rw [updateUser_eq, updated]
  dsimp only
  split <;> rfl

theorem updateUser_refused {env : Env} {u : User} {err : SqlError}
    (refused : s.setUser (touched env u) = .error err) : (s.updateUser env u).1 = s := by
  rw [updateUser_eq, refused]

theorem updateUser_unknown {env : Env} {u : User} (unknown : s.users.findKey u.id = none) :
    (s.updateUser env u).1 = s := by
  have same : s.users.findKey (touched env u).id = none := unknown
  cases updated : s.setUser (touched env u) with
  | error err => exact updateUser_refused updated
  | ok result =>
      obtain ⟨after, count⟩ := result
      rw [updateUser_stored updated]
      simp only [PostgresUserStore.setUser, same] at updated
      split at updated
      · cases updated
      · cases updated
        rfl

theorem updateUser_represents (represents : Represents s db) (env : Env) (u : User) :
    Represents (s.updateUser env u).1 ((Operation.updateUser u).apply env db) := by
  obtain ⟨⟨table, found, shows⟩, organizations, foundOrganizations, known⟩ := id represents
  cases stored : s.users.findKey u.id with
  | none =>
      rw [updateUser_unknown stored, Operation.apply]
      cases executed : exec dialect env.now db ((Operation.updateUser u).statement env) with
      | error fault => exact represents
      | ok after =>
          rw [exec_updateUser] at executed
          obtain ⟨rows, updates, rfl⟩ := updates_of_update found executed
          have same := updates.changed
          rw [updateRows_apart (shows.unused_iff.mpr stored)] at same
          cases same
          rw [put_self found]
          exact represents
  | some old =>
      obtain ⟨front, back, located⟩ := shows.located stored
      have storedTouched : s.users.findKey (touched env u).id = some old := stored
      have admitted {changed : Schema} :=
        update_users_iff found shows foundOrganizations known storedTouched located changed
      cases updated : s.setUser (touched env u) with
      | ok result =>
          obtain ⟨after, count⟩ := result
          obtain ⟨row, users, updatable, filed, rfl⟩ := (setUser_ok_iff storedTouched).mp updated
          have executed := admitted.mpr ⟨row, updatable, rfl⟩
          rw [updateUser_stored updated, apply_ok ((exec_updateUser db env u).trans executed)]
          exact represents_put represents (shows.update storedTouched located updatable filed)
      | error err =>
          rw [updateUser_refused updated, Operation.apply]
          cases executed : exec dialect env.now db ((Operation.updateUser u).statement env) with
          | error fault => exact represents
          | ok after =>
              rw [exec_updateUser] at executed
              obtain ⟨row, updatable, _⟩ := admitted.mp executed
              obtain ⟨users, filed, _⟩ :=
                s.users.update_free row.setOn (fun _ => rfl) storedTouched updatable.own
              have done := (setUser_ok_iff storedTouched).mpr ⟨row, users, updatable, filed, rfl⟩
              rw [updated] at done
              cases done

/-! ## Runs -/

theorem log_represents (represents : Represents s db) (env : Env) (event : Audit.Event) :
    Represents s ((Operation.log event).apply env db) := by
  rw [Operation.apply]
  cases executed : exec dialect env.now db ((Operation.log event).statement env) with
  | error fault => exact represents
  | ok after =>
      obtain ⟨⟨table, found, shows⟩, organizations, foundOrganizations, known⟩ := represents
      have kept {name : String} (other : name ≠ "audit_logs") : after.find name = db.find name :=
        find_insert_other executed other
      exact ⟨⟨table, (kept (by decide)).trans found, shows⟩, organizations,
        (kept (by decide)).trans foundOrganizations, known⟩

/-- What an operation does to the store of users. -/
def Operation.onUsers (env : Env) (s : PostgresUserStore) : Operation → PostgresUserStore
  | createUser u => (PostgresUserStore.createUser env s u).1
  | updateUser u => (s.updateUser env u).1
  | log _ => s

def storeAll (s : PostgresUserStore) : List (Env × Operation) → PostgresUserStore
  | [] => s
  | (env, operation) :: operations => storeAll (operation.onUsers env s) operations

theorem operation_represents (represents : Represents s db) (env : Env) (operation : Operation) :
    Represents (operation.onUsers env s) (operation.apply env db) := by
  cases operation with
  | createUser u => exact createUser_represents represents env u
  | updateUser u => exact updateUser_represents represents env u
  | log event => exact log_represents represents env event

theorem applyAll_represents (represents : Represents s db)
    (operations : List (Env × Operation)) :
    Represents (storeAll s operations) (applyAll db operations) := by
  induction operations generalizing s db with
  | nil => exact represents
  | cons step operations ih => exact ih (operation_represents represents step.1 step.2)

theorem shows_no_users {users : Sql.Table ColumnType ColumnValue}
    (alike : Sql.Table.Alike ⟨⟨"users", usersColumns, [["id"], ["username"]]⟩, []⟩ users) :
    ShowsUsers PostgresUserStore.new.users users := by
  have none (id : String) : PostgresUserStore.new.users.findKey id = none := rfl
  have rows : users.rows = [] := List.forall₂_nil_left_iff.mp alike.rows
  refine ⟨alike.definition, ?_, fun cells => ?_, fun row stored => ?_⟩
  · simp [Sql.Table.unique, rows]
  · simp [rows, none]
  · rw [none] at stored
    cases stored

theorem shows_default_organization {before organizations : Sql.Table ColumnType ColumnValue}
    (alike : before.Alike organizations) (key : before.hasKey ["id"] = true)
    (ids : before.rows.map (·.cell "id") = [some (.text "org-default")]) :
    ShowsOrganizations PostgresUserStore.new.organizations organizations := by
  have plain : "id" ∉ before.definition.stamps :=
    alike.timeless.keys ["id"] (List.contains_iff_mem.mp key) "id" (List.mem_singleton_self _)
  refine ⟨by rw [← hasKey_alike alike, key], fun id => ?_⟩
  have same : before.rows.any (fun cells => decide (cells.cell "id" = some (.text id))) =
      organizations.rows.any fun cells => decide (cells.cell "id" = some (.text id)) :=
    any_related alike.rows fun cells later both => by rw [both "id" plain]
  have listed : some (.text id) ∈ before.rows.map (·.cell "id") ↔
      id ∈ PostgresUserStore.new.organizations := by
    rw [ids, PostgresUserStore.new, List.mem_singleton, List.mem_singleton, Option.some.injEq,
      ColumnValue.text.injEq]
  rw [← listed, List.mem_map]
  simpa using (Bool.eq_iff_iff.mp same).symm

/-- The migrations leave no users and one organization. -/
theorem migrated_represents {clock : String → Time} {migrated : Schema}
    (ran : runMigrations clock .empty = .ok migrated) :
    Represents PostgresUserStore.new migrated := by
  obtain ⟨first, ranFirst, left⟩ := runMigrations_epoch
  obtain ⟨same, ranSame, alike⟩ := runFiles_alike empty_alike ranFirst clock
  cases Except.ok.inj (ranSame.symm.trans ran)
  obtain ⟨users, organizations⟩ := Prod.mk.inj left
  obtain ⟨before, foundBefore, shape⟩ := Option.map_eq_some_iff.mp organizations
  obtain ⟨key, ids⟩ := Prod.mk.inj shape
  obtain ⟨table, found, both⟩ := find_alike_some alike users
  obtain ⟨after, foundAfter, alsoBoth⟩ := find_alike_some alike foundBefore
  exact ⟨⟨table, found, shows_no_users both⟩, after, foundAfter,
    shows_default_organization alsoBoth key ids⟩

/-- After any starts that stopped and the start that succeeds, the database shows
the store of users through everything that the stores do. -/
theorem database_represents (stops : List (Nat × (String → Time))) (start : String → Time)
    (operations : List (Env × Operation)) :
    ∃ stopped migrated, stoppedStarts .empty stops = .ok stopped ∧
      runMigrations start stopped = .ok migrated ∧
      Represents (storeAll .new operations) (applyAll migrated operations) := by
  obtain ⟨stopped, ranStops, prefixed⟩ := stoppedStarts_prefixed prefixed_empty stops
  obtain ⟨migrated, merged, started, same⟩ := runMigrations_prefixed prefixed start
  exact ⟨stopped, migrated, ranStops, started,
    applyAll_represents (migrated_represents same) operations⟩

end Nexus.Database
