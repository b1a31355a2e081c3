import Nexus.Audit.LoggerPostgresProperties
import Nexus.Auth.StorePostgresProperties
import Nexus.Database.Migrations
import Nexus.Database.Queries
import Nexus.Lib.SqlReplay

/-! The row of a user as the statements of the store build it: the columns admit
what the store's own row admits, and keep the same of it. -/

set_option autoImplicit false

namespace Nexus.Database

open Nexus.Auth Nexus.Go Nexus.Lib Nexus.Lib.Sql Nexus.Users

def userCells (row : UserRow) : Row ColumnValue :=
  [("id", some (.text row.id)), ("username", some (.text row.username)),
    ("password_hash", some (.text row.passwordHash)), ("role", some (.text row.role)),
    ("organization_id", row.organizationID.map .text), ("status", some (.text row.status)),
    ("mfa_secret", row.mfaSecret.map .text), ("mfa_enabled", some (.boolean row.mfaEnabled)),
    ("created_at", some (.timestamp row.createdAt)),
    ("updated_at", some (.timestamp row.updatedAt))]

theorem castCell_text_iff {width : Nat} {text : String} {cell : Option ColumnValue} :
    castCell dialect (.varchar width) (some (.text text)) = .ok cell ↔
      ∃ kept, varchar width text = .ok kept ∧ hasNul text = false ∧ cell = some (.text kept) := by
  simp only [castCell, dialect, cast, readText]
  cases clean : hasNul text with
  | true => simp
  | false =>
      cases fits : varchar width text with
      | error err => simp [castText, fits, Except.mapError, Except.map]
      | ok kept => simp [castText, fits, Except.mapError, Except.map, eq_comm]

theorem varchar_nonempty {width : Nat} (positive : 0 < width) {text kept : String}
    (fits : varchar width text = .ok kept) (nonempty : text ≠ "") : kept ≠ "" := by
  unfold varchar at fits
  split at fits
  · cases fits
    exact nonempty
  · split at fits
    · cases fits
      intro same
      have cut := congrArg String.toList same
      rw [String.toList_ofList, String.toList_empty, List.take_eq_nil_iff] at cut
      rcases cut with none | empty
      · omega
      · exact nonempty (String.toList_eq_nil_iff.mp empty)
    · cases fits

/-- A text that a column of this width keeps as it is. -/
def Kept (width : Nat) (text : String) : Prop :=
  hasNul text = false ∧ varchar width text = .ok text

theorem varchar_kept {width : Nat} {text kept : String} (fits : varchar width text = .ok kept)
    (clean : hasNul text = false) : Kept width kept := by
  unfold varchar at fits
  split at fits
  · rename_i short
    cases fits
    exact ⟨clean, if_pos short⟩
  · split at fits
    · cases fits
      refine ⟨?_, if_pos ?_⟩
      · rw [hasNul, String.toList_ofList]
        rw [hasNul] at clean
        by_contra nul
        rw [Bool.not_eq_false, List.contains_iff_mem] at nul
        rw [← Bool.not_eq_true, List.contains_iff_mem] at clean
        exact clean (List.mem_of_mem_take nul)
      · rw [String.length_ofList, List.length_take]
        exact Nat.min_le_left _ _
    · cases fits

theorem castCell_organization_iff {text : String} {cell : Option ColumnValue} :
    castCell dialect (.varchar 64) (textOrNull text) = .ok cell ↔
      ∃ kept, varchar 64 text = .ok kept ∧ hasNul text = false ∧
        cell = (nullIfEmpty kept).map .text := by
  by_cases empty : text = ""
  · subst empty
    have clean : hasNul "" = false := rfl
    have fits : varchar 64 "" = .ok "" := rfl
    simp [textOrNull, nullIfEmpty, castCell, fits, clean, eq_comm]
  · rw [textOrNull, nullIfEmpty, if_neg empty, Option.map_some, castCell_text_iff]
    refine exists_congr fun kept => and_congr_right fun fits => and_congr_right fun _ => ?_
    rw [nullIfEmpty, if_neg (varchar_nonempty (by decide) fits empty), Option.map_some]

theorem userRow_ok_iff {u : User} {row : UserRow} :
    userRow u = .ok row ↔ ∃ id, varchar 64 u.id = .ok id ∧
      ∃ username, varchar 64 u.username = .ok username ∧
      ∃ passwordHash, varchar 255 u.passwordHash = .ok passwordHash ∧
      ∃ role, varchar 32 u.role = .ok role ∧
      ∃ organizationID, varchar 64 u.organizationID = .ok organizationID ∧
      ∃ status, varchar 32 u.status = .ok status ∧
      ∃ mfaSecret, varchar 64 u.mfaSecret = .ok mfaSecret ∧
      row = { id := id, username := username, passwordHash := passwordHash, role := role,
              organizationID := nullIfEmpty organizationID, status := status,
              mfaSecret := some mfaSecret, mfaEnabled := u.mfaEnabled,
              createdAt := timestamptz u.createdAt, updatedAt := timestamptz u.updatedAt } := by
  simp only [userRow, bind, Audit.except_bind_ok_iff, pure, Except.pure, Except.ok.injEq]
  simp only [eq_comm (a := row)]

/-- The row that is built under a column's name is what the column admits. -/
theorem buildRow_cons_iff {cellOf : Column → Except Fault (Option ColumnValue)}
    {column : Column} {columns : List Column} {row : Row ColumnValue} :
    buildRow cellOf (column :: columns) = .ok row ↔
      ∃ cell, cellOf column = .ok cell ∧ (column.notNull && cell.isNone) = false ∧
        ∃ rest, buildRow cellOf columns = .ok rest ∧ row = (column.name, cell) :: rest := by
  constructor
  · intro built
    obtain ⟨cell, rest, found, admitted, later, same⟩ := buildRow_cons built
    exact ⟨cell, found, admitted, rest, later, same⟩
  · intro given
    obtain ⟨cell, found, admitted, rest, later, rfl⟩ := given
    rw [buildRow, found]
    dsimp only
    rw [admitted, later]
    rfl

/-- How the cells of a user's row are found: the texts are cast, and the time of
its creation is given. -/
def userCasts (u : User) (created : Time) : List (Except Fault (Option ColumnValue)) :=
  [castCell dialect (.varchar 64) (some (.text u.id)),
    castCell dialect (.varchar 64) (some (.text u.username)),
    castCell dialect (.varchar 255) (some (.text u.passwordHash)),
    castCell dialect (.varchar 32) (some (.text u.role)),
    castCell dialect (.varchar 64) (textOrNull u.organizationID),
    castCell dialect (.varchar 32) (some (.text u.status)),
    castCell dialect (.varchar 64) (some (.text u.mfaSecret)),
    .ok (some (.boolean u.mfaEnabled)), .ok (some (.timestamp created)),
    .ok (some (.timestamp (timestamptz u.updatedAt)))]

theorem buildRow_users_iff {cellOf : Column → Except Fault (Option ColumnValue)} {u : User}
    {created : Time} (found : usersColumns.map cellOf = userCasts u created)
    {cells : Row ColumnValue} :
    buildRow cellOf usersColumns = .ok cells ↔ (userParameters u).any hasNul = false ∧
      ∃ row, userRow u = .ok row ∧ cells = userCells { row with createdAt := created } := by
  simp only [usersColumns, userCasts, List.map_cons, List.map_nil, List.cons.injEq,
    and_true] at found
  obtain ⟨id, username, passwordHash, role, organizationID, status, mfaSecret, mfaEnabled,
    createdAt, updatedAt⟩ := found
  simp only [usersColumns, buildRow_cons_iff, id, username, passwordHash, role, organizationID,
    status, mfaSecret, mfaEnabled, createdAt, updatedAt, castCell_text_iff,
    castCell_organization_iff, userRow_ok_iff]
  have nil : ∀ rest, buildRow cellOf [] = .ok rest ↔ rest = [] := fun rest => by
    rw [buildRow, Except.ok.injEq, eq_comm]
  simp only [↓existsAndEq, and_true, required, column, Option.isNone_some, Bool.and_false,
    withDefault, referring, Option.isNone_map, Bool.false_and, Bool.and_self, Except.ok.injEq,
    Bool.true_and, Option.isNone_eq_false_iff, stamped, nil, true_and, Option.isSome_some,
    and_self, userParameters, List.any_cons, List.any_nil, Bool.or_false, Bool.or_eq_false_iff]
  constructor
  · intro built
    obtain ⟨id, ⟨fitsID, cleanID⟩, username, passwordHash, role, organizationID, status, mfaSecret,
      ⟨⟨fitsUsername, cleanUsername⟩, ⟨fitsHash, cleanHash⟩, ⟨fitsRole, cleanRole⟩,
        ⟨fitsOrganization, cleanOrganization⟩, ⟨fitsStatus, cleanStatus⟩, fitsSecret,
        cleanSecret⟩, same⟩ := built
    exact ⟨⟨cleanID, cleanUsername, cleanHash, cleanRole, cleanOrganization, cleanStatus,
      cleanSecret⟩, id, username, passwordHash, role, organizationID, status, mfaSecret,
      ⟨fitsID, fitsUsername, fitsHash, fitsRole, fitsOrganization, fitsStatus, fitsSecret⟩, same⟩
  · intro fits
    obtain ⟨⟨cleanID, cleanUsername, cleanHash, cleanRole, cleanOrganization, cleanStatus,
      cleanSecret⟩, id, username, passwordHash, role, organizationID, status, mfaSecret,
      ⟨fitsID, fitsUsername, fitsHash, fitsRole, fitsOrganization, fitsStatus, fitsSecret⟩,
      same⟩ := fits
    exact ⟨id, ⟨fitsID, cleanID⟩, username, passwordHash, role, organizationID, status, mfaSecret,
      ⟨⟨fitsUsername, cleanUsername⟩, ⟨fitsHash, cleanHash⟩, ⟨fitsRole, cleanRole⟩,
        ⟨fitsOrganization, cleanOrganization⟩, ⟨fitsStatus, cleanStatus⟩, fitsSecret,
        cleanSecret⟩, same⟩

/-- The values of a new user in the order of the columns. -/
def createdValues (u : User) : List (Option ColumnValue) :=
  [some (.text u.id), some (.text u.username), some (.text u.passwordHash), some (.text u.role),
    textOrNull u.organizationID, some (.text u.status), some (.text u.mfaSecret),
    some (.boolean u.mfaEnabled), some (.timestamp u.createdAt), some (.timestamp u.updatedAt)]

theorem exec_createUser (db : Schema) (env : Env) (u : User) :
    exec dialect env.now db ((Operation.createUser u).statement env) =
      db.insert dialect env.now "users" (usersColumns.map Column.name)
        [createdValues (Auth.stamped env u)] none := rfl

theorem fill_created (now : Time) (u : User) :
    usersColumns.map (fill dialect now ((usersColumns.map Column.name).zip (createdValues u))) =
      userCasts u (timestamptz u.createdAt) := rfl

/-- What an update assigns. -/
def updatedCells (u : User) : Row ColumnValue :=
  [("username", some (.text u.username)), ("password_hash", some (.text u.passwordHash)),
    ("role", some (.text u.role)), ("organization_id", textOrNull u.organizationID),
    ("status", some (.text u.status)), ("mfa_secret", some (.text u.mfaSecret)),
    ("mfa_enabled", some (.boolean u.mfaEnabled)), ("updated_at", some (.timestamp u.updatedAt))]

theorem exec_updateUser (db : Schema) (env : Env) (u : User) :
    exec dialect env.now db ((Operation.updateUser u).statement env) =
      db.update dialect "users" (updatedCells (touched env u)) "id" (.text u.id) := rfl

theorem assign_updated {u : User} {old : UserRow} (same : old.id = u.id) (kept : Kept 64 u.id) :
    usersColumns.map (assign dialect (updatedCells u) (userCells old)) =
      userCasts u old.createdAt := by
  have id : castCell dialect (.varchar 64) (some (.text u.id)) =
      (.ok (some (.text old.id)) : Except Fault _) := by
    rw [castCell_text_iff, same]
    exact ⟨u.id, kept.2, kept.1, rfl⟩
  rw [userCasts, id]
  rfl

end Nexus.Database
