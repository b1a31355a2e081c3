import Nexus.Database.Migrations
import Nexus.Database.Queries
import Nexus.Lib.SqlTime

/-! Migrations can be run again: after a start that failed in between, and after
any use of the database. Every statement of theirs is guarded, so a file that has
run finds nothing to do, and no operation of the stores removes what it seeded. -/

set_option autoImplicit false

namespace Nexus.Database

open Nexus.Go Nexus.Lib Nexus.Lib.Sql

/-! ## The files -/

theorem migrationNames_eq : migrationNames = migrationFiles.map Prod.fst := by
  have kept : (migrationFiles.map Prod.fst).filter isMigration = migrationFiles.map Prod.fst := by
    decide
  rw [migrationNames, kept]
  refine List.mergeSort_of_pairwise ?_
  decide

theorem migrationNames_nodup : migrationNames.Nodup := by
  rw [migrationNames_eq]
  decide

/-- A name that is run has a file. -/
theorem migrationNames_content {name : String} (listed : name ∈ migrationNames) :
    ∃ content, migrationFiles.lookup name = some content := by
  have all : ∀ name ∈ migrationFiles.map Prod.fst, (migrationFiles.lookup name).isSome = true := by
    decide
  rw [migrationNames_eq] at listed
  exact Option.isSome_iff_exists.mp (all name listed)

theorem lookup_file {name : String} {content : List Statement}
    (found : migrationFiles.lookup name = some content) : (name, content) ∈ migrationFiles := by
  obtain ⟨before, rest, split, _⟩ := List.lookup_eq_some_iff.mp found
  rw [split]
  exact List.mem_append_right _ List.mem_cons_self

theorem files_guarded : ∀ file ∈ migrationFiles, ∀ statement ∈ file.2,
    statement.guarded = true := by
  decide

/-- No migration seeds users. -/
theorem files_seed : ∀ file ∈ migrationFiles, ∀ statement ∈ file.2,
    statement.inserts ≠ some "users" := by
  decide

/-- No key and no reference of a table is a time. -/
theorem files_timeless : ∀ file ∈ migrationFiles, ∀ statement ∈ file.2,
    statement.Timeless := by
  decide

/-! ## Files in turn -/

variable {clock : String → Time} {db after : Schema}

theorem runFiles_cons {name : String} {names : List String}
    (ran : runFiles clock db (name :: names) = .ok after) :
    ∃ content middle, migrationFiles.lookup name = some content ∧
      run dialect (clock name) db content = .ok middle ∧
      runFiles clock middle names = .ok after := by
  rw [runFiles] at ran
  cases found : migrationFiles.lookup name with
  | none =>
      rw [found] at ran
      cases ran
  | some content =>
      rw [found] at ran
      dsimp only at ran
      cases executed : run dialect (clock name) db content with
      | error fault =>
          rw [executed] at ran
          cases ran
      | ok middle =>
          rw [executed] at ran
          exact ⟨content, middle, rfl, executed, ran⟩

theorem runFiles_next {name : String} {content : List Statement} {middle : Schema}
    (found : migrationFiles.lookup name = some content)
    (executed : run dialect (clock name) db content = .ok middle) (names : List String) :
    runFiles clock db (name :: names) = runFiles clock middle names := by
  rw [runFiles, found]
  dsimp only
  rw [executed]

theorem runFiles_append {names : List String} (ran : runFiles clock db names = .ok after)
    (more : List String) : runFiles clock db (names ++ more) = runFiles clock after more := by
  induction names generalizing db with
  | nil =>
      cases ran
      rfl
  | cons name names ih =>
      obtain ⟨content, middle, found, executed, later⟩ := runFiles_cons ran
      rw [List.cons_append, runFiles_next found executed, ih later]

/-- Only the times of the files that run matter. -/
theorem runFiles_congr {other : String → Time} {names : List String}
    (same : ∀ name ∈ names, clock name = other name) (db : Schema) :
    runFiles clock db names = runFiles other db names := by
  induction names generalizing db with
  | nil => rfl
  | cons name names ih =>
      rw [List.forall_mem_cons] at same
      simp only [runFiles, same.1, ih same.2]

/-- A run that ends has passed the end of each part of it. -/
theorem runFiles_take {names : List String} (ran : runFiles clock db names = .ok after)
    (files : Nat) : ∃ middle, runFiles clock db (names.take files) = .ok middle := by
  induction names generalizing db files with
  | nil => exact ⟨db, by rw [List.take_nil]; rfl⟩
  | cons name names ih =>
      cases files with
      | zero => exact ⟨db, rfl⟩
      | succ files =>
          obtain ⟨content, middle, found, executed, later⟩ := runFiles_cons ran
          rw [List.take_succ_cons, runFiles_next found executed]
          exact ih later files

/-! ## Files that have run -/

/-- These files have nothing left to do. -/
def Covers (db : Schema) (names : List String) : Prop :=
  ∀ name ∈ names, ∀ content, migrationFiles.lookup name = some content →
    ∀ statement ∈ content, Covered dialect db statement

theorem runFiles_covers {names : List String} (ran : runFiles clock db names = .ok after) :
    db.Keeps after (fun _ => True) ∧ Covers after names := by
  induction names generalizing db with
  | nil =>
      cases ran
      exact ⟨keeps_refl _ _, List.forall_mem_nil _⟩
  | cons name names ih =>
      obtain ⟨content, middle, found, executed, later⟩ := runFiles_cons ran
      obtain ⟨keeps, covered⟩ := run_covers (files_guarded _ (lookup_file found)) executed
      obtain ⟨keepsLater, coversLater⟩ := ih later
      refine ⟨keeps.trans keepsLater, List.forall_mem_cons.mpr ⟨?_, coversLater⟩⟩
      intro also alsoFound statement listed
      rw [found] at alsoFound
      cases alsoFound
      exact (covered statement listed).keeps keepsLater fun _ _ => trivial

theorem runFiles_covered {names : List String} (covers : Covers db names)
    (listed : names ⊆ migrationNames) (clock : String → Time) :
    runFiles clock db names = .ok db := by
  induction names with
  | nil => rfl
  | cons name names ih =>
      rw [List.cons_subset] at listed
      obtain ⟨content, found⟩ := migrationNames_content listed.1
      have done : run dialect (clock name) db content = .ok db :=
        run_covered (covers name List.mem_cons_self content found)
      rw [runFiles_next found done]
      exact ih (fun other later => covers other (List.mem_cons_of_mem _ later)) listed.2

theorem Covers.sublist {names fewer : List String} (covers : Covers db names)
    (sub : fewer ⊆ names) : Covers db fewer :=
  fun name listed => covers name (sub listed)

/-! ## Every start succeeds -/

theorem runFiles_alike {other : Schema} (alike : db.Alike other) {names : List String}
    (ran : runFiles clock db names = .ok after) (later : String → Time) :
    ∃ same, runFiles later other names = .ok same ∧ after.Alike same := by
  induction names generalizing db other with
  | nil =>
      cases ran
      exact ⟨other, rfl, alike⟩
  | cons name names ih =>
      obtain ⟨content, middle, found, executed, rest⟩ := runFiles_cons ran
      obtain ⟨alsoMiddle, alsoExecuted, middleAlike⟩ :=
        run_alike alike (files_timeless _ (lookup_file found)) executed (later name)
      rw [runFiles_next found alsoExecuted]
      exact ih middleAlike rest

/-- What the migrations leave of users and organizations. -/
def seeded (db : Schema) : Option (Sql.Table ColumnType ColumnValue) ×
    Option (Bool × List (Option ColumnValue)) :=
  (db.find "users", (db.find "organizations").map fun table =>
    (table.hasKey ["id"], table.rows.map (·.cell "id")))

theorem seeded_epoch :
    (runFiles (fun _ => 0) .empty (migrationFiles.map Prod.fst)).toOption.map seeded =
      some (some ⟨⟨"users", usersColumns, [["id"], ["username"]]⟩, []⟩,
        some (true, [some (.text "org-default")])) := by
  decide +kernel

theorem runMigrations_epoch : ∃ first, runMigrations (fun _ => 0) .empty = .ok first ∧
    seeded first = (some ⟨⟨"users", usersColumns, [["id"], ["username"]]⟩, []⟩,
      some (true, [some (.text "org-default")])) := by
  have epoch := seeded_epoch
  rw [← migrationNames_eq] at epoch
  obtain ⟨first, ran, left⟩ := Option.map_eq_some_iff.mp epoch
  cases result : runFiles (fun _ => 0) .empty migrationNames with
  | error err =>
      rw [result] at ran
      cases ran
  | ok db =>
      rw [result] at ran
      cases ran
      exact ⟨first, result, left⟩

/-- At any time the migrations end as at the epoch. -/
theorem runMigrations_empty (clock : String → Time) :
    ∃ first migrated, runMigrations (fun _ => 0) .empty = .ok first ∧
      runMigrations clock .empty = .ok migrated ∧ first.Alike migrated := by
  obtain ⟨first, ran, _⟩ := runMigrations_epoch
  obtain ⟨migrated, alsoRan, alike⟩ := runFiles_alike empty_alike ran clock
  exact ⟨first, migrated, ran, alsoRan, alike⟩

theorem runFiles_empty (clock : String → Time) (files : Nat) :
    ∃ stopped, runFiles clock .empty (migrationNames.take files) = .ok stopped := by
  obtain ⟨_, migrated, _, ran, _⟩ := runMigrations_empty clock
  exact runFiles_take ran files

/-! ## Starts that stop -/

/-- A database that the first files have made out of nothing, each at a time of its
own. -/
def Prefixed (db : Schema) : Prop :=
  ∃ clock files, runFiles clock .empty (migrationNames.take files) = .ok db

theorem prefixed_empty : Prefixed .empty := ⟨fun _ => 0, 0, rfl⟩

/-- A start that comes further than the ones before ends as a start from nothing
does that runs the first files at their old times. -/
theorem runFiles_further {reached : Schema} {files : Nat}
    (ran : runFiles clock .empty (migrationNames.take files) = .ok reached)
    (start : String → Time) (more : Nat) :
    ∃ merged, runFiles start reached (migrationNames.take (files + more)) =
      runFiles merged .empty (migrationNames.take (files + more)) := by
  have apart : ∀ name ∈ (migrationNames.drop files).take more,
      name ∉ migrationNames.take files := fun name later earlier =>
    List.disjoint_take_drop migrationNames_nodup le_rfl earlier (List.mem_of_mem_take later)
  let merged := fun name => if name ∈ migrationNames.take files then clock name else start name
  have first : runFiles merged .empty (migrationNames.take files) = .ok reached := by
    rw [← ran]
    exact runFiles_congr (fun name listed => if_pos listed) _
  have again : runFiles start reached (migrationNames.take files) = .ok reached :=
    runFiles_covered (runFiles_covers ran).2 (List.take_subset _ _) start
  refine ⟨merged, ?_⟩
  rw [List.take_add, runFiles_append again, runFiles_append first]
  exact runFiles_congr (fun name later => (if_neg (apart name later)).symm) reached

theorem Prefixed.start {reached : Schema} (prefixed : Prefixed reached) (start : String → Time)
    (files : Nat) : ∃ after, runFiles start reached (migrationNames.take files) = .ok after ∧
      Prefixed after := by
  obtain ⟨clock, done, ran⟩ := prefixed
  rcases Nat.le_total files done with fewer | further
  · have covers := (runFiles_covers ran).2.sublist (List.take_subset_take_left _ fewer)
    exact ⟨reached, runFiles_covered covers (List.take_subset _ _) start, clock, done, ran⟩
  · obtain ⟨more, rfl⟩ := Nat.exists_eq_add_of_le further
    obtain ⟨merged, same⟩ := runFiles_further ran start more
    obtain ⟨after, alsoRan⟩ := runFiles_empty merged (done + more)
    exact ⟨after, same.trans alsoRan, merged, done + more, alsoRan⟩

theorem stoppedStarts_prefixed (prefixed : Prefixed db) (starts : List (Nat × (String → Time))) :
    ∃ stopped, stoppedStarts db starts = .ok stopped ∧ Prefixed stopped := by
  induction starts generalizing db with
  | nil => exact ⟨db, rfl, prefixed⟩
  | cons start starts ih =>
      obtain ⟨files, clock⟩ := start
      obtain ⟨middle, ran, prefixedMiddle⟩ := prefixed.start clock files
      rw [stoppedStarts, ran]
      exact ih prefixedMiddle

/-- After any starts that stopped, a start ends as one from nothing does. -/
theorem runMigrations_prefixed (prefixed : Prefixed db) (start : String → Time) :
    ∃ migrated clock, runMigrations start db = .ok migrated ∧
      runMigrations clock .empty = .ok migrated := by
  obtain ⟨clock, files, ran⟩ := prefixed
  have all : migrationNames.take (files + migrationNames.length) = migrationNames :=
    List.take_of_length_le (Nat.le_add_left _ _)
  obtain ⟨merged, same⟩ := runFiles_further ran start migrationNames.length
  rw [all] at same
  obtain ⟨_, migrated, _, alsoRan, _⟩ := runMigrations_empty merged
  exact ⟨migrated, merged, same.trans alsoRan, alsoRan⟩

/-! ## Use of the database -/

/-- No operation touches a row outside the users. -/
theorem Operation.keeps (operation : Operation) (env : Env) (db : Schema) :
    db.Keeps (operation.apply env db) (· ≠ "users") := by
  have changes (name : String) (other : name ≠ "users") :
      (operation.statement env).changes ≠ some name := by
    cases operation with
    | createUser u => exact fun same => by cases same
    | updateUser u => exact fun same => other (Option.some.inj same).symm
    | log event => exact fun same => by cases same
  rw [Operation.apply]
  cases executed : exec dialect env.now db (operation.statement env) with
  | error fault => exact keeps_refl db _
  | ok after => exact (exec_keeps executed).mono changes

theorem applyAll_keeps (db : Schema) (operations : List (Env × Operation)) :
    db.Keeps (applyAll db operations) (· ≠ "users") := by
  induction operations generalizing db with
  | nil => exact keeps_refl db _
  | cons step operations ih => exact (step.2.keeps step.1 db).trans (ih _)

theorem Covers.applyAll {names : List String} (covers : Covers db names)
    (operations : List (Env × Operation)) : Covers (applyAll db operations) names := by
  intro name listed content found statement inside
  refine (covers name listed content found statement inside).keeps (applyAll_keeps db operations) ?_
  rintro table seeded rfl
  exact files_seed _ (lookup_file found) statement inside seeded

/-- After any starts that stopped, a start succeeds and ends as one from nothing
does, and at every time that differs in stamps only. Whatever the stores do then,
the next start succeeds and changes nothing. -/
theorem migrations_restartable (stops : List (Nat × (String → Time)))
    (start again : String → Time) (operations : List (Env × Operation)) :
    ∃ stopped migrated, stoppedStarts .empty stops = .ok stopped ∧
      runMigrations start stopped = .ok migrated ∧
      runMigrations again (applyAll migrated operations) = .ok (applyAll migrated operations) ∧
      (∃ clock, runMigrations clock .empty = .ok migrated) ∧
      ∀ clock, ∃ uninterrupted, runMigrations clock .empty = .ok uninterrupted ∧
        uninterrupted.Alike migrated := by
  obtain ⟨stopped, ranStops, prefixed⟩ := stoppedStarts_prefixed prefixed_empty stops
  obtain ⟨migrated, merged, started, same⟩ := runMigrations_prefixed prefixed start
  have covers : Covers migrated migrationNames := (runFiles_covers started).2
  refine ⟨stopped, migrated, ranStops, started,
    runFiles_covered (covers.applyAll operations) (List.Subset.refl _) again, ⟨merged, same⟩, ?_⟩
  intro clock
  obtain ⟨_, uninterrupted, _, ran, _⟩ := runMigrations_empty clock
  obtain ⟨also, alsoRan, alike⟩ := runFiles_alike empty_alike ran merged
  have both : also = migrated := Except.ok.inj (alsoRan.symm.trans same)
  subst both
  exact ⟨uninterrupted, ran, alike⟩

end Nexus.Database
