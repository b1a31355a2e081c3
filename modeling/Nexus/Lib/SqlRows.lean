import Nexus.Lib.SqlReplay

/-! Tables row by row: when one row is inserted, and what an update does to the
one row that it finds by a key. -/

set_option autoImplicit false

namespace Nexus.Lib.Sql

variable {τ ν ε : Type} [DecidableEq ν] {dialect : Dialect τ ν ε} {now : ℤ}

/-! ## Keys -/

theorem agrees_comm (names : List String) (row other : Row ν) :
    row.agrees names other = other.agrees names row := by
  have swap (first second : Row ν) (agrees : first.agrees names second = true) :
      second.agrees names first = true := by
    refine List.all_eq_true.mpr fun name listed => ?_
    have cell := List.all_eq_true.mp agrees name listed
    rw [Bool.and_eq_true, decide_eq_true_eq] at cell ⊢
    exact ⟨cell.2 ▸ cell.1, cell.2.symm⟩
  exact Bool.eq_iff_iff.mpr ⟨swap row other, swap other row⟩

theorem agrees_singleton {name : String} {row other : Row ν} {value : ν}
    (held : row.cell name = some value) :
    row.agrees [name] other = true ↔ other.cell name = some value := by
  rw [Row.agrees, List.all_cons, List.all_nil, Bool.and_true, Bool.and_eq_true,
    decide_eq_true_eq, held]
  exact ⟨fun agrees => agrees.2.symm, fun same => ⟨rfl, same.symm⟩⟩

/-- A row that agrees with none of the others on a key. -/
def Table.Fresh (table : Table τ ν) (others : List (Row ν)) (row : Row ν) : Prop :=
  ∀ key ∈ table.definition.keys, ∀ other ∈ others, row.agrees key other = false

theorem unique_middle_iff (table : Table τ ν) (front back : List (Row ν)) (row : Row ν) :
    ({ table with rows := front ++ row :: back } : Table τ ν).unique = true ↔
      table.Fresh (front ++ back) row ∧
        ({ table with rows := front ++ back } : Table τ ν).unique = true := by
  have symmetric (key : List String) {first second : Row ν}
      (apart : first.agrees key second = false) : second.agrees key first = false := by
    rw [agrees_comm, apart]
  simp only [Table.unique, List.all_eq_true, decide_eq_true_eq, Table.Fresh]
  constructor
  · intro unique
    refine ⟨fun key listed => ?_, fun key listed => ?_⟩
    · exact (List.pairwise_cons.mp
        ((List.pairwise_middle (symmetric key)).mp (unique key listed))).1
    · exact (List.pairwise_cons.mp
        ((List.pairwise_middle (symmetric key)).mp (unique key listed))).2
  · intro both key listed
    obtain ⟨fresh, unique⟩ := both
    exact (List.pairwise_middle (symmetric key)).mpr
      (List.pairwise_cons.mpr ⟨fresh key listed, unique key listed⟩)

theorem fresh_iff_free (table : Table τ ν) (row : Row ν) :
    table.definition.keys.any (table.holds · row) = false ↔ table.Fresh table.rows row := by
  simp only [List.any_eq_false, Table.holds, Bool.not_eq_true, Table.Fresh]

/-! ## Insertions -/

/-- The checks that the insertion of one row passes. -/
structure InsertsRow (dialect : Dialect τ ν ε) (now : ℤ) (db : Database τ ν) (table : Table τ ν)
    (columns : List String) (values : List (Option ν)) (row : Row ν) : Prop where
  built : buildRow (fill dialect now (columns.zip values)) table.definition.columns = .ok row
  fresh : table.Fresh table.rows row
  referring : (db.put { table with rows := table.rows ++ [row] }).satisfiesReferences
    table.definition.columns row = true

section
variable {db after : Database τ ν} {name : String} {table : Table τ ν} {columns : List String}
  {values : List (Option ν)}

theorem InsertsRow.insert {row : Row ν}
    (inserts : InsertsRow dialect now db table columns values row)
    (found : db.find name = some table) (named : table.hasColumns columns = true)
    (counted : values.length = columns.length) :
    db.insert dialect now name columns [values] none =
      .ok (db.put { table with rows := table.rows ++ [row] }) := by
  have free := (fresh_iff_free table row).mpr inserts.fresh
  have put : table.insertRow none row =
      (.ok { table with rows := table.rows ++ [row] } : Except (Fault ε) (Table τ ν)) := by
    simp only [Table.insertRow, Option.any_none, Bool.false_eq_true, if_false, free]
  refine Inserts.insert ⟨found, named, ?_, rfl, ?_, ?_⟩
  · simp [counted]
  · rw [Table.insertRows, inserts.built]
    dsimp only
    rw [put]
    rfl
  · simp [inserts.referring]

theorem insertsRow_of_insert (found : db.find name = some table)
    (inserted : db.insert dialect now name columns [values] none = .ok after) :
    ∃ row, InsertsRow dialect now db table columns values row ∧
      after = db.put { table with rows := table.rows ++ [row] } := by
  obtain ⟨same, filled, inserts, rfl⟩ := insert_ok inserted
  cases found.symm.trans inserts.found
  obtain ⟨row, middle, built, put, rest⟩ := insertRows_cons inserts.put
  cases rest
  unfold Table.insertRow at put
  rw [Option.any_none, if_neg Bool.false_ne_true] at put
  split at put
  · cases put
  · rename_i free
    cases put
    have referring := inserts.referring
    rw [List.drop_left, List.all_cons, List.all_nil, Bool.and_true] at referring
    exact ⟨row, ⟨built, (fresh_iff_free table row).mp (by simpa using free), referring⟩, rfl⟩

end

/-! ## Updates -/

section
variable {columns : List (Column τ ν)} {assignments : Row ν} {key : String} {value : ν}

theorem updateRows_apart {rows : List (Row ν)} (apart : ∀ row ∈ rows, row.cell key ≠ some value) :
    Table.updateRows dialect columns assignments key value rows = .ok rows := by
  induction rows with
  | nil => rfl
  | cons row rows ih =>
      rw [List.forall_mem_cons] at apart
      rw [Table.updateRows, if_neg apart.1]
      dsimp only
      rw [ih apart.2]

/-- The row that is found is rebuilt in its place. -/
theorem updateRows_middle {front back : List (Row ν)} {row : Row ν}
    (apart : ∀ other ∈ front ++ back, other.cell key ≠ some value)
    (hit : row.cell key = some value) :
    Table.updateRows dialect columns assignments key value (front ++ row :: back) =
      (buildRow (assign dialect assignments row) columns).map
        fun changed => front ++ changed :: back := by
  induction front with
  | nil =>
      rw [List.nil_append] at apart
      rw [List.nil_append, Table.updateRows, if_pos hit, updateRows_apart apart]
      cases buildRow (assign dialect assignments row) columns with
      | error fault => rfl
      | ok changed => rfl
  | cons other front ih =>
      rw [List.cons_append, List.forall_mem_cons] at apart
      rw [List.cons_append, Table.updateRows, if_neg apart.1, ih apart.2]
      cases buildRow (assign dialect assignments row) columns with
      | error fault => rfl
      | ok changed => rfl

end

/-- The checks that an update passes. -/
structure Updates (dialect : Dialect τ ν ε) (db : Database τ ν) (table : Table τ ν)
    (assignments : Row ν) (key : String) (value : ν) (rows : List (Row ν)) : Prop where
  named : table.hasColumns (key :: assignments.map Prod.fst) = true
  changed : Table.updateRows dialect table.definition.columns assignments key value table.rows =
    .ok rows
  unique : ({ table with rows := rows } : Table τ ν).unique = true
  referring : (table.rows.zip rows).all (fun change =>
    decide (change.1.cell key ≠ some value) ||
      (db.put { table with rows := rows }).satisfiesReferences table.definition.columns
        change.2) = true

section
variable {db after : Database τ ν} {name : String} {table : Table τ ν} {assignments : Row ν}
  {key : String} {value : ν}

theorem Updates.update {rows : List (Row ν)}
    (updates : Updates dialect db table assignments key value rows)
    (found : db.find name = some table) :
    db.update dialect name assignments key value = .ok (db.put { table with rows := rows }) := by
  simp only [Database.update, found, updates.named, updates.changed, updates.unique,
    updates.referring, Bool.not_true, Bool.false_eq_true, if_false, if_true]

theorem updates_of_update (found : db.find name = some table)
    (updated : db.update dialect name assignments key value = .ok after) :
    ∃ rows, Updates dialect db table assignments key value rows ∧
      after = db.put { table with rows := rows } := by
  simp only [Database.update, found] at updated
  split at updated
  · cases updated
  · rename_i named
    split at updated
    · cases updated
    · rename_i rows changed
      split at updated
      · cases updated
      · rename_i unique
        split at updated
        · rename_i referring
          cases updated
          refine ⟨rows, ⟨?_, changed, ?_, referring⟩, rfl⟩
          · simpa using named
          · simpa using unique
        · cases updated

end

/-- The checks that the update of one row passes. -/
structure UpdatesRow (dialect : Dialect τ ν ε) (db : Database τ ν) (table : Table τ ν)
    (front back : List (Row ν)) (assignments row changed : Row ν) : Prop where
  built : buildRow (assign dialect assignments row) table.definition.columns = .ok changed
  fresh : table.Fresh (front ++ back) changed
  referring : (db.put { table with rows := front ++ changed :: back }).satisfiesReferences
    table.definition.columns changed = true

/-- An update by a key that one row has is the update of that row. -/
theorem updates_middle_iff {db : Database τ ν} {table : Table τ ν} {front back rows : List (Row ν)}
    {assignments row : Row ν} {key : String} {value : ν}
    (located : table.rows = front ++ row :: back)
    (apart : ∀ other ∈ front ++ back, other.cell key ≠ some value)
    (hit : row.cell key = some value)
    (unique : ({ table with rows := front ++ back } : Table τ ν).unique = true)
    (named : table.hasColumns (key :: assignments.map Prod.fst) = true) :
    Updates dialect db table assignments key value rows ↔
      ∃ changed, UpdatesRow dialect db table front back assignments row changed ∧
        rows = front ++ changed :: back := by
  have changes : Table.updateRows dialect table.definition.columns assignments key value
      table.rows = (buildRow (assign dialect assignments row) table.definition.columns).map
        fun changed => front ++ changed :: back := by
    rw [located]
    exact updateRows_middle apart hit
  have pairs (changed : Row ν) : table.rows.zip (front ++ changed :: back) =
      front.zip front ++ (row, changed) :: back.zip back := by
    rw [located, List.zip_append rfl, List.zip_cons_cons]
  have others {beside : List (Row ν)} (sub : beside ⊆ front ++ back) :
      ∀ change ∈ beside.zip beside, decide (change.1.cell key ≠ some value) = true :=
    fun change listed => decide_eq_true (apart _ (sub (List.of_mem_zip listed).1))
  constructor
  · intro checks
    obtain ⟨_, changed, fresh, referring⟩ := checks
    rw [changes] at changed
    cases built : buildRow (assign dialect assignments row) table.definition.columns with
    | error fault =>
        rw [built] at changed
        cases changed
    | ok result =>
        rw [built] at changed
        cases changed
        rw [pairs, List.all_append, List.all_cons, Bool.and_eq_true, Bool.and_eq_true,
          Bool.or_eq_true, decide_eq_true_eq] at referring
        exact ⟨result, ⟨built, ((unique_middle_iff table front back result).mp fresh).1,
          referring.2.1.resolve_left fun different => different hit⟩, rfl⟩
  · intro checks
    obtain ⟨changed, updates, rfl⟩ := checks
    refine ⟨named, ?_, (unique_middle_iff table front back changed).mpr
      ⟨updates.fresh, unique⟩, ?_⟩
    · rw [changes, updates.built]
      rfl
    · rw [pairs, List.all_append, List.all_cons, updates.referring, Bool.or_true, Bool.true_and,
        Bool.and_eq_true, List.all_eq_true, List.all_eq_true]
      refine ⟨fun change listed => ?_, fun change listed => ?_⟩
      · rw [others (List.subset_append_left _ _) change listed, Bool.true_or]
      · rw [others (List.subset_append_right _ _) change listed, Bool.true_or]

/-! ## Other tables -/

omit [DecidableEq ν] in
theorem find_put_other {db : Database τ ν} {name other : String} {changed : Table τ ν}
    (named : changed.definition.name = name) (different : other ≠ name) :
    (db.put changed).find other = db.find other := by
  rw [find_put, named, if_neg fun same => different same.symm]

theorem find_insert_other {db after : Database τ ν} {name other : String}
    {columns : List String} {rows : List (List (Option ν))} {target : Option (List String)}
    (inserted : db.insert dialect now name columns rows target = .ok after)
    (different : other ≠ name) : after.find other = db.find other := by
  obtain ⟨table, filled, inserts, rfl⟩ := insert_ok inserted
  have named : filled.definition.name = name := by
    rw [(insertRows_grows inserts.put).1, find_name inserts.found]
  exact find_put_other named different

end Nexus.Lib.Sql
