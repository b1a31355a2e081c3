import Nexus.Lib.Sql

/-! Scripts that can be run again. A guarded statement creates what does not
exist, or inserts rows that it skips where their key is present. Once it has
run, the database covers it, and running it again changes nothing; and what is
covered stays covered as long as the rows it inserted stay. -/

set_option autoImplicit false

namespace Nexus.Lib.Sql

variable {τ ν ε : Type}

/-! ## Finding and putting tables -/

theorem find_name {db : Database τ ν} {name : String} {table : Table τ ν}
    (found : db.find name = some table) : table.definition.name = name := by
  simpa using List.find?_some found

theorem putTable_self {name : String} {table : Table τ ν} {tables : List (Table τ ν)}
    (found : tables.find? (fun table => decide (table.definition.name = name)) = some table) :
    Database.putTable table tables = tables := by
  have named : table.definition.name = name := by simpa using List.find?_some found
  induction tables with
  | nil => rfl
  | cons other tables ih =>
      rw [List.find?_cons] at found
      split at found
      · cases found
        rw [Database.putTable, if_pos rfl]
      · rename_i different
        have another : other.definition.name ≠ table.definition.name := by
          rw [named]
          simpa using different
        rw [Database.putTable, if_neg another, ih found]

theorem put_self {db : Database τ ν} {name : String} {table : Table τ ν}
    (found : db.find name = some table) : db.put table = db := by
  rw [Database.put, putTable_self found]

theorem find_putTable (changed : Table τ ν) (name : String) (tables : List (Table τ ν)) :
    (Database.putTable changed tables).find? (fun table => decide (table.definition.name = name)) =
      if changed.definition.name = name then
        (tables.find? (fun table => decide (table.definition.name = name))).map fun _ => changed
      else tables.find? (fun table => decide (table.definition.name = name)) := by
  induction tables with
  | nil => simp [Database.putTable]
  | cons other tables ih =>
      by_cases same : other.definition.name = changed.definition.name
      · rw [Database.putTable, if_pos same, List.find?_cons, List.find?_cons, same]
        by_cases named : changed.definition.name = name
        · simp [named]
        · simp [named]
      · rw [Database.putTable, if_neg same, List.find?_cons, List.find?_cons]
        by_cases named : other.definition.name = name
        · have another : changed.definition.name ≠ name := fun both =>
            same (named.trans both.symm)
          simp [named, another]
        · simp [named, ih]

theorem find_put (db : Database τ ν) (changed : Table τ ν) (name : String) :
    (db.put changed).find name =
      if changed.definition.name = name then (db.find name).map fun _ => changed
      else db.find name :=
  find_putTable changed name db.tables

theorem any_putTable (changed : Table τ ν) (name : String) (tables : List (Table τ ν)) :
    (Database.putTable changed tables).any (fun table => decide (table.definition.name = name)) =
      tables.any fun table => decide (table.definition.name = name) := by
  induction tables with
  | nil => rfl
  | cons other tables ih =>
      by_cases same : other.definition.name = changed.definition.name
      · rw [Database.putTable, if_pos same, List.any_cons, List.any_cons, same]
      · rw [Database.putTable, if_neg same, List.any_cons, List.any_cons, ih]

theorem hasRelation_put (db : Database τ ν) (changed : Table τ ν) (name : String) :
    (db.put changed).hasRelation name = db.hasRelation name := by
  rw [Database.hasRelation, Database.put, any_putTable]
  rfl

/-! ## What a step keeps -/

/-- Everything defined stays as it is defined, and tables keep their rows, except
those that are not kept. -/
structure Database.Keeps (db after : Database τ ν) (kept : String → Prop) : Prop where
  tables : ∀ name table, db.find name = some table → ∃ grown, after.find name = some grown ∧
    grown.definition = table.definition ∧ (kept name → ∀ row ∈ table.rows, row ∈ grown.rows)
  relations : ∀ name, db.hasRelation name = true → after.hasRelation name = true

theorem keeps_refl (db : Database τ ν) (kept : String → Prop) : db.Keeps db kept where
  tables _ table found := ⟨table, found, rfl, fun _ _ listed => listed⟩
  relations _ present := present

theorem Database.Keeps.trans {db middle after : Database τ ν} {kept : String → Prop}
    (first : db.Keeps middle kept) (second : middle.Keeps after kept) :
    db.Keeps after kept where
  tables name table found := by
    obtain ⟨grown, foundGrown, same, rows⟩ := first.tables name table found
    obtain ⟨final, foundFinal, alsoSame, laterRows⟩ := second.tables name grown foundGrown
    exact ⟨final, foundFinal, alsoSame.trans same,
      fun keeps row listed => laterRows keeps row (rows keeps row listed)⟩
  relations name present := second.relations name (first.relations name present)

theorem Database.Keeps.mono {db after : Database τ ν} {kept fewer : String → Prop}
    (keeps : db.Keeps after kept) (sub : ∀ name, fewer name → kept name) :
    db.Keeps after fewer where
  tables name table found := by
    obtain ⟨grown, foundGrown, same, rows⟩ := keeps.tables name table found
    exact ⟨grown, foundGrown, same, fun keep => rows (sub name keep)⟩
  relations := keeps.relations

theorem keeps_put {db : Database τ ν} {name : String} {table changed : Table τ ν}
    (found : db.find name = some table) (same : changed.definition = table.definition)
    {kept : String → Prop} (rows : kept name → ∀ row ∈ table.rows, row ∈ changed.rows) :
    db.Keeps (db.put changed) kept where
  tables other present alsoFound := by
    have named : changed.definition.name = name := by rw [same, find_name found]
    rw [find_put]
    by_cases this : changed.definition.name = other
    · have both : other = name := this.symm.trans named
      subst both
      rw [found] at alsoFound
      cases alsoFound
      rw [if_pos this, found]
      exact ⟨changed, rfl, same, rows⟩
    · rw [if_neg this]
      exact ⟨present, alsoFound, rfl, fun _ row listed => listed⟩
  relations other present := by rw [hasRelation_put, present]

variable {dialect : Dialect τ ν ε} {now : ℤ}

/-! ## Rows at another time -/

theorem cell_cons (name : String) (cell : Option ν) (row : Row ν) (asked : String) :
    Row.cell ((name, cell) :: row) asked = if asked = name then cell else row.cell asked := by
  rw [Row.cell, List.lookup_cons]
  by_cases same : asked = name
  · simp [same]
  · have different : (asked == name) = false := by simpa using same
    simp [different, same, Row.cell]

theorem buildRow_cons {cellOf : Column τ ν → Except (Fault ε) (Option ν)} {column : Column τ ν}
    {columns : List (Column τ ν)} {row : Row ν}
    (built : buildRow cellOf (column :: columns) = .ok row) :
    ∃ cell rest, cellOf column = .ok cell ∧ (column.notNull && cell.isNone) = false ∧
      buildRow cellOf columns = .ok rest ∧ row = (column.name, cell) :: rest := by
  unfold buildRow at built
  cases found : cellOf column with
  | error fault =>
      rw [found] at built
      cases built
  | ok cell =>
      rw [found] at built
      dsimp only at built
      split at built
      · cases built
      · rename_i admitted
        cases later : buildRow cellOf columns with
        | error fault =>
            rw [later] at built
            cases built
        | ok rest =>
            rw [later] at built
            cases built
            exact ⟨cell, rest, rfl, Bool.eq_false_iff.mpr admitted, rfl, rfl⟩

/-- Only defaults depend on the time, and whether they are null does not. -/
theorem fill_at {given : Row ν} {column : Column τ ν} {cell : Option ν}
    (filled : fill dialect now given column = .ok cell) (other : ℤ) :
    ∃ later, fill dialect other given column = .ok later ∧ later.isNone = cell.isNone ∧
      ((given.lookup column.name).isSome = true → later = cell) := by
  unfold fill at filled ⊢
  cases listed : given.lookup column.name with
  | some value =>
      rw [listed] at filled
      exact ⟨cell, filled, rfl, fun _ => rfl⟩
  | none =>
      rw [listed] at filled
      cases filled
      refine ⟨_, rfl, ?_, fun absent => by cases absent⟩
      cases column.default with
      | null => rfl
      | constant value => rfl
      | now => rfl

theorem buildRow_at {given : Row ν} {columns : List (Column τ ν)} {row : Row ν}
    (built : buildRow (fill dialect now given) columns = .ok row) (other : ℤ) :
    ∃ later, buildRow (fill dialect other given) columns = .ok later ∧
      ∀ name, (given.lookup name).isSome = true → later.cell name = row.cell name := by
  induction columns generalizing row with
  | nil =>
      cases built
      exact ⟨[], rfl, fun _ _ => rfl⟩
  | cons column columns ih =>
      obtain ⟨cell, rest, filled, admitted, builtRest, rfl⟩ := buildRow_cons built
      obtain ⟨laterCell, laterFilled, null, same⟩ := fill_at filled other
      obtain ⟨laterRest, laterBuilt, cells⟩ := ih builtRest
      refine ⟨(column.name, laterCell) :: laterRest, ?_, ?_⟩
      · rw [buildRow, laterFilled]
        dsimp only
        rw [null, admitted, laterBuilt]
        rfl
      · intro name listed
        rw [cell_cons, cell_cons]
        by_cases this : name = column.name
        · rw [if_pos this, if_pos this]
          exact same (this ▸ listed)
        · rw [if_neg this, if_neg this, cells name listed]

/-- A value that is given is in the row, as its column casts it. -/
theorem cell_given {given : Row ν} {columns : List (Column τ ν)} {row : Row ν}
    (built : buildRow (fill dialect now given) columns = .ok row) {name : String}
    (column : columns.any (fun column => decide (column.name = name)) = true)
    (value : (given.lookup name).join.isSome = true) : (row.cell name).isSome = true := by
  induction columns generalizing row with
  | nil => cases column
  | cons first columns ih =>
      obtain ⟨cell, rest, filled, _, builtRest, rfl⟩ := buildRow_cons built
      rw [cell_cons]
      by_cases this : name = first.name
      · rw [if_pos this]
        subst this
        unfold fill at filled
        cases listed : given.lookup first.name with
        | none =>
            rw [listed] at value
            cases value
        | some found =>
            cases found with
            | none =>
                rw [listed] at value
                cases value
            | some found =>
                simp only [listed, castCell] at filled
                split at filled
                · cases filled
                · cases filled
                  rfl
      · have another : first.name ≠ name := fun same => this same.symm
        rw [if_neg this]
        exact ih builtRest (by simpa [another] using column)

/-! ## Insertions -/

variable [DecidableEq ν]

theorem insertRow_ok {table filled : Table τ ν} {target : Option (List String)} {row : Row ν}
    (inserted : table.insertRow target row = (.ok filled : Except (Fault ε) (Table τ ν))) :
    (filled = table ∧ target.any (table.holds · row) = true) ∨
      filled = { table with rows := table.rows ++ [row] } := by
  unfold Table.insertRow at inserted
  split at inserted
  · rename_i skipped
    cases inserted
    exact .inl ⟨rfl, skipped⟩
  · split at inserted
    · cases inserted
    · cases inserted
      exact .inr rfl

/-- One row, then the rest. -/
theorem insertRows_cons {columns : List String} {target : Option (List String)}
    {table filled : Table τ ν} {values : List (Option ν)} {rest : List (List (Option ν))}
    (inserted : table.insertRows dialect now columns target (values :: rest) = .ok filled) :
    ∃ row middle, buildRow (fill dialect now (columns.zip values)) table.definition.columns =
        .ok row ∧
      table.insertRow target row = (.ok middle : Except (Fault ε) (Table τ ν)) ∧
      middle.insertRows dialect now columns target rest = .ok filled := by
  unfold Table.insertRows at inserted
  split at inserted
  · cases inserted
  · rename_i row built
    split at inserted
    · cases inserted
    · rename_i middle put
      exact ⟨row, middle, built, put, inserted⟩

theorem insertRow_grows {table filled : Table τ ν} {target : Option (List String)} {row : Row ν}
    (inserted : table.insertRow target row = (.ok filled : Except (Fault ε) (Table τ ν))) :
    filled.definition = table.definition ∧ ∀ row ∈ table.rows, row ∈ filled.rows := by
  rcases insertRow_ok inserted with ⟨rfl, _⟩ | rfl
  · exact ⟨rfl, fun row listed => listed⟩
  · exact ⟨rfl, fun row listed => List.mem_append_left _ listed⟩

theorem insertRows_grows {columns : List String} {target : Option (List String)}
    {table filled : Table τ ν} {rows : List (List (Option ν))}
    (inserted : table.insertRows dialect now columns target rows = .ok filled) :
    filled.definition = table.definition ∧ ∀ row ∈ table.rows, row ∈ filled.rows := by
  induction rows generalizing table with
  | nil =>
      cases inserted
      exact ⟨rfl, fun row listed => listed⟩
  | cons values rest ih =>
      obtain ⟨row, middle, _, put, later⟩ := insertRows_cons inserted
      obtain ⟨same, grown⟩ := insertRow_grows put
      obtain ⟨alsoSame, alsoGrown⟩ := ih later
      exact ⟨alsoSame.trans same, fun row listed => alsoGrown row (grown row listed)⟩

/-- The checks that an insertion passes. -/
structure Inserts (dialect : Dialect τ ν ε) (now : ℤ) (db : Database τ ν) (name : String)
    (columns : List String) (rows : List (List (Option ν))) (target : Option (List String))
    (table filled : Table τ ν) : Prop where
  found : db.find name = some table
  named : table.hasColumns columns = true
  counted : rows.all (fun row => decide (row.length = columns.length)) = true
  targeted : target.all table.hasKey = true
  put : table.insertRows dialect now columns target rows = .ok filled
  referring : (filled.rows.drop table.rows.length).all
    ((db.put filled).satisfiesReferences table.definition.columns) = true

theorem Inserts.insert {db : Database τ ν} {name : String} {columns : List String}
    {rows : List (List (Option ν))} {target : Option (List String)} {table filled : Table τ ν}
    (inserts : Inserts dialect now db name columns rows target table filled) :
    db.insert dialect now name columns rows target = .ok (db.put filled) := by
  simp only [Database.insert, inserts.found, inserts.named, inserts.counted, inserts.targeted,
    inserts.put, inserts.referring, Bool.not_true, Bool.false_eq_true, if_false, if_true]

theorem insert_ok {db after : Database τ ν} {name : String} {columns : List String}
    {rows : List (List (Option ν))} {target : Option (List String)}
    (inserted : db.insert dialect now name columns rows target = .ok after) :
    ∃ table filled, Inserts dialect now db name columns rows target table filled ∧
      after = db.put filled := by
  unfold Database.insert at inserted
  split at inserted
  · cases inserted
  · rename_i table found
    split at inserted
    · cases inserted
    · rename_i named
      split at inserted
      · cases inserted
      · rename_i counted
        split at inserted
        · cases inserted
        · rename_i targeted
          rw [Bool.not_eq_true, Bool.not_eq_false'] at named counted targeted
          split at inserted
          · cases inserted
          · rename_i filled put
            split at inserted
            · rename_i referring
              cases inserted
              exact ⟨table, filled, ⟨found, named, counted, targeted, put, referring⟩, rfl⟩
            · cases inserted

/-! ## Covered statements -/

/-- The row with these values has its key in the table, whenever it is built. -/
def Table.Present (dialect : Dialect τ ν ε) (table : Table τ ν) (columns key : List String)
    (values : List (Option ν)) : Prop :=
  ∀ now, ∃ row, buildRow (fill dialect now (columns.zip values)) table.definition.columns =
    .ok row ∧ table.holds key row = true

/-- A statement with nothing left to do. -/
def Covered (dialect : Dialect τ ν ε) (db : Database τ ν) : Statement τ ν → Prop
  | .createTable ifNotExists definition =>
      ifNotExists = true ∧ db.hasRelation definition.name = true
  | .createIndex ifNotExists index =>
      ifNotExists = true ∧ db.hasRelation index.name = true ∧
        ∃ table, db.find index.table = some table ∧ table.hasColumns index.columns = true
  | .insert name columns rows target =>
      ∃ table key, db.find name = some table ∧ target = some key ∧
        table.hasColumns columns = true ∧
        rows.all (fun row => decide (row.length = columns.length)) = true ∧
        table.hasKey key = true ∧ ∀ values ∈ rows, table.Present dialect columns key values
  | .update _ _ _ _ => False

/-- A statement that looks before it creates, or gives its rows the key by which
it skips them. -/
def Statement.guarded : Statement τ ν → Bool
  | .createTable ifNotExists _ => ifNotExists
  | .createIndex ifNotExists _ => ifNotExists
  | .insert _ columns rows (some key) => rows.all fun values => key.all fun name =>
      columns.contains name && ((columns.zip values).lookup name).join.isSome
  | .insert _ _ _ none => false
  | .update _ _ _ _ => false

theorem insertRows_present {columns key : List String} {table : Table τ ν}
    {rows : List (List (Option ν))}
    (present : ∀ values ∈ rows, table.Present dialect columns key values) :
    table.insertRows dialect now columns (some key) rows = .ok table := by
  induction rows with
  | nil => rfl
  | cons values rest ih =>
      rw [List.forall_mem_cons] at present
      obtain ⟨row, built, held⟩ := present.1 now
      have skipped : table.insertRow (some key) row = (.ok table : Except (Fault ε) _) :=
        if_pos held
      rw [Table.insertRows, built]
      dsimp only
      rw [skipped]
      exact ih present.2

/-- Nothing left to do is done without a change. -/
theorem exec_covered {db : Database τ ν} {statement : Statement τ ν}
    (covered : Covered dialect db statement) : exec dialect now db statement = .ok db := by
  cases statement with
  | createTable ifNotExists definition =>
      obtain ⟨rfl, present⟩ := covered
      rw [exec, Database.createTable, if_pos present, if_pos rfl]
  | createIndex ifNotExists index =>
      obtain ⟨rfl, present, table, found, columns⟩ := covered
      simp only [exec, Database.createIndex, found, columns, present, Bool.not_true,
        Bool.false_eq_true, if_false, if_true]
  | insert name columns rows target =>
      obtain ⟨table, key, found, rfl, named, counted, keyed, present⟩ := covered
      have inserts : Inserts dialect now db name columns rows (some key) table table :=
        ⟨found, named, counted, keyed, insertRows_present present, by rw [List.drop_length]; rfl⟩
      rw [exec, inserts.insert, put_self found]
  | update table assignments key value => exact absurd covered id

/-! ## Steps -/

/-- The table whose rows a statement may change. -/
def Statement.changes : Statement τ ν → Option String
  | .update table _ _ _ => some table
  | .createTable _ _ | .createIndex _ _ | .insert _ _ _ _ => none

omit [DecidableEq ν] in
theorem createTable_keeps {db after : Database τ ν} {ifNotExists : Bool}
    {definition : Definition τ ν}
    (created : db.createTable ifNotExists definition = (.ok after : Except (Fault ε) _))
    (kept : String → Prop) :
    db.Keeps after kept ∧ after.hasRelation definition.name = true := by
  unfold Database.createTable at created
  split at created
  · rename_i present
    split at created
    · cases created
      exact ⟨keeps_refl db kept, present⟩
    · cases created
  · split at created
    · cases created
      refine ⟨⟨?_, ?_⟩, by simp [Database.hasRelation]⟩
      · intro name table found
        refine ⟨table, ?_, rfl, fun _ row listed => listed⟩
        rw [Database.find, List.find?_append]
        exact Option.or_eq_some_iff.mpr (.inl found)
      · intro name present
        rw [Database.hasRelation, Bool.or_eq_true] at present ⊢
        rw [List.any_append, Bool.or_eq_true]
        exact present.imp_left .inl
    · cases created

omit [DecidableEq ν] in
theorem createIndex_keeps {db after : Database τ ν} {ifNotExists : Bool} {index : Index}
    (created : db.createIndex ifNotExists index = (.ok after : Except (Fault ε) _))
    (kept : String → Prop) :
    db.Keeps after kept ∧ after.hasRelation index.name = true ∧
      ∃ table, after.find index.table = some table ∧ table.hasColumns index.columns = true := by
  unfold Database.createIndex at created
  split at created
  · cases created
  · rename_i table found
    split at created
    · cases created
    · rename_i named
      have columns : table.hasColumns index.columns = true := by simpa using named
      split at created
      · rename_i present
        split at created
        · cases created
          exact ⟨keeps_refl db kept, present, table, found, columns⟩
        · cases created
      · cases created
        refine ⟨⟨?_, ?_⟩, by simp [Database.hasRelation], table, found, columns⟩
        · intro name other alsoFound
          exact ⟨other, alsoFound, rfl, fun _ row listed => listed⟩
        · intro name present
          rw [Database.hasRelation, Bool.or_eq_true] at present ⊢
          rw [List.any_append, Bool.or_eq_true]
          exact present.imp_right .inl

theorem update_keeps {db after : Database τ ν} {name : String} {assignments : Row ν}
    {key : String} {value : ν}
    (updated : db.update dialect name assignments key value = .ok after) :
    db.Keeps after (· ≠ name) := by
  unfold Database.update at updated
  split at updated
  · cases updated
  · rename_i table found
    split at updated
    · cases updated
    · split at updated
      · cases updated
      · rename_i rows changed
        split at updated
        · cases updated
        · split at updated
          · cases updated
            have same : ({ table with rows := rows } : Table τ ν).definition =
                table.definition := rfl
            refine keeps_put found same ?_
            intro different
            exact absurd rfl different
          · cases updated

theorem exec_keeps {db after : Database τ ν} {statement : Statement τ ν}
    (executed : exec dialect now db statement = .ok after) :
    db.Keeps after (statement.changes ≠ some ·) := by
  cases statement with
  | createTable ifNotExists definition => exact (createTable_keeps executed _).1
  | createIndex ifNotExists index => exact (createIndex_keeps executed _).1
  | insert name columns rows target =>
      obtain ⟨table, filled, inserts, rfl⟩ := insert_ok executed
      obtain ⟨same, grown⟩ := insertRows_grows inserts.put
      exact keeps_put inserts.found same fun _ => grown
  | update name assignments key value =>
      refine (update_keeps executed).mono fun other different => ?_
      rintro rfl
      exact different rfl

theorem holds_mono {table grown : Table τ ν} (rows : ∀ row ∈ table.rows, row ∈ grown.rows)
    {names : List String} {row : Row ν} (held : table.holds names row = true) :
    grown.holds names row = true := by
  obtain ⟨other, listed, agrees⟩ := List.any_eq_true.mp held
  exact List.any_eq_true.mpr ⟨other, rows other listed, agrees⟩

theorem Table.Present.mono {table grown : Table τ ν} {columns key : List String}
    {values : List (Option ν)} (present : table.Present dialect columns key values)
    (same : grown.definition = table.definition)
    (rows : ∀ row ∈ table.rows, row ∈ grown.rows) :
    grown.Present dialect columns key values := by
  intro now
  obtain ⟨row, built, held⟩ := present now
  rw [← same] at built
  exact ⟨row, built, holds_mono rows held⟩

/-- The table whose rows a statement needs to stay. -/
def Statement.inserts : Statement τ ν → Option String
  | .insert table _ _ _ => some table
  | .createTable _ _ | .createIndex _ _ | .update _ _ _ _ => none

/-- What is covered stays covered while the rows it inserted stay. -/
theorem Covered.keeps {db after : Database τ ν} {statement : Statement τ ν}
    (covered : Covered dialect db statement) {kept : String → Prop} (keeps : db.Keeps after kept)
    (rows : ∀ table, statement.inserts = some table → kept table) :
    Covered dialect after statement := by
  cases statement with
  | createTable ifNotExists definition =>
      exact ⟨covered.1, keeps.relations _ covered.2⟩
  | createIndex ifNotExists index =>
      obtain ⟨guard, present, table, found, columns⟩ := covered
      obtain ⟨grown, foundGrown, same, _⟩ := keeps.tables _ table found
      refine ⟨guard, keeps.relations _ present, grown, foundGrown, ?_⟩
      rw [Table.hasColumns, same]
      exact columns
  | insert name columns values target =>
      obtain ⟨table, key, found, targeted, named, counted, keyed, present⟩ := covered
      obtain ⟨grown, foundGrown, same, grows⟩ := keeps.tables name table found
      refine ⟨grown, key, foundGrown, targeted, ?_, counted, ?_, ?_⟩
      · rw [Table.hasColumns, same]
        exact named
      · rw [Table.hasKey, same]
        exact keyed
      · exact fun row listed => (present row listed).mono same (grows (rows name rfl))
  | update name assignments key value => exact covered

/-- The key cells of a guarded row are values, so the row agrees with itself. -/
theorem agrees_self {columns key : List String} {table : Table τ ν}
    {values : List (Option ν)} {row : Row ν} (named : table.hasColumns columns = true)
    (built : buildRow (fill dialect now (columns.zip values)) table.definition.columns = .ok row)
    (given : key.all (fun name => columns.contains name &&
      ((columns.zip values).lookup name).join.isSome) = true) :
    row.agrees key row = true := by
  rw [List.all_eq_true] at given
  refine List.all_eq_true.mpr fun name listed => ?_
  have guard := given name listed
  rw [Bool.and_eq_true, List.contains_iff_mem] at guard
  have column := List.all_eq_true.mp named name guard.1
  rw [Bool.and_eq_true, decide_eq_true_eq]
  exact ⟨cell_given built column guard.2, rfl⟩

theorem agrees_congr {row later : Row ν} {key : List String}
    (cells : ∀ name ∈ key, later.cell name = row.cell name) (other : Row ν) :
    later.agrees key other = row.agrees key other := by
  rw [Bool.eq_iff_iff, Row.agrees, Row.agrees, List.all_eq_true, List.all_eq_true]
  refine forall₂_congr fun name listed => ?_
  rw [cells name listed]

theorem insertRow_holds {table filled : Table τ ν} {key : List String} {row : Row ν}
    (inserted : table.insertRow (some key) row = (.ok filled : Except (Fault ε) (Table τ ν)))
    (itself : row.agrees key row = true) : filled.holds key row = true := by
  rcases insertRow_ok inserted with ⟨rfl, held⟩ | rfl
  · exact held
  · exact List.any_eq_true.mpr ⟨row, by simp, itself⟩

theorem insertRows_covers {columns key : List String} {table filled : Table τ ν}
    {rows : List (List (Option ν))}
    (inserted : table.insertRows dialect now columns (some key) rows = .ok filled)
    (named : table.hasColumns columns = true)
    (given : ∀ values ∈ rows, key.all (fun name => columns.contains name &&
      ((columns.zip values).lookup name).join.isSome) = true) :
    ∀ values ∈ rows, filled.Present dialect columns key values := by
  induction rows generalizing table with
  | nil => exact List.forall_mem_nil _
  | cons values rest ih =>
      rw [List.forall_mem_cons] at given ⊢
      obtain ⟨row, middle, built, put, later⟩ := insertRows_cons inserted
      obtain ⟨same, _⟩ := insertRow_grows put
      obtain ⟨alsoSame, grown⟩ := insertRows_grows later
      have namedLater : middle.hasColumns columns = true := by
        rw [Table.hasColumns, same]
        exact named
      have held := insertRow_holds put (agrees_self named built given.1)
      refine ⟨fun other => ?_, ih later namedLater given.2⟩
      obtain ⟨laterRow, laterBuilt, cells⟩ := buildRow_at built other
      have keyCells : ∀ name ∈ key, laterRow.cell name = row.cell name := by
        intro name listed
        have guard := List.all_eq_true.mp given.1 name listed
        rw [Bool.and_eq_true] at guard
        refine cells name ?_
        cases found : (columns.zip values).lookup name with
        | none =>
            rw [found] at guard
            cases guard.2
        | some cell => rfl
      rw [← same, ← alsoSame] at laterBuilt
      refine ⟨laterRow, laterBuilt, holds_mono grown ?_⟩
      have agree : middle.holds key laterRow = middle.holds key row := by
        rw [Table.holds, Table.holds]
        exact congrArg middle.rows.any (funext fun other => agrees_congr keyCells other)
      rw [agree]
      exact held

/-- What a guarded statement had to do is done once it has run. -/
theorem exec_covers {db after : Database τ ν} {statement : Statement τ ν}
    (executed : exec dialect now db statement = .ok after)
    (guarded : statement.guarded = true) : Covered dialect after statement := by
  cases statement with
  | createTable ifNotExists definition =>
      exact ⟨guarded, (createTable_keeps executed fun _ => True).2⟩
  | createIndex ifNotExists index =>
      exact ⟨guarded, (createIndex_keeps executed fun _ => True).2⟩
  | insert name columns rows target =>
      cases target with
      | none => cases guarded
      | some key =>
          obtain ⟨table, filled, inserts, rfl⟩ := insert_ok executed
          obtain ⟨same, _⟩ := insertRows_grows inserts.put
          have filledName : filled.definition.name = name := by
            rw [same, find_name inserts.found]
          have foundFilled : (db.put filled).find name = some filled := by
            rw [find_put, if_pos filledName, inserts.found]
            rfl
          have given := List.all_eq_true.mp guarded
          refine ⟨filled, key, foundFilled, rfl, ?_, inserts.counted, ?_,
            insertRows_covers inserts.put inserts.named given⟩
          · rw [Table.hasColumns, same]
            exact inserts.named
          · rw [Table.hasKey, same]
            exact inserts.targeted
  | update name assignments key value => cases guarded

/-! ## Scripts -/

theorem run_covered {db : Database τ ν} {script : List (Statement τ ν)}
    (covered : ∀ statement ∈ script, Covered dialect db statement) :
    run dialect now db script = .ok db := by
  induction script with
  | nil => rfl
  | cons statement script ih =>
      rw [List.forall_mem_cons] at covered
      rw [run, exec_covered covered.1]
      exact ih covered.2

/-- A guarded script leaves every row, and nothing to do for itself. -/
theorem run_covers {db after : Database τ ν} {script : List (Statement τ ν)}
    (guarded : ∀ statement ∈ script, statement.guarded = true)
    (ran : run dialect now db script = .ok after) :
    db.Keeps after (fun _ => True) ∧ ∀ statement ∈ script, Covered dialect after statement := by
  induction script generalizing db with
  | nil =>
      cases ran
      exact ⟨keeps_refl _ _, List.forall_mem_nil _⟩
  | cons statement script ih =>
      rw [List.forall_mem_cons] at guarded ⊢
      rw [run] at ran
      cases executed : exec dialect now db statement with
      | error fault =>
          rw [executed] at ran
          cases ran
      | ok middle =>
          rw [executed] at ran
          obtain ⟨keepsLater, coveredLater⟩ := ih guarded.2 ran
          have unchanged : statement.changes = none := by
            cases statement with
            | createTable ifNotExists definition => rfl
            | createIndex ifNotExists index => rfl
            | insert name columns rows target => rfl
            | update name assignments key value => cases guarded.1
          have keeps : db.Keeps middle (fun _ => True) := by
            refine (exec_keeps executed).mono fun name _ => ?_
            rw [unchanged]
            exact fun same => by cases same
          have covered := (exec_covers executed guarded.1).keeps keepsLater fun _ _ => trivial
          exact ⟨keeps.trans keepsLater, covered, coveredLater⟩

end Nexus.Lib.Sql
