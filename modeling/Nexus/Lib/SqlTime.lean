import Nexus.Lib.SqlReplay
import Mathlib.Data.List.Forall2

/-! Scripts at another time. If no key and no reference is stamped by default,
the time at which a script runs shows in the stamped cells and nowhere else. -/

set_option autoImplicit false

namespace Nexus.Lib.Sql

variable {τ ν ε : Type}

def Default.isNow : Default ν → Bool
  | .now => true
  | .null | .constant _ => false

/-- The columns whose cells are the time unless they are given. -/
def Definition.stamps (definition : Definition τ ν) : List String :=
  (definition.columns.filter (·.default.isNow)).map Column.name

/-- No key and no reference is stamped. -/
structure Definition.Timeless (definition : Definition τ ν) : Prop where
  keys : ∀ key ∈ definition.keys, ∀ name ∈ key, name ∉ definition.stamps
  references : ∀ column ∈ definition.columns, column.references.isSome = true →
    column.name ∉ definition.stamps

instance (definition : Definition τ ν) : Decidable definition.Timeless :=
  decidable_of_iff
    ((∀ key ∈ definition.keys, ∀ name ∈ key, name ∉ definition.stamps) ∧
      ∀ column ∈ definition.columns, column.references.isSome = true →
        column.name ∉ definition.stamps)
    ⟨fun both => ⟨both.1, both.2⟩, fun timeless => ⟨timeless.keys, timeless.references⟩⟩

def Row.Alike (stamps : List String) (row other : Row ν) : Prop :=
  ∀ name, name ∉ stamps → other.cell name = row.cell name

structure Table.Alike (table other : Table τ ν) : Prop where
  definition : other.definition = table.definition
  timeless : table.definition.Timeless
  rows : List.Forall₂ (Row.Alike table.definition.stamps) table.rows other.rows

/-- The same definitions, and the same rows but for the stamps. -/
structure Database.Alike (db other : Database τ ν) : Prop where
  tables : List.Forall₂ Table.Alike db.tables other.tables
  indexes : other.indexes = db.indexes

theorem empty_alike : (Database.empty : Database τ ν).Alike .empty where
  tables := .nil
  indexes := rfl

/-! ## Looking things up -/

section Lists

variable {α β : Type} {related : α → β → Prop} {first : List α} {second : List β}

theorem any_related (alike : List.Forall₂ related first second) {p : α → Bool} {q : β → Bool}
    (same : ∀ a b, related a b → p a = q b) : first.any p = second.any q := by
  induction alike with
  | nil => rfl
  | cons head tail ih => rw [List.any_cons, List.any_cons, same _ _ head, ih]

theorem all_related (alike : List.Forall₂ related first second) {p : α → Bool} {q : β → Bool}
    (same : ∀ a b, related a b → p a = q b) : first.all p = second.all q := by
  induction alike with
  | nil => rfl
  | cons head tail ih => rw [List.all_cons, List.all_cons, same _ _ head, ih]

theorem find_related (alike : List.Forall₂ related first second) {p : α → Bool} {q : β → Bool}
    (same : ∀ a b, related a b → p a = q b) :
    Option.Rel related (first.find? p) (second.find? q) := by
  induction alike with
  | nil => exact .none
  | @cons a b first second head tail ih =>
      rw [List.find?_cons, List.find?_cons, ← same a b head]
      cases p a with
      | true => exact .some head
      | false => exact ih

end Lists

theorem find_alike {db other : Database τ ν} (alike : db.Alike other) (name : String) :
    Option.Rel Table.Alike (db.find name) (other.find name) := by
  refine find_related alike.tables fun table same both => ?_
  rw [both.definition]

theorem find_alike_some {db other : Database τ ν} (alike : db.Alike other) {name : String}
    {table : Table τ ν} (found : db.find name = some table) :
    ∃ same, other.find name = some same ∧ table.Alike same := by
  have both := find_alike alike name
  rw [found] at both
  cases shape : other.find name with
  | none =>
      rw [shape] at both
      cases both
  | some same =>
      rw [shape] at both
      obtain ⟨tables⟩ := both
      exact ⟨same, rfl, tables⟩

theorem hasRelation_alike {db other : Database τ ν} (alike : db.Alike other) (name : String) :
    db.hasRelation name = other.hasRelation name := by
  have tables : db.tables.any (fun table => decide (table.definition.name = name)) =
      other.tables.any fun table => decide (table.definition.name = name) := by
    refine any_related alike.tables fun table same both => ?_
    rw [both.definition]
  rw [Database.hasRelation, Database.hasRelation, tables, alike.indexes]

theorem hasKey_alike {table other : Table τ ν} (alike : table.Alike other) (key : List String) :
    table.hasKey key = other.hasKey key := by
  rw [Table.hasKey, Table.hasKey, alike.definition]

theorem hasColumns_alike {table other : Table τ ν} (alike : table.Alike other)
    (names : List String) : table.hasColumns names = other.hasColumns names := by
  rw [Table.hasColumns, Table.hasColumns, alike.definition]

theorem target_alike {db other : Database τ ν} (alike : db.Alike other)
    (reference : String × String) :
    Option.Rel Table.Alike (db.target reference) (other.target reference) := by
  have found := find_alike alike reference.1
  unfold Database.target
  generalize db.find reference.1 = mine at found ⊢
  generalize other.find reference.1 = theirs at found ⊢
  cases found with
  | none => exact .none
  | @some table same both =>
      rw [Option.filter_some, Option.filter_some, hasKey_alike both]
      split
      · exact .some both
      · exact .none

theorem providesKeys_alike {db other : Database τ ν} (alike : db.Alike other)
    (columns : List (Column τ ν)) : db.providesKeys columns = other.providesKeys columns := by
  have present (reference : String × String) :
      (db.target reference).isSome = (other.target reference).isSome := by
    have found := target_alike alike reference
    generalize db.target reference = mine at found ⊢
    generalize other.target reference = theirs at found ⊢
    cases found with
    | none => rfl
    | some both => rfl
  simp only [Database.providesKeys, present]

variable [DecidableEq ν]

theorem agrees_alike {row later first second : Row ν} {names : List String}
    (rows : ∀ name ∈ names, later.cell name = row.cell name)
    (others : ∀ name ∈ names, second.cell name = first.cell name) :
    row.agrees names first = later.agrees names second := by
  rw [Bool.eq_iff_iff, Row.agrees, Row.agrees, List.all_eq_true, List.all_eq_true]
  refine forall₂_congr fun name listed => ?_
  rw [rows name listed, others name listed]

theorem holds_alike {table other : Table τ ν} (alike : table.Alike other) {row later : Row ν}
    (rows : Row.Alike table.definition.stamps row later) {key : List String}
    (keyed : key ∈ table.definition.keys) : table.holds key row = other.holds key later := by
  have timeless := alike.timeless.keys key keyed
  refine any_related alike.rows fun present same both => ?_
  exact agrees_alike (fun name listed => rows name (timeless name listed))
    fun name listed => both name (timeless name listed)

theorem satisfiesReferences_alike {db other : Database τ ν} (alike : db.Alike other)
    {definition : Definition τ ν} (timeless : definition.Timeless) {row later : Row ν}
    (rows : Row.Alike definition.stamps row later) :
    db.satisfiesReferences definition.columns row =
      other.satisfiesReferences definition.columns later := by
  have target (reference : String × String) (value : ν) :
      (db.target reference).any (fun table =>
          table.rows.any fun present => decide (present.cell reference.2 = some value)) =
        (other.target reference).any fun table =>
          table.rows.any fun present => decide (present.cell reference.2 = some value) := by
    have found := target_alike alike reference
    have keyed : ∀ table, db.target reference = some table → table.hasKey [reference.2] = true :=
      fun table found => (Option.filter_eq_some_iff.mp found).2
    generalize db.target reference = mine at found keyed ⊢
    generalize other.target reference = theirs at found ⊢
    cases found with
    | none => rfl
    | @some table same both =>
        have key : [reference.2] ∈ table.definition.keys :=
          List.contains_iff_mem.mp (keyed table rfl)
        have plain := both.timeless.keys _ key reference.2 (List.mem_singleton_self _)
        rw [Option.any_some, Option.any_some]
        refine any_related both.rows fun present later alsoAlike => ?_
        rw [alsoAlike reference.2 plain]
  rw [Bool.eq_iff_iff, Database.satisfiesReferences, Database.satisfiesReferences,
    List.all_eq_true, List.all_eq_true]
  refine forall₂_congr fun column listed => ?_
  cases refers : column.references with
  | none => rfl
  | some reference =>
      have plain : column.name ∉ definition.stamps :=
        timeless.references column listed (by rw [refers]; rfl)
      simp only [Option.all_some, rows column.name plain, target]

/-! ## Statements -/

variable {dialect : Dialect τ ν ε} {now : ℤ}

omit [DecidableEq ν] in
theorem fill_unstamped {given : Row ν} {column : Column τ ν} {cell : Option ν}
    (filled : fill dialect now given column = .ok cell) (plain : column.default.isNow = false)
    (other : ℤ) : fill dialect other given column = .ok cell := by
  unfold fill at filled ⊢
  cases listed : given.lookup column.name with
  | some value =>
      rw [listed] at filled
      exact filled
  | none =>
      rw [listed] at filled
      cases shape : column.default with
      | null =>
          rw [shape] at filled
          exact filled
      | constant value =>
          rw [shape] at filled
          exact filled
      | now =>
          rw [shape] at plain
          cases plain

omit [DecidableEq ν] in
/-- A row built at another time differs in stamps only. -/
theorem buildRow_alike {given : Row ν} {columns : List (Column τ ν)} {row : Row ν}
    (built : buildRow (fill dialect now given) columns = .ok row) (other : ℤ) :
    ∃ later, buildRow (fill dialect other given) columns = .ok later ∧
      Row.Alike ((columns.filter (·.default.isNow)).map Column.name) row later := by
  induction columns generalizing row with
  | nil =>
      cases built
      exact ⟨[], rfl, fun _ _ => rfl⟩
  | cons column columns ih =>
      obtain ⟨cell, rest, filled, admitted, builtRest, rfl⟩ := buildRow_cons built
      obtain ⟨laterRest, laterBuilt, cells⟩ := ih builtRest
      obtain ⟨laterCell, laterFilled, null, _⟩ := fill_at filled other
      refine ⟨(column.name, laterCell) :: laterRest, ?_, ?_⟩
      · rw [buildRow, laterFilled]
        dsimp only
        rw [null, admitted, laterBuilt]
        rfl
      · intro name plain
        rw [cell_cons, cell_cons]
        cases stamped : column.default.isNow with
        | true =>
            rw [List.filter_cons, stamped, if_pos rfl, List.map_cons, List.mem_cons,
              not_or] at plain
            rw [if_neg plain.1, if_neg plain.1, cells name plain.2]
        | false =>
            rw [List.filter_cons, stamped, if_neg Bool.false_ne_true] at plain
            rw [fill_unstamped filled stamped other] at laterFilled
            cases laterFilled
            rw [cells name plain]

theorem insertRow_alike {table other filled : Table τ ν} (alike : table.Alike other)
    {row later : Row ν} (rows : Row.Alike table.definition.stamps row later)
    {target : Option (List String)} (targeted : target.all table.hasKey = true)
    (inserted : table.insertRow target row = (.ok filled : Except (Fault ε) (Table τ ν))) :
    ∃ same, other.insertRow target later = (.ok same : Except (Fault ε) (Table τ ν)) ∧
      filled.Alike same := by
  have keys : table.definition.keys.any (table.holds · row) =
      other.definition.keys.any (other.holds · later) := by
    rw [alike.definition, Bool.eq_iff_iff, List.any_eq_true, List.any_eq_true]
    refine exists_congr fun key => and_congr_right fun keyed => ?_
    rw [holds_alike alike rows keyed]
  have skips : target.any (table.holds · row) = target.any (other.holds · later) := by
    cases target with
    | none => rfl
    | some key => exact holds_alike alike rows (List.contains_iff_mem.mp targeted)
  unfold Table.insertRow at inserted ⊢
  rw [← keys, ← skips]
  by_cases skipped : target.any (table.holds · row) = true
  · rw [if_pos skipped] at inserted ⊢
    cases inserted
    exact ⟨other, rfl, alike⟩
  · rw [if_neg skipped] at inserted ⊢
    by_cases taken : table.definition.keys.any (table.holds · row) = true
    · rw [if_pos taken] at inserted
      cases inserted
    · rw [if_neg taken] at inserted ⊢
      cases inserted
      refine ⟨_, rfl, alike.definition, alike.timeless, ?_⟩
      exact List.rel_append alike.rows (.cons rows .nil)

theorem insertRows_alike {columns : List String} {target : Option (List String)}
    {table other filled : Table τ ν} (alike : table.Alike other)
    (targeted : target.all table.hasKey = true) {rows : List (List (Option ν))}
    (inserted : table.insertRows dialect now columns target rows = .ok filled) (later : ℤ) :
    ∃ same, other.insertRows dialect later columns target rows = .ok same ∧
      filled.Alike same := by
  induction rows generalizing table other with
  | nil =>
      cases inserted
      exact ⟨other, rfl, alike⟩
  | cons values rest ih =>
      obtain ⟨row, middle, built, put, insertedRest⟩ := insertRows_cons inserted
      obtain ⟨laterRow, laterBuilt, rowsAlike⟩ := buildRow_alike built later
      obtain ⟨alsoMiddle, alsoPut, middleAlike⟩ := insertRow_alike alike rowsAlike targeted put
      have keyed : target.all middle.hasKey = true := by
        have same := (insertRow_grows put).1
        have key : middle.hasKey = table.hasKey := by
          funext key
          rw [Table.hasKey, Table.hasKey, same]
        rw [key]
        exact targeted
      obtain ⟨same, insertedSame, filledAlike⟩ := ih middleAlike keyed insertedRest
      refine ⟨same, ?_, filledAlike⟩
      rw [Table.insertRows, alike.definition, laterBuilt]
      dsimp only
      rw [alsoPut]
      exact insertedSame

omit [DecidableEq ν] in
theorem putTable_alike {tables others : List (Table τ ν)}
    (alike : List.Forall₂ Table.Alike tables others) {table same : Table τ ν}
    (both : table.Alike same) :
    List.Forall₂ Table.Alike (Database.putTable table tables)
      (Database.putTable same others) := by
  induction alike with
  | nil => exact .nil
  | cons head tail ih =>
      rw [Database.putTable, Database.putTable, head.definition, both.definition]
      split
      · exact .cons both tail
      · exact .cons head ih

omit [DecidableEq ν] in
theorem put_alike {db other : Database τ ν} (alike : db.Alike other) {table same : Table τ ν}
    (both : table.Alike same) : (db.put table).Alike (other.put same) where
  tables := putTable_alike alike.tables both
  indexes := alike.indexes

/-- A statement whose effect shows its time in stamps only. -/
def Statement.Timeless : Statement τ ν → Prop
  | .createTable _ definition => definition.Timeless
  | .createIndex _ _ | .insert _ _ _ _ => True
  | .update _ _ _ _ => False

instance : DecidablePred (@Statement.Timeless τ ν)
  | .createTable _ definition => inferInstanceAs (Decidable definition.Timeless)
  | .createIndex _ _ | .insert _ _ _ _ => inferInstanceAs (Decidable True)
  | .update _ _ _ _ => inferInstanceAs (Decidable False)

omit [DecidableEq ν] in
theorem createTable_alike {db other after : Database τ ν} (alike : db.Alike other)
    {ifNotExists : Bool} {definition : Definition τ ν} (timeless : definition.Timeless)
    (created : db.createTable ifNotExists definition = (.ok after : Except (Fault ε) _)) :
    ∃ same, other.createTable ifNotExists definition = (.ok same : Except (Fault ε) _) ∧
      after.Alike same := by
  unfold Database.createTable at created ⊢
  rw [← hasRelation_alike alike, ← providesKeys_alike alike]
  by_cases present : db.hasRelation definition.name = true
  · rw [if_pos present] at created ⊢
    cases ifNotExists with
    | true =>
        cases created
        exact ⟨other, rfl, alike⟩
    | false => cases created
  · rw [if_neg present] at created ⊢
    by_cases provided : db.providesKeys definition.columns = true
    · rw [if_pos provided] at created ⊢
      cases created
      refine ⟨_, rfl, ?_, alike.indexes⟩
      exact List.rel_append alike.tables (.cons ⟨rfl, timeless, .nil⟩ .nil)
    · rw [if_neg provided] at created
      cases created

omit [DecidableEq ν] in
theorem createIndex_alike {db other after : Database τ ν} (alike : db.Alike other)
    {ifNotExists : Bool} {index : Index}
    (created : db.createIndex ifNotExists index = (.ok after : Except (Fault ε) _)) :
    ∃ same, other.createIndex ifNotExists index = (.ok same : Except (Fault ε) _) ∧
      after.Alike same := by
  have found := find_alike alike index.table
  unfold Database.createIndex at created ⊢
  rw [← hasRelation_alike alike]
  generalize db.find index.table = mine at found created
  generalize other.find index.table = theirs at found ⊢
  cases found with
  | none => cases created
  | @some table same both =>
      dsimp only at created ⊢
      rw [← hasColumns_alike both]
      by_cases missing : (!table.hasColumns index.columns) = true
      · rw [if_pos missing] at created
        cases created
      · rw [if_neg missing] at created ⊢
        by_cases present : db.hasRelation index.name = true
        · rw [if_pos present] at created ⊢
          cases ifNotExists with
          | true =>
              cases created
              exact ⟨other, rfl, alike⟩
          | false => cases created
        · rw [if_neg present] at created ⊢
          cases created
          refine ⟨_, rfl, alike.tables, ?_⟩
          rw [alike.indexes]

theorem insert_alike {db other after : Database τ ν} (alike : db.Alike other) {name : String}
    {columns : List String} {rows : List (List (Option ν))} {target : Option (List String)}
    (inserted : db.insert dialect now name columns rows target = .ok after) (later : ℤ) :
    ∃ same, other.insert dialect later name columns rows target = .ok same ∧
      after.Alike same := by
  obtain ⟨table, filled, inserts, rfl⟩ := insert_ok inserted
  obtain ⟨same, shape, both⟩ := find_alike_some alike inserts.found
  obtain ⟨alsoFilled, put, filledAlike⟩ :=
    insertRows_alike both inserts.targeted inserts.put later
  have definition := (insertRows_grows inserts.put).1
  have stamps : filled.definition.stamps = table.definition.stamps := by rw [definition]
  have changed := put_alike alike filledAlike
  have referring : (alsoFilled.rows.drop same.rows.length).all
      ((other.put alsoFilled).satisfiesReferences same.definition.columns) = true := by
    have rowsAlike := List.forall₂_drop table.rows.length filledAlike.rows
    rw [← both.rows.length_eq, both.definition, ← inserts.referring]
    refine (all_related rowsAlike fun row later pair => ?_).symm
    rw [stamps] at pair
    exact satisfiesReferences_alike changed both.timeless pair
  refine ⟨other.put alsoFilled, Inserts.insert ⟨shape, ?_, inserts.counted, ?_, put,
    referring⟩, changed⟩
  · rw [← hasColumns_alike both]
    exact inserts.named
  · have key : same.hasKey = table.hasKey := by
      funext key
      exact (hasKey_alike both key).symm
    rw [key]
    exact inserts.targeted

/-- What runs at one time runs at every other, to the same end but for the
stamps. -/
theorem exec_alike {db other after : Database τ ν} (alike : db.Alike other)
    {statement : Statement τ ν} (timeless : statement.Timeless)
    (executed : exec dialect now db statement = .ok after) (later : ℤ) :
    ∃ same, exec dialect later other statement = .ok same ∧ after.Alike same := by
  cases statement with
  | createTable ifNotExists definition => exact createTable_alike alike timeless executed
  | createIndex ifNotExists index => exact createIndex_alike alike executed
  | insert name columns rows target => exact insert_alike alike executed later
  | update name assignments key value => exact absurd timeless id

theorem run_alike {db other after : Database τ ν} (alike : db.Alike other)
    {script : List (Statement τ ν)} (timeless : ∀ statement ∈ script, statement.Timeless)
    (ran : run dialect now db script = .ok after) (later : ℤ) :
    ∃ same, run dialect later other script = .ok same ∧ after.Alike same := by
  induction script generalizing db other with
  | nil =>
      cases ran
      exact ⟨other, rfl, alike⟩
  | cons statement script ih =>
      rw [List.forall_mem_cons] at timeless
      rw [run] at ran
      cases executed : exec dialect now db statement with
      | error fault =>
          rw [executed] at ran
          cases ran
      | ok middle =>
          rw [executed] at ran
          obtain ⟨same, alsoExecuted, middleAlike⟩ :=
            exec_alike alike timeless.1 executed later
          obtain ⟨final, alsoRan, finalAlike⟩ := ih middleAlike timeless.2 ran
          refine ⟨final, ?_, finalAlike⟩
          rw [run, alsoExecuted]
          exact alsoRan

end Nexus.Lib.Sql
