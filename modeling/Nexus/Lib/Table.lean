import Nexus.Lib.PairedIndex

/-! Tables of records with a primary key and one further unique column, as a
relational database keeps them. The constraints are part of a table, so a
statement that would break one has no table to return. -/

set_option autoImplicit false

namespace Nexus.Lib

variable {κ υ ρ : Type} [DecidableEq κ] [DecidableEq υ]

structure Table (key : ρ → κ) (column : ρ → υ) where
  rows : GoMap κ ρ
  keyed : ∀ {k row}, rows.lookup k = some row → key row = k
  unique : ∀ {k l row other}, rows.lookup k = some row → rows.lookup l = some other →
    column row = column other → k = l

namespace Table

variable {key : ρ → κ} {column : ρ → υ}

def empty : Table key column where
  rows := ∅
  keyed found := by cases found
  unique found := by cases found

def findKey (table : Table key column) (k : κ) : Option ρ := table.rows.lookup k

def findColumn (table : Table key column) (value : υ) : Option ρ :=
  table.rows.values.find? fun row => column row = value

theorem findColumn_eq_some_iff {table : Table key column} {value : υ} {row : ρ} :
    table.findColumn value = some row ↔
      table.findKey (key row) = some row ∧ column row = value := by
  constructor
  · intro found
    have named : column row = value := by simpa using List.find?_some found
    obtain ⟨k, stored⟩ := GoMap.mem_values_iff.mp (List.mem_of_find?_eq_some found)
    rw [findKey, table.keyed stored]
    exact ⟨stored, named⟩
  · intro both
    obtain ⟨stored, named⟩ := both
    cases found : table.findColumn value with
    | none =>
        have absent := List.find?_eq_none.mp found row (GoMap.mem_values_iff.mpr ⟨_, stored⟩)
        exact absurd named (by simpa using absent)
    | some other =>
        have alsoNamed : column other = value := by simpa using List.find?_some found
        obtain ⟨k, alsoStored⟩ := GoMap.mem_values_iff.mp (List.mem_of_find?_eq_some found)
        have same := table.unique stored alsoStored (named.trans alsoNamed.symm)
        rw [findKey, same, alsoStored] at stored
        exact stored

theorem findColumn_eq_none_iff {table : Table key column} {value : υ} :
    table.findColumn value = none ↔
      ∀ {k row}, table.rows.lookup k = some row → column row ≠ value := by
  constructor
  · intro absent k row stored named
    have member := GoMap.mem_values_iff.mpr ⟨k, stored⟩
    exact absurd named (by simpa using List.find?_eq_none.mp absent row member)
  · intro absent
    cases found : table.findColumn value with
    | none => rfl
    | some row =>
        obtain ⟨stored, named⟩ := findColumn_eq_some_iff.mp found
        exact absurd named (absent stored)

/-- Files a row under its key, which no row with another key may share its
unique column with. -/
def put (table : Table key column) (row : ρ)
    (free : ∀ {k other}, table.rows.lookup k = some other → column other = column row →
      k = key row) : Table key column where
  rows := table.rows.insert (key row) row
  keyed := by
    intro k stored found
    rw [GoMap.lookup_insert_eq] at found
    split at found
    · rename_i same
      cases found
      exact same.symm
    · exact table.keyed found
  unique := by
    intro k l stored other found alsoFound same
    rw [GoMap.lookup_insert_eq] at found alsoFound
    split at found <;> split at alsoFound
    · rename_i first second
      rw [first, second]
    · rename_i first second
      cases found
      rw [first, free alsoFound same.symm]
    · rename_i first second
      cases alsoFound
      rw [second, free found same]
    · exact table.unique found alsoFound same

/-- `INSERT`. `none` is a unique violation. -/
def insert (table : Table key column) (row : ρ) : Option (Table key column) :=
  if free : table.findKey (key row) = none ∧ table.findColumn (column row) = none then
    some (table.put row fun stored named =>
      absurd named (findColumn_eq_none_iff.mp free.2 stored))
  else none

/-- `UPDATE` of the row with the given key, with the number of rows it
affects. `none` is a unique violation. -/
def update (table : Table key column) (k : κ) (change : ρ → ρ)
    (keeps : ∀ row, key (change row) = key row) : Option (Table key column × Nat) :=
  match stored : table.findKey k with
  | none => some (table, 0)
  | some row =>
      if free : ∀ other ∈ table.findColumn (column (change row)), key other = k then
        some (table.put (change row) (by
          intro l other found named
          have lookedUp : table.findColumn (column (change row)) = some other := by
            rw [findColumn_eq_some_iff, findKey, table.keyed found]
            exact ⟨found, named⟩
          rw [keeps, table.keyed stored, ← free other lookedUp, table.keyed found]), 1)
      else none

theorem insert_free (table : Table key column) (row : ρ)
    (newKey : table.findKey (key row) = none)
    (newValue : table.findColumn (column row) = none) :
    ∃ after, table.insert row = some after ∧
      after.rows = table.rows.insert (key row) row := by
  unfold insert
  rw [dif_pos ⟨newKey, newValue⟩]
  exact ⟨_, rfl, rfl⟩

theorem insert_taken (table : Table key column) (row : ρ)
    (taken : ¬ (table.findKey (key row) = none ∧ table.findColumn (column row) = none)) :
    table.insert row = none := by
  unfold insert
  rw [dif_neg taken]

section
variable (table : Table key column) {k : κ} (change : ρ → ρ)
  (keeps : ∀ row, key (change row) = key row)

theorem update_free {row : ρ} (stored : table.findKey k = some row)
    (own : ∀ other ∈ table.findColumn (column (change row)), key other = k) :
    ∃ after, table.update k change keeps = some (after, 1) ∧
      after.rows = table.rows.insert (key (change row)) (change row) := by
  unfold update
  split
  · rename_i absent
    rw [stored] at absent
    cases absent
  · rename_i found
    cases stored.symm.trans found
    rw [dif_pos own]
    exact ⟨_, rfl, rfl⟩

theorem update_taken {row other : ρ} (stored : table.findKey k = some row)
    (held : table.findColumn (column (change row)) = some other) (another : key other ≠ k) :
    table.update k change keeps = none := by
  unfold update
  split
  · rename_i absent
    rw [stored] at absent
    cases absent
  · rename_i found
    cases stored.symm.trans found
    rw [dif_neg]
    intro own
    exact another (own other held)

end

end Table

/-! ## Indexes that mirror a table -/

/-- A coherent pair of indexes and a table that keep the same records, `sees`
relating a record to its row. -/
structure Mirrors {α β ρ τ : Type} [DecidableEq α] [DecidableEq β] (leftKey : ρ → α)
    (rightKey : ρ → β) {key : τ → α} {column : τ → β} (sees : ρ → τ → Prop)
    (left : GoMap α ρ) (right : GoMap β ρ) (table : Table key column) : Prop where
  coherent : Coherent leftKey rightKey left right
  stored : ∀ {k record}, left.lookup k = some record →
    ∃ row, table.findKey k = some row ∧ sees record row
  recorded : ∀ {k row}, table.findKey k = some row →
    ∃ record, left.lookup k = some record ∧ sees record row

namespace Mirrors

variable {α β τ : Type} [DecidableEq α] [DecidableEq β] {leftKey : ρ → α} {rightKey : ρ → β}
  {key : τ → α} {column : τ → β} {sees : ρ → τ → Prop} {left : GoMap α ρ}
  {right : GoMap β ρ} {table : Table key column}

theorem empty : Mirrors leftKey rightKey sees (∅ : GoMap α ρ) (∅ : GoMap β ρ)
    (.empty : Table key column) where
  coherent := .empty
  stored found := by cases found
  recorded found := by cases found

theorem unused_iff (mirrors : Mirrors leftKey rightKey sees left right table) (k : α) :
    left.lookup k = none ↔ table.findKey k = none := by
  constructor
  · intro unused
    cases found : table.findKey k with
    | none => rfl
    | some row =>
        obtain ⟨record, filed, _⟩ := mirrors.recorded found
        rw [unused] at filed
        cases filed
  · intro unused
    cases found : left.lookup k with
    | none => rfl
    | some record =>
        obtain ⟨row, stored, _⟩ := mirrors.stored found
        rw [unused] at stored
        cases stored

section
variable (named : ∀ record row, sees record row → rightKey record = column row)
include named

theorem storedRight (mirrors : Mirrors leftKey rightKey sees left right table) {value : β}
    {record : ρ} (found : right.lookup value = some record) :
    ∃ row, table.findColumn value = some row ∧ key row = leftKey record ∧ sees record row := by
  obtain ⟨filed, alsoFound⟩ := mirrors.coherent.fromRight found
  obtain ⟨row, stored, same⟩ := mirrors.stored alsoFound
  have own := table.keyed stored
  refine ⟨row, ?_, own, same⟩
  rw [Table.findColumn_eq_some_iff, own, ← named _ _ same, filed]
  exact ⟨stored, rfl⟩

theorem recordedRight (mirrors : Mirrors leftKey rightKey sees left right table) {value : β}
    {row : τ} (found : table.findColumn value = some row) :
    ∃ record, right.lookup value = some record ∧ key row = leftKey record ∧
      sees record row := by
  obtain ⟨stored, filed⟩ := Table.findColumn_eq_some_iff.mp found
  obtain ⟨record, alsoFound, same⟩ := mirrors.recorded stored
  obtain ⟨own, present⟩ := mirrors.coherent.fromLeft alsoFound
  rw [named _ _ same, filed] at present
  exact ⟨record, present, own.symm, same⟩

/-- A right key is free where no row has it in the unique column. -/
theorem unusedRight_iff (mirrors : Mirrors leftKey rightKey sees left right table)
    (value : β) : right.lookup value = none ↔ table.findColumn value = none := by
  constructor
  · intro unused
    cases found : table.findColumn value with
    | none => rfl
    | some row =>
        obtain ⟨record, present, _⟩ := mirrors.recordedRight named found
        rw [unused] at present
        cases present
  · intro unused
    cases found : right.lookup value with
    | none => rfl
    | some record =>
        obtain ⟨row, present, _⟩ := mirrors.storedRight named found
        rw [unused] at present
        cases present

end

/-- Filing a record and its row under one key keeps them alike, if it keeps the
indexes coherent. -/
theorem put (mirrors : Mirrors leftKey rightKey sees left right table) {record : ρ} {row : τ}
    (same : sees record row) (keyed : key row = leftKey record) {newRight : GoMap β ρ}
    (coherent : Coherent leftKey rightKey (AList.insert (leftKey record) record left) newRight)
    {after : Table key column} (rows : after.rows = AList.insert (key row) row table.rows) :
    Mirrors leftKey rightKey sees (AList.insert (leftKey record) record left) newRight
      after where
  coherent := coherent
  stored := by
    intro k other found
    rw [GoMap.lookup_insert_eq] at found
    rw [Table.findKey, rows, GoMap.lookup_insert_eq, keyed]
    split at found
    · rename_i filed
      cases found
      exact ⟨row, if_pos filed, same⟩
    · rename_i different
      rw [if_neg different]
      exact mirrors.stored found
  recorded := by
    intro k other found
    rw [Table.findKey, rows, GoMap.lookup_insert_eq, keyed] at found
    rw [GoMap.lookup_insert_eq]
    split at found
    · rename_i filed
      cases found
      exact ⟨record, if_pos filed, same⟩
    · rename_i different
      rw [if_neg different]
      exact mirrors.recorded found

end Mirrors

end Nexus.Lib
