import Nexus.Lib.GoMap

/-! Two indexes over one collection of records, each record filed under its
own key in both. -/

set_option autoImplicit false

namespace Nexus.Lib

variable {α β ρ : Type} [DecidableEq α] [DecidableEq β]

structure Coherent (leftKey : ρ → α) (rightKey : ρ → β) (left : GoMap α ρ)
    (right : GoMap β ρ) : Prop where
  fromLeft : ∀ {key record}, left.lookup key = some record →
    leftKey record = key ∧ right.lookup (rightKey record) = some record
  fromRight : ∀ {key record}, right.lookup key = some record →
    rightKey record = key ∧ left.lookup (leftKey record) = some record

namespace Coherent

variable {leftKey : ρ → α} {rightKey : ρ → β} {left : GoMap α ρ} {right : GoMap β ρ}

theorem empty : Coherent leftKey rightKey (∅ : GoMap α ρ) (∅ : GoMap β ρ) where
  fromLeft found := by cases found
  fromRight found := by cases found

/-- Filing a record under two new keys keeps the indexes coherent. -/
theorem insert (coherent : Coherent leftKey rightKey left right) {record : ρ}
    (newLeft : left.lookup (leftKey record) = none)
    (newRight : right.lookup (rightKey record) = none) :
    Coherent leftKey rightKey (AList.insert (leftKey record) record left)
      (AList.insert (rightKey record) record right) where
  fromLeft := by
    intro key found lookedUp
    rw [GoMap.lookup_insert_eq] at lookedUp
    split at lookedUp
    · rename_i same
      cases lookedUp
      exact ⟨same.symm, by rw [GoMap.lookup_insert_eq, if_pos rfl]⟩
    · obtain ⟨filed, other⟩ := coherent.fromLeft lookedUp
      refine ⟨filed, ?_⟩
      rw [GoMap.lookup_insert_eq, if_neg]
      · exact other
      · intro clash
        rw [clash, newRight] at other
        cases other
  fromRight := by
    intro key found lookedUp
    rw [GoMap.lookup_insert_eq] at lookedUp
    split at lookedUp
    · rename_i same
      cases lookedUp
      exact ⟨same.symm, by rw [GoMap.lookup_insert_eq, if_pos rfl]⟩
    · obtain ⟨filed, other⟩ := coherent.fromRight lookedUp
      refine ⟨filed, ?_⟩
      rw [GoMap.lookup_insert_eq, if_neg]
      · exact other
      · intro clash
        rw [clash, newLeft] at other
        cases other

/-- Filing a record under a new right key and a left key already in use does
not: the older record stays filed on the right alone. -/
theorem not_insert_clash (coherent : Coherent leftKey rightKey left right) {record older : ρ}
    (taken : left.lookup (leftKey record) = some older)
    (newRight : right.lookup (rightKey record) = none) :
    ¬ Coherent leftKey rightKey (AList.insert (leftKey record) record left)
      (AList.insert (rightKey record) record right) := by
  intro inserted
  obtain ⟨filed, stillFound⟩ := coherent.fromLeft taken
  have kept : (AList.insert (rightKey record) record right).lookup (rightKey older) =
      some older := by
    rw [GoMap.lookup_insert_eq, if_neg]
    · exact stillFound
    · intro same
      rw [same, newRight] at stillFound
      cases stillFound
  have moved := (inserted.fromRight kept).2
  rw [GoMap.lookup_insert_eq, if_pos filed] at moved
  cases moved
  rw [newRight] at stillFound
  cases stillFound

/-- The right index after a record moved there from the key `previous`. -/
def moveRight (rightKey : ρ → β) (right : GoMap β ρ) (previous : β) (record : ρ) : GoMap β ρ :=
  if previous ≠ rightKey record then
    AList.erase previous (AList.insert (rightKey record) record right)
  else AList.insert (rightKey record) record right

theorem lookup_moveRight (right : GoMap β ρ) (previous : β) (record : ρ) (key : β) :
    (moveRight rightKey right previous record).lookup key =
      if key = rightKey record then some record
      else if key = previous then none else right.lookup key := by
  unfold moveRight
  by_cases renamed : previous = rightKey record
  · rw [if_neg (not_not.mpr renamed), GoMap.lookup_insert_eq, renamed]
    by_cases same : key = rightKey record <;> simp [same]
  · rw [if_pos renamed, GoMap.lookup_erase_eq, GoMap.lookup_insert_eq]
    by_cases same : key = rightKey record
    · rw [if_neg (fun old => renamed (old.symm.trans same)), if_pos same, if_pos same]
    · rw [if_neg same, if_neg same]

/-- Replacing the record under a left key keeps the indexes coherent as long as
no other record holds the right key. -/
theorem replace (coherent : Coherent leftKey rightKey left right) (record : ρ) {older : ρ}
    (taken : left.lookup (leftKey record) = some older)
    (own : ∀ owner ∈ right.lookup (rightKey record), leftKey owner = leftKey record) :
    Coherent leftKey rightKey (AList.insert (leftKey record) record left)
      (moveRight rightKey right (rightKey older) record) where
  fromLeft := by
    intro key found lookedUp
    rw [GoMap.lookup_insert_eq] at lookedUp
    split at lookedUp
    · rename_i same
      cases lookedUp
      exact ⟨same.symm, by rw [lookup_moveRight, if_pos rfl]⟩
    · rename_i different
      obtain ⟨filed, other⟩ := coherent.fromLeft lookedUp
      refine ⟨filed, ?_⟩
      rw [lookup_moveRight, if_neg, if_neg]
      · exact other
      · intro same
        have shared := other
        rw [same, (coherent.fromLeft taken).2] at shared
        cases shared
        exact different (filed.symm.trans (coherent.fromLeft taken).1)
      · intro same
        rw [same] at other
        exact different (filed.symm.trans (own found other))
  fromRight := by
    intro key found lookedUp
    rw [lookup_moveRight] at lookedUp
    split at lookedUp
    · rename_i same
      cases lookedUp
      exact ⟨same.symm, by rw [GoMap.lookup_insert_eq, if_pos rfl]⟩
    · rename_i different
      split at lookedUp
      · cases lookedUp
      · rename_i kept
        obtain ⟨filed, other⟩ := coherent.fromRight lookedUp
        refine ⟨filed, ?_⟩
        rw [GoMap.lookup_insert_eq, if_neg]
        · exact other
        · intro same
          rw [same, taken] at other
          cases other
          exact kept filed.symm

/-- Taking the right key of another record over does not: the other record is
no longer found on the right. -/
theorem not_replace_clash (coherent : Coherent leftKey rightKey left right)
    (record older : ρ) {owner : ρ} (held : right.lookup (rightKey record) = some owner)
    (another : leftKey owner ≠ leftKey record) :
    ¬ Coherent leftKey rightKey (AList.insert (leftKey record) record left)
      (moveRight rightKey right (rightKey older) record) := by
  intro replaced
  obtain ⟨named, stored⟩ := coherent.fromRight held
  have kept : (AList.insert (leftKey record) record left).lookup (leftKey owner) =
      some owner := by
    rw [GoMap.lookup_insert_eq, if_neg another]
    exact stored
  have lost := (replaced.fromLeft kept).2
  rw [lookup_moveRight, named, if_pos rfl] at lost
  cases lost
  exact another rfl

theorem same_records (coherent : Coherent leftKey rightKey left right) {record : ρ} :
    record ∈ left.values ↔ record ∈ right.values := by
  simp only [GoMap.mem_values_iff]
  constructor
  · intro stored
    obtain ⟨key, found⟩ := stored
    exact ⟨rightKey record, (coherent.fromLeft found).2⟩
  · intro stored
    obtain ⟨key, found⟩ := stored
    exact ⟨leftKey record, (coherent.fromRight found).2⟩

/-- A record is known by its key in the other index. -/
theorem unique (coherent : Coherent leftKey rightKey left right) {record other : ρ}
    (stored : record ∈ left.values) (alsoStored : other ∈ left.values)
    (same : rightKey record = rightKey other) : record = other := by
  obtain ⟨_, found⟩ := GoMap.mem_values_iff.mp stored
  obtain ⟨_, alsoFound⟩ := GoMap.mem_values_iff.mp alsoStored
  have one := (coherent.fromLeft found).2
  have two := (coherent.fromLeft alsoFound).2
  rw [same, two] at one
  cases one
  rfl

end Coherent

end Nexus.Lib
