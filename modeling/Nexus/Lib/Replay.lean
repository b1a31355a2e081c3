import Mathlib.Data.List.Induction

/-! Sets of keys kept by a log of additions and removals. The log is replayed
from its oldest change to its newest. Changes are logged after they are made, so
some may still wait for their place in the log. -/

set_option autoImplicit false

namespace Nexus.Lib

universe u

variable {κ : Type u}

inductive Change (κ : Type u) where
  | add (key : κ)
  | remove (key : κ)
  deriving DecidableEq

/-- A removal was logged before an addition of the same key. -/
def Overtakes (log waiting : List (Change κ)) : Prop :=
  ∃ key front back, log = front ++ .remove key :: back ∧ .add key ∈ back ++ waiting

theorem overtakes_nil (waiting : List (Change κ)) : ¬ Overtakes [] waiting := by
  rintro ⟨key, front, back, split, _⟩
  cases front <;> cases split

/-- Logging a waiting change brings one out of order only if it is a removal
whose addition still waits. -/
theorem overtakes_append_iff {log waiting rest : List (Change κ)} {change : Change κ}
    (moved : (change :: rest).Perm waiting) :
    Overtakes (log ++ [change]) rest ↔
      Overtakes log waiting ∨ ∃ key, change = .remove key ∧ .add key ∈ rest := by
  have waits : ∀ other, other ∈ waiting ↔ other = change ∨ other ∈ rest := by
    intro other
    rw [← moved.mem_iff, List.mem_cons]
  constructor
  · rintro ⟨key, front, back, split, added⟩
    rcases List.eq_nil_or_concat back with rfl | ⟨back, last, rfl⟩
    · obtain ⟨rfl, same⟩ := List.append_inj' split rfl
      exact .inr ⟨key, (List.cons.inj same).1, added⟩
    · rw [List.concat_eq_append, ← List.cons_append, ← List.append_assoc] at split
      obtain ⟨rfl, same⟩ := List.append_inj' split rfl
      refine .inl ⟨key, front, back, rfl, ?_⟩
      rw [← (List.cons.inj same).1, List.concat_eq_append] at added
      simp only [List.mem_append, List.mem_singleton, waits] at added ⊢
      tauto
  · rintro (⟨key, front, back, rfl, added⟩ | ⟨key, rfl, added⟩)
    · refine ⟨key, front, back ++ [change], by simp, ?_⟩
      simp only [List.mem_append, List.mem_singleton, waits] at added ⊢
      tauto
    · exact ⟨key, log, [], rfl, added⟩

/-- A new change cannot be overtaken if no removal of its key is logged. -/
theorem overtakes_issue_iff {log waiting issued later : List (Change κ)}
    (more : later.Perm (waiting ++ issued))
    (fresh : ∀ key, .add key ∈ issued → .remove key ∉ log) :
    Overtakes log later ↔ Overtakes log waiting := by
  constructor
  · rintro ⟨key, front, back, split, added⟩
    refine ⟨key, front, back, split, ?_⟩
    have unissued : Change.add key ∉ issued := by
      intro member
      refine fresh key member ?_
      rw [split]
      simp
    simp only [List.mem_append, more.mem_iff] at added ⊢
    tauto
  · rintro ⟨key, front, back, split, added⟩
    refine ⟨key, front, back, split, ?_⟩
    simp only [List.mem_append, more.mem_iff] at added ⊢
    tauto

/-! ## Replay -/

variable [DecidableEq κ]

def Change.apply (keys : List κ) : Change κ → List κ
  | .add key => key :: keys
  | .remove key => keys.filter (· ≠ key)

def replay (start : List κ) (log : List (Change κ)) : List κ := log.foldl Change.apply start

theorem replay_append (start : List κ) (first second : List (Change κ)) :
    replay start (first ++ second) = replay (replay start first) second :=
  List.foldl_append

/-- In a log in order, a key is kept if it was there or added, and not removed. -/
theorem mem_replay_iff {start : List κ} {log : List (Change κ)} (ordered : ¬ Overtakes log [])
    (key : κ) :
    key ∈ replay start log ↔ (key ∈ start ∨ .add key ∈ log) ∧ .remove key ∉ log := by
  induction log using List.reverseRecOn with
  | nil => simp [replay]
  | append_singleton log change ih =>
      have inserted : ∀ {other front back}, log = front ++ .remove other :: back →
          .add other ∉ back ++ [change] := by
        intro other front back split added
        exact ordered ⟨other, front, back ++ [change], by simp [split], by simpa using added⟩
      have earlier := ih fun ⟨other, front, back, split, added⟩ =>
        inserted split (List.mem_append_left _ (by simpa using added))
      rw [replay_append]
      cases change with
      | add new =>
          have unremoved : .remove new ∉ log := by
            intro member
            obtain ⟨front, back, split⟩ := List.append_of_mem member
            exact inserted split (by simp)
          by_cases same : key = new
          · simp [replay, Change.apply, same, unremoved]
          · simpa [replay, Change.apply, same] using earlier
      | remove old =>
          by_cases same : key = old
          · simp [replay, Change.apply, same]
          · simpa [replay, Change.apply, same] using earlier

/-- A key that is added and not removed is kept. -/
theorem mem_replay_of_added {start : List κ} {log : List (Change κ)} {key : κ}
    (added : .add key ∈ log) (kept : .remove key ∉ log) : key ∈ replay start log := by
  induction log using List.reverseRecOn with
  | nil => cases added
  | append_singleton log change ih =>
      have keptBefore : .remove key ∉ log := fun member => kept (List.mem_append_left _ member)
      rw [replay_append]
      cases change with
      | add new =>
          by_cases same : key = new
          · simp [replay, Change.apply, same]
          · have before := ih (by simpa [same] using added) keptBefore
            simp only [replay, List.foldl_cons, List.foldl_nil, Change.apply]
            exact List.mem_cons_of_mem new before
      | remove old =>
          have other : key ≠ old := fun same => kept (by simp [same])
          have before := ih (by simpa using added) keptBefore
          simp only [replay, List.foldl_cons, List.foldl_nil, Change.apply]
          exact List.mem_filter.mpr ⟨before, by simpa using other⟩

/-- Where keys are removed at most once, replay keeps the keys added and not
removed if and only if no removal overtakes an addition. -/
theorem replay_iff_ordered {start : List κ} {log : List (Change κ)}
    (once : ∀ key, log.count (.remove key) ≤ 1) :
    (∀ key, key ∈ replay start log ↔
        (key ∈ start ∨ .add key ∈ log) ∧ .remove key ∉ log) ↔ ¬ Overtakes log [] := by
  constructor
  · rintro faithful ⟨key, front, back, rfl, added⟩
    have kept : .remove key ∉ back := by
      intro again
      have twice := once key
      have positive := List.count_pos_iff.mpr again
      rw [List.count_append, List.count_cons_self] at twice
      omega
    have present : key ∈ replay start (front ++ .remove key :: back) := by
      rw [List.append_cons, replay_append]
      exact mem_replay_of_added (by simpa using added) kept
    exact ((faithful key).mp present).2 (by simp)
  · exact mem_replay_iff

end Nexus.Lib
