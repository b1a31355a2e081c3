import Nexus.Auth.StoreMachine
import Nexus.Auth.StoreProperties
import Nexus.Auth.ServiceProperties

/-! When the two maps of the in-memory store stay one directory, over any calls
of its interface. `CreateUser` looks for the username alone and `UpdateUser`
for nothing, so both can set the maps apart. -/

set_option autoImplicit false

namespace Nexus.Auth

open Nexus.Lib Nexus.Go Nexus.Users

/-- Both maps hold the same users, each under its own ID and its own username.
No two of them share a username and each is found by name. -/
structure MemoryUserStore.OneDirectory (s : MemoryUserStore) : Prop where
  byUsername : ∀ username u, s.byUsername.lookup username = some u →
    u.username = username ∧ s.byID.lookup u.id = some u
  byID : ∀ id u, s.byID.lookup id = some u →
    u.id = id ∧ s.byUsername.lookup u.username = some u
  distinct : ∀ id other u v, s.byID.lookup id = some u → s.byID.lookup other = some v →
    u.username = v.username → id = other

theorem MemoryUserStore.oneDirectory_iff {s : MemoryUserStore} :
    s.OneDirectory ↔ s.Coherent := by
  constructor
  · intro whole
    exact ⟨fun found => whole.byID _ _ found, fun found => whole.byUsername _ _ found⟩
  · intro coherent
    refine ⟨fun _ _ found => coherent.fromRight found, fun _ _ found => coherent.fromLeft found,
      ?_⟩
    intro id other u v found alsoFound same
    have stored := GoMap.mem_values_iff.mpr ⟨id, found⟩
    have alsoStored := GoMap.mem_values_iff.mpr ⟨other, alsoFound⟩
    have equal := coherent.unique stored alsoStored same
    rw [← (coherent.fromLeft found).1, ← (coherent.fromLeft alsoFound).1, equal]

/-- The call creates a user under an ID that is taken, or gives a stored user
the username of another. -/
def StoreCall.Clashes (env : Env) (s : MemoryUserStore) : StoreCall → Prop
  | .createUser u => s.byUsername.lookup u.username = none ∧
      ∃ holder, s.byID.lookup (stamped env u).id = some holder
  | .updateUser u => (∃ existing, s.byID.lookup u.id = some existing) ∧
      ∃ owner, s.byUsername.lookup u.username = some owner ∧ owner.id ≠ u.id
  | _ => False

theorem createUser_coherent_iff {env : Env} {s : MemoryUserStore} {u : User}
    (coherent : s.Coherent) :
    (MemoryUserStore.createUser env s u).1.Coherent ↔
      ¬ (StoreCall.createUser u).Clashes env s := by
  cases held : s.byUsername.lookup u.username with
  | some owner =>
      rw [MemoryUserStore.createUser_taken held]
      simp [StoreCall.Clashes, held, coherent]
  | none =>
      cases known : s.byID.lookup (stamped env u).id with
      | none =>
          have kept := MemoryUserStore.createUser_coherent (u := u) coherent known
          simp [StoreCall.Clashes, known, kept]
      | some holder =>
          have broken := coherent.not_insert_clash known held
          rw [MemoryUserStore.createUser_free held]
          simp only [StoreCall.Clashes, held, known, true_and, Option.some.injEq,
            exists_eq', not_true_eq_false, iff_false]
          exact broken

theorem updateUser_coherent_iff {env : Env} {s : MemoryUserStore} {u : User}
    (coherent : s.Coherent) :
    (MemoryUserStore.updateUser env s u).1.Coherent ↔
      ¬ (StoreCall.updateUser u).Clashes env s := by
  cases known : s.byID.lookup u.id with
  | none =>
      rw [MemoryUserStore.updateUser_unknown known]
      simp [StoreCall.Clashes, known, coherent]
  | some existing =>
      rw [MemoryUserStore.updateUser_known known]
      by_cases own : ∀ owner ∈ s.byUsername.lookup u.username, owner.id = u.id
      · have kept := coherent.replace (touched env u) known own
        simp only [StoreCall.Clashes, not_and, not_exists, not_not]
        exact ⟨fun _ _ owner held => own owner held, fun _ => kept⟩
      · obtain ⟨owner, held, another⟩ : ∃ owner, s.byUsername.lookup u.username = some owner ∧
            owner.id ≠ u.id := by
          simpa using own
        have broken := coherent.not_replace_clash (touched env u) existing held another
        exact ⟨fun kept => absurd kept broken,
          fun free => absurd ⟨⟨existing, known⟩, owner, held, another⟩ free⟩

theorem answer_coherent_iff {env : Env} {s : MemoryUserStore} (coherent : s.Coherent)
    (call : StoreCall) : (answer env s call).1.Coherent ↔ ¬ call.Clashes env s := by
  cases call with
  | createUser u => exact createUser_coherent_iff coherent
  | updateUser u => exact updateUser_coherent_iff coherent
  | getUserByUsername | getUserByID | listUsers => exact ⟨fun _ => id, fun _ => coherent⟩

/-- From an empty store the two maps are one directory after each call exactly
when no call clashes with what is stored. -/
theorem store_invariant_iff (calls : List (Env × StoreCall)) :
    (storeMachine MemoryUserStore).Always (fun _ next => next.after.OneDirectory) .new calls ↔
      (storeMachine MemoryUserStore).Always (fun _ next =>
        ¬ next.event.2.Clashes next.event.1 next.before) .new calls := by
  apply Machine.Always.congr_step MemoryUserStore.Coherent .empty
  · intro s call _ coherent
    exact MemoryUserStore.oneDirectory_iff.trans (answer_coherent_iff coherent call.2)
  · intro s call _ coherent harmless
    exact (answer_coherent_iff coherent call.2).mpr harmless

def carol : User where
  id := "u-2"
  username := "carol"
  passwordHash := "$2a$letmein!"
  role := roleViewer
  status := statusActive

/-- Carol takes over alice's name. -/
def takeover : List StoreCall :=
  [.createUser alice, .createUser carol, .updateUser { carol with username := "alice" }]

theorem takeover_hides_alice :
    ¬ (storeMachine MemoryUserStore).Always (fun _ next => next.after.OneDirectory) .new
      (takeover.map fun call => (plainEnv 0 "n-1", call)) := by
  intro always
  have directory := always [(plainEnv 0 "n-1", .createUser alice),
    (plainEnv 0 "n-1", .createUser carol)] _ [] rfl
  have found := (directory.byID "u-1" alice rfl).2
  exact absurd found (by decide)

end Nexus.Auth
