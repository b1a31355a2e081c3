import Nexus.Auth.Store
import Nexus.Lib.PairedIndex

/-! What the operations of the in-memory store return and leave behind. -/

set_option autoImplicit false

namespace Nexus.Auth

open Nexus.Lib Nexus.Go Nexus.Users

/-- Each user is stored under its own ID and under its own username. -/
abbrev MemoryUserStore.Coherent (s : MemoryUserStore) : Prop :=
  Lib.Coherent User.id User.username s.byID s.byUsername

/-- The record `createUser` stores. -/
def stamped (env : Env) (u : User) : User where
  id := if u.id = "" then env.storeID else u.id
  username := u.username
  passwordHash := u.passwordHash
  role := u.role
  organizationID := u.organizationID
  status := u.status
  mfaSecret := u.mfaSecret
  mfaEnabled := u.mfaEnabled
  createdAt := env.now
  updatedAt := env.now

/-- The record `updateUser` stores. -/
def touched (env : Env) (u : User) : User := { u with updatedAt := env.now }

namespace MemoryUserStore

variable {env : Env} {s : MemoryUserStore} {u : User}

theorem createUser_taken {owner : User} (taken : s.byUsername.lookup u.username = some owner) :
    createUser env s u = (s, .error errUserAlreadyExists) := by
  simp only [createUser, taken]

theorem createUser_free (free : s.byUsername.lookup u.username = none) :
    createUser env s u =
      ({ byID := s.byID.insert (stamped env u).id (stamped env u)
         byUsername := s.byUsername.insert u.username (stamped env u) },
        .ok (stamped env u)) := by
  unfold createUser stamped
  rw [free]
  by_cases unnamed : u.id = ""
  · simp only [if_pos unnamed]
  · simp only [if_neg unnamed]

theorem createUser_ok {v : User} (created : (createUser env s u).2 = .ok v) :
    v = stamped env u := by
  cases held : s.byUsername.lookup u.username with
  | some owner =>
      rw [createUser_taken held] at created
      cases created
  | none =>
      rw [createUser_free held] at created
      cases created
      rfl

theorem createUser_values {record : User}
    (member : record ∈ (createUser env s u).1.byID.values) :
    record = stamped env u ∨ record ∈ s.byID.values := by
  cases held : s.byUsername.lookup u.username with
  | some owner =>
      rw [createUser_taken held] at member
      exact .inr member
  | none =>
      rw [createUser_free held] at member
      exact GoMap.mem_values_insert member

theorem createUser_coherent (coherent : s.Coherent)
    (fresh : s.byID.lookup (stamped env u).id = none) :
    (createUser env s u).1.Coherent := by
  cases held : s.byUsername.lookup u.username with
  | some owner =>
      rw [createUser_taken held]
      exact coherent
  | none =>
      rw [createUser_free held]
      exact coherent.insert fresh held

theorem updateUser_unknown (unknown : s.byID.lookup u.id = none) :
    updateUser env s u = (s, .error errUserNotFound) := by
  simp only [updateUser, unknown]

theorem updateUser_known {existing : User} (known : s.byID.lookup u.id = some existing) :
    updateUser env s u =
      ({ byID := s.byID.insert u.id (touched env u)
         byUsername := Coherent.moveRight User.username s.byUsername existing.username
          (touched env u) }, .ok (touched env u)) := by
  simp only [updateUser, known]
  rfl

theorem getUserByUsername_ok_iff {username : String} :
    getUserByUsername s username = .ok u ↔ s.byUsername.lookup username = some u := by
  unfold getUserByUsername
  cases s.byUsername.lookup username <;> simp

theorem getUserByID_ok_iff {id : String} :
    getUserByID s id = .ok u ↔ s.byID.lookup id = some u := by
  unfold getUserByID
  cases s.byID.lookup id <;> simp

/-- Creating a user disturbs no username that is already taken. -/
theorem createUser_keeps {username : String} {owner : User}
    (held : s.byUsername.lookup username = some owner) (v : User) :
    (createUser env s v).1.byUsername.lookup username = some owner := by
  cases other : s.byUsername.lookup v.username with
  | some _ =>
      rw [createUser_taken other]
      exact held
  | none =>
      rw [createUser_free other, GoMap.lookup_insert_eq, if_neg]
      · exact held
      · intro same
        rw [same, other] at held
        cases held

end MemoryUserStore

end Nexus.Auth
