import Nexus.Audit.LoggerPostgresProperties
import Nexus.Server.Shutdown

/-! What a graceful shutdown leaves in the audit trail. -/

set_option autoImplicit false

namespace Nexus.Server

open Nexus.Lib Nexus.Go Nexus.Audit Nexus.Auth

/-- Where an event that was logged is. -/
def Process.Holds (s : Process) (event : Event) : Prop :=
  event ∈ s.writers ∨ s.auditLogs.Records event

structure Process.Sound (s : Process) : Prop where
  returned : ∀ event ∈ s.returned, s.Holds event
  inCall : ∀ event, some event ∈ s.handlers → s.Holds event
  apart : (s.writers.map Event.id).Nodup
  short : ∀ event ∈ s.writers, event.id.length ≤ 64
  unstored : ∀ event ∈ s.writers, event.id ∉ s.auditLogs.rows.map AuditRow.id

theorem sound_start (auditLogs : AuditLogs) : (Process.start auditLogs).Sound where
  returned := nofun
  inCall := nofun
  apart := List.nodup_nil
  short := nofun
  unstored := nofun

/-- An event that still waits is not in the table. -/
theorem Process.Sound.waiting {s : Process} (sound : s.Sound) {event : Event}
    (waits : event ∈ s.writers) : ¬ s.auditLogs.Records event := fun recorded =>
  sound.unstored event waits (recorded.id (sound.short event waits))

theorem sound_log {s : Process} (sound : s.Sound) {handler : Nat} {stored : Event}
    (short : stored.id.length ≤ 64) (unwritten : stored.id ∉ s.writers.map Event.id)
    (unstored : stored.id ∉ s.auditLogs.rows.map AuditRow.id) :
    Process.Sound { s with
      handlers := s.handlers.set handler (some stored)
      writers := s.writers ++ [stored] } where
  returned event member := (sound.returned event member).imp (List.mem_append_left _) id
  inCall event member := by
    rcases List.mem_or_eq_of_mem_set member with before | called
    · exact (sound.inCall event before).imp (List.mem_append_left _) id
    · cases called
      exact .inl (List.mem_append_right _ (List.mem_singleton_self stored))
  apart := by
    rw [List.map_append, List.nodup_append]
    refine ⟨sound.apart, List.nodup_singleton _, ?_⟩
    intro id member other last same
    rw [List.mem_singleton.mp last] at same
    exact unwritten (same ▸ member)
  short := by
    intro event member
    rcases List.mem_append.mp member with before | last
    · exact sound.short event before
    · rw [List.mem_singleton.mp last]
      exact short
  unstored := by
    intro event member
    rcases List.mem_append.mp member with before | last
    · exact sound.unstored event before
    · rw [List.mem_singleton.mp last]
      exact unstored

theorem sound_logReturns {s : Process} (sound : s.Sound) {handler : Nat} {stored : Event}
    (called : s.handlers[handler]? = some (some stored)) :
    Process.Sound { s with
      handlers := s.handlers.set handler none
      returned := s.returned ++ [stored] } where
  returned := by
    intro event member
    rcases List.mem_append.mp member with before | last
    · exact sound.returned event before
    · rw [List.mem_singleton.mp last]
      exact sound.inCall stored (List.mem_of_getElem? called)
  inCall event member := by
    rcases List.mem_or_eq_of_mem_set member with before | left
    · exact sound.inCall event before
    · cases left
  apart := sound.apart
  short := sound.short
  unstored := sound.unstored

theorem sound_insert {s : Process} (sound : s.Sound) {writer : Nat} {event : Event}
    (waits : s.writers[writer]? = some event) {after : AuditLogs}
    (inserted : s.auditLogs.insert event = .ok after) : (s.insert writer event).Sound := by
  have table : (s.insert writer event).auditLogs = after := by
    simp only [Process.insert, inserted]
  have split : (event :: s.writers.eraseIdx writer).Perm s.writers := by
    obtain ⟨within, rfl⟩ := List.getElem?_eq_some_iff.mp waits
    exact List.getElem_cons_eraseIdx_perm within
  have apart := (split.map Event.id).nodup_iff.mpr sound.apart
  obtain ⟨_, metadata, _, row, made, _, rows⟩ := AuditLogs.insert_eq_ok_iff.mp inserted
  have id : row.id = event.id :=
    auditRow_id (sound.short event (List.mem_of_getElem? waits)) made
  have holds : ∀ other, s.Holds other → (s.insert writer event).Holds other := by
    intro other held
    unfold Process.Holds
    rw [table]
    rcases held with waiting | recorded
    · rcases List.mem_cons.mp (split.mem_iff.mpr waiting) with rfl | later
      · exact .inr (AuditLogs.records_insert inserted)
      · exact .inl later
    · exact .inr (recorded.insert inserted)
  exact {
    returned := fun other member => holds other (sound.returned other member)
    inCall := fun other member => holds other (sound.inCall other member)
    apart := (List.nodup_cons.mp apart).2
    short := fun other member => sound.short other (List.mem_of_mem_eraseIdx member)
    unstored := by
      intro other member
      rw [table, rows, List.map_cons, List.mem_cons, id]
      rintro (same | stored)
      · exact (List.nodup_cons.mp apart).1 (same ▸ List.mem_map_of_mem member)
      · exact sound.unstored other (List.mem_of_mem_eraseIdx member) stored }

theorem sound_step {s : Process} (sound : s.Sound) {event : ProcessEvent}
    (dependable : Dependable (process.fire s event)) : (process.step s event).1.Sound := by
  have phases : ∀ phase, Process.Sound { s with phase := phase } := fun _ => {
    returned := sound.returned
    inCall := sound.inCall
    apart := sound.apart
    short := sound.short
    unstored := sound.unstored }
  simp only [process]
  split
  · exact sound
  rename_i running
  cases event with
  | accept =>
      simp only [Process.next]
      split
      · exact { sound with
          inCall := fun event member => sound.inCall event (by simpa using member) }
      · exact sound
  | log handler env event =>
      obtain ⟨short, unwritten, unstored⟩ := dependable.named handler env event rfl
      simp only [Process.next]
      split
      · exact sound_log sound short unwritten unstored
      · exact sound
  | logReturns handler =>
      simp only [Process.next]
      split
      · rename_i called
        exact sound_logReturns sound called
      · exact sound
  | handlerReturns handler =>
      simp only [Process.next]
      split
      · exact { sound with
          inCall := fun event member => sound.inCall event (List.mem_of_mem_eraseIdx member) }
      · exact sound
  | insert writer =>
      simp only [Process.next]
      split
      · rename_i event waits
        obtain ⟨after, inserted⟩ := dependable.inserted writer event rfl running waits
        exact sound_insert sound waits inserted
      · exact sound
  | signal | drained | timeout | exit =>
      simp only [Process.next]
      split
      · exact phases _
      · exact sound

theorem running_next {s : Process} (running : s.phase ≠ .exited) {event : ProcessEvent}
    (stays : event ≠ .exit) : (s.next event).phase ≠ .exited := by
  cases event with
  | exit => exact absurd rfl stays
  | accept | log | logReturns | handlerReturns | insert =>
      simp only [Process.next]
      split <;> exact running
  | signal | drained | timeout =>
      simp only [Process.next]
      split
      · exact nofun
      · exact running

theorem complete_step {s : Process} (sound : s.Sound) (complete : s.Complete)
    {event : ProcessEvent} (writersDone : WritersDone (process.fire s event)) :
    (process.step s event).1.Complete := by
  simp only [process]
  split
  · exact complete
  rename_i running
  by_cases exits : event = .exit
  · subst exits
    simp only [Process.next]
    split
    · rename_i done
      intro _ event returned
      exact (sound.returned event returned).resolve_left (writersDone rfl done event returned)
    · exact complete
  · exact fun exited => absurd exited (running_next running exits)

theorem exit_step {s : Process} (done : s.phase = .done) :
    (process.step s .exit).1 = { s with phase := .exited } := by
  simp [process, Process.next, done]

/-- If every INSERT that is executed succeeds, no event is lost by the exit of
the process if and only if it never exits while the INSERT of an event whose
`Log` call returned is still to be executed. -/
theorem shutdown_complete_iff (auditLogs : AuditLogs) {events : List ProcessEvent}
    (dependable : process.Always (fun _ next => Dependable next) (.start auditLogs) events) :
    (∀ past future, events = past ++ future →
      (process.run (.start auditLogs) past).Complete) ↔
      process.Always (fun _ next => WritersDone next) (.start auditLogs) events := by
  have sound : ∀ past future, events = past ++ future →
      (process.run (.start auditLogs) past).Sound := by
    intro past future split
    rw [split] at dependable
    exact dependable.of_append.run_invariant Process.Sound
      (fun _ _ before law => sound_step before law) (sound_start auditLogs)
  constructor
  · intro complete past event future split exits done stored returned waits
    have exit : event = .exit := exits
    have left := complete (past ++ [event]) future (by rw [split, List.append_assoc]; rfl)
    have after : process.run (.start auditLogs) (past ++ [event]) =
        { process.run (.start auditLogs) past with phase := .exited } := by
      rw [Machine.run_append, Machine.run_cons, Machine.run_nil, exit]
      exact exit_step done
    rw [after] at left
    exact (sound past (event :: future) split).waiting waits (left rfl stored returned)
  · intro writersDone past future split
    have both : process.Always (fun _ next => Dependable next ∧ WritersDone next)
        (.start auditLogs) (past ++ future) := by
      rw [← split]
      exact fun before event after order =>
        ⟨dependable before event after order, writersDone before event after order⟩
    refine (both.of_append.run_invariant (fun s => s.Sound ∧ s.Complete) ?_ ?_).2
    · intro s event before law
      exact ⟨sound_step before.1 law.1, complete_step before.1 before.2 law.2⟩
    · exact ⟨sound_start auditLogs, nofun⟩

theorem dependable_quiet {s : Process} {event : ProcessEvent}
    (noInsert : ∀ writer, event ≠ .insert writer)
    (noLog : ∀ handler env logged, event ≠ .log handler env logged) :
    Dependable (process.fire s event) where
  inserted writer _ inserts := absurd inserts (noInsert writer)
  named handler env logged logs := absurd logs (noLog handler env logged)

/-- A login is logged. -/
def loginLogged : ProcessEvent :=
  .log 0 (plainEnv 0 "") { userID := "u-1", action := actionLoginSuccess }

theorem dependable_loginLogged {s : Process} (unwritten : s.writers = [])
    (unstored : s.auditLogs.rows = []) : Dependable (process.fire s loginLogged) where
  inserted _ _ inserts := nomatch inserts
  named _ _ _ logs := by
    cases logs
    rw [Machine.fire_before, unwritten, unstored]
    exact ⟨by decide, List.not_mem_nil, List.not_mem_nil⟩

theorem shutdown_complete_patient :
    (process.run (.start .empty) [.accept, loginLogged, .insert 0, .logReturns 0,
      .handlerReturns 0, .signal, .drained, .exit]).Complete := by
  refine (shutdown_complete_iff .empty ?_).mpr ?_ _ [] rfl
  · rw [List.append_nil]
    iterate 8 rw [Machine.always_cons_iff]
    refine ⟨dependable_quiet nofun nofun, dependable_loginLogged rfl rfl, ⟨?_, nofun⟩,
      dependable_quiet nofun nofun, dependable_quiet nofun nofun, dependable_quiet nofun nofun,
      dependable_quiet nofun nofun, dependable_quiet nofun nofun, Machine.always_nil _ _⟩
    intro writer event inserts _ waits
    cases inserts
    cases waits
    exact ⟨_, rfl⟩
  · rw [List.append_nil]
    iterate 8 rw [Machine.always_cons_iff]
    refine ⟨nofun, nofun, nofun, nofun, nofun, nofun, nofun, ?_, Machine.always_nil _ _⟩
    exact fun _ _ _ _ => List.not_mem_nil

/-- The handlers have returned and the signal is handled before the goroutine
of a login gets to its INSERT, and with it the event is gone. -/
theorem unwritten_event_lost :
    process.Always (fun _ next => Dependable next) (.start .empty)
      [.accept, loginLogged, .logReturns 0, .handlerReturns 0, .signal, .drained, .exit] ∧
    ¬ (process.run (.start .empty) [.accept, loginLogged, .logReturns 0, .handlerReturns 0,
      .signal, .drained, .exit]).Complete := by
  constructor
  · iterate 7 rw [Machine.always_cons_iff]
    exact ⟨dependable_quiet nofun nofun, dependable_loginLogged rfl rfl,
      dependable_quiet nofun nofun, dependable_quiet nofun nofun, dependable_quiet nofun nofun,
      dependable_quiet nofun nofun, dependable_quiet nofun nofun, Machine.always_nil _ _⟩
  · intro complete
    obtain ⟨_, _, _, _, stored⟩ := complete rfl _ List.mem_cons_self
    exact List.not_mem_nil stored

end Nexus.Server
