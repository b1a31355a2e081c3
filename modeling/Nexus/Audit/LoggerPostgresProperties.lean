import Nexus.Audit.LoggerPostgres
import Nexus.Auth.ServiceProperties
import Nexus.Postgres.JsonbProperties

/-! Which events the table `audit_logs` takes, and what its pages show. -/

set_option autoImplicit false

namespace Nexus.Audit

open Nexus.Lib Nexus.Go Nexus.Go.JsonText Nexus.Auth Nexus.Postgres

theorem PostgresLogger.log_eq (env : Env) (event : Event) :
    PostgresLogger.log env event = event.filled env := rfl

/-! ## Rows -/

/-- All that a text holds beyond the width of a column is spaces. -/
def FitsColumn (width : Nat) (text : String) : Prop :=
  ∀ c ∈ text.toList.drop width, c = ' '

theorem varchar_ok_iff {width : Nat} {text : String} :
    (∃ kept, varchar width text = .ok kept) ↔ FitsColumn width text := by
  unfold varchar FitsColumn
  by_cases short : text.length ≤ width
  · have nothing : text.toList.drop width = [] := List.drop_of_length_le short
    simp [short, nothing]
  · rw [if_neg short]
    by_cases spaces : (text.toList.drop width).all (· == ' ') = true
    · have each : ∀ c ∈ text.toList.drop width, c = ' ' := by simpa using spaces
      simp only [spaces, if_true, Except.ok.injEq, exists_eq', true_iff]
      exact each
    · have some : ¬ ∀ c ∈ text.toList.drop width, c = ' ' := by simpa using spaces
      simp only [spaces, some, iff_false]
      exact fun ⟨_, impossible⟩ => nomatch impossible

theorem fitsColumn_of_length {width : Nat} {text : String} (short : text.length ≤ width) :
    FitsColumn width text :=
  varchar_ok_iff.mp ⟨text, if_pos short⟩

/-- The constraints of `audit_logs` on an event, its primary key apart. -/
structure Storable (event : Event) : Prop where
  parameters : ∀ text ∈ insertParameters event, hasNul text = false
  metadata : ¬ HoldsNul event.metadata
  id : FitsColumn 64 event.id
  userID : FitsColumn 64 event.userID
  action : FitsColumn 64 event.action
  resource : FitsColumn 128 event.resource
  ipAddress : FitsColumn 64 event.ipAddress

theorem except_bind_ok_iff {ε α β : Type} {first : Except ε α} {next : α → Except ε β}
    {result : β} :
    first.bind next = .ok result ↔ ∃ value, first = .ok value ∧ next value = .ok result := by
  cases first with
  | error err => simp [Except.bind]
  | ok value => simp [Except.bind]

theorem auditRow_ok_iff {event : Event} {metadata : Jsonb} {row : AuditRow} :
    auditRow event metadata = .ok row ↔
      ∃ id, varchar 64 event.id = .ok id ∧
      ∃ userID, varchar 64 event.userID = .ok userID ∧
      ∃ action, varchar 64 event.action = .ok action ∧
      ∃ resource, varchar 128 event.resource = .ok resource ∧
      ∃ ipAddress, varchar 64 event.ipAddress = .ok ipAddress ∧
      row = {
        id := id
        userID := nullIfEmpty userID
        action := action
        resource := resource
        ipAddress := ipAddress
        userAgent := event.userAgent
        metadata := metadata
        timestamp := timestamptz (event.timestamp.getD 0) } := by
  simp only [auditRow, bind, except_bind_ok_iff, pure, Except.pure, Except.ok.injEq]
  simp only [eq_comm (a := row)]

theorem jsonb_marshal_ok_iff {map : List (String × String)} :
    (∃ metadata, jsonb (marshal map) = .ok metadata) ↔ ¬ HoldsNul map := by
  rw [jsonb_marshal]
  by_cases empty : map = []
  · simp [empty, HoldsNul]
  · by_cases zero : HoldsNul map
    · simp [empty, zero]
    · simp [empty, zero]

theorem AuditLogs.insertRow_ok_iff {logs after : AuditLogs} {row : AuditRow} :
    logs.insertRow row = .ok after ↔
      row.id ∉ logs.rows.map AuditRow.id ∧ after.rows = row :: logs.rows := by
  unfold insertRow
  by_cases taken : row.id ∈ logs.rows.map AuditRow.id
  · simp only [taken, dif_pos, not_true_eq_false, false_and, iff_false]
    exact nofun
  · rw [dif_neg taken]
    constructor
    · intro inserted
      cases inserted
      exact ⟨taken, rfl⟩
    · rintro ⟨_, rows⟩
      cases after
      cases rows
      rfl

/-- What an `INSERT` that succeeds adds to the table. -/
theorem AuditLogs.insert_eq_ok_iff {logs after : AuditLogs} {event : Event} :
    logs.insert event = .ok after ↔
      (∀ text ∈ insertParameters event, hasNul text = false) ∧
      ∃ metadata, jsonb (marshal event.metadata) = .ok metadata ∧
      ∃ row, auditRow event metadata = .ok row ∧
        row.id ∉ logs.rows.map AuditRow.id ∧ after.rows = row :: logs.rows := by
  unfold insert
  by_cases nulls : (insertParameters event).any hasNul = true
  · have held : ¬ ∀ text ∈ insertParameters event, hasNul text = false := by
      simpa using nulls
    simp only [nulls, if_true, held, false_and, iff_false]
    exact nofun
  · have free : ∀ text ∈ insertParameters event, hasNul text = false := by
      simpa using nulls
    rw [if_neg nulls, and_iff_right free]
    cases read : jsonb (marshal event.metadata) with
    | error err => simp
    | ok metadata =>
        simp only [Except.ok.injEq, exists_eq_left', ← insertRow_ok_iff]
        cases made : auditRow event metadata with
        | error err => simp
        | ok row =>
            simp only [Except.ok.injEq, exists_eq_left']
            cases logs.insertRow row with
            | error err => simp [Except.mapError]
            | ok after => simp [Except.mapError]

section
variable {logs after : AuditLogs} {event : Event} (inserted : logs.insert event = .ok after)
include inserted

theorem AuditLogs.records_insert : after.Records event := by
  obtain ⟨_, metadata, read, row, made, _, rows⟩ := insert_eq_ok_iff.mp inserted
  exact ⟨metadata, row, read, made, rows ▸ List.mem_cons_self⟩

theorem AuditLogs.Records.insert {other : Event} (recorded : logs.Records other) :
    after.Records other := by
  obtain ⟨metadata, row, read, made, stored⟩ := recorded
  obtain ⟨_, _, _, _, _, _, rows⟩ := insert_eq_ok_iff.mp inserted
  exact ⟨metadata, row, read, made, rows ▸ List.mem_cons_of_mem _ stored⟩

end

theorem auditRow_id {event : Event} {metadata : Jsonb} {row : AuditRow}
    (short : event.id.length ≤ 64) (made : auditRow event metadata = .ok row) :
    row.id = event.id := by
  obtain ⟨id, kept, _, _, _, _, _, _, _, _, rfl⟩ := auditRow_ok_iff.mp made
  rw [varchar, if_pos short] at kept
  exact (Except.ok.inj kept).symm

theorem AuditLogs.Records.id {logs : AuditLogs} {event : Event} (recorded : logs.Records event)
    (short : event.id.length ≤ 64) : event.id ∈ logs.rows.map AuditRow.id := by
  obtain ⟨metadata, row, _, made, stored⟩ := recorded
  rw [← auditRow_id short made]
  exact List.mem_map_of_mem stored

/-- The database takes an event exactly if it meets the constraints and the key
it is stored under is new. -/
theorem AuditLogs.insert_ok_iff (logs : AuditLogs) (event : Event) :
    (∃ after, logs.insert event = .ok after) ↔
      Storable event ∧
        ∀ key, varchar 64 event.id = .ok key → key ∉ logs.rows.map AuditRow.id := by
  constructor
  · rintro ⟨after, inserted⟩
    obtain ⟨parameters, metadata, read, row, made, free, _⟩ := insert_eq_ok_iff.mp inserted
    obtain ⟨key, id, _, userID, _, action, _, resource, _, ipAddress, rfl⟩ :=
      auditRow_ok_iff.mp made
    refine ⟨?_, ?_⟩
    · exact {
        parameters := parameters
        metadata := jsonb_marshal_ok_iff.mp ⟨_, read⟩
        id := varchar_ok_iff.mp ⟨_, id⟩
        userID := varchar_ok_iff.mp ⟨_, userID⟩
        action := varchar_ok_iff.mp ⟨_, action⟩
        resource := varchar_ok_iff.mp ⟨_, resource⟩
        ipAddress := varchar_ok_iff.mp ⟨_, ipAddress⟩ }
    · intro other cut
      rw [id] at cut
      cases cut
      exact free
  · rintro ⟨storable, free⟩
    obtain ⟨metadata, read⟩ := jsonb_marshal_ok_iff.mpr storable.metadata
    obtain ⟨key, id⟩ := varchar_ok_iff.mpr storable.id
    obtain ⟨_, userID⟩ := varchar_ok_iff.mpr storable.userID
    obtain ⟨_, action⟩ := varchar_ok_iff.mpr storable.action
    obtain ⟨_, resource⟩ := varchar_ok_iff.mpr storable.resource
    obtain ⟨_, ipAddress⟩ := varchar_ok_iff.mpr storable.ipAddress
    obtain ⟨row, made, named⟩ : ∃ row, auditRow event metadata = .ok row ∧ row.id = key :=
      ⟨_, auditRow_ok_iff.mpr
        ⟨key, id, _, userID, _, action, _, resource, _, ipAddress, rfl⟩, rfl⟩
    have fresh : row.id ∉ logs.rows.map AuditRow.id := named ▸ free key id
    exact ⟨{ rows := row :: logs.rows, keyed := List.nodup_cons.mpr ⟨fresh, logs.keyed⟩ },
      insert_eq_ok_iff.mpr ⟨storable.parameters, metadata, read, row, made, fresh, rfl⟩⟩

/-! ## Pages -/

theorem AuditLogs.nodup_events (logs : AuditLogs) : (logs.rows.map AuditRow.event).Nodup := by
  have named : (logs.rows.map AuditRow.event).map Event.id = logs.rows.map AuditRow.id := by
    rw [List.map_map]
    rfl
  exact List.Nodup.of_map Event.id (named ▸ logs.keyed)

theorem PostgresLogger.list_eq (logs : AuditLogs) (order : logs.NewestFirst) {pageSize : Int64}
    (positive : 0 < pageSize) {earlier : Nat}
    (fits : earlier * pageSize.toNatClampNeg < 2 ^ 63) :
    list logs order (Int64.ofNat (earlier + 1)) pageSize =
      .ok ((pageOf order.values pageSize.toNatClampNeg earlier).map AuditRow.event,
        logs.rows.length) := by
  have start : ¬ Int64.ofNat (earlier * pageSize.toNatClampNeg) < 0 :=
    Int64.not_lt.mpr ((Int64.ofNat_le_iff_le (by decide) fits).mpr (Nat.zero_le _))
  have width : ¬ pageSize < 0 := Int64.not_lt.mpr (Int64.le_of_lt positive)
  simp only [list, pageOffset_eq positive, AuditLogs.select, if_neg start, if_neg width,
    Int64.toNatClampNeg_ofNat_of_lt fits, Except.map, pageOf]

/-- Whatever order each query returns its rows in, the pages of a size hold
every stored event exactly once. -/
def AuditLogs.Partitioned (logs : AuditLogs) (pageSize : Int64) : Prop :=
  ∀ orders : Nat → logs.NewestFirst, ∃ pages : Nat → List Event,
    (∀ earlier < pageCount logs.rows.length pageSize.toNatClampNeg,
      PostgresLogger.list logs (orders earlier) (Int64.ofNat (earlier + 1)) pageSize =
        .ok (pages earlier, logs.rows.length)) ∧
    ((List.range (pageCount logs.rows.length pageSize.toNatClampNeg)).flatMap pages).Perm
      (logs.rows.map AuditRow.event)

section
variable {logs : AuditLogs} {pageSize : Int64} (positive : 0 < pageSize)
include positive

theorem AuditLogs.partitioned_of_unsplit (bounded : logs.rows.length < 2 ^ 63)
    (unsplit : ∀ earlier,
      Unsplit AuditRow.timestamp logs.rows (earlier * pageSize.toNatClampNeg)) :
    logs.Partitioned pageSize := by
  have width : 0 < pageSize.toNatClampNeg := (Int64.toNatClampNeg_pos_iff pageSize).mpr positive
  intro orders
  refine ⟨fun earlier =>
    (pageOf (orders earlier).values pageSize.toNatClampNeg earlier).map AuditRow.event, ?_, ?_⟩
  · intro earlier before
    have within := mul_lt_of_lt_pageCount width before
    exact PostgresLogger.list_eq logs (orders earlier) positive (within.trans bounded)
  · have whole := sortedPages_perm unsplit orders (pageCount_covers logs.rows.length width)
    rw [← List.map_flatMap]
    exact whole.map AuditRow.event

theorem AuditLogs.unsplit_of_partitioned (bounded : logs.rows.length < 2 ^ 63)
    (partitioned : logs.Partitioned pageSize) (earlier : Nat) :
    Unsplit AuditRow.timestamp logs.rows (earlier * pageSize.toNatClampNeg) := by
  have width : 0 < pageSize.toNatClampNeg := (Int64.toNatClampNeg_pos_iff pageSize).mpr positive
  by_contra split
  obtain ⟨orders, page, before, row, shown, again⟩ := exists_repeated width split
  obtain ⟨pages, listed, whole⟩ := partitioned orders
  have inside : earlier * pageSize.toNatClampNeg < logs.rows.length := by
    rw [← (orders earlier).perm.length_eq]
    by_contra behind
    have nothing := (pageOf_eq_nil_iff width).mpr (Nat.le_of_not_lt behind)
    exact List.not_mem_nil (nothing ▸ again)
  have last : earlier < pageCount logs.rows.length pageSize.toNatClampNeg :=
    Nat.lt_of_mul_lt_mul_right (inside.trans_le (pageCount_covers logs.rows.length width))
  have displayed : ∀ shownPage ≤ earlier, pages shownPage =
      (pageOf (orders shownPage).values pageSize.toNatClampNeg shownPage).map AuditRow.event := by
    intro shownPage upTo
    have fits := (Nat.mul_le_mul_right pageSize.toNatClampNeg upTo).trans_lt (inside.trans bounded)
    have reply := listed shownPage (upTo.trans_lt last)
    rw [PostgresLogger.list_eq logs (orders shownPage) positive fits] at reply
    exact (Prod.mk.inj (Except.ok.inj reply)).1.symm
  have disjoint := (List.nodup_flatMap.mp (whole.nodup_iff.mpr logs.nodup_events)).2
  rw [List.pairwise_iff_getElem] at disjoint
  have apart := disjoint page earlier (by simpa using before.trans last)
    (by simpa using last) before
  rw [List.getElem_range, List.getElem_range, Function.onFun_apply, displayed page before.le,
    displayed earlier le_rfl] at apart
  exact apart (List.mem_map_of_mem shown) (List.mem_map_of_mem again)

end

/-- The row of an anonymous login. -/
def loginRow (id : String) (timestamp : Time) : AuditRow where
  id := id
  userID := none
  action := actionLoginSuccess
  resource := ""
  ipAddress := ""
  userAgent := ""
  metadata := .null
  timestamp := timestamp

/-- The pages hold every stored event once, whatever orders the queries return,
if and only if no page ends within a group of events with equal timestamps. -/
theorem pages_partition_iff (logs : AuditLogs) (bounded : logs.rows.length < 2 ^ 63)
    {pageSize : Int64} (positive : 0 < pageSize) :
    logs.Partitioned pageSize ↔
      ∀ earlier, Unsplit AuditRow.timestamp logs.rows (earlier * pageSize.toNatClampNeg) := by
  constructor
  · exact AuditLogs.unsplit_of_partitioned positive bounded
  · exact AuditLogs.partitioned_of_unsplit positive bounded

theorem pages_partition_apart :
    AuditLogs.Partitioned
      { rows := [loginRow "second" 2000, loginRow "first" 1000], keyed := by decide } 1 :=
  (pages_partition_iff _ (by decide) (by decide)).mpr fun _ => unsplit_of_distinct (by decide) _

/-- Two logins that the clock tells apart and the column does not: on pages of
one event, one of them may come twice and the other never. -/
theorem tied_event_repeated :
    ∃ first second,
      AuditLogs.empty.insert (PostgresLogger.log
        { plainEnv 1500 "" with eventID := "first" } { action := actionLoginSuccess }) =
          .ok first ∧
      first.insert (PostgresLogger.log
        { plainEnv 1700 "" with eventID := "second" } { action := actionLoginSuccess }) =
          .ok second ∧
      ¬ second.Partitioned 1 := by
  refine ⟨{ rows := [loginRow "first" 2000], keyed := by decide },
    { rows := [loginRow "second" 2000, loginRow "first" 2000], keyed := by decide },
    rfl, rfl, ?_⟩
  intro partitioned
  have unsplit := AuditLogs.unsplit_of_partitioned (by decide) (by decide) partitioned 1
  exact absurd unsplit (by decide)

end Nexus.Audit
