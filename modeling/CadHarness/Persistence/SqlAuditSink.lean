import CadHarness.Lib.DateTime
import CadHarness.Lib.Digest
import CadHarness.Lib.SortBy
import CadHarness.Lib.KeyOrder
import CadHarness.Domain.Plan
import CadHarness.Security.Redaction
import Mathlib.Data.Prod.Lex

/-!
# The audit sink in SQLite

`cad_harness.persistence.sql_audit_sink`: a table of audit events, chained by hash for each job. A call of
the sink is a transaction of its own; others append rows in transactions of theirs.
-/

namespace CadHarness.Persistence
open CadHarness.Lib CadHarness.Domain CadHarness.Security

structure AuditEventRow where
  eventId : String
  eventType : String
  jobId : Option String
  actorType : String
  actorId : String
  payloadRedacted : Payload
  previousEventHash : Option String
  eventHash : String
  createdAt : DateTime

/-- `ORDER BY created_at, event_id` -/
def AuditEventRow.position (row : AuditEventRow) : DateTime ×ₗ List Nat :=
  toLex (row.createdAt, codePoints row.eventId)

/-- The table of events. The event's identifier is its primary key. -/
structure AuditTable where
  rows : List AuditEventRow
  distinct : (rows.map AuditEventRow.eventId).Nodup

/-- An event that is appended, with the payload as it is stored. -/
structure AuditEntry where
  eventType : String
  jobId : Option String
  actorType : String
  actorId : String
  payload : Payload

namespace AuditTable

def empty : AuditTable := ⟨[], List.nodup_nil⟩

/-- The rows of a job, in order. -/
def rowsFor (table : AuditTable) (jobId : Option String) : List AuditEventRow :=
  sortBy AuditEventRow.position (table.rows.filter (fun row => decide (row.jobId = jobId)))

theorem nodup_insert (table : AuditTable) {row : AuditEventRow}
    (h : row.eventId ∉ table.rows.map AuditEventRow.eventId) :
    ((table.rows ++ [row]).map AuditEventRow.eventId).Nodup := by
  rw [List.map_append]
  exact table.distinct.append (List.nodup_singleton _) (by simpa using h)

/-- Insert a row, unless its primary key is in the table. -/
def insert (table : AuditTable) (row : AuditEventRow) : Option AuditTable :=
  if h : row.eventId ∈ table.rows.map AuditEventRow.eventId then none
  else some ⟨table.rows ++ [row], table.nodup_insert h⟩

end AuditTable

namespace SqlAuditSink

variable (sha256 : String → String)

/-- `_hash_for` -/
def hashFor (row : AuditEventRow) : String :=
  sha256Of sha256 (.obj [("event_id", .str row.eventId), ("event_type", .str row.eventType),
    ("job_id", optional row.jobId), ("actor_type", .str row.actorType), ("actor_id", .str row.actorId),
    ("payload", row.payloadRedacted.json), ("created_at", .str row.createdAt.isoformat),
    ("previous_event_hash", optional row.previousEventHash)])

/-- The time of a row: the clock's, or just after the row before it. -/
def createdAfter (previous : Option AuditEventRow) (now : DateTime) : Except Exc DateTime :=
  match previous with
  | none => .ok now
  | some row =>
      if now ≤ row.createdAt then
        match row.createdAt.next with
        | some t => .ok t
        | none => .error (.other "OverflowError")
      else .ok now

/-- Append one row inside a transaction of the caller's, at the clock's time and under a generated
identifier. -/
def appendAuditRow (table : AuditTable) (entry : AuditEntry) (now : DateTime) (eventId : String) :
    Except Exc (String × AuditTable) := do
  let previous := (table.rowsFor entry.jobId).getLast?
  let createdAt ← createdAfter previous now
  let row : AuditEventRow :=
    { eventId, eventType := entry.eventType, jobId := entry.jobId, actorType := entry.actorType,
      actorId := entry.actorId, payloadRedacted := entry.payload,
      previousEventHash := previous.map AuditEventRow.eventHash, eventHash := "", createdAt }
  let row := { row with eventHash := hashFor sha256 row }
  match table.insert row with
  | none => .error (.other "IntegrityError")
  | some table => .ok (eventId, table)

/-! ## Transactions -/

/-- A row that a transaction appends: the entry, the time of the clock, the identifier that is generated. -/
structure AuditAppend where
  entry : AuditEntry
  now : DateTime
  eventId : String

/-- The rows that a transaction appends, one after the other. An exception ends it. -/
def appendRows (table : AuditTable) : List AuditAppend → Except Exc AuditTable
  | [] => .ok table
  | a :: as => do
      let (_, table) ← appendAuditRow sha256 table a.entry a.now a.eventId
      appendRows table as

inductive AuditCall where
  /-- `SqlAuditSink.append`, with the payload before it is redacted -/
  | append (entry : AuditEntry) (now : DateTime) (eventId : String)
  /-- A caller's transaction, and whether it is committed in the end. -/
  | transaction (appends : List AuditAppend) (committed : Bool)

/-- `SqlAuditSink.append` -/
def append (lower redactPath : String → String) (table : AuditTable) (entry : AuditEntry) (now : DateTime)
    (eventId : String) : Except Exc String × AuditTable :=
  let safe := { entry with payload := entry.payload.redact lower redactPath }
  match appendAuditRow sha256 table safe now eventId with
  | .error e => (.error e, table)
  | .ok (eventId, table) => (.ok eventId, table)

/-- The table after a call. What is not committed is rolled back. -/
def perform (lower redactPath : String → String) (table : AuditTable) : AuditCall → AuditTable
  | .append entry now eventId => (append sha256 lower redactPath table entry now eventId).2
  | .transaction appends committed =>
      match appendRows sha256 table appends with
      | .error _ => table
      | .ok after => if committed then after else table

/-- The table after the calls, one after the other. -/
def history (lower redactPath : String → String) (calls : List AuditCall) : AuditTable :=
  calls.foldl (perform sha256 lower redactPath) .empty

/-! ## Verification -/

def broken (row : AuditEventRow) : Exc :=
  raised .internalError "The persisted audit hash chain is broken"
    "Stop write operations, preserve the database, and investigate the audit trail"
    [("broken_at_event_id", .str row.eventId)]

def verifyRows (expectedPrevious : Option String) : List AuditEventRow → Except Exc Bool
  | [] => .ok true
  | row :: rows =>
      if row.previousEventHash ≠ expectedPrevious ∨ row.eventHash ≠ hashFor sha256 row then .error (broken row)
      else verifyRows (some row.eventHash) rows

def verifyChain (table : AuditTable) (jobId : Option String) : Except Exc Bool :=
  verifyRows sha256 none (table.rowsFor jobId)

end SqlAuditSink

end CadHarness.Persistence
