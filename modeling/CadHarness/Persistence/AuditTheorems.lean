import CadHarness.Canonical.Normal
import CadHarness.Lib.Fallible
import CadHarness.Persistence.SqlAuditSink

/-!
# The audit chain

The rows of every job are chained whatever is appended, and the last hash of a chain pins every row of it.
-/

namespace CadHarness.Persistence
open CadHarness.Lib CadHarness.Domain CadHarness.Canonical CadHarness.Security

namespace SqlAuditSink

variable {sha256 : String → String}

/-! ## What a hash pins -/

/-- The same event, but for the normalization of the payload. -/
structure SameEvent (r s : AuditEventRow) : Prop where
  eventId : r.eventId = s.eventId
  eventType : r.eventType = s.eventType
  jobId : r.jobId = s.jobId
  actorType : r.actorType = s.actorType
  actorId : r.actorId = s.actorId
  payload : Canonical.normalize r.payloadRedacted.json = Canonical.normalize s.payloadRedacted.json
  createdAt : r.createdAt = s.createdAt
  previousEventHash : r.previousEventHash = s.previousEventHash

theorem normalize_optional_inj {o p : Option String}
    (h : Canonical.normalize (optional o) = Canonical.normalize (optional p)) : o = p := by
  cases o <;> cases p <;> simp_all [Domain.optional, Canonical.normalize]

theorem hashFor_inj (hsha : Function.Injective sha256) {r s : AuditEventRow}
    (h : hashFor sha256 r = hashFor sha256 s) : SameEvent r s := by
  have hobj := (sha256Of_eq_iff hsha).mp h
  rw [normalize_obj_eq_iff (by simp) (by simp)] at hobj
  constructor
  · simpa [Assoc.lookup_cons, Canonical.normalize] using hobj "event_id"
  · simpa [Assoc.lookup_cons, Canonical.normalize] using hobj "event_type"
  · exact normalize_optional_inj (by simpa [Assoc.lookup_cons] using hobj "job_id")
  · simpa [Assoc.lookup_cons, Canonical.normalize] using hobj "actor_type"
  · simpa [Assoc.lookup_cons, Canonical.normalize] using hobj "actor_id"
  · simpa [Assoc.lookup_cons] using hobj "payload"
  · exact DateTime.isoformat_injective (by simpa [Assoc.lookup_cons, Canonical.normalize] using hobj "created_at")
  · exact normalize_optional_inj (by simpa [Assoc.lookup_cons] using hobj "previous_event_hash")

/-! ## Verification -/

variable (sha256) in
/-- How the rows are linked. -/
def links : Linked AuditEventRow String where
  previous := AuditEventRow.previousEventHash
  stored := AuditEventRow.eventHash
  computed := hashFor sha256

theorem verifyRows_eq_ok_iff {expected : Option String} {rows : List AuditEventRow} :
    verifyRows sha256 expected rows = .ok true ↔ (links sha256).Chained expected rows := by
  induction rows generalizing expected with
  | nil => simp [verifyRows]
  | cons row rows ih =>
      rw [verifyRows, Linked.Chained]
      by_cases hprevious : row.previousEventHash = expected
      · by_cases hhash : row.eventHash = hashFor sha256 row
        · rw [if_neg (by simp [hprevious, hhash]), ih]
          simp [links, hprevious, hhash]
        · rw [if_pos (Or.inr hhash)]
          simp [links, hhash]
      · rw [if_pos (Or.inl hprevious)]
        simp [links, hprevious]

theorem verifyChain_eq_ok_iff {table : AuditTable} {jobId : Option String} :
    verifyChain sha256 table jobId = .ok true ↔ (links sha256).Chained none (table.rowsFor jobId) :=
  verifyRows_eq_ok_iff

/-! ## One row -/

/-- What an appended row is. -/
structure Appended (sha256 : String → String) (table : AuditTable) (row : AuditEventRow) (after : AuditTable) :
    Prop where
  rows : after.rows = table.rows ++ [row]
  linked : row.previousEventHash = (links sha256).lastHash none (table.rowsFor row.jobId)
  hashed : row.eventHash = hashFor sha256 row
  later : ∀ last, (table.rowsFor row.jobId).getLast? = some last → last.createdAt < row.createdAt

theorem createdAfter_later {previous : Option AuditEventRow} {now t : DateTime}
    (h : createdAfter previous now = .ok t) : ∀ last, previous = some last → last.createdAt < t := by
  rintro last rfl
  rw [createdAfter] at h
  split_ifs at h with hle
  · cases hnext : last.createdAt.next with
    | none => rw [hnext] at h; cases h
    | some u =>
        rw [hnext] at h
        cases h
        exact DateTime.lt_next hnext
  · cases h
    exact lt_of_not_ge hle

theorem appendAuditRow_ok {table after : AuditTable} {entry : AuditEntry} {now : DateTime}
    {eventId newId : String} (h : appendAuditRow sha256 table entry now eventId = .ok (newId, after)) :
    ∃ row, Appended sha256 table row after := by
  obtain ⟨createdAt, hcreated, h⟩ := Fallible.bind_eq_ok.mp h
  dsimp only at h
  split at h
  · cases h
  · rename_i inserted hinsert
    cases h
    unfold AuditTable.insert at hinsert
    split_ifs at hinsert
    obtain rfl := Option.some.inj hinsert
    refine ⟨_, rfl, ?_, rfl, createdAfter_later hcreated⟩
    simp [Linked.lastHash, links]

theorem nodup_positions {rows : List AuditEventRow} (h : (rows.map AuditEventRow.eventId).Nodup) :
    (rows.map AuditEventRow.position).Nodup := by
  rw [List.nodup_iff_pairwise_ne, List.pairwise_map] at h ⊢
  apply h.imp
  intro r s hne heq
  exact hne (codePoints_injective (congrArg (fun p => (ofLex p).2) heq))

/-- An appended row comes last in its job. -/
theorem Appended.rowsFor_same {table after : AuditTable} {row : AuditEventRow}
    (h : Appended sha256 table row after) :
    after.rowsFor row.jobId = table.rowsFor row.jobId ++ [row] := by
  have hfilter : after.rows.filter (fun r => decide (r.jobId = row.jobId)) =
      table.rows.filter (fun r => decide (r.jobId = row.jobId)) ++ [row] := by
    rw [h.rows, List.filter_append]
    simp
  rw [AuditTable.rowsFor, hfilter]
  apply sortBy_concat
  · exact nodup_positions (table.distinct.sublist (List.filter_sublist.map _))
  · intro r hr
    have hne : table.rowsFor row.jobId ≠ [] := by
      apply List.ne_nil_of_mem
      exact (mem_sortBy _).mpr hr
    have hlast := List.getLast?_eq_some_getLast hne
    have hle := le_of_getLast?_sortBy hlast hr
    apply lt_of_le_of_lt hle
    exact Prod.Lex.toLex_lt_toLex.mpr (.inl (h.later _ hlast))

theorem Appended.rowsFor_other {table after : AuditTable} {row : AuditEventRow}
    (h : Appended sha256 table row after) {jobId : Option String} (hne : row.jobId ≠ jobId) :
    after.rowsFor jobId = table.rowsFor jobId := by
  rw [AuditTable.rowsFor, AuditTable.rowsFor, h.rows, List.filter_append]
  simp [hne]

/-! ## Runs -/

/-- The rows of every job are chained. -/
def Verified (sha256 : String → String) (table : AuditTable) : Prop :=
  ∀ jobId, (links sha256).Chained none (table.rowsFor jobId)

theorem verified_empty : Verified sha256 .empty := fun _ => trivial

theorem Verified.appended {table after : AuditTable} {row : AuditEventRow} (hv : Verified sha256 table)
    (h : Appended sha256 table row after) : Verified sha256 after := by
  intro jobId
  by_cases hjob : row.jobId = jobId
  · subst hjob
    rw [h.rowsFor_same, Linked.chained_concat]
    exact ⟨hv _, h.linked, h.hashed⟩
  · rw [h.rowsFor_other hjob]
    exact hv jobId

theorem Verified.appendRows {table after : AuditTable} {appends : List AuditAppend}
    (hv : Verified sha256 table) (h : appendRows sha256 table appends = .ok after) :
    Verified sha256 after := by
  induction appends generalizing table with
  | nil => cases h; exact hv
  | cons a as ih =>
      obtain ⟨⟨newId, next⟩, happend, hrest⟩ := Fallible.bind_eq_ok.mp h
      obtain ⟨row, hrow⟩ := appendAuditRow_ok happend
      exact ih (hv.appended hrow) hrest

/-- A call keeps the chain of every job. -/
theorem Verified.perform {lower redactPath : String → String} {table : AuditTable}
    (hv : Verified sha256 table) (call : AuditCall) :
    Verified sha256 (perform sha256 lower redactPath table call) := by
  cases call with
  | append entry now eventId =>
      rw [SqlAuditSink.perform, append]
      split
      · exact hv
      · rename_i happend
        obtain ⟨row, hrow⟩ := appendAuditRow_ok happend
        exact hv.appended hrow
  | transaction appends committed =>
      rw [SqlAuditSink.perform]
      split
      · exact hv
      · rename_i happends
        cases committed with
        | false => exact hv
        | true => exact hv.appendRows happends

theorem verified_history (lower redactPath : String → String) (calls : List AuditCall) :
    Verified sha256 (history sha256 lower redactPath calls) := by
  induction calls using List.reverseRecOn with
  | nil => exact verified_empty
  | append_singleton calls call ih =>
      rw [history, List.foldl_concat]
      exact ih.perform call

/-- The chain of every job is verified after any calls, and two verified chains of a job that end in one hash
are the same event by event. -/
theorem audit_chain (hsha : Function.Injective sha256) (lower redactPath : String → String) :
    (∀ calls jobId, verifyChain sha256 (history sha256 lower redactPath calls) jobId = .ok true) ∧
      ∀ (t u : AuditTable) (jobId : Option String) (last last' : AuditEventRow),
        verifyChain sha256 t jobId = .ok true → verifyChain sha256 u jobId = .ok true →
        (t.rowsFor jobId).getLast? = some last → (u.rowsFor jobId).getLast? = some last' →
        last.eventHash = last'.eventHash →
        (t.rowsFor jobId).length = (u.rowsFor jobId).length ∧
          List.Forall₂ SameEvent (t.rowsFor jobId) (u.rowsFor jobId) := by
  constructor
  · intro calls jobId
    exact verifyChain_eq_ok_iff.mpr (verified_history lower redactPath calls jobId)
  · intro t u jobId last last' ht hu hlast hlast' hhash
    have hsame : List.Forall₂ SameEvent (t.rowsFor jobId) (u.rowsFor jobId) := by
      apply (verifyChain_eq_ok_iff.mp ht).forall₂ (verifyChain_eq_ok_iff.mp hu)
      · intro r _ s _ hcomputed
        have hevent := hashFor_inj hsha hcomputed
        exact ⟨hevent.previousEventHash, hevent⟩
      · simp [Linked.lastHash, hlast, hlast', links, hhash]
    exact ⟨hsame.length_eq, hsame⟩

/-- The append of an event of a job, at noon. -/
def noonEvent (jobId eventId : String) : AuditCall :=
  .append { eventType := "JOB_CREATED", jobId := some jobId, actorType := "human", actorId := "operator",
            payload := ⟨.obj [], by simp [Json.DistinctKeys, Json.DistinctKeysMembers]⟩ }
    ⟨{ year := 2025, month := 1, day := 2, hour := 12, minute := 0, second := 0, microsecond := 0 }, by decide⟩
    eventId

/-- The events of another job leave a chain as it is. -/
theorem audit_chain_two_jobs :
    List.Forall₂ SameEvent ((history id id id [noonEvent "job_1" "evt_1"]).rowsFor (some "job_1"))
      ((history id id id [noonEvent "job_2" "evt_2", noonEvent "job_1" "evt_1"]).rowsFor (some "job_1")) :=
  ((audit_chain Function.injective_id id id).2 _ _ (some "job_1") _ _
    ((audit_chain Function.injective_id id id).1 _ _) ((audit_chain Function.injective_id id id).1 _ _)
    rfl rfl rfl).2

end SqlAuditSink

end CadHarness.Persistence
