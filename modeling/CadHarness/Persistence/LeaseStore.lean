import CadHarness.Domain.Records
import CadHarness.Lib.Assoc

/-!
# The lease store port

The calls of a lease store, what a store makes of a sequence of them, and when each lease was valid.
-/

namespace CadHarness.Persistence
open CadHarness.Lib CadHarness.Domain

/-- A call, with the identifier that an acquisition generates. -/
inductive LeaseCall where
  | tryAcquire (leaseId documentId ownerId : String) (ttl : Time)
  | renew (leaseId : String) (ttl : Time)
  | release (leaseId : String)

namespace LeaseCall

def ttl? : LeaseCall → Option Time
  | tryAcquire _ _ _ ttl => some ttl
  | renew _ ttl => some ttl
  | release _ => none

/-- The identifier that a call generates. -/
def newId? : LeaseCall → Option String
  | tryAcquire leaseId _ _ _ => some leaseId
  | _ => none

end LeaseCall

/-- A lease, or nothing, or an exception. -/
abbrev LeaseAnswer := Except Exc (Option WriterLease)

/-- A store of leases: how it answers a call at a given time. -/
structure LeaseStore (σ : Type) where
  empty : σ
  call : Time → LeaseCall → σ → LeaseAnswer × σ

structure LeaseEvent where
  now : Time
  call : LeaseCall
  answer : LeaseAnswer

/-- What the calls come to, made one after the other. -/
def LeaseStore.history {σ : Type} (S : LeaseStore σ) (calls : List (Time × LeaseCall)) : List LeaseEvent × σ :=
  calls.foldl (fun (h, s) (now, call) =>
    let (answer, s') := S.call now call s
    (h ++ [⟨now, call, answer⟩], s')) ([], S.empty)

theorem LeaseStore.history_concat {σ : Type} (S : LeaseStore σ) (calls : List (Time × LeaseCall)) (now : Time)
    (call : LeaseCall) :
    S.history (calls ++ [(now, call)]) =
      ((S.history calls).1 ++ [⟨now, call, (S.call now call (S.history calls).2).1⟩],
        (S.call now call (S.history calls).2).2) := by
  rw [history, List.foldl_concat]
  rfl

/-! ## Validity -/

/-- The time during which a lease is valid. -/
structure Validity where
  leaseId : String
  documentId : String
  start : Time
  stop : Time
  released : Bool := false

def Validity.At (v : Validity) (t : Time) : Prop := v.start ≤ t ∧ t < v.stop

/-- A renewal moves the end of its lease, a release ends it. -/
def Validity.record (ledger : List Validity) (e : LeaseEvent) : List Validity :=
  match e.call, e.answer with
  | .tryAcquire _ _ _ _, .ok (some lease) =>
      ledger ++ [{ leaseId := lease.leaseId, documentId := lease.documentId, start := e.now,
                   stop := lease.expiresAt }]
  | .renew _ _, .ok (some lease) =>
      ledger.map (fun v => if v.leaseId = lease.leaseId then { v with stop := lease.expiresAt } else v)
  | .release leaseId, .ok _ =>
      ledger.map (fun v =>
        if v.leaseId = leaseId then { v with stop := min v.stop e.now, released := true } else v)
  | _, _ => ledger

/-- The leases that were granted, in order. -/
def ledger (h : List LeaseEvent) : List Validity := h.foldl Validity.record []

theorem ledger_concat (h : List LeaseEvent) (e : LeaseEvent) :
    ledger (h ++ [e]) = Validity.record (ledger h) e := List.foldl_concat ..

/-- A lease that may not be renewed any more: expired, released, or followed by another of its document. -/
def Validity.Over (v : Validity) (ledger : List Validity) (now : Time) : Prop :=
  v.stop ≤ now ∨ v.released = true ∨ ∃ w, [v, w].Sublist ledger ∧ w.documentId = v.documentId

/-- What a store answers, but for the exceptions. -/
def LeaseStore.accepted {σ : Type} (S : LeaseStore σ) (calls : List (Time × LeaseCall)) :
    List (Option (Option WriterLease)) :=
  (S.history calls).1.map (fun e => e.answer.toOption)

/-- No two leases of a document are ever valid at once, and a lease that is over is never renewed. -/
structure LeaseStore.Excludes {σ : Type} (S : LeaseStore σ) (calls : List (Time × LeaseCall)) : Prop where
  disjoint : (ledger (S.history calls).1).Pairwise
    (fun v w => v.documentId = w.documentId → ∀ t, ¬ (v.At t ∧ w.At t))
  renewal : ∀ before now id ttl after, calls = before ++ (now, .renew id ttl) :: after →
    ∀ v ∈ ledger (S.history before).1, v.leaseId = id → v.Over (ledger (S.history before).1) now →
    (S.call now (.renew id ttl) (S.history before).2).1.isOk = false

/-- What callers promise: the clock never goes back, an identifier is generated once, and a time to live is
the one of a lease service. -/
structure Admissible (calls : List (Time × LeaseCall)) : Prop where
  ordered : (calls.map Prod.fst).Pairwise (· ≤ ·)
  fresh : (calls.filterMap (fun c => c.2.newId?)).Nodup
  ttl : ∀ c ∈ calls, ∀ ttl, c.2.ttl? = some ttl → ∃ settings : LeaseSettings, ttl = settings.ttl

end CadHarness.Persistence

/-!
## The lease store in memory

`cad_harness.persistence.memory_lease_store`: a dictionary from a document to its lease.
-/

namespace CadHarness.Persistence
open CadHarness.Lib CadHarness.Domain

structure InMemoryLeaseStore where
  leases : List (String × WriterLease) := []

/-- The conflict that both stores report. -/
def leaseConflict (current : WriterLease) : Exc :=
  raised .writerLeaseConflict "Document already has an active writer lease"
    "Wait for the current writer to finish or for its lease to expire"
    [("owner_id", .str current.ownerId), ("expires_at", .num (.int current.expiresAt))]

namespace InMemoryLeaseStore

def activeLease (s : InMemoryLeaseStore) (documentId : String) (now : Time) : Option WriterLease :=
  (s.leases.lookup documentId).filter (fun lease => decide (now < lease.expiresAt))

def tryAcquire (s : InMemoryLeaseStore) (leaseId documentId ownerId : String) (ttl now : Time) :
    LeaseAnswer × InMemoryLeaseStore :=
  match s.activeLease documentId now with
  | some current => (.error (leaseConflict current), s)
  | none =>
      let lease : WriterLease :=
        { leaseId, documentId, ownerId, acquiredAt := now, heartbeatAt := now, expiresAt := now + ttl }
      match lease.validated with
      | .error e => (.error e, s)
      | .ok lease => (.ok (some lease), { leases := Assoc.set s.leases documentId lease })

/-- The lease of an identifier. -/
def find (s : InMemoryLeaseStore) (leaseId : String) : Option WriterLease :=
  (s.leases.map Prod.snd).find? (fun lease => decide (lease.leaseId = leaseId))

def renew (s : InMemoryLeaseStore) (leaseId : String) (ttl now : Time) : LeaseAnswer × InMemoryLeaseStore :=
  let inactive : LeaseAnswer :=
    .error (raised .internalError "Writer lease is no longer active" "Reconcile the commit outcome" [])
  match s.find leaseId with
  | none => (inactive, s)
  | some current =>
      if current.expiresAt ≤ now then (inactive, s)
      else
        let renewed := { current with heartbeatAt := now, expiresAt := now + ttl }
        (.ok (some renewed), { leases := Assoc.set s.leases current.documentId renewed })

def release (s : InMemoryLeaseStore) (leaseId : String) : InMemoryLeaseStore :=
  match s.leases.find? (fun e => decide (e.2.leaseId = leaseId)) with
  | some (documentId, _) => { leases := Assoc.remove s.leases documentId }
  | none => s

def port : LeaseStore InMemoryLeaseStore where
  empty := {}
  call now
    | .tryAcquire leaseId documentId ownerId ttl, s => s.tryAcquire leaseId documentId ownerId ttl now
    | .renew leaseId ttl, s => s.renew leaseId ttl now
    | .release leaseId, s => (.ok none, s.release leaseId)

end InMemoryLeaseStore

end CadHarness.Persistence

/-!
## The lease store in SQLite

`cad_harness.persistence.sql_lease_store`: a table with one row for each lease, unique by lease and by
document. Each call is one transaction.
-/

namespace CadHarness.Persistence
open CadHarness.Lib CadHarness.Domain

structure SqlLeaseStore where
  rows : List WriterLease := []

namespace SqlLeaseStore

/-- What an insertion that breaks a constraint comes to. -/
def conflict (s : SqlLeaseStore) (documentId : String) : Exc :=
  match s.rows.find? (fun row => decide (row.documentId = documentId)) with
  | none => .other "IntegrityError"
  | some current =>
      match current.validated with
      | .error e => e
      | .ok conflict => leaseConflict conflict

def tryAcquire (s : SqlLeaseStore) (leaseId documentId ownerId : String) (ttl now : Time) :
    LeaseAnswer × SqlLeaseStore :=
  let lease : WriterLease :=
    { leaseId, documentId, ownerId, acquiredAt := now, expiresAt := now + ttl, heartbeatAt := now }
  match lease.validated with
  | .error e => (.error e, s)
  | .ok lease =>
      let kept := s.rows.filter (fun row => !decide (row.documentId = documentId ∧ row.expiresAt ≤ now))
      if kept.any (fun row => decide (row.leaseId = leaseId ∨ row.documentId = documentId)) then
        (.error (s.conflict documentId), s)
      else (.ok (some lease), { rows := kept ++ [lease] })

def find (s : SqlLeaseStore) (leaseId : String) : Option WriterLease :=
  s.rows.find? (fun row => decide (row.leaseId = leaseId))

/-- The row is committed before it is read back. -/
def renew (s : SqlLeaseStore) (leaseId : String) (ttl now : Time) : LeaseAnswer × SqlLeaseStore :=
  let inactive : LeaseAnswer :=
    .error (raised .internalError "Writer lease is no longer active"
      "Reconcile the commit outcome before any further write" [("lease_id", .str leaseId)])
  match s.find leaseId with
  | none => (inactive, s)
  | some row =>
      if row.expiresAt ≤ now then (inactive, s)
      else
        let renewed := { row with heartbeatAt := now, expiresAt := now + ttl }
        (renewed.validated.map some,
          { rows := s.rows.map (fun row => if row.leaseId = leaseId then renewed else row) })

def release (s : SqlLeaseStore) (leaseId : String) : SqlLeaseStore :=
  { rows := s.rows.filter (fun row => decide (row.leaseId ≠ leaseId)) }

def port : LeaseStore SqlLeaseStore where
  empty := {}
  call now
    | .tryAcquire leaseId documentId ownerId ttl, s => s.tryAcquire leaseId documentId ownerId ttl now
    | .renew leaseId ttl, s => s.renew leaseId ttl now
    | .release leaseId, s => (.ok none, s.release leaseId)

end SqlLeaseStore

end CadHarness.Persistence
