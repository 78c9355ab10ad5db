import CadHarness.Journal.DurableCommitJournal
import CadHarness.Lib.Pool

/-!
# The durable commit coordinator

The coordinator runs one request: it reserves the key in the journal, calls the host's commit, and
records the outcome. Any number of processes run it over one directory. Each call on the journal is one
step, for it holds the lock that all of them share; the host's commit starts in one step and ends in
another, so that a process can die in between.
-/

namespace CadHarness.Journal
open CadHarness.Lib

/-- What the coordinator does, besides computing: it asks the caller for authorization, calls the
journal, and starts and awaits the commit callback. -/
inductive CommitOp where
  | authorize
  | begin (jobId idempotencyKey digest : String)
  | startCommit
  | awaitCommit
  | markCommitted (jobId idempotencyKey digest reservationId : String) (result : BridgeHostResult)
  | markUnknown (jobId idempotencyKey digest reservationId : String)
  | abandon (jobId idempotencyKey digest reservationId : String)

/-- What each of them results in. The callbacks of the caller may throw anything. -/
def CommitOp.Result : CommitOp → Type
  | .authorize => Except Unit Bool
  | .begin _ _ _ => Except Exception CommitJournalDecision
  | .startCommit => Unit
  | .awaitCommit => Except Unit BridgeHostResult
  | .markCommitted _ _ _ _ _ | .markUnknown _ _ _ _ | .abandon _ _ _ _ => Except Exception Unit

def commitSig : Sig := ⟨CommitOp, CommitOp.Result⟩

namespace DurableCommitCoordinator

def op (o : CommitOp) : Prog commitSig (CommitOp.Result o) := Prog.perform (S := commitSig) o

def tryMarkUnknown (jobId idempotencyKey digest reservationId : String) : Prog commitSig Unit := do
  let _ ← op (.markUnknown jobId idempotencyKey digest reservationId)

def tryAbandon (jobId idempotencyKey digest reservationId : String) : Prog commitSig Unit := do
  let _ ← op (.abandon jobId idempotencyKey digest reservationId)

/-- What follows a reservation. -/
def runReserved (jobId idempotencyKey digest reservationId : String) :
    Prog commitSig BridgeHostResult := do
  op .startCommit
  match ← op .awaitCommit with
  | .error _ =>
      tryMarkUnknown jobId idempotencyKey digest reservationId
      return ⟨.unknownCommitState, none⟩
  | .ok result =>
      match result.outcome with
      | .ok =>
          match ← op (.markCommitted jobId idempotencyKey digest reservationId result) with
          | .ok _ => return result
          | .error _ =>
              tryMarkUnknown jobId idempotencyKey digest reservationId
              return ⟨.unknownCommitState, none⟩
      | .unknownCommitState =>
          tryMarkUnknown jobId idempotencyKey digest reservationId
          return result
      | _ =>
          tryAbandon jobId idempotencyKey digest reservationId
          return result

/-- What a decision of the journal leads to. -/
def follow (jobId idempotencyKey digest : String) (decision : CommitJournalDecision) :
    Prog commitSig BridgeHostResult :=
  match decision.kind with
  | .replayCommitted => return decision.result.getD ⟨.failed, none⟩
  | .unknown => return ⟨.unknownCommitState, none⟩
  | .idempotencyKeyReused => return ⟨.idempotencyKeyReused, none⟩
  | .execute =>
      match decision.reservationId with
      | none => return ⟨.failed, none⟩
      | some reservationId => runReserved jobId idempotencyKey digest reservationId

def executeAsync (jobId idempotencyKey digest : String) : Prog commitSig BridgeHostResult := do
  match ← op .authorize with
  | .error _ | .ok false => return ⟨.rejected, none⟩
  | .ok true =>
      match ← op (.begin jobId idempotencyKey digest) with
      | .error _ => return ⟨.failed, none⟩
      | .ok decision => follow jobId idempotencyKey digest decision

end DurableCommitCoordinator

/-! ## Processes over one journal -/

inductive ProcessStatus where
  | absent
  | running (records : List (String × JournalRecord))
  | exited

/-- The directory and the processes that run the coordinator over it. -/
structure Site where
  files : Directory
  process : CommitJournalProcessIdentity → ProcessStatus

/-- A request, and the process that serves it. -/
structure CommitCall where
  process : CommitJournalProcessIdentity
  jobId : String
  idempotencyKey : String
  digest : String
  deriving DecidableEq

namespace Site

variable {α : Type}

def Alive (s : Site) (p : CommitJournalProcessIdentity) : Prop := ∃ records, s.process p = .running records

/-- The probe reports no running process as dead. -/
def Sound (s : Site) (io : Io) : Prop := ∀ p, io.liveness p = .dead → ¬ s.Alive p

def setStatus (s : Site) (p : CommitJournalProcessIdentity) (status : ProcessStatus) : Site :=
  { s with process := Function.update s.process p status }

/-- The site after a process has called the journal. -/
def after (s : Site) (p : CommitJournalProcessIdentity) (t : Session) : Site :=
  { files := t.files, process := Function.update s.process p (.running t.records) }

section

variable {s : Site} {p p' : CommitJournalProcessIdentity} {t : Session} {status : ProcessStatus}

@[simp] theorem setStatus_self : (s.setStatus p status).process p = status := Function.update_self ..

theorem setStatus_of_ne (h : p' ≠ p) : (s.setStatus p status).process p' = s.process p' :=
  Function.update_of_ne h ..

@[simp] theorem after_self : (s.after p t).process p = .running t.records := Function.update_self ..

theorem after_of_ne (h : p' ≠ p) : (s.after p t).process p' = s.process p' :=
  Function.update_of_ne h ..

end

/-- The process calls the journal, and gets the result. -/
inductive Calls (s : Site) (p : CommitJournalProcessIdentity) (m : JournalM α) :
    Except Exception α → Site → Prop
  | ok {records : List (String × JournalRecord)} {a : α} {t : Session} :
      s.process p = .running records → m ⟨records, s.files⟩ = .ok a t → Calls s p m (.ok a) (s.after p t)
  | error {records : List (String × JournalRecord)} {e : Exception} {t : Session} :
      s.process p = .running records → m ⟨records, s.files⟩ = .error e t →
      Calls s p m (.error e) (s.after p t)

end Site

/-- What an operation of a request does at the site. The callbacks do not touch the journal, and may
result in anything. -/
def Site.Act (P : Primitives) (s : Site) (c : CommitCall) :
    (o : CommitOp) → CommitOp.Result o → Site → Prop
  | .authorize, _, s' | .startCommit, _, s' | .awaitCommit, _, s' => s' = s
  | .begin j k d, r, s' =>
      ∃ io, s.Sound io ∧ s.Calls c.process (DurableCommitJournal.begin P io c.process j k d) r s'
  | .markCommitted j k d v result, r, s' =>
      ∃ io, s.Sound io ∧
        s.Calls c.process (DurableCommitJournal.markCommitted P io c.process j k d v result) r s'
  | .markUnknown j k d v, r, s' =>
      ∃ io, s.Sound io ∧
        s.Calls c.process (DurableCommitJournal.markUnknown P io c.process j k d v) r s'
  | .abandon j k d v, r, s' =>
      ∃ io, s.Sound io ∧ s.Calls c.process (DurableCommitJournal.abandon P io c.process j k d v) r s'

inductive ProcessEvent where
  | started (p : CommitJournalProcessIdentity)
  | startFailed (p : CommitJournalProcessIdentity)
  | crashed (p : CommitJournalProcessIdentity)

/-- Processes start with the constructor of the journal, and die at any step. None starts again under
the same identity once it has died. -/
inductive Site.Env (P : Primitives) (s : Site) : ProcessEvent → Site → Prop
  | started {p : CommitJournalProcessIdentity} {io : Io} {t : Session} : s.process p = .absent →
      0 < p.processId → 0 < p.startTimeUtcTicks → s.Sound io →
      DurableCommitJournal.new P io ⟨[], s.files⟩ = .ok () t → Env P s (.started p) (s.after p t)
  | startFailed {p : CommitJournalProcessIdentity} {io : Io} {e : Exception} {t : Session} :
      s.process p = .absent → s.Sound io →
      DurableCommitJournal.new P io ⟨[], s.files⟩ = .error e t →
      Env P s (.startFailed p) { s with files := t.files }
  | crashed {p : CommitJournalProcessIdentity} : s.Alive p →
      Env P s (.crashed p) (s.setStatus p .exited)

def Site.world (P : Primitives) : World commitSig CommitCall Site ProcessEvent where
  alive s c := s.Alive c.process
  act := Site.Act P
  env := Site.Env P

def Site.Initial (s : Site) : Prop := s.files = [] ∧ ∀ p, s.process p = .absent

/-- The program of a request. -/
def CommitCall.run (c : CommitCall) : Prog commitSig BridgeHostResult :=
  DurableCommitCoordinator.executeAsync c.jobId c.idempotencyKey c.digest

abbrev CommitEvent := Event commitSig CommitCall BridgeHostResult ProcessEvent

abbrev CommitPool := Pool commitSig CommitCall BridgeHostResult Site

/-- Every interleaving of any number of requests in any number of processes over one journal. -/
def commitSystem (P : Primitives) : System CommitPool CommitEvent :=
  Pool.system (Site.world P) CommitCall.run Site.Initial

end CadHarness.Journal
