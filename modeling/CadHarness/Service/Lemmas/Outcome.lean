import CadHarness.Lib.Trace
import CadHarness.Service.Commit

/-!
# What a call of the service leaves in its store

The state that a call persisted last, and the exceptions after which a commit leaves its job where it is.
-/

namespace CadHarness.Service
open CadHarness.Lib CadHarness.Domain CadHarness.Persistence Prog

abbrev HarnessEvent := Performed harnessSig

/-- The store succeeds in writing jobs. Everything else may answer or raise as it likes. -/
def StoreWrites : (o : HarnessOp) → o.Answer → Prop
  | .store o, r => o.job?.isSome → ∃ a, r = .ok a
  | _, _ => True

variable {α : Type} {tr : List HarnessEvent}

/-! ## The operations -/

@[simp] theorem ends_store {o : StoreOp} {F : List HarnessEvent → Except Exc o.Answer → Prop} :
    Ends StoreWrites (store o) tr F ↔ ∀ r : Except Exc o.Answer, (o.job?.isSome → ∃ a, r = .ok a) →
      F (tr ++ [⟨.store o, r⟩]) r := by
  constructor
  · intro h r hr
    exact h.2 r _ ⟨hr, rfl⟩
  · intro h
    refine ⟨trivial, ?_⟩
    rintro r _ ⟨hr, rfl⟩
    exact h r hr

@[simp] theorem ends_task {o : TaskOp} {F : List HarnessEvent → Except Exc o.Answer → Prop} :
    Ends StoreWrites (task o) tr F ↔ ∀ r : Except Exc o.Answer, F (tr ++ [⟨.task o, r⟩]) r := by
  constructor
  · intro h r
    exact h.2 r _ ⟨trivial, rfl⟩
  · intro h
    refine ⟨trivial, ?_⟩
    rintro r _ ⟨-, rfl⟩
    exact h r

@[simp] theorem ends_adapter {o : AdapterOp} {F : List HarnessEvent → Except Exc o.Answer → Prop} :
    Ends StoreWrites (adapter o) tr F ↔ ∀ r : Except Exc o.Answer, F (tr ++ [⟨.adapter o, r⟩]) r := by
  constructor
  · intro h r
    exact h.2 r _ ⟨trivial, rfl⟩
  · intro h
    refine ⟨trivial, ?_⟩
    rintro r _ ⟨-, rfl⟩
    exact h r

@[simp] theorem ends_host {o : HostOp} {F : List HarnessEvent → Except Exc o.Answer → Prop} :
    Ends StoreWrites (host o) tr F ↔ ∀ r : o.Answer, F (tr ++ [⟨.host o, r⟩]) (.ok r) := by
  constructor
  · intro h r
    exact h.2 r _ ⟨trivial, rfl⟩
  · intro h
    refine ⟨trivial, ?_⟩
    rintro r _ ⟨-, rfl⟩
    exact h r

variable {A : (o : HarnessOp) → o.Answer → Prop}

@[simp] theorem ends_ofExcept {r : Except Exc α} {F : List HarnessEvent → Except Exc α → Prop} :
    Ends A (ofExcept r) tr F ↔ F tr r := Iff.rfl

@[simp] theorem ends_attempt {m : HarnessM α} {F : List HarnessEvent → Except Exc (Except Exc α) → Prop} :
    Ends A (attempt m) tr F ↔ Ends A m tr (fun tr r => F tr (.ok r)) := by
  have hrun : (attempt m).run = m.run >>= fun r => pure (.ok r) := rfl
  unfold Ends
  rw [hrun, sat_bind]
  exact Iff.rfl

section

variable {P : HarnessOp → Prop}

theorem performsOnly_store {o : StoreOp} (h : P (.store o)) : PerformsOnly P (store o) := ⟨h, fun _ => trivial⟩

theorem performsOnly_task {o : TaskOp} (h : P (.task o)) : PerformsOnly P (task o) := ⟨h, fun _ => trivial⟩

theorem performsOnly_adapter {o : AdapterOp} (h : P (.adapter o)) : PerformsOnly P (adapter o) :=
  ⟨h, fun _ => trivial⟩

theorem performsOnly_host {o : HostOp} (h : P (.host o)) : PerformsOnly P (host o) := ⟨h, fun _ => trivial⟩

end

/-! ## The persisted state -/

/-- The job that an event writes to the store. -/
def persisted? (e : HarnessEvent) : Option CadJob :=
  match e with
  | ⟨.store o, .ok _⟩ => o.job?
  | _ => none

/-- The state of the job as it was persisted last. -/
def persistedState (tr : List HarnessEvent) : Option JobState :=
  ((tr.filterMap persisted?).getLast?).map CadJob.state

@[simp] theorem persistedState_nil : persistedState [] = none := rfl

theorem persistedState_concat (tr : List HarnessEvent) (e : HarnessEvent) :
    persistedState (tr ++ [e]) = ((persisted? e).map CadJob.state).or (persistedState tr) := by
  unfold persistedState
  cases h : persisted? e with
  | none => simp [List.filterMap_append, h]
  | some job => simp [List.filterMap_append, h]

/-- Whether the event is the end of a run of the post-commit rules. -/
def ranPostCommit : HarnessEvent → Bool
  | ⟨.task (.runRules .postCommit _ _ _), _⟩ => true
  | _ => false

/-- Whether an exception, after the event before it, ends a commit with its job still committing. It is raised
by the audit of the start or of the remediation, by the clock of the lease, by the post-commit rules, or as
their report is saved. -/
def strands (last : Option HarnessEvent) : HarnessEvent → Bool
  | ⟨.task (.audit event), .error _⟩ => event.eventType = "COMMIT_STARTED" || event.eventType = "DRAWING_AUDITED"
  | ⟨.task .leaseClock, .error _⟩ => true
  | ⟨.task (.runRules .postCommit _ _ _), .error _⟩ => true
  | ⟨.store (.saveValidation _), .error _⟩ => last.any ranPostCommit
  | _ => false

/-- An exception that ends a commit with its job still committing was raised. -/
def Stranded (tr : List HarnessEvent) : Prop :=
  ∃ before e after, tr = before ++ e :: after ∧ strands before.getLast? e = true

theorem not_stranded_nil : ¬ Stranded [] := by
  rintro ⟨before, e, after, h, -⟩
  simp at h

theorem stranded_concat {e : HarnessEvent} :
    Stranded (tr ++ [e]) ↔ Stranded tr ∨ strands tr.getLast? e = true := by
  constructor
  · rintro ⟨before, e', after, h, hs⟩
    cases after using List.reverseRecOn with
    | nil =>
        obtain ⟨rfl, he⟩ := List.append_inj' h rfl
        obtain rfl := (List.cons.inj he).1
        exact .inr hs
    | append_singleton after d =>
        rw [← List.cons_append, ← List.append_assoc] at h
        obtain ⟨rfl, -⟩ := List.append_inj' h rfl
        exact .inl ⟨before, e', after, rfl, hs⟩
  · rintro (⟨before, e', after, rfl, hs⟩ | hs)
    · exact ⟨before, e', after ++ [e], by simp, hs⟩
    · exact ⟨tr, e, [], rfl, hs⟩

/-! ## Where a commit stands -/

/-- The job is committing, and nothing has stranded it yet. -/
structure Running (tr : List HarnessEvent) : Prop where
  state : persistedState tr = some .committing
  free : ¬ Stranded tr

/-- A job that is committed, failed or unknown. -/
def Settled (tr : List HarnessEvent) : Prop :=
  persistedState tr = some .committed ∨ persistedState tr = some .failed ∨
    persistedState tr = some .unknownCommitState

/-- The job is settled just when nothing has stranded it. -/
def Decided (tr : List HarnessEvent) : Prop :=
  (Settled tr ∧ ¬ Stranded tr) ∨ (persistedState tr = some .committing ∧ Stranded tr)

theorem Decided.settled_iff (h : Decided tr) : Settled tr ↔ ¬ Stranded tr := by
  rcases h with h | h
  · exact iff_of_true h.1 h.2
  · have hstate := h.1
    apply iff_of_false
    · simp [Settled, hstate]
    · exact not_not_intro h.2

/-- An event that neither writes a job nor can strand one. -/
def Idle (e : HarnessEvent) : Prop := persisted? e = none ∧ ∀ last, strands last e = false

theorem Running.idle {e : HarnessEvent} (h : Running tr) (he : Idle e) : Running (tr ++ [e]) where
  state := by rw [persistedState_concat, he.1]; exact h.state
  free := by
    rw [stranded_concat, he.2]
    simpa using h.free

theorem Decided.idle {e : HarnessEvent} (h : Decided tr) (he : Idle e) : Decided (tr ++ [e]) := by
  have hstate : persistedState (tr ++ [e]) = persistedState tr := by
    rw [persistedState_concat, he.1]
    rfl
  have hstranded : Stranded (tr ++ [e]) ↔ Stranded tr := by
    rw [stranded_concat, he.2]
    simp
  unfold Decided Settled
  rw [hstate, hstranded]
  exact h

/-- An exception that strands the job. -/
theorem Running.decided {e : HarnessEvent} (h : Running tr) (hp : persisted? e = none)
    (hs : strands tr.getLast? e = true) : Decided (tr ++ [e]) := by
  right
  rw [persistedState_concat, hp, stranded_concat]
  exact ⟨h.state, .inr hs⟩

/-! ## Steps of a commit -/

theorem Running.step {e : HarnessEvent} (h : Running tr) (hp : persisted? e = none)
    (hs : strands tr.getLast? e = false) : Running (tr ++ [e]) where
  state := by rw [persistedState_concat, hp]; exact h.state
  free := by
    rw [stranded_concat, hs]
    simpa using h.free

/-- A terminal state is written. -/
theorem Running.settled {o : StoreOp} {r : Except Exc o.Answer} {job : CadJob} (h : Running tr)
    (hr : o.job?.isSome → ∃ a, r = .ok a) (hjob : o.job? = some job)
    (hstate : job.state = .committed ∨ job.state = .failed ∨ job.state = .unknownCommitState) :
    Decided (tr ++ [⟨.store o, r⟩]) := by
  obtain ⟨a, rfl⟩ := hr (by simp [hjob])
  have hp : persisted? ⟨.store o, .ok a⟩ = some job := hjob
  left
  constructor
  · unfold Settled
    rw [persistedState_concat, hp]
    simpa using hstate
  · rw [stranded_concat]
    have hs : strands tr.getLast? ⟨.store o, .ok a⟩ = false := by
      cases o <;> rfl
    simpa [hs] using h.free

theorem idle_host (o : HostOp) (r : o.Answer) : Idle ⟨.host o, r⟩ := ⟨rfl, fun _ => rfl⟩

theorem idle_adapter (o : AdapterOp) (r : Except Exc o.Answer) : Idle ⟨.adapter o, r⟩ := ⟨rfl, fun _ => rfl⟩

theorem idle_task_ok (o : TaskOp) (a : o.Answer) : Idle ⟨.task o, .ok a⟩ := by
  constructor
  · rfl
  · intro last
    cases o with
    | runRules stage plan result jobId => cases stage <;> rfl
    | _ => rfl

theorem idle_audit {event : AuditEvent} (h : event.eventType ≠ "COMMIT_STARTED")
    (h' : event.eventType ≠ "DRAWING_AUDITED") (r : Except Exc Unit) : Idle ⟨.task (.audit event), r⟩ := by
  constructor
  · rfl
  · intro last
    cases r with
    | ok a => rfl
    | error e => simp [strands, h, h']

/-- What a commit does after it has written its outcome: it raises, and the outcome stays. -/
def Raises {α : Type} (m : HarnessM α) : Prop :=
  ∀ tr, Decided tr → Ends StoreWrites m tr (fun tr r => Decided tr ∧ ∃ e, r = .error e)

theorem Raises.throw {α : Type} (e : Exc) : Raises (throw e : HarnessM α) := fun _ h => ⟨h, e, rfl⟩

theorem Raises.noteReleased {α : Type} {m : HarnessM α} (hm : Raises m) (leaseId : String) (released : Bool) :
    Raises (do host (.noteReleased leaseId released); m) := by
  intro tr h
  rw [ends_bind, ends_host]
  intro r
  exact hm _ (h.idle (idle_host _ r))

theorem Raises.audit {α : Type} {m : HarnessM α} (hm : Raises m) {event : AuditEvent}
    (hevent : event.eventType = "COMMIT_FAILED") : Raises (do task (.audit event); m) := by
  intro tr h
  rw [ends_bind, ends_task]
  intro r
  have hnext : Decided (tr ++ [⟨.task (.audit event), r⟩]) :=
    h.idle (idle_audit (by simp [hevent]) (by simp [hevent]) r)
  cases r with
  | ok a => exact hm _ hnext
  | error e => exact ⟨hnext, e, rfl⟩

theorem Raises.ite {α : Type} {p : Prop} [Decidable p] {m n : HarnessM α} (hm : Raises m) (hn : Raises n) :
    Raises (if p then m else n) := by
  split
  · exact hm
  · exact hn

/-- The outcome is written, and then the commit raises. -/
theorem Running.raises {α : Type} {o : StoreOp} {m : o.Answer → HarnessM α} {job : CadJob} (h : Running tr)
    (hjob : o.job? = some job)
    (hstate : job.state = .committed ∨ job.state = .failed ∨ job.state = .unknownCommitState)
    (hm : ∀ a, Raises (m a)) :
    Ends StoreWrites (store o >>= m) tr (fun tr r => Decided tr ∧ ∃ e, r = .error e) := by
  rw [ends_bind, ends_store]
  intro r hr
  have hdecided : Decided (tr ++ [⟨.store o, r⟩]) := h.settled hr hjob hstate
  obtain ⟨a, rfl⟩ := hr (by simp [hjob])
  exact hm a _ hdecided

/-- What a block of a commit leaves: the job is still running if the block returns, and decided if it
raises. -/
def Continues {α : Type} (m : HarnessM α) : Prop :=
  ∀ tr, Running tr → Ends StoreWrites m tr (fun tr r =>
    match r with
    | .ok _ => Running tr
    | .error _ => Decided tr)

theorem Continues.pure {α : Type} (a : α) : Continues (pure a : HarnessM α) := fun _ h => h

theorem Continues.bind {α β : Type} {m : HarnessM α} {f : α → HarnessM β} (hm : Continues m)
    (hf : ∀ a, Continues (f a)) : Continues (m >>= f) := by
  intro tr h
  apply (hm tr h).seq
  · intro tr a htr
    exact hf a tr htr
  · intro tr e htr
    exact htr

theorem Continues.ite {p : Prop} [Decidable p] {m n : HarnessM α} (hm : Continues m) (hn : Continues n) :
    Continues (if p then m else n) := by
  split
  · exact hm
  · exact hn

theorem transitionTo_terminal {job job' : CadJob} {target : JobState} {updates : CadJob → CadJob}
    (h : job.transitionTo target updates = .ok job') : job'.state = target := by
  obtain ⟨-, rfl⟩ := CadJob.transitionTo_eq_ok.mp h
  rfl

/-- A committing job may end in each of the three states. -/
theorem transitionTo_committing {job : CadJob} (h : job.state = .committing) {target : JobState}
    (ht : target = .committed ∨ target = .failed ∨ target = .unknownCommitState) (updates : CadJob → CadJob) :
    job.transitionTo target updates = .ok { updates job with state := target } := by
  rw [CadJob.transitionTo_eq_ok, h]
  refine ⟨?_, rfl⟩
  rcases ht with rfl | rfl | rfl <;> decide

/-- What a block that cannot strand a commit leaves: the commit is running, whether it returns or raises. -/
def Keeps {α : Type} (m : HarnessM α) : Prop :=
  ∀ tr, Running tr → Ends StoreWrites m tr (fun tr _ => Running tr)

namespace Keeps

variable {α β : Type}

theorem pure (a : α) : Keeps (pure a : HarnessM α) := fun _ h => h

theorem throw (e : Exc) : Keeps (throw e : HarnessM α) := fun _ h => h

theorem bind {m : HarnessM α} {f : α → HarnessM β} (hm : Keeps m) (hf : ∀ a, Keeps (f a)) :
    Keeps (m >>= f) := by
  intro tr h
  apply (hm tr h).seq
  · intro tr a htr
    exact hf a tr htr
  · intro tr e htr
    exact htr

theorem ite {p : Prop} [Decidable p] {m n : HarnessM α} (hm : Keeps m) (hn : Keeps n) :
    Keeps (if p then m else n) := by
  split
  · exact hm
  · exact hn

theorem host (o : HostOp) : Keeps (host o) := by
  intro tr h
  rw [ends_host]
  intro r
  exact h.idle (idle_host o r)

/-- A task whose exception leaves the commit as it is. -/
theorem task {o : TaskOp} (ho : ∀ last e, strands last ⟨.task o, .error e⟩ = false) : Keeps (task o) := by
  intro tr h
  rw [ends_task]
  intro r
  cases r with
  | ok a => exact h.idle (idle_task_ok o a)
  | error e => exact h.idle ⟨rfl, fun last => ho last e⟩

/-- A request that only reads. -/
theorem store {o : StoreOp} (ho : o.job? = none) (hs : ∀ last r, strands last ⟨.store o, r⟩ = false) :
    Keeps (store o) := by
  intro tr h
  rw [ends_store]
  intro r _
  apply h.idle
  refine ⟨?_, fun last => hs last r⟩
  cases r with
  | ok a => exact ho
  | error e => rfl

/-- The report of an audit is saved, and the exception of that strands nothing. -/
theorem audited {readback : Readback} {jobId : String} {layers : List (String × String)}
    {f : ValidationReport → HarnessM β} (hf : ∀ report, Keeps (f report)) :
    Keeps (do
      let report ← Service.task (.auditDrawing readback jobId layers)
      Service.store (.saveValidation report)
      f report) := by
  intro tr h
  rw [ends_bind, ends_task]
  intro r
  cases r with
  | error e => exact h.step rfl rfl
  | ok report =>
      have haudit := h.idle (idle_task_ok (.auditDrawing readback jobId layers) report)
      dsimp only
      rw [ends_bind, ends_store]
      intro saved _
      cases saved with
      | error e => exact haudit.step rfl (by rw [List.getLast?_concat]; rfl)
      | ok u => exact hf report _ (haudit.step rfl rfl)

end Keeps

end CadHarness.Service
