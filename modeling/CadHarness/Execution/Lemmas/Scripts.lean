import CadHarness.Execution.AtomicJobExecutor

/-!
# Scripts of calls

The job asks the host for one thing after the other and stops at the first that fails.
-/

namespace CadHarness.Execution
open CadHarness.Lib Prog

variable {Operation α β : Type}

/-! ## Runs -/

abbrev Event (Operation : Type) := Performed (hostSig Operation)

abbrev Host (Operation : Type) := Prog.World (hostSig Operation)

/-- The run of a part of the executor from a state. -/
def run (host : Host Operation) (m : ExecutorM Operation α) (s : ExecutionState) (tr : List (Event Operation)) :
    List (Event Operation) × Except Fault α × ExecutionState :=
  (m.run.run s).runWith host tr

section

variable {host : Host Operation} {s : ExecutionState} {tr : List (Event Operation)}

@[simp] theorem run_pure (a : α) : run host (pure a) s tr = (tr, .ok a, s) := rfl

@[simp] theorem run_throw (fault : Fault) : run host (throw fault : ExecutorM Operation α) s tr = (tr, .error fault, s) :=
  rfl

@[simp] theorem run_get : run host (get : ExecutorM Operation ExecutionState) s tr = (tr, .ok s, s) := rfl

@[simp] theorem run_update (f : ExecutionState → ExecutionState) :
    run host (update f : ExecutorM Operation Unit) s tr = (tr, .ok (), f s) := rfl

@[simp] theorem run_ask (o : HostCall Operation) :
    run host (ask o) s tr = (tr ++ [⟨o, host tr o⟩], .ok (host tr o), s) := rfl

theorem run_bind (m : ExecutorM Operation α) (f : α → ExecutorM Operation β) :
    run host (m >>= f) s tr = match run host m s tr with
      | (tr, .ok a, s) => run host (f a) s tr
      | (tr, .error fault, s) => (tr, .error fault, s) := by
  have hrun : (m >>= f).run.run s = m.run.run s >>= fun r =>
      match r with
      | (.ok a, s) => (f a).run.run s
      | (.error fault, s) => pure (.error fault, s) := by
    change (m.run.run s >>= fun r => _) = _
    congr
    funext r
    rcases r with ⟨_ | _, _⟩ <;> rfl
  unfold run
  rw [hrun, runWith_bind]
  rcases (m.run.run s).runWith host tr with ⟨tr, _ | _, s⟩ <;> rfl

theorem run_catching (m : ExecutorM Operation α) (handler : Fault → ExecutorM Operation α) :
    run host (catching m handler) s tr = match run host m s tr with
      | (tr, .ok a, s) => (tr, .ok a, s)
      | (tr, .error fault, s) => run host (handler fault) s tr := by
  have hrun : (catching m handler).run.run s = m.run.run s >>= fun r =>
      match r with
      | (.ok a, s) => pure (.ok a, s)
      | (.error fault, s) => (handler fault).run.run s := by
    change (m.run.run s >>= fun r => _) = _
    congr
    funext r
    rcases r with ⟨_ | _, _⟩ <;> rfl
  unfold run
  rw [hrun, runWith_bind]
  rcases (m.run.run s).runWith host tr with ⟨tr, _ | _, s⟩ <;> rfl

theorem run_tryFinally (m : ExecutorM Operation α) (cleanup : ExecutorM Operation Unit) :
    run host (tryFinally m cleanup) s tr = match run host m s tr with
      | (tr, r, s) => match run host cleanup s tr with
        | (tr, .ok _, s) => (tr, r, s)
        | (tr, .error fault, s) => (tr, .error fault, s) := by
  have hrun : (tryFinally m cleanup).run.run s = m.run.run s >>= fun r =>
      cleanup.run.run r.2 >>= fun c =>
        match c with
        | (.ok (), s) => pure (r.1, s)
        | (.error fault, s) => pure (.error fault, s) := by
    change (m.run.run s >>= fun r => cleanup.run.run r.2 >>= fun c => _) = _
    congr
    funext r
    congr
    funext c
    rcases c with ⟨_ | _, _⟩ <;> rfl
  unfold run
  rw [hrun, runWith_bind, runWith_bind]
  rcases (m.run.run s).runWith host tr with ⟨tr, r, s⟩
  dsimp only
  rcases (cleanup.run.run s).runWith host tr with ⟨tr, _ | _, s⟩ <;> rfl

end

/-! ## Events -/

/-- Whether what was asked for was done: a scope was returned, no cancellation was requested, nothing was raised. -/
def succeeded : Event Operation → Bool
  | ⟨.acquire _, .ok true⟩ | ⟨.isCancellationRequested, false⟩ | ⟨.act _, .ok ()⟩ => true
  | _ => false

def calls (tr : List (Event Operation)) : List (HostCall Operation) := tr.map Performed.op

/-- Whether the host returned this scope. -/
def acquiredIn (tr : List (Event Operation)) (scope : Scope) : Prop := ⟨.acquire scope, .ok true⟩ ∈ tr

/-- Whether the state knows the scope to be held. -/
def ExecutionState.holds (s : ExecutionState) : Scope → Bool
  | .documentLock => s.documentLock
  | .undoGroup => s.undoGroup
  | .transaction => s.transaction

/-- The state knows what the calls have acquired, and whether they have committed. -/
structure Tracks (s : ExecutionState) (es : List (Event Operation)) (s' : ExecutionState) : Prop where
  holds : ∀ scope, s'.holds scope = true ↔ s.holds scope = true ∨ acquiredIn es scope
  commitStarted : s'.commitStarted = true ↔ s.commitStarted = true ∨ .act .commit ∈ calls es

@[simp] theorem calls_append (tr es : List (Event Operation)) : calls (tr ++ es) = calls tr ++ calls es := List.map_append

theorem acquiredIn_append {tr es : List (Event Operation)} {scope : Scope} :
    acquiredIn (tr ++ es) scope ↔ acquiredIn tr scope ∨ acquiredIn es scope := List.mem_append

theorem Tracks.refl (s : ExecutionState) : @Tracks Operation s [] s where
  holds scope := by simp [acquiredIn]
  commitStarted := by simp [calls]

theorem Tracks.trans {s s₁ s₂ : ExecutionState} {es es' : List (Event Operation)} (h : Tracks s es s₁)
    (h' : Tracks s₁ es' s₂) : Tracks s (es ++ es') s₂ where
  holds scope := by rw [h'.holds, h.holds, acquiredIn_append, or_assoc]
  commitStarted := by rw [h'.commitStarted, h.commitStarted, calls_append, List.mem_append, or_assoc]

/-- A change of the state that neither holds a scope nor commits. -/
theorem Tracks.update {s s₁ s₂ : ExecutionState} {es : List (Event Operation)} (h : Tracks s es s₁)
    (hholds : s₂.holds = s₁.holds) (hcommit : s₂.commitStarted = s₁.commitStarted) : Tracks s es s₂ where
  holds scope := by rw [hholds, h.holds]
  commitStarted := by rw [hcommit, h.commitStarted]

/-! ## Scripts -/

/-- A part of the job asks for these things in their order, as long as each of them is done. Then it returns what
`P` accepts, otherwise it raises. -/
def Script (m : ExecutorM Operation α) (script : List (HostCall Operation)) (P : α → Prop) : Prop :=
  ∀ (host : Host Operation) (s : ExecutionState) (tr : List (Event Operation)), ∃ es s', Tracks s es s' ∧
    ((∃ a, run host m s tr = (tr ++ es, .ok a, s') ∧ P a ∧ calls es = script ∧ ∀ e ∈ es, succeeded e = true) ∨
      ∃ fault before e, run host m s tr = (tr ++ es, .error fault, s') ∧ es = before ++ [e] ∧
        calls es <+: script ∧ (∀ e ∈ before, succeeded e = true) ∧ succeeded e = false)

namespace Script

variable {m : ExecutorM Operation α} {f : α → ExecutorM Operation β} {script script' : List (HostCall Operation)}
  {P : α → Prop} {Q : β → Prop}

theorem pure {a : α} (h : P a) : Script (pure a : ExecutorM Operation α) [] P := by
  intro host s tr
  exact ⟨[], s, .refl s, .inl ⟨a, by simp, h, rfl, by simp⟩⟩

theorem get : Script (get : ExecutorM Operation ExecutionState) [] (fun _ => True) := by
  intro host s tr
  exact ⟨[], s, .refl s, .inl ⟨s, by simp, trivial, rfl, by simp⟩⟩

theorem update {f : ExecutionState → ExecutionState} (hholds : ∀ s, (f s).holds = s.holds)
    (hcommit : ∀ s, (f s).commitStarted = s.commitStarted) :
    Script (Execution.update f : ExecutorM Operation Unit) [] (fun _ => True) := by
  intro host s tr
  exact ⟨[], f s, (Tracks.refl s).update (hholds s) (hcommit s), .inl ⟨(), by simp, trivial, rfl, by simp⟩⟩

theorem bind (hm : Script m script P) (hf : ∀ a, P a → Script (f a) script' Q) :
    Script (m >>= f) (script ++ script') Q := by
  intro host s tr
  obtain ⟨es, s₁, htracks, h⟩ := hm host s tr
  rcases h with ⟨a, hrun, ha, hcalls, hdone⟩ | ⟨fault, before, e, hrun, hes, hprefix, hdone, hfailed⟩
  · obtain ⟨es', s₂, htracks', h'⟩ := hf a ha host s₁ (tr ++ es)
    refine ⟨es ++ es', s₂, htracks.trans htracks', ?_⟩
    rcases h' with ⟨b, hrun', hb, hcalls', hdone'⟩ | ⟨fault, before, e, hrun', hes', hprefix, hdone', hfailed⟩
    · left
      refine ⟨b, ?_, hb, by rw [calls_append, hcalls, hcalls'], ?_⟩
      · rw [run_bind, hrun, ← List.append_assoc]
        exact hrun'
      · intro e he
        exact (List.mem_append.mp he).elim (hdone e) (hdone' e)
    · right
      refine ⟨fault, es ++ before, e, ?_, ?_, ?_, ?_, hfailed⟩
      · rw [run_bind, hrun, ← List.append_assoc]
        exact hrun'
      · rw [hes', List.append_assoc]
      · rw [calls_append, hcalls]
        exact (List.prefix_append_right_inj script).mpr hprefix
      · intro e he
        exact (List.mem_append.mp he).elim (hdone e) (hdone' e)
  · refine ⟨es, s₁, htracks, .inr ⟨fault, before, e, ?_, hes, ?_, hdone, hfailed⟩⟩
    · rw [run_bind, hrun]
    · exact hprefix.trans (List.prefix_append script script')

/-- One thing is asked for before the rest. -/
theorem cons {m : ExecutorM Operation Unit} {n : ExecutorM Operation β} {call : HostCall Operation}
    (hm : Script m [call] (fun _ => True)) (hn : Script n script Q) :
    Script (m >>= fun _ => n) (call :: script) Q :=
  hm.bind (fun _ _ => hn)

theorem after {m : ExecutorM Operation Unit} {n : ExecutorM Operation β} (hm : Script m script (fun _ => True))
    (hn : Script n script' Q) : Script (m >>= fun _ => n) (script ++ script') Q :=
  hm.bind (fun _ _ => hn)

/-- The state is changed before the rest. -/
theorem updated {f : ExecutionState → ExecutionState} {n : ExecutorM Operation β}
    (hholds : ∀ s, (f s).holds = s.holds) (hcommit : ∀ s, (f s).commitStarted = s.commitStarted)
    (hn : Script n script Q) : Script (Execution.update f >>= fun _ => n) script Q :=
  (update hholds hcommit).bind (fun _ _ => hn)

theorem staged {stage : AtomicExecutionStage} {n : ExecutorM Operation β} (hn : Script n script Q) :
    Script (setStage stage >>= fun _ => n) script Q :=
  updated (fun _ => rfl) (fun _ => rfl) hn

theorem ite {p : Prop} [Decidable p] {m n : ExecutorM Operation α} (hm : Script m script P) (hn : Script n script' P) :
    Script (if p then m else n) (if p then script else script') P := by
  split
  · exact hm
  · exact hn

end Script

/-! ## The job -/

section

variable (callbacks : Callbacks)

def dispatchScript (operations : List Operation) : List (HostCall Operation) :=
  operations.flatMap fun operation => [.isCancellationRequested, .act (.dispatch operation)]

/-- What the job asks for up to the commit, and from it on. -/
def beforeCommit (operations : List Operation) : List (HostCall Operation) :=
  .acquire .documentLock ::
    ((if callbacks.validateLockedDocument then [.isCancellationRequested, .act .validateLockedDocument] else []) ++
      [.acquire .undoGroup, .acquire .transaction] ++ dispatchScript operations ++
        [.isCancellationRequested, .act .validate, .isCancellationRequested])

def fromCommit : List (HostCall Operation) :=
  .act .commit :: ((if callbacks.observeCommittedDocument then [.act .observeCommittedDocument] else []) ++
    [.act .complete])

end

/-- A single call, after which the state is as `hrun` says. -/
theorem Script.single {m : ExecutorM Operation Unit} {call : HostCall Operation}
    (h : ∀ (host : Host Operation) (s : ExecutionState) (tr : List (Event Operation)), ∃ s',
      Tracks s [⟨call, host tr call⟩] s' ∧
        ((run host m s tr = (tr ++ [⟨call, host tr call⟩], .ok (), s') ∧ succeeded ⟨call, host tr call⟩ = true) ∨
          ∃ fault, run host m s tr = (tr ++ [⟨call, host tr call⟩], .error fault, s') ∧
            succeeded ⟨call, host tr call⟩ = false)) : Script m [call] (fun _ => True) := by
  intro host s tr
  obtain ⟨s', htracks, h⟩ := h host s tr
  refine ⟨[⟨call, host tr call⟩], s', htracks, ?_⟩
  rcases h with ⟨hrun, hdone⟩ | ⟨fault, hrun, hfailed⟩
  · exact .inl ⟨(), hrun, trivial, rfl, by simpa using hdone⟩
  · exact .inr ⟨fault, [], _, hrun, rfl, List.prefix_rfl, by simp, hfailed⟩

/-- An event that neither acquires nor commits leaves the state as it is. -/
theorem Tracks.idle {s s' : ExecutionState} {e : Event Operation} (hholds : s'.holds = s.holds)
    (hcommit : s'.commitStarted = s.commitStarted) (hscope : ∀ scope, ¬ acquiredIn [e] scope)
    (he : .act .commit ∉ calls [e]) : Tracks s [e] s' where
  holds scope := by simp [hholds, hscope scope]
  commitStarted := by simp [hcommit, he]

theorem checkpoint_script :
    Script (checkpoint : ExecutorM Operation Unit) [.isCancellationRequested] (fun _ => True) := by
  apply Script.single
  intro host s tr
  refine ⟨{ s with cancellationCheckpoints := s.cancellationCheckpoints + 1 }, ?_, ?_⟩
  · exact .idle rfl rfl (by simp [acquiredIn]) (by simp [calls])
  · unfold checkpoint
    rw [run_bind, run_update]
    dsimp only
    rw [run_bind, run_ask]
    dsimp only
    cases host tr .isCancellationRequested with
    | false => exact .inl ⟨rfl, rfl⟩
    | true => exact .inr ⟨.operationCanceled, rfl, rfl⟩

theorem run_invoke {host : Host Operation} {s : ExecutionState} {tr : List (Event Operation)}
    (action : HostAction Operation) :
    (run host (invoke action) s tr = (tr ++ [⟨.act action, host tr (.act action)⟩], .ok (), s) ∧
        succeeded ⟨.act action, host tr (.act action)⟩ = true) ∨
      ∃ fault, run host (invoke action) s tr = (tr ++ [⟨.act action, host tr (.act action)⟩], .error fault, s) ∧
        succeeded ⟨.act action, host tr (.act action)⟩ = false := by
  unfold invoke
  rw [run_bind, run_ask]
  dsimp only
  cases host tr (.act action) with
  | ok u => exact .inl ⟨rfl, rfl⟩
  | error fault => exact .inr ⟨fault, rfl, rfl⟩

/-- An action other than the commit. -/
theorem invoke_script {action : HostAction Operation} (h : action ≠ .commit) :
    Script (invoke action) [.act action] (fun _ => True) := by
  apply Script.single
  intro host s tr
  exact ⟨s, .idle rfl rfl (by simp [acquiredIn]) (by simpa [calls] using h.symm), run_invoke action⟩

theorem commitTransaction_script :
    Script (commitTransaction : ExecutorM Operation Unit) [.act .commit] (fun _ => True) := by
  apply Script.single
  intro host s tr
  refine ⟨{ s with commitStarted := true, transactionCommitsStarted := s.transactionCommitsStarted + 1 }, ?_, ?_⟩
  · constructor
    · intro scope
      simp only [acquiredIn, List.mem_singleton, reduceCtorEq, Performed.mk.injEq, false_and, or_false]
      cases scope <;> rfl
    · simp [calls]
  · unfold commitTransaction
    rw [run_bind, run_update]
    exact run_invoke _

theorem acquire_script (scope : Scope) {held : ExecutionState → ExecutionState}
    (hholds : ∀ s x, (held s).holds x = true ↔ s.holds x = true ∨ x = scope)
    (hcommit : ∀ s, (held s).commitStarted = s.commitStarted) :
    Script (acquire scope held : ExecutorM Operation Unit) [.acquire scope] (fun _ => True) := by
  apply Script.single
  intro host s tr
  have hrun : run host (acquire scope held) s tr = match host tr (.acquire scope) with
      | .ok true => (tr ++ [⟨.acquire scope, host tr (.acquire scope)⟩], .ok (), held s)
      | .ok false => (tr ++ [⟨.acquire scope, host tr (.acquire scope)⟩], .error .other, s)
      | .error fault => (tr ++ [⟨.acquire scope, host tr (.acquire scope)⟩], .error fault, s) := by
    unfold acquire
    rw [run_bind, run_ask]
    dsimp only
    rcases host tr (.acquire scope) with fault | _ | _ <;> rfl
  rw [hrun]
  rcases host tr (.acquire scope) with fault | _ | _
  · exact ⟨s, .idle rfl rfl (by simp [acquiredIn]) (by simp [calls]), .inr ⟨fault, rfl, rfl⟩⟩
  · exact ⟨s, .idle rfl rfl (by simp [acquiredIn]) (by simp [calls]), .inr ⟨.other, rfl, rfl⟩⟩
  · refine ⟨held s, ?_, .inl ⟨rfl, rfl⟩⟩
    constructor
    · intro x
      rw [hholds]
      simp [acquiredIn]
    · rw [hcommit]
      simp [calls]

theorem acquireDocumentLock_script :
    Script (acquireDocumentLock : ExecutorM Operation Unit) [.acquire .documentLock] (fun _ => True) :=
  acquire_script _ (by rintro s (_ | _ | _) <;> simp [ExecutionState.holds]) (fun _ => rfl)

theorem beginUndoGroup_script :
    Script (beginUndoGroup : ExecutorM Operation Unit) [.acquire .undoGroup] (fun _ => True) :=
  acquire_script _ (by rintro s (_ | _ | _) <;> simp [ExecutionState.holds]) (fun _ => rfl)

theorem beginTransaction_script :
    Script (beginTransaction : ExecutorM Operation Unit) [.acquire .transaction] (fun _ => True) :=
  acquire_script _ (by rintro s (_ | _ | _) <;> simp [ExecutionState.holds]) (fun _ => rfl)

/-! ## The script of the job -/

theorem dispatchAll_script (operations : List Operation) :
    Script (dispatchAll operations) (dispatchScript operations) (fun _ => True) := by
  induction operations with
  | nil => exact Script.pure trivial
  | cons operation operations ih =>
      apply Script.staged
      apply checkpoint_script.cons
      apply (invoke_script (by simp)).cons
      exact Script.updated (fun _ => rfl) (fun _ => rfl) ih

theorem validateLocked_script (callbacks : Callbacks) :
    Script (validateLocked callbacks : ExecutorM Operation Unit)
      (if callbacks.validateLockedDocument then [.isCancellationRequested, .act .validateLockedDocument] else [])
      (fun _ => True) := by
  apply Script.ite
  · apply Script.staged
    exact checkpoint_script.cons (invoke_script (by simp))
  · exact Script.pure trivial

theorem observeCommitted_script (callbacks : Callbacks) :
    Script (observeCommitted callbacks : ExecutorM Operation Unit)
      (if callbacks.observeCommittedDocument then [.act .observeCommittedDocument] else []) (fun _ => True) := by
  apply Script.ite
  · exact Script.staged (invoke_script (by simp))
  · exact Script.pure trivial

theorem runJob_script (operations : List Operation) (callbacks : Callbacks) :
    Script (runJob operations callbacks) (beforeCommit callbacks operations ++ fromCommit callbacks)
      (fun result => result.outcome = .committed) := by
  unfold beforeCommit fromCommit
  simp only [List.cons_append, List.append_assoc, List.nil_append]
  apply Script.staged
  apply acquireDocumentLock_script.cons
  apply (validateLocked_script callbacks).after
  apply Script.staged
  apply beginUndoGroup_script.cons
  apply Script.staged
  apply beginTransaction_script.cons
  apply (dispatchAll_script operations).after
  apply Script.staged
  apply checkpoint_script.cons
  apply (invoke_script (by simp)).cons
  apply Script.staged
  apply checkpoint_script.cons
  apply commitTransaction_script.cons
  refine Script.updated (fun _ => rfl) (fun _ => rfl) ?_
  apply (observeCommitted_script callbacks).after
  apply Script.staged
  apply (invoke_script (by simp)).cons
  refine Script.updated (fun _ => rfl) (fun _ => rfl) ?_
  apply Script.staged
  exact Script.get.bind (fun _ _ => Script.pure rfl)

end CadHarness.Execution
