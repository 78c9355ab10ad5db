import CadHarness.Execution.Lemmas.Scripts
import Mathlib.Data.List.Sublists

/-!
# The outcome of an atomic job

Whatever the host and the callbacks do, the outcome says whether the commit was invoked, and every scope that
was acquired is undone or committed, and disposed.
-/

namespace CadHarness.Execution
open CadHarness.Lib Prog

variable {Operation : Type} {host : Host Operation} {s : ExecutionState} {tr : List (Event Operation)}

/-! ## The clean-up -/

/-- The same scopes are held, and the commit has started or not as before. -/
structure Keeps (s s' : ExecutionState) : Prop where
  documentLock : s'.documentLock = s.documentLock
  undoGroup : s'.undoGroup = s.undoGroup
  transaction : s'.transaction = s.transaction
  commitStarted : s'.commitStarted = s.commitStarted

theorem Keeps.refl (s : ExecutionState) : Keeps s s := ⟨rfl, rfl, rfl, rfl⟩

theorem Keeps.trans {s s₁ s₂ : ExecutionState} (h : Keeps s s₁) (h' : Keeps s₁ s₂) : Keeps s s₂ where
  documentLock := h'.documentLock.trans h.documentLock
  undoGroup := h'.undoGroup.trans h.undoGroup
  transaction := h'.transaction.trans h.transaction
  commitStarted := h'.commitStarted.trans h.commitStarted

theorem undo_run (held : Bool) {action : HostAction Operation} {count : ExecutionState → ExecutionState}
    (hcount : Keeps s (count s)) : ∃ es failed s',
      run host (undo held action count) s tr = (tr ++ es, .ok failed, s') ∧ Keeps s s' ∧
        calls es = if held then [.act action] else [] := by
  cases held with
  | false => exact ⟨[], false, s, by simp [undo], .refl s, rfl⟩
  | true =>
      unfold undo
      rw [if_pos rfl, run_bind, run_ask]
      dsimp only
      rcases host tr (.act action) with fault | u
      · exact ⟨_, true, s, rfl, .refl s, rfl⟩
      · exact ⟨_, false, count s, rfl, hcount, rfl⟩

/-- What is undone of the scopes that are held. -/
def undoing (s : ExecutionState) : List (HostCall Operation) :=
  (if s.transaction then [.act .abort] else []) ++ (if s.undoGroup then [.act .rollback] else [])

theorem unknown_outcome (s : ExecutionState) : (unknown s).outcome = .unknownCommitState := by
  simp [unknown, failure]

theorem failure_outcome {kind : AtomicFailureKind} {code : String} {retryable : Bool} (h : code ≠ unknownCommitCode) :
    (failure s kind code retryable).outcome = .failed := if_neg h

theorem rollBackBeforeCommit_run (kind : AtomicFailureKind) : ∃ es result s',
    run host (rollBackBeforeCommit kind) s tr = (tr ++ es, .ok result, s') ∧ Keeps s s' ∧
      calls es = undoing s ∧ result.outcome = .failed := by
  obtain ⟨es, abortFailed, s₁, habort, hkeeps, hcalls⟩ := @undo_run _ host s tr s.transaction .abort
    (fun s => { s with transactionAborts := s.transactionAborts + 1 }) ⟨rfl, rfl, rfl, rfl⟩
  obtain ⟨es', rollbackFailed, s₂, hrollback, hkeeps', hcalls'⟩ := @undo_run _ host s₁ (tr ++ es) s₁.undoGroup .rollback
    (fun s => { s with undoGroupsRolledBack := s.undoGroupsRolledBack + 1 }) ⟨rfl, rfl, rfl, rfl⟩
  rw [hkeeps.undoGroup] at hcalls'
  have hcode : (if kind = .cancelled then cancelledCode else failedCode) ≠ unknownCommitCode := by
    split <;> decide
  refine ⟨es ++ es', if abortFailed || rollbackFailed then failure s₂ .rollbackFailure failedCode else
    failure s₂ kind (if kind = .cancelled then cancelledCode else failedCode) (decide (kind = .cancelled)), s₂, ?_,
    hkeeps.trans hkeeps', ?_, ?_⟩
  · unfold rollBackBeforeCommit
    rw [run_bind, run_get]
    dsimp only
    rw [run_bind, habort]
    dsimp only
    rw [run_bind, run_get]
    dsimp only
    rw [run_bind, hrollback, List.append_assoc]
    dsimp only
    cases abortFailed || rollbackFailed <;> rfl
  · rw [calls_append, hcalls, hcalls', undoing]
  · split
    · exact failure_outcome (by decide)
    · exact failure_outcome hcode

/-- What is raised before the commit is undone, what is raised after it leaves the outcome unknown. -/
theorem recover_run (fault : Fault) : ∃ es result s',
    run host (recover fault) s tr = (tr ++ es, .ok result, s') ∧ Keeps s s' ∧
      ((s.commitStarted = true ∧ calls es = [] ∧ result.outcome = .unknownCommitState) ∨
        (s.commitStarted = false ∧ calls es = undoing s ∧ result.outcome = .failed)) := by
  unfold recover
  rw [run_bind, run_get]
  dsimp only
  cases hcommit : s.commitStarted with
  | true => exact ⟨[], unknown s, s, by simp, .refl s, .inl ⟨rfl, rfl, unknown_outcome s⟩⟩
  | false =>
      obtain ⟨es, result, s', hrun, hkeeps, hcalls, houtcome⟩ :=
        @rollBackBeforeCommit_run _ host s tr (classifyPreCommitFailure s.stage fault)
      exact ⟨es, result, s', hrun, hkeeps, .inr ⟨rfl, hcalls, houtcome⟩⟩

/-! ## Disposal -/

/-- The scopes that are held, the one that was acquired last first. -/
def heldScopes (s : ExecutionState) : List Scope :=
  (if s.transaction then [.transaction] else []) ++
    ((if s.undoGroup then [.undoGroup] else []) ++ (if s.documentLock then [.documentLock] else []))

/-- A part that disposes of these scopes, and raises when one of them does. -/
def Disposes (host : Host Operation) (s : ExecutionState) (m : ExecutorM Operation Unit) (scopes : List Scope) : Prop :=
  ∀ tr, ∃ es r, run host m s tr = (tr ++ es, r, s) ∧ calls es = scopes.map (fun x => HostCall.act (.dispose x)) ∧
    (r = .ok () ↔ ∀ e ∈ es, succeeded e = true)

theorem dispose_run (held : Bool) (scope : Scope) :
    Disposes host s (dispose held scope) (if held then [scope] else []) := by
  intro tr
  cases held with
  | false => exact ⟨[], .ok (), by simp [dispose], rfl, by simp⟩
  | true =>
      unfold dispose
      rw [if_pos rfl]
      rcases @run_invoke _ host s tr (.dispose scope) with ⟨hrun, hdone⟩ | ⟨fault, hrun, hfailed⟩
      · exact ⟨_, .ok (), hrun, rfl, by simpa using hdone⟩
      · exact ⟨_, .error fault, hrun, rfl, by simpa using hfailed⟩

/-- The second part is run whatever the first does. -/
theorem Disposes.tryFinally {m cleanup : ExecutorM Operation Unit} {scopes scopes' : List Scope}
    (hm : Disposes host s m scopes) (hcleanup : Disposes host s cleanup scopes') :
    Disposes host s (tryFinally m cleanup) (scopes ++ scopes') := by
  intro tr
  obtain ⟨es, r, hrun, hcalls, hdone⟩ := hm tr
  obtain ⟨es', r', hrun', hcalls', hdone'⟩ := hcleanup (tr ++ es)
  rw [List.append_assoc] at hrun'
  rw [run_tryFinally, hrun]
  dsimp only
  rw [hrun', List.map_append, ← hcalls, ← hcalls', ← calls_append]
  cases r' with
  | ok u =>
      refine ⟨es ++ es', r, rfl, rfl, ?_⟩
      rw [hdone, List.forall_mem_append]
      exact (and_iff_left (hdone'.mp rfl)).symm
  | error fault =>
      refine ⟨es ++ es', .error fault, rfl, rfl, iff_of_false (by simp) ?_⟩
      intro h
      have herror := hdone'.mpr (List.forall_mem_append.mp h).2
      simp at herror

theorem disposeScopes_run : Disposes host s disposeScopes (heldScopes s) := by
  apply Disposes.tryFinally (dispose_run s.transaction .transaction)
  exact (dispose_run s.undoGroup .undoGroup).tryFinally (dispose_run s.documentLock .documentLock)

/-! ## The callback -/

/-- What the callback did: the job as far as it came, what was undone of it, and the disposal of what it held. -/
structure CallbackRun (operations : List Operation) (callbacks : Callbacks) (job undone disposed : List (Event Operation))
    (r : Except Fault AtomicExecutionResult) (s : ExecutionState) : Prop where
  tracks : Tracks {} job s
  prefix_script : calls job <+: beforeCommit callbacks operations ++ fromCommit callbacks
  disposed_calls : calls disposed = (heldScopes s).map (fun x => HostCall.act (.dispose x))
  disposed_iff : r.isOk = true ↔ ∀ e ∈ disposed, succeeded e = true
  outcome : (calls job = beforeCommit callbacks operations ++ fromCommit callbacks ∧ (∀ e ∈ job, succeeded e = true) ∧
      undone = [] ∧ ∀ result, r = .ok result → result.outcome = .committed) ∨
    (∃ e ∈ job, succeeded e = false) ∧
      ((s.commitStarted = true ∧ calls undone = [] ∧ ∀ result, r = .ok result → result.outcome = .unknownCommitState) ∨
        (s.commitStarted = false ∧ calls undone = undoing s ∧ ∀ result, r = .ok result → result.outcome = .failed))

theorem Keeps.heldScopes_eq {s s' : ExecutionState} (h : Keeps s s') : heldScopes s' = heldScopes s := by
  unfold heldScopes
  rw [h.transaction, h.undoGroup, h.documentLock]

theorem Keeps.undoing_eq {s s' : ExecutionState} (h : Keeps s s') :
    @undoing Operation s' = undoing s := by
  unfold undoing
  rw [h.transaction, h.undoGroup]

theorem Keeps.holds_eq {s s' : ExecutionState} (h : Keeps s s') : s'.holds = s.holds := by
  funext scope
  cases scope with
  | documentLock => exact h.documentLock
  | undoGroup => exact h.undoGroup
  | transaction => exact h.transaction

theorem isOk_replaced {r : Except Fault Unit} {result : AtomicExecutionResult} :
    (r.map fun _ => result).isOk = true ↔ r = .ok () := by
  cases r <;> simp [Except.map, Except.isOk, Except.toBool]

theorem eq_of_replaced {r : Except Fault Unit} {result result' : AtomicExecutionResult}
    (h : (r.map fun _ => result) = .ok result') : result' = result := by
  cases r with
  | ok u => exact (Except.ok.inj h).symm
  | error fault => simp [Except.map] at h

theorem executeInCommandContext_run (operations : List Operation) (callbacks : Callbacks) (tr : List (Event Operation)) :
    ∃ job undone disposed r s',
      run host (executeInCommandContext operations callbacks) {} tr = (tr ++ (job ++ undone ++ disposed), r, s') ∧
        CallbackRun operations callbacks job undone disposed r s' := by
  let entered : ExecutionState := { commandContextEntries := 1 }
  have hstart : run host (executeInCommandContext operations callbacks) {} tr =
      run host (tryFinally (catching (runJob operations callbacks) recover) disposeScopes) entered tr := rfl
  rw [hstart, run_tryFinally, run_catching]
  obtain ⟨job, s₁, htracks, h⟩ := runJob_script operations callbacks host entered tr
  have htracks₁ : Tracks {} job s₁ := ⟨htracks.holds, htracks.commitStarted⟩
  rcases h with ⟨result, hrun, hresult, hcalls, hdone⟩ | ⟨fault, before, e, hrun, hes, hprefix, hdone, hfailed⟩
  · obtain ⟨disposed, r, hdispose, hdisposed, hr⟩ := @disposeScopes_run _ host s₁ (tr ++ job)
    rw [hrun]
    dsimp only
    rw [hdispose]
    refine ⟨job, [], disposed, r.map (fun _ => result), s₁, ?_, htracks₁, ?_, hdisposed, ?_, .inl ⟨hcalls, hdone, rfl, ?_⟩⟩
    · cases r <;> simp [Except.map]
    · exact ⟨[], (List.append_nil _).trans hcalls⟩
    · rw [isOk_replaced, hr]
    · intro result' h
      rw [eq_of_replaced h, hresult]
  · have hbroke : ∃ e ∈ job, succeeded e = false := ⟨e, by simp [hes], hfailed⟩
    obtain ⟨undone, result, s₂, hrecover, hkeeps, houtcome⟩ := @recover_run _ host s₁ (tr ++ job) fault
    obtain ⟨disposed, r, hdispose, hdisposed, hr⟩ := @disposeScopes_run _ host s₂ (tr ++ job ++ undone)
    rw [hrun]
    dsimp only
    rw [hrecover]
    dsimp only
    rw [hdispose]
    refine ⟨job, undone, disposed, r.map (fun _ => result), s₂, ?_, htracks₁.update hkeeps.holds_eq hkeeps.commitStarted,
      hprefix, hdisposed, ?_, .inr ⟨hbroke, ?_⟩⟩
    · cases r <;> simp [Except.map]
    · rw [isOk_replaced, hr]
    · rw [hkeeps.commitStarted, hkeeps.undoing_eq]
      rcases houtcome with ⟨hcommit, hcalls, heq⟩ | ⟨hcommit, hcalls, heq⟩
      · exact .inl ⟨hcommit, hcalls, fun result' h => by rw [eq_of_replaced h, heq]⟩
      · exact .inr ⟨hcommit, hcalls, fun result' h => by rw [eq_of_replaced h, heq]⟩

/-! ## The executor -/

/-- What the executor did: the host never took the callback into the command context, or it did and the callback ran. -/
inductive ExecutorRun (operations : List Operation) (callbacks : Callbacks) :
    List (Event Operation) → AtomicExecutionResult → Prop
  | refused {e : Event Operation} {result : AtomicExecutionResult} (hcall : e.op = .act .enterContext)
      (hfailed : succeeded e = false) (houtcome : result.outcome = .failed) : ExecutorRun operations callbacks [e] result
  | ran {e : Event Operation} {job undone disposed leaving : List (Event Operation)}
      {r : Except Fault AtomicExecutionResult} {s : ExecutionState} {result : AtomicExecutionResult}
      (hcall : e.op = .act .enterContext) (hentered : succeeded e = true)
      (hrun : CallbackRun operations callbacks job undone disposed r s)
      (hleaving : calls leaving = if r.isOk then [.act .leaveContext] else [])
      (houtcome : (r = .ok result ∧ ∀ e ∈ leaving, succeeded e = true) ∨
        (¬ (r.isOk = true ∧ ∀ e ∈ leaving, succeeded e = true) ∧
          result.outcome = if s.commitStarted then .unknownCommitState else .failed)) :
      ExecutorRun operations callbacks (e :: (job ++ undone ++ disposed ++ leaving)) result

theorem report_run (fault : Fault) : ∃ result, run host (report fault) s tr = (tr, .ok result, s) ∧
    result.outcome = if s.commitStarted then .unknownCommitState else .failed := by
  unfold report
  rw [run_bind, run_get]
  dsimp only
  cases s.commitStarted with
  | true => exact ⟨_, rfl, unknown_outcome s⟩
  | false =>
      cases fault with
      | operationCanceled => exact ⟨_, rfl, failure_outcome (by decide)⟩
      | other => exact ⟨_, rfl, failure_outcome (by decide)⟩

theorem invoke_run (action : HostAction Operation) (s : ExecutionState) (tr : List (Event Operation)) :
    ∃ e : Event Operation, e.op = .act action ∧
      ((run host (invoke action) s tr = (tr ++ [e], .ok (), s) ∧ succeeded e = true) ∨
        ∃ fault, run host (invoke action) s tr = (tr ++ [e], .error fault, s) ∧ succeeded e = false) :=
  ⟨⟨.act action, host tr (.act action)⟩, rfl, run_invoke action⟩

theorem execute_run (operations : List Operation) (callbacks : Callbacks) : ∃ tr result s,
    run host (execute operations callbacks) {} [] = (tr, .ok result, s) ∧ ExecutorRun operations callbacks tr result := by
  unfold execute marshal
  rw [run_catching, run_bind]
  obtain ⟨e, hcall, henter⟩ := @invoke_run _ host .enterContext {} []
  rcases henter with ⟨henter, hentered⟩ | ⟨fault, henter, hfailed⟩
  · obtain ⟨job, undone, disposed, r, s, hcallback, hrun⟩ :=
      @executeInCommandContext_run _ host operations callbacks ([] ++ [e])
    rw [henter]
    dsimp only
    rw [run_bind, hcallback]
    cases r with
    | ok result =>
        obtain ⟨leave, hleave, hleft⟩ := @invoke_run _ host .leaveContext s ([] ++ [e] ++ (job ++ undone ++ disposed))
        have hleaving : calls [leave] = [.act .leaveContext] := congrArg (fun call => [call]) hleave
        dsimp only
        rw [run_bind]
        rcases hleft with ⟨hleft, hdone⟩ | ⟨fault, hleft, hfailed⟩
        · rw [hleft]
          exact ⟨_, result, s, rfl, .ran hcall hentered hrun hleaving (.inl ⟨rfl, by simpa using hdone⟩)⟩
        · obtain ⟨result', hreport, houtcome⟩ :=
            @report_run _ host s ([] ++ [e] ++ (job ++ undone ++ disposed) ++ [leave]) fault
          rw [hleft]
          exact ⟨_, result', s, hreport, .ran hcall hentered hrun hleaving (.inr ⟨by simp [hfailed], houtcome⟩)⟩
    | error fault =>
        obtain ⟨result, hreport, houtcome⟩ := @report_run _ host s ([] ++ [e] ++ (job ++ undone ++ disposed)) fault
        have hran : ExecutorRun operations callbacks (e :: (job ++ undone ++ disposed ++ [])) result :=
          .ran hcall hentered hrun rfl (.inr ⟨by simp [Except.isOk, Except.toBool], houtcome⟩)
        rw [List.append_nil] at hran
        exact ⟨_, result, s, hreport, hran⟩
  · obtain ⟨result, hreport, houtcome⟩ := @report_run _ host {} ([] ++ [e]) fault
    rw [henter]
    exact ⟨_, result, {}, hreport, .refused hcall hfailed houtcome⟩

/-! ## What a run says -/

/-- The scope that the host returned. -/
def acquiredScope : Event Operation → Option Scope
  | ⟨.acquire scope, .ok true⟩ => some scope
  | _ => none

/-- The scope that the host was asked for. -/
@[simp] def requestedScope : HostCall Operation → Option Scope
  | .acquire scope => some scope
  | _ => none

@[simp] def disposedScope : HostCall Operation → Option Scope
  | .act (.dispose scope) => some scope
  | _ => none

@[simp] def dispatched : HostCall Operation → Option Operation
  | .act (.dispatch operation) => some operation
  | _ => none

theorem requested_of_acquired {e : Event Operation} {scope : Scope} (h : acquiredScope e = some scope) :
    requestedScope e.op = some scope := by
  unfold acquiredScope at h
  split at h
  · exact h
  · simp at h

theorem acquiredScope_eq_some {e : Event Operation} {scope : Scope} :
    acquiredScope e = some scope ↔ e = ⟨.acquire scope, .ok true⟩ := by
  constructor
  · intro h
    unfold acquiredScope at h
    split at h
    · rw [Option.some.inj h]
    · simp at h
  · rintro rfl
    rfl

theorem acquiredIn_iff {scope : Scope} : acquiredIn tr scope ↔ scope ∈ tr.filterMap acquiredScope := by
  simp [acquiredIn, acquiredScope_eq_some]

/-- The scopes that were returned are among those that were asked for, in their order. -/
theorem acquired_sublist (tr : List (Event Operation)) :
    (tr.filterMap acquiredScope).Sublist ((calls tr).filterMap requestedScope) := by
  induction tr with
  | nil => simp [calls]
  | cons e tr ih =>
      have hcalls : calls (e :: tr) = e.op :: calls tr := rfl
      cases h : acquiredScope e with
      | none =>
          rw [hcalls, List.filterMap_cons, h]
          exact ih.trans ((List.sublist_cons_self e.op (calls tr)).filterMap requestedScope)
      | some scope =>
          rw [hcalls, List.filterMap_cons, List.filterMap_cons, h, requested_of_acquired h]
          exact ih.cons_cons scope

theorem acquired_nil (h : ∀ call ∈ calls tr, requestedScope call = none) : tr.filterMap acquiredScope = [] := by
  have hsublist := acquired_sublist tr
  rw [List.filterMap_eq_nil_iff.mpr h] at hsublist
  exact List.eq_nil_of_sublist_nil hsublist

/-- A part of three scopes is known by what is in it. -/
theorem eq_heldScopes_reverse {scopes : List Scope}
    (h : scopes.Sublist [.documentLock, .undoGroup, .transaction]) (hmem : ∀ scope, scope ∈ scopes ↔ s.holds scope = true) :
    scopes = (heldScopes s).reverse := by
  have hlock : s.documentLock = true ↔ .documentLock ∈ scopes := (hmem .documentLock).symm
  have hundo : s.undoGroup = true ↔ .undoGroup ∈ scopes := (hmem .undoGroup).symm
  have htransaction : s.transaction = true ↔ .transaction ∈ scopes := (hmem .transaction).symm
  have hcases := List.mem_sublists'.mpr h
  simp only [List.sublists'_cons, List.sublists'_nil, List.map_cons, List.map_nil, List.cons_append, List.nil_append,
    List.mem_cons, List.not_mem_nil, or_false] at hcases
  rcases hcases with rfl | rfl | rfl | rfl | rfl | rfl | rfl | rfl <;>
    simp [heldScopes, hlock, hundo, htransaction]

@[simp] def isCommit : HostCall Operation → Bool
  | .act .commit => true
  | _ => false

@[simp] def isComplete : HostCall Operation → Bool
  | .act .complete => true
  | _ => false

section

variable {operations : List Operation} {callbacks : Callbacks} {job undone disposed : List (Event Operation)}
  {r : Except Fault AtomicExecutionResult} {result : AtomicExecutionResult}

theorem CallbackRun.commit_iff (h : CallbackRun operations callbacks job undone disposed r s) :
    .act .commit ∈ calls job ↔ s.commitStarted = true := by
  rw [h.tracks.commitStarted]
  simp

theorem CallbackRun.acquired_iff (h : CallbackRun operations callbacks job undone disposed r s) (scope : Scope) :
    acquiredIn job scope ↔ s.holds scope = true := by
  rw [h.tracks.holds]
  cases scope <;> simp [ExecutionState.holds]

theorem commit_of_script (h : calls job = beforeCommit callbacks operations ++ fromCommit callbacks) :
    .act .commit ∈ calls job := by
  simp [h, fromCommit]

/-- What is undone, in every case. -/
theorem CallbackRun.undone_calls (h : CallbackRun operations callbacks job undone disposed r s) :
    calls undone = if s.commitStarted then [] else undoing s := by
  rcases h.outcome with ⟨hcalls, -, hundone, -⟩ | ⟨-, ⟨hcommit, hundone, -⟩ | ⟨hcommit, hundone, -⟩⟩
  · simp [h.commit_iff.mp (commit_of_script hcalls), hundone, calls]
  · simp [hcommit, hundone]
  · simp [hcommit, hundone]

theorem dispatchScript_filterMap (operations : List Operation) {β : Type} {f : HostCall Operation → Option β}
    (hcancellation : f .isCancellationRequested = none) :
    (dispatchScript operations).filterMap f = operations.filterMap (fun operation => f (.act (.dispatch operation))) := by
  induction operations with
  | nil => rfl
  | cons operation operations ih =>
      have hcons : dispatchScript (operation :: operations) =
          .isCancellationRequested :: .act (.dispatch operation) :: dispatchScript operations := rfl
      rw [hcons, List.filterMap_cons, hcancellation]
      dsimp only
      rw [List.filterMap_cons, List.filterMap_cons, ih]

/-- What is found in the job, outside its dispatches. -/
theorem script_filterMap (operations : List Operation) (callbacks : Callbacks) {β : Type}
    {f : HostCall Operation → Option β} (hcancellation : f .isCancellationRequested = none)
    (hlocked : f (.act .validateLockedDocument) = none) (hobserved : f (.act .observeCommittedDocument) = none) :
    (beforeCommit callbacks operations ++ fromCommit callbacks).filterMap f =
      [.acquire .documentLock, .acquire .undoGroup, .acquire .transaction].filterMap f ++
        (operations.filterMap (fun operation => f (.act (.dispatch operation))) ++
          [.act .validate, .act .commit, .act .complete].filterMap f) := by
  have hvalidated : (if callbacks.validateLockedDocument then
      [HostCall.isCancellationRequested, .act .validateLockedDocument] else []).filterMap f = [] := by
    split <;> simp [hcancellation, hlocked]
  have hcommitted : (if callbacks.observeCommittedDocument then
      [HostCall.act .observeCommittedDocument] else []).filterMap f = [] := by
    split <;> simp [hobserved]
  have hscript : beforeCommit callbacks operations ++ fromCommit callbacks = [.acquire .documentLock] ++
      ((if callbacks.validateLockedDocument then [.isCancellationRequested, .act .validateLockedDocument] else []) ++
        ([.acquire .undoGroup, .acquire .transaction] ++ (dispatchScript operations ++
          ([.isCancellationRequested, .act .validate, .isCancellationRequested, .act .commit] ++
            ((if callbacks.observeCommittedDocument then [.act .observeCommittedDocument] else []) ++
              [.act .complete]))))) := by
    simp [beforeCommit, fromCommit]
  have hlock : [HostCall.acquire .documentLock, .acquire .undoGroup, .acquire .transaction].filterMap f =
      [.acquire .documentLock].filterMap f ++ [.acquire .undoGroup, .acquire .transaction].filterMap f :=
    List.filterMap_append (l := [HostCall.acquire .documentLock])
  have hrest : [HostCall.act .validate, .act .commit, .act .complete].filterMap f =
      [.act .validate, .act .commit].filterMap f ++ [.act .complete].filterMap f :=
    List.filterMap_append (l := [HostCall.act .validate, .act .commit])
  have hcommit : [.isCancellationRequested, .act .validate, .isCancellationRequested, .act .commit].filterMap f =
      [.act .validate, .act .commit].filterMap f := by
    simp [List.filterMap_cons, hcancellation]
  simp only [hscript, List.filterMap_append, hvalidated, hcommitted, List.nil_append,
    dispatchScript_filterMap operations hcancellation, hlock, hrest, hcommit, List.append_assoc]

theorem script_requests (operations : List Operation) (callbacks : Callbacks) :
    (beforeCommit callbacks operations ++ fromCommit callbacks).filterMap requestedScope =
      [.documentLock, .undoGroup, .transaction] := by
  rw [script_filterMap operations callbacks rfl rfl rfl]
  simp [List.filterMap_cons]

theorem CallbackRun.job_acquired (h : CallbackRun operations callbacks job undone disposed r s) :
    job.filterMap acquiredScope = (heldScopes s).reverse := by
  apply eq_heldScopes_reverse
  · rw [← script_requests operations callbacks]
    exact (acquired_sublist job).trans (h.prefix_script.sublist.filterMap requestedScope)
  · intro scope
    rw [← acquiredIn_iff, h.acquired_iff]

/-- Nothing is acquired or committed after the job. -/
theorem CallbackRun.rest_calls (h : CallbackRun operations callbacks job undone disposed r s) {call : HostCall Operation}
    (hcall : call ∈ calls (undone ++ disposed)) :
    call = .act .abort ∨ call = .act .rollback ∨ ∃ scope, call = .act (.dispose scope) := by
  rw [calls_append, h.undone_calls, h.disposed_calls] at hcall
  rcases List.mem_append.mp hcall with hundone | hdisposed
  · unfold undoing at hundone
    split at hundone
    · simp at hundone
    · rcases List.mem_append.mp hundone with habort | hrollback
      · split at habort <;> simp_all
      · split at hrollback <;> simp_all
  · obtain ⟨scope, -, rfl⟩ := List.mem_map.mp hdisposed
    exact .inr (.inr ⟨scope, rfl⟩)

section

variable {e : Event Operation} {leaving : List (Event Operation)} {call : HostCall Operation}
  (hrun : CallbackRun operations callbacks job undone disposed r s) (hcall : e.op = .act .enterContext)
  (hleaving : calls leaving = if r.isOk then [.act .leaveContext] else [])
include hrun hcall hleaving

/-- What is asked for outside the job is no acquisition, no dispatch and no commit. -/
theorem mem_ran (h : call ∈ calls (e :: (job ++ undone ++ disposed ++ leaving))) :
    call ∈ calls job ∨ call = .act .enterContext ∨ call = .act .leaveContext ∨ call = .act .abort ∨
      call = .act .rollback ∨ ∃ scope, call = .act (.dispose scope) := by
  have hsplit : calls (e :: (job ++ undone ++ disposed ++ leaving)) =
      e.op :: (calls job ++ calls (undone ++ disposed) ++ calls leaving) := by
    simp [calls]
  rw [hsplit, List.mem_cons, List.mem_append, List.mem_append, hcall] at h
  rcases h with rfl | (hjob | hrest) | hleave
  · simp
  · exact .inl hjob
  · rcases hrun.rest_calls hrest with rfl | rfl | ⟨scope, rfl⟩ <;> simp
  · rw [hleaving] at hleave
    split at hleave <;> simp_all

theorem ran_commit_iff :
    .act .commit ∈ calls (e :: (job ++ undone ++ disposed ++ leaving)) ↔ s.commitStarted = true := by
  rw [← hrun.commit_iff]
  constructor
  · intro h
    simpa using mem_ran hrun hcall hleaving h
  · intro h
    simp [calls] at h ⊢
    simp [h]

theorem ran_acquired :
    (e :: (job ++ undone ++ disposed ++ leaving)).filterMap acquiredScope = (heldScopes s).reverse := by
  have hsplit : e :: (job ++ undone ++ disposed ++ leaving) = [e] ++ (job ++ (undone ++ disposed) ++ leaving) := by
    simp
  have henter : [e].filterMap acquiredScope = [] := by
    apply acquired_nil
    simp [calls, hcall]
  have hrest : (undone ++ disposed).filterMap acquiredScope = [] := by
    apply acquired_nil
    intro call hmem
    rcases hrun.rest_calls hmem with rfl | rfl | ⟨scope, rfl⟩ <;> rfl
  have hleave : leaving.filterMap acquiredScope = [] := by
    apply acquired_nil
    rw [hleaving]
    split <;> simp
  rw [hsplit, List.filterMap_append, List.filterMap_append, List.filterMap_append, henter, hrest, hleave, List.nil_append,
    List.append_nil, List.append_nil]
  exact hrun.job_acquired

theorem ran_acquired_iff (scope : Scope) :
    acquiredIn (e :: (job ++ undone ++ disposed ++ leaving)) scope ↔ s.holds scope = true := by
  rw [acquiredIn_iff, ran_acquired hrun hcall hleaving, List.mem_reverse]
  unfold heldScopes
  cases scope <;> simp [ExecutionState.holds]

end

/-! ## The outcome -/

/-- The calls of a run that nothing stopped. -/
def wholeRun (operations : List Operation) (callbacks : Callbacks) (scopes : List Scope) : List (HostCall Operation) :=
  .act .enterContext :: ((beforeCommit callbacks operations ++ fromCommit callbacks) ++
    (scopes.map (fun x => HostCall.act (.dispose x)) ++ [.act .leaveContext]))

/-- The three ways a run ends. -/
inductive Ended (operations : List Operation) (callbacks : Callbacks) (tr : List (Event Operation)) :
    AtomicExecutionOutcome → Prop
  | committed (scopes : List Scope) (hcalls : calls tr = wholeRun operations callbacks scopes)
      (hdone : ∀ e ∈ tr, succeeded e = true) : Ended operations callbacks tr .committed
  | unknown (hfailed : ∃ e ∈ tr, succeeded e = false) (hcommit : .act .commit ∈ calls tr) :
      Ended operations callbacks tr .unknownCommitState
  | failed (hfailed : ∃ e ∈ tr, succeeded e = false) (hcommit : .act .commit ∉ calls tr)
      (habort : acquiredIn tr .transaction → .act .abort ∈ calls tr)
      (hrollback : acquiredIn tr .undoGroup → .act .rollback ∈ calls tr) : Ended operations callbacks tr .failed

theorem ExecutorRun.ended (h : ExecutorRun operations callbacks tr result) :
    Ended operations callbacks tr result.outcome := by
  cases h with
  | @refused e _ hcall hfailed houtcome =>
      have hnone (scope : Scope) : ¬ acquiredIn [e] scope := by
        intro h
        rw [acquiredIn, List.mem_singleton] at h
        rw [← h] at hcall
        simp at hcall
      rw [houtcome]
      apply Ended.failed ⟨e, List.mem_singleton_self e, hfailed⟩
      · simp [calls, hcall]
      · exact fun h => absurd h (hnone _)
      · exact fun h => absurd h (hnone _)
  | @ran e job undone disposed leaving r s _ hcall hentered hrun hleaving houtcome =>
      have hcommit := ran_commit_iff hrun hcall hleaving
      have hacquired := ran_acquired_iff hrun hcall hleaving
      have hstopped (hfailed : ∃ x ∈ e :: (job ++ undone ++ disposed ++ leaving), succeeded x = false)
          (houtcome : result.outcome = if s.commitStarted then .unknownCommitState else .failed) :
          Ended operations callbacks (e :: (job ++ undone ++ disposed ++ leaving)) result.outcome := by
        rw [houtcome]
        cases hstarted : s.commitStarted with
        | true => exact .unknown hfailed (hcommit.mpr hstarted)
        | false =>
            have hundone := hrun.undone_calls
            rw [if_neg (by simp [hstarted])] at hundone
            have hmem {call : HostCall Operation} (h : call ∈ undoing s) :
                call ∈ calls (e :: (job ++ undone ++ disposed ++ leaving)) := by
              rw [← hundone] at h
              simp only [calls, List.map_cons, List.map_append, List.mem_cons, List.mem_append] at h ⊢
              exact .inr (.inl (.inl (.inr h)))
            apply Ended.failed hfailed
            · rw [hcommit, hstarted]
              exact Bool.false_ne_true
            · intro h
              have hheld : s.transaction = true := (hacquired .transaction).mp h
              exact hmem (by simp [undoing, hheld])
            · intro h
              have hheld : s.undoGroup = true := (hacquired .undoGroup).mp h
              exact hmem (by simp [undoing, hheld])
      rcases houtcome with ⟨hresult, hleft⟩ | ⟨hbroke, houtcome⟩
      · have hok : r.isOk = true := by
          rw [hresult]
          rfl
        rcases hrun.outcome with ⟨hcalls, hdone, hundone, houtcome⟩ | ⟨⟨x, hx, hfailed⟩, houtcome⟩
        · rw [houtcome result hresult]
          apply Ended.committed (heldScopes s)
          · rw [hok] at hleaving
            rw [wholeRun, ← hcalls, ← hrun.disposed_calls, ← hcall]
            simpa [calls, hundone] using hleaving
          · have hdisposed := hrun.disposed_iff.mp hok
            simp only [hundone, List.append_nil, List.forall_mem_cons, List.forall_mem_append]
            exact ⟨hentered, ⟨hdone, hdisposed⟩, hleft⟩
        · apply hstopped ⟨x, by simp [hx], hfailed⟩
          rcases houtcome with ⟨hstarted, -, houtcome⟩ | ⟨hstarted, -, houtcome⟩
          · rw [houtcome result hresult, hstarted]
            rfl
          · rw [houtcome result hresult, hstarted]
            rfl
      · refine hstopped ?_ houtcome
        rw [hrun.disposed_iff, ← List.forall_mem_append] at hbroke
        obtain ⟨x, hx, hfailed⟩ := by simpa only [not_forall] using hbroke
        exact ⟨x, by simp [List.mem_append.mp hx], by simpa using hfailed⟩

/-- The scopes are disposed of in the order opposite to that of their acquisition. -/
theorem ExecutorRun.disposals (h : ExecutorRun operations callbacks tr result) :
    (calls tr).filterMap disposedScope = (tr.filterMap acquiredScope).reverse := by
  cases h with
  | @refused e _ hcall hfailed houtcome =>
      have hnone : [e].filterMap acquiredScope = [] := by
        apply acquired_nil
        simp [calls, hcall]
      rw [hnone]
      simp [calls, hcall]
  | @ran e job undone disposed leaving r s _ hcall hentered hrun hleaving houtcome =>
      have hscript := script_filterMap operations callbacks (f := disposedScope) rfl rfl rfl
      have hjob : (calls job).filterMap disposedScope = [] := by
        apply List.eq_nil_of_sublist_nil
        have hsublist := hrun.prefix_script.sublist.filterMap disposedScope
        rw [hscript] at hsublist
        simpa [List.filterMap_cons] using hsublist
      have hundone : (calls undone).filterMap disposedScope = [] := by
        rw [hrun.undone_calls, undoing]
        split
        · rfl
        · cases s.transaction <;> cases s.undoGroup <;> rfl
      have hdisposed : (calls disposed).filterMap disposedScope = heldScopes s := by
        rw [hrun.disposed_calls, List.filterMap_map]
        exact List.filterMap_some
      have hleave : (calls leaving).filterMap disposedScope = [] := by
        rw [hleaving]
        split <;> rfl
      have hsplit : calls (e :: (job ++ undone ++ disposed ++ leaving)) =
          [.act .enterContext] ++ (calls job ++ calls undone ++ calls disposed ++ calls leaving) := by
        simp [calls, hcall]
      rw [ran_acquired hrun hcall hleaving, List.reverse_reverse, hsplit]
      simp only [List.filterMap_append, hjob, hundone, hdisposed, hleave]
      simp [List.filterMap_cons]

end

/-- In a whole run the job is dispatched in its order, committed and completed once, and never undone. -/
theorem wholeRun_filterMap (operations : List Operation) (callbacks : Callbacks) (scopes : List Scope) {β : Type}
    {f : HostCall Operation → Option β} (hcancellation : f .isCancellationRequested = none)
    (hlocked : f (.act .validateLockedDocument) = none) (hobserved : f (.act .observeCommittedDocument) = none)
    (hacquire : ∀ scope, f (.acquire scope) = none) (hdispose : ∀ scope, f (.act (.dispose scope)) = none)
    (henter : f (.act .enterContext) = none) (hleave : f (.act .leaveContext) = none) :
    (wholeRun operations callbacks scopes).filterMap f =
      operations.filterMap (fun operation => f (.act (.dispatch operation))) ++
        [.act .validate, .act .commit, .act .complete].filterMap f := by
  have hdisposed : (scopes.map (fun x => HostCall.act (.dispose x))).filterMap f = [] := by
    simp [hdispose]
  have hscript := script_filterMap operations callbacks hcancellation hlocked hobserved
  rw [wholeRun, List.filterMap_cons, henter]
  simp only [List.filterMap_append, hscript, hdisposed]
  simp [List.filterMap_cons, hacquire, hleave]

/-- Only the actions of a job and of its clean-up are asked for. -/
theorem not_undone_wholeRun (operations : List Operation) (callbacks : Callbacks) (scopes : List Scope)
    {action : HostAction Operation} (h : action = .abort ∨ action = .rollback) :
    .act action ∉ wholeRun operations callbacks scopes := by
  rcases h with rfl | rfl <;> cases hlocked : callbacks.validateLockedDocument <;>
    cases hobserved : callbacks.observeCommittedDocument <;>
    simp [wholeRun, beforeCommit, fromCommit, dispatchScript, hlocked, hobserved]

theorem countP_wholeRun (operations : List Operation) (callbacks : Callbacks) (scopes : List Scope)
    {p : HostCall Operation → Bool} (hcancellation : p .isCancellationRequested = false)
    (hlocked : p (.act .validateLockedDocument) = false) (hobserved : p (.act .observeCommittedDocument) = false)
    (hacquire : ∀ scope, p (.acquire scope) = false) (hdispose : ∀ scope, p (.act (.dispose scope)) = false)
    (henter : p (.act .enterContext) = false) (hleave : p (.act .leaveContext) = false)
    (hdispatch : ∀ operation, p (.act (.dispatch operation)) = false) :
    (wholeRun operations callbacks scopes).countP p = [.act .validate, .act .commit, .act .complete].countP p := by
  have hnone (call : HostCall Operation) (h : p call = false) : Option.guard p call = none := by
    simp [Option.guard, h]
  rw [List.countP_eq_length_filter, List.countP_eq_length_filter, ← List.filterMap_eq_filter,
    wholeRun_filterMap operations callbacks scopes (hnone _ hcancellation) (hnone _ hlocked) (hnone _ hobserved)
      (fun scope => hnone _ (hacquire scope)) (fun scope => hnone _ (hdispose scope)) (hnone _ henter) (hnone _ hleave)]
  simp [hnone _ (hdispatch _), List.filterMap_eq_filter]

/-- Whatever the host does and whenever a cancellation is requested: a failed job was not committed and what was
begun of it was undone, a committed job was done as a whole, the outcome is unknown when it was committed otherwise,
and every scope is disposed of once, the last first. -/
theorem execute_sound (host : Host Operation) (operations : List Operation) (callbacks : Callbacks) :
    ∃ tr result s, run host (execute operations callbacks) {} [] = (tr, .ok result, s) ∧
      (result.outcome = .failed → .act .commit ∉ calls tr ∧
        (acquiredIn tr .transaction → .act .abort ∈ calls tr) ∧ (acquiredIn tr .undoGroup → .act .rollback ∈ calls tr)) ∧
      (result.outcome = .committed → (calls tr).filterMap dispatched = operations ∧
        (calls tr).countP isCommit = 1 ∧ (calls tr).countP isComplete = 1 ∧
        .act .abort ∉ calls tr ∧ .act .rollback ∉ calls tr) ∧
      (result.outcome = .unknownCommitState ↔ .act .commit ∈ calls tr ∧ result.outcome ≠ .committed) ∧
      (result.outcome = .committed ↔ ∀ e ∈ tr, succeeded e = true) ∧
      (calls tr).filterMap disposedScope = (tr.filterMap acquiredScope).reverse := by
  obtain ⟨tr, result, s, hrun, hends⟩ := @execute_run _ host operations callbacks
  refine ⟨tr, result, s, hrun, ?_, ?_, ?_, ?_, hends.disposals⟩
  · intro houtcome
    have hended := hends.ended
    rw [houtcome] at hended
    cases hended with
    | failed hfailed hcommit habort hrollback => exact ⟨hcommit, habort, hrollback⟩
  · intro houtcome
    have hended := hends.ended
    rw [houtcome] at hended
    cases hended with
    | committed scopes hcalls hdone =>
        rw [hcalls]
        refine ⟨?_, countP_wholeRun operations callbacks scopes rfl rfl rfl (fun _ => rfl) (fun _ => rfl) rfl rfl (fun _ => rfl),
          countP_wholeRun operations callbacks scopes rfl rfl rfl (fun _ => rfl) (fun _ => rfl) rfl rfl (fun _ => rfl),
          not_undone_wholeRun operations callbacks scopes (.inl rfl), not_undone_wholeRun operations callbacks scopes (.inr rfl)⟩
        rw [wholeRun_filterMap operations callbacks scopes rfl rfl rfl (fun _ => rfl) (fun _ => rfl) rfl rfl]
        simp [List.filterMap_cons]
  · have hended := hends.ended
    generalize result.outcome = outcome at hended ⊢
    cases hended with
    | committed => simp
    | unknown hfailed hcommit => simp [hcommit]
    | failed hfailed hcommit => simp [hcommit]
  · have hnone : (∃ e ∈ tr, succeeded e = false) → ¬ ∀ e ∈ tr, succeeded e = true := by
      rintro ⟨e, he, hfailed⟩ hdone
      rw [hdone e he] at hfailed
      exact Bool.noConfusion hfailed
    have hended := hends.ended
    generalize result.outcome = outcome at hended ⊢
    cases hended with
    | committed scopes hcalls hdone => simpa using hdone
    | unknown hfailed => simpa using hnone hfailed
    | failed hfailed => simpa using hnone hfailed

end CadHarness.Execution
