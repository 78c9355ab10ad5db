import CadHarness.Undo.Lemmas.Invariant

/-!
# What the undo registry guarantees

Each undo is granted at most once, whatever the calls and their order. An unrelated command in the
document takes the grant away for good exactly when no rollback of it is executing at that moment.
-/

namespace CadHarness.Undo
open CadHarness.Lib
namespace UndoRollbackRegistry

/-- The calls of a list on a registry. -/
def calls (g : UndoRollbackRegistry) (cs : List Call) : List (Call × Answer) × UndoRollbackRegistry :=
  System.runFun call g cs

theorem calls_run (g : UndoRollbackRegistry) (cs : List Call) :
    system.Run g (g.calls cs).1 (g.calls cs).2 :=
  System.runFun_run (fun _ _ => rfl) g cs

/-! ## At most one grant -/

/-- For every sequence of calls on a new registry, and so after each of its prefixes: a document has
at most one receipt that is available or executing; the grants of a receipt exceed its cancellations by
at most one; a consumed, quarantined or superseded receipt is never granted again; and a replayed
result is the one stored by the call that consumed the receipt for the same request. -/
theorem undo_granted_at_most_once {processEpoch : String} {g₀ g : UndoRollbackRegistry}
    {tr : List (Call × Answer)} (h₀ : UndoRollbackRegistry.new processEpoch = .ok g₀)
    (h : system.Run g₀ tr g) :
    (∀ i j e f, g.entriesByReceipt i = some e → g.entriesByReceipt j = some f →
      e.receipt.documentId = f.receipt.documentId →
      e.state = .available ∨ e.state = .executing → f.state = .available ∨ f.state = .executing →
      i = j) ∧
    (∀ id, grants id tr ≤ cancels id tr + 1) ∧
    (∀ id st tr' g', g.stateOf id = some st →
      st = .consumed ∨ st = .quarantined ∨ st = .superseded →
      system.Run g tr' g' → grants id tr' = 0) ∧
    (∀ q b g', g.call (.begin q) = (.began b, g') → b.kind = .replay →
      ∃ res data q', b.result = some res ∧ q'.approvalId = q.approvalId ∧
        q'.requestDigest = q.requestDigest ∧ matchesScope q' q = true ∧
        (Call.completeSuccess q' data, Answer.completed res) ∈ tr) := by
  have hw : Wf g := (Wf.new h₀).run h
  refine ⟨?_, ?_, ?_, ?_⟩
  · intro i j e f he hf hd hle hlf
    exact hw.live_unique he hf hd hle hlf
  · intro id
    exact (balance_run h₀ h id).le
  · intro id st tr' g' hst hs hrun
    have hnone := spent_run hrun hst hs
    simpa [grants, List.countP_eq_zero] using hnone
  · intro q b g' hcall hk
    have hstep : Step g (.begin q) (.began b) g' := by
      have := call_step (g := g) (.begin q)
      rwa [hcall] at this
    obtain ⟨res, data, hres, hmem⟩ := hstep.replay (consumers_run h₀ h) hk
    exact ⟨res, data, q, hres, rfl, rfl, matchesScope_iff.mpr rfl, hmem⟩

def exampleRegistry : UndoRollbackRegistry :=
  ⟨"epoch-1", fun _ => none, fun _ => none, fun _ => none⟩

def exampleReceipt : UndoRollbackReceipt :=
  { receiptId := "receipt-1", undoGroup := "undo-1", jobId := "job-1", documentId := "doc-1",
    checkpointId := "checkpoint-1", previousRevision := "rev-0", newRevision := "rev-1",
    processEpoch := "epoch-1" }

def exampleRequest : UndoRollbackRequest :=
  { receiptId := "receipt-1", undoGroup := "undo-1", jobId := "job-1", documentId := "doc-1",
    checkpointId := "checkpoint-1", currentRevision := "rev-1", processEpoch := "epoch-1",
    approvalId := "approval-1", requestDigest := "digest-1" }

theorem undo_granted_at_most_once_example :
    grants "receipt-1" (exampleRegistry.calls [.register exampleReceipt, .begin exampleRequest,
      .cancelBeforeCommand exampleRequest, .begin exampleRequest]).1 = 2 ∧
    ∀ id, grants id (exampleRegistry.calls [.register exampleReceipt, .begin exampleRequest,
      .cancelBeforeCommand exampleRequest, .begin exampleRequest]).1 ≤
      cancels id (exampleRegistry.calls [.register exampleReceipt, .begin exampleRequest,
      .cancelBeforeCommand exampleRequest, .begin exampleRequest]).1 + 1 :=
  ⟨by decide, (@undo_granted_at_most_once "epoch-1" _ _ _ rfl (calls_run _ _)).2.1⟩

/-! ## An unrelated command -/

theorem validateText_eq_ok {value name : String} :
    validateText value name = .ok () ↔
      (DotNet.isNullOrWhiteSpace value || value.toList.any DotNet.isControl) = false := by
  unfold validateText
  cases DotNet.isNullOrWhiteSpace value || value.toList.any DotNet.isControl <;> simp

theorem validateReceipt_documentId {r : UndoRollbackReceipt} (h : validateReceipt r = .ok ())
    (name : String) : validateText r.documentId name = .ok () := by
  cases hd : validateText r.documentId "DocumentId" with
  | ok _ => exact validateText_eq_ok.mpr (validateText_eq_ok.mp hd)
  | error e =>
      simp only [validateReceipt, hd] at h
      cases h₁ : validateText r.receiptId "ReceiptId" <;> rw [h₁] at h <;> try cases h
      cases h₂ : validateText r.undoGroup "UndoGroup" <;> rw [h₂] at h <;> try cases h
      cases h₃ : validateText r.jobId "JobId" <;> rw [h₃] at h <;> cases h

/-- The registry after an unrelated command has started in the document. -/
def afterCommand (g : UndoRollbackRegistry) (documentId : String) : UndoRollbackRegistry :=
  (g.call (.invalidateAvailableForDocument documentId)).2

/-- The command leaves an executing receipt as it is. -/
theorem afterCommand_executing {g : UndoRollbackRegistry} (hw : Wf g) {id : String} {e : Entry}
    (he : g.entriesByReceipt id = some e) (hs : e.state = .executing) :
    g.afterCommand e.receipt.documentId = g := by
  have hact : g.activeEntry e.receipt.documentId = some (id, e) :=
    activeEntry_eq_some.mpr ⟨hw.active he (Or.inr hs), he⟩
  have hv := validateReceipt_documentId (hw.valid he) "documentId"
  simp [afterCommand, call, invalidateAvailableForDocument, hv, hact, hs]

/-- The command spends every other receipt of the document that was not spent already. -/
theorem afterCommand_spent {g : UndoRollbackRegistry} (hw : Wf g) {id : String} {e : Entry}
    (he : g.entriesByReceipt id = some e) (hs : e.state ≠ .executing) :
    ∃ st, (g.afterCommand e.receipt.documentId).stateOf id = some st ∧ Spent st := by
  have hstep := call_step (g := g) (.invalidateAvailableForDocument e.receipt.documentId)
  by_cases hav : e.state = .available
  · have hact : g.activeEntry e.receipt.documentId = some (id, e) :=
      activeEntry_eq_some.mpr ⟨hw.active he (Or.inl hav), he⟩
    have hv := validateReceipt_documentId (hw.valid he) "documentId"
    refine ⟨.superseded, ?_, Or.inr (Or.inr rfl)⟩
    have : g.afterCommand e.receipt.documentId = g.setState id .superseded := by
      simp [afterCommand, call, invalidateAvailableForDocument, hv, hact, hav]
    rw [this, setState_stateOf, if_pos rfl]
    simp [stateOf, he]
  · have hsp : Spent e.state := by
      cases hst : e.state <;> simp_all [Spent]
    exact (hstep.spent (by simp [stateOf, he]) hsp).2

/-- After an unrelated command in its document, a registered receipt is granted by no later call of
any run exactly when it was not executing at the moment of the command. -/
theorem no_undo_after_command_iff {processEpoch : String} {g₀ g : UndoRollbackRegistry}
    {tr : List (Call × Answer)} {id : String} {e : Entry}
    (h₀ : UndoRollbackRegistry.new processEpoch = .ok g₀) (h : system.Run g₀ tr g)
    (he : g.entriesByReceipt id = some e) :
    (∀ tr' g', system.Run (g.afterCommand e.receipt.documentId) tr' g' → grants id tr' = 0) ↔
      e.state ≠ .executing := by
  have hw : Wf g := (Wf.new h₀).run h
  constructor
  · intro hall hs
    -- The caller cancels before its command and asks again with the same request.
    obtain ⟨q, hq, hid, hm, hv⟩ := hw.attempt he hs
    have hrec : g.requireExecutingAttempt q = .ok e :=
      requireExecutingAttempt_eq_ok.mpr ⟨⟨q, none⟩, by rw [hid]; exact he, hs, hm, hq, rfl,
        matchesScope_iff.mpr rfl⟩
    have hcancel : g.call (.cancelBeforeCommand q) =
        (.cancelled, (g.setState q.receiptId .available).setAttempt q.approvalId none) := by
      simp only [call, cancelBeforeCommand, hv, hrec]
      rfl
    rw [afterCommand_executing hw he hs] at hall
    have hbegin : (((g.setState q.receiptId .available).setAttempt q.approvalId none).call
        (.begin q)).1 = .began { kind := .execute, receipt := some e.receipt } := by
      simp [call, begin, hv, setAttempt_attempts, setState_entries, hid, he, hm]
    have hrun := (System.Run.single (S := system) (s := g) (a := (.cancelBeforeCommand q, .cancelled))
      hcancel).snoc (a := (.begin q, .began { kind := .execute, receipt := some e.receipt }))
      (Prod.ext hbegin rfl)
    have := hall _ _ hrun
    simp [grants, isGrant, hid] at this
  · intro hs tr' g' hrun
    obtain ⟨st, hst, hsp⟩ := afterCommand_spent hw he hs
    simpa [grants, List.countP_eq_zero] using spent_run hrun hst hsp

theorem no_undo_after_command_iff_example :
    (∀ tr' g', system.Run ((exampleRegistry.addEntry exampleReceipt).afterCommand "doc-1") tr' g' →
      grants "receipt-1" tr' = 0) ↔ UndoRollbackState.available ≠ .executing :=
  @no_undo_after_command_iff "epoch-1" exampleRegistry (exampleRegistry.addEntry exampleReceipt) _
    "receipt-1" { receipt := exampleReceipt } rfl
    (calls_run exampleRegistry [.register exampleReceipt]) rfl

/-- A command that starts while the rollback is executing does not keep the receipt from being granted
again: the caller cancels before its own command, which makes the receipt available. -/
theorem undo_after_unrelated_command :
    ¬ ∀ (processEpoch : String) (g₀ g : UndoRollbackRegistry) (tr : List (Call × Answer)) (id : String)
      (e : Entry), UndoRollbackRegistry.new processEpoch = .ok g₀ → system.Run g₀ tr g →
      g.entriesByReceipt id = some e →
      ∀ tr' g', system.Run (g.afterCommand e.receipt.documentId) tr' g' → grants id tr' = 0 := by
  intro h
  have := h "epoch-1" exampleRegistry _ _ "receipt-1" ⟨exampleReceipt, .executing⟩ rfl
    (calls_run exampleRegistry [.register exampleReceipt, .begin exampleRequest]) rfl _ _
    (calls_run _ [.cancelBeforeCommand exampleRequest, .begin exampleRequest])
  exact absurd this (by decide)

end UndoRollbackRegistry
end CadHarness.Undo
