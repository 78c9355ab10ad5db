import CadHarness.Undo.Registry

/-!
# What one call of the registry can do

Each method is taken apart once, into the cases of `Step`. The invariants follow from these cases and
never unfold a method.
-/

namespace CadHarness.Undo
namespace UndoRollbackRegistry

variable {g g' : UndoRollbackRegistry}

/-! ## The effect of the field updates -/

@[simp] theorem setState_active (id : String) (st : UndoRollbackState) :
    (g.setState id st).activeReceiptByDocument = g.activeReceiptByDocument := rfl

@[simp] theorem setState_attempts (id : String) (st : UndoRollbackState) :
    (g.setState id st).attemptByApprovalId = g.attemptByApprovalId := rfl

@[simp] theorem setAttempt_entries (a : String) (att : Option ApprovalAttempt) :
    (g.setAttempt a att).entriesByReceipt = g.entriesByReceipt := rfl

@[simp] theorem setAttempt_active (a : String) (att : Option ApprovalAttempt) :
    (g.setAttempt a att).activeReceiptByDocument = g.activeReceiptByDocument := rfl

@[simp] theorem addEntry_attempts (r : UndoRollbackReceipt) :
    (g.addEntry r).attemptByApprovalId = g.attemptByApprovalId := rfl

theorem setState_entries (id j : String) (st : UndoRollbackState) :
    (g.setState id st).entriesByReceipt j =
      if j = id then (g.entriesByReceipt id).map (fun e => { e with state := st })
      else g.entriesByReceipt j := by
  simp only [setState, Function.update_apply]

/-- An entry after an assignment of a state is the assigned one or an old one. -/
theorem setState_entries_cases {id j : String} {st : UndoRollbackState} {e : Entry}
    (h : (g.setState id st).entriesByReceipt j = some e) :
    (j = id ∧ ∃ e₀, g.entriesByReceipt id = some e₀ ∧ e = { e₀ with state := st }) ∨
    (j ≠ id ∧ g.entriesByReceipt j = some e) := by
  rw [setState_entries] at h
  by_cases hj : j = id
  · simp only [hj, if_true, Option.map_eq_some_iff] at h
    obtain ⟨e₀, he₀, rfl⟩ := h
    exact Or.inl ⟨hj, e₀, he₀, rfl⟩
  · rw [if_neg hj] at h
    exact Or.inr ⟨hj, h⟩

theorem setAttempt_attempts (a b : String) (att : Option ApprovalAttempt) :
    (g.setAttempt a att).attemptByApprovalId b = if b = a then att else g.attemptByApprovalId b := by
  simp only [setAttempt, Function.update_apply]

theorem addEntry_entries (r : UndoRollbackReceipt) (j : String) :
    (g.addEntry r).entriesByReceipt j =
      if j = r.receiptId then some { receipt := r } else g.entriesByReceipt j := by
  simp only [addEntry, Function.update_apply]

theorem addEntry_entries_cases {r : UndoRollbackReceipt} {j : String} {e : Entry}
    (h : (g.addEntry r).entriesByReceipt j = some e) :
    (j = r.receiptId ∧ e = { receipt := r }) ∨
    (j ≠ r.receiptId ∧ g.entriesByReceipt j = some e) := by
  rw [addEntry_entries] at h
  by_cases hj : j = r.receiptId
  · rw [if_pos hj] at h; exact Or.inl ⟨hj, (Option.some.inj h).symm⟩
  · rw [if_neg hj] at h; exact Or.inr ⟨hj, h⟩

theorem addEntry_active (r : UndoRollbackReceipt) (d : String) :
    (g.addEntry r).activeReceiptByDocument d =
      if d = r.documentId then some r.receiptId else g.activeReceiptByDocument d := by
  simp only [addEntry, Function.update_apply]

theorem setState_stateOf (id j : String) (st : UndoRollbackState) :
    (g.setState id st).stateOf j =
      if j = id then (g.stateOf id).map (fun _ => st) else g.stateOf j := by
  simp only [stateOf, setState_entries]
  split
  · cases g.entriesByReceipt id <;> rfl
  · rfl

@[simp] theorem setAttempt_stateOf (a j : String) (att : Option ApprovalAttempt) :
    (g.setAttempt a att).stateOf j = g.stateOf j := rfl

theorem addEntry_stateOf (r : UndoRollbackReceipt) (j : String) :
    (g.addEntry r).stateOf j = if j = r.receiptId then some .available else g.stateOf j := by
  simp only [stateOf, addEntry_entries]
  split <;> simp

theorem activeEntry_eq_some {d id : String} {e : Entry} :
    g.activeEntry d = some (id, e) ↔
      g.activeReceiptByDocument d = some id ∧ g.entriesByReceipt id = some e := by
  simp only [activeEntry, Option.bind_eq_bind, Option.pure_def, Option.bind_eq_some_iff,
    Option.some.injEq, Prod.mk.injEq]
  constructor
  · rintro ⟨id', hid, e', he, rfl, rfl⟩
    exact ⟨hid, he⟩
  · rintro ⟨hid, he⟩
    exact ⟨id, hid, e, he, rfl, rfl⟩

/-! ## The cases of a call -/

/-- Answers that come with no change of the registry. -/
def Idle : Answer → Prop
  | .registered _ | .state _ | .threw _ => True
  | .began b => b.kind = .rejected ∨ b.kind = .conflict
  | .invalidated any => any = false
  | .completed _ | .quarantined | .cancelled => False

/-- `request` is the one the executing receipt `e` was granted to. -/
structure Executing (g : UndoRollbackRegistry) (request : UndoRollbackRequest) (e : Entry)
    (att : ApprovalAttempt) : Prop where
  entry : g.entriesByReceipt request.receiptId = some e
  state : e.state = .executing
  receipt : matchesReceipt e.receipt request = true
  attempt : g.attemptByApprovalId request.approvalId = some att
  digest : att.requestDigest = request.requestDigest
  scope : matchesScope att.request request = true

/-- A call answered `a` leads from `g` to the last registry. -/
inductive Step (g : UndoRollbackRegistry) : Call → Answer → UndoRollbackRegistry → Prop
  | idle {c : Call} {a : Answer} : Idle a → Step g c a g
  | replayed {q : UndoRollbackRequest} {att : ApprovalAttempt} {res : UndoRollbackResult} :
      g.attemptByApprovalId q.approvalId = some att → att.result = some res →
      att.requestDigest = q.requestDigest → matchesScope att.request q = true →
      Step g (.begin q) (.began { kind := .replay, result := some res }) g
  | registered {r : UndoRollbackReceipt} :
      validateReceipt r = .ok () → g.entriesByReceipt r.receiptId = none →
      g.activeEntry r.documentId = none → Step g (.register r) (.registered r) (g.addEntry r)
  | superseded {r : UndoRollbackReceipt} {id : String} {e : Entry} :
      validateReceipt r = .ok () → g.entriesByReceipt r.receiptId = none →
      g.activeEntry r.documentId = some (id, e) → e.state ≠ .executing →
      Step g (.register r) (.registered r) ((g.setState id .superseded).addEntry r)
  | granted {q : UndoRollbackRequest} {e : Entry} :
      validateRequest q = .ok () → g.attemptByApprovalId q.approvalId = none →
      g.entriesByReceipt q.receiptId = some e → matchesReceipt e.receipt q = true →
      e.state = .available →
      Step g (.begin q) (.began { kind := .execute, receipt := some e.receipt })
        ((g.setState q.receiptId .executing).setAttempt q.approvalId (some ⟨q, none⟩))
  | completed {q : UndoRollbackRequest} {e : Entry} {att : ApprovalAttempt} {data : JsonElement}
      {res : UndoRollbackResult} :
      g.Executing q e att → Step g (.completeSuccess q data) (.completed res)
        ((g.setState q.receiptId .consumed).setAttempt q.approvalId (some ⟨q, some res⟩))
  | quarantined {q : UndoRollbackRequest} {e : Entry} {att : ApprovalAttempt} :
      g.Executing q e att → Step g (.quarantineAfterCommandUncertainty q) .quarantined
        (g.setState q.receiptId .quarantined)
  | cancelled {q : UndoRollbackRequest} {e : Entry} {att : ApprovalAttempt} :
      g.Executing q e att → Step g (.cancelBeforeCommand q) .cancelled
        ((g.setState q.receiptId .available).setAttempt q.approvalId none)
  | invalidated {d id : String} {e : Entry} :
      g.activeEntry d = some (id, e) → e.state = .available →
      Step g (.invalidateAvailableForDocument d) (.invalidated true) (g.setState id .superseded)

theorem requireExecutingAttempt_eq_ok {q : UndoRollbackRequest} {e : Entry} :
    g.requireExecutingAttempt q = .ok e ↔ ∃ att, g.Executing q e att := by
  unfold requireExecutingAttempt
  constructor
  · intro h
    split at h
    · rename_i e' att he ha
      split at h
      · rename_i hc
        simp only [Bool.and_eq_true, decide_eq_true_eq] at hc
        cases h
        exact ⟨att, he, hc.1.1.1, hc.1.1.2, ha, hc.1.2, hc.2⟩
      · cases h
    · cases h
  · rintro ⟨att, hx⟩
    simp [hx.entry, hx.attempt, hx.state, hx.receipt, hx.digest, hx.scope]

/-! ## Each method -/

section

attribute [local simp] call

theorem register_step (r : UndoRollbackReceipt) :
    Step g (.register r) (g.call (.register r)).1 (g.call (.register r)).2 := by
  cases hv : validateReceipt r with
  | error e => simpa [register, hv] using .idle trivial
  | ok _ =>
      by_cases hp : r.processEpoch = g.processEpoch
      · cases he : g.entriesByReceipt r.receiptId with
        | some existing =>
            by_cases hr : existing.receipt = r
            · simpa [register, hv, hp, he, hr] using .idle trivial
            · simpa [register, hv, hp, he, hr] using .idle trivial
        | none =>
            cases ha : g.activeEntry r.documentId with
            | none => simpa [register, hv, hp, he, ha] using .registered hv he ha
            | some p =>
                obtain ⟨id, e⟩ := p
                by_cases hs : e.state = .executing
                · simpa [register, hv, hp, he, ha, hs] using .idle trivial
                · simpa [register, hv, hp, he, ha, hs] using .superseded hv he ha hs
      · simpa [register, hv, hp] using .idle trivial

theorem begin_step (q : UndoRollbackRequest) :
    Step g (.begin q) (g.call (.begin q)).1 (g.call (.begin q)).2 := by
  cases hv : validateRequest q with
  | error e => simpa [begin, hv] using .idle trivial
  | ok _ =>
      cases ha : g.attemptByApprovalId q.approvalId with
      | some att =>
          by_cases hd : att.requestDigest = q.requestDigest
          · by_cases hs : matchesScope att.request q = true
            · cases hr : att.result with
              | none => simpa [begin, hv, ha, hd, hs, hr] using .idle (Or.inl rfl)
              | some res => simpa [begin, hv, ha, hd, hs, hr] using .replayed ha hr hd hs
            · simpa [begin, hv, ha, hd, hs] using .idle (Or.inl rfl)
          · simpa [begin, hv, ha, hd] using .idle (Or.inr rfl)
      | none =>
          cases he : g.entriesByReceipt q.receiptId with
          | none => simpa [begin, hv, ha, he] using .idle (Or.inl rfl)
          | some e =>
              by_cases hm : matchesReceipt e.receipt q = true
              · by_cases hs : e.state = .available
                · simpa [begin, hv, ha, he, hm, hs] using .granted hv ha he hm hs
                · simpa [begin, hv, ha, he, hm, hs] using .idle (Or.inl rfl)
              · simpa [begin, hv, ha, he, hm] using .idle (Or.inl rfl)

theorem completeSuccess_step (q : UndoRollbackRequest) (data : JsonElement) :
    Step g (.completeSuccess q data) (g.call (.completeSuccess q data)).1
      (g.call (.completeSuccess q data)).2 := by
  cases hv : validateRequest q with
  | error e => simpa [completeSuccess, hv] using .idle trivial
  | ok _ =>
      by_cases ho : data.isObject = true
      · cases h : g.requireExecutingAttempt q with
        | error e => simpa [completeSuccess, hv, ho, h] using .idle trivial
        | ok e =>
            obtain ⟨att, hx⟩ := requireExecutingAttempt_eq_ok.mp h
            simpa [completeSuccess, hv, ho, h] using .completed hx
      · simpa [completeSuccess, hv, ho] using .idle trivial

theorem quarantine_step (q : UndoRollbackRequest) :
    Step g (.quarantineAfterCommandUncertainty q) (g.call (.quarantineAfterCommandUncertainty q)).1
      (g.call (.quarantineAfterCommandUncertainty q)).2 := by
  cases hv : validateRequest q with
  | error e => simpa [quarantineAfterCommandUncertainty, hv] using .idle trivial
  | ok _ =>
      cases h : g.requireExecutingAttempt q with
      | error e => simpa [quarantineAfterCommandUncertainty, hv, h] using .idle trivial
      | ok e =>
          obtain ⟨att, hx⟩ := requireExecutingAttempt_eq_ok.mp h
          simpa [quarantineAfterCommandUncertainty, hv, h] using .quarantined hx

theorem cancel_step (q : UndoRollbackRequest) :
    Step g (.cancelBeforeCommand q) (g.call (.cancelBeforeCommand q)).1
      (g.call (.cancelBeforeCommand q)).2 := by
  cases hv : validateRequest q with
  | error e => simpa [cancelBeforeCommand, hv] using .idle trivial
  | ok _ =>
      cases h : g.requireExecutingAttempt q with
      | error e => simpa [cancelBeforeCommand, hv, h] using .idle trivial
      | ok e =>
          obtain ⟨att, hx⟩ := requireExecutingAttempt_eq_ok.mp h
          simpa [cancelBeforeCommand, hv, h] using .cancelled hx

theorem invalidate_step (d : String) :
    Step g (.invalidateAvailableForDocument d) (g.call (.invalidateAvailableForDocument d)).1
      (g.call (.invalidateAvailableForDocument d)).2 := by
  cases hv : validateText d "documentId" with
  | error e => simpa [invalidateAvailableForDocument, hv] using .idle trivial
  | ok _ =>
      cases ha : g.activeEntry d with
      | none => simpa [invalidateAvailableForDocument, hv, ha] using .idle rfl
      | some p =>
          obtain ⟨id, e⟩ := p
          by_cases hs : e.state = .available
          · simpa [invalidateAvailableForDocument, hv, ha, hs] using .invalidated ha hs
          · simpa [invalidateAvailableForDocument, hv, ha, hs] using .idle rfl

theorem getState_step (id : String) :
    Step g (.getState id) (g.call (.getState id)).1 (g.call (.getState id)).2 := by
  cases h : g.getState id with
  | error e => simpa [h] using .idle trivial
  | ok st => simpa [h] using .idle trivial

end

/-- Every call takes one of the cases of `Step`. -/
theorem call_step (c : Call) : Step g c (g.call c).1 (g.call c).2 := by
  cases c with
  | register r => exact register_step r
  | begin q => exact begin_step q
  | completeSuccess q data => exact completeSuccess_step q data
  | quarantineAfterCommandUncertainty q => exact quarantine_step q
  | cancelBeforeCommand q => exact cancel_step q
  | invalidateAvailableForDocument d => exact invalidate_step d
  | getState id => exact getState_step id

theorem step_of_system {a : Call × Answer} (h : system.step g a g') : Step g a.1 a.2 g' := by
  have hc := call_step (g := g) a.1
  simp only [system] at h
  rwa [h] at hc

end UndoRollbackRegistry
end CadHarness.Undo
