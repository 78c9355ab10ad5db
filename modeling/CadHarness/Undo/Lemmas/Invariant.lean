import CadHarness.Undo.Lemmas.Step

/-!
# Invariants of the registry

`Wf` speaks of the registry alone. `Counts` and `Consumers` relate it to the calls made so far: how
often each receipt was granted, and which call stored each result that is kept for replay.
-/

namespace CadHarness.Undo
namespace UndoRollbackRegistry

variable {g g' : UndoRollbackRegistry}

/-- The receipt may still run its undo command, or is running it. -/
def Live (st : UndoRollbackState) : Prop := st = .available ∨ st = .executing

/-- The receipt will never run its undo command. -/
def Spent (st : UndoRollbackState) : Prop :=
  st = .consumed ∨ st = .quarantined ∨ st = .superseded

theorem matchesScope_iff {p q : UndoRollbackRequest} :
    matchesScope p q = true ↔ p = { q with requestDigest := p.requestDigest } := by
  cases p; cases q
  simp [matchesScope, and_assoc]

theorem matchesReceipt_receiptId {r : UndoRollbackReceipt} {q : UndoRollbackRequest}
    (h : matchesReceipt r q = true) : r.receiptId = q.receiptId := by
  simp only [matchesReceipt, Bool.and_eq_true, decide_eq_true_eq] at h
  exact h.1.1.1.1.1.1

/-- The request an attempt was recorded for is the request that completes it. -/
theorem Executing.request_eq {q : UndoRollbackRequest} {e : Entry} {att : ApprovalAttempt}
    (h : g.Executing q e att) : att.request = q := by
  have hs := matchesScope_iff.mp h.scope
  have hd : att.request.requestDigest = q.requestDigest := h.digest
  rw [hs, hd]

/-! ## The registry alone -/

/-- Entries stand under their own id and hold a valid receipt; the live entry of a document is its
active one; an executing entry was granted to a valid request whose attempt is still open. -/
structure Wf (g : UndoRollbackRegistry) : Prop where
  key : ∀ {id e}, g.entriesByReceipt id = some e → e.receipt.receiptId = id
  valid : ∀ {id e}, g.entriesByReceipt id = some e → validateReceipt e.receipt = .ok ()
  active : ∀ {id e}, g.entriesByReceipt id = some e → Live e.state →
    g.activeReceiptByDocument e.receipt.documentId = some id
  attempt : ∀ {id e}, g.entriesByReceipt id = some e → e.state = .executing →
    ∃ q, g.attemptByApprovalId q.approvalId = some ⟨q, none⟩ ∧ q.receiptId = id ∧
      matchesReceipt e.receipt q = true ∧ validateRequest q = .ok ()

theorem Wf.new {processEpoch : String} (h : new processEpoch = .ok g) : Wf g := by
  cases hv : validateText processEpoch "processEpoch" with
  | error e => simp [UndoRollbackRegistry.new, hv] at h
  | ok _ =>
      simp only [UndoRollbackRegistry.new, hv] at h
      cases h
      exact ⟨nofun, nofun, nofun, nofun⟩

/-- Assigning a state keeps the invariant if it makes no spent receipt live, an executing receipt has
its open attempt, and the open attempts of the other receipts stay. -/
theorem Wf.setState (hw : Wf g) {id : String} {st : UndoRollbackState}
    (hg : g'.entriesByReceipt = (g.setState id st).entriesByReceipt)
    (ha : g'.activeReceiptByDocument = g.activeReceiptByDocument)
    (hlive : Live st → ∀ e, g.entriesByReceipt id = some e → Live e.state)
    (hexec : st = .executing → ∀ e, g.entriesByReceipt id = some e →
      ∃ q, g'.attemptByApprovalId q.approvalId = some ⟨q, none⟩ ∧ q.receiptId = id ∧
        matchesReceipt e.receipt q = true ∧ validateRequest q = .ok ())
    (hatt : ∀ q, q.receiptId ≠ id → g.attemptByApprovalId q.approvalId = some ⟨q, none⟩ →
      g'.attemptByApprovalId q.approvalId = some ⟨q, none⟩) : Wf g' := by
  refine ⟨?_, ?_, ?_, ?_⟩
  · intro j e he
    rw [hg] at he
    rcases setState_entries_cases he with ⟨rfl, e₀, he₀, rfl⟩ | ⟨_, he⟩
    · have := hw.key he₀; exact this
    · exact hw.key he
  · intro j e he
    rw [hg] at he
    rcases setState_entries_cases he with ⟨rfl, e₀, he₀, rfl⟩ | ⟨_, he⟩
    · have := hw.valid he₀; exact this
    · exact hw.valid he
  · intro j e he hl
    rw [hg] at he
    rw [ha]
    rcases setState_entries_cases he with ⟨rfl, e₀, he₀, rfl⟩ | ⟨_, he⟩
    · have := hw.active he₀ (hlive hl _ he₀); exact this
    · exact hw.active he hl
  · intro j e he hs
    rw [hg] at he
    rcases setState_entries_cases he with ⟨rfl, e₀, he₀, rfl⟩ | ⟨hj, he⟩
    · exact hexec hs e₀ he₀
    · obtain ⟨q, hq, hid, hm, hv⟩ := hw.attempt he hs
      exact ⟨q, hatt q (by rw [hid]; exact hj) hq, hid, hm, hv⟩

theorem Spent.not_live {st : UndoRollbackState} (h : Spent st) : ¬ Live st := by
  rcases h with rfl | rfl | rfl <;> simp [Live]

theorem Wf.setState_spent (hw : Wf g) {id : String} {st : UndoRollbackState} (hst : Spent st)
    (hg : g'.entriesByReceipt = (g.setState id st).entriesByReceipt)
    (ha : g'.activeReceiptByDocument = g.activeReceiptByDocument)
    (hatt : ∀ q, q.receiptId ≠ id → g.attemptByApprovalId q.approvalId = some ⟨q, none⟩ →
      g'.attemptByApprovalId q.approvalId = some ⟨q, none⟩) : Wf g' :=
  hw.setState hg ha (fun hl => absurd hl hst.not_live)
    (fun hs => absurd (Or.inr hs) hst.not_live) hatt

/-- Adding a receipt to a document without a live one keeps the invariant. -/
theorem Wf.addEntry (hw : Wf g) {r : UndoRollbackReceipt} (hr : validateReceipt r = .ok ())
    (hdoc : ∀ id e, g.activeReceiptByDocument r.documentId = some id →
      g.entriesByReceipt id = some e → ¬ Live e.state) : Wf (g.addEntry r) := by
  refine ⟨?_, ?_, ?_, ?_⟩
  · intro j e he
    rcases addEntry_entries_cases he with ⟨rfl, rfl⟩ | ⟨_, he⟩
    · rfl
    · exact hw.key he
  · intro j e he
    rcases addEntry_entries_cases he with ⟨rfl, rfl⟩ | ⟨_, he⟩
    · exact hr
    · exact hw.valid he
  · intro j e he hl
    rw [addEntry_active]
    rcases addEntry_entries_cases he with ⟨rfl, rfl⟩ | ⟨_, he⟩
    · exact if_pos rfl
    · have hact := hw.active he hl
      by_cases hd : e.receipt.documentId = r.documentId
      · rw [hd] at hact; exact absurd hl (hdoc j e hact he)
      · rw [if_neg hd]; exact hact
  · intro j e he hs
    rcases addEntry_entries_cases he with ⟨rfl, rfl⟩ | ⟨_, he⟩
    · cases hs
    · exact hw.attempt he hs

/-- Closing the attempt of one executing receipt leaves the attempts of the others. -/
theorem Executing.other_attempt {q : UndoRollbackRequest} {e : Entry} {att : ApprovalAttempt}
    (h : g.Executing q e att) (new : Option ApprovalAttempt) (p : UndoRollbackRequest)
    (hp : p.receiptId ≠ q.receiptId) (ha : g.attemptByApprovalId p.approvalId = some ⟨p, none⟩) :
    (g.setAttempt q.approvalId new).attemptByApprovalId p.approvalId = some ⟨p, none⟩ := by
  rw [setAttempt_attempts, if_neg, ha]
  intro hid
  rw [hid, h.attempt] at ha
  have hreq := h.request_eq
  cases ha
  exact hp (congrArg _ hreq)

theorem Step.wf {c : Call} {a : Answer} (h : Step g c a g') (hw : Wf g) : Wf g' := by
  cases h with
  | idle _ => exact hw
  | replayed _ _ _ _ => exact hw
  | registered hr _ hact =>
      refine hw.addEntry hr (fun id e hid he _ => ?_)
      rw [activeEntry_eq_some.mpr ⟨hid, he⟩] at hact
      cases hact
  | @superseded r id e hr _ hact _ =>
      obtain ⟨hid, he⟩ := activeEntry_eq_some.mp hact
      have hs : Spent .superseded := Or.inr (Or.inr rfl)
      have hw' : Wf (g.setState id .superseded) := hw.setState_spent hs rfl rfl (fun _ _ h => h)
      refine hw'.addEntry hr ?_
      intro j e' hj he'
      rw [setState_active, hid] at hj
      cases hj
      rw [setState_entries, if_pos rfl, he] at he'
      cases he'
      exact hs.not_live
  | @granted q e hv ha he hm hst =>
      refine @Wf.setState _ _ hw q.receiptId .executing rfl rfl ?_ ?_ ?_
      · intro _ e' he'
        rw [he] at he'; cases he'
        exact Or.inl hst
      · intro _ e' he'
        rw [he] at he'; cases he'
        exact ⟨q, by rw [setAttempt_attempts, if_pos rfl], rfl, hm, hv⟩
      · intro p _ hp
        rw [setAttempt_attempts, if_neg, setState_attempts, hp]
        intro hpa
        rw [hpa, ha] at hp; cases hp
  | completed hx => exact hw.setState_spent (Or.inl rfl) rfl rfl (hx.other_attempt _)
  | quarantined hx => exact hw.setState_spent (Or.inr (Or.inl rfl)) rfl rfl (fun _ _ h => h)
  | @cancelled q e att hx =>
      refine @Wf.setState _ _ hw q.receiptId .available rfl rfl ?_ nofun (hx.other_attempt none)
      intro _ e' he'
      rw [hx.entry] at he'; cases he'
      exact Or.inr hx.state
  | invalidated _ _ => exact hw.setState_spent (Or.inr (Or.inr rfl)) rfl rfl (fun _ _ h => h)

theorem Wf.run {tr : List (Call × Answer)} (h : system.Run g tr g') (hw : Wf g) : Wf g' :=
  h.invariant hw (fun _ _ _ hw hs => (step_of_system hs).wf hw)

/-- At most one receipt of a document is live. -/
theorem Wf.live_unique (hw : Wf g) {i j : String} {e f : Entry} (he : g.entriesByReceipt i = some e)
    (hf : g.entriesByReceipt j = some f) (hd : e.receipt.documentId = f.receipt.documentId)
    (hle : Live e.state) (hlf : Live f.state) : i = j := by
  have hi := hw.active he hle
  have hj := hw.active hf hlf
  rw [hd, hj] at hi
  exact (Option.some.inj hi).symm

/-! ## The calls so far -/

/-- The call was a `Begin` on that receipt that answered `Execute`. -/
def isGrant (id : String) : Call × Answer → Bool
  | (.begin q, .began b) => q.receiptId = id && b.kind = .execute
  | _ => false

/-- The call was a successful `CancelBeforeCommand` on that receipt. -/
def isCancel (id : String) : Call × Answer → Bool
  | (.cancelBeforeCommand q, .cancelled) => q.receiptId = id
  | _ => false

def grants (id : String) (tr : List (Call × Answer)) : Nat := tr.countP (isGrant id)

def cancels (id : String) (tr : List (Call × Answer)) : Nat := tr.countP (isCancel id)

theorem Idle.not_grant {c : Call} {a : Answer} (h : Idle a) (id : String) :
    isGrant id (c, a) = false ∧ isCancel id (c, a) = false := by
  cases c <;> cases a <;> simp only [isGrant, isCancel, and_self] <;> simp_all [Idle]
  rcases h with h | h <;> simp [h]

/-- What the number of grants and cancellations of a receipt is in each of its states. -/
def Balance (grants cancels : Nat) : Option UndoRollbackState → Prop
  | none | some .available => grants = cancels
  | some .executing => grants = cancels + 1
  | some .consumed | some .quarantined | some .superseded => grants ≤ cancels + 1

theorem Balance.le {m n : Nat} {st : Option UndoRollbackState} (h : Balance m n st) : m ≤ n + 1 := by
  rcases st with _ | _ | _ | _ | _ | _ <;> simp only [Balance] at h <;> omega

theorem Balance.spent {m n : Nat} {st : UndoRollbackState} (h : m ≤ n + 1) (hs : Spent st) :
    Balance m n (some st) := by
  rcases hs with rfl | rfl | rfl <;> exact h

/-- The counts after one more call follow the state of each receipt. -/
theorem Step.balance {c : Call} {a : Answer} (h : Step g c a g') {id : String} {m n : Nat}
    (hb : Balance m n (g.stateOf id)) :
    Balance (m + if isGrant id (c, a) then 1 else 0) (n + if isCancel id (c, a) then 1 else 0)
      (g'.stateOf id) := by
  cases h with
  | idle hi => simpa [(hi.not_grant id).1, (hi.not_grant id).2] using hb
  | replayed _ _ _ _ => simpa [isGrant, isCancel] using hb
  | @registered r _ hnew _ =>
      simp only [isGrant, isCancel, addEntry_stateOf]
      by_cases hid : id = r.receiptId
      · subst hid; simpa [stateOf, hnew, Balance] using hb
      · simpa [hid] using hb
  | @superseded r j e _ hnew hact _ =>
      simp only [isGrant, isCancel, addEntry_stateOf, setState_stateOf]
      by_cases hid : id = r.receiptId
      · subst hid; simpa [stateOf, hnew, Balance] using hb
      · by_cases hj : id = j
        · subst hj
          have he : g.entriesByReceipt id = some e := (activeEntry_eq_some.mp hact).2
          simpa [hid, stateOf, he] using Balance.spent hb.le (Or.inr (Or.inr rfl))
        · simpa [hid, hj] using hb
  | @granted q e _ _ he _ hst =>
      simp only [isGrant, isCancel, setAttempt_stateOf, setState_stateOf]
      by_cases hid : id = q.receiptId
      · subst hid; simpa [stateOf, he, hst, Balance] using hb
      · simpa [hid, Ne.symm hid] using hb
  | @completed q e att _ _ hx =>
      simp only [isGrant, isCancel, setAttempt_stateOf, setState_stateOf]
      by_cases hid : id = q.receiptId
      · subst hid; simpa [stateOf, hx.entry] using Balance.spent hb.le (Or.inl rfl)
      · simpa [hid] using hb
  | @quarantined q e att hx =>
      simp only [isGrant, isCancel, setState_stateOf]
      by_cases hid : id = q.receiptId
      · subst hid; simpa [stateOf, hx.entry] using Balance.spent hb.le (Or.inr (Or.inl rfl))
      · simpa [hid] using hb
  | @cancelled q e att hx =>
      simp only [isGrant, isCancel, setAttempt_stateOf, setState_stateOf]
      by_cases hid : id = q.receiptId
      · subst hid
        simp only [stateOf, hx.entry, Option.map_some, hx.state, Balance] at hb
        simpa [stateOf, hx.entry, Balance] using hb
      · simpa [hid, Ne.symm hid] using hb
  | @invalidated d j e hact _ =>
      simp only [isGrant, isCancel, setState_stateOf]
      by_cases hj : id = j
      · subst hj
        have he : g.entriesByReceipt id = some e := (activeEntry_eq_some.mp hact).2
        simpa [stateOf, he] using Balance.spent hb.le (Or.inr (Or.inr rfl))
      · simpa [hj] using hb

/-- Over a whole run, the grants of a receipt balance its cancellations by its state. -/
theorem balance_run {tr : List (Call × Answer)} {processEpoch : String}
    (h₀ : UndoRollbackRegistry.new processEpoch = .ok g) (h : system.Run g tr g') (id : String) :
    Balance (grants id tr) (cancels id tr) (g'.stateOf id) := by
  refine h.induct (I := fun tr g => Balance (grants id tr) (cancels id tr) (g.stateOf id)) ?_ ?_
  · cases hv : validateText processEpoch "processEpoch" with
    | error e => simp [UndoRollbackRegistry.new, hv] at h₀
    | ok _ =>
        simp only [UndoRollbackRegistry.new, hv] at h₀
        cases h₀
        rfl
  · intro tr t a t' _ hb hs
    have := (step_of_system hs).balance hb
    simpa [grants, cancels, List.countP_append, List.countP_cons] using this

/-- A spent receipt stays spent, and no call grants it. -/
theorem Step.spent {c : Call} {a : Answer} (h : Step g c a g') {id : String}
    {st : UndoRollbackState} (hst : g.stateOf id = some st) (hs : Spent st) :
    isGrant id (c, a) = false ∧ ∃ st', g'.stateOf id = some st' ∧ Spent st' := by
  have hkeep : ∀ {j : String} {u : UndoRollbackState}, Spent u →
      ∃ st', (g.setState j u).stateOf id = some st' ∧ Spent st' := by
    intro j u hu
    rw [setState_stateOf]
    by_cases hj : id = j
    · subst hj; exact ⟨u, by simp [hst], hu⟩
    · exact ⟨st, by simp [hj, hst], hs⟩
  -- A live receipt is another one.
  have hother : ∀ {j : String} {e : Entry}, g.entriesByReceipt j = some e → Live e.state → id ≠ j := by
    rintro j e he hl rfl
    simp only [stateOf, he, Option.map_some, Option.some.injEq] at hst
    subst hst
    exact hs.not_live hl
  cases h with
  | idle hi => exact ⟨(hi.not_grant id).1, st, hst, hs⟩
  | replayed _ _ _ _ => exact ⟨by simp [isGrant], st, hst, hs⟩
  | @registered r _ hnew _ =>
      refine ⟨rfl, st, ?_, hs⟩
      rw [addEntry_stateOf, if_neg, hst]
      rintro rfl
      simp [stateOf, hnew] at hst
  | @superseded r j e _ hnew hact _ =>
      obtain ⟨st', hst', hs'⟩ := @hkeep j .superseded (Or.inr (Or.inr rfl))
      refine ⟨rfl, st', ?_, hs'⟩
      rw [addEntry_stateOf, if_neg, hst']
      rintro rfl
      simp [stateOf, hnew] at hst
  | @granted q e _ _ he _ hav =>
      have hne := hother he (Or.inl hav)
      refine ⟨by simp [isGrant, Ne.symm hne], st, ?_, hs⟩
      rw [setAttempt_stateOf, setState_stateOf, if_neg hne, hst]
  | completed hx => exact ⟨rfl, hkeep (Or.inl rfl)⟩
  | quarantined hx => exact ⟨rfl, hkeep (Or.inr (Or.inl rfl))⟩
  | cancelled hx =>
      have hne := hother hx.entry (Or.inr hx.state)
      refine ⟨rfl, st, ?_, hs⟩
      rw [setAttempt_stateOf, setState_stateOf, if_neg hne, hst]
  | invalidated _ _ => exact ⟨rfl, hkeep (Or.inr (Or.inr rfl))⟩

/-- No call of a run from a registry in which the receipt is spent grants it. -/
theorem spent_run {tr : List (Call × Answer)} (h : system.Run g tr g') {id : String}
    {st : UndoRollbackState} (hst : g.stateOf id = some st) (hs : Spent st) :
    ∀ a ∈ tr, isGrant id a = false := by
  have hrun := h.induct (I := fun tr g => (∃ st, g.stateOf id = some st ∧ Spent st) ∧
    ∀ a ∈ tr, isGrant id a = false) ⟨⟨st, hst, hs⟩, by simp⟩ ?_
  · exact hrun.2
  · rintro tr t ⟨c, a⟩ t' _ ⟨⟨u, hu, hsu⟩, hall⟩ hstep
    obtain ⟨hg, hnext⟩ := (step_of_system hstep).spent hu hsu
    refine ⟨hnext, fun b hb => ?_⟩
    rcases List.mem_append.mp hb with hb | hb
    · exact hall b hb
    · rw [List.mem_singleton.mp hb]; exact hg

/-- Every result kept for replay was stored by a `CompleteSuccess` of the request it is kept for. -/
def Consumers (g : UndoRollbackRegistry) (tr : List (Call × Answer)) : Prop :=
  ∀ a att res, g.attemptByApprovalId a = some att → att.result = some res →
    ∃ data, (Call.completeSuccess att.request data, Answer.completed res) ∈ tr

theorem Step.consumers {c : Call} {a : Answer} {tr : List (Call × Answer)} (h : Step g c a g')
    (hc : Consumers g tr) : Consumers g' (tr ++ [(c, a)]) := by
  have hold : Consumers g (tr ++ [(c, a)]) := by
    intro b att res hb hr
    obtain ⟨data, hd⟩ := hc b att res hb hr
    exact ⟨data, List.mem_append_left _ hd⟩
  -- Replacing one attempt by one without a result loses nothing.
  have hset : ∀ {s : UndoRollbackRegistry} {b : String} {att : Option ApprovalAttempt},
      s.attemptByApprovalId = g.attemptByApprovalId →
      (∀ x res, att = some x → x.result = some res →
        ∃ data, (Call.completeSuccess x.request data, Answer.completed res) ∈ tr ++ [(c, a)]) →
      Consumers (s.setAttempt b att) (tr ++ [(c, a)]) := by
    intro s b att hs hnew d x res hx hr
    rw [setAttempt_attempts] at hx
    split at hx
    · exact hnew x res hx hr
    · rw [hs] at hx; exact hold d x res hx hr
  cases h with
  | idle _ => exact hold
  | replayed _ _ _ _ => exact hold
  | registered _ _ _ => exact hold
  | superseded _ _ _ _ => exact hold
  | granted _ _ _ _ _ => exact hset rfl (by rintro x res ⟨⟩ ⟨⟩)
  | @completed q e att data res hx =>
      refine hset rfl ?_
      rintro x res' ⟨⟩ ⟨⟩
      exact ⟨data, by simp⟩
  | quarantined _ => exact hold
  | cancelled _ => exact hset rfl nofun
  | invalidated _ _ => exact hold

theorem consumers_run {tr : List (Call × Answer)} {processEpoch : String}
    (h₀ : UndoRollbackRegistry.new processEpoch = .ok g) (h : system.Run g tr g') :
    Consumers g' tr := by
  refine h.induct (I := fun tr g => Consumers g tr) ?_
    (fun _ _ _ _ _ hc hs => (step_of_system hs).consumers hc)
  cases hv : validateText processEpoch "processEpoch" with
  | error e => simp [UndoRollbackRegistry.new, hv] at h₀
  | ok _ =>
      simp only [UndoRollbackRegistry.new, hv] at h₀
      cases h₀
      intro a att res ha
      cases ha

/-- A replay answers the very request that stored the result. -/
theorem Step.replay {q : UndoRollbackRequest} {b : UndoRollbackBegin} {tr : List (Call × Answer)}
    (h : Step g (.begin q) (.began b) g') (hc : Consumers g tr) (hk : b.kind = .replay) :
    ∃ res data, b.result = some res ∧ (Call.completeSuccess q data, Answer.completed res) ∈ tr := by
  cases h with
  | idle hi => rcases hi with hi | hi <;> rw [hi] at hk <;> cases hk
  | @replayed _ att res ha hr hd hs =>
      obtain ⟨data, hdata⟩ := hc _ _ _ ha hr
      have hreq : att.request = q := by
        have hs' := matchesScope_iff.mp hs
        have hd' : att.request.requestDigest = q.requestDigest := hd
        rw [hs', hd']
      exact ⟨res, data, rfl, hreq ▸ hdata⟩
  | granted _ _ _ _ _ => cases hk

end UndoRollbackRegistry
end CadHarness.Undo
