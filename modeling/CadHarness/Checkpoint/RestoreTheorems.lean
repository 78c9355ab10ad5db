import CadHarness.Checkpoint.CatalogTheorems
import CadHarness.Checkpoint.Lemmas.RestoreSteps

/-!
# Restores that survive crashes

However calls and processes interleave and wherever they die, a drawing that is taken out of its place stays in
its backup until its entry is committed, and an entry is committed only after the checkpoint was verified.
-/

namespace CadHarness.Checkpoint
open CadHarness.Lib Prog DurableCheckpointRestoreCoordinator

/-- The calls in progress, and what each of them has done. -/
abbrev Places := Nat → Option (RestoreCall × List RestoreStep)

variable {P : RestorePrimitives} {β : Type} {view : β → Option FileFacts} {s s' : RestoreSite β} {c : RestoreCall}
  {tr : List RestorePoolEvent} {qs : Places} {es : List RestoreStep} {i : Nat}

/-! ## What an operation tells -/

/-- The call is answered with the entry of an approval. -/
inductive Told : RestoreStep → String → Option RestoreJournalRecord → Prop
  | read {approvalId : String} {entry : Option RestoreJournalRecord} :
    Told ⟨.tryGet approvalId, .ok entry⟩ approvalId entry
  | created {approvalId : String} {record : RestoreJournalRecord} {u : Unit} :
      Told ⟨.createPrepared approvalId record, .ok u⟩ approvalId (some record)
  | advanced {approvalId scopeDigest : String} {expected next : DurableCheckpointRestoreState}
      {record : RestoreJournalRecord} :
      Told ⟨.transition approvalId scopeDigest expected next, .ok record⟩ approvalId (some record)
  | quarantined {approvalId scopeDigest : String} {record : RestoreJournalRecord} :
      Told ⟨.quarantine approvalId scopeDigest, .ok record⟩ approvalId (some record)

theorem held_after {k : Knowledge} {o : RestoreOp} {r : Except RestoreException o.Value}
    (h : (k.after ⟨o, r⟩).held = true) :
    o ≠ .releaseExecutionLock ∧ (k.held = true ∨ ∃ u, (⟨o, r⟩ : RestoreStep) = ⟨.acquireExecutionLock, .ok u⟩) := by
  cases o with
  | releaseExecutionLock => cases h
  | acquireExecutionLock =>
      refine ⟨nofun, ?_⟩
      cases r with
      | ok u => exact .inr ⟨u, rfl⟩
      | error e => exact .inl h
  | tryGet _ | createPrepared _ _ | transition _ _ _ _ | quarantine _ _ =>
      refine ⟨nofun, .inl ?_⟩
      cases r <;> exact h
  | _ => exact ⟨nofun, .inl h⟩

theorem entry_after {k : Knowledge} {e : RestoreStep} {entry : Option RestoreJournalRecord}
    (h : (k.after e).entry = some entry) :
    (k.entry = some entry ∧ ¬ e.op.ChangesJournal ∧ ((k.after e).held = true → k.held = true)) ∨
      ∃ approvalId, Told e approvalId entry := by
  obtain ⟨o, r⟩ := e
  cases o with
  | acquireExecutionLock =>
      cases r with
      | ok _ => cases h
      | error e => exact .inl ⟨h, id, id⟩
  | releaseExecutionLock => exact .inl ⟨h, id, nofun⟩
  | tryGet approvalId =>
      cases r with
      | ok entry' =>
          cases h
          exact .inr ⟨_, .read⟩
      | error e => exact .inl ⟨h, id, id⟩
  | createPrepared approvalId record =>
      cases r with
      | ok u =>
          cases h
          exact .inr ⟨_, .created⟩
      | error e => cases h
  | transition approvalId scopeDigest expected next =>
      cases r with
      | ok record =>
          cases h
          exact .inr ⟨_, .advanced⟩
      | error e => cases h
  | quarantine approvalId scopeDigest =>
      cases r with
      | ok record =>
          cases h
          exact .inr ⟨_, .quarantined⟩
      | error e => cases h
  | _ => exact .inl ⟨h, id, id⟩

theorem Told.approval {e : RestoreStep} {approvalId : String} {entry : Option RestoreJournalRecord}
    (h : Told e approvalId entry) {request : DurableCheckpointRestoreRequest} (hmay : May P request es e.op) :
    approvalId = request.authorization.approvalId := by
  cases h <;> exact hmay.1

theorem RestoreSite.Failed.not_ok {α : Type} {r : Except RestoreException α} (h : RestoreSite.Failed r) (a : α) :
    r ≠ .ok a := by
  rintro rfl
  obtain ⟨e, he, -⟩ := h
  cases he

theorem RestoreSite.Failed.not_canceled {α : Type} {r : Except RestoreException α} (h : RestoreSite.Failed r) :
    r ≠ .error .operationCanceled := by
  rintro rfl
  obtain ⟨e, he, hne⟩ := h
  cases he
  exact hne rfl

theorem RestoreSite.Updates.told {key : String} {f : RestoreJournalRecord →
    Except RestoreException RestoreJournalRecord}
    {record : RestoreJournalRecord} (h : s.Updates key f (.ok record) s') :
    s'.journal key = some record ∧ ∃ current, s.journal key = some current ∧ f current = .ok record := by
  rcases h with ⟨-, hfailed⟩ | ⟨current, hcurrent, h⟩
  · exact absurd rfl (hfailed.not_ok record)
  · split at h
    · cases h.1
    · rename_i record' hrecord
      obtain ⟨rfl, hr | hfailed⟩ := h
      · cases hr
        exact ⟨by simp, current, hcurrent, hrecord⟩
      · exact absurd rfl (hfailed.not_ok record)

/-- What a call is told of an entry is what the journal has. -/
theorem Told.journal {o : RestoreOp} {r : Except RestoreException o.Value} {approvalId : String}
    {entry : Option RestoreJournalRecord} (h : Told ⟨o, r⟩ approvalId entry) (hact : s.Act P view c o r s') :
    s'.journal (computeApprovalKeyHash P approvalId) = entry := by
  cases h with
  | read =>
      obtain ⟨rfl, hr | hfailed⟩ := hact
      · cases hr
        rfl
      · exact absurd rfl (hfailed.not_ok _)
  | @created _ record u =>
      change s.Creates (computeApprovalKeyHash P approvalId) record (.ok u) s' at hact
      unfold RestoreSite.Creates at hact
      split at hact
      · rename_i existing hexisting
        obtain ⟨rfl, ⟨rfl, -⟩ | hfailed⟩ := hact
        · exact hexisting
        · exact absurd rfl (hfailed.not_ok u)
      · rcases hact with ⟨-, hfailed⟩ | ⟨rfl, -⟩
        · exact absurd rfl (hfailed.not_ok u)
        · simp
  | advanced => exact (RestoreSite.Updates.told hact).1
  | quarantined => exact (RestoreSite.Updates.told hact).1

theorem RestoreSite.Updates.not_canceled {key : String}
    {f : RestoreJournalRecord → Except RestoreException RestoreJournalRecord}
    {r : Except RestoreException RestoreJournalRecord} (h : s.Updates key f r s')
    (hf : ∀ current, f current ≠ .error .operationCanceled) : r ≠ .error .operationCanceled := by
  rcases h with ⟨-, hfailed⟩ | ⟨current, -, h⟩
  · exact hfailed.not_canceled
  · split at h
    · rename_i hcurrent
      rw [h.1, ← hcurrent]
      exact hf current
    · rcases h.2 with rfl | hfailed
      · exact nofun
      · exact hfailed.not_canceled

theorem RestoreJournal.transition_not_canceled (current : RestoreJournalRecord) (scopeDigest : String)
    (expected next : DurableCheckpointRestoreState) :
    RestoreJournal.transition current scopeDigest expected next ≠ .error .operationCanceled := by
  unfold transition
  split <;> try split <;> try split
  all_goals exact nofun

theorem RestoreJournal.quarantine_not_canceled (current : RestoreJournalRecord) (scopeDigest : String) :
    RestoreJournal.quarantine current scopeDigest ≠ .error .operationCanceled := by
  unfold quarantine
  split <;> try split <;> try split
  all_goals exact nofun

/-- The operations of the host of the document. -/
def RestoreOp.OfHost : RestoreOp → Prop
  | .inspect _ | .closeWithoutSave _ | .reopen _ => True
  | _ => False

/-- Only the host of the document observes a cancellation. -/
theorem RestoreSite.Act.not_canceled {o : RestoreOp} {r : Except RestoreException o.Value} (h : s.Act P view c o r s')
    (ho : ¬ o.OfHost) : r ≠ .error .operationCanceled := by
  cases o with
  | inspect _ | closeWithoutSave _ | reopen _ => exact absurd trivial ho
  | catalog call =>
      obtain ⟨r', _, _, -, rfl, -⟩ := h
      cases r' with
      | ok _ => exact nofun
      | error e => cases e <;> exact nofun
  | createPrepared approvalId record =>
      change s.Creates (computeApprovalKeyHash P approvalId) record r s' at h
      unfold Creates at h
      split at h
      · rcases h.2 with ⟨-, rfl⟩ | hfailed
        · exact nofun
        · exact hfailed.not_canceled
      · rcases h with ⟨-, hfailed⟩ | ⟨-, rfl | hfailed⟩
        · exact hfailed.not_canceled
        · exact nofun
        · exact hfailed.not_canceled
  | transition _ scopeDigest expected next =>
      exact Updates.not_canceled h fun current => RestoreJournal.transition_not_canceled current _ _ _
  | quarantine _ scopeDigest => exact Updates.not_canceled h fun current =>
    RestoreJournal.quarantine_not_canceled current _
  | copyDurably name destination =>
      rcases h with ⟨-, hfailed⟩ | ⟨-, _, -, hfailed | ⟨rfl, -⟩⟩
      · exact hfailed.not_canceled
      · exact hfailed.not_canceled
      · exact nofun
  | replaceDurably stagePath targetPath backupPath =>
      rcases h with ⟨-, hfailed⟩ | ⟨-, _, _, -, -, rfl | hfailed, -⟩
      · exact hfailed.not_canceled
      · exact nofun
      · exact hfailed.not_canceled
  | acquireExecutionLock =>
      rcases h with ⟨-, hfailed⟩ | ⟨-, rfl, -⟩
      · exact hfailed.not_canceled
      · exact nofun
  | delete path =>
      rcases h with ⟨-, hfailed⟩ | ⟨-, rfl⟩
      · exact hfailed.not_canceled
      · exact nofun
  | validateTargetPath _ | tryGet _ =>
      rcases h.2 with rfl | hfailed
      · exact nofun
      · exact hfailed.not_canceled
  | protectTargetLocator path approvalKeyHash scopeDigest =>
      rcases h.2 with ⟨_, rfl⟩ | hfailed
      · exact nofun
      · exact hfailed.not_canceled
  | readDwgFacts _ | readArtifactFacts _ =>
      rcases h.2 with hfailed | ⟨_, _, -, -, rfl⟩
      · exact hfailed.not_canceled
      · exact nofun
  | releaseExecutionLock =>
      rw [h.1]
      exact nofun
  | fileExists path =>
      rw [h.2]
      exact nofun
  | isCancellationRequested =>
      obtain ⟨-, _, rfl⟩ := h
      exact nofun

/-! ## The invariant -/

/-- A living call in progress that holds the lock. -/
structure Holds (s : RestoreSite β) (qs : Places) (i : Nat) (c : RestoreCall) (es : List RestoreStep) : Prop where
  place : qs i = some (c, es)
  alive : s.Alive c.process
  held : (knowledge es).held = true

/-- Some call of the entry's approval and scope, of which `Q` holds. -/
def SomeCall (P : RestorePrimitives) (tr : List RestorePoolEvent) (key : String) (record : RestoreJournalRecord)
    (Q : RestoreCall → List RestoreStep → Prop) : Prop :=
  ∃ i c, Event.start i c ∈ tr ∧ entryKey P c.request = key ∧ Scoped P c.request record.scopeDigest ∧
    Q c (Pool.callTrace i tr)

/-- The call has seen what a verified entry stands for. -/
def SawVerified (P : RestorePrimitives) (record : RestoreJournalRecord) (c : RestoreCall) (es : List RestoreStep) :
    Prop :=
  VerifiedIn P c.request record es

/-- The call has seen what a committed entry stands for, and its checkpoint is consumed. -/
def SawSettled (P : RestorePrimitives) (S : Store) (record : RestoreJournalRecord) (c : RestoreCall)
    (es : List RestoreStep) : Prop :=
  SettledIn P c.request record es ∧ Consumed c.request.authorization.checkpointId S

/-- What an entry of the journal stands for. -/
structure Founded (P : RestorePrimitives) (tr : List RestorePoolEvent) (S : Store) (key : String)
    (record : RestoreJournalRecord) : Prop where
  named : WellNamed key record
  reserved : SomeCall P tr key record fun _ _ => True
  verified : record.state = .verified ∨ record.state = .committed → SomeCall P tr key record (SawVerified P record)
  committed : record.state = .committed → SomeCall P tr key record (SawSettled P S record)

/-- What a reply tells. -/
structure Tells (P : RestorePrimitives) (s : RestoreSite β) (c : RestoreCall) (es : List RestoreStep)
    (result : DurableCheckpointRestoreResult) : Prop where
  settled : result.outcome = .completed ∨ result.outcome = .replayed →
    result.restoredRevision = some c.request.authorization.preRevision ∧
      ∃ record, s.journal (entryKey P c.request) = some record ∧ record.state = .committed ∧
        Scoped P c.request record.scopeDigest
  untouched : result.outcome = .cancelled ∨ result.outcome = .rejected ∨ result.outcome = .scopeConflict → Untouched es

structure RestoreInv (P : RestorePrimitives) (tr : List RestorePoolEvent) (s : RestoreSite β) (qs : Places) : Prop where
  traces : Pool.Traces tr qs
  present : ∀ {i c es}, qs i = some (c, es) → s.process c.process ≠ .absent
  lock : ∀ {i c es}, Holds s qs i c es → s.lock = some c.process
  unique : ∀ {i c es j d es'}, Holds s qs i c es → Holds s qs j d es' → i = j
  known : ∀ {i c es entry}, Holds s qs i c es → (knowledge es).entry = some entry →
    s.journal (entryKey P c.request) = entry
  committed : ∀ {i c es record}, qs i = some (c, es) → (knowledge es).entry = some (some record) →
    record.state = .committed → s.journal (entryKey P c.request) = some record
  begun : ∀ {i c es}, qs i = some (c, es) → ¬ Untouched es → s.journal (entryKey P c.request) ≠ none
  entries : ∀ {key record}, s.journal key = some record → Founded P tr s.store key record
  consumed : ∀ {i c es}, qs i = some (c, es) → ConsumedIn c.request es →
    Consumed c.request.authorization.checkpointId s.store
  replied : ∀ {i c a}, Event.reply i c a ∈ tr → qs i = none
  replies : ∀ {i c result}, Event.reply i c (.ok result) ∈ tr → Tells P s c (Pool.callTrace i tr) result

theorem RestoreInv.initial (h : s.Initial P) : RestoreInv P [] s fun _ => none where
  traces := Pool.traces_nil
  present := nofun
  lock := fun h => absurd h.place nofun
  unique := fun h => absurd h.place nofun
  known := fun h => absurd h.place nofun
  committed := nofun
  begun := nofun
  entries := fun {key _} he => by rw [h.2.1 key] at he; cases he
  consumed := nofun
  replied := nofun
  replies := nofun

/-- What a call is answered is what its guard expects. -/
theorem RestoreInv.allowed (h : RestoreInv P tr s qs) (hi : qs i = some (c, es)) {o : RestoreOp}
    {r : Except RestoreException o.Value} (hmay : May P c.request es o) (hact : s.Act P view c o r s') :
    Allowed P es o r := by
  cases o with
  | inspect _ | closeWithoutSave _ | reopen _ => trivial
  | tryGet approvalId =>
      have hjournal : ∀ entry, r = .ok entry → s'.journal (computeApprovalKeyHash P approvalId) = entry := by
        rintro entry rfl
        exact Told.journal .read hact
      obtain rfl : s' = s := hact.1
      refine ⟨hact.not_canceled id, fun hnone => ?_, fun record hrecord => ?_⟩
      · by_contra hu
        exact h.begun hi hu (by rw [entryKey, ← hmay.1]; exact hjournal _ hnone)
      · exact (h.entries (hjournal _ hrecord)).named
  | transition approvalId scopeDigest expected next =>
      refine ⟨hact.not_canceled id, ?_⟩
      rintro record rfl
      obtain ⟨-, current, hcurrent, hrecord⟩ := RestoreSite.Updates.told hact
      obtain ⟨hscope, rfl, hlater⟩ := RestoreJournal.transition_ok hrecord
      exact ⟨hlater.wellNamed (h.entries hcurrent).named, hscope, rfl⟩
  | _ => exact hact.not_canceled id

/-! ## What stays -/

theorem VerifiedIn.mono {request : DurableCheckpointRestoreRequest} {record : RestoreJournalRecord}
    {es es' : List RestoreStep} (h : VerifiedIn P request record es) (hes : es <+: es') :
    VerifiedIn P request record es' := by
  obtain ⟨snapshot, hrestored, hsteps⟩ := h
  exact ⟨snapshot, hrestored, hsteps.trans hes.sublist⟩

theorem ConsumedIn.mono {request : DurableCheckpointRestoreRequest} {es es' : List RestoreStep}
    (h : ConsumedIn request es) (hes : es <+: es') : ConsumedIn request es' := by
  obtain ⟨checkpoint, ⟨hmem, hstate⟩ | hmem⟩ := h
  · exact ⟨checkpoint, .inl ⟨hes.subset hmem, hstate⟩⟩
  · exact ⟨checkpoint, .inr (hes.subset hmem)⟩

theorem SettledIn.mono {request : DurableCheckpointRestoreRequest} {record : RestoreJournalRecord}
    {es es' : List RestoreStep} (h : SettledIn P request record es) (hes : es <+: es') :
    SettledIn P request record es' := by
  obtain ⟨⟨snapshot, hrestored, hsteps⟩, hconsumed⟩ := h
  exact ⟨⟨snapshot, hrestored, hsteps.trans hes.sublist⟩, hconsumed.mono hes⟩

theorem SomeCall.mono {key : String} {record : RestoreJournalRecord} {Q Q' : RestoreCall → List RestoreStep → Prop}
    (h : SomeCall P tr key record Q) (tr' : List RestorePoolEvent)
    (hQ : ∀ c es es', es <+: es' → Q c es → Q' c es') : SomeCall P (tr ++ tr') key record Q' := by
  obtain ⟨i, c, hstart, hkey, hscope, hc⟩ := h
  exact ⟨i, c, List.mem_append_left _ hstart, hkey, hscope, hQ c _ _ (Pool.callTrace_prefix i tr tr') hc⟩

theorem SomeCall.later {key : String} {record record' : RestoreJournalRecord}
    {Q : RestoreCall → List RestoreStep → Prop}
    (h : SomeCall P tr key record Q) (hlater : record.Later record') : SomeCall P tr key record' Q := by
  obtain ⟨i, c, hstart, hkey, hscope, hc⟩ := h
  exact ⟨i, c, hstart, hkey, hlater.scopeDigest ▸ hscope, hc⟩

/-- What an entry stands for stays, and the checkpoint of a committed one stays consumed. -/
theorem Founded.mono {S S' : Store} {key : String} {record : RestoreJournalRecord} (h : Founded P tr S key record)
    (tr' : List RestorePoolEvent) (hS : ∀ checkpointId, Consumed checkpointId S → Consumed checkpointId S') :
    Founded P (tr ++ tr') S' key record where
  named := h.named
  reserved := h.reserved.mono tr' fun _ _ _ _ _ => trivial
  verified := fun hstate => (h.verified hstate).mono tr' fun _ _ _ hes hc => VerifiedIn.mono hc hes
  committed := fun hstate => (h.committed hstate).mono tr' fun _ _ _ hes hc => ⟨hc.1.mono hes, hS _ hc.2⟩

theorem Tells.mono {result : DurableCheckpointRestoreResult} (h : Tells P s c es result)
    (hs : ∀ key record, s.journal key = some record → record.state = .committed → s'.journal key = some record) :
    Tells P s' c es result where
  settled := fun houtcome => by
    obtain ⟨hrevision, record, hrecord, hcommitted, hscope⟩ := h.settled houtcome
    exact ⟨hrevision, record, hs _ _ hrecord hcommitted, hcommitted, hscope⟩
  untouched := h.untouched

theorem callTrace_concat {e : RestorePoolEvent} (h : Pool.callTrace i [e] = []) :
    Pool.callTrace i (tr ++ [e]) = Pool.callTrace i tr := by
  rw [Pool.callTrace_append, h, List.append_nil]

/-! ## Steps of the world -/

theorem RestoreInv.world (h : RestoreInv P tr s qs) (ev : RestoreEvent)
    (hprocess : ∀ p, s.process p ≠ .absent →
      s'.process p ≠ .absent ∧ (s'.Alive p → s.Alive p ∧ (s.lock = some p → s'.lock = some p)))
    (hjournal : s'.journal = s.journal) (hstore : ∀ id, Consumed id s.store → Consumed id s'.store) :
    RestoreInv P (tr ++ [.env ev]) s' qs := by
  have hholds : ∀ {i c es}, Holds s' qs i c es → Holds s qs i c es ∧
    (s.lock = some c.process → s'.lock = some c.process) := by
    intro i c es hh
    obtain ⟨halive, hlock⟩ := (hprocess _ (h.present hh.place)).2 hh.alive
    exact ⟨⟨hh.place, halive, hh.held⟩, hlock⟩
  have hreply : ∀ {i c a}, Event.reply i c a ∈ tr ++ [Event.env ev] → Event.reply i c a ∈ tr := by
    intro i c a hmem
    exact (List.mem_append.mp hmem).resolve_right fun hmem => by cases List.mem_singleton.mp hmem
  exact {
    traces := h.traces.env ev
    present := fun hi => (hprocess _ (h.present hi)).1
    lock := fun hh => (hholds hh).2 (h.lock (hholds hh).1)
    unique := fun hh hh' => h.unique (hholds hh).1 (hholds hh').1
    known := fun hh he => by rw [hjournal]; exact h.known (hholds hh).1 he
    committed := fun hi he hc => by rw [hjournal]; exact h.committed hi he hc
    begun := fun hi hu => by rw [hjournal]; exact h.begun hi hu
    entries := fun he => (h.entries (by rw [← hjournal]; exact he)).mono _ hstore
    consumed := fun hi hc => hstore _ (h.consumed hi hc)
    replied := fun hmem => h.replied (hreply hmem)
    replies := fun hmem => by
      rw [callTrace_concat rfl]
      exact (h.replies (hreply hmem)).mono fun _ _ he _ => by rw [hjournal]; exact he }

theorem RestoreInv.env (h : RestoreInv P tr s qs) {ev : RestoreEvent} (he : RestoreSite.Env P s ev s') :
    RestoreInv P (tr ++ [.env ev]) s' qs := by
  cases he with
  | @started p habsent =>
      refine h.world _ (fun p' hp' => ?_) rfl fun _ => id
      have hne : p' ≠ p := by
        rintro rfl
        exact hp' habsent
      simp only [RestoreSite.Alive, Function.update_of_ne hne]
      exact ⟨hp', fun halive => ⟨halive, id⟩⟩
  | @crashed p halive =>
      refine h.world _ (fun p' hp' => ?_) rfl fun _ => id
      by_cases hpp : p' = p
      · subst hpp
        simp [RestoreSite.Alive]
      · simp only [RestoreSite.Alive, Function.update_of_ne hpp]
        refine ⟨hp', fun halive => ⟨halive, fun hlock => ?_⟩⟩
        rw [if_neg (by rw [hlock]; exact fun hsame => hpp (Option.some.inj hsame)), hlock]
  | stored hstep => exact h.world _ (fun p' hp' => ⟨hp', fun halive => ⟨halive, id⟩⟩) rfl fun _ hc => hc.step hstep
  | written _ => exact h.world _ (fun p' hp' => ⟨hp', fun halive => ⟨halive, id⟩⟩) rfl fun _ => id

/-! ## Calls that start and reply -/

theorem update_places {qs : Places} {i j : Nat} {x : Option (RestoreCall × List RestoreStep)}
    {y : Option (RestoreCall × List RestoreStep)} (h : Function.update qs i x j = y) :
    j = i ∧ x = y ∨ j ≠ i ∧ qs j = y := by
  by_cases hj : j = i
  · subst hj
    rw [Function.update_self] at h
    exact .inl ⟨rfl, h⟩
  · rw [Function.update_of_ne hj] at h
    exact .inr ⟨hj, h⟩

theorem RestoreInv.start (h : RestoreInv P tr s qs) (hfresh : ∀ e ∈ tr, e.thread? ≠ some i)
    (halive : s.Alive c.process) :
    RestoreInv P (tr ++ [.start i c]) s (Function.update qs i (some (c, []))) := by
  have hplace : ∀ {j d es}, Function.update qs i (some (c, [])) j = some (d, es) →
      d = c ∧ es = [] ∨ qs j = some (d, es) := by
    intro j d es hj
    rcases update_places hj with ⟨-, hsame⟩ | ⟨-, hj⟩
    · cases hsame
      exact .inl ⟨rfl, rfl⟩
    · exact .inr hj
  have hholds : ∀ {j d es}, Holds s (Function.update qs i (some (c, []))) j d es → Holds s qs j d es := by
    intro j d es hh
    rcases hplace hh.place with ⟨rfl, rfl⟩ | hj
    · cases hh.held
    · exact ⟨hj, hh.alive, hh.held⟩
  have hreply : ∀ {j d a}, Event.reply j d a ∈ tr ++ [Event.start i c] → Event.reply j d a ∈ tr := by
    intro j d a hmem
    exact (List.mem_append.mp hmem).resolve_right fun hmem => by cases List.mem_singleton.mp hmem
  exact {
    traces := h.traces.start hfresh
    present := fun hj => by
      rcases hplace hj with ⟨rfl, rfl⟩ | hj
      · rw [halive]
        exact nofun
      · exact h.present hj
    lock := fun hh => h.lock (hholds hh)
    unique := fun hh hh' => h.unique (hholds hh) (hholds hh')
    known := fun hh => h.known (hholds hh)
    committed := fun hj he => by
      rcases hplace hj with ⟨rfl, rfl⟩ | hj
      · cases he
      · exact h.committed hj he
    begun := fun hj hu => by
      rcases hplace hj with ⟨rfl, rfl⟩ | hj
      · exact absurd (by simp [Untouched]) hu
      · exact h.begun hj hu
    entries := fun he => (h.entries he).mono _ fun _ => id
    consumed := fun hj hc => by
      rcases hplace hj with ⟨rfl, rfl⟩ | hj
      · simp [ConsumedIn] at hc
      · exact h.consumed hj hc
    replied := fun {j d a} hmem => by
      have hji : j ≠ i := by
        rintro rfl
        exact hfresh _ (hreply hmem) rfl
      rw [Function.update_of_ne hji]
      exact h.replied (hreply hmem)
    replies := fun hmem => by
      rw [callTrace_concat rfl]
      exact h.replies (hreply hmem) }

theorem RestoreInv.reply (h : RestoreInv P tr s qs) (hi : qs i = some (c, es))
    {r : Except RestoreException DurableCheckpointRestoreResult} (hr : Returned P c.request es r) :
    RestoreInv P (tr ++ [.reply i c r]) s (Function.update qs i none) := by
  have hplace : ∀ {j d es}, Function.update qs i none j = some (d, es) → qs j = some (d, es) := by
    intro j d es hj
    exact ((update_places hj).resolve_left fun hsame => by cases hsame.2).2
  have hholds : ∀ {j d es}, Holds s (Function.update qs i none) j d es → Holds s qs j d es := by
    intro j d es hh
    exact ⟨hplace hh.place, hh.alive, hh.held⟩
  exact {
    traces := h.traces.reply r
    present := fun hj => h.present (hplace hj)
    lock := fun hh => h.lock (hholds hh)
    unique := fun hh hh' => h.unique (hholds hh) (hholds hh')
    known := fun hh => h.known (hholds hh)
    committed := fun hj => h.committed (hplace hj)
    begun := fun hj => h.begun (hplace hj)
    entries := fun he => (h.entries he).mono _ fun _ => id
    consumed := fun hj => h.consumed (hplace hj)
    replied := fun {j d a} hmem => by
      rcases List.mem_append.mp hmem with hmem | hmem
      · by_cases hji : j = i
        · rw [hji, Function.update_self]
        · rw [Function.update_of_ne hji]
          exact h.replied hmem
      · cases List.mem_singleton.mp hmem
        rw [Function.update_self]
    replies := fun {j d result} hmem => by
      rw [callTrace_concat rfl]
      rcases List.mem_append.mp hmem with hmem | hmem
      · exact h.replies hmem
      · cases List.mem_singleton.mp hmem
        rw [← (h.traces _ _ _ hi).1]
        refine ⟨fun houtcome => ?_, hr.untouched _ rfl⟩
        obtain ⟨hrevision, record, hentry, hcommitted, hscope⟩ := hr.settled _ rfl houtcome
        exact ⟨hrevision, record, h.committed hi hentry hcommitted, hcommitted, hscope⟩ }

/-! ## Operations of a call -/

/-- Whatever matters to another call is done under the lock. -/
theorem May.held {request : DurableCheckpointRestoreRequest} {o : RestoreOp} (h : May P request es o)
    (ho : o.ChangesJournal ∨ o.ChangesFiles ∨ o = .releaseExecutionLock) : (knowledge es).held = true := by
  cases o with
  | createPrepared _ _ => exact h.2.1.1
  | transition _ _ _ _ =>
      obtain ⟨-, -, _, hinside, -⟩ := h
      exact hinside.1
  | quarantine _ _ => exact h.2
  | copyDurably _ _ => exact h.1.1
  | replaceDurably _ _ _ =>
      obtain ⟨-, _, hinside, -⟩ := h
      exact hinside.1
  | delete _ => exact h.1
  | releaseExecutionLock => exact h
  | _ => simp [RestoreOp.ChangesJournal, RestoreOp.ChangesFiles] at ho

namespace RestoreInv

variable {o : RestoreOp} {r : Except RestoreException o.Value}

theorem inside (h : RestoreInv P tr s qs) (hi : qs i = some (c, es)) (halive : s.Alive c.process)
    {entry : Option RestoreJournalRecord} (hinside : Inside es entry) : s.journal (entryKey P c.request) = entry :=
  h.known ⟨hi, halive, hinside.1⟩ hinside.2

/-- What else is done in the site while a call holds the lock leaves the journal and the lock alone. -/
theorem undisturbed (h : RestoreInv P tr s qs) (hi : qs i = some (c, es)) (halive : s.Alive c.process)
    (hmay : May P c.request es o) (hact : s.Act P view c o r s') {j : Nat} {d : RestoreCall} {es' : List RestoreStep}
    (hj : Holds s qs j d es') (hji : j ≠ i) : s'.journal = s.journal ∧ s'.lock = s.lock := by
  have hidle : ¬ (o.ChangesJournal ∨ o.ChangesFiles ∨ o = .releaseExecutionLock) := fun ho =>
    hji (h.unique hj ⟨hi, halive, hmay.held ho⟩)
  simp only [not_or] at hidle
  refine ⟨hact.frame.journal hidle.1, ?_⟩
  by_cases hlock : o.ChangesLock
  · cases o with
    | acquireExecutionLock =>
        rcases hact with ⟨rfl, -⟩ | ⟨hfree, -, -⟩
        · rfl
        · rw [h.lock hj] at hfree
          cases hfree
    | releaseExecutionLock => exact absurd rfl hidle.2.2
    | _ => exact hlock.elim
  · exact hact.frame.lock hlock

theorem entry_act (h : RestoreInv P tr s qs) (hi : qs i = some (c, es)) (halive : s.Alive c.process)
    (hmay : May P c.request es o) (hact : s.Act P view c o r s')
    (hstore : ∀ id, Consumed id s.store → Consumed id s'.store) {key : String} {record : RestoreJournalRecord}
    (hrecord : s'.journal key = some record) : Founded P (tr ++ [.act i c o r]) s'.store key record := by
  have hstart : Event.start i c ∈ tr ++ [.act i c o r] := List.mem_append_left _ (h.traces _ _ _ hi).2
  have htrace : es <+: Pool.callTrace i (tr ++ [.act i c o r]) := by
    rw [(h.traces _ _ _ hi).1]
    exact Pool.callTrace_prefix ..
  have hstep := hact.entry key
  rw [hrecord] at hstep
  generalize hold : s.journal key = old at hstep
  cases hstep with
  | kept => exact (h.entries hold).mono _ hstore
  | created =>
      obtain ⟨rfl, -, hprepared, hnamed, hscope⟩ := hmay
      refine ⟨hnamed, ⟨i, c, hstart, rfl, hscope, trivial⟩, ?_, ?_⟩
      · rintro (hstate | hstate) <;> cases hprepared.symm.trans hstate
      · intro hstate
        cases hprepared.symm.trans hstate
  | @advanced _ _ expected next current _ htransition =>
      obtain ⟨rfl, hallowed, known, hinside, hexpected, -, hscope, hjustified⟩ := hmay
      obtain ⟨rfl, rfl, hlater⟩ := RestoreJournal.transition_ok htransition
      obtain rfl : known = current := Option.some.inj ((h.inside hi halive hinside).symm.trans hold)
      have hfounded := h.entries hold
      have hold' := hfounded.mono [.act i c _ r] hstore
      refine ⟨hlater.wellNamed hfounded.named, hold'.reserved.later hlater, ?_, ?_⟩
      · rintro (rfl | rfl)
        · exact ⟨i, c, hstart, rfl, hscope, VerifiedIn.mono hjustified htrace⟩
        · refine (hold'.verified (.inl ?_)).later hlater
          rw [hexpected]
          cases expected <;> first | rfl | cases hallowed
      · rintro rfl
        exact ⟨i, c, hstart, rfl, hscope, SettledIn.mono hjustified htrace, hstore _ (h.consumed hi hjustified.2)⟩
  | quarantined hquarantine =>
      obtain ⟨hstate, hlater⟩ := RestoreJournal.quarantine_ok hquarantine
      have hold' := (h.entries hold).mono [.act i c _ r] hstore
      refine ⟨hlater.wellNamed hold'.named, hold'.reserved.later hlater, ?_, ?_⟩
      · rintro (hc | hc) <;> cases hstate.symm.trans hc
      · intro hc
        cases hstate.symm.trans hc

/-- What the catalog tells a call holds of the catalog. -/
theorem consumed_act (hact : s.Act P view c o r s') (hstore : ∀ id, Consumed id s.store → Consumed id s'.store)
    (hconsumed : ConsumedIn c.request es → Consumed c.request.authorization.checkpointId s.store)
    (h : ConsumedIn c.request (es ++ [⟨o, r⟩])) : Consumed c.request.authorization.checkpointId s'.store := by
  obtain ⟨checkpoint, ⟨hmem, hstate⟩ | hmem⟩ := h
  · rcases List.mem_append.mp hmem with hmem | hmem
    · exact hstore _ (hconsumed ⟨checkpoint, .inl ⟨hmem, hstate⟩⟩)
    · cases List.mem_singleton.mp hmem
      obtain ⟨r', _, _, hstep, hr, rfl⟩ := hact
      cases r' with
      | ok _ =>
          cases hr
          exact hstep.told (.inl ⟨rfl, hstate⟩)
      | error e => cases hr
  · rcases List.mem_append.mp hmem with hmem | hmem
    · exact hstore _ (hconsumed ⟨checkpoint, .inr hmem⟩)
    · cases List.mem_singleton.mp hmem
      obtain ⟨r', _, _, hstep, hr, rfl⟩ := hact
      cases r' with
      | ok _ =>
          cases hr
          exact hstep.told (.inr rfl)
      | error e => cases hr

theorem act (h : RestoreInv P tr s qs) (hi : qs i = some (c, es)) (halive : s.Alive c.process)
    (hmay : May P c.request es o) (hact : s.Act P view c o r s') :
    RestoreInv P (tr ++ [.act i c o r]) s' (Function.update qs i (some (c, es ++ [⟨o, r⟩]))) := by
  have hframe := hact.frame
  have hstore : ∀ id, Consumed id s.store → Consumed id s'.store := by
    intro id hid
    rcases hframe.store with hsame | ⟨e, hstep⟩
    · rwa [hsame]
    · exact hid.step hstep
  have hcommitted : ∀ key record, s.journal key = some record → record.state = .committed →
    s'.journal key = some record := by
    intro key record hrecord hstate
    have hstep := hact.entry key
    rw [hrecord] at hstep
    obtain ⟨record', hrecord', hlater⟩ := hstep.later
    rw [hrecord', hlater.terminal (.inl hstate)]
  have hplace : ∀ {j d es'}, Function.update qs i (some (c, es ++ [⟨o, r⟩])) j = some (d, es') →
      (j = i ∧ d = c ∧ es' = es ++ [⟨o, r⟩]) ∨ (j ≠ i ∧ qs j = some (d, es')) := by
    intro j d es' hj
    rcases update_places hj with ⟨hji, hsame⟩ | hj
    · cases hsame
      exact .inl ⟨hji, rfl, rfl⟩
    · exact .inr hj
  have halive' : ∀ p, s'.Alive p → s.Alive p := by
    intro p hp
    rwa [RestoreSite.Alive, hframe.process] at hp
  -- the call itself held the lock before, or nobody did
  have hbefore : (knowledge (es ++ [⟨o, r⟩])).held = true → (s'.lock = some c.process) ∧
      (Holds s qs i c es ∨ s.lock = none) := by
    intro hheld
    rw [knowledge_concat] at hheld
    obtain ⟨hrelease, hheld | ⟨u, hacquired⟩⟩ := held_after hheld
    · have hh : Holds s qs i c es := ⟨hi, halive, hheld⟩
      refine ⟨?_, .inl hh⟩
      by_cases hlock : o.ChangesLock
      · cases o with
        | acquireExecutionLock => cases (show (knowledge es).held = false from hmay).symm.trans hh.held
        | releaseExecutionLock => exact absurd rfl hrelease
        | _ => exact hlock.elim
      · rw [hframe.lock hlock]
        exact h.lock hh
    · cases hacquired
      rcases hact with ⟨-, hfailed⟩ | ⟨hfree, -, rfl⟩
      · exact absurd rfl (hfailed.not_ok u)
      · exact ⟨rfl, .inr hfree⟩
  -- only the call itself holds what it did not hold before
  have hother : ∀ {j d es'}, Holds s' (Function.update qs i (some (c, es ++ [⟨o, r⟩]))) j d es' → j ≠ i →
      Holds s qs j d es' := by
    intro j d es' hh hji
    have hj := (hplace hh.place).resolve_left fun hsame => hji hsame.1
    exact ⟨hj.2, halive' _ hh.alive, hh.held⟩
  have hexcluded : ∀ {j d es'}, Holds s' (Function.update qs i (some (c, es ++ [⟨o, r⟩]))) j d es' → j ≠ i →
      (knowledge (es ++ [⟨o, r⟩])).held ≠ true := by
    intro j d es' hh hji hheld
    rcases (hbefore hheld).2 with hi | hfree
    · exact hji (h.unique (hother hh hji) hi)
    · rw [h.lock (hother hh hji)] at hfree
      cases hfree
  exact {
    traces := h.traces.act hi o r
    present := fun hj => by
      rw [hframe.process]
      rcases hplace hj with ⟨-, rfl, -⟩ | ⟨-, hj⟩
      · exact h.present hi
      · exact h.present hj
    lock := fun {j d es'} hh => by
      rcases hplace hh.place with ⟨rfl, rfl, rfl⟩ | ⟨hji, -⟩
      · exact (hbefore hh.held).1
      · rw [(h.undisturbed hi halive hmay hact (hother hh hji) hji).2]
        exact h.lock (hother hh hji)
    unique := fun {j d es' k d' es''} hh hh' => by
      rcases hplace hh.place with ⟨rfl, rfl, rfl⟩ | ⟨hji, -⟩
      · by_contra hne
        exact hexcluded hh' (Ne.symm hne) hh.held
      · rcases hplace hh'.place with ⟨rfl, rfl, rfl⟩ | ⟨hki, -⟩
        · exact absurd hh'.held (hexcluded hh hji)
        · exact h.unique (hother hh hji) (hother hh' hki)
    known := fun {j d es' entry} hh he => by
      rcases hplace hh.place with ⟨rfl, rfl, rfl⟩ | ⟨hji, -⟩
      · rw [knowledge_concat] at he
        rcases entry_after he with ⟨he, hjournal, hheld⟩ | ⟨approvalId, htold⟩
        · rw [hframe.journal hjournal]
          exact h.known ⟨hi, halive, hheld (by rw [← knowledge_concat]; exact hh.held)⟩ he
        · rw [entryKey, ← htold.approval hmay]
          exact htold.journal hact
      · rw [(h.undisturbed hi halive hmay hact (hother hh hji) hji).1]
        exact h.known (hother hh hji) he
    committed := fun {j d es' record} hj he hstate => by
      rcases hplace hj with ⟨rfl, rfl, rfl⟩ | ⟨-, hj⟩
      · rw [knowledge_concat] at he
        rcases entry_after he with ⟨he, -, -⟩ | ⟨approvalId, htold⟩
        · exact hcommitted _ _ (h.committed hi he hstate) hstate
        · rw [entryKey, ← htold.approval hmay]
          exact htold.journal hact
      · exact hcommitted _ _ (h.committed hj he hstate) hstate
    begun := fun {j d es'} hj hu => by
      have hkept : ∀ key, s.journal key ≠ none → s'.journal key ≠ none := by
        intro key hkey
        obtain ⟨record, hrecord⟩ := Option.ne_none_iff_exists'.mp hkey
        have hstep := hact.entry key
        rw [hrecord] at hstep
        obtain ⟨record', hrecord', -⟩ := hstep.later
        rw [hrecord']
        exact nofun
      rcases hplace hj with ⟨rfl, rfl, rfl⟩ | ⟨-, hj⟩
      · by_cases hbegun : Untouched es
        · by_cases ho : o.IsReplacement
          · cases o with
            | replaceDurably stagePath targetPath backupPath =>
                obtain ⟨-, record, hinside, -⟩ := hmay
                exact hkept _ (by rw [h.inside hi halive hinside]; exact nofun)
            | _ => exact ho.elim
          · exact absurd (hbegun.concat ho) hu
        · exact hkept _ (h.begun hi hbegun)
      · exact hkept _ (h.begun hj hu)
    entries := fun hrecord => h.entry_act hi halive hmay hact hstore hrecord
    consumed := fun {j d es'} hj hc => by
      rcases hplace hj with ⟨rfl, rfl, rfl⟩ | ⟨-, hj⟩
      · exact consumed_act hact hstore (h.consumed hi) hc
      · exact hstore _ (h.consumed hj hc)
    replied := fun {j d a} hmem => by
      have hreply := (List.mem_append.mp hmem).resolve_right fun hmem => by cases List.mem_singleton.mp hmem
      have hji : j ≠ i := by
        rintro rfl
        cases (h.replied hreply).symm.trans hi
      rw [Function.update_of_ne hji]
      exact h.replied hreply
    replies := fun {j d result} hmem => by
      have hreply := (List.mem_append.mp hmem).resolve_right fun hmem => by cases List.mem_singleton.mp hmem
      have hji : i ≠ j := by
        rintro rfl
        cases (h.replied hreply).symm.trans hi
      rw [callTrace_concat (by simp [Pool.callTrace, hji])]
      exact (h.replies hreply).mono hcommitted }

end RestoreInv

/-! ## The ledger of replacements -/

/-- What the names and digests in a run are taken to tell apart: the approvals by the part of their hash that is in
a file name, and the targets by the digest of the scope. No target has the name of an artifact. -/
structure Distinct (P : RestorePrimitives) (tr : List RestorePoolEvent) : Prop where
  approvals : ∀ {i c j d}, Event.start i c ∈ tr → Event.start j d ∈ tr →
    firstChars (entryKey P c.request) 24 = firstChars (entryKey P d.request) 24 →
    c.request.authorization.approvalId = d.request.authorization.approvalId
  targets : ∀ {i c j d digest}, Event.start i c ∈ tr → Event.start j d ∈ tr → Scoped P c.request digest →
    Scoped P d.request digest → c.request.targetPath = d.request.targetPath
  apart : ∀ {i c}, Event.start i c ∈ tr → ¬ c.request.targetPath.IsArtifact

theorem Distinct.prefix {tr' : List RestorePoolEvent} (h : Distinct P (tr ++ tr')) : Distinct P tr where
  approvals := fun hc hd => h.approvals (List.mem_append_left _ hc) (List.mem_append_left _ hd)
  targets := fun hc hd => h.targets (List.mem_append_left _ hc) (List.mem_append_left _ hd)
  apart := fun hc => h.apart (List.mem_append_left _ hc)

/-- A replacement has the names of its entry, and what it displaced is in the backup until the entry is committed. -/
structure Kept (P : RestorePrimitives) (s : RestoreSite β) (x : Replacement β) (c : RestoreCall)
    (record : RestoreJournalRecord) : Prop where
  approval : x.approvalId = c.request.authorization.approvalId
  entry : s.journal (entryKey P c.request) = some record
  scope : Scoped P c.request record.scopeDigest
  target : x.targetPath = c.request.targetPath
  backup : x.backupPath = c.request.targetPath.sibling record.backupFileName
  displaced : record.state ≠ .committed → s.files x.backupPath = some x.displaced

structure Ledger (P : RestorePrimitives) (tr : List RestorePoolEvent) (s : RestoreSite β) : Prop where
  once : (s.replaced.map (·.approvalId)).Nodup
  kept : ∀ x ∈ s.replaced, ∃ i c record, Event.start i c ∈ tr ∧ Kept P s x c record

theorem Kept.later {x : Replacement β} {record record' : RestoreJournalRecord} (h : Kept P s x c record)
    (hentry : s'.journal (entryKey P c.request) = some record') (hlater : record.Later record')
    (hfile : record.state ≠ .committed → s'.files x.backupPath = s.files x.backupPath) : Kept P s' x c record' where
  approval := h.approval
  entry := hentry
  scope := hlater.scopeDigest ▸ h.scope
  target := h.target
  backup := by
    rw [hlater.facts]
    exact h.backup
  displaced := fun hstate => by
    have hbefore : record.state ≠ .committed := by
      intro hcommitted
      rw [hlater.terminal (.inl hcommitted)] at hstate
      exact hstate hcommitted
    rw [hfile hbefore]
    exact h.displaced hbefore

section

variable {o : RestoreOp} {r : Except RestoreException o.Value}

theorem Kept.named {x : Replacement β} {record : RestoreJournalRecord} (h : Kept P s x c record)
    (hinv : RestoreInv P tr s qs) :
    x.backupPath = c.request.targetPath.sibling (backupFileName (entryKey P c.request) record.scopeDigest) := by
  rw [h.backup, (hinv.entries h.entry).named.backup]

theorem entryKey_length (request : DurableCheckpointRestoreRequest) : (entryKey P request).length = 64 :=
  P.sha256_length _

/-- The backup of one approval is not that of another. -/
theorem approval_of_backup (hdistinct : Distinct P tr) {i j : Nat} {c d : RestoreCall} (hc : Event.start i c ∈ tr)
    (hd : Event.start j d ∈ tr) {digest digest' : String}
    (h : c.request.targetPath.sibling (backupFileName (entryKey P c.request) digest) =
      d.request.targetPath.sibling (backupFileName (entryKey P d.request) digest')) :
    entryKey P c.request = entryKey P d.request := by
  have hname := congrArg FilePath.fileName h
  rw [entryKey, entryKey, hdistinct.approvals hc hd
    (firstChars_of_artifactFileName (entryKey_length _) (entryKey_length _) hname)]

/-- No operation touches the backup of an entry that is not committed. -/
theorem Kept.file (hdistinct : Distinct P tr) (hinv : RestoreInv P tr s qs) (hi : qs i = some (c, es))
    (halive : s.Alive c.process) (hmay : May P c.request es o) (hact : s.Act P view c o r s') {x : Replacement β}
    {j : Nat} {d : RestoreCall} {record : RestoreJournalRecord} (hd : Event.start j d ∈ tr) (hx : Kept P s x d record)
    (hstate : record.state ≠ .committed) : s'.files x.backupPath = s.files x.backupPath := by
  have hc := (hinv.traces _ _ _ hi).2
  have hstage : ∀ key digest, x.backupPath ≠ c.request.targetPath.sibling (stageFileName key digest) := by
    intro key digest hsame
    rw [hx.named hinv] at hsame
    exact stage_ne_backup _ _ _ _ (congrArg FilePath.fileName hsame).symm
  by_cases ho : o.ChangesFiles
  · cases o with
    | copyDurably name path =>
        obtain ⟨-, digest, rfl⟩ := hmay
        rcases hact with ⟨rfl, -⟩ | ⟨-, _, rfl, -⟩
        · rfl
        · exact Function.update_of_ne (hstage _ _) ..
    | delete path =>
        rcases hact with ⟨rfl, -⟩ | ⟨rfl, -⟩
        · rfl
        obtain ⟨-, ⟨digest, rfl⟩ | ⟨known, hinside, hcommitted, -, rfl⟩⟩ := hmay
        · exact Function.update_of_ne (hstage _ _) ..
        · refine Function.update_of_ne (fun hsame => hstate ?_) ..
          have hknown := hinv.inside hi halive hinside
          rw [hx.named hinv, (hinv.entries hknown).named.backup] at hsame
          have hentry := hx.entry
          rw [approval_of_backup hdistinct hd hc hsame, hknown] at hentry
          cases hentry
          exact hcommitted
    | replaceDurably stagePath targetPath backupPath =>
        obtain ⟨rfl, known, hinside, -, -, rfl, rfl⟩ := hmay
        rcases hact with ⟨rfl, -⟩ | ⟨hfree, _, _, -, -, -, rfl⟩
        · rfl
        have hnotStage : x.backupPath ≠ c.request.targetPath.sibling known.stageFileName := by
          rw [(hinv.entries (hinv.inside hi halive hinside)).named.stage]
          exact hstage _ _
        have hnotTarget : x.backupPath ≠ c.request.targetPath := by
          intro hsame
          rw [hx.named hinv] at hsame
          exact hdistinct.apart hc (hsame ▸ isArtifact_sibling _ _ _ _)
        have hnotBackup : x.backupPath ≠ c.request.targetPath.sibling known.backupFileName := by
          intro hsame
          rw [← hsame, hx.displaced hstate] at hfree
          cases hfree
        simp [hnotStage, hnotTarget, hnotBackup]
    | _ => exact ho.elim
  · rw [hact.frame.files ho]

/-- The ledger stays while the artifacts and the journal stay. -/
theorem Ledger.of_files (h : Ledger P tr s) (hinv : RestoreInv P tr s qs) (e : RestorePoolEvent)
    (hjournal : s'.journal = s.journal) (hreplaced : s'.replaced = s.replaced)
    (hfiles : ∀ path : FilePath, path.IsArtifact → s'.files path = s.files path) : Ledger P (tr ++ [e]) s' where
  once := hreplaced ▸ h.once
  kept := fun x hx => by
    rw [hreplaced] at hx
    obtain ⟨i, c, record, hstart, hkept⟩ := h.kept x hx
    refine ⟨i, c, record, List.mem_append_left _ hstart,
      hkept.later (by rw [hjournal]; exact hkept.entry) (.refl _) fun _ => hfiles _ ?_⟩
    rw [hkept.named hinv]
    exact isArtifact_sibling ..

theorem Ledger.env (h : Ledger P tr s) (hinv : RestoreInv P tr s qs) {ev : RestoreEvent}
    (he : RestoreSite.Env P s ev s') : Ledger P (tr ++ [.env ev]) s' := by
  cases he with
  | @written path content hpath =>
      refine h.of_files hinv _ rfl rfl fun path' hpath' => Function.update_of_ne ?_ ..
      rintro rfl
      exact hpath hpath'
  | _ => exact h.of_files hinv _ rfl rfl fun _ _ => rfl

theorem Ledger.act (h : Ledger P tr s) (hdistinct : Distinct P tr) (hinv : RestoreInv P tr s qs)
    (hi : qs i = some (c, es)) (halive : s.Alive c.process) (hmay : May P c.request es o)
    (hact : s.Act P view c o r s') : Ledger P (tr ++ [.act i c o r]) s' := by
  have hc := (hinv.traces _ _ _ hi).2
  have hkept : ∀ x ∈ s.replaced, ∃ j d record, Event.start j d ∈ tr ++ [.act i c o r] ∧ Kept P s' x d record := by
    intro x hx
    obtain ⟨j, d, record, hd, hkept⟩ := h.kept x hx
    have hstep := hact.entry (entryKey P d.request)
    rw [hkept.entry] at hstep
    obtain ⟨record', hrecord', hlater⟩ := hstep.later
    exact ⟨j, d, record', List.mem_append_left _ hd,
      hkept.later hrecord' hlater fun hstate => hkept.file hdistinct hinv hi halive hmay hact hd hstate⟩
  by_cases ho : o.IsReplacement
  · cases o with
    | replaceDurably stagePath targetPath backupPath =>
        obtain ⟨rfl, known, hinside, hprepared, hscope, rfl, rfl⟩ := hmay
        have hknown := hinv.inside hi halive hinside
        rcases hact with ⟨rfl, -⟩ | ⟨hfree, staged, displaced, -, -, -, rfl⟩
        · exact ⟨h.once, hkept⟩
        refine ⟨?_, ?_⟩
        · -- a replacement of the same approval has its drawing where this one needs no file
          rw [List.map_append, List.map_singleton]
          refine List.Nodup.append h.once (List.nodup_singleton _) ?_
          intro approvalId hmem hthis
          rw [List.mem_singleton] at hthis
          obtain ⟨x, hx, hsame⟩ := List.mem_map.mp hmem
          obtain ⟨j, d, record, hd, hold⟩ := h.kept x hx
          have hkey : entryKey P d.request = entryKey P c.request := by
            rw [entryKey, entryKey, ← hold.approval, hsame, hthis]
          have hentry := hold.entry
          rw [hkey, hknown] at hentry
          cases hentry
          rw [← hdistinct.targets hd hc hold.scope hscope, ← hold.backup,
            hold.displaced (by rw [hprepared]; exact nofun)] at hfree
          cases hfree
        · intro x hx
          rcases List.mem_append.mp hx with hx | hx
          · exact hkept x hx
          · rw [List.mem_singleton.mp hx]
            refine ⟨i, c, known, List.mem_append_left _ hc, rfl, hknown, hscope, rfl, rfl, fun _ => ?_⟩
            have hne : c.request.targetPath.sibling known.backupFileName ≠
                c.request.targetPath.sibling known.stageFileName := by
              intro hsame
              have hnamed := (hinv.entries hknown).named
              have hname := congrArg FilePath.fileName hsame
              simp only [FilePath.sibling, hnamed.backup, hnamed.stage] at hname
              exact stage_ne_backup _ _ _ _ hname.symm
            simp [hne]
    | _ => exact ho.elim
  · have hreplaced := hact.frame.replaced ho
    exact ⟨hreplaced ▸ h.once, fun x hx => hkept x (hreplaced ▸ hx)⟩

end

/-! ## Runs -/

/-- A call by what it has done. -/
def restoreProtocol (P : RestorePrimitives) : Pool.Protocol restoreSig RestoreCall
    (Except RestoreException DurableCheckpointRestoreResult) (List RestoreStep) (RestoreCall.run P) :=
  Pool.traceProtocol (fun _ => Allowed P) (fun c => May P c.request) (fun c => Returned P c.request)
    fun _ => restoreAsync_keeps

theorem restore_inductive : (restoreProtocol P).Inductive (RestoreSite.world P view)
    fun tr s qs => RestoreInv P tr s qs ∧ (Distinct P tr → Ledger P tr s) where
  start := by
    rintro tr s qs i c ⟨hinv, hledger⟩ - hfresh halive
    exact ⟨hinv.start hfresh halive, fun hdistinct =>
      (hledger hdistinct.prefix).of_files hinv _ rfl rfl fun _ _ => rfl⟩
  act := by
    rintro tr s qs i c es o r s' ⟨hinv, hledger⟩ hi hmay halive hact
    refine ⟨es ++ [⟨o, r⟩], ⟨hinv.allowed hi hmay hact, rfl⟩, hinv.act hi halive hmay hact, fun hdistinct => ?_⟩
    exact (hledger hdistinct.prefix).act hdistinct.prefix hinv hi halive hmay hact
  reply := by
    rintro tr s qs i c es a ⟨hinv, hledger⟩ hi hreturned -
    exact ⟨hinv.reply hi hreturned, fun hdistinct =>
      (hledger hdistinct.prefix).of_files hinv _ rfl rfl fun _ _ => rfl⟩
  env := by
    rintro tr s qs ev s' ⟨hinv, hledger⟩ he
    exact ⟨hinv.env he, fun hdistinct => (hledger hdistinct.prefix).env hinv he⟩

theorem restore_initial (h : s.Initial P) : RestoreInv P [] s (fun _ => none) ∧ (Distinct P [] → Ledger P [] s) := by
  refine ⟨.initial h, fun _ => ⟨?_, ?_⟩⟩ <;> rw [h.2.2.2.2] <;> simp

variable {S₀ S : RestorePool β}

theorem restore_run (hi : (restoreSystem P view).init S₀) (hr : (restoreSystem P view).Run S₀ tr S) :
    ∃ qs, (restoreProtocol P).Holds (fun tr s qs => RestoreInv P tr s qs ∧ (Distinct P tr → Ledger P tr s)) tr S qs :=
  Pool.Protocol.run restore_inductive (fun _ => restore_initial) hi hr

/-! ## A restore where nothing fails -/

namespace RestoreSite

variable (P : RestorePrimitives) (c : RestoreCall)

/-- An entry is read, changed and persisted. -/
def updated (s : RestoreSite FileFacts) (key : String)
    (f : RestoreJournalRecord → Except RestoreException RestoreJournalRecord) :
    Except RestoreException RestoreJournalRecord × RestoreSite FileFacts :=
  match s.journal key with
  | none => (.error .io, s)
  | some current =>
      match f current with
      | .error e => (.error e, s)
      | .ok record => (.ok record, s.setEntry key record)

/-- The operations of a call, on a machine where nothing fails. A file is its facts, and the document has the
revision of its file. -/
def faultless (restored : FileFacts) (s : RestoreSite FileFacts) :
    (o : RestoreOp) → Option (Except RestoreException o.Value × RestoreSite FileFacts)
  | .validateTargetPath _ | .closeWithoutSave _ | .reopen _ => some (.ok (), s)
  | .catalog call =>
      match s.store.instance_ c.process with
      | none => none
      | some a =>
          if a.disposed then none
          else
            match call.run P.catalog .faultless a.key ⟨a.highestObservedGeneration, s.store.disk, []⟩ with
            | .error _ _ => none
            | .ok reply t => some (.ok reply, { s with store := ⟨t.disk, Function.update s.store.instance_ c.process
                (some { a with highestObservedGeneration := t.highestObservedGeneration })⟩ })
  | .acquireExecutionLock =>
      match s.lock with
      | some _ => some (.error .io, s)
      | none => some (.ok (), s.setLock (some c.process))
  | .releaseExecutionLock => some (.ok (), s.setLock none)
  | .tryGet approvalId => some (.ok (s.journal (computeApprovalKeyHash P approvalId)), s)
  | .createPrepared approvalId record =>
      match s.journal (computeApprovalKeyHash P approvalId) with
      | some _ => some (.error .io, s)
      | none => some (.ok (), s.setEntry (computeApprovalKeyHash P approvalId) record)
  | .transition approvalId scopeDigest expected next => some (s.updated (computeApprovalKeyHash P approvalId)
      fun current => RestoreJournal.transition current scopeDigest expected next)
  | .quarantine approvalId scopeDigest => some (s.updated (computeApprovalKeyHash P approvalId)
      fun current => RestoreJournal.quarantine current scopeDigest)
  | .protectTargetLocator .. => some (.ok "locator", s)
  | .readDwgFacts path =>
      match s.files path with
      | none => some (.error .io, s)
      | some facts => some (.ok facts, s)
  | .readArtifactFacts fileName =>
      match s.store.disk.artifact? P.catalog fileName with
      | some (.dwg known) => some (.ok ⟨known.sha256, known.byteLength⟩, s)
      | _ => some (.error .io, s)
  | .fileExists path => some (.ok (s.files path).isSome, s)
  | .copyDurably name destination =>
      match s.files destination, s.store.disk.artifact? P.catalog name with
      | none, some (.dwg known) => some (.ok (), s.setFile destination (some ⟨known.sha256, known.byteLength⟩))
      | _, _ => some (.error .io, s)
  | .replaceDurably stagePath targetPath backupPath =>
      match s.files backupPath, s.files stagePath, s.files targetPath with
      | none, some staged, some displaced => some (.ok (),
          { (((s.setFile targetPath (some staged)).setFile backupPath (some displaced)).setFile stagePath none) with
            replaced := s.replaced ++
              [⟨c.request.authorization.approvalId, stagePath, targetPath, backupPath, displaced⟩] })
      | _, _, _ => some (.error .io, s)
  | .delete path => some (.ok (), s.setFile path none)
  | .inspect path => some (.ok ⟨c.request.authorization.documentId,
      if s.files path = some restored then c.request.authorization.preRevision
      else c.request.authorization.postRevision, P.originalPathHash path, true⟩, s)
  | .isCancellationRequested => some (.ok false, s)

theorem updated_updates (s : RestoreSite FileFacts) (key : String)
    (f : RestoreJournalRecord → Except RestoreException RestoreJournalRecord) :
    s.Updates key f (s.updated key f).1 (s.updated key f).2 := by
  unfold updated
  cases hcurrent : s.journal key with
  | none => exact .inl ⟨rfl, .io, rfl, nofun⟩
  | some current =>
      refine .inr ⟨current, hcurrent, ?_⟩
      cases hf : f current with
      | error e => simp [hf]
      | ok record => simp [hf]

/-- Such a machine is one of those that the calls run on. -/
theorem faultless_act {restored : FileFacts} {s s' : RestoreSite FileFacts} {o : RestoreOp}
    {r : Except RestoreException o.Value} (h : faultless P c restored s o = some (r, s')) :
    s.Act P some c o r s' := by
  have hio : ∀ {α : Type}, Failed (.error .io : Except RestoreException α) := ⟨.io, rfl, nofun⟩
  cases o with
  | catalog call =>
      simp only [faultless] at h
      split at h
      · cases h
      · rename_i a ha
        split at h
        · cases h
        · rename_i hdisposed
          split at h
          · cases h
          · rename_i reply t ht
            cases h
            exact ⟨.ok reply, _, _, .called ha (by simpa using hdisposed) ht, rfl, rfl⟩
  | acquireExecutionLock =>
      simp only [faultless] at h
      split at h
      · cases h
        exact .inl ⟨rfl, hio⟩
      · rename_i hfree
        cases h
        exact .inr ⟨hfree, rfl, rfl⟩
  | createPrepared approvalId record =>
      simp only [faultless] at h
      split at h
      · rename_i existing hexisting
        cases h
        simp only [Act, Creates, hexisting]
        exact ⟨trivial, .inr hio⟩
      · rename_i hnone
        cases h
        simp only [Act, Creates, hnone]
        exact .inr ⟨trivial, .inl trivial⟩
  | transition approvalId scopeDigest expected next =>
      have hupdates := updated_updates s (computeApprovalKeyHash P approvalId)
        fun current => RestoreJournal.transition current scopeDigest expected next
      rwa [Option.some.inj h] at hupdates
  | quarantine approvalId scopeDigest =>
      have hupdates := updated_updates s (computeApprovalKeyHash P approvalId)
        fun current => RestoreJournal.quarantine current scopeDigest
      rwa [Option.some.inj h] at hupdates
  | readDwgFacts path =>
      simp only [faultless] at h
      split at h
      · cases h
        exact ⟨rfl, .inl hio⟩
      · rename_i facts hfacts
        cases h
        exact ⟨rfl, .inr ⟨facts, facts, hfacts, rfl, rfl⟩⟩
  | readArtifactFacts fileName =>
      simp only [faultless] at h
      split at h
      · rename_i known hknown
        cases h
        exact ⟨rfl, .inr ⟨.dwg known, _, hknown, rfl, rfl⟩⟩
      · cases h
        exact ⟨rfl, .inl hio⟩
  | copyDurably name destination =>
      simp only [faultless] at h
      split at h
      · rename_i known hfree hknown
        cases h
        exact .inr ⟨hfree, _, rfl, .inr ⟨rfl, .dwg known, _, hknown, rfl, rfl⟩⟩
      · cases h
        exact .inl ⟨rfl, hio⟩
  | replaceDurably stagePath targetPath backupPath =>
      simp only [faultless] at h
      split at h
      · rename_i staged displaced hfree hstaged hdisplaced
        cases h
        exact .inr ⟨hfree, staged, displaced, hstaged, hdisplaced, .inl rfl, rfl⟩
      · cases h
        exact .inl ⟨rfl, hio⟩
  | validateTargetPath _ | tryGet _ =>
      cases h
      exact ⟨rfl, .inl rfl⟩
  | protectTargetLocator _ _ _ =>
      cases h
      exact ⟨rfl, .inl ⟨_, rfl⟩⟩
  | isCancellationRequested =>
      cases h
      exact ⟨rfl, false, rfl⟩
  | delete _ =>
      cases h
      exact .inr ⟨rfl, rfl⟩
  | fileExists _ =>
      cases h
      exact ⟨rfl, rfl⟩
  | releaseExecutionLock =>
      cases h
      exact ⟨rfl, rfl⟩
  | closeWithoutSave _ | reopen _ | inspect _ =>
      cases h
      rfl

end RestoreSite

/-- A call that runs alone on such a machine, up to `n` of its operations. -/
def RestoreCall.alone (P : RestorePrimitives) (c : RestoreCall) (restored : FileFacts) (s : RestoreSite FileFacts)
    (n : Nat) : List RestoreStep × Prog restoreSig (Except RestoreException DurableCheckpointRestoreResult) ×
      RestoreSite FileFacts :=
  Pool.solo (RestoreSite.faultless P c restored) n (c.run P) s

theorem RestoreSite.faultless_alive {c : RestoreCall} {restored : FileFacts} (s : RestoreSite FileFacts)
    (o : restoreSig.Op) (r : restoreSig.Res o) (s' : RestoreSite FileFacts)
    (h : RestoreSite.faultless P c restored s o = some (r, s')) (halive : s.Alive c.process) :
    s.Act P some c o r s' ∧ s'.Alive c.process := by
  have hact := RestoreSite.faultless_act P c h
  refine ⟨hact, ?_⟩
  rw [Alive, hact.frame.process]
  exact halive

theorem RestoreCall.alone_run {c : RestoreCall} {restored : FileFacts} {s : RestoreSite FileFacts}
    (halive : s.Alive c.process) (n : Nat) :
    (restoreSystem P some).Run ⟨s, 0, fun _ => none⟩
      (.start 0 c :: (c.alone P restored s n).1.map fun e => .act 0 c e.op e.answer)
      ⟨(c.alone P restored s n).2.2, 1, Function.update (fun _ => none) 0 (some (c, (c.alone P restored s n).2.1))⟩ :=
  .cons (.start halive) (Pool.solo_run RestoreSite.faultless_alive 1 _ n (c.run P) halive)

def exampleRestore : RestorePrimitives where
  catalog := examplePrimitives
  sha256 text :=
    if text = "cad-harness-restore-approval-v1\x00approval" then
      "1a7e8033ddecb8bd95e41468abe6ba88367cb4903419c18f39161084cac6d426"
    else "efcabb43418ec62fec01e75241333983752eed2a86e6ff136597307380311d35"
  originalPathHash _ := exampleTag
  sha256_length text := by
    split <;> rfl

def exampleCall : RestoreCall where
  process := 0
  request := {
    authorization := ⟨"approval", exampleTag, "job", "document", "a", "revision", "posted"⟩
    targetPath := ⟨"drawings", "part.dwg"⟩ }

def exampleDrawing : FileFacts := ⟨"1111111111111111111111111111111111111111111111111111111111111111", 5000⟩

/-- The process is running, the checkpoint is registered, and the target is there. -/
def exampleSite : RestoreSite FileFacts where
  store := exampleStore firstRegistered ["a.dwg"]
  files := Function.update (fun _ => none) exampleCall.request.targetPath (some exampleDrawing)
  journal _ := none
  lock := none
  process := Function.update (fun _ => .absent) 0 .running
  replaced := []

/-- The site before that. -/
def emptySite : RestoreSite FileFacts := ⟨emptyStore, fun _ => none, fun _ => none, none, fun _ => .absent, []⟩

/-- The call, up to `n` of its operations. -/
def examplePool (n : Nat) : RestorePool FileFacts :=
  let rest := exampleCall.alone exampleRestore ⟨exampleTag, 4096⟩ exampleSite n
  ⟨rest.2.2, 1, Function.update (fun _ => none) 0 (some (exampleCall, rest.2.1))⟩

def examplePoolTrace (n : Nat) : List RestorePoolEvent :=
  [.env (.stored (.opened 0 (.ok ()) createdSession.written)), .env (.stored .staged),
    .env (.stored (.called 0 (.registerCheckpoint (exampleRegistration "a" "a.dwg"))
      (.ok (.record (exampleRecord "a" "a.dwg" .available)))
      (exampleWritten DurableCheckpointCatalog.emptyCatalog firstRegistered ["a.dwg"]))),
    .env (.started 0), .env (.written exampleCall.request.targetPath)] ++
  .start 0 exampleCall :: (exampleCall.alone exampleRestore ⟨exampleTag, 4096⟩ exampleSite n).1.map fun e =>
    .act 0 exampleCall e.op e.answer

theorem example_apart : ¬ exampleCall.request.targetPath.IsArtifact := by
  unfold FilePath.IsArtifact
  decide

theorem emptySite_init : (restoreSystem exampleRestore some).init (Pool.empty emptySite) :=
  ⟨emptySite, ⟨emptyStore_init, fun _ => rfl, rfl, fun _ => rfl, rfl⟩, rfl⟩

theorem examplePool_run (n : Nat) :
    (restoreSystem exampleRestore some).Run (Pool.empty emptySite) (examplePoolTrace n) (examplePool n) := by
  have hopened : Store.Step examplePrimitives emptyStore (.opened 0 (.ok ()) createdSession.written)
      (exampleStore DurableCheckpointCatalog.emptyCatalog []) :=
    @Store.Step.opened _ _ _ exampleKey .faultless _ rfl createdSession_ran
  have halive : exampleSite.Alive exampleCall.process := rfl
  refine .append ?_ (RestoreCall.alone_run halive n)
  refine .cons (.env (.stored hopened)) ?_
  refine .cons (.env (.stored (exampleStore_stage _ _ ["a.dwg"]))) ?_
  refine .cons (.env (.stored (exampleStore_call (.of_decide (by decide +kernel))))) ?_
  refine .cons (.env (.started rfl)) ?_
  exact .single (.env (.written example_apart))

theorem examplePool_alive (n : Nat) : (examplePool n).world.Alive exampleCall.process :=
  Pool.solo_alive (W := RestoreSite.world exampleRestore some) RestoreSite.faultless_alive n _
    (show exampleSite.Alive exampleCall.process from rfl)

theorem examplePool_start {n i : Nat} {c : RestoreCall} (h : Event.start i c ∈ examplePoolTrace n) :
    c = exampleCall := by
  simp [examplePoolTrace] at h
  exact h.2

theorem examplePool_distinct (n : Nat) : Distinct exampleRestore (examplePoolTrace n) where
  approvals := fun hc hd _ => by rw [examplePool_start hc, examplePool_start hd]
  targets := fun hc hd _ _ => by rw [examplePool_start hc, examplePool_start hd]
  apart := fun hc => by
    rw [examplePool_start hc]
    exact example_apart

/-- However its calls and processes interleave and die, an approval replaces its target at most once, and the
drawing that it takes out of place stays in the backup of its entry until the entry is committed. -/
theorem restore_replaces_once (hi : (restoreSystem P view).init S₀) (hr : (restoreSystem P view).Run S₀ tr S)
    (hdistinct : Distinct P tr) :
    (S.world.replaced.map (·.approvalId)).Nodup ∧
      ∀ x ∈ S.world.replaced, ∃ i c record, Event.start i c ∈ tr ∧ x.approvalId = c.request.authorization.approvalId ∧
        x.targetPath = c.request.targetPath ∧ S.world.journal (entryKey P c.request) = some record ∧
        x.backupPath = c.request.targetPath.sibling record.backupFileName ∧
        (record.state ≠ .committed → S.world.files x.backupPath = some x.displaced) := by
  obtain ⟨qs, h⟩ := restore_run hi hr
  have hledger := h.inv.2 hdistinct
  refine ⟨hledger.once, fun x hx => ?_⟩
  obtain ⟨i, c, record, hstart, hkept⟩ := hledger.kept x hx
  exact ⟨i, c, record, hstart, hkept.approval, hkept.target, hkept.entry, hkept.backup, hkept.displaced⟩

theorem examplePool_replaced :
    (examplePool 27).world.replaced.map (·.displaced) = [exampleDrawing] ∧
      ((examplePool 27).world.journal (entryKey exampleRestore exampleCall.request)).map (·.state) = some
        .replaced := by
  decide +kernel

/-- After 27 operations the target is replaced, and the drawing is in the backup. -/
theorem restore_replaces_once_example :
    (examplePool 27).world.replaced.map (·.displaced) = [exampleDrawing] ∧
      ((examplePool 27).world.replaced.map (·.approvalId)).Nodup ∧
      ∀ x ∈ (examplePool 27).world.replaced, (examplePool 27).world.files x.backupPath = some x.displaced := by
  obtain ⟨honce, hkept⟩ := restore_replaces_once emptySite_init (examplePool_run 27) (examplePool_distinct 27)
  obtain ⟨hdisplaced, hstate⟩ := examplePool_replaced
  refine ⟨hdisplaced, honce, fun x hx => ?_⟩
  obtain ⟨i, c, record, hstart, -, -, hrecord, -, hfile⟩ := hkept x hx
  rw [examplePool_start hstart] at hrecord
  rw [hrecord] at hstate
  have hreplaced : record.state = .replaced := Option.some.inj hstate
  exact hfile (by rw [hreplaced]; exact nofun)

/-- The reply of the whole call. -/
def exampleResult : DurableCheckpointRestoreResult := ⟨.completed, some .committed, some "revision"⟩

def repliedPool : RestorePool FileFacts :=
  ⟨(examplePool 48).world, 1, Function.update (examplePool 48).thread 0 none⟩

theorem examplePool_committed :
    Pool.value? (exampleCall.alone exampleRestore ⟨exampleTag, 4096⟩ exampleSite 48).2.1 = some (.ok exampleResult) ∧
      ((examplePool 48).world.journal (entryKey exampleRestore exampleCall.request)).map (·.state) = some
        .committed := by
  decide +kernel

theorem repliedPool_step :
    (restoreSystem exampleRestore some).step (examplePool 48) (.reply 0 exampleCall (.ok exampleResult))
      repliedPool := by
  have hthread : (examplePool 48).thread 0 = some (exampleCall, .ret (.ok exampleResult)) := by
    rw [← Pool.eq_ret examplePool_committed.1]
    rfl
  exact .reply hthread (examplePool_alive 48)

/-- An entry is verified or committed only where some call of its approval has seen the document restored, and a
committed one has its checkpoint consumed. What a reply says of the restore is so in every later state. -/
theorem restore_founded (hi : (restoreSystem P view).init S₀) (hr : (restoreSystem P view).Run S₀ tr S) :
    (∀ key record, S.world.journal key = some record →
      (record.state = .verified ∨ record.state = .committed →
        SomeCall P tr key record fun c es => VerifiedIn P c.request record es) ∧
      (record.state = .committed → SomeCall P tr key record fun c es => SettledIn P c.request record es ∧
        Consumed c.request.authorization.checkpointId S.world.store)) ∧
      ∀ i c result, Event.reply i c (.ok result) ∈ tr →
        (result.outcome = .completed ∨ result.outcome = .replayed →
          result.restoredRevision = some c.request.authorization.preRevision ∧
            ∃ record, S.world.journal (entryKey P c.request) = some record ∧ record.state = .committed ∧
              Scoped P c.request record.scopeDigest) ∧
        (result.outcome = .cancelled ∨ result.outcome = .rejected ∨ result.outcome = .scopeConflict →
          Untouched (Pool.callTrace i tr)) := by
  obtain ⟨qs, h⟩ := restore_run hi hr
  refine ⟨fun key record hrecord => ?_, fun i c result hreply => ?_⟩
  · have hfounded := h.inv.1.entries hrecord
    exact ⟨hfounded.verified, hfounded.committed⟩
  · have htells := h.inv.1.replies hreply
    exact ⟨htells.settled, htells.untouched⟩

/-- The whole call says that the restore is completed. -/
theorem restore_founded_example :
    ∃ record, repliedPool.world.journal (entryKey exampleRestore exampleCall.request) = some record ∧
      SomeCall exampleRestore (examplePoolTrace 48 ++ [.reply 0 exampleCall (.ok exampleResult)])
        (entryKey exampleRestore exampleCall.request) record
        fun c es => SettledIn exampleRestore c.request record es ∧
          Consumed c.request.authorization.checkpointId repliedPool.world.store := by
  obtain ⟨hentries, hreplies⟩ := restore_founded emptySite_init (.snoc (examplePool_run 48) repliedPool_step)
  obtain ⟨-, record, hrecord, hcommitted, -⟩ := (hreplies 0 exampleCall exampleResult (by simp)).1 (.inl rfl)
  exact ⟨record, hrecord, (hentries _ _ hrecord).2 hcommitted⟩

theorem journal_step {T T' : RestorePool β} {e : RestorePoolEvent} (h : (restoreSystem P view).step T e T')
    {key : String}
    {record : RestoreJournalRecord} (hrecord : T.world.journal key = some record) :
    ∃ record', T'.world.journal key = some record' ∧ record.Later record' := by
  cases h with
  | start _ => exact ⟨record, hrecord, .refl _⟩
  | reply _ _ => exact ⟨record, hrecord, .refl _⟩
  | act _ _ hact =>
      have hstep := hact.entry key
      rw [hrecord] at hstep
      exact hstep.later
  | env he => cases he <;> exact ⟨record, hrecord, .refl _⟩

/-- An entry stays with all its facts, and its state takes only the transitions of the journal. Every change to an
entry or a file is made by the one living call that holds the lock. -/
theorem restore_exclusive {S' : RestorePool β} {tr' : List RestorePoolEvent} (hi : (restoreSystem P view).init S₀)
    (hr : (restoreSystem P view).Run S₀ tr S) (hr' : (restoreSystem P view).Run S tr' S') :
    (∀ key record, S.world.journal key = some record → ∃ record', S'.world.journal key = some record' ∧
      record.Later record' ∧ (record.state = .committed ∨ record.state = .quarantined → record' = record)) ∧
      ∀ i c o r T, (restoreSystem P view).step S (.act i c o r) T → o.ChangesJournal ∨ o.ChangesFiles →
        S.world.lock = some c.process ∧ (knowledge (Pool.callTrace i tr)).held = true ∧
          ∀ j d p, S.thread j = some (d, p) → S.world.Alive d.process →
            (knowledge (Pool.callTrace j tr)).held = true → j = i := by
  refine ⟨fun key record hrecord => ?_, fun i c o r T hstep ho => ?_⟩
  · have hlater := hr'.induct (I := fun _ T => ∃ record', T.world.journal key = some record' ∧ record.Later record')
      ⟨record, hrecord, .refl _⟩ ?_
    · obtain ⟨record', hrecord', hlater⟩ := hlater
      exact ⟨record', hrecord', hlater, hlater.terminal⟩
    · rintro tr T e T' - ⟨record', hrecord', hlater⟩ hstep
      obtain ⟨record'', hrecord'', hlater'⟩ := journal_step hstep hrecord'
      exact ⟨record'', hrecord'', hlater.trans hlater'⟩
  · obtain ⟨qs, h⟩ := restore_run hi hr
    obtain ⟨es, hplace, hmay, halive, -⟩ := h.act_inv hstep
    have hes := (h.inv.1.traces _ _ _ hplace).1
    have hheld : (knowledge es).held = true := hmay.held (ho.imp_right .inl)
    refine ⟨h.inv.1.lock ⟨hplace, halive, hheld⟩, hes ▸ hheld, fun j d p hj hd hheld' => ?_⟩
    have hfits := h.fits j
    rw [hj] at hfits
    obtain ⟨es', hplace', -⟩ := hfits.some
    rw [← (h.inv.1.traces _ _ _ hplace').1] at hheld'
    exact h.inv.1.unique ⟨hplace', hd, hheld'⟩ ⟨hplace, halive, hheld⟩

/-- The committed entry of the call stays as it is. -/
theorem restore_exclusive_example :
    ∃ record, (examplePool 48).world.journal (entryKey exampleRestore exampleCall.request) = some record ∧
      repliedPool.world.journal (entryKey exampleRestore exampleCall.request) = some record := by
  obtain ⟨record, hrecord, hcommitted⟩ := Option.map_eq_some_iff.mp examplePool_committed.2
  obtain ⟨record', hrecord', -, hsame⟩ :=
    (restore_exclusive emptySite_init (examplePool_run 48) (.single repliedPool_step)).1 _ record hrecord
  exact ⟨record, hrecord, hsame (.inl hcommitted) ▸ hrecord'⟩

end CadHarness.Checkpoint
