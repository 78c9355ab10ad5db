import CadHarness.Checkpoint.Lemmas.History
import CadHarness.Checkpoint.Lemmas.Restore

/-!
# What an operation of a restore does

The part of the site that an operation leaves alone, what it makes of an entry of the journal, and what an
answer of the catalog tells of the checkpoint.
-/

namespace CadHarness.Checkpoint
open CadHarness.Lib Prog DurableCheckpointRestoreCoordinator DurableCheckpointCatalog

/-! ## What the catalog tells -/

section

variable {P : Primitives} {key : Key} {io : Io} {s s' : Session} {p : CatalogPayload}

theorem Loaded.ok {r : Except Exception CatalogPayload} (h : Loaded P key s r s') (hr : r = .ok p) :
    s'.disk.payload? = some p ∧ Valid P p := by
  cases h with
  | refused => cases hr
  | clean hv _ _ =>
      cases hr
      exact ⟨hv.payload?, hv.storable.valid⟩
  | @recovered _ x _ _ _ _ _ _ hp =>
      cases x with
      | error e => cases hr
      | ok _ =>
          cases hr
          cases hp with
          | both hst => exact ⟨rfl, hst.valid⟩

/-- What holds of the value and the catalog of an action holds of the value and the catalog on the disk. -/
theorem Freshened.value {α : Type} {A : CatalogPayload → Session → Except Exception (MutationResult α) → Prop}
    {Q : α → CatalogPayload → Prop} {r : Except Exception α} {a : α} (h : Freshened P key A s r s') (hr : r = .ok a)
    (hA : ∀ p u m, A p u (.ok m) → Valid P p → Q m.value m.catalog ∧ (m.shouldPersist = false → m.catalog = p)) :
    ∃ q, s'.disk.payload? = some q ∧ Q a q := by
  cases h with
  | unloaded _ => cases hr
  | refused _ _ => cases hr
  | kept hl ha hk =>
      cases hr
      obtain ⟨hp, hv⟩ := hl.ok rfl
      obtain ⟨hq, hsame⟩ := hA _ _ _ ha hv
      exact ⟨_, by rw [hsame hk]; exact hp, hq⟩
  | @persisted p m x _ _ hl ha _ hp =>
      cases x with
      | error e => cases hr
      | ok _ =>
          cases hr
          cases hp with
          | both hst => exact ⟨_, rfl, (hA _ _ _ ha (hl.ok rfl).2).1⟩

/-- The record is the one of this id in the catalog. -/
def Lists (checkpointId : String) (record : DurableCheckpointRecord) (q : CatalogPayload) : Prop :=
  record ∈ q.records ∧ record.checkpointId = checkpointId

/-- What a change of state returns. -/
theorem changeState_value {checkpointId message : String} {required : List DurableCheckpointState}
    {nextState : DurableCheckpointState} (hnext : ∀ state ∈ required, state.Next nextState) :
    Post (withFreshCatalog P io key (changeState checkpointId required nextState message)) s (fun r s' =>
      ∀ record, r = .ok record →
        ∃ q, s'.disk.payload? = some q ∧ Lists checkpointId record q ∧ record.state = nextState) := by
  refine (withFreshCatalog_post (A := fun p u r => ∀ m, r = .ok m → Effect P p u m ∧ (Valid P p →
    Lists checkpointId m.value m.catalog ∧ m.value.state = nextState))
      (fun p u => (changeState_post (P := P) hnext).mono ?_) ?_).mono ?_
  · rintro r s'' ⟨rfl, h⟩
    refine ⟨rfl, fun m hm => ?_⟩
    obtain ⟨heffect, current, hmem, hid, hvalue, hkept, hpersist⟩ := h m hm
    refine ⟨heffect, fun hv => ⟨⟨?_, by rw [hvalue]; exact hid⟩, by rw [hvalue]⟩⟩
    rcases heffect with ⟨hk, hcatalog⟩ | ⟨hp, -⟩
    · rw [hcatalog, hvalue, ← hkept.mp hk]
      exact hmem
    · exact (hpersist hp).2 hv
  · intro p u m ha hp
    rcases (ha m rfl).1 with ⟨hk, -⟩ | ⟨-, hg, -⟩
    · cases hk.symm.trans hp
    · exact hg
  · intro r s'' h record hr
    refine h.value (Q := fun record q => Lists checkpointId record q ∧ record.state = nextState) hr
      fun p u m ha hv => ⟨(ha m rfl).2 hv, fun hk => ?_⟩
    rcases (ha m rfl).1 with ⟨-, hc⟩ | ⟨hp, -⟩
    · exact hc
    · cases hk.symm.trans hp

theorem validated {α : Type} {ok : Prop} [Decidable ok] {e : Exception} {m : CatalogM α} {Q : α → Session → Prop}
    (h : Post m s fun r s' => ∀ a, r = .ok a → Q a s') :
    Post (do (if ok then pure () else throw e : CatalogM Unit); m) s (fun r s' => ∀ a, r = .ok a → Q a s') := by
  rw [Post.bind, Post.ite]
  exact ⟨fun _ => h, fun _ _ => Post.not_ok⟩

/-- What `GetRequired` returns. -/
theorem getRequired_value (checkpointId : String) : Post (getRequired P io key checkpointId) s (fun r s' =>
    ∀ record, r = .ok record → ∃ q, s'.disk.payload? = some q ∧ Lists checkpointId record q) := by
  refine validated ?_
  refine (withFreshCatalog_post (A := fun p u r => ∀ m, r = .ok m → (m.catalog = p ∧ m.shouldPersist = false) ∧
    Lists checkpointId m.value m.catalog) (fun p u => ?_) ?_).mono ?_
  · refine (requireRecord_post p checkpointId).seq ?_ ?_
    · rintro record _ ⟨rfl, h⟩
      refine ⟨rfl, fun m hm => ?_⟩
      cases hm
      exact ⟨⟨rfl, rfl⟩, h record rfl⟩
    · rintro e _ ⟨rfl, -⟩
      exact ⟨rfl, fun _ => Post.not_ok⟩
  · intro p u m ha hp
    cases (ha m rfl).1.2.symm.trans hp
  · intro r s'' h record hr
    exact h.value hr fun p u m ha _ => ⟨(ha m rfl).2, fun _ => (ha m rfl).1.1⟩

/-- The checkpoint is consumed. -/
def Consumed (checkpointId : String) (S : Store) : Prop :=
  ∃ q, S.disk.payload? = some q ∧ ∃ record, Lists checkpointId record q ∧ record.state = .consumed

/-- What is consumed stays consumed. -/
theorem Consumed.step {checkpointId : String} {S S' : Store} {e : StoreEvent} (h : Consumed checkpointId S)
    (hs : Store.Step P S e S') : Consumed checkpointId S' := by
  obtain ⟨q, hq, record, hlists, hconsumed⟩ := h
  have hrun := hs.run
  rw [hq] at hrun
  refine hrun.induct (I := fun _ last => ∃ q, last = some q ∧ ∃ record, Lists checkpointId record q ∧
    record.state = .consumed) ⟨q, rfl, record, hlists, hconsumed⟩ ?_
  rintro tr _ r _ - ⟨q, rfl, record, ⟨hmem, hid⟩, hconsumed⟩ ⟨hsucceeds, rfl⟩
  cases hsucceeds with
  | mutated hnext _ =>
      obtain ⟨i, hi, rfl⟩ := List.getElem_of_mem hmem
      obtain ⟨record', hi', hstep⟩ := hnext.kept (List.getElem?_eq_getElem hi)
      have hsame : record' = q.records[i] :=
        DurableCheckpointRecord.Evolves.terminal (.single hstep) (.inl hconsumed)
      exact ⟨r, rfl, record', ⟨List.mem_of_getElem? hi', hsame ▸ hid⟩, hsame ▸ hconsumed⟩

theorem record_reply {m : CatalogM DurableCheckpointRecord} {Q : DurableCheckpointRecord → Session → Prop}
    (h : Post m s fun r s' => ∀ record, r = .ok record → Q record s') :
    Post (CatalogReply.record <$> m) s (fun r s' => ∀ record, r = .ok (.record record) → Q record s') := by
  refine Post.map.mpr (h.mono fun r s' h record hr => ?_)
  cases r with
  | ok _ =>
      cases hr
      exact h _ rfl
  | error e => cases hr

/-- What a call that was answered with a record tells of the catalog. -/
theorem Store.Step.told {S S' : Store} {i : Nat} {c : CatalogCall} {record : DurableCheckpointRecord}
    {written : Written}
    (h : Store.Step P S (.called i c (.ok (.record record)) written) S') {checkpointId : String}
    (hc : c = .getRequired checkpointId ∧ record.state = .consumed ∨ c = .complete checkpointId) :
    Consumed checkpointId S' := by
  cases h with
  | called _ _ hran =>
      rcases hc with ⟨rfl, hconsumed⟩ | rfl
      · obtain ⟨q, hq, hlists⟩ := (record_reply (getRequired_value checkpointId)).of_ran hran record rfl
        exact ⟨q, hq, record, hlists, hconsumed⟩
      · obtain ⟨q, hq, hlists, hconsumed⟩ := (record_reply (validated (changeState_value
          (by simp [DurableCheckpointState.Next.complete])))).of_ran hran record rfl
        exact ⟨q, hq, record, hlists, hconsumed⟩

end

/-! ## Names -/

theorem artifactFileName_toList (key digest suffix : String) : (artifactFileName key digest suffix).toList =
    artifactPrefix.toList ++ (key.toList.take 24 ++ '-' :: (digest.toList.take 16 ++ suffix.toList)) := by
  simp [artifactFileName, firstChars]

theorem stage_ne_backup (key digest key' digest' : String) : stageFileName key digest ≠ backupFileName key'
    digest' := by
  intro h
  have hlists := congrArg (fun name : String => name.toList.reverse[9]?) h
  simp [stageFileName, backupFileName, artifactFileName_toList] at hlists

/-- The names of two approvals differ, unless their hashes begin alike. -/
theorem firstChars_of_artifactFileName {key digest key' digest' suffix suffix' : String} (hk : key.length = 64)
    (hk' : key'.length = 64) (h : artifactFileName key digest suffix = artifactFileName key' digest' suffix') :
    firstChars key 24 = firstChars key' 24 := by
  have hlists := congrArg String.toList h
  rw [artifactFileName_toList, artifactFileName_toList] at hlists
  have hlength : (key.toList.take 24).length = (key'.toList.take 24).length := by
    rw [List.length_take, List.length_take, String.length_toList, String.length_toList, hk, hk']
  rw [firstChars, firstChars, (List.append_inj (List.append_cancel_left hlists) hlength).1]

theorem isArtifact_sibling (path : FilePath) (key digest suffix : String) :
    (path.sibling (artifactFileName key digest suffix)).IsArtifact := by
  rw [FilePath.IsArtifact, FilePath.sibling, artifactFileName_toList]
  exact List.prefix_append ..

/-! ## What an operation changes -/

namespace RestoreOp

def ChangesLock : RestoreOp → Prop
  | .acquireExecutionLock | .releaseExecutionLock => True
  | _ => False

def ChangesJournal : RestoreOp → Prop
  | .createPrepared .. | .transition .. | .quarantine .. => True
  | _ => False

def ChangesFiles : RestoreOp → Prop
  | .copyDurably .. | .replaceDurably .. | .delete _ => True
  | _ => False

end RestoreOp

variable {P : RestorePrimitives} {β : Type} {view : β → Option FileFacts} {s s' : RestoreSite β} {c : RestoreCall}

theorem RestoreSite.Updates.frame {key : String} {f : RestoreJournalRecord →
    Except RestoreException RestoreJournalRecord}
    {r : Except RestoreException RestoreJournalRecord} (h : s.Updates key f r s') :
    s' = s ∨ ∃ record, s' = s.setEntry key record := by
  rcases h with ⟨rfl, -⟩ | ⟨current, -, h⟩
  · exact .inl rfl
  · split at h
    · exact .inl h.2
    · exact .inr ⟨_, h.1⟩

theorem RestoreSite.Creates.frame {key : String} {record : RestoreJournalRecord} {r : Except RestoreException Unit}
    (h : s.Creates key record r s') : s' = s ∨ s' = s.setEntry key record := by
  unfold Creates at h
  split at h
  · exact .inl h.1
  · exact h.imp And.left And.left

/-- Everything that an operation does not change; the catalog changes by its own steps. -/
structure RestoreSite.Frame (P : RestorePrimitives) (o : RestoreOp) (s s' : RestoreSite β) : Prop where
  process : s'.process = s.process
  lock : ¬ o.ChangesLock → s'.lock = s.lock
  journal : ¬ o.ChangesJournal → s'.journal = s.journal
  files : ¬ o.ChangesFiles → s'.files = s.files
  replaced : ¬ o.IsReplacement → s'.replaced = s.replaced
  store : s'.store = s.store ∨ ∃ e, Store.Step P.catalog s.store e s'.store

theorem RestoreSite.Frame.refl (o : RestoreOp) (s : RestoreSite β) : RestoreSite.Frame P o s s :=
  ⟨rfl, fun _ => rfl, fun _ => rfl, fun _ => rfl, fun _ => rfl, .inl rfl⟩

theorem RestoreSite.Frame.of_entry {o : RestoreOp} (ho : o.ChangesJournal) (key : String)
    (record : RestoreJournalRecord) :
    RestoreSite.Frame P o s (s.setEntry key record) :=
  ⟨rfl, fun _ => rfl, fun h => absurd ho h, fun _ => rfl, fun _ => rfl, .inl rfl⟩

theorem RestoreSite.Frame.of_file {o : RestoreOp} (ho : o.ChangesFiles) (path : FilePath) (content : Option β) :
    RestoreSite.Frame P o s (s.setFile path content) :=
  ⟨rfl, fun _ => rfl, fun _ => rfl, fun h => absurd ho h, fun _ => rfl, .inl rfl⟩

theorem RestoreSite.Act.frame {o : RestoreOp} {r : Except RestoreException o.Value} (h : s.Act P view c o r s') :
    RestoreSite.Frame P o s s' := by
  cases o with
  | catalog call =>
      obtain ⟨_, _, _, hstep, -, rfl⟩ := h
      exact ⟨rfl, fun _ => rfl, fun _ => rfl, fun _ => rfl, fun _ => rfl, .inr ⟨_, hstep⟩⟩
  | acquireExecutionLock =>
      rcases h with ⟨rfl, -⟩ | ⟨-, -, rfl⟩
      · exact .refl _ _
      · exact ⟨rfl, fun h => absurd trivial h, fun _ => rfl, fun _ => rfl, fun _ => rfl, .inl rfl⟩
  | releaseExecutionLock =>
      obtain ⟨-, rfl⟩ := h
      exact ⟨rfl, fun h => absurd trivial h, fun _ => rfl, fun _ => rfl, fun _ => rfl, .inl rfl⟩
  | createPrepared approvalId record =>
      rcases RestoreSite.Creates.frame h with rfl | rfl
      · exact .refl _ _
      · exact .of_entry (o := .createPrepared approvalId record) trivial _ _
  | transition approvalId scopeDigest expected next =>
      rcases RestoreSite.Updates.frame h with rfl | ⟨record, rfl⟩
      · exact .refl _ _
      · exact .of_entry (o := .transition approvalId scopeDigest expected next) trivial _ _
  | quarantine approvalId scopeDigest =>
      rcases RestoreSite.Updates.frame h with rfl | ⟨record, rfl⟩
      · exact .refl _ _
      · exact .of_entry (o := .quarantine approvalId scopeDigest) trivial _ _
  | copyDurably name destination =>
      rcases h with ⟨rfl, -⟩ | ⟨-, content, rfl, -⟩
      · exact .refl _ _
      · exact .of_file (o := .copyDurably name destination) trivial _ _
  | replaceDurably stagePath targetPath backupPath =>
      rcases h with ⟨rfl, -⟩ | ⟨-, _, _, -, -, -, rfl⟩
      · exact .refl _ _
      · exact ⟨rfl, fun _ => rfl, fun _ => rfl, fun h => absurd trivial h, fun h => absurd trivial h, .inl rfl⟩
  | delete path =>
      rcases h with ⟨rfl, -⟩ | ⟨rfl, -⟩
      · exact .refl _ _
      · exact .of_file (o := .delete path) trivial _ _
  | inspect path =>
      cases h
      exact .refl _ _
  | closeWithoutSave path =>
      cases h
      exact .refl _ _
  | reopen path =>
      cases h
      exact .refl _ _
  | _ =>
      obtain ⟨rfl, -⟩ := h
      exact .refl _ _

/-! ## What becomes of an entry -/

/-- The entry later on: only its state has changed, by transitions that the journal allows. -/
structure RestoreJournalRecord.Later (record record' : RestoreJournalRecord) : Prop where
  facts : record' = { record with state := record'.state }
  state : Relation.ReflTransGen (fun a b => RestoreJournal.isAllowedTransition a b = true) record.state record'.state

namespace RestoreJournalRecord.Later

variable {record record' record'' : RestoreJournalRecord}

theorem refl (record : RestoreJournalRecord) : Later record record := ⟨rfl, .refl⟩

theorem trans (h : Later record record') (h' : Later record' record'') : Later record record'' := by
  refine ⟨?_, h.state.trans h'.state⟩
  rw [h'.facts, h.facts]

theorem single {state : DurableCheckpointRestoreState}
    (h : RestoreJournal.isAllowedTransition record.state state = true) : Later record { record with state := state } :=
  ⟨rfl, .single h⟩

theorem scopeDigest (h : Later record record') : record'.scopeDigest = record.scopeDigest := by
  rw [h.facts]

theorem wellNamed (h : Later record record') {key : String} (hnamed : WellNamed key record) :
    WellNamed key record' := by
  rw [h.facts]
  exact ⟨hnamed.stage, hnamed.backup⟩

/-- `committed` and `quarantined` are terminal. -/
theorem terminal (h : Later record record') (hstate : record.state = .committed ∨ record.state = .quarantined) :
    record' = record := by
  have hsame : record'.state = record.state := by
    rcases h.state.cases_head with heq | ⟨next, hnext, -⟩
    · exact heq.symm
    · rcases hstate with hstate | hstate <;> rw [hstate] at hnext <;> cases next <;> cases hnext
  rw [h.facts, hsame]

end RestoreJournalRecord.Later

theorem RestoreJournal.transition_ok {current record : RestoreJournalRecord} {scopeDigest : String}
    {expected next : DurableCheckpointRestoreState}
    (h : RestoreJournal.transition current scopeDigest expected next = .ok record) :
    current.scopeDigest = scopeDigest ∧ record = { current with state := next } ∧ current.Later record := by
  unfold transition at h
  split at h
  · cases h
  · rename_i hscope
    split at h
    · rename_i hstate
      cases h
      exact ⟨not_not.mp hscope, by rw [← hstate], .refl _⟩
    · split at h
      · cases h
      · rename_i hallowed
        simp only [not_or, not_not, Bool.not_eq_false] at hallowed
        cases h
        exact ⟨not_not.mp hscope, rfl, .single (by rw [hallowed.1]; exact hallowed.2)⟩

theorem RestoreJournal.quarantine_ok {current record : RestoreJournalRecord} {scopeDigest : String}
    (h : RestoreJournal.quarantine current scopeDigest = .ok record) :
    record.state = .quarantined ∧ current.Later record := by
  unfold quarantine at h
  split at h
  · cases h
  · split at h
    · rename_i hstate
      cases h
      exact ⟨hstate, .refl _⟩
    · split at h
      · cases h
      · rename_i hquarantined hcommitted
        cases h
        refine ⟨rfl, .single ?_⟩
        cases hstate : current.state with
        | quarantined => exact absurd hstate hquarantined
        | committed => exact absurd hstate hcommitted
        | _ => rfl

/-- What an operation makes of the entry under a key. -/
inductive EntryStep (P : RestorePrimitives) :
    RestoreOp → String → Option RestoreJournalRecord → Option RestoreJournalRecord → Prop
  | kept {o : RestoreOp} {key : String} {entry : Option RestoreJournalRecord} : EntryStep P o key entry entry
  | created {approvalId : String} {record : RestoreJournalRecord} :
      EntryStep P (.createPrepared approvalId record) (computeApprovalKeyHash P approvalId) none (some record)
  | advanced {approvalId scopeDigest : String} {expected next : DurableCheckpointRestoreState}
      {record record' : RestoreJournalRecord} :
      RestoreJournal.transition record scopeDigest expected next = .ok record' →
      EntryStep P (.transition approvalId scopeDigest expected next) (computeApprovalKeyHash P approvalId) (some record)
        (some record')
  | quarantined {approvalId scopeDigest : String} {record record' : RestoreJournalRecord} :
      RestoreJournal.quarantine record scopeDigest = .ok record' →
      EntryStep P (.quarantine approvalId scopeDigest) (computeApprovalKeyHash P approvalId) (some record)
        (some record')

theorem EntryStep.later {o : RestoreOp} {key : String} {record : RestoreJournalRecord}
    {entry : Option RestoreJournalRecord} (h : EntryStep P o key (some record) entry) :
    ∃ record', entry = some record' ∧ record.Later record' := by
  cases h with
  | kept => exact ⟨record, rfl, .refl _⟩
  | advanced h => exact ⟨_, rfl, (RestoreJournal.transition_ok h).2.2⟩
  | quarantined h => exact ⟨_, rfl, (RestoreJournal.quarantine_ok h).2⟩

@[simp] theorem RestoreSite.setEntry_journal (key : String) (record : RestoreJournalRecord) :
    (s.setEntry key record).journal = Function.update s.journal key (some record) := rfl

@[simp] theorem RestoreSite.setFile_files (path : FilePath) (content : Option β) :
    (s.setFile path content).files = Function.update s.files path content := rfl

theorem setEntry_step {o : RestoreOp} {key : String} {record : RestoreJournalRecord}
    (h : EntryStep P o key (s.journal key) (some record)) (key' : String) :
    EntryStep P o key' (s.journal key') ((s.setEntry key record).journal key') := by
  rw [RestoreSite.setEntry_journal]
  by_cases hkey : key' = key
  · subst hkey
    rw [Function.update_self]
    exact h
  · rw [Function.update_of_ne hkey]
    exact .kept

theorem RestoreSite.Updates.entry {o : RestoreOp} {key : String}
    {f : RestoreJournalRecord → Except RestoreException RestoreJournalRecord}
    {r : Except RestoreException RestoreJournalRecord} (h : s.Updates key f r s')
    (hf : ∀ current record, f current = .ok record → EntryStep P o key (some current) (some record)) (key' : String) :
    EntryStep P o key' (s.journal key') (s'.journal key') := by
  rcases h with ⟨rfl, -⟩ | ⟨current, hcurrent, h⟩
  · exact .kept
  · split at h
    · rw [h.2]
      exact .kept
    · rename_i record hrecord
      rw [h.1]
      exact setEntry_step (by rw [hcurrent]; exact hf current record hrecord) key'

theorem RestoreSite.Act.entry {o : RestoreOp} {r : Except RestoreException o.Value} (h : s.Act P view c o r s')
    (key : String) : EntryStep P o key (s.journal key) (s'.journal key) := by
  by_cases ho : o.ChangesJournal
  · cases o with
    | createPrepared approvalId record =>
        change s.Creates (computeApprovalKeyHash P approvalId) record r s' at h
        unfold Creates at h
        split at h
        · rw [h.1]
          exact .kept
        · rename_i hnone
          rcases h with ⟨rfl, -⟩ | ⟨rfl, -⟩
          · exact .kept
          · exact setEntry_step (by rw [hnone]; exact .created) key
    | transition approvalId scopeDigest expected next => exact Updates.entry h (fun _ _ h => .advanced h) key
    | quarantine approvalId scopeDigest => exact Updates.entry h (fun _ _ h => .quarantined h) key
    | _ => exact ho.elim
  · rw [h.frame.journal ho]
    exact .kept

end CadHarness.Checkpoint
