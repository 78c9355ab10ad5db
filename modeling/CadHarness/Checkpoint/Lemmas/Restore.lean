import CadHarness.Checkpoint.RestoreCoordinator
import CadHarness.Lib.Guarded

/-!
# What a restore may do, and when

A call may change the journal and the files only while it holds the lock, and only as its approval's entry
allows: it stages before there is an entry, replaces under a prepared one, and removes the backup under a
committed one. What it has read before it advances the entry is part of the guard.
-/

namespace CadHarness.Checkpoint
open CadHarness.Lib Prog DurableCheckpointRestoreCoordinator

variable (P : RestorePrimitives)

abbrev RestoreStep := Performed restoreSig

/-! ## What a call knows -/

/-- Whether a call holds the lock, and the entry of its approval as it has last seen it. -/
structure Knowledge where
  held : Bool := false
  entry : Option (Option RestoreJournalRecord) := none

namespace Knowledge

def after (k : Knowledge) : RestoreStep → Knowledge
  | ⟨.acquireExecutionLock, .ok _⟩ => { held := true, entry := none }
  | ⟨.releaseExecutionLock, _⟩ => { k with held := false }
  | ⟨.tryGet _, .ok entry⟩ => { k with entry := some entry }
  | ⟨.createPrepared _ record, .ok _⟩ => { k with entry := some (some record) }
  | ⟨.transition _ _ _ _, .ok record⟩ | ⟨.quarantine _ _, .ok record⟩ => { k with entry := some (some record) }
  | ⟨.createPrepared _ _, .error _⟩ | ⟨.transition _ _ _ _, .error _⟩ | ⟨.quarantine _ _, .error _⟩ =>
      { k with entry := none }
  | _ => k

end Knowledge

def knowledge (es : List RestoreStep) : Knowledge := es.foldl Knowledge.after {}

@[simp] theorem knowledge_concat (es : List RestoreStep) (e : RestoreStep) :
    knowledge (es ++ [e]) = (knowledge es).after e := List.foldl_append ..

/-- The call holds the lock, and knows the entry of its approval. -/
def Inside (es : List RestoreStep) (entry : Option RestoreJournalRecord) : Prop :=
  (knowledge es).held = true ∧ (knowledge es).entry = some entry

/-- Operations that change neither the lock, the journal nor the target. -/
def RestoreOp.Plain : RestoreOp → Prop
  | .acquireExecutionLock | .releaseExecutionLock | .tryGet _ | .createPrepared .. | .transition .. | .quarantine ..
  | .replaceDurably .. => False
  | _ => True

/-- Those of them that change no artifact either. -/
def RestoreOp.Neutral : RestoreOp → Prop
  | .copyDurably .. | .delete _ => False
  | o => o.Plain

theorem RestoreOp.Neutral.plain {o : RestoreOp} (h : o.Neutral) : o.Plain := by
  cases o <;> trivial

theorem RestoreOp.Plain.after {e : RestoreStep} (h : e.op.Plain) (k : Knowledge) : k.after e = k := by
  obtain ⟨o, r⟩ := e
  cases o <;> first | rfl | exact h.elim

variable {es es' : List RestoreStep}

theorem knowledge_of_plain (h : Extends RestoreOp.Plain es es') : knowledge es' = knowledge es := by
  obtain ⟨l, rfl, hl⟩ := h
  induction l using List.reverseRecOn with
  | nil => rw [List.append_nil]
  | append_singleton l e ih =>
      rw [← List.append_assoc, knowledge_concat, RestoreOp.Plain.after (hl e (by simp))]
      exact ih fun e he => hl e (List.mem_append_left _ he)

theorem Inside.extends {entry : Option RestoreJournalRecord} (h : Inside es entry)
    (hes : Extends RestoreOp.Plain es es') : Inside es' entry := by
  rw [Inside, knowledge_of_plain hes]
  exact h

def RestoreOp.IsReplacement : RestoreOp → Prop
  | .replaceDurably .. => True
  | _ => False

/-- The call has not begun to replace the target. -/
def Untouched (es : List RestoreStep) : Prop := ∀ e ∈ es, ¬ e.op.IsReplacement

theorem Untouched.concat (h : Untouched es) {e : RestoreStep} (he : ¬ e.op.IsReplacement) : Untouched (es ++ [e]) := by
  intro e' he'
  rcases List.mem_append.mp he' with he' | he'
  · exact h e' he'
  · rw [List.mem_singleton.mp he']
    exact he

theorem Untouched.extends (h : Untouched es) (hes : Extends RestoreOp.Plain es es') : Untouched es' := by
  obtain ⟨l, rfl, hl⟩ := hes
  intro e he
  rcases List.mem_append.mp he with he | he
  · exact h e he
  · have hplain := hl e he
    obtain ⟨o, r⟩ := e
    cases o <;> first | exact id | exact hplain.elim

/-! ## The guard -/

/-- The names of an entry's artifacts are those of its approval and scope. -/
structure WellNamed (key : String) (record : RestoreJournalRecord) : Prop where
  stage : record.stageFileName = stageFileName key record.scopeDigest
  backup : record.backupFileName = backupFileName key record.scopeDigest

variable (request : DurableCheckpointRestoreRequest)

/-- The hash that names the entry of a request. -/
def entryKey : String := computeApprovalKeyHash P request.authorization.approvalId

/-- The digest is that of the request with some checkpoint. -/
def Scoped (digest : String) : Prop :=
  ∃ checkpoint, computeScopeDigest P request.authorization checkpoint request.targetPath = .ok digest

/-- The document is open again, at the revision before the commit. -/
structure Restored (snapshot : DurableRestoreDocumentSnapshot) : Prop where
  isOpen : snapshot.isOpen = true
  document : snapshot.documentId = request.authorization.documentId
  revision : snapshot.revision = request.authorization.preRevision
  path : snapshot.originalPathHash = P.originalPathHash request.targetPath

def readStep (path : FilePath) (facts : FileFacts) : RestoreStep := ⟨.readDwgFacts path, .ok facts⟩

def reopenStep (path : FilePath) : RestoreStep := ⟨.reopen path, .ok ()⟩

def inspectStep (path : FilePath) (snapshot : DurableRestoreDocumentSnapshot) : RestoreStep :=
  ⟨.inspect path, .ok snapshot⟩

def requiredStep (checkpointId : String) (record : DurableCheckpointRecord) : RestoreStep :=
  ⟨.catalog (.getRequired checkpointId), .ok (.record record)⟩

def completedStep (checkpointId : String) (record : DurableCheckpointRecord) : RestoreStep :=
  ⟨.catalog (.complete checkpointId), .ok (.record record)⟩

/-- The call has read the checkpoint in the place of the target and the replaced drawing in the backup, has then
reopened the document and found it restored, and has read the checkpoint once more. -/
def VerifiedIn (record : RestoreJournalRecord) (es : List RestoreStep) : Prop :=
  ∃ snapshot, Restored P request snapshot ∧
    [readStep request.targetPath record.checkpointFacts,
      readStep (request.targetPath.sibling record.backupFileName) record.postFacts,
      reopenStep request.targetPath, inspectStep request.targetPath snapshot,
      readStep request.targetPath record.checkpointFacts].Sublist es

/-- The checkpoint is consumed, as far as the call has been told. -/
def ConsumedIn (es : List RestoreStep) : Prop :=
  ∃ checkpoint, requiredStep request.authorization.checkpointId checkpoint ∈ es ∧ checkpoint.state = .consumed ∨
    completedStep request.authorization.checkpointId checkpoint ∈ es

/-- The call has read the checkpoint in the place of the target, has found the document restored, and has consumed
the checkpoint. -/
def SettledIn (record : RestoreJournalRecord) (es : List RestoreStep) : Prop :=
  (∃ snapshot, Restored P request snapshot ∧
    [readStep request.targetPath record.checkpointFacts, inspectStep request.targetPath snapshot].Sublist es) ∧
  ConsumedIn request es

/-- What a call has to have seen before it advances its entry. -/
def Justified (record : RestoreJournalRecord) (es : List RestoreStep) : DurableCheckpointRestoreState → Prop
  | .verified => VerifiedIn P request record es
  | .committed => SettledIn P request record es
  | _ => True

def May (es : List RestoreStep) : RestoreOp → Prop
  | .acquireExecutionLock => (knowledge es).held = false
  | .releaseExecutionLock => (knowledge es).held = true
  | .tryGet approvalId => approvalId = request.authorization.approvalId ∧ (knowledge es).held = true
  | .createPrepared approvalId record => approvalId = request.authorization.approvalId ∧ Inside es none ∧
      record.state = .prepared ∧ WellNamed (entryKey P request) record ∧ Scoped P request record.scopeDigest
  | .transition approvalId scopeDigest expected next => approvalId = request.authorization.approvalId ∧
      RestoreJournal.isAllowedTransition expected next = true ∧ ∃ record, Inside es (some record) ∧
      record.state = expected ∧ record.scopeDigest = scopeDigest ∧ Scoped P request scopeDigest ∧
      Justified P request record es next
  | .quarantine approvalId _ => approvalId = request.authorization.approvalId ∧ (knowledge es).held = true
  | .copyDurably _ path => Inside es none ∧
      ∃ digest, path = request.targetPath.sibling (stageFileName (entryKey P request) digest)
  | .replaceDurably stagePath targetPath backupPath => targetPath = request.targetPath ∧ ∃ record,
      Inside es (some record) ∧ record.state = .prepared ∧ Scoped P request record.scopeDigest ∧
      stagePath = request.targetPath.sibling record.stageFileName ∧
      backupPath = request.targetPath.sibling record.backupFileName
  | .delete path => (knowledge es).held = true ∧
      ((∃ digest, path = request.targetPath.sibling (stageFileName (entryKey P request) digest)) ∨
        ∃ record, Inside es (some record) ∧ record.state = .committed ∧ Scoped P request record.scopeDigest ∧
          path = request.targetPath.sibling record.backupFileName)
  | _ => True

/-- What a call may be answered: an entry with the names of its approval, some entry once it has begun to replace
the target, the entry that was asked for, and no cancellation but from the host of the document. -/
def Allowed (es : List RestoreStep) : (o : RestoreOp) → Except RestoreException o.Value → Prop
  | .inspect _, _ | .closeWithoutSave _, _ | .reopen _, _ => True
  | .tryGet approvalId, r => r ≠ .error .operationCanceled ∧ (r = .ok none → Untouched es) ∧
      ∀ record, r = .ok (some record) → WellNamed (computeApprovalKeyHash P approvalId) record
  | .transition approvalId scopeDigest _ next, r => r ≠ .error .operationCanceled ∧
      ∀ record, r = .ok record → WellNamed (computeApprovalKeyHash P approvalId) record ∧
        record.scopeDigest = scopeDigest ∧ record.state = next
  | _, r => r ≠ .error .operationCanceled

theorem may_of_neutral (es : List RestoreStep) (o : RestoreOp) (h : o.Neutral) : May P request es o := by
  cases o <;> trivial

/-! ## Rules for the program -/

/-- After `es`, the program keeps the guard of the request, and ends as `F` says. -/
def Runs {α : Type} (m : RestoreM α) (es : List RestoreStep)
    (F : List RestoreStep → Except RestoreException α → Prop) : Prop :=
  Keeps (Answered (Allowed P)) (May P request) m es F

variable {P request} {α : Type} {m : RestoreM α} {F F' : List RestoreStep → Except RestoreException α → Prop}

theorem runs_task {o : RestoreOp} {F : List RestoreStep → Except RestoreException o.Value → Prop}
    (hmay : May P request es o) (h : ∀ r, Allowed P es o r → F (es ++ [⟨o, r⟩]) r) : Runs P request (task o) es F := by
  refine ⟨hmay, ?_⟩
  rintro r _ ⟨hr, rfl⟩
  exact h r hr

/-- What a call ends in that only looks around. -/
theorem runs_neutral (h : PerformsOnly RestoreOp.Neutral m) :
    Runs P request m es (fun es' _ => Extends RestoreOp.Plain es es') := by
  refine (PerformsOnly.keeps h (may_of_neutral P request) es).mono fun es' _ hes => ?_
  obtain ⟨l, rfl, hl⟩ := hes
  exact ⟨l, rfl, fun e he => (hl e he).plain⟩

theorem neutral_task (o : RestoreOp) (h : o.Neutral) : PerformsOnly RestoreOp.Neutral (task o) :=
  ⟨h, fun _ => trivial⟩

theorem neutral_catalogRecord (call : CatalogCall) : PerformsOnly RestoreOp.Neutral (catalogRecord call) := by
  refine (neutral_task (.catalog call) trivial).bind fun reply => ?_
  cases reply <;> trivial

theorem neutral_tryReadDwgFacts (path : FilePath) : PerformsOnly RestoreOp.Neutral (tryReadDwgFacts path) := by
  refine (neutral_task (.fileExists path) trivial).bind fun present => ?_
  exact .ite (.tryCatch ((neutral_task (.readDwgFacts path) trivial).map _) fun e => .ite trivial trivial) trivial

theorem neutral_tryQuarantineCatalog (checkpointId : String) :
    PerformsOnly RestoreOp.Neutral (tryQuarantineCatalog checkpointId) := by
  refine .tryCatch ((neutral_catalogRecord _).bind fun record => ?_) fun _ => trivial
  exact .ite ((neutral_catalogRecord _).bind fun _ => trivial) trivial

theorem neutral_classifyPreparedEvidence (targetPath : FilePath) (journal : RestoreJournalRecord) :
    PerformsOnly RestoreOp.Neutral (classifyPreparedEvidence targetPath journal) :=
  (neutral_tryReadDwgFacts _).bind fun _ => (neutral_tryReadDwgFacts _).bind fun _ =>
    (neutral_tryReadDwgFacts _).bind fun _ => trivial

variable (P request) in
/-- The call knows the entry of its approval, which is of its scope. -/
structure Knows (es : List RestoreStep) (record : RestoreJournalRecord) : Prop where
  inside : Inside es (some record)
  named : WellNamed (entryKey P request) record
  scope : Scoped P request record.scopeDigest

variable (P request) in
/-- What a call holds on to between the phases of an attempt. -/
structure Ready (es : List RestoreStep) (record : RestoreJournalRecord) : Prop extends Knows P request es record where
  untouched : record.state = .prepared → Untouched es

theorem Ready.extends {record : RestoreJournalRecord} (h : Ready P request es record)
    (hes : Extends RestoreOp.Plain es es') : Ready P request es' record :=
  ⟨⟨h.inside.extends hes, h.named, h.scope⟩, fun hp => (h.untouched hp).extends hes⟩

/-! ## What the parts see -/

/-- Between `es` and `es'` the call has seen `e`. -/
def Saw (es es' : List RestoreStep) (e : RestoreStep) : Prop := ∃ l, es' = es ++ l ∧ e ∈ l

theorem Saw.concat (es : List RestoreStep) (e : RestoreStep) : Saw es (es ++ [e]) e :=
    ⟨[e], rfl, List.mem_singleton_self e⟩

theorem Saw.mem {e : RestoreStep} (h : Saw es es' e) : e ∈ es' := by
  obtain ⟨l, rfl, he⟩ := h
  exact List.mem_append_right _ he

/-- What was seen before, and this after it. -/
theorem Saw.sublist {e : RestoreStep} {l : List RestoreStep} (h : Saw es es' e) (hl : l.Sublist es) :
    (l ++ [e]).Sublist es' := by
  obtain ⟨l', rfl, he⟩ := h
  exact hl.append (List.singleton_sublist.mpr he)

theorem Saw.extends {e : RestoreStep} {es'' : List RestoreStep} (h : Saw es es' e)
    (hes : Extends RestoreOp.Plain es' es'') : Saw es es'' e := by
  obtain ⟨l, rfl, he⟩ := h
  obtain ⟨l', rfl, -⟩ := hes
  exact ⟨l ++ l', List.append_assoc .., List.mem_append_left _ he⟩

theorem Saw.of_extends {e : RestoreStep} {es'' : List RestoreStep} (hes : Extends RestoreOp.Plain es es')
    (h : Saw es' es'' e) : Saw es es'' e := by
  obtain ⟨l, rfl, -⟩ := hes
  obtain ⟨l', rfl, he⟩ := h
  exact ⟨l ++ l', List.append_assoc .., List.mem_append_right _ he⟩

theorem extends_concat {e : RestoreStep} (h : e.op.Plain) : Extends RestoreOp.Plain es (es ++ [e]) :=
  ⟨[e], rfl, by simpa using h⟩

theorem not_ok {ε : Type} {e : ε} {C : α → Prop} : ∀ a, (.error e : Except ε α) = .ok a → C a := by
  intro a h
  cases h

/-- The call has only looked around, and has not been cancelled. -/
structure Looked (es es' : List RestoreStep) (r : Except RestoreException α) : Prop where
  plain : Extends RestoreOp.Plain es es'
  notCanceled : ∀ e, r = .error e → e ≠ .operationCanceled

theorem Looked.ok (h : Extends RestoreOp.Plain es es') (a : α) : Looked es es' (.ok a) := ⟨h, nofun⟩

theorem Looked.error (h : Extends RestoreOp.Plain es es') {e : RestoreException} (he : e ≠ .operationCanceled) :
    Looked es es' (.error e : Except RestoreException α) :=
  ⟨h, by rintro _ ⟨⟩; exact he⟩

/-- The rule of sequence after a part that has only looked around. -/
theorem Runs.look {β : Type} {f : α → RestoreM β} {Q : List RestoreStep → α → Prop}
    {F : List RestoreStep → Except RestoreException β → Prop}
    (h : Runs P request m es (fun es' r => Looked es es' r ∧ ∀ a, r = .ok a → Q es' a))
    (hok : ∀ es' a, Extends RestoreOp.Plain es es' → Q es' a → Runs P request (f a) es' F)
    (herror : ∀ es' e, Extends RestoreOp.Plain es es' → e ≠ .operationCanceled → F es' (.error e)) :
    Runs P request (m >>= f) es F :=
  Keeps.seq h (fun es' a ha => hok es' a ha.1.plain (ha.2 a rfl))
    (fun es' e he => herror es' e he.1.plain (he.1.notCanceled e rfl))

theorem runs_plain {o : RestoreOp} (hplain : o.Plain) (hmay : ∀ es, May P request es o)
    (hcanceled : ∀ es, Allowed P es o (.error .operationCanceled) → False) : Runs P request (task o) es (fun es' r =>
      Looked es es' r ∧ ∀ a, r = .ok a → es' = es ++ [⟨o, .ok a⟩]) := by
  refine runs_task (hmay es) fun r hr => ⟨⟨extends_concat hplain, ?_⟩, ?_⟩
  · rintro e rfl rfl
    exact hcanceled es hr
  · rintro a rfl
    rfl

theorem runs_fileExists (path : FilePath) : Runs P request (task (.fileExists path)) es (fun es' r =>
    Looked es es' r ∧ ∀ a, r = .ok a → es' = es ++ [⟨.fileExists path, .ok a⟩]) :=
  runs_plain trivial (fun _ => trivial) fun _ h => h rfl

theorem runs_readDwgFacts (path : FilePath) : Runs P request (task (.readDwgFacts path)) es (fun es' r =>
    Looked es es' r ∧ ∀ facts, r = .ok facts → Saw es es' (readStep path facts)) := by
  refine (runs_plain (o := .readDwgFacts path) trivial (fun _ => trivial) fun _ h => h rfl).mono fun es' r h => ?_
  refine ⟨h.1, fun facts hfacts => ?_⟩
  rw [h.2 facts hfacts]
  exact .concat _ _

theorem runs_artifactFacts (fileName : String) : Runs P request (task (.readArtifactFacts fileName)) es (fun es' r =>
    Looked es es' r ∧ ∀ a, r = .ok a → True) :=
  (runs_plain (o := .readArtifactFacts fileName) trivial (fun _ => trivial) fun _ h => h rfl).mono fun _ _ h =>
    ⟨h.1, fun _ _ => trivial⟩

theorem runs_catalogRecord (call : CatalogCall) : Runs P request (catalogRecord call) es (fun es' r =>
    Looked es es' r ∧ ∀ record, r = .ok record → Saw es es' ⟨.catalog call, .ok (.record record)⟩) := by
  refine (runs_plain (o := .catalog call) trivial (fun _ => trivial) fun _ h => h rfl).look ?_ ?_
  · rintro es' reply hplain rfl
    cases reply with
    | record record =>
        refine ⟨.ok hplain record, ?_⟩
        rintro _ ⟨⟩
        exact .concat _ _
    | records _ => exact ⟨.error hplain nofun, not_ok⟩
  · intro es' e hplain he
    exact ⟨.error hplain he, not_ok⟩

theorem runs_tryReadDwgFacts (path : FilePath) : Runs P request (tryReadDwgFacts path) es (fun es' r =>
    Looked es es' r ∧ ∀ facts, r = .ok facts → ∀ known, facts = some known → Saw es es' (readStep path known)) := by
  refine (runs_fileExists path).look ?_ ?_
  · rintro es₁ present hplain -
    refine Keeps.ite.mpr ⟨fun _ => ?_, fun _ => ⟨.ok hplain none, ?_⟩⟩
    · refine Keeps.tryCatch.mpr (Keeps.map.mpr ((runs_readDwgFacts path).mono fun es' r hr => ?_))
      obtain ⟨hlooked, hsaw⟩ := hr
      have hall := hplain.trans hlooked.plain
      cases r with
      | ok facts =>
          refine ⟨.ok hall _, ?_⟩
          rintro _ ⟨⟩ _ ⟨⟩
          exact (hsaw facts rfl).of_extends hplain
      | error e =>
          exact Keeps.ite.mpr ⟨fun _ => ⟨.ok hall none, by rintro _ ⟨⟩; exact nofun⟩,
            fun _ => ⟨.error hall (hlooked.notCanceled e rfl), not_ok⟩⟩
    · rintro _ ⟨⟩
      exact nofun
  · intro es' e hplain he
    exact ⟨.error hplain he, not_ok⟩

theorem runs_replacementFactsMatch (targetPath : FilePath) (journal : RestoreJournalRecord) :
    Runs P request (replacementFactsMatch targetPath journal)
      es (fun es' r => Looked es es' r ∧ ∀ found, r = .ok found →
      found = true → ∃ es₁, Saw es es₁ (readStep targetPath journal.checkpointFacts) ∧
        Saw es₁ es' (readStep (targetPath.sibling journal.backupFileName) journal.postFacts)) := by
  refine (runs_tryReadDwgFacts targetPath).look ?_ fun es' e hplain he => ⟨.error hplain he, not_ok⟩
  intro es₁ target hplain hsaw
  refine (runs_tryReadDwgFacts _).look ?_ fun es' e hplain' he => ⟨.error (hplain.trans hplain') he, not_ok⟩
  intro es₂ backup hplain' hsaw'
  refine ⟨.ok (hplain.trans hplain') _, ?_⟩
  rintro _ ⟨⟩ hfound
  simp only [Bool.and_eq_true, decide_eq_true_eq] at hfound
  exact ⟨es₁, hsaw _ hfound.1, hsaw' _ hfound.2⟩

theorem runs_hasFacts (path : FilePath) (facts : FileFacts) : Runs P request (hasFacts path facts) es (fun es' r =>
    Looked es es' r ∧ ∀ found, r = .ok found → found = true → Saw es es' (readStep path facts)) := by
  refine (runs_readDwgFacts path).look ?_ fun es' e hplain he => ⟨.error hplain he, not_ok⟩
  intro es' actual hplain hsaw
  refine ⟨.ok hplain _, ?_⟩
  rintro _ ⟨⟩ hfound
  exact of_decide_eq_true hfound ▸ hsaw

theorem runs_matchesFacts (live : Bool) (path : FilePath) (facts : FileFacts) :
    Runs P request (matchesFacts live path facts) es (fun es' r => Looked es es' r ∧ ∀ found, r = .ok found →
      found = true → live = true ∧ Saw es es' (readStep path facts)) := by
  refine Keeps.ite.mpr ⟨fun hlive => ?_, fun _ => ⟨.ok (.refl es) false, ?_⟩⟩
  · exact (runs_hasFacts path facts).mono fun _ _ h => ⟨h.1, fun found hf ht => ⟨hlive, h.2 found hf ht⟩⟩
  · rintro _ ⟨⟩ ⟨⟩

theorem runs_classifyPreparedEvidence (targetPath : FilePath) (journal : RestoreJournalRecord) :
    Runs P request (classifyPreparedEvidence targetPath journal)
      es (fun es' r => Looked es es' r ∧ ∀ a, r = .ok a → True) := by
  refine (runs_tryReadDwgFacts targetPath).look ?_ fun es' e hplain he => ⟨.error hplain he, not_ok⟩
  intro es₁ target h₁ _
  refine (runs_tryReadDwgFacts _).look ?_ fun es' e h₂ he => ⟨.error (h₁.trans h₂) he, not_ok⟩
  intro es₂ staged h₂ _
  refine (runs_tryReadDwgFacts _).look ?_ fun es' e h₃ he => ⟨.error ((h₁.trans h₂).trans h₃) he, not_ok⟩
  intro es₃ backup h₃ _
  exact ⟨.ok ((h₁.trans h₂).trans h₃) _, fun _ _ => trivial⟩

/-! ## How a call ends -/

variable (P request) in
/-- What holds of a call and the result that it ends with, while it still holds the lock. -/
structure Ended (es : List RestoreStep) (result : DurableCheckpointRestoreResult) : Prop where
  held : (knowledge es).held = true
  settled : result.outcome = .completed ∨ result.outcome = .replayed →
    result.restoredRevision = some request.authorization.preRevision ∧
      ∃ record, Inside es (some record) ∧ record.state = .committed ∧ Scoped P request record.scopeDigest
  untouched : result.outcome = .cancelled ∨ result.outcome = .rejected ∨ result.outcome = .scopeConflict → Untouched es

/-- An outcome that promises nothing but that the lock is held. -/
theorem Ended.of_held (h : (knowledge es).held = true) {result : DurableCheckpointRestoreResult}
    (hr : result.outcome = .recoveryRequired ∨ result.outcome = .quarantined) : Ended P request es result := by
  refine ⟨h, ?_, ?_⟩
  · rintro (ho | ho) <;> rcases hr with hr | hr <;> cases ho.symm.trans hr
  · rintro (ho | ho | ho) <;> rcases hr with hr | hr <;> cases ho.symm.trans hr

theorem Ended.of_untouched (h : (knowledge es).held = true) (hu : Untouched es)
    {result : DurableCheckpointRestoreResult}
    (hr : result.outcome ≠ .completed ∧ result.outcome ≠ .replayed) : Ended P request es result :=
  ⟨h, fun ho => ho.elim (absurd · hr.1) (absurd · hr.2), fun _ => hu⟩

/-- An exception has left the lock to be released, and is no cancellation. -/
def Raised (es : List RestoreStep) (e : RestoreException) : Prop :=
  (knowledge es).held = true ∧ e ≠ .operationCanceled

variable (P request) in
def Finished (es : List RestoreStep) : Except RestoreException DurableCheckpointRestoreResult → Prop
  | .ok result => Ended P request es result
  | .error e => Raised es e

variable (P request) in
/-- A phase ends the call, or leaves an entry that is ready in one of these states. -/
def Passed (Q : DurableCheckpointRestoreState → Prop) (es : List RestoreStep) :
    Except RestoreException (DurableCheckpointRestoreResult ⊕ RestoreJournalRecord) → Prop
  | .ok (.inl result) => Ended P request es result
  | .ok (.inr record) => Ready P request es record ∧ Q record.state
  | .error e => Raised es e

theorem held_extends (h : (knowledge es).held = true) (hes : Extends RestoreOp.Plain es es') :
    (knowledge es').held = true := by
  rw [knowledge_of_plain hes]
  exact h

theorem Raised.of_plain (h : (knowledge es).held = true) (hes : Extends RestoreOp.Plain es es') {e : RestoreException}
    (he : e ≠ .operationCanceled) : Raised es' e := ⟨held_extends h hes, he⟩

/-- Whatever the journal answers to a quarantine, the lock stays held. -/
theorem runs_quarantine (h : (knowledge es).held = true) (scopeDigest : String) :
    Runs P request (task (.quarantine request.authorization.approvalId scopeDigest)) es
      (fun es' _ => (knowledge es').held = true ∧ (Untouched es → Untouched es')) := by
  refine runs_task ⟨rfl, h⟩ fun r _ => ⟨?_, fun hu => hu.concat id⟩
  rw [knowledge_concat]
  cases r <;> exact h

theorem runs_tryQuarantineCatalog (checkpointId : String) : Runs P request (tryQuarantineCatalog checkpointId) es
    (fun es' r => Extends RestoreOp.Plain es es' ∧ r = .ok ()) := by
  refine Keeps.handle (F := fun es' _ => Extends RestoreOp.Plain es es') ?_ ?_ ?_
  · exact runs_neutral ((neutral_catalogRecord _).bind fun record =>
      .ite ((neutral_catalogRecord _).bind fun _ => trivial) trivial)
  · exact fun es' _ h => ⟨h, rfl⟩
  · exact fun es' _ h => ⟨h, rfl⟩

theorem runs_quarantineAttempt (h : (knowledge es).held = true) (checkpointId : String)
    (journal : RestoreJournalRecord) :
    Runs P request (quarantineAttempt request.authorization.approvalId checkpointId journal) es
      (fun es' r => ∃ result, r = .ok result ∧ Ended P request es' result) := by
  have hfirst : Runs P request (tryCatch (m := RestoreM)
      (do
        if journal.state ≠ .quarantined then
          let _ ← task (.quarantine request.authorization.approvalId journal.scopeDigest)) (fun _ => pure ())) es
      (fun es' r => (knowledge es').held = true ∧ r = .ok ()) := by
    refine Keeps.handle (F := fun es' _ => (knowledge es').held = true) ?_ (fun _ _ h => ⟨h, rfl⟩)
      (fun _ _ h => ⟨h, rfl⟩)
    refine Keeps.ite.mpr ⟨fun _ => ?_, fun _ => h⟩
    exact Keeps.seq (runs_quarantine h _) (fun _ _ h => h.1) fun _ _ h => h.1
  refine Keeps.seq hfirst ?_ fun _ e h => absurd h.2 nofun
  rintro es₁ - ⟨hheld, -⟩
  refine Keeps.seq (runs_tryQuarantineCatalog checkpointId) ?_ fun _ e h => absurd h.2 nofun
  rintro es₂ - ⟨hplain, -⟩
  exact ⟨_, rfl, .of_held (held_extends hheld hplain) (.inr rfl)⟩

/-- A file that the call may delete is deleted where there is one. -/
theorem runs_deleteExisting {path : FilePath}
    (hmay : ∀ es', Extends RestoreOp.Plain es es' → May P request es' (.delete path)) :
    Runs P request (deleteExisting path) es (fun es' r => Looked es es' r ∧ ∀ a, r = .ok a → True) := by
  refine (runs_fileExists path).look ?_ fun es' e hplain he => ⟨.error hplain he, fun _ _ => trivial⟩
  intro es₁ present hplain _
  refine Keeps.ite.mpr ⟨fun _ => ?_, fun _ => ⟨.ok hplain _, fun _ _ => trivial⟩⟩
  refine runs_task (hmay es₁ hplain) fun r hr => ⟨?_, fun _ _ => trivial⟩
  refine ⟨hplain.trans (extends_concat (e := ⟨.delete path, r⟩) trivial), ?_⟩
  rintro e rfl rfl
  exact hr rfl

theorem runs_tryDelete (h : (knowledge es).held = true) (digest : String) :
    Runs P request (tryDelete (request.targetPath.sibling (stageFileName (entryKey P request) digest))) es
      (fun es' r => Extends RestoreOp.Plain es es' ∧ r = .ok ()) :=
  (runs_deleteExisting fun _ hplain => ⟨held_extends h hplain, .inl ⟨digest, rfl⟩⟩).handle
    (fun _ _ ha => ⟨ha.1.plain, rfl⟩) fun _ _ ha => ⟨ha.1.plain, rfl⟩

theorem runs_quarantineBeforeReplacement (h : (knowledge es).held = true) (checkpointId : String)
    {journal : RestoreJournalRecord} (hnamed : WellNamed (entryKey P request) journal) :
    Runs P request (quarantineBeforeReplacement request.authorization.approvalId checkpointId journal
      (request.targetPath.sibling journal.stageFileName)) es
      (fun es' r => ∃ result, r = .ok result ∧ Ended P request es' result) := by
  have hfirst : Runs P request (tryCatch (m := RestoreM)
      (do
        let _ ← task (.quarantine request.authorization.approvalId journal.scopeDigest)
        return true) (fun _ => pure false)) es
      (fun es' r => (knowledge es').held = true ∧ ∃ b, r = .ok b) := by
    refine Keeps.handle (F := fun es' _ => (knowledge es').held = true) ?_ (fun _ b h => ⟨h, b, rfl⟩)
      (fun _ _ h => ⟨h, false, rfl⟩)
    exact Keeps.seq (runs_quarantine h _) (fun _ _ h => h.1) fun _ _ h => h.1
  refine Keeps.seq hfirst ?_ fun _ e h => absurd h.2 nofun
  rintro es₁ quarantined ⟨hheld, -⟩
  refine Keeps.ite.mpr ⟨fun _ => ?_, fun _ => ⟨_, rfl, .of_held hheld (.inl rfl)⟩⟩
  refine Keeps.seq (runs_tryQuarantineCatalog checkpointId) ?_ fun _ e h => absurd h.2 nofun
  rintro es₂ - ⟨hplain, -⟩
  have hheld₂ := held_extends hheld hplain
  rw [hnamed.stage]
  refine Keeps.seq (runs_tryDelete hheld₂ journal.scopeDigest) ?_ fun _ e h => absurd h.2 nofun
  rintro es₃ - ⟨hplain', -⟩
  exact ⟨_, rfl, .of_held (held_extends hheld₂ hplain') (.inr rfl)⟩

/-- An entry that is advanced is ready in its new state. -/
theorem runs_advance {record : RestoreJournalRecord} (h : Knows P request es record)
    (next : DurableCheckpointRestoreState) (hallowed : RestoreJournal.isAllowedTransition record.state next = true)
    (hnext : next ≠ .prepared) (hjust : Justified P request record es next) (caught : RestoreException → Bool) :
    Runs P request (advance request.authorization.approvalId record record.state next caught) es
      (Passed P request (· = next)) := by
  refine Keeps.tryCatch.mpr (Keeps.map.mpr (runs_task ⟨rfl, hallowed, record, h.inside, rfl, rfl, h.scope, hjust⟩ ?_))
  rintro r ⟨hcanceled, hr⟩
  have hheld : (knowledge (es ++ [⟨.transition request.authorization.approvalId record.scopeDigest record.state next,
      r⟩])).held = true := by
    rw [knowledge_concat]
    cases r <;> exact h.inside.1
  cases r with
  | ok record' =>
      obtain ⟨hnamed, hdigest, hstate⟩ := hr record' rfl
      refine ⟨⟨⟨⟨hheld, ?_⟩, hnamed, hdigest ▸ h.scope⟩, fun hp => absurd (hstate.symm.trans hp) hnext⟩, hstate⟩
      rw [knowledge_concat]
      rfl
  | error e =>
      refine Keeps.ite.mpr ⟨fun _ => .of_held hheld (.inl rfl), fun _ => ⟨hheld, ?_⟩⟩
      rintro rfl
      exact hcanceled rfl

/-! ## The phases -/

variable {record : RestoreJournalRecord} {checkpoint : DurableCheckpointRecord}

theorem Passed.mono {Q Q' : DurableCheckpointRestoreState → Prop}
    {r : Except RestoreException (DurableCheckpointRestoreResult ⊕ RestoreJournalRecord)} (h : Passed P request Q es r)
    (hQ : ∀ state, Q state → Q' state) : Passed P request Q' es r := by
  cases r with
  | error e => exact h
  | ok r =>
      cases r with
      | inl result => exact h
      | inr record => exact ⟨h.1, hQ _ h.2⟩

/-- The end of a phase in a quarantine. -/
theorem runs_quarantined (h : (knowledge es).held = true) (Q : DurableCheckpointRestoreState → Prop)
    (checkpointId : String) (journal : RestoreJournalRecord) :
    Runs P request (.inl <$> quarantineAttempt request.authorization.approvalId checkpointId journal) es
      (Passed P request Q) := by
  refine Keeps.map.mpr ((runs_quarantineAttempt h checkpointId journal).mono ?_)
  rintro es' r ⟨result, rfl, hended⟩
  exact hended

theorem runs_settlePrepared (h : Ready P request es record) :
    Runs P request (settlePrepared request checkpoint record) es (Passed P request fun _ => True) := by
  refine Keeps.ite.mpr ⟨fun _ => ⟨h, trivial⟩, fun hprepared => ?_⟩
  have hprepared := not_not.mp hprepared
  refine (runs_classifyPreparedEvidence _ record).look ?_ fun es' e hplain he => .of_plain h.inside.1 hplain he
  intro es₁ evidence hplain _
  have h₁ := h.extends hplain
  cases evidence with
  | replaced =>
      have hrun := runs_advance h₁.toKnows .replaced (by rw [hprepared]; rfl) nofun trivial (· = .io)
      rw [hprepared] at hrun
      exact hrun.mono fun _ _ hp => hp.mono fun _ _ => trivial
  | notReplaced => exact ⟨h₁, trivial⟩
  | ambiguous => exact runs_quarantined h₁.inside.1 _ _ _

theorem runs_inspectOpen (targetPath : FilePath) (journal : RestoreJournalRecord) :
    Runs P request (inspectOpen targetPath journal) es (fun es' r => Extends RestoreOp.Plain es es' ∧ ∃ found,
      r = .ok found ∧
      ∀ result, found = .inl result → result.outcome = .cancelled ∨ result.outcome = .recoveryRequired) := by
  refine Keeps.handle (F := fun es' r => Extends RestoreOp.Plain es es' ∧ ∀ found, r = .ok found →
    ∀ result, found ≠ .inl result) ?_ ?_ ?_
  · refine Keeps.seq (runs_neutral (neutral_task (.inspect targetPath) trivial)) ?_ fun _ e h => ⟨h, not_ok⟩
    intro es₁ before h₁
    refine Keeps.ite.mpr ⟨fun _ => ⟨h₁, ?_⟩, fun _ => ?_⟩
    · rintro _ ⟨⟩
      exact nofun
    refine Keeps.seq (runs_neutral (neutral_task (.reopen targetPath) trivial)) ?_ fun _ e h => ⟨h₁.trans h, not_ok⟩
    intro es₂ _ h₂
    refine Keeps.map.mpr (runs_task trivial fun r _ => ⟨(h₁.trans h₂).trans (extends_concat trivial), ?_⟩)
    cases r with
    | ok snapshot =>
        rintro _ ⟨⟩
        exact nofun
    | error e => exact not_ok
  · rintro es' found ⟨hplain, hfound⟩
    exact ⟨hplain, found, rfl, fun result h => absurd h (hfound found rfl result)⟩
  · rintro es' e ⟨hplain, -⟩
    refine ⟨hplain, _, rfl, ?_⟩
    rintro result ⟨⟩
    dsimp only
    split
    · exact .inl rfl
    · exact .inr rfl

theorem runs_closeAndReplace (h : Ready P request es record) (hprepared : record.state = .prepared) :
    Runs P request (closeAndReplace request checkpoint record) es (fun es' r =>
      match r with
      | .ok (some result) => Ended P request es' result
      | .ok none => Inside es' (some record)
      | .error e => Raised es' e) := by
  refine Keeps.handle (F := fun es' r => Inside es' (some record) ∧ (∀ a, r = .ok a → a = none)) ?_ ?_ ?_
  · have hclose : Runs P request (task (.closeWithoutSave request.targetPath)) es
        (fun es' _ => Extends RestoreOp.Plain es es') := runs_neutral (neutral_task _ trivial)
    refine Keeps.seq hclose ?_ fun _ e hplain => ⟨h.inside.extends hplain, not_ok⟩
    intro es₁ _ hplain
    have h₁ := h.inside.extends hplain
    have hreplace : Runs P request (task (.replaceDurably (request.targetPath.sibling record.stageFileName)
        request.targetPath (request.targetPath.sibling record.backupFileName))) es₁
        (fun es' _ => Inside es' (some record)) := by
      refine runs_task ⟨rfl, record, h₁, hprepared, h.scope, rfl, rfl⟩ fun r _ => ?_
      rw [Inside, knowledge_concat]
      exact h₁
    refine Keeps.seq hreplace ?_ fun _ e h₂ => ⟨h₂, not_ok⟩
    intro es₂ _ h₂
    refine ⟨h₂, ?_⟩
    rintro _ ⟨⟩
    rfl
  · rintro es' a ⟨hinside, ha⟩
    obtain rfl := ha a rfl
    exact hinside
  · rintro es₁ e ⟨hinside, -⟩
    refine (runs_classifyPreparedEvidence _ record).look ?_ fun es' e hplain he => .of_plain hinside.1 hplain he
    intro es₂ evidence hplain _
    have h₂ := hinside.extends hplain
    cases evidence with
    | replaced => exact h₂
    | notReplaced => exact .of_held h₂.1 (.inl rfl)
    | ambiguous =>
        refine Keeps.map.mpr ((runs_quarantineAttempt h₂.1 _ record).mono ?_)
        rintro es' r ⟨result, rfl, hended⟩
        exact hended

/-- What a document is that matches the state before the commit. -/
theorem restored_of_matches {digest : String} {snapshot : DurableRestoreDocumentSnapshot}
    (hd : computeScopeDigest P request.authorization checkpoint request.targetPath = .ok digest)
    (h : snapshotMatches snapshot request.authorization.documentId request.authorization.preRevision
      checkpoint.originalPathHash = true) : Restored P request snapshot := by
  simp only [snapshotMatches, Bool.and_eq_true, decide_eq_true_eq] at h
  refine ⟨h.1.1.1, h.1.1.2, h.1.2, h.2.trans ?_⟩
  by_contra hne
  rw [computeScopeDigest, if_pos (Ne.symm hne)] at hd
  cases hd

theorem runs_replacePrepared (h : Ready P request es record) :
    Runs P request (replacePrepared request checkpoint record) es (Passed P request (· ≠ .prepared)) := by
  refine Keeps.ite.mpr ⟨fun hne => ⟨h, hne⟩, fun hprepared => ?_⟩
  have hprepared := not_not.mp hprepared
  refine Keeps.ite.mpr ⟨fun _ => ?_, fun _ => ?_⟩
  · exact Keeps.seq (runs_quarantineAttempt h.inside.1 _ _) (by rintro es' _ ⟨_, ⟨⟩, hended⟩; exact hended)
      (by rintro es' e ⟨_, ⟨⟩, -⟩)
  refine (runs_catalogRecord _).look ?_ fun es' e hplain he => .of_plain h.inside.1 hplain he
  intro es₁ _ hplain₁ _
  have h₁ := h.extends hplain₁
  refine Keeps.seq (runs_inspectOpen _ record) ?_ (by rintro es' e ⟨-, _, ⟨⟩, -⟩)
  rintro es₂ found ⟨hplain₂, _, ⟨⟩, hfound⟩
  have h₂ := h₁.extends hplain₂
  cases found with
  | inl result =>
      refine .of_untouched h₂.inside.1 (h₂.untouched hprepared) ?_
      rcases hfound result rfl with ho | ho <;> rw [ho] <;> exact ⟨nofun, nofun⟩
  | inr before =>
      refine (runs_matchesFacts _ _ record.postFacts).look ?_ fun es' e hplain he => .of_plain h₂.inside.1 hplain he
      intro es₃ unchanged hplain₃ _
      have h₃ := h₂.extends hplain₃
      refine Keeps.ite.mpr ⟨fun _ => ?_, fun _ => ?_⟩
      · exact Keeps.seq (runs_quarantineBeforeReplacement h₃.inside.1 _ h₃.named)
          (by rintro es' _ ⟨_, ⟨⟩, hended⟩; exact hended) (by rintro es' e ⟨_, ⟨⟩, -⟩)
      refine (runs_plain (o := .isCancellationRequested) trivial (fun _ => trivial) fun _ hc => hc rfl).look ?_
        fun es' e hplain he => .of_plain h₃.inside.1 hplain he
      intro es₄ cancelled hplain₄ _
      have h₄ := h₃.extends hplain₄
      refine Keeps.ite.mpr ⟨fun _ => ?_, fun _ => ?_⟩
      · exact .of_untouched h₄.inside.1 (h₄.untouched hprepared) ⟨nofun, nofun⟩
      refine Keeps.seq (runs_closeAndReplace h₄ hprepared) ?_ fun _ e he => he
      intro es₅ result h₅
      cases result with
      | some result => exact h₅
      | none =>
          have hrun := runs_advance ⟨h₅, h.named, h.scope⟩ .replaced (by rw [hprepared]; rfl) nofun trivial
            (fun _ => true)
          rw [hprepared] at hrun
          exact hrun.mono fun _ _ hp => hp.mono fun _ hs => by rw [hs]; nofun

theorem runs_inspect (path : FilePath) : Runs P request (task (.inspect path)) es (fun es' r =>
    Extends RestoreOp.Plain es es' ∧ ∀ snapshot, r = .ok snapshot → Saw es es' (inspectStep path snapshot)) := by
  refine runs_task trivial fun r _ => ⟨extends_concat (e := ⟨.inspect path, r⟩) trivial, ?_⟩
  rintro snapshot rfl
  exact .concat _ _

/-- What is found of a document that is inspected, or reopened and inspected, when every exception is caught. -/
theorem runs_tryInspect {inspection : RestoreM DurableRestoreDocumentSnapshot}
    {Q : List RestoreStep → DurableRestoreDocumentSnapshot → Prop}
    (h : Runs P request inspection es (fun es' r => Extends RestoreOp.Plain es es' ∧ ∀ snapshot, r = .ok snapshot →
      Q es' snapshot)) :
    Runs P request (tryInspect inspection) es (fun es' r =>
      Extends RestoreOp.Plain es es' ∧ ∃ found, r = .ok found ∧ ∀ snapshot, found = some snapshot →
        Q es' snapshot) := by
  refine Keeps.tryCatch.mpr (Keeps.map.mpr (h.mono fun es' r hr => ?_))
  obtain ⟨hplain, hsaw⟩ := hr
  cases r with
  | ok snapshot =>
      refine ⟨hplain, _, rfl, ?_⟩
      rintro _ ⟨⟩
      exact hsaw snapshot rfl
  | error e => exact ⟨hplain, none, rfl, nofun⟩

theorem runs_reopened (path : FilePath) :
    Runs P request (reopenAndInspect path) es (fun es' r =>
      Extends RestoreOp.Plain es es' ∧ ∀ snapshot, r = .ok snapshot →
        ∃ es₁, Saw es es₁ (reopenStep path) ∧ Saw es₁ es' (inspectStep path snapshot)) := by
  have hreopen : Runs P request (task (.reopen path)) es (fun es' r => Extends RestoreOp.Plain es es' ∧
      (r = .ok () → Saw es es' (reopenStep path))) := by
    refine runs_task trivial fun r _ => ⟨extends_concat (e := ⟨.reopen path, r⟩) trivial, ?_⟩
    rintro rfl
    exact .concat _ _
  refine Keeps.seq hreopen ?_ fun _ e h => ⟨h.1, not_ok⟩
  rintro es₁ _ ⟨hplain, hsaw⟩
  refine (runs_inspect path).mono fun es' r hr => ⟨hplain.trans hr.1, fun snapshot h => ⟨es₁, hsaw rfl, ?_⟩⟩
  exact hr.2 snapshot h

theorem runs_verifyReplaced (h : Ready P request es record) (hne : record.state ≠ .prepared) {digest : String}
    (hd : computeScopeDigest P request.authorization checkpoint request.targetPath = .ok digest) :
    Runs P request (verifyReplaced request checkpoint record) es
      (Passed P request fun state => state ≠ .prepared ∧ state ≠ .replaced) := by
  refine Keeps.ite.mpr ⟨fun hne' => ⟨h, hne, hne'⟩, fun hreplaced => ?_⟩
  have hreplaced := not_not.mp hreplaced
  have hquarantine : ∀ {es₁}, (knowledge es₁).held = true → Runs P request
      (do return .inl (← quarantineAttempt request.authorization.approvalId checkpoint.checkpointId record)) es₁
      (Passed P request fun state => state ≠ .prepared ∧ state ≠ .replaced) := fun hheld =>
    Keeps.seq (runs_quarantineAttempt hheld _ _) (by rintro es' _ ⟨_, ⟨⟩, hended⟩; exact hended)
      (by rintro es' e ⟨_, ⟨⟩, -⟩)
  refine (runs_replacementFactsMatch _ record).look ?_ fun es' e hplain he => .of_plain h.inside.1 hplain he
  intro es₁ found hplain₁ hfound
  have h₁ := h.extends hplain₁
  refine Keeps.ite.mpr ⟨fun _ => hquarantine h₁.inside.1, fun hmatch => ?_⟩
  obtain ⟨es₀, htarget, hbackup⟩ := hfound (by simpa using hmatch)
  refine Keeps.seq (runs_tryInspect (runs_reopened request.targetPath)) ?_ (by rintro es' e ⟨-, _, ⟨⟩, -⟩)
  rintro es₂ after ⟨hplain₂, _, ⟨⟩, hsaw⟩
  have h₂ := h₁.extends hplain₂
  cases after with
  | none => exact .of_held h₂.inside.1 (.inl rfl)
  | some after =>
      obtain ⟨es₁', hreopen, hinspect⟩ := hsaw after rfl
      refine (runs_matchesFacts _ _ record.checkpointFacts).look ?_ fun es' e hplain he =>
        .of_plain h₂.inside.1 hplain he
      intro es₃ restored hplain₃ hrestored
      have h₃ := h₂.extends hplain₃
      refine Keeps.ite.mpr ⟨fun _ => hquarantine h₃.inside.1, fun hlive => ?_⟩
      obtain ⟨hlive, hread⟩ := hrestored (by simpa using hlive)
      have hverified : VerifiedIn P request record es₃ :=
        ⟨after, restored_of_matches hd hlive, hread.sublist (hinspect.sublist (hreopen.sublist (hbackup.sublist
          (htarget.sublist (List.nil_sublist _)))))⟩
      have hrun := runs_advance h₃.toKnows .verified (by rw [hreplaced]; rfl) nofun hverified (fun _ => true)
      rw [hreplaced] at hrun
      exact hrun.mono fun _ _ hp => hp.mono fun _ hs => by rw [hs]; exact ⟨nofun, nofun⟩

/-- What a call is told that has consumed the checkpoint. -/
theorem runs_consume : Runs P request (consume request.authorization.checkpointId) es (fun es' r =>
    Looked es es' r ∧ ∀ consumed, r = .ok consumed → consumed = true → ConsumedIn request es') := by
  refine (runs_catalogRecord _).look ?_ fun es' e hplain he => ⟨.error hplain he, not_ok⟩
  intro es₁ current hplain hsaw
  refine Keeps.ite.mpr ⟨fun _ => ?_, fun _ => ⟨.ok hplain _, ?_⟩⟩
  · refine (runs_catalogRecord _).look ?_ fun es' e hplain' he => ⟨.error (hplain.trans hplain') he, not_ok⟩
    intro es₂ completed hplain' hsaw'
    exact ⟨.ok (hplain.trans hplain') _, fun _ _ _ => ⟨completed, .inr hsaw'.mem⟩⟩
  · rintro _ ⟨⟩ hstate
    exact ⟨current, .inl ⟨hsaw.mem, of_decide_eq_true hstate⟩⟩

variable (P request) in
/-- What the attempt to commit an entry leaves. -/
def CommitEnded (record : RestoreJournalRecord) (es : List RestoreStep) :
    DurableCheckpointRestoreResult ⊕ Option RestoreJournalRecord → Prop
  | .inl result => Ended P request es result
  | .inr none => (knowledge es).held = true
  | .inr (some committed) => Knows P request es committed ∧ committed.state = .committed ∧
      committed.scopeDigest = record.scopeDigest

theorem runs_commitEntry (h : Knows P request es record) (hverified : record.state = .verified)
    (hseen : ∃ snapshot, Restored P request snapshot ∧
      [readStep request.targetPath record.checkpointFacts, inspectStep request.targetPath snapshot].Sublist es) :
    Runs P request (commitEntry request.authorization request.authorization.checkpointId record) es (fun es' r =>
      ∃ a, r = .ok a ∧ CommitEnded P request record es' a) := by
  refine Keeps.handle (F := fun es' r => (knowledge es').held = true ∧ ∀ a, r = .ok a →
    CommitEnded P request record es' a)
    ?_ (fun es' a ha => ⟨a, rfl, ha.2 a rfl⟩) (fun es' e he => ⟨_, rfl, .of_held he.1 (.inl rfl)⟩)
  refine runs_consume.look ?_ fun es' e hplain _ => ⟨held_extends h.inside.1 hplain, not_ok⟩
  intro es₁ consumed hplain hconsumed
  have h₁ := h.inside.extends hplain
  refine Keeps.ite.mpr ⟨fun hc => ?_, fun _ => ⟨h₁.1, ?_⟩⟩
  · have hsettled : SettledIn P request record es₁ := by
      obtain ⟨snapshot, hrestored, hsub⟩ := hseen
      exact ⟨⟨snapshot, hrestored, hplain.sublist hsub⟩, hconsumed hc⟩
    have htransition : Runs P request (task (.transition request.authorization.approvalId record.scopeDigest .verified
        .committed)) es₁ (fun es' r => (knowledge es').held = true ∧ ∀ committed, r = .ok committed →
          CommitEnded P request record es' (.inr (some committed))) := by
      refine runs_task ⟨rfl, rfl, record, h₁, hverified, rfl, h.scope, hsettled⟩ ?_
      rintro r ⟨-, hr⟩
      rw [knowledge_concat]
      refine ⟨by cases r <;> exact h₁.1, ?_⟩
      rintro committed rfl
      obtain ⟨hnamed, hdigest, hstate⟩ := hr committed rfl
      refine ⟨⟨⟨?_, ?_⟩, hnamed, hdigest ▸ h.scope⟩, hstate, hdigest⟩
      · rw [knowledge_concat]
        exact h₁.1
      · rw [knowledge_concat]
        rfl
    refine Keeps.seq htransition ?_ fun _ e he => ⟨he.1, not_ok⟩
    rintro es₂ committed ⟨hheld, hcommitted⟩
    refine ⟨hheld, ?_⟩
    rintro _ ⟨⟩
    exact hcommitted committed rfl
  · rintro _ ⟨⟩
    exact h₁.1

theorem runs_deleteCommittedArtifact {path : FilePath}
    (hmay : ∀ es', Extends RestoreOp.Plain es es' → May P request es' (.delete path)) :
    Runs P request (deleteCommittedArtifact path) es (fun es' r => Looked es es' r ∧ ∀ a, r = .ok a → True) := by
  refine (runs_deleteExisting hmay).look ?_ fun es' e hplain he => ⟨.error hplain he, fun _ _ => trivial⟩
  intro es₁ _ h₁ _
  refine (runs_fileExists path).look ?_ fun es' e h₂ he => ⟨.error (h₁.trans h₂) he, fun _ _ => trivial⟩
  intro es₂ present h₂ _
  exact Keeps.ite.mpr ⟨fun _ => ⟨.error (h₁.trans h₂) nofun, fun _ _ => trivial⟩,
    fun _ => ⟨.ok (h₁.trans h₂) _, fun _ _ => trivial⟩⟩

/-- The artifacts of a committed entry may be removed. -/
theorem runs_tryCleanupCommittedArtifacts (h : Knows P request es record) (hcommitted : record.state = .committed) :
    Runs P request (tryCleanupCommittedArtifacts
      (request.targetPath.sibling (stageFileName (entryKey P request) record.scopeDigest))
      (request.targetPath.sibling (backupFileName (entryKey P request) record.scopeDigest))) es
      (fun es' r => Looked es es' r ∧ ∀ a, r = .ok a → True) := by
  have hstage : ∀ es', Extends RestoreOp.Plain es es' → May P request es' (.delete
      (request.targetPath.sibling (stageFileName (entryKey P request) record.scopeDigest))) := fun es' hplain =>
    ⟨held_extends h.inside.1 hplain, .inl ⟨_, rfl⟩⟩
  have hbackup : ∀ es', Extends RestoreOp.Plain es es' → May P request es' (.delete
      (request.targetPath.sibling (backupFileName (entryKey P request) record.scopeDigest))) := fun es' hplain =>
    ⟨held_extends h.inside.1 hplain, .inr ⟨record, h.inside.extends hplain, hcommitted,
      h.scope, by rw [h.named.backup]⟩⟩
  refine Keeps.handle (F := fun es' r => Looked es es' r ∧ ∀ a, r = .ok a → True) ?_ (fun _ _ ha => ha) ?_
  · refine (runs_deleteCommittedArtifact hstage).look ?_ fun _ _ hp he => ⟨.error hp he, fun _ _ => trivial⟩
    intro es₁ _ h₁ _
    refine (runs_deleteCommittedArtifact fun es' hp => hbackup es' (h₁.trans hp)).look ?_
      fun _ _ h₂ he => ⟨.error (h₁.trans h₂) he, fun _ _ => trivial⟩
    intro es₂ _ h₂ _
    have h₂ := h₁.trans h₂
    refine (runs_fileExists _).look ?_ fun _ _ h₃ he => ⟨.error (h₂.trans h₃) he, fun _ _ => trivial⟩
    intro es₃ _ h₃ _
    have h₃ := h₂.trans h₃
    refine (runs_fileExists _).look ?_ fun _ _ h₄ he => ⟨.error (h₃.trans h₄) he, fun _ _ => trivial⟩
    intro es₄ _ h₄ _
    exact ⟨.ok (h₃.trans h₄) _, fun _ _ => trivial⟩
  · rintro es' e ⟨hlooked, -⟩
    exact Keeps.ite.mpr ⟨fun _ => ⟨.ok hlooked.plain _, fun _ _ => trivial⟩,
      fun _ => ⟨.error hlooked.plain (hlooked.notCanceled e rfl), fun _ _ => trivial⟩⟩

/-- The end of a call under a committed entry. -/
theorem Ended.of_committed (h : Knows P request es record) (hcommitted : record.state = .committed)
    {outcome : DurableCheckpointRestoreOutcome} {state : Option DurableCheckpointRestoreState}
    (hr : outcome = .completed ∨ outcome = .replayed) :
    Ended P request es ⟨outcome, state, some request.authorization.preRevision⟩ := by
  refine ⟨h.inside.1, fun _ => ⟨rfl, record, h.inside, hcommitted, h.scope⟩, ?_⟩
  rintro (ho | ho | ho) <;> rcases hr with hr | hr <;> cases hr.symm.trans ho

theorem Knows.extends (h : Knows P request es record) (hes : Extends RestoreOp.Plain es es') :
    Knows P request es' record := ⟨h.inside.extends hes, h.named, h.scope⟩

theorem runs_replayCommitted (h : Knows P request es record) (hcommitted : record.state = .committed) :
    Runs P request (replayCommitted request.authorization request.targetPath record) es (Finished P request) := by
  unfold replayCommitted
  rw [h.named.stage, h.named.backup]
  refine (runs_tryCleanupCommittedArtifacts h hcommitted).look ?_ fun _ _ hplain he => .of_plain h.inside.1 hplain he
  intro es₁ clean hplain _
  have h₁ := h.extends hplain
  exact Keeps.ite.mpr ⟨fun _ => .of_committed h₁ hcommitted (.inr rfl), fun _ => .of_held h₁.inside.1 (.inl rfl)⟩

theorem checkpointId_of_scope {digest : String}
    (hd : computeScopeDigest P request.authorization checkpoint request.targetPath = .ok digest) :
    checkpoint.checkpointId = request.authorization.checkpointId := by
  by_contra hne
  unfold computeScopeDigest computeRecordedScopeDigest at hd
  split at hd
  · cases hd
  · rw [if_pos (.inr (.inr (.inl (Ne.symm hne))))] at hd
    cases hd

theorem runs_commitVerified (h : Ready P request es record) {digest : String}
    (hd : computeScopeDigest P request.authorization checkpoint request.targetPath = .ok digest) :
    Runs P request (commitVerified request checkpoint record) es (Finished P request) := by
  have hquarantine : ∀ {es₁}, (knowledge es₁).held = true → Runs P request
      (quarantineAttempt request.authorization.approvalId checkpoint.checkpointId record) es₁ (Finished P request) := by
    intro es₁ hheld
    refine (runs_quarantineAttempt hheld _ _).mono ?_
    rintro es' _ ⟨result, rfl, hended⟩
    exact hended
  refine Keeps.ite.mpr ⟨fun _ => ?_, fun hverified => ?_⟩
  · exact Keeps.ite.mpr ⟨fun hcommitted => runs_replayCommitted h.toKnows hcommitted, fun _ => hquarantine h.inside.1⟩
  have hverified := not_not.mp hverified
  refine (runs_hasFacts _ record.checkpointFacts).look ?_ fun _ _ hplain he => .of_plain h.inside.1 hplain he
  intro es₁ found hplain₁ hread
  have h₁ := h.toKnows.extends hplain₁
  refine Keeps.ite.mpr ⟨fun _ => hquarantine h₁.inside.1, fun hfound => ?_⟩
  have hread := hread (by simpa using hfound)
  refine Keeps.seq (runs_tryInspect (runs_inspect request.targetPath)) ?_ (by rintro es' e ⟨-, _, ⟨⟩, -⟩)
  rintro es₂ inspected ⟨hplain₂, _, ⟨⟩, hsaw⟩
  have h₂ := h₁.extends hplain₂
  cases inspected with
  | none => exact .of_held h₂.inside.1 (.inl rfl)
  | some verified =>
      refine Keeps.ite.mpr ⟨fun _ => hquarantine h₂.inside.1, fun hlive => ?_⟩
      have hrestored := restored_of_matches hd (by simpa using hlive)
      have hseen := (hsaw verified rfl).sublist (hread.sublist (List.nil_sublist _))
      rw [checkpointId_of_scope hd]
      refine Keeps.seq (runs_commitEntry h₂ hverified ⟨verified, hrestored, hseen⟩) ?_ (by rintro es' e ⟨_, ⟨⟩, -⟩)
      rintro es₃ ended ⟨_, ⟨⟩, hended⟩
      cases ended with
      | inl result => exact hended
      | inr committed =>
          cases committed with
          | none =>
              rw [← checkpointId_of_scope hd]
              exact hquarantine hended
          | some committed =>
              obtain ⟨hknows, hcommitted, hdigest⟩ := hended
              have hstage := h.named.stage
              have hbackup := h.named.backup
              rw [← hdigest] at hstage hbackup
              rw [hstage, hbackup]
              refine (runs_tryCleanupCommittedArtifacts hknows hcommitted).look ?_
                fun _ _ hplain he => .of_plain hknows.inside.1 hplain he
              intro es₄ clean hplain₄ _
              have h₄ := hknows.extends hplain₄
              exact Keeps.ite.mpr ⟨fun _ => .of_committed h₄ hcommitted (.inl rfl),
                fun _ => .of_held h₄.inside.1 (.inl rfl)⟩

theorem runs_resumeAsync (h : Ready P request es record) {digest : String}
    (hd : computeScopeDigest P request.authorization checkpoint request.targetPath = .ok digest) :
    Runs P request (resumeAsync request checkpoint record) es (Finished P request) := by
  refine Keeps.seq (runs_settlePrepared h) ?_ fun _ _ he => he
  intro es₁ settled h₁
  cases settled with
  | inl result => exact h₁
  | inr record₁ =>
      refine Keeps.seq (runs_replacePrepared h₁.1) ?_ fun _ _ he => he
      intro es₂ replaced h₂
      cases replaced with
      | inl result => exact h₂
      | inr record₂ =>
          refine Keeps.seq (runs_verifyReplaced h₂.1 h₂.2 hd) ?_ fun _ _ he => he
          intro es₃ verified h₃
          cases verified with
          | inl result => exact h₃
          | inr record₃ => exact runs_commitVerified h₃.1 hd

/-! ## The call -/

theorem runs_readFacts {read : RestoreM FileFacts}
    (h : Runs P request read es (fun es' r => Looked es es' r ∧ ∀ a, r = .ok a → True)) :
    Runs P request (readFacts read) es (fun es' r => Looked es es' r ∧ ∀ a, r = .ok a → True) := by
  refine Keeps.tryCatch.mpr (Keeps.map.mpr (h.mono fun es' r hr => ?_))
  cases r with
  | ok facts => exact ⟨.ok hr.1.plain _, fun _ _ => trivial⟩
  | error e =>
      exact Keeps.ite.mpr ⟨fun _ => ⟨.ok hr.1.plain _, fun _ _ => trivial⟩,
        fun _ => ⟨.error hr.1.plain (hr.1.notCanceled e rfl), fun _ _ => trivial⟩⟩

theorem runs_ensureAbsentOrMatchingStage (path : FilePath) (expected : FileFacts) :
    Runs P request (ensureAbsentOrMatchingStage path expected)
      es (fun es' r => Looked es es' r ∧ ∀ a, r = .ok a → True) := by
  refine (runs_fileExists _).look ?_ fun _ _ hp he => ⟨.error hp he, fun _ _ => trivial⟩
  intro es₁ present h₁ _
  refine Keeps.ite.mpr ⟨fun _ => ?_, fun _ => ⟨.ok h₁ _, fun _ _ => trivial⟩⟩
  refine (runs_readDwgFacts _).look ?_ fun _ _ h₂ he => ⟨.error (h₁.trans h₂) he, fun _ _ => trivial⟩
  intro es₂ facts h₂ _
  exact Keeps.ite.mpr ⟨fun _ => ⟨.error (h₁.trans h₂) nofun, fun _ _ => trivial⟩,
    fun _ => ⟨.ok (h₁.trans h₂) _, fun _ _ => trivial⟩⟩

theorem runs_copyWhereAbsent (h : Inside es none) (name digest : String) :
    Runs P request (copyWhereAbsent name (request.targetPath.sibling (stageFileName (entryKey P request) digest))) es
      (fun es' r => Looked es es' r ∧ ∀ a, r = .ok a → True) := by
  refine (runs_fileExists _).look ?_ fun _ _ hp he => ⟨.error hp he, fun _ _ => trivial⟩
  intro es₁ present h₁ _
  refine Keeps.ite.mpr ⟨fun _ => ?_, fun _ => ⟨.ok h₁ _, fun _ _ => trivial⟩⟩
  refine runs_task ⟨h.extends h₁, digest, rfl⟩ fun r hr => ⟨⟨h₁.trans (extends_concat (e := ⟨_, r⟩) trivial), ?_⟩,
    fun _ _ => trivial⟩
  rintro e rfl rfl
  exact hr rfl

/-- Staging leaves the journal and the target as they are. -/
theorem runs_stage (h : Inside es none) (checkpointFacts : FileFacts) (digest : String) (backupPath : FilePath) :
    Runs P request (stage checkpoint checkpointFacts
      (request.targetPath.sibling (stageFileName (entryKey P request) digest)) backupPath) es
      (fun es' r => Looked es es' r ∧ ∀ a, r = .ok a → True) := by
  refine (runs_ensureAbsentOrMatchingStage _ checkpointFacts).look ?_ fun _ _ hp he =>
    ⟨.error hp he, fun _ _ => trivial⟩
  intro es₁ _ h₁ _
  refine (runs_fileExists _).look ?_ fun _ _ h₂ he => ⟨.error (h₁.trans h₂) he, fun _ _ => trivial⟩
  intro es₂ present h₂ _
  have h₂ := h₁.trans h₂
  refine Keeps.ite.mpr ⟨fun _ => ⟨.error h₂ nofun, fun _ _ => trivial⟩, fun _ => ?_⟩
  refine (runs_copyWhereAbsent (h.extends h₂) _ digest).look ?_ fun _ _ h₃ he =>
    ⟨.error (h₂.trans h₃) he, fun _ _ => trivial⟩
  intro es₃ _ h₃ _
  have h₃ := h₂.trans h₃
  refine (runs_readDwgFacts _).look ?_ fun _ _ h₄ he => ⟨.error (h₃.trans h₄) he, fun _ _ => trivial⟩
  intro es₄ staged h₄ _
  exact Keeps.ite.mpr ⟨fun _ => ⟨.error (h₃.trans h₄) nofun, fun _ _ => trivial⟩,
    fun _ => ⟨.ok (h₃.trans h₄) _, fun _ _ => trivial⟩⟩

/-- What the attempt knows that has reserved its entry, or has failed to. -/
theorem runs_createPrepared (h : Inside es none) {prepared : RestoreJournalRecord} (hstate : prepared.state = .prepared)
    (hnamed : WellNamed (entryKey P request) prepared) (hscope : Scoped P request prepared.scopeDigest)
      (hu : Untouched es) :
    Runs P request (task (.createPrepared request.authorization.approvalId prepared)) es (fun es' r =>
      (∀ a, r = .ok a → Ready P request es' prepared) ∧ ∀ e, r = .error e → Raised es' e ∧ Untouched es') := by
  refine runs_task ⟨rfl, h, hstate, hnamed, hscope⟩ fun r hr => ⟨?_, ?_⟩
  · rintro a rfl
    refine ⟨⟨⟨?_, ?_⟩, hnamed, hscope⟩, fun _ => hu.concat id⟩
    · rw [knowledge_concat]
      exact h.1
    · rw [knowledge_concat]
      rfl
  · rintro e rfl
    refine ⟨⟨?_, ?_⟩, hu.concat id⟩
    · rw [knowledge_concat]
      exact h.1
    · rintro rfl
      exact hr rfl

/-- Reading the entry once more, where an attempt has failed. -/
theorem runs_tryGet (h : (knowledge es).held = true) :
    Runs P request (task (.tryGet request.authorization.approvalId)) es (fun es' r =>
      (∀ e, r = .error e → Raised es' e) ∧ ∀ entry, r = .ok entry → Inside es' entry ∧ (entry = none → Untouched es) ∧
        (Untouched es → Untouched es') ∧ ∀ record, entry = some record → WellNamed (entryKey P request) record) := by
  refine runs_task ⟨rfl, h⟩ fun r hr => ?_
  have hheld : (knowledge (es ++ [⟨.tryGet request.authorization.approvalId, r⟩])).held = true := by
    rw [knowledge_concat]
    cases r <;> exact h
  refine ⟨?_, ?_⟩
  · rintro e rfl
    refine ⟨hheld, ?_⟩
    rintro rfl
    exact hr.1 rfl
  · rintro entry rfl
    refine ⟨⟨hheld, ?_⟩, ?_, fun hu => hu.concat id, ?_⟩
    · rw [knowledge_concat]
      rfl
    · rintro rfl
      exact hr.2.1 rfl
    · rintro record rfl
      exact hr.2.2 record rfl

/-- An attempt that has failed is rejected only where it has left no entry. -/
theorem runs_failed {e : RestoreException} (h : Raised es e) (digest : String) :
    Runs P request (failedAttempt request.authorization.approvalId
      (request.targetPath.sibling (stageFileName (entryKey P request) digest)) e) es (Finished P request) := by
  refine Keeps.ite.mpr ⟨fun hc => absurd hc h.2, fun _ => Keeps.ite.mpr ⟨fun _ => ?_, fun _ => h⟩⟩
  refine Keeps.seq (runs_tryGet h.1) ?_ fun _ e' he => he.1 e' rfl
  rintro es₁ entry ⟨-, hentry⟩
  obtain ⟨hinside, hnone, hu, -⟩ := hentry entry rfl
  cases entry with
  | some journal => exact .of_held hinside.1 (.inl rfl)
  | none =>
      refine Keeps.seq (runs_tryDelete hinside.1 digest) ?_ fun _ e' he => absurd he.2 nofun
      rintro es₂ _ ⟨hplain, -⟩
      exact .of_untouched (held_extends hinside.1 hplain) ((hu (hnone rfl)).extends hplain) ⟨nofun, nofun⟩

theorem runs_prepareAndRestoreAsync (h : Inside es none) (hu : Untouched es) {digest : String}
    (hd : computeScopeDigest P request.authorization checkpoint request.targetPath = .ok digest) :
    Runs P request (prepareAndRestoreAsync P request checkpoint digest) es (Finished P request) := by
  refine (runs_readFacts ((runs_readDwgFacts _).mono fun _ _ hr => ⟨hr.1, fun _ _ => trivial⟩)).look ?_
    fun _ _ hplain he => .of_plain h.1 hplain he
  intro es₁ target h₁ _
  cases target with
  | none => exact .of_untouched (held_extends h.1 h₁) (hu.extends h₁) ⟨nofun, nofun⟩
  | some targetFacts =>
      refine (runs_readFacts (runs_artifactFacts _)).look ?_ fun _ _ h₂ he => .of_plain h.1 (h₁.trans h₂) he
      intro es₂ artifact h₂ _
      have h₂ := h₁.trans h₂
      refine Keeps.ite.mpr ⟨fun _ => ?_, fun _ => ?_⟩
      · refine Keeps.seq (runs_tryQuarantineCatalog _) ?_ fun _ e he => absurd he.2 nofun
        rintro es₃ _ ⟨h₃, -⟩
        exact .of_held (held_extends h.1 (h₂.trans h₃)) (.inr rfl)
      refine Keeps.handle (F := Finished P request) ?_ (fun _ _ ha => ha) fun es' e he => runs_failed he digest
      refine (runs_stage (h.extends h₂) _ digest _).look ?_ fun _ _ h₃ he => .of_plain h.1 (h₂.trans h₃) he
      intro es₃ _ h₃ _
      have h₃ := h₂.trans h₃
      refine (runs_plain (o := .protectTargetLocator ..) trivial (fun _ => trivial) fun _ hc => hc rfl).look ?_
        fun _ _ h₄ he => .of_plain h.1 (h₃.trans h₄) he
      intro es₄ locator h₄ _
      have h₄ := h₃.trans h₄
      refine Keeps.seq (runs_createPrepared (h.extends h₄) rfl ⟨rfl, rfl⟩ ⟨checkpoint, hd⟩ (hu.extends h₄)) ?_
        fun _ e he => (he.2 e rfl).1
      rintro es₅ _ ⟨hready, -⟩
      have h₅ := hready _ rfl
      refine (runs_catalogRecord _).look ?_ fun _ _ h₆ he => .of_plain h₅.inside.1 h₆ he
      intro es₆ _ h₆ _
      exact runs_resumeAsync (h₅.extends h₆) hd

theorem runs_restoreUnderLock (h : (knowledge es).held = true) (hu : Untouched es) {digest : String}
    (hd : computeScopeDigest P request.authorization checkpoint request.targetPath = .ok digest) :
    Runs P request (restoreUnderLock P request checkpoint digest) es (Finished P request) := by
  refine Keeps.seq (runs_tryGet h) ?_ fun _ e he => he.1 e rfl
  rintro es₁ entry ⟨-, hentry⟩
  obtain ⟨hinside, -, hu', hnamed⟩ := hentry entry rfl
  have hu₁ := hu' hu
  cases entry with
  | some existing =>
      refine Keeps.ite.mpr ⟨fun _ => .of_untouched hinside.1 hu₁ ⟨nofun, nofun⟩, fun hscope => ?_⟩
      have hscope := not_not.mp hscope
      have hknows : Knows P request es₁ existing := ⟨hinside, hnamed existing rfl, hscope ▸ ⟨checkpoint, hd⟩⟩
      refine Keeps.ite.mpr ⟨fun hcommitted => runs_replayCommitted hknows hcommitted, fun _ => ?_⟩
      refine Keeps.ite.mpr ⟨fun _ => ?_, fun _ => runs_resumeAsync ⟨hknows, fun _ => hu₁⟩ hd⟩
      refine Keeps.seq (runs_tryQuarantineCatalog _) ?_ fun _ e he => absurd he.2 nofun
      rintro es₂ _ ⟨hplain, -⟩
      exact .of_held (held_extends hinside.1 hplain) (.inr rfl)
  | none =>
      refine Keeps.ite.mpr ⟨fun _ => .of_untouched hinside.1 hu₁ ⟨nofun, nofun⟩, fun _ => ?_⟩
      refine (runs_plain (o := .isCancellationRequested) trivial (fun _ => trivial) fun _ hc => hc rfl).look ?_
        fun _ _ hplain he => .of_plain hinside.1 hplain he
      intro es₂ cancelled hplain _
      refine Keeps.ite.mpr ⟨fun _ => ?_, fun _ => ?_⟩
      · exact .of_untouched (held_extends hinside.1 hplain) (hu₁.extends hplain) ⟨nofun, nofun⟩
      · exact runs_prepareAndRestoreAsync (hinside.extends hplain) (hu₁.extends hplain) hd

variable (P request) in
/-- What holds of a call that returns: it does not hold the lock. -/
structure Returned (es : List RestoreStep) (r : Except RestoreException DurableCheckpointRestoreResult) : Prop where
  released : (knowledge es).held = false
  settled : ∀ result, r = .ok result → result.outcome = .completed ∨ result.outcome = .replayed →
    result.restoredRevision = some request.authorization.preRevision ∧
      ∃ record, (knowledge es).entry = some (some record) ∧ record.state = .committed ∧
        Scoped P request record.scopeDigest
  untouched : ∀ result, r = .ok result →
    result.outcome = .cancelled ∨ result.outcome = .rejected ∨ result.outcome = .scopeConflict → Untouched es

theorem Returned.of_error (h : (knowledge es).held = false) (e : RestoreException) :
    Returned P request es (.error e) := ⟨h, not_ok, not_ok⟩

/-- The body has run, and the lock is released. -/
theorem runs_holdingLock {body : RestoreM DurableCheckpointRestoreResult}
    (h : Runs P request body es (Finished P request)) : Runs P request (holdingLock body) es (Returned P request) := by
  refine sat_bind.mpr (h.mono ?_)
  intro es₁ r hr
  have hheld : (knowledge es₁).held = true := by
    cases r with
    | ok result => exact hr.held
    | error e => exact hr.1
  refine ⟨hheld, ?_⟩
  rintro released _ ⟨-, rfl⟩
  have hknowledge : knowledge (es₁ ++ [⟨.releaseExecutionLock, released⟩]) = { knowledge es₁ with held := false } :=
    knowledge_concat ..
  refine ⟨by rw [hknowledge], ?_, ?_⟩
  · rintro result rfl houtcome
    obtain ⟨hrevision, record, hinside, hcommitted, hscope⟩ := hr.settled houtcome
    exact ⟨hrevision, record, by rw [hknowledge]; exact hinside.2, hcommitted, hscope⟩
  · rintro result rfl houtcome
    exact (hr.untouched houtcome).concat id

theorem runs_acquire (h : (knowledge es).held = false) (hu : Untouched es) :
    Runs P request tryAcquireExecutionLock es (fun es' r => Untouched es' ∧
      match r with
      | .ok acquired => (knowledge es').held = acquired
      | .error _ => (knowledge es').held = false) := by
  refine Keeps.tryCatch.mpr (Keeps.bind.mpr (runs_task h fun r _ => ?_))
  have hu' := hu.concat (e := ⟨.acquireExecutionLock, r⟩) id
  cases r with
  | ok _ =>
      refine ⟨hu', ?_⟩
      rw [knowledge_concat]
      rfl
  | error e =>
      refine Keeps.ite.mpr ⟨fun _ => ⟨hu', ?_⟩, fun _ => ⟨hu', ?_⟩⟩ <;> rw [knowledge_concat] <;> exact h

/-- Every call keeps the guard. -/
theorem restoreAsync_keeps : Runs P request (restoreAsync P request) [] (Returned P request) := by
  have hstart : (knowledge []).held = false := rfl
  have hidle : ∀ {es}, Extends RestoreOp.Plain [] es → (knowledge es).held = false ∧ Untouched es := fun hplain =>
    ⟨by rw [knowledge_of_plain hplain]; rfl, Untouched.extends (by simp [Untouched]) hplain⟩
  refine Keeps.seq (F := fun es' _ => es' = []) (by cases validateAuthorization request.authorization <;> rfl) ?_ ?_
  swap
  · rintro _ e rfl
    exact .of_error hstart e
  rintro _ _ rfl
  refine (runs_plain (o := .validateTargetPath _) trivial (fun _ => trivial) fun _ hc => hc rfl).look ?_
    fun _ e hplain _ => .of_error (hidle hplain).1 e
  intro es₁ _ h₁ _
  refine (runs_catalogRecord _).look ?_ fun _ e hplain _ => .of_error (hidle (h₁.trans hplain)).1 e
  intro es₂ checkpoint h₂ _
  have h₂ := h₁.trans h₂
  cases hd : computeScopeDigest P request.authorization checkpoint request.targetPath with
  | error e => exact .of_error (hidle h₂).1 e
  | ok digest =>
      refine Keeps.seq (F := fun es' r => es' = es₂ ∧ r = .ok digest) ⟨rfl, rfl⟩ ?_
        (by rintro _ e ⟨rfl, -⟩; exact .of_error (hidle h₂).1 e)
      rintro _ _ ⟨rfl, ⟨⟩⟩
      refine Keeps.seq (runs_acquire (hidle h₂).1 (hidle h₂).2) ?_ fun _ e he => .of_error he.2 e
      rintro es₃ acquired ⟨hu, hheld⟩
      refine Keeps.ite.mpr ⟨fun hno => ?_, fun hyes => ?_⟩
      · have hheld : (knowledge es₃).held = false := by simpa [hheld] using hno
        refine ⟨hheld, ?_, ?_⟩
        · rintro _ ⟨⟩ (ho | ho) <;> cases ho
        · rintro _ ⟨⟩ _
          exact hu
      · have hheld : (knowledge es₃).held = true := by simpa [hheld] using hyes
        exact runs_holdingLock (runs_restoreUnderLock hheld hu hd)

end CadHarness.Checkpoint
