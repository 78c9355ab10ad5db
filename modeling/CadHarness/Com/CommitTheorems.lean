import CadHarness.Com.Lemmas.Calls
import CadHarness.Service.Lemmas.Outcome

/-!
# What the error of a commit says

An error other than an unknown commit state is to say that the plan has not touched the drawing, and the
service takes it to say so. It does, unless something is raised after the last operation.
-/

namespace CadHarness.Com
open CadHarness.Lib CadHarness.Domain CadHarness.Persistence Prog

variable (texts : Texts) (fuel : Nat) (computeHash : Plan.OperationPlan → Except Exc String)
  (world : World comSig) (request : CommitRequest)

noncomputable section

/-! ## The run of a commit -/

/-- A commit up to the end of its operations. -/
def drawPlan : ComM (Opened × List EntityResult) := do
  let opened ← openDocument texts fuel request
  let results ← executeAll opened.document opened.documentId request.plan.operations
  return (opened, results)

/-- The calls of the last revision read, with their answers. -/
def lastReadings (tr : List ComEvent) (opened : Opened) : List ComEvent :=
  (exec world (readRevision texts fuel opened.document opened.documentId) tr).1.drop tr.length

/-- An error that is no unknown commit state: nothing is said to be drawn. -/
def Definite {α : Type} (r : Except Stop α) : Prop :=
  ∃ e, r = .error (.raised e) ∧ e.isUnknownCommitState = false

/-- After the operations, nothing is raised but an unknown commit state. -/
structure Undisturbed (tr : List ComEvent) (opened : Opened) : Prop where
  mark : ¬ Definite (world tr .endUndoMark)
  hash : world tr .endUndoMark = .ok () →
    ∀ e, planHashOf computeHash request = .error e → e.isUnknownCommitState = true
  readings : world tr .endUndoMark = .ok () → ∀ planHash, planHashOf computeHash request = .ok planHash →
    ∀ e ∈ lastReadings texts fuel world (tr ++ [⟨.endUndoMark, .ok ()⟩]) opened, raisedAt e = false

@[simp] theorem not_definite_ok {α : Type} (a : α) : ¬ Definite (.ok a) := by
  rintro ⟨e, h, -⟩
  cases h

@[simp] theorem not_definite_endless {α : Type} : ¬ Definite (.error .endless : Except Stop α) := by
  rintro ⟨e, h, -⟩
  cases h

@[simp] theorem definite_raised {α : Type} {e : Exc} :
    Definite (.error (.raised e) : Except Stop α) ↔ e.isUnknownCommitState = false := by
  constructor
  · rintro ⟨e', h, he⟩
    cases h
    exact he
  · intro he
    exact ⟨e, rfl, he⟩

theorem definite_bind {α β : Type} {tr : List ComEvent} {m : ComM α} {f : α → ComM β} :
    Definite (exec world (m >>= f) tr).2 ↔ Definite (exec world m tr).2 ∨
      ∃ a, (exec world m tr).2 = .ok a ∧ Definite (exec world (f a) (exec world m tr).1).2 := by
  rw [exec_bind]
  rcases exec world m tr with ⟨tr, stop | a⟩
  · simp [Definite]
  · simp [not_definite_ok]

/-- A revision that cannot be read is no unknown commit state. -/
theorem computeRevision_definite_iff {tr : List ComEvent} (document : ComObject) (id : String) :
    Definite (exec world (computeRevision texts fuel document id) tr).2 ↔
      ∃ e ∈ (exec world (readRevision texts fuel document id) tr).1.drop tr.length, raisedAt e = true := by
  rw [← (readRevision_passesOn texts fuel document id).exec]
  unfold computeRevision
  rw [exec_bind, exec_attempt]
  rcases exec world (readRevision texts fuel document id) tr with ⟨tr, (e | _) | revision⟩
  · simp [comCallFailed, Exc.isUnknownCommitState, Exc.code?]
  · simp [not_definite_endless]
  · simp [not_definite_ok]

/-- What follows the operations raises a definite error just when it is disturbed. -/
theorem conclude_definite_iff (tr : List ComEvent) (opened : Opened) (results : List EntityResult) :
    ¬ Definite (exec world (conclude texts fuel computeHash request opened results) tr).2 ↔
      Undisturbed texts fuel computeHash world request tr opened := by
  have hreadings (tr : List ComEvent) (f : String → CommitResult) :
      Definite (exec world (do return f (← computeRevision texts fuel opened.document opened.documentId)) tr).2 ↔
        ∃ e ∈ lastReadings texts fuel world tr opened, raisedAt e = true := by
    rw [lastReadings, ← computeRevision_definite_iff, definite_bind]
    simp
  unfold conclude
  rw [definite_bind, exec_com, not_or, not_exists]
  dsimp only
  constructor
  · rintro ⟨hmark, hrest⟩
    have hrest (hok : world tr .endUndoMark = .ok ()) := not_and.mp (hrest ()) hok
    refine ⟨hmark, ?_, ?_⟩
    · intro hok e he
      have h := hrest hok
      rw [definite_bind, he] at h
      simpa using h
    · intro hok planHash hhash e he
      have h := hrest hok
      rw [definite_bind, hhash, exec_ofExcept_ok, hok] at h
      simp only [not_definite_ok, false_or, not_exists, not_and] at h
      have hquiet := h planHash rfl
      rw [hreadings] at hquiet
      apply Bool.eq_false_of_not_eq_true
      intro hraised
      exact hquiet ⟨e, he, hraised⟩
  · intro hu
    refine ⟨hu.mark, ?_⟩
    rintro ⟨⟩ ⟨hok, hdefinite⟩
    rw [hok, definite_bind] at hdefinite
    cases hhash : planHashOf computeHash request with
    | error e =>
        have he := hu.hash hok e hhash
        rw [hhash] at hdefinite
        simp [he] at hdefinite
    | ok planHash =>
        rw [hhash] at hdefinite
        simp only [exec_ofExcept_ok, not_definite_ok, false_or] at hdefinite
        obtain ⟨planHash', hplan, hdefinite⟩ := hdefinite
        rw [hreadings] at hdefinite
        obtain ⟨e, he, hraised⟩ := hdefinite
        have hquiet := hu.readings hok planHash hhash e he
        rw [hraised] at hquiet
        cases hquiet

/-- Once the plan is drawn, a commit goes on to conclude. -/
theorem exec_commit_drawn {tr : List ComEvent} {opened : Opened} {results : List EntityResult}
    (h : exec world (drawPlan texts fuel request) [] = (tr, .ok (opened, results))) :
    exec world (commit texts fuel computeHash request) [] =
      exec world (conclude texts fuel computeHash request opened results) tr := by
  unfold drawPlan at h
  unfold commit
  rcases hopen : exec world (openDocument texts fuel request) [] with ⟨tr₀, stop | opened₀⟩
  · rw [exec_bind, hopen] at h
    cases h
  · rw [exec_bind, hopen] at h ⊢
    dsimp only at h ⊢
    rcases hrun : exec world (executeAll opened₀.document opened₀.documentId request.plan.operations) tr₀ with
      ⟨tr₁, stop | results₁⟩
    · rw [exec_bind, hrun] at h
      cases h
    · rw [exec_bind, hrun] at h
      cases h
      rw [exec_bind, exec_attempt, hrun]

theorem not_definite_suppress {α : Type} {tr : List ComEvent} (m : ComM α) :
    ¬ Definite (exec world (suppress m) tr).2 := by
  unfold suppress
  rw [exec_bind, exec_attempt]
  rcases exec world m tr with ⟨tr, (e | _) | a⟩ <;> simp

/-- A commit that stops before the plan is drawn says so, or leaves the drawing as it was. -/
theorem commit_not_drawn
    (h : ∀ tr drawn, exec world (drawPlan texts fuel request) [] ≠ (tr, .ok drawn))
    (hdefinite : Definite (exec world (commit texts fuel computeHash request) []).2) :
    ¬ Modified (exec world (commit texts fuel computeHash request) []).1 := by
  have hreads : Modified (exec world (openDocument texts fuel request) []).1 ↔ Modified [] :=
    (openDocument_reads texts fuel request).modified_iff
  unfold drawPlan at h
  unfold commit at hdefinite ⊢
  rcases hopen : exec world (openDocument texts fuel request) [] with ⟨tr₀, stop | opened⟩
  · rw [exec_bind, hopen]
    rw [hopen] at hreads
    rw [hreads]
    simp [Modified]
  · exfalso
    rw [exec_bind, hopen] at hdefinite
    dsimp only at hdefinite
    rcases hrun : exec world (executeAll opened.document opened.documentId request.plan.operations) tr₀ with
      ⟨tr₁, (e | _) | results⟩
    · rw [exec_bind, exec_attempt, hrun] at hdefinite
      dsimp only at hdefinite
      rw [definite_bind] at hdefinite
      rcases hdefinite with hmark | ⟨u, -, hraise⟩
      · exact not_definite_suppress world _ hmark
      · exact Bool.noConfusion (definite_raised.mp hraise)
    · rw [exec_bind, exec_attempt, hrun] at hdefinite
      exact not_definite_endless hdefinite
    · apply h tr₁ (opened, results)
      rw [exec_bind, hopen]
      dsimp only
      rw [exec_bind, hrun]
      rfl

/-! ## The service -/

/-- The adapter of the service answers a commit as it ended. -/
def AnswersWith {α : Type} (outcome : Except Stop α) : (o : Service.HarnessOp) → o.Answer → Prop
  | .adapter (.commit _), r => ∀ e, r = .error e → outcome = .error (.raised e)
  | _, _ => True

/-- The job is written as failed, without a receipt. -/
def RecordsFailed (o : Service.HarnessOp) : Prop :=
  ∃ job leaseId now mappings, o = .store (.finalizeJob job leaseId now mappings) ∧ job.state = .failed

/-- The service records a job as failed only after a definite error of the adapter. -/
theorem applyPlan_records {α : Type} (outcome : Except Stop α) (c : Service.CommitArgs) (a : Service.Authorized)
    (job : CadJob) (lease : WriterLease) :
    Ends (AnswersWith outcome) (Service.applyPlan c a job lease) []
      (fun tr _ => (∃ e ∈ tr, RecordsFailed e.op) → Definite outcome) := by
  unfold Service.applyPlan
  apply Ends.seq (F := fun tr r => (∀ e ∈ tr, ¬ RecordsFailed e.op) ∧
    ∃ o, r = .ok o ∧ ∀ e, o = .error e → outcome = .error (.raised e))
  · rw [Service.ends_attempt]
    apply Ends.seq (F := fun tr r => (∀ e ∈ tr, ¬ RecordsFailed e.op) ∧
      ∀ e, r = .error e → outcome = .error (.raised e))
    · refine ⟨trivial, ?_⟩
      rintro r _ ⟨hanswer, rfl⟩
      exact ⟨by simp [RecordsFailed], hanswer⟩
    · rintro tr result ⟨htr, -⟩
      dsimp only
      cases result.undoGroup with
      | none => exact ⟨htr, _, rfl, by simp⟩
      | some undoGroup =>
          refine ⟨trivial, ?_⟩
          rintro r _ ⟨-, rfl⟩
          refine ⟨?_, _, rfl, by simp⟩
          intro e he
          rcases List.mem_append.mp he with he | he
          · exact htr e he
          · obtain rfl := List.mem_singleton.mp he
            simp [RecordsFailed]
    · rintro tr e ⟨htr, hanswer⟩
      refine ⟨htr, _, rfl, ?_⟩
      rintro _ ⟨⟩
      exact hanswer e rfl
  · rintro tr answer ⟨htr, _, ⟨⟩, hanswer⟩
    cases answer with
    | ok result =>
        rintro ⟨e, he, hfailed⟩
        exact absurd hfailed (htr e he)
    | error exc =>
        apply (PerformsOnly.ends (P := fun o => RecordsFailed o → exc.isUnknownCommitState = false) ?_ tr).mono
        · rintro _ r ⟨es, rfl, hes⟩ ⟨e, he, hfailed⟩
          rcases List.mem_append.mp he with he | he
          · exact absurd hfailed (htr e he)
          · exact ⟨exc, hanswer exc rfl, (hes e he).1 hfailed⟩
        · apply (Service.performsOnly_task (by simp [RecordsFailed])).bind
          intro now
          apply (Service.performsOnly_host (by simp [RecordsFailed])).bind
          intro valid
          dsimp only
          cases hjob : job.transitionTo (if exc.isUnknownCommitState || !valid then .unknownCommitState
              else .failed) with
          | error e => trivial
          | ok terminal =>
              have hstate := Service.transitionTo_terminal hjob
              apply PerformsOnly.bind (m := Service.store (.finalizeJob terminal lease.leaseId now []))
              · apply Service.performsOnly_store
                rintro ⟨_, _, _, _, ⟨⟩, hfailed⟩
                rw [hstate] at hfailed
                cases hexc : exc.isUnknownCommitState with
                | false => rfl
                | true => simp [hexc] at hfailed
              · intro released
                apply (Service.performsOnly_host (by simp [RecordsFailed])).bind
                intro u
                apply (Service.performsOnly_task (by simp [RecordsFailed])).bind
                intro u
                exact PerformsOnly.ite performsOnly_throw performsOnly_throw
  · rintro tr e ⟨-, o, ho, -⟩
    cases ho

/-! ## The outcome -/

/-- Neither the adapter nor the service denies that a plan has touched the drawing. -/
structure OutcomeSafe : Prop where
  adapter : Definite (exec world (commit texts fuel computeHash request) []).2 →
    ¬ Modified (exec world (commit texts fuel computeHash request) []).1
  service : ∀ c a job lease,
    Ends (AnswersWith (exec world (commit texts fuel computeHash request) []).2)
      (Service.applyPlan c a job lease) []
      (fun tr _ => (∃ e ∈ tr, RecordsFailed e.op) →
        ¬ Modified (exec world (commit texts fuel computeHash request) []).1)

theorem outcomeSafe_iff : OutcomeSafe texts fuel computeHash world request ↔
    (Definite (exec world (commit texts fuel computeHash request) []).2 →
      ¬ Modified (exec world (commit texts fuel computeHash request) []).1) := by
  constructor
  · exact OutcomeSafe.adapter
  · intro h
    refine ⟨h, ?_⟩
    intro c a job lease
    apply (applyPlan_records _ c a job lease).mono
    intro tr r hrecords hfailed
    exact h (hrecords hfailed)

/-- Once the operations have changed the drawing, the commit is safe just when nothing definite is raised after
them. -/
theorem commit_outcomeSafe_iff : OutcomeSafe texts fuel computeHash world request ↔
    ∀ tr opened results, exec world (drawPlan texts fuel request) [] = (tr, .ok (opened, results)) →
      Modified tr → Undisturbed texts fuel computeHash world request tr opened := by
  rw [outcomeSafe_iff]
  constructor
  · intro hsafe tr opened results hdrawn hmodified
    rw [exec_commit_drawn texts fuel computeHash world request hdrawn,
      (conclude_reads texts fuel computeHash request opened results).modified_iff] at hsafe
    rw [← conclude_definite_iff]
    intro hdefinite
    exact hsafe hdefinite hmodified
  · intro hundisturbed
    by_cases hdrawn : ∃ tr drawn, exec world (drawPlan texts fuel request) [] = (tr, .ok drawn)
    · obtain ⟨tr, ⟨opened, results⟩, hdrawn⟩ := hdrawn
      rw [exec_commit_drawn texts fuel computeHash world request hdrawn,
        (conclude_reads texts fuel computeHash request opened results).modified_iff]
      intro hdefinite hmodified
      have hu := hundisturbed tr opened results hdrawn hmodified
      exact (conclude_definite_iff texts fuel computeHash world request tr opened results).mpr hu hdefinite
    · apply commit_not_drawn
      intro tr drawn h
      exact hdrawn ⟨tr, drawn, h⟩

/-! ## A line that is denied -/

def isEndUndoMark (e : ComEvent) : Bool :=
  match e.op with
  | .endUndoMark => true
  | _ => false

/-- A drawing that no longer tells the number of its entities once an undo group has ended. -/
def unreadableAfterward : World comSig := fun tr o =>
  match o with
  | .getInteger _ _ => if tr.any isEndUndoMark then .error (.raised (.other "com_error")) else .ok 0
  | .isQuiescent | .getBool _ _ => .ok true
  | .getText _ _ => .ok ""
  | .getVariable _ => .ok 4
  | .getNumber _ _ | .query _ _ _ => .ok 10
  | .getPoint _ _ => .ok (0, 0)
  | .getNumbers _ _ => .ok []
  | .getObject _ _ => .ok .spaceObject
  | .handleToObject _ | .create _ _ _ => .ok (.entityObject 0)
  | .next _ _ => .ok none
  | .startUndoMark | .endUndoMark | .put _ _ _ | .call _ _ _ | .checkpoint => .ok ()
  | .entityMappingsFor _ => .ok []

def lineRequest : CommitRequest where
  plan := { jobId := "job_1", documentId := "doc_", expectedRevision := "sha256:", profileRef := "",
            operations := [{ operationId := "op_1", featureId := "feature_1", type := .createLine,
                             layer := "OUTLINE", geometry := [
                               ("start_mm", .arr [.num (.int 0), .num (.int 0)]),
                               ("end_mm", .arr [.num (.int 10), .num (.int 0)])] }] }
  planHash := some "sha256:"
  expectedRevision := "sha256:"

/-- A line is drawn, the revision after it cannot be read, and the commit fails. -/
theorem commit_denies_line :
    ¬ ∀ (texts : Texts) (fuel : Nat) (computeHash : Plan.OperationPlan → Except Exc String)
        (world : World comSig) (request : CommitRequest), OutcomeSafe texts fuel computeHash world request := by
  intro h
  have hdefinite : (exec unreadableAfterward (commit plainTexts 1 (fun _ => .ok "") lineRequest) []).2 =
      .error (.raised (comCallFailed "Could not compute a document revision")) := by
    rfl
  have hmodified : Modified (exec unreadableAfterward (commit plainTexts 1 (fun _ => .ok "") lineRequest) []).1 := by
    apply List.any_eq_true.mp
    rfl
  apply (h plainTexts 1 (fun _ => .ok "") unreadableAfterward lineRequest).adapter _ hmodified
  rw [hdefinite, definite_raised]
  rfl

end

end CadHarness.Com
