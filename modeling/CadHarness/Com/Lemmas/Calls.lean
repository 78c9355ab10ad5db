import CadHarness.Com.Commit

/-!
# The calls of a commit

Which calls change the drawing, which parts of a commit make none of them, and which parts pass on what a
call raises.
-/

namespace CadHarness.Com
open CadHarness.Lib CadHarness.Domain Prog

abbrev ComEvent := Performed comSig

/-- Whether a call changed the drawing. -/
def changed : ComEvent → Bool
  | ⟨o, .ok _⟩ => o.writes
  | ⟨_, .error _⟩ => false

def Modified (tr : List ComEvent) : Prop := ∃ e ∈ tr, changed e = true

/-- Whether a call raised. -/
def raisedAt : ComEvent → Bool
  | ⟨_, .error (.raised _)⟩ => true
  | _ => false

/-- Texts that are left as they are. -/
def plainTexts : Texts where
  sha256 _ := ""
  lower := id
  upper := id

variable {α β : Type} {tr : List ComEvent} {world : World comSig}

theorem modified_append {es : List ComEvent} : Modified (tr ++ es) ↔ Modified tr ∨ Modified es := by
  simp [Modified, or_and_right, exists_or]

/-! ## Runs of the operations -/

@[simp] theorem exec_com (o : ComOp) : exec world (com o) tr = (tr ++ [⟨o, world tr o⟩], world tr o) := rfl

theorem exec_com_eq_ok {o : ComOp} {tr' : List ComEvent} {a : o.Answer} :
    exec world (com o) tr = (tr', .ok a) ↔ world tr o = .ok a ∧ tr' = tr ++ [⟨o, .ok a⟩] := by
  rw [exec_com, Prod.mk.injEq]
  constructor
  · rintro ⟨rfl, h⟩
    exact ⟨h, by rw [h]⟩
  · rintro ⟨h, rfl⟩
    exact ⟨by rw [h], h⟩

@[simp] theorem exec_raise (e : Exc) : exec world (raise e : ComM α) tr = (tr, .error (.raised e)) := rfl

@[simp] theorem exec_ofExcept_ok (a : α) : exec world (ofExcept (.ok a)) tr = (tr, .ok a) := rfl

@[simp] theorem exec_ofExcept_error (e : Exc) :
    exec world (ofExcept (.error e) : ComM α) tr = (tr, .error (.raised e)) := rfl

theorem exec_attempt (m : ComM α) :
    exec world (attempt m) tr = match exec world m tr with
      | (tr, .ok a) => (tr, .ok (.ok a))
      | (tr, .error (.raised e)) => (tr, .ok (.error e))
      | (tr, .error .endless) => (tr, .error .endless) := by
  unfold exec attempt
  rw [ExceptT.run_mk, runWith_bind]
  rcases m.run.runWith world tr with ⟨tr, (_ | _) | _⟩ <;> rfl

theorem exec_attempt_eq_ok {m : ComM α} {tr' : List ComEvent} {a : α} :
    exec world (attempt m) tr = (tr', .ok (.ok a)) ↔ exec world m tr = (tr', .ok a) := by
  rw [exec_attempt]
  rcases exec world m tr with ⟨tr₁, (e | _) | b⟩ <;> simp

/-! ## Calls of one kind -/

section

variable {P : ComOp → Prop}

theorem performsOnly_com {o : ComOp} (h : P o) : PerformsOnly P (com o) := ⟨h, fun _ => trivial⟩

theorem performsOnly_raise (e : Exc) : PerformsOnly P (raise e : ComM α) := trivial

theorem performsOnly_attempt {m : ComM α} (hm : PerformsOnly P m) : PerformsOnly P (attempt m) := by
  apply performs_bind hm
  intro r
  rcases r with (e | _) | a <;> trivial

theorem performsOnly_suppress {m : ComM α} (hm : PerformsOnly P m) : PerformsOnly P (suppress m) := by
  apply (performsOnly_attempt hm).bind
  intro r
  cases r <;> exact performsOnly_pure

end

/-! ## Parts that only read -/

/-- The trace goes on with calls that read. -/
def ReadsOn (tr tr' : List ComEvent) : Prop :=
  ∃ es : List ComEvent, tr' = tr ++ es ∧ ∀ e ∈ es, e.op.writes = false

theorem ReadsOn.refl (tr : List ComEvent) : ReadsOn tr tr := ⟨[], by simp, by simp⟩

theorem ReadsOn.trans {tr₁ tr₂ tr₃ : List ComEvent} (h : ReadsOn tr₁ tr₂) (h' : ReadsOn tr₂ tr₃) :
    ReadsOn tr₁ tr₃ := by
  obtain ⟨es, rfl, hes⟩ := h
  obtain ⟨es', rfl, hes'⟩ := h'
  refine ⟨es ++ es', by simp, ?_⟩
  intro e he
  exact (List.mem_append.mp he).elim (hes e) (hes' e)

theorem ReadsOn.call {e : ComEvent} (h : e.op.writes = false) : ReadsOn tr (tr ++ [e]) := ⟨[e], rfl, by simpa using h⟩

/-- A part of a commit that leaves the drawing as it is. -/
def OnlyReads (m : ComM α) : Prop := PerformsOnly (fun o : ComOp => o.writes = false) m

namespace OnlyReads

theorem pure (a : α) : OnlyReads (pure a) := performsOnly_pure

theorem raise (e : Exc) : OnlyReads (raise e : ComM α) := performsOnly_raise e

theorem com {o : ComOp} (h : o.writes = false) : OnlyReads (com o) := performsOnly_com h

theorem bind {m : ComM α} {f : α → ComM β} (hm : OnlyReads m) (hf : ∀ a, OnlyReads (f a)) :
    OnlyReads (m >>= f) :=
  PerformsOnly.bind hm hf

theorem ite {p : Prop} [Decidable p] {m n : ComM α} (hm : OnlyReads m) (hn : OnlyReads n) :
    OnlyReads (if p then m else n) :=
  PerformsOnly.ite hm hn

theorem attempt {m : ComM α} (hm : OnlyReads m) : OnlyReads (attempt m) := performsOnly_attempt hm

theorem suppress {m : ComM α} (hm : OnlyReads m) : OnlyReads (suppress m) := performsOnly_suppress hm

theorem forEach {collection : ComObject} {body : ComObject → ComM α} (hbody : ∀ object, OnlyReads (body object))
    (fuel : Nat) (previous : Option ComObject) : OnlyReads (forEach collection body fuel previous) := by
  induction fuel generalizing previous with
  | zero => trivial
  | succ fuel ih =>
      apply (com rfl).bind
      intro next
      cases next with
      | none => exact pure []
      | some object => exact (hbody object).bind (fun a => (ih _).bind (fun rest => pure _))

/-- The run of such a part adds reading calls to the trace. -/
theorem readsOn {m : ComM α} (hm : OnlyReads m) {tr' : List ComEvent} {r : Except Stop α}
    (h : exec world m tr = (tr', r)) : ReadsOn tr tr' := by
  obtain ⟨es, hes, hreads⟩ := (PerformsOnly.ends (A := fun _ _ => True) hm tr).exec world (fun _ _ => trivial)
  rw [h] at hes
  exact ⟨es, hes, fun e he => (hreads e he).1⟩

theorem modified_iff {m : ComM α} (hm : OnlyReads m) : Modified (exec world m tr).1 ↔ Modified tr := by
  obtain ⟨es, hes, hreads⟩ := hm.readsOn (Prod.mk.eta (p := exec world m tr)).symm
  rw [hes, modified_append]
  apply or_iff_left
  rintro ⟨⟨o, r⟩, he, hchanged⟩
  have ho := hreads _ he
  cases r with
  | ok a => exact Bool.noConfusion (ho.symm.trans hchanged)
  | error s => exact Bool.noConfusion hchanged

end OnlyReads

section

variable (texts : Texts) (fuel : Nat)

theorem requireDocument_reads : OnlyReads requireDocument := by
  apply OnlyReads.bind
  · apply (OnlyReads.com rfl).suppress.bind
    intro quiescent
    cases quiescent with
    | none => exact OnlyReads.pure ()
    | some quiescent => exact (OnlyReads.raise _).ite (OnlyReads.pure ())
  · intro u
    exact OnlyReads.pure _

theorem documentId_reads (document : ComObject) : OnlyReads (documentId texts document) := by
  apply OnlyReads.bind
  · apply OnlyReads.suppress
    apply (OnlyReads.com rfl).bind
    intro fullName
    exact (OnlyReads.pure _).ite (OnlyReads.com rfl)
  · intro found
    exact OnlyReads.pure _

theorem readRevision_reads (document : ComObject) (id : String) :
    OnlyReads (readRevision texts fuel document id) := by
  apply (OnlyReads.com rfl).bind
  intro modelSpace
  apply (OnlyReads.com rfl).bind
  intro count
  apply OnlyReads.bind
  · apply OnlyReads.forEach
    intro entity
    exact OnlyReads.com rfl
  · intro handles
    exact OnlyReads.pure _

theorem computeRevision_reads (document : ComObject) (id : String) :
    OnlyReads (computeRevision texts fuel document id) := by
  apply (readRevision_reads texts fuel document id).attempt.bind
  intro outcome
  cases outcome with
  | ok revision => exact OnlyReads.pure _
  | error e => exact OnlyReads.raise _

theorem openDocument_reads (request : CommitRequest) : OnlyReads (openDocument texts fuel request) := by
  apply requireDocument_reads.bind
  intro document
  apply (documentId_reads texts document).bind
  intro id
  apply (computeRevision_reads texts fuel document id).bind
  intro previousRevision
  apply OnlyReads.ite
  · exact (OnlyReads.raise _)
  · exact (OnlyReads.com rfl).bind (fun u => OnlyReads.pure _)

theorem conclude_reads (computeHash : Plan.OperationPlan → Except Exc String) (request : CommitRequest)
    (opened : Opened) (results : List EntityResult) :
    OnlyReads (conclude texts fuel computeHash request opened results) := by
  apply (OnlyReads.com rfl).bind
  intro u
  apply OnlyReads.bind
  · cases planHashOf computeHash request with
    | ok planHash => exact OnlyReads.pure _
    | error e => exact OnlyReads.raise _
  · intro planHash
    apply (computeRevision_reads texts fuel _ _).bind
    intro newRevision
    exact OnlyReads.pure _

end

/-! ## Parts that pass on what is raised -/

/-- Just when one of its calls raises, the part raises. -/
def PassesOn (m : ComM α) : Prop :=
  ∀ tr, Ends (fun _ _ => True) m tr (fun tr' r =>
    ∃ es, tr' = tr ++ es ∧ ((∃ e, r = .error (.raised e)) ↔ ∃ e ∈ es, raisedAt e = true))

namespace PassesOn

theorem pure (a : α) : PassesOn (pure a) := fun tr => ⟨[], by simp, by simp⟩

theorem endless : PassesOn (throw .endless : ComM α) := fun tr => ⟨[], by simp, by simp⟩

theorem com (o : ComOp) : PassesOn (com o) := by
  intro tr
  refine ⟨trivial, ?_⟩
  rintro r _ ⟨-, rfl⟩
  refine ⟨_, rfl, ?_⟩
  rcases r with (e | _) | a <;> simp [raisedAt]

theorem bind {m : ComM α} {f : α → ComM β} (hm : PassesOn m) (hf : ∀ a, PassesOn (f a)) :
    PassesOn (m >>= f) := by
  intro tr
  apply (hm tr).seq
  · rintro _ a ⟨es, rfl, hes⟩
    have hquiet : ¬ ∃ e ∈ es, raisedAt e = true := by
      rw [← hes]
      simp
    apply (hf a _).mono
    rintro _ r ⟨es', rfl, hr⟩
    refine ⟨es ++ es', List.append_assoc tr es es', ?_⟩
    rw [hr]
    simp only [List.mem_append, or_and_right, exists_or]
    exact (or_iff_right hquiet).symm
  · rintro _ e ⟨es, rfl, hes⟩
    refine ⟨es, rfl, ?_⟩
    rw [← hes]
    simp

theorem forEach {collection : ComObject} {body : ComObject → ComM α} (hbody : ∀ object, PassesOn (body object))
    (fuel : Nat) (previous : Option ComObject) : PassesOn (forEach collection body fuel previous) := by
  induction fuel generalizing previous with
  | zero => exact endless
  | succ fuel ih =>
      apply (com _).bind
      intro next
      cases next with
      | none => exact pure []
      | some object => exact (hbody object).bind (fun a => (ih _).bind (fun rest => pure _))

/-- The run of such a part. -/
theorem exec {m : ComM α} (hm : PassesOn m) :
    (∃ e, (exec world m tr).2 = .error (.raised e)) ↔
      ∃ e ∈ (exec world m tr).1.drop tr.length, raisedAt e = true := by
  obtain ⟨es, htr, hes⟩ := (hm tr).exec world (fun _ _ => trivial)
  rw [hes, htr, List.drop_left]

end PassesOn

theorem readRevision_passesOn (texts : Texts) (fuel : Nat) (document : ComObject) (id : String) :
    PassesOn (readRevision texts fuel document id) := by
  apply (PassesOn.com _).bind
  intro modelSpace
  apply (PassesOn.com _).bind
  intro count
  apply PassesOn.bind
  · apply PassesOn.forEach
    intro entity
    exact PassesOn.com _
  · intro handles
    exact PassesOn.pure _

end CadHarness.Com
