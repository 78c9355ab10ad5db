import CadHarness.Lib.Prog
import Mathlib.Data.List.Basic

/-!
# Traces of programs that may raise

A program that may raise is run against whatever answers the world gives to its operations. The trace
records every operation with its answer, the newest last.
-/

namespace CadHarness.Lib

/-- An operation and what it resulted in. -/
structure Performed (S : Sig) where
  op : S.Op
  answer : S.Res op

namespace Prog

variable {S : Sig} {ε α β : Type}

/-- The operations of a program, with the answers that `A` allows. -/
def Traced (A : (o : S.Op) → S.Res o → Prop) : Sem S (List (Performed S)) :=
  fun tr o r tr' => A o r ∧ tr' = tr ++ [⟨o, r⟩]

variable {A : (o : S.Op) → S.Res o → Prop} {tr : List (Performed S)}

/-- After `tr`, whatever is answered, the program ends in a result and a trace that `F` accepts. -/
def Ends (A : (o : S.Op) → S.Res o → Prop) (m : ExceptT ε (Prog S) α) (tr : List (Performed S))
    (F : List (Performed S) → Except ε α → Prop) : Prop :=
  Sat (Traced A) (fun _ _ => True) m.run tr F

variable {F F' : List (Performed S) → Except ε α → Prop}

@[simp] theorem ends_pure {a : α} : Ends A (pure a : ExceptT ε (Prog S) α) tr F ↔ F tr (.ok a) := Iff.rfl

@[simp] theorem ends_throw {e : ε} : Ends A (throw e : ExceptT ε (Prog S) α) tr F ↔ F tr (.error e) := Iff.rfl

@[simp] theorem ends_bind {m : ExceptT ε (Prog S) α} {f : α → ExceptT ε (Prog S) β}
    {F : List (Performed S) → Except ε β → Prop} :
    Ends A (m >>= f) tr F ↔ Ends A m tr (fun tr r =>
      match r with
      | .ok a => Ends A (f a) tr F
      | .error e => F tr (.error e)) := by
  have hrun : (m >>= f).run = m.run >>= fun r =>
      match r with
      | .ok a => (f a).run
      | .error e => pure (.error e) := rfl
  unfold Ends
  rw [hrun, sat_bind]
  apply Iff.of_eq
  congr
  funext tr r
  cases r <;> rfl

@[simp] theorem ends_map {m : ExceptT ε (Prog S) α} {f : α → β} {F : List (Performed S) → Except ε β → Prop} :
    Ends A (f <$> m) tr F ↔ Ends A m tr (fun tr r => F tr (r.map f)) := by
  have hmap : f <$> m = m >>= fun a => pure (f a) := rfl
  rw [hmap, ends_bind]
  apply Iff.of_eq
  congr
  funext tr r
  cases r <;> rfl

@[simp] theorem ends_ite {c : Prop} [Decidable c] {m n : ExceptT ε (Prog S) α} :
    Ends A (if c then m else n) tr F ↔ (c → Ends A m tr F) ∧ (¬ c → Ends A n tr F) := by
  by_cases h : c <;> simp [h]

theorem Ends.mono {m : ExceptT ε (Prog S) α} (h : Ends A m tr F) (hF : ∀ tr r, F tr r → F' tr r) :
    Ends A m tr F' :=
  Sat.mono h hF

theorem Ends.and {m : ExceptT ε (Prog S) α} (h : Ends A m tr F) (h' : Ends A m tr F') :
    Ends A m tr fun tr r => F tr r ∧ F' tr r :=
  Sat.and h h'

/-- The rule of sequence: what follows is shown from a postcondition of the first part. -/
theorem Ends.seq {m : ExceptT ε (Prog S) α} {f : α → ExceptT ε (Prog S) β}
    {F' : List (Performed S) → Except ε β → Prop} (h : Ends A m tr F)
    (hok : ∀ tr a, F tr (.ok a) → Ends A (f a) tr F') (herror : ∀ tr e, F tr (.error e) → F' tr (.error e)) :
    Ends A (m >>= f) tr F' := by
  rw [ends_bind]
  apply h.mono
  intro tr r hr
  cases r with
  | ok a => exact hok tr a hr
  | error e => exact herror tr e hr

/-! ## Runs against a world -/

/-- What a world answers to an operation, after what it has answered before. -/
abbrev World (S : Sig) := List (Performed S) → (o : S.Op) → S.Res o

variable (world : World S)

def runWith : Prog S α → List (Performed S) → List (Performed S) × α
  | .ret a, tr => (tr, a)
  | .op o k, tr => (k (world tr o)).runWith (tr ++ [⟨o, world tr o⟩])

theorem runWith_bind (p : Prog S α) (f : α → Prog S β) (tr : List (Performed S)) :
    (p >>= f).runWith world tr = (f (p.runWith world tr).2).runWith world (p.runWith world tr).1 := by
  induction p generalizing tr with
  | ret a => rfl
  | op o k ih =>
      simp only [op_bind, runWith]
      exact ih _ _

/-- The run of a program that may raise. -/
def exec (m : ExceptT ε (Prog S) α) (tr : List (Performed S)) : List (Performed S) × Except ε α :=
  m.run.runWith world tr

@[simp] theorem exec_pure (a : α) : exec world (pure a : ExceptT ε (Prog S) α) tr = (tr, .ok a) := rfl

@[simp] theorem exec_throw (e : ε) : exec world (throw e : ExceptT ε (Prog S) α) tr = (tr, .error e) := rfl

theorem exec_bind (m : ExceptT ε (Prog S) α) (f : α → ExceptT ε (Prog S) β) :
    exec world (m >>= f) tr = match exec world m tr with
      | (tr, .ok a) => exec world (f a) tr
      | (tr, .error e) => (tr, .error e) := by
  have hrun : (m >>= f).run = m.run >>= fun r =>
      match r with
      | .ok a => (f a).run
      | .error e => pure (.error e) := rfl
  unfold exec
  rw [hrun, runWith_bind]
  rcases m.run.runWith world tr with ⟨tr, _ | _⟩ <;> rfl

/-- The rest of a program is run after a part that returned. -/
theorem exec_bind_of {world : World S} {m : ExceptT ε (Prog S) α} {f : α → ExceptT ε (Prog S) β}
    {tr' : List (Performed S)} {a : α} (h : exec world m tr = (tr', .ok a)) :
    exec world (m >>= f) tr = exec world (f a) tr' := by
  rw [exec_bind, h]

theorem exec_bind_eq_ok {world : World S} {m : ExceptT ε (Prog S) α} {f : α → ExceptT ε (Prog S) β} {tr' : List (Performed S)}
    {b : β} : exec world (m >>= f) tr = (tr', .ok b) ↔
      ∃ tr₁ a, exec world m tr = (tr₁, .ok a) ∧ exec world (f a) tr₁ = (tr', .ok b) := by
  rw [exec_bind]
  rcases exec world m tr with ⟨tr₁, e | a⟩ <;> simp

theorem exec_map_eq_ok {world : World S} {m : ExceptT ε (Prog S) α} {f : α → β} {tr' : List (Performed S)} {b : β} :
    exec world (f <$> m) tr = (tr', .ok b) ↔ ∃ a, exec world m tr = (tr', .ok a) ∧ f a = b := by
  have hmap : f <$> m = m >>= fun a => pure (f a) := rfl
  rw [hmap, exec_bind]
  rcases exec world m tr with ⟨tr₁, e | a⟩ <;> simp

/-- A run goes on from the trace that it begins with, and each operation is answered after those before it. -/
theorem runWith_trace (p : Prog S α) (tr : List (Performed S)) : ∃ es, (p.runWith world tr).1 = tr ++ es ∧
    ∀ before e after, es = before ++ e :: after → e.answer = world (tr ++ before) e.op := by
  induction p generalizing tr with
  | ret a => exact ⟨[], by simp [runWith], by simp⟩
  | op o k ih =>
      obtain ⟨es, hes, hanswers⟩ := ih (world tr o) (tr ++ [⟨o, world tr o⟩])
      refine ⟨⟨o, world tr o⟩ :: es, by simp [runWith, hes], ?_⟩
      intro before e after h
      cases before with
      | nil =>
          obtain ⟨rfl, -⟩ := List.cons.inj h
          simp
      | cons e' before =>
          obtain ⟨rfl, hrest⟩ := List.cons.inj h
          simpa using hanswers before e after hrest

theorem exec_trace (m : ExceptT ε (Prog S) α) (tr : List (Performed S)) : ∃ es, (exec world m tr).1 = tr ++ es ∧
    ∀ before e after, es = before ++ e :: after → e.answer = world (tr ++ before) e.op :=
  runWith_trace world m.run tr

theorem exec_isPrefix {world : World S} {m : ExceptT ε (Prog S) α} {tr' : List (Performed S)} {r : Except ε α}
    (h : exec world m tr = (tr', r)) : tr <+: tr' := by
  obtain ⟨es, hes, -⟩ := exec_trace world m tr
  rw [h] at hes
  exact ⟨es, hes.symm⟩

/-! ## Answers that do not change -/

/-- What a program returns while every operation is answered alike at all times. -/
def answerWith (answers : (o : S.Op) → S.Res o) : Prog S α → α
  | .ret a => a
  | .op o k => (k (answers o)).answerWith answers

/-- What a program that may raise ends in while every operation is answered alike at all times. -/
def eval (answers : (o : S.Op) → S.Res o) (m : ExceptT ε (Prog S) α) : Except ε α := m.run.answerWith answers

section

variable {answers : (o : S.Op) → S.Res o}

@[simp] theorem eval_pure (a : α) : eval answers (pure a : ExceptT ε (Prog S) α) = .ok a := rfl

@[simp] theorem eval_throw (e : ε) : eval answers (throw e : ExceptT ε (Prog S) α) = .error e := rfl

theorem answerWith_bind (p : Prog S α) (f : α → Prog S β) :
    (p >>= f).answerWith answers = (f (p.answerWith answers)).answerWith answers := by
  induction p with
  | ret a => rfl
  | op o k ih =>
      simp only [op_bind, answerWith]
      exact ih _

theorem eval_bind (m : ExceptT ε (Prog S) α) (f : α → ExceptT ε (Prog S) β) :
    eval answers (m >>= f) = match eval answers m with
      | .ok a => eval answers (f a)
      | .error e => .error e := by
  have hrun : (m >>= f).run = m.run >>= fun r =>
      match r with
      | .ok a => (f a).run
      | .error e => pure (.error e) := rfl
  unfold eval
  rw [hrun, answerWith_bind]
  cases m.run.answerWith answers <;> rfl

theorem eval_bind_of {m : ExceptT ε (Prog S) α} {f : α → ExceptT ε (Prog S) β} {a : α}
    (h : eval answers m = .ok a) : eval answers (m >>= f) = eval answers (f a) := by
  rw [eval_bind, h]

theorem runWith_eq_answerWith {p : Prog S α} {es : List (Performed S)}
    (hes : (p.runWith world tr).1 = tr ++ es) (h : ∀ e ∈ es, e.answer = answers e.op) :
    (p.runWith world tr).2 = p.answerWith answers := by
  induction p generalizing tr es with
  | ret a => rfl
  | op o k ih =>
      obtain ⟨rest, hrest, -⟩ := runWith_trace world (k (world tr o)) (tr ++ [⟨o, world tr o⟩])
      have hcons : es = ⟨o, world tr o⟩ :: rest := by
        have heq : tr ++ es = tr ++ (⟨o, world tr o⟩ :: rest) := by
          rw [← hes]
          simp [runWith, hrest]
        exact List.append_cancel_left heq
      subst hcons
      have hanswer : world tr o = answers o := h _ List.mem_cons_self
      simp only [runWith, answerWith, ← hanswer]
      exact ih _ hrest (fun e he => h e (List.mem_cons_of_mem _ he))

/-- A run whose operations were answered so ends so. -/
theorem exec_eq_eval {m : ExceptT ε (Prog S) α} {es : List (Performed S)}
    (hes : (exec world m tr).1 = tr ++ es) (h : ∀ e ∈ es, e.answer = answers e.op) :
    (exec world m tr).2 = eval answers m :=
  runWith_eq_answerWith world hes h

end

theorem Sat.runWith {p : Prog S α} {F : List (Performed S) → α → Prop}
    (h : p.Sat (Traced A) (fun _ _ => True) tr F) (hA : ∀ tr o, A o (world tr o)) :
    F (p.runWith world tr).1 (p.runWith world tr).2 := by
  induction p generalizing tr with
  | ret a => exact h
  | op o k ih => exact ih _ (h.2 _ _ ⟨hA tr o, rfl⟩)

/-- What is shown of every run holds of the run against a world. -/
theorem Ends.exec {m : ExceptT ε (Prog S) α} (h : Ends A m tr F) (hA : ∀ tr o, A o (world tr o)) :
    F (Prog.exec world m tr).1 (Prog.exec world m tr).2 :=
  Sat.runWith world h hA

/-! ## Operations of one kind -/

/-- Every operation that the program may come to perform is of the kind `P`. -/
def Performs (P : S.Op → Prop) : Prog S α → Prop
  | .ret _ => True
  | .op o k => P o ∧ ∀ r, (k r).Performs P

variable {P : S.Op → Prop}

theorem performs_bind {p : Prog S α} {f : α → Prog S β} (hp : p.Performs P) (hf : ∀ a, (f a).Performs P) :
    (p >>= f).Performs P := by
  induction p with
  | ret a => exact hf a
  | op o k ih => exact ⟨hp.1, fun r => ih r (hp.2 r)⟩

/-- What such a program adds to the trace. -/
theorem Performs.sat {p : Prog S α} (h : p.Performs P) (tr : List (Performed S)) :
    p.Sat (Traced A) (fun _ _ => True) tr
      (fun tr' _ => ∃ es, tr' = tr ++ es ∧ ∀ e ∈ es, P e.op ∧ A e.op e.answer) := by
  induction p generalizing tr with
  | ret a => exact ⟨[], by simp, by simp⟩
  | op o k ih =>
      refine ⟨trivial, ?_⟩
      rintro r _ ⟨hA, rfl⟩
      apply (ih r (h.2 r) _).mono
      rintro tr' _ ⟨es, rfl, hes⟩
      refine ⟨⟨o, r⟩ :: es, by simp, ?_⟩
      intro e he
      rcases List.mem_cons.mp he with rfl | he
      · exact ⟨h.1, hA⟩
      · exact hes e he

/-- A raising program whose operations are of one kind. -/
def PerformsOnly (P : S.Op → Prop) (m : ExceptT ε (Prog S) α) : Prop := m.run.Performs P

theorem PerformsOnly.mono {Q : S.Op → Prop} {m : ExceptT ε (Prog S) α} (h : PerformsOnly P m)
    (hPQ : ∀ o, P o → Q o) : PerformsOnly Q m := by
  unfold PerformsOnly at h ⊢
  generalize m.run = p at h
  induction p with
  | ret a => trivial
  | op o k ih => exact ⟨hPQ o h.1, fun r => ih r (h.2 r)⟩

theorem performsOnly_pure {a : α} : PerformsOnly P (pure a : ExceptT ε (Prog S) α) := trivial

theorem performsOnly_throw {e : ε} : PerformsOnly P (throw e : ExceptT ε (Prog S) α) := trivial

theorem PerformsOnly.bind {m : ExceptT ε (Prog S) α} {f : α → ExceptT ε (Prog S) β} (hm : PerformsOnly P m)
    (hf : ∀ a, PerformsOnly P (f a)) : PerformsOnly P (m >>= f) := by
  apply performs_bind hm
  intro r
  cases r with
  | ok a => exact hf a
  | error e => trivial

theorem PerformsOnly.ite {c : Prop} [Decidable c] {m n : ExceptT ε (Prog S) α} (hm : PerformsOnly P m)
    (hn : PerformsOnly P n) : PerformsOnly P (if c then m else n) := by
  split
  · exact hm
  · exact hn

theorem PerformsOnly.ends {m : ExceptT ε (Prog S) α} (h : PerformsOnly P m) (tr : List (Performed S)) :
    Ends A m tr (fun tr' _ => ∃ es, tr' = tr ++ es ∧ ∀ e ∈ es, P e.op ∧ A e.op e.answer) :=
  h.sat tr

/-- The calls that such a program made, and what they were answered. -/
theorem PerformsOnly.exec_trace {m : ExceptT ε (Prog S) α} (h : PerformsOnly P m) (world : World S)
    (tr : List (Performed S)) : ∃ es, (exec world m tr).1 = tr ++ es ∧
      ∀ before e after, es = before ++ e :: after → P e.op ∧ e.answer = world (tr ++ before) e.op := by
  obtain ⟨es, hes, hanswers⟩ := Prog.exec_trace world m tr
  obtain ⟨es', hes', hkind⟩ := (h.ends (A := fun _ _ => True) tr).exec world (fun _ _ => trivial)
  obtain rfl : es = es' := List.append_cancel_left (hes.symm.trans hes')
  refine ⟨es, hes, ?_⟩
  intro before e after heq
  exact ⟨(hkind e (by rw [heq]; simp)).1, hanswers before e after heq⟩

end Prog

end CadHarness.Lib
