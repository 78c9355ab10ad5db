import Mathlib.Logic.Function.Basic

/-!
# Programs over effects

A program is a tree: it returns a value, or performs an operation and goes on with its result. What an
operation does is left open, so that one program is run alone, against a deterministic handler, and
among others, one operation at a time.
-/

namespace CadHarness.Lib

/-- The operations a program may perform, and what each one results in. -/
structure Sig where
  Op : Type
  Res : Op → Type

/-- A program that performs operations of `S` and returns an `α`. -/
inductive Prog (S : Sig) (α : Type) : Type where
  | ret (a : α)
  | op (o : S.Op) (k : S.Res o → Prog S α)

namespace Prog

variable {S : Sig} {α β γ σ : Type}

def bind : Prog S α → (α → Prog S β) → Prog S β
  | .ret a, f => f a
  | .op o k, f => .op o (fun r => (k r).bind f)

instance : Monad (Prog S) where
  pure := .ret
  bind := .bind

/-- The program that performs one operation and returns its result. -/
def perform (o : S.Op) : Prog S (S.Res o) := .op o .ret

@[simp] theorem pure_eq (a : α) : (pure a : Prog S α) = .ret a := rfl

@[simp] theorem ret_bind (a : α) (f : α → Prog S β) : (.ret a : Prog S α) >>= f = f a := rfl

@[simp] theorem op_bind (o : S.Op) (k : S.Res o → Prog S α) (f : α → Prog S β) :
    (.op o k : Prog S α) >>= f = .op o (fun r => k r >>= f) := rfl

@[simp] theorem perform_bind (o : S.Op) (f : S.Res o → Prog S β) : perform o >>= f = .op o f := rfl

theorem bind_ret (p : Prog S α) : p >>= (.ret : α → Prog S α) = p := by
  induction p with
  | ret a => rfl
  | op o k ih => rw [op_bind]; exact congrArg _ (funext ih)

theorem bind_assoc (p : Prog S α) (f : α → Prog S β) (g : β → Prog S γ) :
    p >>= f >>= g = p >>= fun a => f a >>= g := by
  induction p with
  | ret a => rfl
  | op o k ih => simp only [op_bind]; exact congrArg _ (funext ih)

/-! ## Operations as a relation -/

/-- How the operations act on states of type `σ`. -/
abbrev Sem (S : Sig) (σ : Type) := σ → (o : S.Op) → S.Res o → σ → Prop

/-- From `s`, every operation the program comes to perform meets the guard `G`, and every value it comes
to return meets `F`. -/
def Sat (R : Sem S σ) (G : σ → S.Op → Prop) : Prog S α → σ → (σ → α → Prop) → Prop
  | .ret a, s, F => F s a
  | .op o k, s, F => G s o ∧ ∀ r s', R s o r s' → (k r).Sat R G s' F

variable {R : Sem S σ} {G : σ → S.Op → Prop} {s : σ} {F F' : σ → α → Prop}

@[simp] theorem sat_ret {a : α} : (.ret a : Prog S α).Sat R G s F ↔ F s a := Iff.rfl

@[simp] theorem sat_op {o : S.Op} {k : S.Res o → Prog S α} :
    (.op o k : Prog S α).Sat R G s F ↔ G s o ∧ ∀ r s', R s o r s' → (k r).Sat R G s' F := Iff.rfl

theorem Sat.mono {p : Prog S α} (h : p.Sat R G s F) (hF : ∀ s a, F s a → F' s a) :
    p.Sat R G s F' := by
  induction p generalizing s with
  | ret a => exact hF _ _ h
  | op o k ih => exact ⟨h.1, fun r s' hr => ih r (h.2 r s' hr)⟩

theorem Sat.and {p : Prog S α} (h : p.Sat R G s F) (h' : p.Sat R G s F') : p.Sat R G s fun s a => F s a ∧ F' s a := by
  induction p generalizing s with
  | ret a => exact ⟨h, h'⟩
  | op o k ih => exact ⟨h.1, fun r s' hr => ih r (h.2 r s' hr) (h'.2 r s' hr)⟩

theorem sat_bind {p : Prog S α} {f : α → Prog S β} {F : σ → β → Prop} :
    (p >>= f).Sat R G s F ↔ p.Sat R G s (fun s a => (f a).Sat R G s F) := by
  induction p generalizing s with
  | ret a => exact Iff.rfl
  | op o k ih =>
      simp only [op_bind, sat_op]
      exact and_congr_right fun _ => forall_congr' fun r => forall_congr' fun s' =>
        imp_congr_right fun _ => ih r

end Prog

end CadHarness.Lib
