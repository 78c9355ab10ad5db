import Mathlib.Data.List.Induction

/-!
# Labelled transition systems and their runs

A system is a step relation between states, labelled by what an observer sees of the step. A run is
a finite sequence of steps, read from the oldest to the newest. An invariant may speak of the labels
seen so far as well as of the state reached.
-/

namespace CadHarness.Lib

/-- A labelled transition system. -/
structure System (σ α : Type) where
  init : σ → Prop
  step : σ → α → σ → Prop

namespace System

variable {σ α β τ : Type} {S : System σ α}

/-- `S.Run s tr s'`: the steps labelled `tr` lead from `s` to `s'`. The newest label is last. -/
inductive Run (S : System σ α) (s : σ) : List α → σ → Prop
  | nil : Run S s [] s
  | snoc {tr : List α} {s' s'' : σ} {a : α} :
      Run S s tr s' → S.step s' a s'' → Run S s (tr ++ [a]) s''

theorem Run.single {s s' : σ} {a : α} (h : S.step s a s') : S.Run s [a] s' :=
  @Run.snoc _ _ S s [] s s' a .nil h

theorem Run.append {s s' s'' : σ} {tr₁ tr₂ : List α} (h₁ : S.Run s tr₁ s') (h₂ : S.Run s' tr₂ s'') :
    S.Run s (tr₁ ++ tr₂) s'' := by
  induction h₂ with
  | nil => rw [List.append_nil]; exact h₁
  | snoc _ hstep ih => rw [← List.append_assoc]; exact .snoc ih hstep

theorem Run.cons {s s' s'' : σ} {a : α} {tr : List α} (h : S.step s a s') (hr : S.Run s' tr s'') :
    S.Run s (a :: tr) s'' :=
  (Run.single h).append hr

theorem Run.inv_nil {s s' : σ} (h : S.Run s [] s') : s' = s := by
  generalize he : ([] : List α) = tr at h
  cases h with
  | nil => rfl
  | snoc _ _ => simp at he

theorem Run.inv_snoc {s s'' : σ} {tr : List α} {a : α} (h : S.Run s (tr ++ [a]) s'') :
    ∃ s', S.Run s tr s' ∧ S.step s' a s'' := by
  generalize he : tr ++ [a] = tr' at h
  cases h with
  | nil => simp at he
  | snoc hr hstep =>
      obtain ⟨rfl, hab⟩ := List.append_inj' he rfl
      cases hab
      exact ⟨_, hr, hstep⟩

/-- A run can be cut at any point. -/
theorem Run.inv_append {s s'' : σ} {tr₁ tr₂ : List α} (h : S.Run s (tr₁ ++ tr₂) s'') :
    ∃ s', S.Run s tr₁ s' ∧ S.Run s' tr₂ s'' := by
  induction tr₂ using List.reverseRecOn generalizing s'' with
  | nil => rw [List.append_nil] at h; exact ⟨s'', h, .nil⟩
  | append_singleton tr₂ a ih =>
      rw [← List.append_assoc] at h
      obtain ⟨t, hr, hstep⟩ := h.inv_snoc
      obtain ⟨s', h₁, h₂⟩ := ih hr
      exact ⟨s', h₁, .snoc h₂ hstep⟩

/-- The induction principle for runs: a property of the labels seen and the state reached holds of
every run if it holds at the start and every step keeps it. -/
theorem Run.induct {I : List α → σ → Prop} {s s' : σ} {tr : List α} (h : S.Run s tr s') (h₀ : I [] s)
    (hstep : ∀ tr t a t', S.Run s tr t → I tr t → S.step t a t' → I (tr ++ [a]) t') : I tr s' := by
  induction h with
  | nil => exact h₀
  | snoc hr hs ih => exact hstep _ _ _ _ hr ih hs

/-- A property of the state alone. -/
theorem Run.invariant {I : σ → Prop} {s s' : σ} {tr : List α} (h : S.Run s tr s') (h₀ : I s)
    (hstep : ∀ t a t', I t → S.step t a t' → I t') : I s' :=
  h.induct (I := fun _ t => I t) h₀ (fun _ t a t' _ hI hs => hstep t a t' hI hs)

/-- A property of the state that only the steps of the run itself need to keep. -/
theorem Run.invariant_of {I : σ → Prop} {G : σ → α → Prop} {s s' : σ} {tr : List α}
    (h : S.Run s tr s') (h₀ : I s)
    (hG : ∀ tr₁ a tr₂ t, tr = tr₁ ++ a :: tr₂ → S.Run s tr₁ t → G t a)
    (hstep : ∀ t a t', I t → G t a → S.step t a t' → I t') : I s' := by
  induction h with
  | nil => exact h₀
  | snoc hr hs ih =>
      refine hstep _ _ _ (ih ?_) (hG _ _ [] _ rfl hr) hs
      intro tr₁ a tr₂ t htr hrun
      exact hG tr₁ a (tr₂ ++ [_]) t (by rw [htr, List.append_assoc]; rfl) hrun

/-- The states some run of the system reaches from an initial state. -/
def Reachable (S : System σ α) (s : σ) : Prop :=
  ∃ s₀ tr, S.init s₀ ∧ S.Run s₀ tr s

theorem Reachable.invariant {I : σ → Prop} {s : σ} (h : S.Reachable s) (h₀ : ∀ s, S.init s → I s)
    (hstep : ∀ t a t', I t → S.step t a t' → I t') : I s := by
  obtain ⟨s₀, tr, hi, hr⟩ := h
  exact hr.invariant (h₀ _ hi) hstep

/-! ## Deterministic systems -/

/-- The calls of a list, made one after the other. -/
def runFun {ι ο : Type} (f : σ → ι → ο × σ) : σ → List ι → List (ι × ο) × σ
  | s, [] => ([], s)
  | s, c :: cs =>
      let (o, s') := f s c
      let (tr, s'') := runFun f s' cs
      ((c, o) :: tr, s'')

/-- The calls of a list are a run of every system in which each call may answer as the function does. -/
theorem runFun_run {ι ο : Type} {S : System σ (ι × ο)} {f : σ → ι → ο × σ}
    (hf : ∀ s c, S.step s (c, (f s c).1) (f s c).2) (s : σ) (cs : List ι) :
    S.Run s (runFun f s cs).1 (runFun f s cs).2 := by
  induction cs generalizing s with
  | nil => exact .nil
  | cons c cs ih => exact Run.cons (hf s c) (ih _)

end System

end CadHarness.Lib
