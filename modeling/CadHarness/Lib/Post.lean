import Mathlib.Logic.Basic

/-!
# Postconditions of stateful methods

A method that may throw keeps the changes it made before. A postcondition therefore speaks of the value
or the exception, and of the state in both cases.
-/

namespace CadHarness.Lib

variable {ε σ α β : Type}

/-- Run from `s`, the method ends in a result and a state that `Q` accepts. -/
def Post (m : EStateM ε σ α) (s : σ) (Q : Except ε α → σ → Prop) : Prop :=
  match m s with
  | .ok a s' => Q (.ok a) s'
  | .error e s' => Q (.error e) s'

namespace Post

/-- What a method that threw did not return. -/
theorem not_ok {e : ε} {a : α} {p : Prop} (h : (Except.error e : Except ε α) = .ok a) : p := nomatch h

variable {s : σ} {Q Q' : Except ε α → σ → Prop}

@[simp] theorem pure {a : α} : Post (pure a : EStateM ε σ α) s Q ↔ Q (.ok a) s := Iff.rfl

@[simp] theorem throw {e : ε} : Post (throw e : EStateM ε σ α) s Q ↔ Q (.error e) s := Iff.rfl

@[simp] theorem get {Q : Except ε σ → σ → Prop} : Post (get : EStateM ε σ σ) s Q ↔ Q (.ok s) s := Iff.rfl

@[simp] theorem modify {f : σ → σ} {Q : Except ε Unit → σ → Prop} :
    Post (modify f : EStateM ε σ Unit) s Q ↔ Q (.ok ()) (f s) := Iff.rfl

@[simp] theorem set {t : σ} {Q : Except ε PUnit → σ → Prop} :
    Post (set t : EStateM ε σ PUnit) s Q ↔ Q (.ok ⟨⟩) t := Iff.rfl

@[simp] theorem bind {m : EStateM ε σ α} {f : α → EStateM ε σ β} {Q : Except ε β → σ → Prop} :
    Post (m >>= f) s Q ↔ Post m s (fun r s' =>
      match r with
      | .ok a => Post (f a) s' Q
      | .error e => Q (.error e) s') := by
  simp only [Post, Bind.bind, EStateM.bind]
  cases m s with
  | ok a s' => exact Iff.rfl
  | error e s' => exact Iff.rfl

@[simp] theorem map {m : EStateM ε σ α} {f : α → β} {Q : Except ε β → σ → Prop} :
    Post (f <$> m) s Q ↔ Post m s (fun r s' => Q (f <$> r) s') := by
  simp only [Post, Functor.map, EStateM.map]
  cases m s with
  | ok a s' => exact Iff.rfl
  | error e s' => exact Iff.rfl

/-- A handler goes on in the state that the exception has left. -/
@[simp] theorem tryCatch {m : EStateM ε σ α} {h : ε → EStateM ε σ α} :
    Post (tryCatch m h) s Q ↔ Post m s (fun r s' =>
      match r with
      | .ok a => Q (.ok a) s'
      | .error e => Post (h e) s' Q) := by
  have hrun : (MonadExcept.tryCatch m h : EStateM ε σ α) s = match m s with
      | .error e s' => h e s'
      | .ok a s' => .ok a s' := by
    change EStateM.tryCatch m h s = _
    delta EStateM.tryCatch
    cases m s <;> rfl
  simp only [Post, hrun]
  cases m s with
  | ok a s' => exact Iff.rfl
  | error e s' => exact Iff.rfl

@[simp] theorem ite {c : Prop} [Decidable c] {m n : EStateM ε σ α} :
    Post (if c then m else n) s Q ↔ (c → Post m s Q) ∧ (¬ c → Post n s Q) := by
  by_cases h : c <;> simp [h]

/-- A check that throws, before the rest of a method. -/
theorem guard {c : Prop} [Decidable c] {e : ε} {f : β → EStateM ε σ α} {m : EStateM ε σ α} :
    Post (if c then MonadExcept.throw e >>= f else m) s Q ↔ (c → Q (.error e) s) ∧ (¬ c → Post m s Q) := by
  rw [ite, bind]
  exact Iff.rfl

theorem mono {m : EStateM ε σ α} (h : Post m s Q) (hQ : ∀ r s', Q r s' → Q' r s') : Post m s Q' := by
  simp only [Post] at h ⊢
  cases hm : m s with
  | ok a s' => rw [hm] at h; exact hQ _ _ h
  | error e s' => rw [hm] at h; exact hQ _ _ h

/-- The rule of sequence: what follows is shown from a postcondition of the first part. -/
theorem seq {m : EStateM ε σ α} {f : α → EStateM ε σ β} {Q' : Except ε β → σ → Prop} (h : Post m s Q)
    (hok : ∀ a s', Q (.ok a) s' → Post (f a) s' Q') (herror : ∀ e s', Q (.error e) s' → Q' (.error e) s') :
    Post (m >>= f) s Q' := by
  rw [bind]
  refine h.mono fun r s' hr => ?_
  cases r with
  | ok a => exact hok a s' hr
  | error e => exact herror e s' hr

/-- The rule of sequence after a first part that always returns `a`. -/
theorem step {m : EStateM ε σ α} {f : α → EStateM ε σ β} {a : α} {R : σ → Prop} {Q' : Except ε β → σ → Prop}
    (h : Post m s (fun r s' => r = .ok a ∧ R s')) (hok : ∀ s', R s' → Post (f a) s' Q') :
    Post (m >>= f) s Q' := by
  refine h.seq ?_ fun _ _ he => not_ok he.1
  rintro b s' ⟨hb, hs⟩
  cases hb
  exact hok s' hs

/-- What holds of the result and state of a run is its postcondition. -/
theorem ok {m : EStateM ε σ α} (h : Post m s Q) {a : α} {s' : σ} (hm : m s = .ok a s') : Q (.ok a) s' := by
  simpa only [Post, hm] using h

theorem error {m : EStateM ε σ α} (h : Post m s Q) {e : ε} {s' : σ} (hm : m s = .error e s') :
    Q (.error e) s' := by
  simpa only [Post, hm] using h

end Post

/-- A run of the method from `s` ended in this result and state. -/
def Ran (m : EStateM ε σ α) (s : σ) (r : Except ε α) (s' : σ) : Prop :=
  m s = match r with
    | .ok a => .ok a s'
    | .error e => .error e s'

/-- A run that can be evaluated. -/
theorem Ran.of_decide [DecidableEq α] [DecidableEq σ] {m : EStateM ε σ α} {s s' : σ} {a : α}
    (h : (match m s with
      | .ok b t => decide (b = a ∧ t = s')
      | .error _ _ => false) = true) : Ran m s (.ok a) s' := by
  unfold Ran
  cases hm : m s with
  | ok b t =>
      rw [hm] at h
      obtain ⟨rfl, rfl⟩ := of_decide_eq_true h
      rfl
  | error e t =>
      rw [hm] at h
      cases h

theorem Post.of_ran {m : EStateM ε σ α} {s s' : σ} {Q : Except ε α → σ → Prop} {r : Except ε α}
    (h : Post m s Q) (hr : Ran m s r s') : Q r s' := by
  cases r with
  | ok a => exact h.ok hr
  | error e => exact h.error hr

/-- A method that always returns `a` from `s` has a run that does. -/
theorem Post.ran {m : EStateM ε σ α} {s : σ} {a : α} {Q : σ → Prop} (h : Post m s (fun r s' => r = .ok a ∧ Q s')) :
    ∃ s', Ran m s (.ok a) s' ∧ Q s' := by
  unfold Post at h
  cases hm : m s with
  | ok b s' =>
      rw [hm] at h
      obtain ⟨hb, hq⟩ := h
      cases hb
      exact ⟨s', hm, hq⟩
  | error e s' =>
      rw [hm] at h
      exact Post.not_ok h.1

end CadHarness.Lib
