import Mathlib.Data.List.Forall2

/-!
# Computations that may throw

When a computation that may throw returns a result, part by part.
-/

namespace CadHarness.Lib.Fallible

variable {ε α β : Type}

@[simp] theorem ok_bind (a : α) (f : α → Except ε β) : Except.ok a >>= f = f a := rfl

@[simp] theorem bind_eq_ok {m : Except ε α} {f : α → Except ε β} {b : β} :
    m >>= f = .ok b ↔ ∃ a, m = .ok a ∧ f a = .ok b := by
  cases m with
  | ok a => simp [bind, Except.bind]
  | error e => simp [bind, Except.bind]

theorem bind_eq_error {m : Except ε α} {f : α → Except ε β} {e : ε} :
    m >>= f = .error e ↔ m = .error e ∨ ∃ a, m = .ok a ∧ f a = .error e := by
  cases m with
  | ok a => simp [bind, Except.bind]
  | error e' => simp [bind, Except.bind]

@[simp] theorem map_eq_ok {m : Except ε α} {f : α → β} {b : β} :
    f <$> m = .ok b ↔ ∃ a, m = .ok a ∧ f a = b := by
  cases m with
  | ok a => simp [Functor.map, Except.map]
  | error e => simp [Functor.map, Except.map]

@[simp] theorem pure_eq_ok {a b : α} : (pure a : Except ε α) = .ok b ↔ a = b := by
  simp [pure, Except.pure]

@[simp] theorem throw_eq_ok {e : ε} {b : α} : (throw e : Except ε α) = .ok b ↔ False := by
  simp [throw, throwThe, MonadExceptOf.throw]

@[simp] theorem ite_eq_ok {p : Prop} [Decidable p] {m n : Except ε α} {b : α} :
    (if p then m else n) = .ok b ↔ (p ∧ m = .ok b) ∨ (¬ p ∧ n = .ok b) := by
  by_cases h : p <;> simp [h]

/-- A check that throws, before the rest. -/
theorem guard_eq_ok {p : Prop} [Decidable p] {e : ε} {f : α → Except ε β} {m : Except ε β} {b : β} :
    (if p then throw e >>= f else m) = .ok b ↔ ¬ p ∧ m = .ok b := by
  simp

theorem exists_of_toBool {m : Except ε α} (h : m.toBool = true) : ∃ a, m = .ok a := by
  cases m with
  | ok a => exact ⟨a, rfl⟩
  | error e => exact absurd h (by simp [Except.toBool])

theorem mapM_eq_ok {f : α → Except ε β} {l : List α} {l' : List β} :
    l.mapM f = .ok l' ↔ List.Forall₂ (fun a b => f a = .ok b) l l' := by
  induction l generalizing l' with
  | nil => simp
  | cons a l ih =>
      rw [List.mapM_cons]
      simp only [bind_eq_ok, pure_eq_ok, ih]
      constructor
      · rintro ⟨b, hb, l'', hl, rfl⟩
        exact .cons hb hl
      · intro h
        cases h with
        | cons hb hl => exact ⟨_, hb, _, hl, rfl⟩

/-- A list fails at one of its members. -/
theorem mapM_eq_error {f : α → Except ε β} {l : List α} {e : ε} (h : l.mapM f = .error e) :
    ∃ a ∈ l, f a = .error e := by
  induction l with
  | nil => cases h
  | cons a l ih =>
      rw [List.mapM_cons, bind_eq_error] at h
      rcases h with ha | ⟨b, -, h⟩
      · exact ⟨a, List.mem_cons_self, ha⟩
      rw [bind_eq_error] at h
      rcases h with hl | ⟨bs, -, h⟩
      · obtain ⟨c, hc, hfc⟩ := ih hl
        exact ⟨c, List.mem_cons_of_mem a hc, hfc⟩
      · cases h

/-- What a member of the list was made to. -/
theorem exists_of_mem_mapM {f : α → Except ε β} {l : List α} {l' : List β} (h : l.mapM f = .ok l') {a : α}
    (ha : a ∈ l) : ∃ b ∈ l', f a = .ok b := by
  have hall := mapM_eq_ok.mp h
  clear h
  induction hall with
  | nil => cases ha
  | @cons c b _ _ hb _ ih =>
      rcases List.mem_cons.mp ha with rfl | ha
      · exact ⟨b, List.mem_cons_self, hb⟩
      · obtain ⟨b', hb', hab⟩ := ih ha
        exact ⟨b', List.mem_cons_of_mem _ hb', hab⟩

/-- A computation that throws on no element of a list. -/
theorem exists_mapM {f : α → Except ε β} {l : List α} (h : ∀ a ∈ l, ∃ b, f a = .ok b) : ∃ l', l.mapM f = .ok l' := by
  induction l with
  | nil => exact ⟨[], rfl⟩
  | cons a l ih =>
      obtain ⟨b, hb⟩ := h a List.mem_cons_self
      obtain ⟨l', hl'⟩ := ih fun c hc => h c (List.mem_cons_of_mem a hc)
      refine ⟨b :: l', ?_⟩
      rw [List.mapM_cons, hb, ok_bind, hl', ok_bind]
      rfl

/-- A computation that does not throw on a list. -/
theorem mapM_ok {f : α → Except ε β} {g : α → β} {l : List α} (h : ∀ a ∈ l, f a = .ok (g a)) :
    l.mapM f = .ok (l.map g) := by
  rw [mapM_eq_ok, List.forall₂_map_right_iff]
  exact List.forall₂_same.mpr h

/-- Where an element of the list was made from. -/
theorem mem_of_forall₂ {R : α → β → Prop} {l : List α} {l' : List β} (h : List.Forall₂ R l l') {b : β}
    (hb : b ∈ l') : ∃ a ∈ l, R a b := by
  induction h with
  | nil => cases hb
  | @cons a c _ _ hac _ ih =>
      rcases List.mem_cons.mp hb with rfl | hb
      · exact ⟨a, List.mem_cons_self, hac⟩
      · obtain ⟨a', ha', hR⟩ := ih hb
        exact ⟨a', List.mem_cons_of_mem _ ha', hR⟩

/-- What was made from each element of a list has the property that making it gives. -/
theorem forall_of_forall₂ {R : α → β → Prop} {p : β → Prop} {l : List α} {l' : List β} (h : List.Forall₂ R l l')
    (hp : ∀ a b, R a b → p b) : ∀ b ∈ l', p b := by
  intro b hb
  obtain ⟨a, -, hab⟩ := mem_of_forall₂ h hb
  exact hp a b hab

/-! ## What a computation returns -/

/-- Whatever the computation returns has the property. -/
def Gives (m : Except ε α) (p : α → Prop) : Prop := ∀ a, m = .ok a → p a

namespace Gives

variable {p : β → Prop} {q : α → Prop} {m : Except ε α} {f : α → Except ε β}

theorem bind (h : ∀ a, Gives (f a) p) : Gives (m >>= f) p := by
  intro b hb
  obtain ⟨a, -, ha⟩ := bind_eq_ok.mp hb
  exact h a b ha

theorem bind_of (hm : Gives m q) (h : ∀ a, q a → Gives (f a) p) : Gives (m >>= f) p := by
  intro b hb
  obtain ⟨a, hma, ha⟩ := bind_eq_ok.mp hb
  exact h a (hm a hma) b ha

theorem pure {b : β} (h : p b) : Gives (pure b : Except ε β) p := by
  intro b' hb
  rwa [← Except.ok.inj hb]

theorem error {e : ε} : Gives (.error e) p := by
  intro b hb
  cases hb

theorem ite {c : Prop} [Decidable c] {n n' : Except ε β} (h : Gives n p) (h' : Gives n' p) :
    Gives (if c then n else n') p := by
  split_ifs
  · exact h
  · exact h'

theorem mapM {R : α → β → Prop} {l : List α} (h : ∀ a ∈ l, Gives (f a) (R a)) : Gives (l.mapM f) (List.Forall₂ R l) := by
  intro l' hl'
  have hall := mapM_eq_ok.mp hl'
  clear hl'
  induction hall with
  | nil => exact .nil
  | cons hb _ ih =>
      exact .cons (h _ List.mem_cons_self _ hb) (ih fun a ha => h a (List.mem_cons_of_mem _ ha))

end Gives

end CadHarness.Lib.Fallible
