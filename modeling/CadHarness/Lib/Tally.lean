import CadHarness.Lib.Assoc
import CadHarness.Lib.Fallible
import Mathlib.Data.List.Sort
import Mathlib.Data.String.Basic

/-!
# Counting computations

When a computation with a state returns and what it leaves then, and counters that count a list of names.
-/

namespace CadHarness.Lib

/-! ## When a computation returns -/

/-- From the states with `pre` a computation returns just when `returns` holds, and then with `post`. -/
structure Settles {σ ε α : Type} (m : StateT σ (Except ε) α) (pre : σ → Prop) (returns : Prop) (post : α → σ → Prop) :
    Prop where
  ok : returns → ∀ s, pre s → ∃ a s', m.run s = .ok (a, s') ∧ post a s'
  error : ¬ returns → ∀ s, pre s → ∃ e, m.run s = .error e

namespace Settles
variable {σ ε α β : Type} {P : σ → Prop} {R : Prop} {Q : α → σ → Prop}

theorem pure {a : α} (h : ∀ s, P s → Q a s) : Settles (pure a : StateT σ (Except ε) α) P True Q where
  ok _ s hs := ⟨a, s, rfl, h s hs⟩
  error hfalse := absurd trivial hfalse

theorem throw (e : ε) : Settles (throw e : StateT σ (Except ε) α) P False Q where
  ok h := h.elim
  error _ _ _ := ⟨e, rfl⟩

theorem lift_bind {x : Except ε α} {f : α → StateT σ (Except ε) β} {a : α} {S : β → σ → Prop} (hx : x = .ok a)
    (h : Settles (f a) P R S) : Settles ((x : StateT σ (Except ε) α) >>= f) P R S where
  ok hreturns s hs := by
    rw [hx]
    exact h.ok hreturns s hs
  error hreturns s hs := by
    rw [hx]
    exact h.error hreturns s hs

theorem modify {f : σ → σ} {Q : σ → Prop} (h : ∀ s, P s → Q (f s)) :
    Settles (modify f : StateT σ (Except ε) PUnit) P True fun _ => Q where
  ok _ s hs := ⟨_, f s, rfl, h s hs⟩
  error hfalse := absurd trivial hfalse

theorem get_bind {f : σ → StateT σ (Except ε) α} (h : ∀ s₀, P s₀ → Settles (f s₀) (· = s₀) R Q) :
    Settles (get >>= f) P R Q where
  ok hreturns s hs := (h s hs).ok hreturns s rfl
  error hreturns s hs := (h s hs).error hreturns s rfl

theorem bind {m : StateT σ (Except ε) α} {f : α → StateT σ (Except ε) β} {R' : Prop} {S : β → σ → Prop}
    (hm : Settles m P R Q) (hf : ∀ a, Settles (f a) (Q a) R' S) :
    Settles (m >>= f) P (R ∧ R') S where
  ok h s hs := by
    obtain ⟨a, s', hrun, hpost⟩ := hm.ok h.1 s hs
    obtain ⟨b, s'', hrun', hpost'⟩ := (hf a).ok h.2 s' hpost
    exact ⟨b, s'', by rw [StateT.run_bind, hrun]; exact hrun', hpost'⟩
  error h s hs := by
    by_cases hreturns : R
    · obtain ⟨a, s', hrun, hpost⟩ := hm.ok hreturns s hs
      obtain ⟨e, hrun'⟩ := (hf a).error (fun h' => h ⟨hreturns, h'⟩) s' hpost
      exact ⟨e, by rw [StateT.run_bind, hrun]; exact hrun'⟩
    · obtain ⟨e, hrun⟩ := hm.error hreturns s hs
      exact ⟨e, by rw [StateT.run_bind, hrun]; rfl⟩

theorem mono {m : StateT σ (Except ε) α} {P' : σ → Prop} {R' : Prop} {S : α → σ → Prop}
    (hm : Settles m P R Q) (hpre : ∀ s, P' s → P s) (hreturns : R' ↔ R)
    (hpost : ∀ a s, Q a s → S a s) : Settles m P' R' S where
  ok h s hs := by
    obtain ⟨a, s', hrun, h'⟩ := hm.ok (hreturns.mp h) s (hpre s hs)
    exact ⟨a, s', hrun, hpost a s' h'⟩
  error h s hs := hm.error (fun h' => h (hreturns.mpr h')) s (hpre s hs)

/-- What holds when it R holds afterwards. -/
theorem returning {m : StateT σ (Except ε) α} (hm : Settles m P R Q) :
    Settles m P R fun a s => R ∧ Q a s where
  ok h s hs := by
    obtain ⟨a, s', hrun, hpost⟩ := hm.ok h s hs
    exact ⟨a, s', hrun, h, hpost⟩
  error := hm.error

theorem map {m : StateT σ (Except ε) α} {f : α → β} {S : β → σ → Prop} (hm : Settles m P R Q)
    (h : ∀ a s, Q a s → S (f a) s) : Settles (f <$> m) P R S := by
  rw [map_eq_pure_bind]
  exact (hm.bind fun a => Settles.pure (h a)).mono (fun _ hs => hs) (by rw [and_true])
    fun _ _ h => h

theorem mapM {f : α → StateT σ (Except ε) β} {A : α → Prop} {J : List α → σ → Prop}
    (h : ∀ done a, Settles (f a) (J done) (A a) fun _ => J (done ++ [a])) (l done : List α) :
    Settles (l.mapM f) (J done) (∀ a ∈ l, A a) fun _ => J (done ++ l) := by
  induction l generalizing done with
  | nil =>
      refine (Settles.pure (Q := fun _ => J done) fun _ hs => hs).mono (fun _ hs => hs) (by simp) fun _ s hs => ?_
      rwa [List.append_nil]
  | cons a l ih =>
      rw [List.mapM_cons]
      refine ((h done a).bind fun b => (ih (done ++ [a])).bind fun bs =>
        Settles.pure (Q := fun _ => J (done ++ [a] ++ l)) fun _ hs => hs).mono (fun _ hs => hs) (by simp)
          fun _ s hs => ?_
      rwa [List.append_assoc] at hs

theorem foldlM {f : β → α → StateT σ (Except ε) β} {A : α → Prop} {J : List α → β → σ → Prop}
    (h : ∀ done b a, Settles (f b a) (J done b) (A a) (J (done ++ [a]))) (l done : List α) (b : β) :
    Settles (l.foldlM f b) (J done b) (∀ a ∈ l, A a) (J (done ++ l)) := by
  induction l generalizing done b with
  | nil =>
      refine (Settles.pure (Q := J done) fun _ hs => hs).mono (fun _ hs => hs) (by simp) fun _ s hs => ?_
      rwa [List.append_nil]
  | cons a l ih =>
      rw [List.foldlM_cons]
      refine ((h done b a).bind fun b' => ih (done ++ [a]) b').mono (fun _ hs => hs) (by simp) fun _ s hs => ?_
      rwa [List.append_assoc] at hs

end Settles

/-! ## What a counter counts -/

namespace Counter

def addMany (c : Counter) (name : String) (n : Nat) : Counter := Assoc.set c name ((c.lookup name).getD 0 + n)

/-- `counter.update(other)` -/
def update (c other : Counter) : Counter := other.foldl (fun c e => c.addMany e.1 e.2) c

/-- Each name is counted as often as it is in a list. -/
structure Counts (c : Counter) (names : List String) : Prop where
  nodup : (c.map Prod.fst).Nodup
  pos : ∀ e ∈ c, 0 < e.2
  lookup : ∀ name, (c.lookup name).getD 0 = names.count name

variable {c other : Counter} {names names' : List String}

theorem counts_nil : Counts [] [] where
  nodup := List.nodup_nil
  pos _ h := absurd h List.not_mem_nil
  lookup _ := rfl

theorem Counts.congr (h : c.Counts names) (hcount : ∀ name, names'.count name = names.count name) :
    c.Counts names' where
  nodup := h.nodup
  pos := h.pos
  lookup name := by rw [h.lookup, hcount]

theorem Counts.addMany (h : c.Counts names) (name : String) {n : Nat} (hn : 0 < n) :
    (c.addMany name n).Counts (names ++ List.replicate n name) where
  nodup := Assoc.nodup_set h.nodup _ _
  pos e he := by
    rcases Assoc.mem_set he with rfl | he
    · exact Nat.add_pos_right _ hn
    · exact h.pos e he
  lookup other := by
    rw [Counter.addMany, Assoc.lookup_set, List.count_append, List.count_replicate]
    by_cases hother : other = name
    · rw [if_pos hother, hother, h.lookup]
      simp
    · rw [if_neg hother, h.lookup]
      simp [Ne.symm hother]

theorem Counts.add (h : c.Counts names) (name : String) : (c.add name).Counts (names ++ [name]) :=
  h.addMany name Nat.one_pos

theorem Counts.update (h : c.Counts names) (h' : other.Counts names') : (c.update other).Counts (names ++ names') := by
  have hall (rest : Counter) (hpos : ∀ e ∈ rest, 0 < e.2) (c : Counter) (names : List String) (h : c.Counts names) :
      (c.update rest).Counts (names ++ rest.flatMap fun e => List.replicate e.2 e.1) := by
    induction rest generalizing c names with
    | nil => simpa [Counter.update] using h
    | cons e rest ih =>
        have hrest := ih (fun e he => hpos e (List.mem_cons_of_mem _ he)) _ _
          (h.addMany e.1 (hpos e List.mem_cons_self))
        rw [List.append_assoc] at hrest
        exact hrest
  refine (hall other h'.pos c names h).congr fun name => ?_
  rw [List.count_append, List.count_append, ← h'.lookup]
  have hnodup := h'.nodup
  clear hall h h'
  congr 1
  induction other with
  | nil => rfl
  | cons e other ih =>
      obtain ⟨first, n⟩ := e
      rw [List.map_cons, List.nodup_cons] at hnodup
      rw [Assoc.lookup_cons, List.flatMap_cons, List.count_append, List.count_replicate, ← ih hnodup.2]
      by_cases hname : name = first
      · subst hname
        have hnone : other.lookup name = none := by
          rw [List.lookup_eq_none_iff]
          intro e he
          exact bne_iff_ne.mpr fun heq => hnodup.1 (List.mem_map.mpr ⟨e, he, heq.symm⟩)
        simp [hnone]
      · simp [hname, Ne.symm hname]

theorem Counts.mem_iff (h : c.Counts names) {e : String × Nat} : e ∈ c ↔ 0 < e.2 ∧ names.count e.1 = e.2 := by
  obtain ⟨name, n⟩ := e
  rw [← Assoc.lookup_eq_some_iff h.nodup, ← h.lookup]
  cases hlookup : c.lookup name with
  | none => simp; omega
  | some m =>
      have hpos := h.pos _ (Assoc.mem_of_lookup hlookup)
      simp only [Option.some.injEq, Option.getD_some] at hpos ⊢
      constructor
      · intro heq
        exact ⟨heq ▸ hpos, heq⟩
      · exact fun h => h.2

theorem Counts.perm (h : c.Counts names) (h' : other.Counts names) : c.Perm other := by
  rw [List.perm_ext_iff_of_nodup h.nodup.of_map h'.nodup.of_map]
  intro e
  rw [h.mem_iff, h'.mem_iff]

/-- Counters of the same names are the same in the order of the names. -/
theorem Counts.insertionSort_eq (h : c.Counts names) (h' : other.Counts names) :
    c.insertionSort (fun a b => a.1 ≤ b.1) = other.insertionSort (fun a b => a.1 ≤ b.1) := by
  have hsort (l : Counter) : (l.insertionSort fun a b => a.1 ≤ b.1).Perm l :=
    List.perm_insertionSort (fun a b : String × Nat => a.1 ≤ b.1) l
  have hsorted (l : Counter) : (l.insertionSort fun a b => a.1 ≤ b.1).Pairwise fun a b => a.1 ≤ b.1 :=
    List.pairwise_insertionSort (fun a b : String × Nat => a.1 ≤ b.1) l
  refine List.Perm.eq_of_pairwise (fun a b ha hb hab hba => ?_) (hsorted c) (hsorted other)
    (((hsort c).trans (h.perm h')).trans (hsort other).symm)
  rw [List.mem_insertionSort, h.mem_iff] at ha
  rw [List.mem_insertionSort, h'.mem_iff] at hb
  have hname : a.1 = b.1 := le_antisymm hab hba
  exact Prod.ext hname (ha.2.symm.trans ((congrArg names.count hname).trans hb.2))

end Counter

end CadHarness.Lib
