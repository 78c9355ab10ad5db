import CadHarness.Lib.Prog
import CadHarness.Lib.System

/-!
# Pools of programs

Any number of calls run at once, each by a program of its own, over one shared world. A step of the pool
is one operation of one call, the start or the reply of a call, or a step of the world by itself. A call
whose caller is not alive makes no step any more.

The proof rule splits an argument about all interleavings in two. A protocol says in which order one
call may perform its operations, whatever they result in: a fact about the program alone. An invariant
then relates the world to the place of every call in the protocol.
-/

namespace CadHarness.Lib

/-- The shared world of the calls `κ`: who is alive, what an operation of a call does, and what happens
by itself. -/
structure World (S : Sig) (κ σ ε : Type) where
  alive : σ → κ → Prop
  act : σ → κ → (o : S.Op) → S.Res o → σ → Prop
  env : σ → ε → σ → Prop

/-- The world and the calls in progress. Calls are numbered in the order in which they start. -/
structure Pool (S : Sig) (κ α σ : Type) where
  world : σ
  next : Nat
  thread : Nat → Option (κ × Prog S α)

/-- What is observed of one step of a pool. -/
inductive Event (S : Sig) (κ α ε : Type) where
  | start (i : Nat) (c : κ)
  | act (i : Nat) (c : κ) (o : S.Op) (r : S.Res o)
  | reply (i : Nat) (c : κ) (a : α)
  | env (e : ε)

namespace Event

variable {S : Sig} {κ α ε : Type}

/-- The call that makes the step. -/
def thread? : Event S κ α ε → Option Nat
  | .start i _ | .act i _ _ _ | .reply i _ _ => some i
  | .env _ => none

end Event

namespace Pool

variable {S : Sig} {κ α σ ε Q : Type}

def empty (s : σ) : Pool S κ α σ := { world := s, next := 0, thread := fun _ => none }

inductive Step (W : World S κ σ ε) (prog : κ → Prog S α) :
    Pool S κ α σ → Event S κ α ε → Pool S κ α σ → Prop
  | start {P : Pool S κ α σ} {c : κ} : W.alive P.world c →
      Step W prog P (.start P.next c)
        ⟨P.world, P.next + 1, Function.update P.thread P.next (some (c, prog c))⟩
  | act {P : Pool S κ α σ} {i : Nat} {c : κ} {o : S.Op} {k : S.Res o → Prog S α} {r : S.Res o} {s : σ} :
      P.thread i = some (c, .op o k) → W.alive P.world c → W.act P.world c o r s →
      Step W prog P (.act i c o r) ⟨s, P.next, Function.update P.thread i (some (c, k r))⟩
  | reply {P : Pool S κ α σ} {i : Nat} {c : κ} {a : α} :
      P.thread i = some (c, .ret a) → W.alive P.world c →
      Step W prog P (.reply i c a) ⟨P.world, P.next, Function.update P.thread i none⟩
  | env {P : Pool S κ α σ} {e : ε} {s : σ} : W.env P.world e s →
      Step W prog P (.env e) ⟨s, P.next, P.thread⟩

/-- All interleavings of the calls, from a pool without any. -/
def system (W : World S κ σ ε) (prog : κ → Prog S α) (init : σ → Prop) :
    System (Pool S κ α σ) (Event S κ α ε) where
  init P := ∃ s, init s ∧ P = empty s
  step := Step W prog

/-- A protocol for the calls of a pool: where a call stands in it, what it may do there, and where the
result of an operation takes it. Every program of the pool keeps to it. -/
structure Protocol (S : Sig) (κ α Q : Type) (prog : κ → Prog S α) where
  first : κ → Q
  next : κ → Prog.Sem S Q
  may : κ → Q → S.Op → Prop
  returns : κ → Q → α → Prop
  keeps : ∀ c, (prog c).Sat (next c) (may c) (first c) (returns c)

/-- An invariant of a pool, relative to a protocol: it speaks of the steps so far, the world, and where
each call stands. -/
structure Protocol.Inductive {prog : κ → Prog S α} (T : Protocol S κ α Q prog) (W : World S κ σ ε)
    (I : List (Event S κ α ε) → σ → (Nat → Option (κ × Q)) → Prop) : Prop where
  start : ∀ {tr s qs i c}, I tr s qs → qs i = none → (∀ e ∈ tr, e.thread? ≠ some i) → W.alive s c →
    I (tr ++ [.start i c]) s (Function.update qs i (some (c, T.first c)))
  act : ∀ {tr s qs i c q o r s'}, I tr s qs → qs i = some (c, q) → T.may c q o → W.alive s c →
    W.act s c o r s' →
    ∃ q', T.next c q o r q' ∧ I (tr ++ [.act i c o r]) s' (Function.update qs i (some (c, q')))
  reply : ∀ {tr s qs i c q a}, I tr s qs → qs i = some (c, q) → T.returns c q a → W.alive s c →
    I (tr ++ [.reply i c a]) s (Function.update qs i none)
  env : ∀ {tr s qs e s'}, I tr s qs → W.env s e s' → I (tr ++ [.env e]) s' qs

/-- A call in progress and its place in the protocol. -/
def Protocol.Fits {prog : κ → Prog S α} (T : Protocol S κ α Q prog) :
    Option (κ × Prog S α) → Option (κ × Q) → Prop
  | none, none => True
  | some (c, p), some (c', q) => c' = c ∧ p.Sat (T.next c) (T.may c) q (T.returns c)
  | _, _ => False

variable {prog : κ → Prog S α} {T : Protocol S κ α Q prog} {W : World S κ σ ε}

theorem Protocol.Fits.update {thread : Nat → Option (κ × Prog S α)} {qs : Nat → Option (κ × Q)}
    (h : ∀ i, T.Fits (thread i) (qs i)) {i : Nat} {t : Option (κ × Prog S α)} {q : Option (κ × Q)}
    (hi : T.Fits t q) (j : Nat) :
    T.Fits (Function.update thread i t j) (Function.update qs i q j) := by
  by_cases hj : j = i
  · subst hj; rw [Function.update_self, Function.update_self]; exact hi
  · rw [Function.update_of_ne hj, Function.update_of_ne hj]; exact h j

theorem Protocol.Fits.some {c : κ} {p : Prog S α} {x : Option (κ × Q)}
    (h : T.Fits (Option.some (c, p)) x) :
    ∃ q, x = Option.some (c, q) ∧ p.Sat (T.next c) (T.may c) q (T.returns c) := by
  rcases x with _ | ⟨c', q⟩
  · exact h.elim
  · obtain ⟨rfl, hq⟩ := h; exact ⟨q, rfl, hq⟩

theorem Protocol.Fits.none {x : Option (κ × Q)} (h : T.Fits Option.none x) : x = Option.none := by
  rcases x with _ | ⟨c, q⟩
  · rfl
  · exact h.elim

/-- What the proof rule carries along a run. -/
structure Protocol.Holds (T : Protocol S κ α Q prog)
    (I : List (Event S κ α ε) → σ → (Nat → Option (κ × Q)) → Prop)
    (tr : List (Event S κ α ε)) (P : Pool S κ α σ) (qs : Nat → Option (κ × Q)) : Prop where
  inv : I tr P.world qs
  fits : ∀ i, T.Fits (P.thread i) (qs i)
  idle : ∀ i, P.next ≤ i → P.thread i = none
  fresh : ∀ e ∈ tr, ∀ i, e.thread? = some i → i < P.next

theorem Protocol.Holds.fresh_append {I : List (Event S κ α ε) → σ → (Nat → Option (κ × Q)) → Prop}
    {tr : List (Event S κ α ε)} {P : Pool S κ α σ} {qs : Nat → Option (κ × Q)}
    (h : T.Holds I tr P qs) {e : Event S κ α ε} {n : Nat} (hn : P.next ≤ n)
    (he : ∀ i, e.thread? = some i → i < n) :
    ∀ e' ∈ tr ++ [e], ∀ i, e'.thread? = some i → i < n := by
  intro e' he' i hi
  rcases List.mem_append.mp he' with h' | h'
  · exact Nat.lt_of_lt_of_le (h.fresh e' h' i hi) hn
  · obtain rfl := List.mem_singleton.mp h'
    exact he i hi

theorem Protocol.Holds.lt_next {I : List (Event S κ α ε) → σ → (Nat → Option (κ × Q)) → Prop}
    {tr : List (Event S κ α ε)} {P : Pool S κ α σ} {qs : Nat → Option (κ × Q)}
    (h : T.Holds I tr P qs) {i : Nat} {x : κ × Prog S α} (hi : P.thread i = some x) : i < P.next := by
  by_contra hlt
  rw [h.idle i (Nat.le_of_not_lt hlt)] at hi
  cases hi

theorem Protocol.Holds.idle_update {I : List (Event S κ α ε) → σ → (Nat → Option (κ × Q)) → Prop}
    {tr : List (Event S κ α ε)} {P : Pool S κ α σ} {qs : Nat → Option (κ × Q)}
    (h : T.Holds I tr P qs) {i n : Nat} (hi : i < n) (hn : P.next ≤ n) (t : Option (κ × Prog S α))
    (j : Nat) (hj : n ≤ j) : Function.update P.thread i t j = none := by
  rw [Function.update_of_ne (by omega)]
  exact h.idle j (by omega)

theorem Protocol.Holds.step {I : List (Event S κ α ε) → σ → (Nat → Option (κ × Q)) → Prop}
    (hI : T.Inductive W I) {tr : List (Event S κ α ε)} {P P' : Pool S κ α σ}
    {qs : Nat → Option (κ × Q)} (h : T.Holds I tr P qs) {e : Event S κ α ε}
    (hs : Step W prog P e P') : ∃ qs', T.Holds I (tr ++ [e]) P' qs' := by
  cases hs with
  | @start c ha =>
      have hfits := h.fits P.next
      rw [h.idle _ (Nat.le_refl _)] at hfits
      refine ⟨_, ⟨hI.start h.inv hfits.none ?_ ha, Fits.update h.fits ⟨rfl, T.keeps c⟩,
        h.idle_update (Nat.lt_succ_self _) (Nat.le_succ _) _, ?_⟩⟩
      · intro e he hc
        exact Nat.lt_irrefl _ (h.fresh e he _ hc)
      · exact h.fresh_append (Nat.le_succ _) (by simp [Event.thread?])
  | @act i c o k r s hi ha hact =>
      have hfits := h.fits i
      rw [hi] at hfits
      obtain ⟨q, hq, hmay, hk⟩ := hfits.some
      obtain ⟨q', hnext, hinv⟩ := hI.act h.inv hq hmay ha hact
      refine ⟨_, ⟨hinv, Fits.update h.fits ⟨rfl, hk r q' hnext⟩,
        h.idle_update (h.lt_next hi) (Nat.le_refl _) _, ?_⟩⟩
      exact h.fresh_append (Nat.le_refl _) (by simpa [Event.thread?] using h.lt_next hi)
  | @reply i c a hi ha =>
      have hfits := h.fits i
      rw [hi] at hfits
      obtain ⟨q, hq, hret⟩ := hfits.some
      refine ⟨_, ⟨hI.reply h.inv hq hret ha, Fits.update h.fits trivial,
        h.idle_update (h.lt_next hi) (Nat.le_refl _) _, ?_⟩⟩
      exact h.fresh_append (Nat.le_refl _) (by simpa [Event.thread?] using h.lt_next hi)
  | @env e s he =>
      exact ⟨qs, ⟨hI.env h.inv he, h.fits, h.idle, h.fresh_append (Nat.le_refl _) (by simp [Event.thread?])⟩⟩

/-- The proof rule: an inductive invariant holds along every run, of every interleaving. -/
theorem Protocol.run {I : List (Event S κ α ε) → σ → (Nat → Option (κ × Q)) → Prop}
    (hI : T.Inductive W I) {init : σ → Prop} (h₀ : ∀ s, init s → I [] s (fun _ => none))
    {P₀ P : Pool S κ α σ} {tr : List (Event S κ α ε)} (hP : (system W prog init).init P₀)
    (h : (system W prog init).Run P₀ tr P) : ∃ qs, T.Holds I tr P qs := by
  obtain ⟨s, hs, rfl⟩ := hP
  refine h.induct (I := fun tr P => ∃ qs, T.Holds I tr P qs) ?_ ?_
  · exact ⟨fun _ => none, ⟨h₀ s hs, fun _ => trivial, fun _ _ => rfl, by simp⟩⟩
  · rintro tr P e P' _ ⟨qs, hqs⟩ hstep
    exact hqs.step hI hstep

/-! ## What a step of a pool tells -/

/-- An operation is performed where the protocol allows it. -/
theorem Protocol.Holds.act_inv {I : List (Event S κ α ε) → σ → (Nat → Option (κ × Q)) → Prop}
    {tr : List (Event S κ α ε)} {P P' : Pool S κ α σ} {qs : Nat → Option (κ × Q)}
    (h : T.Holds I tr P qs) {i : Nat} {c : κ} {o : S.Op} {r : S.Res o}
    (hs : Step W prog P (.act i c o r) P') :
    ∃ q, qs i = some (c, q) ∧ T.may c q o ∧ W.alive P.world c ∧ W.act P.world c o r P'.world := by
  cases hs with
  | act hi ha hact =>
      have hfits := h.fits i
      rw [hi] at hfits
      obtain ⟨q, hq, hmay, _⟩ := hfits.some
      exact ⟨q, hq, hmay, ha, hact⟩

theorem Step.next_le {P P' : Pool S κ α σ} {e : Event S κ α ε} (h : Step W prog P e P') :
    P.next ≤ P'.next := by
  cases h with
  | start _ => exact Nat.le_succ _
  | _ => exact Nat.le_refl _

/-- A call that starts in a run has a number that no earlier call had. -/
theorem start_fresh {init : σ → Prop} {P P' : Pool S κ α σ} {tr : List (Event S κ α ε)}
    (h : (system W prog init).Run P tr P') {i : Nat} {c : κ} (hi : Event.start i c ∈ tr) :
    P.next ≤ i := by
  have hrun := h.induct (I := fun tr P' => P.next ≤ P'.next ∧ ∀ i c, Event.start i c ∈ tr → P.next ≤ i)
    ⟨Nat.le_refl _, nofun⟩ ?_
  · exact hrun.2 i c hi
  · rintro tr t a t' _ ⟨hle, hall⟩ hs
    refine ⟨Nat.le_trans hle (Step.next_le hs), fun j d hj => ?_⟩
    rcases List.mem_append.mp hj with hj | hj
    · exact hall j d hj
    · rw [← List.mem_singleton.mp hj] at hs
      cases hs
      exact hle

end Pool

end CadHarness.Lib
