import CadHarness.Lib.Pool
import CadHarness.Lib.Trace
import Mathlib.Data.List.Sublists

/-!
# Guards on programs that may raise

What a call may do next depends on what it has done so far. A guard speaks of the operations of one call with
their answers; a program keeps it when every operation that it comes to perform meets it. In a pool the
operations of a call are those events of the run that are its own.
-/

namespace CadHarness.Lib

namespace Prog

variable {S : Sig} {σ ε α β : Type} {R : Sem S σ} {G : σ → S.Op → Prop} {s : σ}

/-- From `s`, the program performs what the guard allows, and every result is one that `F` accepts. -/
def Keeps (R : Sem S σ) (G : σ → S.Op → Prop) (m : ExceptT ε (Prog S) α) (s : σ) (F : σ → Except ε α → Prop) : Prop :=
  m.run.Sat R G s F

namespace Keeps

variable {F F' : σ → Except ε α → Prop}

@[simp] theorem pure {a : α} : Keeps R G (pure a : ExceptT ε (Prog S) α) s F ↔ F s (.ok a) := Iff.rfl

@[simp] theorem throw {e : ε} : Keeps R G (throw e : ExceptT ε (Prog S) α) s F ↔ F s (.error e) := Iff.rfl

@[simp] theorem bind {m : ExceptT ε (Prog S) α} {f : α → ExceptT ε (Prog S) β} {F : σ → Except ε β → Prop} :
    Keeps R G (m >>= f) s F ↔ Keeps R G m s (fun s r =>
      match r with
      | .ok a => Keeps R G (f a) s F
      | .error e => F s (.error e)) := by
  have hrun : (m >>= f).run = m.run >>= fun r =>
      match r with
      | .ok a => (f a).run
      | .error e => Pure.pure (.error e) := rfl
  unfold Keeps
  rw [hrun, sat_bind]
  apply Iff.of_eq
  congr
  funext s r
  cases r <;> rfl

@[simp] theorem map {m : ExceptT ε (Prog S) α} {f : α → β} {F : σ → Except ε β → Prop} :
    Keeps R G (f <$> m) s F ↔ Keeps R G m s (fun s r => F s (r.map f)) := by
  have hmap : f <$> m = m >>= fun a => Pure.pure (f a) := rfl
  rw [hmap, bind]
  apply Iff.of_eq
  congr
  funext s r
  cases r <;> rfl

/-- A handler goes on where the exception was raised. -/
@[simp] theorem tryCatch {m : ExceptT ε (Prog S) α} {h : ε → ExceptT ε (Prog S) α} :
    Keeps R G (tryCatch m h) s F ↔ Keeps R G m s (fun s r =>
      match r with
      | .ok a => F s (.ok a)
      | .error e => Keeps R G (h e) s F) := by
  have hrun : (MonadExcept.tryCatch m h : ExceptT ε (Prog S) α).run = m.run >>= fun r =>
      match r with
      | .ok a => Pure.pure (.ok a)
      | .error e => (h e).run := rfl
  unfold Keeps
  rw [hrun, sat_bind]
  apply Iff.of_eq
  congr
  funext s r
  cases r <;> rfl

@[simp] theorem ite {c : Prop} [Decidable c] {m n : ExceptT ε (Prog S) α} :
    Keeps R G (if c then m else n) s F ↔ (c → Keeps R G m s F) ∧ (¬ c → Keeps R G n s F) := by
  by_cases h : c <;> simp [h]

theorem mono {m : ExceptT ε (Prog S) α} (h : Keeps R G m s F) (hF : ∀ s r, F s r → F' s r) : Keeps R G m s F' :=
  Sat.mono h hF

/-- The rule of sequence: what follows is shown from a postcondition of the first part. -/
theorem seq {m : ExceptT ε (Prog S) α} {f : α → ExceptT ε (Prog S) β} {F' : σ → Except ε β → Prop}
    (h : Keeps R G m s F) (hok : ∀ s a, F s (.ok a) → Keeps R G (f a) s F')
    (herror : ∀ s e, F s (.error e) → F' s (.error e)) : Keeps R G (m >>= f) s F' := by
  rw [bind]
  apply h.mono
  intro s r hr
  cases r with
  | ok a => exact hok s a hr
  | error e => exact herror s e hr

/-- The rule of handlers: a handler is shown from what holds where the exception was raised. -/
theorem handle {m : ExceptT ε (Prog S) α} {handler : ε → ExceptT ε (Prog S) α} (h : Keeps R G m s F)
    (hok : ∀ s a, F s (.ok a) → F' s (.ok a)) (herror : ∀ s e, F s (.error e) → Keeps R G (handler e) s F') :
    Keeps R G (MonadExcept.tryCatch m handler) s F' := by
  rw [tryCatch]
  apply h.mono
  intro s r hr
  cases r with
  | ok a => exact hok s a hr
  | error e => exact herror s e hr

end Keeps

/-! ## Operations that are always allowed -/

/-- The operations of a call, where the answers that are possible depend on what it has done before. -/
def Answered (A : List (Performed S) → (o : S.Op) → S.Res o → Prop) : Sem S (List (Performed S)) :=
  fun es o r es' => A es o r ∧ es' = es ++ [⟨o, r⟩]

variable {A : List (Performed S) → (o : S.Op) → S.Res o → Prop} {May : List (Performed S) → S.Op → Prop}
  {N : S.Op → Prop}

/-- `es'` goes on from `es` with operations of the kind `N` alone. -/
def Extends (N : S.Op → Prop) (es es' : List (Performed S)) : Prop := ∃ l, es' = es ++ l ∧ ∀ e ∈ l, N e.op

theorem Extends.refl (es : List (Performed S)) : Extends N es es := ⟨[], by simp, by simp⟩

theorem Extends.trans {es es' es'' : List (Performed S)} (h : Extends N es es') (h' : Extends N es' es'') :
    Extends N es es'' := by
  obtain ⟨l, rfl, hl⟩ := h
  obtain ⟨l', rfl, hl'⟩ := h'
  refine ⟨l ++ l', by simp, fun e he => ?_⟩
  rcases List.mem_append.mp he with he | he
  · exact hl e he
  · exact hl' e he

theorem Extends.sublist {es es' l : List (Performed S)} (h : Extends N es es') (hl : l.Sublist es) : l.Sublist es' := by
  obtain ⟨l', rfl, -⟩ := h
  exact hl.trans (List.sublist_append_left ..)

/-- A program whose operations are of a kind that is always allowed. -/
theorem PerformsOnly.keeps {m : ExceptT ε (Prog S) α} (h : PerformsOnly N m) (hN : ∀ es o, N o → May es o)
    (es : List (Performed S)) : Keeps (Answered A) May m es (fun es' _ => Extends N es es') := by
  unfold PerformsOnly at h
  unfold Keeps
  generalize m.run = p at h
  induction p generalizing es with
  | ret a => exact .refl es
  | op o k ih =>
      refine ⟨hN es o h.1, ?_⟩
      rintro r _ ⟨-, rfl⟩
      apply (ih r _ (h.2 r)).mono
      intro es' _ hes
      exact Extends.trans ⟨[⟨o, r⟩], rfl, by simpa using h.1⟩ hes

theorem PerformsOnly.tryCatch {m : ExceptT ε (Prog S) α} {handler : ε → ExceptT ε (Prog S) α}
    (hm : PerformsOnly N m) (h : ∀ e, PerformsOnly N (handler e)) : PerformsOnly N (tryCatch m handler) := by
  apply performs_bind hm
  intro r
  cases r with
  | ok a => trivial
  | error e => exact h e

theorem PerformsOnly.map {m : ExceptT ε (Prog S) α} (hm : PerformsOnly N m) (f : α → β) : PerformsOnly N (f <$> m) :=
  hm.bind fun _ => trivial

end Prog

/-! ## The operations of a call in a run -/

namespace Pool
open Prog

variable {S : Sig} {κ α σ ε : Type} {prog : κ → Prog S α}

/-- The operations of the call `i` with their answers. -/
def callTrace (i : Nat) (tr : List (Event S κ α ε)) : List (Performed S) :=
  tr.filterMap fun
    | .act j _ o r => if j = i then some ⟨o, r⟩ else none
    | _ => none

theorem callTrace_append (i : Nat) (tr tr' : List (Event S κ α ε)) :
    callTrace i (tr ++ tr') = callTrace i tr ++ callTrace i tr' := List.filterMap_append

theorem callTrace_prefix (i : Nat) (tr tr' : List (Event S κ α ε)) : callTrace i tr <+: callTrace i (tr ++ tr') := by
  rw [callTrace_append]
  exact List.prefix_append _ _

theorem callTrace_fresh {i : Nat} {tr : List (Event S κ α ε)} (h : ∀ e ∈ tr, e.thread? ≠ some i) :
    callTrace i tr = [] := by
  refine List.filterMap_eq_nil_iff.mpr fun e he => ?_
  cases e with
  | act j c o r =>
      have hj : j ≠ i := fun hj => h _ he (congrArg some hj)
      exact if_neg hj
  | _ => rfl

/-- The calls of a pool by what they have done so far. -/
def traceProtocol (A : κ → List (Performed S) → (o : S.Op) → S.Res o → Prop)
    (May : κ → List (Performed S) → S.Op → Prop)
    (Returns : κ → List (Performed S) → α → Prop)
    (keeps : ∀ c, (prog c).Sat (Answered (A c)) (May c) [] (Returns c)) :
    Protocol S κ α (List (Performed S)) prog where
  first _ := []
  next c := Answered (A c)
  may := May
  returns := Returns
  keeps := keeps

/-- The place of each call in progress is its part of the run. -/
def Traces (tr : List (Event S κ α ε)) (qs : Nat → Option (κ × List (Performed S))) : Prop :=
  ∀ i c es, qs i = some (c, es) → es = callTrace i tr ∧ .start i c ∈ tr

variable {tr : List (Event S κ α ε)} {qs : Nat → Option (κ × List (Performed S))} {i : Nat} {c : κ}

theorem traces_nil : Traces ([] : List (Event S κ α ε)) fun _ => none := by
  intro i c es h
  cases h

theorem Traces.start (h : Traces tr qs) (hfresh : ∀ e ∈ tr, e.thread? ≠ some i) :
    Traces (tr ++ [.start i c]) (Function.update qs i (some (c, []))) := by
  intro j d es hj
  by_cases hji : j = i
  · subst hji
    rw [Function.update_self] at hj
    cases hj
    exact ⟨by rw [callTrace_append, callTrace_fresh hfresh]; rfl, by simp⟩
  · rw [Function.update_of_ne hji] at hj
    obtain ⟨hes, hstart⟩ := h j d es hj
    exact ⟨by rw [hes, callTrace_append]; simp [callTrace], List.mem_append_left _ hstart⟩

theorem Traces.act (h : Traces tr qs) {es : List (Performed S)} (hi : qs i = some (c, es)) (o : S.Op) (r : S.Res o) :
    Traces (tr ++ [.act i c o r]) (Function.update qs i (some (c, es ++ [⟨o, r⟩]))) := by
  intro j d es' hj
  by_cases hji : j = i
  · subst hji
    rw [Function.update_self] at hj
    cases hj
    obtain ⟨rfl, hstart⟩ := h j c es hi
    exact ⟨by rw [callTrace_append]; simp [callTrace], List.mem_append_left _ hstart⟩
  · rw [Function.update_of_ne hji] at hj
    obtain ⟨hes, hstart⟩ := h j d es' hj
    refine ⟨?_, List.mem_append_left _ hstart⟩
    rw [hes, callTrace_append]
    simp [callTrace, Ne.symm hji]

theorem Traces.reply (h : Traces tr qs) (a : α) : Traces (tr ++ [.reply i c a]) (Function.update qs i none) := by
  intro j d es hj
  by_cases hji : j = i
  · subst hji
    rw [Function.update_self] at hj
    cases hj
  · rw [Function.update_of_ne hji] at hj
    obtain ⟨hes, hstart⟩ := h j d es hj
    exact ⟨by rw [hes, callTrace_append]; simp [callTrace], List.mem_append_left _ hstart⟩

theorem Traces.env (h : Traces tr qs) (e : ε) : Traces (tr ++ [.env e]) qs := by
  intro j d es hj
  obtain ⟨hes, hstart⟩ := h j d es hj
  exact ⟨by rw [hes, callTrace_append]; simp [callTrace], List.mem_append_left _ hstart⟩

/-! ## A call that runs alone -/

/-- The result of a program that has come to its end. -/
def value? : Prog S α → Option α
  | .ret a => some a
  | .op _ _ => none

theorem eq_ret {p : Prog S α} {a : α} (h : value? p = some a) : p = .ret a := by
  cases p with
  | ret b =>
      cases h
      rfl
  | op o k => cases h

/-- At most `n` operations of a program, as `exec` performs them. -/
def solo (exec : σ → (o : S.Op) → Option (S.Res o × σ)) : Nat → Prog S α → σ → List (Performed S) × Prog S α × σ
  | 0, p, s => ([], p, s)
  | _ + 1, .ret a, s => ([], .ret a, s)
  | n + 1, .op o k, s =>
      match exec s o with
      | none => ([], .op o k, s)
      | some (r, s') => (solo exec n (k r) s').map (⟨o, r⟩ :: ·) id

/-- A call runs alone where `exec` performs operations of the world. -/
theorem solo_run {W : World S κ σ ε} {init : σ → Prop} {exec : σ → (o : S.Op) → Option (S.Res o × σ)}
    (hexec : ∀ s o r s', exec s o = some (r, s') → W.alive s c → W.act s c o r s' ∧ W.alive s' c) (m : Nat)
    (thread : Nat → Option (κ × Prog S α)) (n : Nat) (p : Prog S α) {s : σ} (halive : W.alive s c) :
    (system W prog init).Run ⟨s, m, Function.update thread i (some (c, p))⟩
      ((solo exec n p s).1.map fun e => .act i c e.op e.answer)
      ⟨(solo exec n p s).2.2, m, Function.update thread i (some (c, (solo exec n p s).2.1))⟩ := by
  induction n generalizing p s with
  | zero => exact .nil
  | succ n ih =>
      cases p with
      | ret a => exact .nil
      | op o k =>
          unfold solo
          cases he : exec s o with
          | none => exact .nil
          | some x =>
              obtain ⟨r, s'⟩ := x
              obtain ⟨hact, halive'⟩ := hexec s o r s' he halive
              refine .cons ?_ (ih (k r) halive')
              have hstep := @Step.act _ _ _ _ _ W prog ⟨s, m, Function.update thread i (some (c, .op o k))⟩ i c o k r s'
                (Function.update_self ..) halive hact
              rwa [Function.update_idem] at hstep

theorem solo_alive {W : World S κ σ ε} {exec : σ → (o : S.Op) → Option (S.Res o × σ)}
    (hexec : ∀ s o r s', exec s o = some (r, s') → W.alive s c → W.act s c o r s' ∧ W.alive s' c) (n : Nat)
    (p : Prog S α) {s : σ} (halive : W.alive s c) : W.alive (solo exec n p s).2.2 c := by
  induction n generalizing p s with
  | zero => exact halive
  | succ n ih =>
      cases p with
      | ret a => exact halive
      | op o k =>
          unfold solo
          cases he : exec s o with
          | none => exact halive
          | some x => exact ih (k x.1) (hexec s o x.1 x.2 he halive).2

end Pool

end CadHarness.Lib
