import CadHarness.Ipc.Framing
import CadHarness.Ipc.NamedPipeTransport

/-!
# Handles of the bridge pipe

Every handle of a request is closed once, and after a passed deadline only when its operations were cancelled. What is
no `Exception` and is raised in cancelling the request's own handle has that handle closed twice.
-/

namespace CadHarness.Ipc
open CadHarness.Lib CadHarness.Domain

abbrev PipeEvent := Performed PipeSig

namespace PipeOp

/-- The handle that an operation is about. -/
def handle? : PipeOp → Option PipeHandle
  | .connect h _ _ | .serverProcessId h | .write h _ _ | .readExact h _ _ | .cancelPending h
  | .waitPendingTerminal h _ | .close h => some h
  | .clock | .requestId | .uuid4 | .sleep _ => none

/-- An operation between a `connect` and what ends the connection. -/
def Talks : PipeOp → Prop
  | .serverProcessId _ | .write _ _ _ | .readExact _ _ _ => True
  | _ => False

def isWrite (h : PipeHandle) : PipeOp → Bool
  | .write h' _ _ => h' = h
  | _ => false

def isAttempt : PipeOp → Bool
  | .connect (.attempt _) _ _ => true
  | _ => false

end PipeOp

namespace PipeEvent

def opens (h : PipeHandle) : PipeEvent → Bool
  | ⟨.connect h' _ _, .ok _⟩ => h' = h
  | _ => false

def closes (h : PipeHandle) (e : PipeEvent) : Bool := e.op = .close h

/-- The deadline is seen to have passed. -/
def Late (deadline : ℚ) : PipeEvent → Prop
  | ⟨.clock, reading⟩ => deadline < reading
  | ⟨.serverProcessId _, answer⟩ => answer = some (.error .deadline)
  | ⟨.write _ _ _, answer⟩ => answer = .error .deadline
  | ⟨.readExact _ _ _, answer⟩ => answer = .error .deadline
  | _ => False

end PipeEvent

section
variable {ε α β δ : Type} {tr : List PipeEvent} {h : PipeHandle} {deadline : ℚ}

/-! ## Runs -/

section
variable {F : List PipeEvent → Except Raised α → Prop} {F' : List PipeEvent → Except ε (Except δ α) → Prop}

@[simp] theorem ends_callPipe {o : PipeOp} {read : PipeSig.Res o → Except Raised α} :
    Prog.Ends (fun _ _ => True) (callPipe o read) tr F ↔ ∀ answer, F (tr ++ [⟨o, answer⟩]) (read answer) := by
  simp [Prog.Ends, callPipe, Prog.Traced, ExceptT.run_mk]

@[simp] theorem ends_caught {m : ExceptT δ (Prog PipeSig) α} :
    Prog.Ends (fun _ _ => True) (caught m : ExceptT ε (Prog PipeSig) _) tr F' ↔
      Prog.Ends (fun _ _ => True) m tr fun tr' r => F' tr' (.ok r) := by
  simp only [Prog.Ends, caught, ExceptT.run_mk, Prog.sat_bind]
  rfl

@[simp] theorem ends_lift {e : Except ε α} {F : List PipeEvent → Except ε α → Prop} :
    Prog.Ends (fun _ _ => True) (liftM e : ExceptT ε (Prog PipeSig) α) tr F ↔ F tr e := Iff.rfl

theorem ends_mapError {m : PipeM α} {f : Raised → ε} {F : List PipeEvent → Except ε α → Prop} :
    Prog.Ends (fun _ _ => True) (ExceptT.mk (m.run >>= fun r => pure (r.mapError f))) tr F ↔
      Prog.Ends (fun _ _ => True) m tr fun tr' r => F tr' (r.mapError f) := by
  simp only [Prog.Ends, ExceptT.run_mk, Prog.sat_bind]
  rfl

end

/-! ## One connection -/

/-- What happens between a `connect` and what ends the connection. The deadline is seen to pass only if it passed. -/
structure Talk (h : PipeHandle) (deadline : ℚ) (k : Nat) (passed : Prop) (es : List PipeEvent) : Prop where
  own : ∀ e ∈ es, e.op = .clock ∨ e.op.Talks ∧ e.op.handle? = some h
  written : es.countP (·.op.isWrite h) ≤ k
  calm : ¬ passed → ∀ e ∈ es, ¬ e.Late deadline

/-- A part of a connection. -/
def TalksFor (isDeadline : ε → Prop) (h : PipeHandle) (deadline : ℚ) (k : Nat)
    (m : ExceptT ε (Prog PipeSig) α) : Prop :=
  ∀ tr, Prog.Ends (fun _ _ => True) m tr fun tr' r =>
    ∃ es, tr' = tr ++ es ∧ Talk h deadline k (∃ e, r = .error e ∧ isDeadline e) es

variable {isDeadline : ε → Prop} {k l : Nat}

theorem Talk.nil {passed : Prop} : Talk h deadline k passed [] :=
  ⟨fun _ he => (List.not_mem_nil he).elim, Nat.zero_le _, fun _ _ he => (List.not_mem_nil he).elim⟩

theorem Talk.append {passed passed' : Prop} {es es' : List PipeEvent} (hes : Talk h deadline k passed es)
    (hes' : Talk h deadline l passed' es') (hpassed : passed → passed') :
    Talk h deadline (k + l) passed' (es ++ es') where
  own e he := (List.mem_append.mp he).elim (hes.own e) (hes'.own e)
  written := by
    rw [List.countP_append]
    exact Nat.add_le_add hes.written hes'.written
  calm hcalm e he := (List.mem_append.mp he).elim (hes.calm (fun hp => hcalm (hpassed hp)) e) (hes'.calm hcalm e)

theorem Talk.mono {passed passed' : Prop} {es : List PipeEvent} (hes : Talk h deadline k passed es)
    (hpassed : passed → passed') (hk : k ≤ l) : Talk h deadline l passed' es :=
  ⟨hes.own, hes.written.trans hk, fun hcalm => hes.calm fun hp => hcalm (hpassed hp)⟩

theorem TalksFor.bind {m : ExceptT ε (Prog PipeSig) α} {f : α → ExceptT ε (Prog PipeSig) β}
    (hm : TalksFor isDeadline h deadline k m) (hf : ∀ a, TalksFor isDeadline h deadline l (f a)) :
    TalksFor isDeadline h deadline (k + l) (m >>= f) := by
  intro tr
  apply (hm tr).seq
  · rintro _ a ⟨es, rfl, hes⟩
    apply (hf a _).mono
    rintro _ r ⟨es', rfl, hes'⟩
    refine ⟨es ++ es', List.append_assoc _ _ _, hes.append hes' ?_⟩
    rintro ⟨e, he, -⟩
    cases he
  · rintro _ e ⟨es, rfl, hes⟩
    refine ⟨es, rfl, hes.mono ?_ (Nat.le_add_right _ _)⟩
    rintro ⟨e', he, hdeadline⟩
    cases he
    exact ⟨e, rfl, hdeadline⟩

theorem TalksFor.lift (e : Except ε α) :
    TalksFor isDeadline h deadline 0 (liftM e : ExceptT ε (Prog PipeSig) α) :=
  fun tr => ⟨[], (List.append_nil tr).symm, .nil⟩

theorem TalksFor.ite {c : Prop} [Decidable c] {m n : ExceptT ε (Prog PipeSig) α}
    (hm : TalksFor isDeadline h deadline k m) (hn : TalksFor isDeadline h deadline k n) :
    TalksFor isDeadline h deadline k (if c then m else n) := by
  split
  · exact hm
  · exact hn

/-- An operation on the handle whose only sign of a passed deadline is that it raises so. -/
theorem TalksFor.call {o : PipeOp} {read : PipeSig.Res o → Except Raised α} (htalks : o.Talks)
    (hhandle : o.handle? = some h) (hk : (if o.isWrite h then 1 else 0) ≤ k)
    (hlate : ∀ answer, PipeEvent.Late deadline ⟨o, answer⟩ → read answer = .error .deadline) :
    TalksFor (· = .deadline) h deadline k (callPipe o read) := by
  intro tr
  rw [ends_callPipe]
  intro answer
  refine ⟨[⟨o, answer⟩], rfl, ?_, ?_, ?_⟩
  · intro e he
    rw [List.mem_singleton.mp he]
    exact .inr ⟨htalks, hhandle⟩
  · simpa [List.countP_cons] using hk
  · intro hcalm e he hevent
    rw [List.mem_singleton.mp he] at hevent
    exact hcalm ⟨_, hlate answer hevent, rfl⟩

theorem TalksFor.checkDeadline (h : PipeHandle) (deadline : ℚ) :
    TalksFor (· = .deadline) h deadline 0 (NamedPipeTransport.checkDeadline deadline) := by
  intro tr
  unfold NamedPipeTransport.checkDeadline clock
  rw [Prog.ends_bind, ends_callPipe]
  intro reading
  simp only [Prog.ends_ite]
  have hown (e : PipeEvent) (he : e ∈ [(⟨.clock, reading⟩ : PipeEvent)]) : e.op = .clock := by
    rw [List.mem_singleton.mp he]
  constructor
  · intro _
    exact ⟨_, rfl, fun e he => .inl (hown e he), Nat.le_refl _, fun hcalm => absurd ⟨_, rfl, rfl⟩ hcalm⟩
  · intro hreading
    refine ⟨_, rfl, fun e he => .inl (hown e he), Nat.le_refl _, fun _ e he => ?_⟩
    rw [List.mem_singleton.mp he]
    exact hreading

theorem TalksFor.mono {m : ExceptT ε (Prog PipeSig) α} (hm : TalksFor isDeadline h deadline k m)
    (hk : k ≤ l) : TalksFor isDeadline h deadline l m := by
  intro tr
  apply (hm tr).mono
  rintro _ r ⟨es, rfl, hes⟩
  exact ⟨es, rfl, hes.mono (fun hp => hp) hk⟩

theorem TalksFor.read (h : PipeHandle) (size : Nat) (deadline : ℚ) :
    TalksFor (· = .deadline) h deadline 0 (callPipe (.readExact h size deadline) id) :=
  .call trivial rfl (Nat.le_refl _) fun _ hlate => hlate

theorem TalksFor.write (h : PipeHandle) (data : List UInt8) (deadline : ℚ) :
    TalksFor (· = .deadline) h deadline 1 (callPipe (.write h data deadline) id) :=
  .call trivial rfl (by split <;> omega) fun _ hlate => hlate

variable (t : NamedPipeTransport)

theorem TalksFor.readResponse (h : PipeHandle) (deadline : ℚ) :
    TalksFor (· = .deadline) h deadline 0 (t.readResponse h deadline) := by
  unfold NamedPipeTransport.readResponse
  refine (TalksFor.read h 4 deadline).bind (l := 0) fun framePrefix => ?_
  refine (TalksFor.lift _).bind (l := 0) fun bodyLength => ?_
  have hbody : TalksFor (· = .deadline) h deadline 0 (callPipe (.readExact h bodyLength deadline) id >>= fun body =>
      (liftM (t.decodeFrame (framePrefix ++ body)) : PipeM PipeResponse)) :=
    (TalksFor.read h bodyLength deadline).bind (l := 0) fun body => .lift _
  exact .ite ((TalksFor.lift (throw .valueError)).bind (l := 0) fun _ => hbody) hbody

theorem TalksFor.cancelExchange (h : PipeHandle) (cancelRequestId target : String) (deadline : ℚ) :
    TalksFor (· = .deadline) h deadline 1 (t.cancelExchange h cancelRequestId target deadline) := by
  unfold NamedPipeTransport.cancelExchange
  refine (TalksFor.lift _).bind (k := 0) (l := 1) fun frame => ?_
  refine (TalksFor.write h frame deadline).bind (l := 0) fun _ => ?_
  refine (TalksFor.readResponse t h deadline).bind (l := 0) fun response => ?_
  refine (TalksFor.checkDeadline h deadline).bind (l := 0) fun _ => ?_
  exact (TalksFor.lift _).bind (l := 0) fun _ => .lift (pure _)

theorem TalksFor.atStage {m : PipeM α} (hm : TalksFor (· = .deadline) h deadline k m)
    (stage : NamedPipeTransport.TransportStage) :
    TalksFor (fun e => e.2 = .deadline) h deadline k (NamedPipeTransport.atStage stage m) := by
  intro tr
  rw [NamedPipeTransport.atStage, ends_mapError]
  apply (hm tr).mono
  rintro _ r ⟨es, rfl, hes⟩
  refine ⟨es, rfl, hes.mono ?_ (Nat.le_refl _)⟩
  rintro ⟨e, rfl, he⟩
  exact ⟨(stage, e), rfl, he⟩

theorem TalksFor.exchange (requestFrame : List UInt8) (requestId : String) (deadline : ℚ) :
    TalksFor (fun e => e.2 = .deadline) .primary deadline 1 (t.exchange requestFrame requestId deadline) := by
  have hserver : TalksFor (· = .deadline) .primary deadline 0 (NamedPipeTransport.readServerProcessId .primary) := by
    refine .call trivial rfl (Nat.le_refl _) fun answer hlate => ?_
    obtain rfl : answer = some (.error .deadline) := hlate
    rfl
  unfold NamedPipeTransport.exchange
  refine TalksFor.bind (k := 0) (l := 1) (TalksFor.atStage ?_ _) fun _ => ?_
  · exact hserver.bind (l := 0) fun _ => .checkDeadline _ deadline
  refine TalksFor.bind (k := 1) (l := 0) (TalksFor.atStage ?_ _) fun _ => TalksFor.atStage ?_ _
  · exact (TalksFor.write _ requestFrame deadline).bind (l := 0) fun _ => .checkDeadline _ deadline
  · refine (TalksFor.readResponse t _ deadline).bind (l := 0) fun response => ?_
    refine (TalksFor.checkDeadline _ deadline).bind (l := 0) fun _ => ?_
    exact (TalksFor.lift _).bind (l := 0) fun _ => .lift (pure _)

end

/-! ## The life of a handle -/

/-- The events of `_cancel_wait_close`, and what comes of it. -/
inductive WaitClose (h : PipeHandle) (deadline : ℚ) : List PipeEvent → Except Raised Unit → Prop
  | cancelFails (e : Raised) (a : Except Raised Unit) :
      WaitClose h deadline [⟨.cancelPending h, .error e⟩, ⟨.close h, a⟩] (a >>= fun _ => .error e)
  | waits (y a : Except Raised Unit) :
      WaitClose h deadline [⟨.cancelPending h, .ok ()⟩, ⟨.waitPendingTerminal h deadline, y⟩, ⟨.close h, a⟩]
        (a >>= fun _ => y)

/-- The events of a connection that was refused, closed, or cancelled and closed. -/
inductive Life (h : PipeHandle) : List PipeEvent → Prop
  | refused (name : String) (deadline : ℚ) (e : Raised) : Life h [⟨.connect h name deadline, .error e⟩]
  | closed (name : String) {deadline : ℚ} {es : List PipeEvent} (hes : Talk h deadline 1 False es)
      (a : Except Raised Unit) : Life h (⟨.connect h name deadline, .ok ()⟩ :: es ++ [⟨.close h, a⟩])
  | cancelled (name : String) {deadline grace : ℚ} {es cs : List PipeEvent} {r : Except Raised Unit}
      (hes : Talk h deadline 1 True es) (hcs : WaitClose h grace cs r) :
      Life h (⟨.connect h name deadline, .ok ()⟩ :: es ++ cs)

/-- The deadline of a handle was seen to pass. -/
def DeadlinePassed (h : PipeHandle) (tr : List PipeEvent) : Prop :=
  ∃ before name deadline after e, tr = before ++ ⟨.connect h name deadline, .ok ()⟩ :: after ∧ e ∈ after ∧
    (e.op = .clock ∨ e.op.handle? = some h) ∧ e.Late deadline

/-- A handle is opened once at most, closed when it was opened, and cancelled before if its deadline passed. -/
structure Handled (h : PipeHandle) (tr : List PipeEvent) : Prop where
  opened : tr.countP (·.opens h) ≤ 1
  closed : tr.countP (·.closes h) = tr.countP (·.opens h)
  written : tr.countP (·.op.isWrite h) ≤ 1
  cancelled : ∀ before e after, tr = before ++ e :: after → e.op = .close h → DeadlinePassed h before →
    ∃ e ∈ before, e.op = .cancelPending h

/-- No event is about the handle. -/
def Off (h : PipeHandle) (es : List PipeEvent) : Prop := ∀ e ∈ es, e.op.handle? ≠ some h

section
variable {h h' : PipeHandle} {deadline : ℚ} {es es' cs tr : List PipeEvent} {r : Except Raised Unit} {e : PipeEvent}

theorem opens_of_ne (he : e.op.handle? ≠ some h) : e.opens h = false := by
  rcases e with ⟨o, answer⟩
  cases o <;> first | rfl | skip
  next h' name deadline =>
    rcases answer with e | u
    · rfl
    · exact decide_eq_false fun heq => he (congrArg some heq)

theorem closes_of_ne (he : e.op.handle? ≠ some h) : e.closes h = false :=
  decide_eq_false fun heq => he (by rw [heq]; rfl)

theorem isWrite_of_ne {o : PipeOp} (ho : o.handle? ≠ some h) : o.isWrite h = false := by
  cases o <;> first | rfl | exact decide_eq_false fun heq => ho (congrArg some heq)

theorem Off.countP_eq (hes : Off h es) : es.countP (·.opens h) = 0 ∧ es.countP (·.closes h) = 0 ∧
    es.countP (·.op.isWrite h) = 0 := by
  simp only [List.countP_eq_zero, Bool.not_eq_true]
  exact ⟨fun e he => opens_of_ne (hes e he), fun e he => closes_of_ne (hes e he), fun e he => isWrite_of_ne (hes e he)⟩

theorem Off.append (hes : Off h es) (hes' : Off h es') : Off h (es ++ es') :=
  fun e he => (List.mem_append.mp he).elim (hes e) (hes' e)

/-- Where an event can only be in the second part. -/
theorem split_right {p : PipeEvent → Prop} (hes : ∀ e ∈ es, ¬ p e) {before after : List PipeEvent} (he : p e)
    (heq : es ++ es' = before ++ e :: after) : ∃ more, before = es ++ more ∧ es' = more ++ e :: after := by
  rcases List.append_eq_append_iff.mp heq with ⟨more, rfl, hmore⟩ | ⟨more, rfl, hmore⟩
  · exact ⟨more, rfl, hmore⟩
  · cases more with
    | nil => exact ⟨[], by simp, hmore.symm⟩
    | cons e' more =>
        obtain ⟨rfl, -⟩ := List.cons.inj hmore
        exact absurd he (hes _ (List.mem_append_right _ List.mem_cons_self))

theorem Off.deadlinePassed_append (hes : Off h es) : DeadlinePassed h (es ++ es') → DeadlinePassed h es' := by
  rintro ⟨before, name, deadline, after, e, heq, he⟩
  obtain ⟨more, rfl, rfl⟩ := split_right (p := fun e => e.op.handle? = some h) hes rfl heq
  exact ⟨more, name, deadline, after, e, rfl, he⟩

/-- Events about other handles do not matter. -/
theorem Handled.off_append (h : Handled h' es') (hes : Off h' es) : Handled h' (es ++ es') := by
  obtain ⟨hopens, hcloses, hwrites⟩ := hes.countP_eq
  constructor
  · rw [List.countP_append, hopens, zero_add]
    exact h.opened
  · rw [List.countP_append, List.countP_append, hopens, hcloses, zero_add, zero_add]
    exact h.closed
  · rw [List.countP_append, hwrites, zero_add]
    exact h.written
  · intro before e after heq he hpassed
    obtain ⟨more, rfl, rfl⟩ := split_right (p := fun e => e.op.handle? = some h') hes (by rw [he]; rfl) heq
    obtain ⟨c, hc, hcancel⟩ := h.cancelled more e after rfl he (hes.deadlinePassed_append hpassed)
    exact ⟨c, List.mem_append_right _ hc, hcancel⟩

theorem Handled.append_off (h : Handled h' es) (hes' : Off h' es') : Handled h' (es ++ es') := by
  obtain ⟨hopens, hcloses, hwrites⟩ := hes'.countP_eq
  constructor
  · rw [List.countP_append, hopens, add_zero]
    exact h.opened
  · rw [List.countP_append, List.countP_append, hopens, hcloses, add_zero, add_zero]
    exact h.closed
  · rw [List.countP_append, hwrites, add_zero]
    exact h.written
  · intro before e after heq he hpassed
    rcases List.append_eq_append_iff.mp heq with ⟨more, rfl, rfl⟩ | ⟨more, rfl, hmore⟩
    · exact absurd (by rw [he]; rfl) (hes' e (List.mem_append_right _ List.mem_cons_self))
    · cases more with
      | nil =>
          have hmem : e ∈ es' := by
            rw [List.nil_append] at hmore
            rw [← hmore]
            exact List.mem_cons_self
          exact absurd (by rw [he]; rfl) (hes' e hmem)
      | cons e' more =>
          obtain ⟨rfl, -⟩ := List.cons.inj hmore
          exact h.cancelled before e more rfl he hpassed

theorem Off.handled (hes : Off h es) : Handled h es := by
  have hnil : Handled h [] := by
    refine ⟨Nat.zero_le _, rfl, Nat.zero_le _, fun before e after heq => ?_⟩
    cases before <;> cases heq
  have happend := hnil.append_off hes
  rwa [List.nil_append] at happend

theorem Talk.off {k : Nat} {passed : Prop} (hes : Talk h deadline k passed es) (hne : h' ≠ h) : Off h' es := by
  intro e he hhandle
  rcases hes.own e he with hclock | ⟨-, hown⟩
  · rw [hclock] at hhandle
    cases hhandle
  · rw [hown] at hhandle
    exact hne (Option.some.inj hhandle).symm

theorem WaitClose.own (hcs : WaitClose h deadline cs r) : ∀ e ∈ cs, e.op.handle? = some h := by
  cases hcs with
  | cancelFails e a =>
      intro e he
      simp only [List.mem_cons, List.not_mem_nil, or_false] at he
      rcases he with rfl | rfl <;> rfl
  | waits y a =>
      intro e he
      simp only [List.mem_cons, List.not_mem_nil, or_false] at he
      rcases he with rfl | rfl | rfl <;> rfl

theorem Life.off (hes : Life h es) (hne : h' ≠ h) : Off h' es := by
  have hown (e : PipeEvent) (he : e.op.handle? = some h) : e.op.handle? ≠ some h' :=
    fun heq => hne (Option.some.inj (heq.symm.trans he))
  cases hes with
  | refused name deadline e =>
      intro e he
      rw [List.mem_singleton.mp he]
      exact hown _ rfl
  | closed name hes a =>
      intro e he
      rcases List.mem_append.mp he with he | he
      · rcases List.mem_cons.mp he with rfl | he
        · exact hown _ rfl
        · exact hes.off hne e he
      · rw [List.mem_singleton.mp he]
        exact hown _ rfl
  | cancelled name hes hcs =>
      intro e he
      rcases List.mem_append.mp he with he | he
      · rcases List.mem_cons.mp he with rfl | he
        · exact hown _ rfl
        · exact hes.off hne e he
      · exact hown e (hcs.own e he)

theorem Talk.not_ends {k : Nat} {passed : Prop} (hes : Talk h deadline k passed es) (he : e ∈ es) :
    e.opens h = false ∧ e.op ≠ .close h := by
  rcases hes.own e he with hclock | ⟨htalks, -⟩
  · rcases e with ⟨o, answer⟩
    obtain rfl : o = .clock := hclock
    exact ⟨rfl, fun h => by cases h⟩
  · rcases e with ⟨o, answer⟩
    cases o <;> first | exact htalks.elim | exact ⟨rfl, fun h => by cases h⟩

theorem Talk.countP_eq {k : Nat} {passed : Prop} (hes : Talk h deadline k passed es) :
    es.countP (·.opens h) = 0 ∧ es.countP (·.closes h) = 0 := by
  simp only [List.countP_eq_zero, Bool.not_eq_true]
  exact ⟨fun e he => (hes.not_ends he).1, fun e he => decide_eq_false (hes.not_ends he).2⟩

theorem WaitClose.countP_eq (hcs : WaitClose h deadline cs r) : cs.countP (·.opens h) = 0 ∧
    cs.countP (·.closes h) = 1 ∧ cs.countP (·.op.isWrite h) = 0 := by
  cases hcs <;> simp [PipeEvent.opens, PipeEvent.closes, PipeOp.isWrite]

/-- A handle is closed at the end of its cancellation. -/
theorem WaitClose.close_last (hcs : WaitClose h deadline cs r) {before after : List PipeEvent} (he : e.op = .close h)
    (heq : cs = before ++ e :: after) : ∃ c ∈ before, c.op = .cancelPending h := by
  cases hcs with
  | cancelFails error a =>
      cases before with
      | nil =>
          obtain ⟨rfl, -⟩ := List.cons.inj heq
          cases he
      | cons c before =>
          obtain ⟨rfl, -⟩ := List.cons.inj heq
          exact ⟨_, List.mem_cons_self, rfl⟩
  | waits y a =>
      cases before with
      | nil =>
          obtain ⟨rfl, -⟩ := List.cons.inj heq
          cases he
      | cons c before =>
          obtain ⟨rfl, -⟩ := List.cons.inj heq
          exact ⟨_, List.mem_cons_self, rfl⟩

@[simp] theorem opens_connect (name : String) (u : Unit) :
    PipeEvent.opens h ⟨.connect h name deadline, .ok u⟩ = true := decide_eq_true rfl

@[simp] theorem isWrite_connect (name : String) : PipeOp.isWrite h (.connect h' name deadline) = false := rfl

@[simp] theorem isWrite_close : PipeOp.isWrite h (.close h') = false := rfl

@[simp] theorem closes_connect (name : String) (a : Except Raised Unit) :
    PipeEvent.closes h ⟨.connect h name deadline, a⟩ = false := rfl

@[simp] theorem opens_close (a : Except Raised Unit) : PipeEvent.opens h ⟨.close h, a⟩ = false := rfl

@[simp] theorem closes_close (a : Except Raised Unit) : PipeEvent.closes h ⟨.close h, a⟩ = true := decide_eq_true rfl

/-- Until its connection ends, nothing closes the handle. -/
theorem Talk.not_close {k : Nat} {passed : Prop} (hes : Talk h deadline k passed es) {name : String} {u : Unit} :
    ∀ e ∈ (⟨.connect h name deadline, .ok u⟩ :: es : List PipeEvent), ¬ e.op = .close h := by
  intro e he
  rcases List.mem_cons.mp he with rfl | he
  · exact fun h => by cases h
  · exact (hes.not_ends he).2

theorem Life.handled (hes : Life h es) : Handled h es := by
  cases hes with
  | refused name deadline e =>
      refine ⟨Nat.zero_le _, rfl, Nat.zero_le _, fun before c after heq hc => ?_⟩
      cases before with
      | nil =>
          obtain ⟨rfl, -⟩ := List.cons.inj heq
          cases hc
      | cons b before =>
          obtain ⟨-, heq⟩ := List.cons.inj heq
          cases before <;> cases heq
  | closed name hes a =>
      obtain ⟨hopens, hcloses⟩ := hes.countP_eq
      have hwritten := hes.written
      refine ⟨?_, ?_, ?_, fun before c after heq hc hpassed => ?_⟩
      · simp [hopens]
      · simp [hopens, hcloses]
      · simpa using hwritten
      · -- Only the last event closes the handle, and before it no deadline was seen to pass.
        obtain ⟨more, rfl, hmore⟩ := split_right (p := fun e => e.op = .close h) hes.not_close hc heq
        have hnil : more = [] := by
          cases more with
          | nil => rfl
          | cons b more =>
              obtain ⟨-, hmore⟩ := List.cons.inj hmore
              cases more <;> cases hmore
        subst hnil
        rw [List.append_nil] at hpassed
        obtain ⟨b, name', deadline', after', e, hsplit, he, -, hlate⟩ := hpassed
        cases b with
        | nil =>
            obtain ⟨hconnect, rfl⟩ := List.cons.inj hsplit
            cases hconnect
            exact absurd hlate (hes.calm (fun h => h) e he)
        | cons c b =>
            obtain ⟨-, rfl⟩ := List.cons.inj hsplit
            have hopen := (hes.not_ends (List.mem_append_right b List.mem_cons_self)).1
            rw [opens_connect] at hopen
            cases hopen
  | cancelled name hes hcs =>
      obtain ⟨hopens, hcloses⟩ := hes.countP_eq
      obtain ⟨hopens', hcloses', hwrites'⟩ := hcs.countP_eq
      have hwritten := hes.written
      refine ⟨?_, ?_, ?_, fun before c after heq hc _ => ?_⟩
      · simp [hopens, hopens']
      · simp [hopens, hcloses, hopens', hcloses']
      · simpa [hwrites'] using hwritten
      · obtain ⟨more, rfl, hmore⟩ := split_right (p := fun e => e.op = .close h) hes.not_close hc heq
        obtain ⟨c, hc, hcancel⟩ := hcs.close_last hc hmore
        exact ⟨c, List.mem_append_right _ hc, hcancel⟩

end

/-! ## Several connections -/

/-- Connections with a handle each, and what is done between them. -/
inductive Lives : List PipeHandle → List PipeEvent → Prop
  | nil : Lives [] []
  | between {hs : List PipeHandle} {es : List PipeEvent} (e : PipeEvent) (he : e.op.handle? = none) (hes : Lives hs es) :
      Lives hs (e :: es)
  | life {h : PipeHandle} {hs : List PipeHandle} {es es' : List PipeEvent} (hes : Life h es) (hnew : h ∉ hs)
      (hes' : Lives hs es') : Lives (h :: hs) (es ++ es')

section
variable {h : PipeHandle} {hs : List PipeHandle} {es es' : List PipeEvent} {deadline : ℚ}

theorem off_singleton {e : PipeEvent} (he : e.op.handle? = none) : Off h [e] := by
  intro e' he'
  rw [List.mem_singleton.mp he', he]
  exact fun h => by cases h

theorem Lives.off (hes : Lives hs es) (hh : h ∉ hs) : Off h es := by
  induction hes with
  | nil => exact fun e he => (List.not_mem_nil he).elim
  | between e he _ ih => exact (off_singleton he).append (ih hh)
  | life hes _ _ ih => exact (hes.off (List.ne_of_not_mem_cons hh)).append (ih (List.not_mem_of_not_mem_cons hh))

theorem Lives.handled (hes : Lives hs es) (h : PipeHandle) : Handled h es := by
  induction hes with
  | nil => exact Off.handled fun e he => (List.not_mem_nil he).elim
  | between e he _ ih => exact ih.off_append (off_singleton he)
  | @life h' hs es es' hes hnew hes' ih =>
      by_cases heq : h = h'
      · subst heq
        exact hes.handled.append_off (hes'.off hnew)
      · exact ih.off_append (hes.off heq)

theorem Talk.not_attempt {k : Nat} {passed : Prop} (hes : Talk h deadline k passed es) :
    es.countP (·.op.isAttempt) = 0 := by
  simp only [List.countP_eq_zero, Bool.not_eq_true]
  intro e he
  rcases hes.own e he with hclock | ⟨htalks, -⟩
  · rw [hclock]
    rfl
  · rcases e with ⟨o, answer⟩
    cases o <;> first | exact htalks.elim | rfl

theorem WaitClose.not_attempt {cs : List PipeEvent} {r : Except Raised Unit} (hcs : WaitClose h deadline cs r) :
    cs.countP (·.op.isAttempt) = 0 := by
  cases hcs <;> rfl

/-- A connection is an attempt of what its handle is for. -/
theorem Life.attempts_eq (hes : Life h es) : es.countP (·.op.isAttempt) = if h = .primary then 0 else 1 := by
  have hconnect (name : String) (deadline : ℚ) :
      (if (PipeOp.connect h name deadline).isAttempt = true then 1 else 0) = if h = .primary then 0 else 1 := by
    cases h <;> rfl
  cases hes with
  | refused name deadline e =>
      rw [List.countP_cons, List.countP_nil, zero_add]
      exact hconnect _ _
  | closed name hes a =>
      have hclose : [(⟨.close h, a⟩ : PipeEvent)].countP (·.op.isAttempt) = 0 := rfl
      rw [List.countP_append, List.countP_cons, hes.not_attempt, hclose, zero_add, add_zero]
      exact hconnect _ _
  | cancelled name hes hcs =>
      rw [List.countP_append, List.countP_cons, hes.not_attempt, hcs.not_attempt, zero_add, add_zero]
      exact hconnect _ _

theorem Lives.attempts_le (hes : Lives hs es) : es.countP (·.op.isAttempt) ≤ hs.length := by
  induction hes with
  | nil => exact Nat.le_refl _
  | between e he _ ih =>
      have hnot : e.op.isAttempt = false := by
        rcases e with ⟨o, answer⟩
        cases o <;> first | rfl | cases he
      simpa [List.countP_cons, hnot] using ih
  | life hes _ _ ih =>
      rw [List.countP_append, List.length_cons, hes.attempts_eq]
      split <;> omega

end

/-! ## Confirmations -/

theorem isText_iff {text : String} {field : Option (Json Scalar)} :
    isText text field = true ↔ field = some (.str text) := by
  unfold isText
  split
  · simp [eq_comm]
  · next hne => exact iff_of_false (by simp) fun h => hne text h

theorem isTrue_iff {field : Option (Json Scalar)} : isTrue field = true ↔ field = some (.bool true) := by
  unfold isTrue
  split
  · simp
  · next hne => exact iff_of_false (by simp) fun h => hne true h

/-- One of the cancel requests got a well-formed reply that its target has ended. -/
inductive Confirmed (t : NamedPipeTransport) (target : String) (es : List PipeEvent) : Prop
  | intro {index size : Nat} {cancelRequestId : String} {frame framePrefix body : List UInt8} {deadline : ℚ}
      {response data : PipeResponse}
      (hframe : t.encodeChecked (NamedPipeTransport.cancelEnvelope cancelRequestId target) = .ok frame)
      (hsent : [⟨.write (.attempt index) frame deadline, .ok ()⟩,
        ⟨.readExact (.attempt index) 4 deadline, .ok framePrefix⟩,
        ⟨.readExact (.attempt index) size deadline, .ok body⟩].Sublist es)
      (hdecoded : t.decodeFrame (framePrefix ++ body) = .ok response)
      (hschema : response.lookup "schema_version" = some (.str schemaVersion))
      (hid : response.lookup "request_id" = some (.str cancelRequestId))
      (hstatus : response.lookup "status" = some (.str "ok"))
      (hdata : response.lookup "data" = some (.obj data))
      (hterminal : data.lookup "terminal" = some (.bool true))
      (htarget : data.lookup "cancelled_request_id" = some (.str target))

section
variable {t : NamedPipeTransport} {target : String} {es es' tr : List PipeEvent} {index : Nat} {deadline : ℚ}

theorem Confirmed.mono (h : Confirmed t target es) (hsub : es.Sublist es') : Confirmed t target es' := by
  obtain ⟨hframe, hsent, hdecoded, hschema, hid, hstatus, hdata, hterminal, htarget⟩ := h
  exact ⟨hframe, hsent.trans hsub, hdecoded, hschema, hid, hstatus, hdata, hterminal, htarget⟩

theorem confirms_iff {response : PipeResponse} : NamedPipeTransport.confirms target response = true ↔
    response.lookup "status" = some (.str "ok") ∧ ∃ data, response.lookup "data" = some (.obj data) ∧
      data.lookup "terminal" = some (.bool true) ∧ data.lookup "cancelled_request_id" = some (.str target) := by
  unfold NamedPipeTransport.confirms
  rw [Bool.and_eq_true, isText_iff]
  apply and_congr_right
  intro _
  split
  · next data hdata => simp [hdata, isTrue_iff, isText_iff]
  · next hne => exact iff_of_false (by simp) fun ⟨data, hdata, _⟩ => hne data hdata

theorem validateResponse_eq_ok {response : PipeResponse} {requestId : String} :
    NamedPipeTransport.validateResponse response requestId = .ok () ↔
      response.lookup "schema_version" = some (.str schemaVersion) ∧
        response.lookup "request_id" = some (.str requestId) := by
  rw [← isText_iff, ← isText_iff]
  unfold NamedPipeTransport.validateResponse
  cases isText schemaVersion (response.lookup "schema_version") <;>
    cases isText requestId (response.lookup "request_id") <;>
      simp [throw, throwThe, MonadExceptOf.throw, pure, Except.pure, bind, Except.bind]

/-- A cancel attempt that confirms got such a reply. -/
theorem cancelExchange_confirmed (t : NamedPipeTransport) (index : Nat) (cancelRequestId target : String)
    (deadline : ℚ) (tr : List PipeEvent) :
    Prog.Ends (fun _ _ => True) (t.cancelExchange (.attempt index) cancelRequestId target deadline) tr fun tr' r =>
      r = .ok true → ∃ es, tr' = tr ++ es ∧ Confirmed t target es := by
  have hfails {tr' : List PipeEvent} {e : Raised} :
      (Except.error e : Except Raised Bool) = .ok true → ∃ es, tr' = tr ++ es ∧ Confirmed t target es :=
    fun h => by cases h
  unfold NamedPipeTransport.cancelExchange NamedPipeTransport.readResponse NamedPipeTransport.checkDeadline clock
  rw [Prog.ends_bind, ends_lift]
  cases hframe : t.encodeChecked (NamedPipeTransport.cancelEnvelope cancelRequestId target) with
  | error e => exact hfails
  | ok frame =>
      simp only [Prog.ends_bind, ends_callPipe]
      intro sent
      cases sent with
      | error e => exact hfails
      | ok u =>
          intro first
          cases first with
          | error e => exact hfails
          | ok framePrefix =>
              simp only [id, ends_lift]
              cases unpackLength framePrefix with
              | error e => exact hfails
              | ok size =>
                  simp only [Prog.ends_ite]
                  refine ⟨fun _ => hfails, fun _ => ?_⟩
                  rw [Prog.ends_bind, ends_callPipe]
                  intro answer
                  cases answer with
                  | error e => exact hfails
                  | ok body =>
                      simp only [id, ends_lift]
                      cases hdecoded : t.decodeFrame (framePrefix ++ body) with
                      | error e => exact hfails
                      | ok response =>
                          intro reading
                          refine ⟨fun _ => hfails, fun _ => ?_⟩
                          simp only [Prog.ends_pure]
                          cases hvalid : NamedPipeTransport.validateResponse response cancelRequestId with
                          | error e => exact hfails
                          | ok u =>
                              intro hconfirms
                              obtain ⟨hstatus, data, hdata, hterminal, htarget⟩ :=
                                confirms_iff.mp (Except.ok.inj hconfirms)
                              obtain ⟨hschema, hid⟩ := validateResponse_eq_ok.mp hvalid
                              refine ⟨_, by simp only [List.append_assoc]; rfl, ?_⟩
                              have hsent : [⟨.write (.attempt index) frame deadline, .ok ()⟩,
                                  ⟨.readExact (.attempt index) 4 deadline, .ok framePrefix⟩,
                                  ⟨.readExact (.attempt index) size deadline, .ok body⟩].Sublist
                                    ([⟨.write (.attempt index) frame deadline, .ok ()⟩,
                                      ⟨.readExact (.attempt index) 4 deadline, .ok framePrefix⟩,
                                      ⟨.readExact (.attempt index) size deadline, .ok body⟩] ++
                                        [(⟨.clock, reading⟩ : PipeEvent)]) := List.sublist_append_left _ _
                              exact ⟨hframe, hsent, hdecoded, hschema, hid, hstatus, hdata, hterminal, htarget⟩

end

/-! ## Cancel attempts -/

section
variable (t : NamedPipeTransport) (target : String) (h : PipeHandle) (deadline : ℚ) (tr : List PipeEvent)

theorem ends_cancelWaitClose :
    Prog.Ends (fun _ _ => True) (NamedPipeTransport.cancelWaitClose h deadline) tr fun tr' r =>
      ∃ cs, tr' = tr ++ cs ∧ WaitClose h deadline cs r := by
  unfold NamedPipeTransport.cancelWaitClose
  simp only [Prog.ends_bind, ends_caught, ends_callPipe, ends_lift]
  intro x
  cases x with
  | error e =>
      intro a
      have hrun : WaitClose h deadline _ _ := .cancelFails e a
      cases a with
      | error e' => exact ⟨_, List.append_assoc _ _ _, hrun⟩
      | ok u => exact ⟨_, List.append_assoc _ _ _, hrun⟩
  | ok u =>
      intro y a
      have hrun : WaitClose h deadline _ _ := .waits y a
      cases a with
      | error e => exact ⟨_, by simp only [List.append_assoc]; rfl, hrun⟩
      | ok u =>
          cases y with
          | error e => exact ⟨_, by simp only [List.append_assoc]; rfl, hrun⟩
          | ok u => exact ⟨_, by simp only [List.append_assoc]; rfl, hrun⟩

theorem ends_closing {α : Type} (outcome : Except Raised α) :
    Prog.Ends (fun _ _ => True) (NamedPipeTransport.closing h outcome) tr fun tr' r =>
      ∃ a, tr' = tr ++ [⟨.close h, a⟩] ∧ r = a >>= fun _ => outcome := by
  unfold NamedPipeTransport.closing
  rw [Prog.ends_bind, ends_callPipe]
  intro a
  cases a with
  | error e => exact ⟨_, rfl, rfl⟩
  | ok u => exact ⟨_, rfl, rfl⟩

/-- A cancel attempt is one connection. -/
theorem ends_cancelAttempt (index : Nat) (cancelRequestId : String) :
    Prog.Ends (fun _ _ => True) (t.cancelAttempt (.attempt index) cancelRequestId target deadline) tr fun tr' r =>
      ∃ es, tr' = tr ++ es ∧ Life (.attempt index) es ∧
        (∀ error, r = .ok (.returned true error) → Confirmed t target es) := by
  unfold NamedPipeTransport.cancelAttempt
  rw [Prog.ends_bind, ends_caught, ends_callPipe]
  intro connected
  rcases connected with (_ | ⟨name, isValueOrTypeError⟩ | name) | u
  · exact ⟨_, rfl, .refused _ _ _, fun error h => by cases h⟩
  · refine ⟨_, rfl, .refused _ _ _, fun error h => ?_⟩
    cases isValueOrTypeError <;> cases h
  · exact ⟨_, rfl, .refused _ _ _, fun error h => by cases h⟩
  · simp only [id]
    rw [Prog.ends_bind, ends_caught]
    apply ((TalksFor.cancelExchange t (.attempt index) cancelRequestId target deadline _).and
      (cancelExchange_confirmed t index cancelRequestId target deadline _)).mono
    rintro _ r ⟨⟨es, rfl, hes⟩, hconfirmed⟩
    have hcalm (hr : r ≠ .error .deadline) : Talk (.attempt index) deadline 1 False es := by
      refine hes.mono ?_ (Nat.le_refl 1)
      rintro ⟨e, he, rfl⟩
      exact hr he
    -- Unless the deadline passed, the handle is closed by the `finally`.
    have hclosed {outcome : Except Raised NamedPipeTransport.Attempted} (hr : r ≠ .error .deadline)
        (hconfirms : ∀ error, outcome = .ok (.returned true error) → r = .ok true) :
        Prog.Ends (fun _ _ => True) (NamedPipeTransport.closing (.attempt index) outcome)
          (tr ++ [⟨.connect (.attempt index) t.pipeName deadline, .ok u⟩] ++ es) fun tr' r =>
            ∃ es, tr' = tr ++ es ∧ Life (.attempt index) es ∧
              (∀ error, r = .ok (.returned true error) → Confirmed t target es) := by
      apply (ends_closing (.attempt index) _ outcome).mono
      rintro _ r' ⟨a, rfl, rfl⟩
      refine ⟨_, by simp only [List.append_assoc]; rfl, .closed t.pipeName (hcalm hr) a, fun error h => ?_⟩
      cases a with
      | error e => cases h
      | ok v =>
          obtain ⟨es', heq, hes'⟩ := hconfirmed (hconfirms error h)
          rw [List.append_cancel_left heq]
          exact hes'.mono ((List.sublist_append_left _ _).trans (List.sublist_cons_self _ _))
    rcases r with (_ | ⟨name, isValueOrTypeError⟩ | name) | _ | _
    · simp only
      rw [Prog.ends_bind, ends_caught]
      apply (ends_cancelWaitClose (.attempt index) deadline _).mono
      rintro _ r ⟨cs, rfl, hcs⟩
      have hlife := Life.cancelled t.pipeName (hes.mono (fun _ => trivial) (Nat.le_refl 1)) hcs
      rcases r with (_ | ⟨name, isValueOrTypeError⟩ | name) | v
      · exact ⟨_, by simp only [List.append_assoc]; rfl, hlife, fun error h => by cases h⟩
      · exact ⟨_, by simp only [List.append_assoc]; rfl, hlife, fun error h => by cases h⟩
      · exact ⟨_, by simp only [List.append_assoc]; rfl, hlife, fun error h => by cases h⟩
      · exact ⟨_, by simp only [List.append_assoc]; rfl, hlife, fun error h => by cases h⟩
    · refine hclosed (fun h => by cases h) fun error h => ?_
      cases isValueOrTypeError <;> cases h
    · exact hclosed (fun h => by cases h) fun error h => by cases h
    · exact hclosed (fun h => by cases h) fun error h => by cases h
    · exact hclosed (fun h => by cases h) fun error h => rfl

/-- The events of cancel attempts from a number on, and what was found out. -/
def AttemptRun (index left : Nat) (tr tr' : List PipeEvent) (r : Except Raised (Bool × Option String)) : Prop :=
  ∃ hs es, tr' = tr ++ es ∧ Lives hs es ∧ hs.length ≤ left ∧ (∀ h ∈ hs, ∃ i ≥ index, h = .attempt i) ∧
    ∀ error, r = .ok (true, error) → Confirmed t target es

variable {t target h deadline tr} {index left : Nat} {tr' : List PipeEvent} {r : Except Raised (Bool × Option String)}

theorem AttemptRun.stop (hr : ∀ error, r ≠ .ok (true, error)) : AttemptRun t target index left tr tr r :=
  ⟨[], [], (List.append_nil tr).symm, .nil, Nat.zero_le _, fun _ hh => (List.not_mem_nil hh).elim,
    fun error h => absurd h (hr error)⟩

theorem AttemptRun.between {es : List PipeEvent} (hes : ∀ e ∈ es, e.op.handle? = none)
    (h : AttemptRun t target index left (tr ++ es) tr' r) : AttemptRun t target index left tr tr' r := by
  obtain ⟨hs, rest, rfl, hlives, hlength, hindex, hconfirmed⟩ := h
  refine ⟨hs, es ++ rest, List.append_assoc _ _ _, ?_, hlength, hindex,
    fun error hr => (hconfirmed error hr).mono (List.sublist_append_right _ _)⟩
  clear hconfirmed
  induction es with
  | nil => exact hlives
  | cons e es ih =>
      exact .between e (hes e List.mem_cons_self) (ih fun e he => hes e (List.mem_cons_of_mem _ he))

theorem AttemptRun.perform {e : PipeEvent} (he : e.op.handle? = none)
    (h : AttemptRun t target index left (tr ++ [e]) tr' r) : AttemptRun t target index left tr tr' r :=
  h.between fun e' he' => by rw [List.mem_singleton.mp he', he]

/-- One more attempt in front. -/
theorem AttemptRun.attempt {es : List PipeEvent} (hes : Life (.attempt index) es)
    (h : AttemptRun t target (index + 1) left (tr ++ es) tr' r) : AttemptRun t target index (left + 1) tr tr' r := by
  obtain ⟨hs, rest, rfl, hlives, hlength, hindex, hconfirmed⟩ := h
  refine ⟨.attempt index :: hs, es ++ rest, List.append_assoc _ _ _, .life hes ?_ hlives, Nat.succ_le_succ hlength, ?_,
    fun error hr => (hconfirmed error hr).mono (List.sublist_append_right _ _)⟩
  · intro hmem
    obtain ⟨i, hi, heq⟩ := hindex _ hmem
    obtain rfl := PipeHandle.attempt.inj heq
    omega
  · intro h' hh'
    rcases List.mem_cons.mp hh' with rfl | hh'
    · exact ⟨index, Nat.le_refl _, rfl⟩
    · obtain ⟨i, hi, rfl⟩ := hindex h' hh'
      exact ⟨i, Nat.le_of_succ_le hi, rfl⟩

theorem AttemptRun.last {es : List PipeEvent} (hes : Life (.attempt index) es)
    (hr : ∀ error, r = .ok (true, error) → Confirmed t target es) :
    AttemptRun t target index (left + 1) tr (tr ++ es) r := by
  refine ⟨[.attempt index], es ++ [], by rw [List.append_nil], .life hes List.not_mem_nil .nil,
    Nat.succ_le_succ (Nat.zero_le _), fun h' hh' => ⟨index, Nat.le_refl _, List.mem_singleton.mp hh'⟩, ?_⟩
  rw [List.append_nil]
  exact hr

theorem ends_newCancelRequestId (tr : List PipeEvent) :
    Prog.Ends (fun _ _ => True) (NamedPipeTransport.newCancelRequestId target) tr fun tr' _ =>
      ∃ es, tr' = tr ++ es ∧ ∀ e ∈ es, e.op.handle? = none := by
  have hone {e : PipeEvent} (he : e.op.handle? = none) : ∀ e' ∈ [e], e'.op.handle? = none :=
    fun e' he' => by rw [List.mem_singleton.mp he', he]
  unfold NamedPipeTransport.newCancelRequestId
  rw [Prog.ends_bind, ends_callPipe]
  intro answer
  cases answer with
  | error e => exact ⟨_, rfl, hone rfl⟩
  | ok cancelRequestId =>
      simp only [id, Prog.ends_ite]
      refine ⟨fun _ => ?_, fun _ => ⟨_, rfl, hone rfl⟩⟩
      rw [ends_callPipe]
      intro other
      refine ⟨_, List.append_assoc _ _ _, fun e he => ?_⟩
      rcases List.mem_append.mp he with he | he
      · exact hone rfl e he
      · exact hone rfl e he

theorem ends_cancelAttempts (t : NamedPipeTransport) (target : String) (deadline : ℚ) (left index : Nat)
    (lastError : String) (tr : List PipeEvent) :
    Prog.Ends (fun _ _ => True) (t.cancelAttempts target deadline left index lastError) tr
      (AttemptRun t target index left tr) := by
  induction left generalizing index lastError tr with
  | zero => exact .stop fun error h => by cases h
  | succ left ih =>
      unfold NamedPipeTransport.cancelAttempts clock
      rw [Prog.ends_bind, ends_callPipe]
      intro reading
      simp only [Prog.ends_ite]
      refine ⟨fun _ => AttemptRun.perform (e := ⟨.clock, reading⟩) rfl (.stop fun error h => by cases h), fun _ => ?_⟩
      rw [Prog.ends_bind]
      apply (ends_newCancelRequestId _).mono
      rintro _ id' ⟨es, rfl, hes⟩
      have hbefore {tr' : List PipeEvent} {r : Except Raised (Bool × Option String)}
          (h : AttemptRun t target index (left + 1) (tr ++ [⟨.clock, reading⟩] ++ es) tr' r) :
          AttemptRun t target index (left + 1) tr tr' r :=
        AttemptRun.perform (e := ⟨.clock, reading⟩) rfl (h.between hes)
      cases id' with
      | error e => exact hbefore (.stop fun error h => by cases h)
      | ok cancelRequestId =>
          simp only
          rw [Prog.ends_bind]
          apply (ends_cancelAttempt t target deadline _ index cancelRequestId).mono
          rintro _ r ⟨life, rfl, hlife, hconfirmed⟩
          rcases r with e | (⟨confirmed, error⟩ | lastError | lastError)
          · exact hbefore (.last hlife fun error h => by cases h)
          · refine hbefore (.last hlife fun error' h => ?_)
            cases h
            exact hconfirmed error rfl
          · exact hbefore (.last hlife fun error h => by cases h)
          · simp only
            rw [Prog.ends_bind, ends_callPipe]
            intro later
            simp only [Prog.ends_ite]
            refine ⟨fun _ => hbefore (.attempt hlife ?_), fun _ => ?_⟩
            · exact AttemptRun.perform (e := ⟨.clock, later⟩) rfl (.stop fun error h => by cases h)
            · rw [Prog.ends_bind, ends_callPipe]
              intro slept
              cases slept with
              | error e =>
                  refine hbefore (.attempt hlife (AttemptRun.perform (e := ⟨.clock, later⟩) rfl ?_))
                  exact AttemptRun.perform (e := ⟨.sleep _, .error e⟩) rfl (.stop fun error h => by cases h)
              | ok u =>
                  apply (ih (index + 1) lastError _).mono
                  intro tr' r h
                  refine hbefore (.attempt hlife (AttemptRun.perform (e := ⟨.clock, later⟩) rfl ?_))
                  exact h.perform (e := ⟨.sleep _, .ok u⟩) rfl

end

/-! ## The request -/

/-- Cancelling the request's own handle came to what is no `Exception`. -/
def Interrupted (tr : List PipeEvent) : Prop :=
  ∃ before cs after deadline name, tr = before ++ (cs ++ after) ∧
    WaitClose .primary deadline cs (.error (.base name))

/-- What a run of a request keeps to. -/
structure Disciplined (t : NamedPipeTransport) (tr : List PipeEvent)
    (r : Except NamedPipeTransport.RequestError PipeResponse) : Prop where
  handled : ∀ h, Handled h tr
  attempts : tr.countP (·.op.isAttempt) ≤ t.maximumAttempts
  confirmed : ∀ details, r = .error (.timedOut details) → details.terminalCancelConfirmed = true →
    Confirmed t details.requestId tr

section
variable {t : NamedPipeTransport} {tr es cs rest : List PipeEvent} {r : Except Raised Unit} {deadline : ℚ}

theorem WaitClose.exists_cons {h : PipeHandle} (hcs : WaitClose h deadline cs r) : ∃ c more, cs = c :: more ∧
    c.op = .cancelPending h ∧ ∀ e ∈ more, e.op ≠ .cancelPending h := by
  cases hcs with
  | cancelFails e a =>
      refine ⟨_, _, rfl, rfl, fun e he => ?_⟩
      rw [List.mem_singleton.mp he]
      exact fun h => by cases h
  | waits y a =>
      refine ⟨_, _, rfl, rfl, fun e he => ?_⟩
      simp only [List.mem_cons, List.not_mem_nil, or_false] at he
      rcases he with rfl | rfl
      · exact fun h => by cases h
      · exact fun h => by cases h

theorem not_interrupted_of_forall (h : ∀ e ∈ tr, e.op ≠ .cancelPending .primary) : ¬ Interrupted tr := by
  rintro ⟨before, cs, after, deadline, name, rfl, hcs⟩
  obtain ⟨c, more, rfl, hc, -⟩ := hcs.exists_cons
  exact h c (List.mem_append_right _ (List.mem_append_left _ List.mem_cons_self)) hc

/-- What comes of a cancellation is told by its events. -/
theorem WaitClose.result_eq {h : PipeHandle} {deadline' : ℚ} {cs' rest' : List PipeEvent} {r' : Except Raised Unit}
    (hcs : WaitClose h deadline cs r) (hcs' : WaitClose h deadline' cs' r') (heq : cs ++ rest = cs' ++ rest') :
    r = r' := by
  cases hcs with
  | cancelFails e a =>
      cases hcs' with
      | cancelFails e' a' =>
          obtain ⟨hcancel, heq⟩ := List.cons.inj heq
          obtain ⟨hclose, -⟩ := List.cons.inj heq
          cases hcancel
          cases hclose
          rfl
      | waits y a' => cases (List.cons.inj heq).1
  | waits y a =>
      cases hcs' with
      | cancelFails e a' => cases (List.cons.inj heq).1
      | waits y' a' =>
          obtain ⟨-, heq⟩ := List.cons.inj heq
          obtain ⟨hwait, heq⟩ := List.cons.inj heq
          obtain ⟨hclose, -⟩ := List.cons.inj heq
          cases hwait
          cases hclose
          rfl

/-- Where the request's own handle is cancelled once. -/
theorem interrupted_iff (hcs : WaitClose .primary deadline cs r)
    (hbefore : ∀ e ∈ es, e.op ≠ .cancelPending .primary) (hafter : ∀ e ∈ rest, e.op ≠ .cancelPending .primary) :
    Interrupted (es ++ (cs ++ rest)) ↔ ∃ name, r = .error (.base name) := by
  constructor
  · rintro ⟨before, cs', after, deadline', name, heq, hcs'⟩
    obtain ⟨c', more', rfl, hc', -⟩ := hcs'.exists_cons
    obtain ⟨more, rfl, hmore⟩ := split_right (p := fun e => e.op = .cancelPending .primary) hbefore hc' heq
    have hnil : more = [] := by
      cases more with
      | nil => rfl
      | cons b more =>
          obtain ⟨c, tail, rfl, -, htail⟩ := hcs.exists_cons
          have htails : tail ++ rest = more ++ c' :: (more' ++ after) := (List.cons.inj hmore).2
          have hmem : c' ∈ tail ++ rest := by
            rw [htails]
            exact List.mem_append_right _ List.mem_cons_self
          rcases List.mem_append.mp hmem with hmem | hmem
          · exact absurd hc' (htail c' hmem)
          · exact absurd hc' (hafter c' hmem)
    subst hnil
    exact ⟨name, hcs.result_eq hcs' hmore⟩
  · rintro ⟨name, rfl⟩
    exact ⟨es, cs, rest, deadline, name, rfl, hcs⟩

theorem Talk.not_cancel {h : PipeHandle} {k : Nat} {passed : Prop} (hes : Talk h deadline k passed es) :
    ∀ e ∈ es, e.op ≠ .cancelPending .primary := by
  intro e he heq
  rcases hes.own e he with hclock | ⟨htalks, -⟩
  · rw [heq] at hclock
    cases hclock
  · rw [heq] at htalks
    exact htalks

theorem Off.not_cancel (hes : Off .primary es) : ∀ e ∈ es, e.op ≠ .cancelPending .primary :=
  fun e he heq => hes e he (by rw [heq]; rfl)

/-- A request whose own handle was closed, or cancelled and closed, before any attempt. -/
theorem disciplined_of_life {reading : ℚ} {first : List PipeEvent} {hs : List PipeHandle}
    {result : Except NamedPipeTransport.RequestError PipeResponse} (hfirst : Life .primary first) (hrest : Lives hs rest)
    (hattempts : ∀ h ∈ hs, ∃ i ≥ 0, h = .attempt i) (hlength : hs.length ≤ t.maximumAttempts)
    (hconfirmed : ∀ details, result = .error (.timedOut details) → details.terminalCancelConfirmed = true →
      Confirmed t details.requestId rest) :
    Disciplined t (⟨.clock, reading⟩ :: (first ++ rest)) result := by
  have hnew : .primary ∉ hs := fun hmem => by
    obtain ⟨i, -, heq⟩ := hattempts _ hmem
    cases heq
  have hlives : Lives (.primary :: hs) (⟨.clock, reading⟩ :: (first ++ rest)) := .between _ rfl (.life hfirst hnew hrest)
  refine ⟨hlives.handled, ?_, fun details hr hd => (hconfirmed details hr hd).mono ?_⟩
  · have hclock : (⟨.clock, reading⟩ : PipeEvent).op.isAttempt = false := rfl
    rw [List.countP_cons, List.countP_append, hfirst.attempts_eq, if_pos rfl, hclock, zero_add]
    simpa using hrest.attempts_le.trans hlength
  · exact (List.sublist_append_right _ _).trans (List.sublist_cons_self _ _)

/-- What is done once the deadline of the request passed and its handle is gone. -/
def Reported (t : NamedPipeTransport) (tr tr' : List PipeEvent)
    (result : Except NamedPipeTransport.RequestError PipeResponse) : Prop :=
  ∃ hs rest, tr' = tr ++ rest ∧ Lives hs rest ∧ hs.length ≤ t.maximumAttempts ∧
    (∀ h ∈ hs, ∃ i ≥ 0, h = .attempt i) ∧
    ∀ details, result = .error (.timedOut details) → details.terminalCancelConfirmed = true →
      Confirmed t details.requestId rest

theorem Reported.attempts_off {hs : List PipeHandle} (hattempts : ∀ h ∈ hs, ∃ i ≥ 0, h = .attempt i)
    (hrest : Lives hs rest) : Off .primary rest := by
  refine hrest.off fun hmem => ?_
  obtain ⟨i, -, heq⟩ := hattempts _ hmem
  cases heq

theorem ends_requestTerminalCancel (t : NamedPipeTransport) (target : String) (tr : List PipeEvent) :
    Prog.Ends (fun _ _ => True) (t.requestTerminalCancel target) tr (AttemptRun t target 0 t.maximumAttempts tr) := by
  unfold NamedPipeTransport.requestTerminalCancel clock
  rw [Prog.ends_bind, ends_callPipe]
  intro reading
  apply (ends_cancelAttempts t target _ _ 0 _ _).mono
  exact fun tr' r h => AttemptRun.perform (e := ⟨.clock, reading⟩) rfl h

@[simp] theorem ends_uncaught {α : Type} {m : PipeM α}
    {F : List PipeEvent → Except NamedPipeTransport.RequestError α → Prop} :
    Prog.Ends (fun _ _ => True) (NamedPipeTransport.uncaught m) tr F ↔
      Prog.Ends (fun _ _ => True) m tr fun tr' r => F tr' (r.mapError .raised) := ends_mapError

theorem ends_reportDeadline (t : NamedPipeTransport) (envelope : PipeResponse) (requestId : String) (timeoutSeconds : ℚ)
    (stage : NamedPipeTransport.TransportStage) (primaryIoCancelError : Option String) (tr : List PipeEvent) :
    Prog.Ends (fun _ _ => True) (t.reportDeadline envelope requestId timeoutSeconds stage primaryIoCancelError) tr
      (Reported t tr) := by
  unfold NamedPipeTransport.reportDeadline
  rw [Prog.ends_bind, ends_uncaught]
  apply (ends_requestTerminalCancel t requestId tr).mono
  rintro _ r ⟨hs, rest, rfl, hlives, hlength, hattempts, hconfirmed⟩
  rcases r with e | ⟨confirmed, error⟩
  · exact ⟨hs, rest, rfl, hlives, hlength, hattempts, fun details h => by cases h⟩
  · refine ⟨hs, rest, rfl, hlives, hlength, hattempts, fun details h hd => ?_⟩
    cases h
    obtain rfl : confirmed = true := hd
    exact hconfirmed error rfl

/-- The request's own handle is cancelled, and closed twice where that comes to what is no `Exception`. -/
theorem ends_cancelPrimary (t : NamedPipeTransport) (tr : List PipeEvent) :
    Prog.Ends (fun _ _ => True) t.cancelPrimary tr fun tr' r =>
      ∃ reading cs outcome, WaitClose .primary (reading + t.cancellationGraceSeconds) cs outcome ∧
        (((∀ name, outcome ≠ .error (.base name)) ∧ tr' = tr ++ ⟨.clock, reading⟩ :: cs ∧ ∃ p, r = .ok p) ∨
          (∃ name, outcome = .error (.base name)) ∧
            ∃ a e, tr' = tr ++ ⟨.clock, reading⟩ :: (cs ++ [⟨.close .primary, a⟩]) ∧ r = .error e) := by
  unfold NamedPipeTransport.cancelPrimary clock
  rw [Prog.ends_bind, ends_callPipe]
  intro reading
  simp only
  rw [Prog.ends_bind, ends_caught]
  apply (ends_cancelWaitClose .primary _ _).mono
  rintro _ outcome ⟨cs, rfl, hcs⟩
  rcases outcome with (_ | ⟨name, isValueOrTypeError⟩ | name) | v
  · exact ⟨reading, cs, _, hcs, .inl ⟨by simp, by simp, _, rfl⟩⟩
  · exact ⟨reading, cs, _, hcs, .inl ⟨by simp, by simp, _, rfl⟩⟩
  · apply (ends_closing .primary _ _).mono
    rintro _ r ⟨a, rfl, rfl⟩
    refine ⟨reading, cs, _, hcs, .inr ⟨⟨name, rfl⟩, a, ?_⟩⟩
    cases a with
    | error e => exact ⟨e, by simp, rfl⟩
    | ok u => exact ⟨.base name, by simp, rfl⟩
  · exact ⟨reading, cs, _, hcs, .inl ⟨by simp, by simp, _, rfl⟩⟩

theorem Reported.nil {result : Except NamedPipeTransport.RequestError PipeResponse}
    (h : ∀ details, result ≠ .error (.timedOut details)) : Reported t tr tr result :=
  ⟨[], [], (List.append_nil tr).symm, .nil, Nat.zero_le _, fun _ hh => (List.not_mem_nil hh).elim,
    fun details hr => absurd hr (h details)⟩

variable {result : Except NamedPipeTransport.RequestError PipeResponse} {reading : ℚ} {tr' : List PipeEvent}

/-- A request whose own handle was refused or closed. -/
theorem disciplined_iff_of_calm {first : List PipeEvent} (hfirst : Life .primary first)
    (hcalm : ∀ e ∈ first, e.op ≠ .cancelPending .primary) (h : Reported t (⟨.clock, reading⟩ :: first) tr' result) :
    Disciplined t tr' result ↔ ¬ Interrupted tr' := by
  obtain ⟨hs, rest, rfl, hrest, hlength, hattempts, hconfirmed⟩ := h
  refine iff_of_true (disciplined_of_life hfirst hrest hattempts hlength hconfirmed) ?_
  apply not_interrupted_of_forall
  intro e he
  rcases List.mem_append.mp he with he | he
  · rcases List.mem_cons.mp he with rfl | he
    · exact fun h => by cases h
    · exact hcalm e he
  · exact (Reported.attempts_off hattempts hrest).not_cancel e he

/-- A request whose own handle was cancelled after its deadline passed. -/
theorem disciplined_iff_of_cancelled {name : String} {later grace : ℚ} (hes : Talk .primary deadline 1 True es)
    (hcs : WaitClose .primary grace cs r) (hr : ∀ name, r ≠ .error (.base name))
    (h : Reported t (⟨.clock, reading⟩ :: ⟨.connect .primary name deadline, .ok ()⟩ :: (es ++ ⟨.clock, later⟩ :: cs))
      tr' result) : Disciplined t tr' result ↔ ¬ Interrupted tr' := by
  obtain ⟨hs, rest, rfl, hrest, hlength, hattempts, hconfirmed⟩ := h
  have hclock : Talk .primary deadline 0 True [⟨.clock, later⟩] := by
    refine ⟨fun e he => .inl ?_, Nat.le_refl _, fun h => absurd trivial h⟩
    rw [List.mem_singleton.mp he]
  have htalk := hes.append hclock fun h => h
  have hfirst : Life .primary (⟨.connect .primary name deadline, .ok ()⟩ :: (es ++ ⟨.clock, later⟩ :: cs)) := by
    have hlife := Life.cancelled name htalk hcs
    simpa only [List.cons_append, List.append_assoc, List.nil_append] using hlife
  refine iff_of_true (disciplined_of_life hfirst hrest hattempts hlength hconfirmed) fun hinterrupted => ?_
  have hbefore : ∀ e ∈ (⟨.clock, reading⟩ :: ⟨.connect .primary name deadline, .ok ()⟩ :: (es ++ [⟨.clock, later⟩]) :
      List PipeEvent), e.op ≠ .cancelPending .primary := by
    intro e he
    rcases List.mem_cons.mp he with rfl | he
    · exact fun h => by cases h
    · rcases List.mem_cons.mp he with rfl | he
      · exact fun h => by cases h
      · exact htalk.not_cancel e he
  have hiff := interrupted_iff hcs hbefore (Reported.attempts_off hattempts hrest).not_cancel
  simp only [List.cons_append, List.append_assoc, List.nil_append] at hiff hinterrupted
  obtain ⟨name, hbase⟩ := hiff.mp hinterrupted
  exact hr name hbase

/-- The `finally` closes the handle a second time. -/
theorem disciplined_iff_of_interrupted {name base : String} {later grace : ℚ} {a : Except Raised Unit}
    (hes : Talk .primary deadline 1 True es) (hcs : WaitClose .primary grace cs (.error (.base base)))
    (htr : tr' = ⟨.clock, reading⟩ :: ⟨.connect .primary name deadline, .ok ()⟩ ::
      (es ++ ⟨.clock, later⟩ :: (cs ++ [⟨.close .primary, a⟩]))) :
    Disciplined t tr' result ↔ ¬ Interrupted tr' := by
  refine iff_of_false (fun h => ?_) (not_not.mpr ?_)
  · have hclosed := (h.handled .primary).closed
    obtain ⟨hopens, hcloses⟩ := hes.countP_eq
    obtain ⟨hopens', hcloses', -⟩ := hcs.countP_eq
    have hclock : PipeEvent.opens .primary ⟨.clock, later⟩ = false ∧
        PipeEvent.opens .primary ⟨.clock, reading⟩ = false := ⟨rfl, rfl⟩
    have hclock' : PipeEvent.closes .primary ⟨.clock, later⟩ = false ∧
        PipeEvent.closes .primary ⟨.clock, reading⟩ = false := ⟨rfl, rfl⟩
    rw [htr] at hclosed
    simp [hopens, hcloses, hopens', hcloses', hclock, hclock'] at hclosed
  · exact ⟨⟨.clock, reading⟩ :: ⟨.connect .primary name deadline, .ok ()⟩ :: (es ++ [⟨.clock, later⟩]), cs,
      [⟨.close .primary, a⟩], grace, base, by rw [htr]; simp, hcs⟩

end

/-- Every run of a request keeps to what is said of its handles, its attempts and its report just when cancelling its
own handle does not come to what is no `Exception`. -/
theorem request_disciplined_iff (t : NamedPipeTransport) (envelope : PipeResponse) (timeoutSeconds : ℚ) :
    Prog.Ends (fun _ _ => True) (t.request envelope timeoutSeconds) [] fun tr r =>
      Disciplined t tr r ↔ ¬ Interrupted tr := by
  have hnone {error : Raised} : Disciplined t [] (.error (.raised error)) ↔ ¬ Interrupted [] := by
    have hdisciplined : Disciplined t [] (.error (.raised error)) :=
      ⟨fun h => Off.handled fun e he => (List.not_mem_nil he).elim, Nat.zero_le _, fun d h => by cases h⟩
    refine iff_of_true hdisciplined ?_
    exact not_interrupted_of_forall fun e he => (List.not_mem_nil he).elim
  have hraised {error : Raised} (details : NamedPipeTransport.TimeoutDetails) :
      (.error (.raised error) : Except NamedPipeTransport.RequestError PipeResponse) ≠ .error (.timedOut details) := by
    intro h
    cases h
  have hrefused {name : String} {deadline : ℚ} (e : Raised) :
      ∀ c ∈ [(⟨.connect .primary name deadline, .error e⟩ : PipeEvent)], c.op ≠ .cancelPending .primary := by
    intro c hc
    rw [List.mem_singleton.mp hc]
    exact fun h => by cases h
  unfold NamedPipeTransport.request
  simp only [Prog.ends_bind, Prog.ends_ite]
  refine ⟨fun _ => hnone, fun _ => ?_⟩
  split
  · next requestId hrequest =>
    simp only [Prog.ends_ite, Prog.ends_bind]
    refine ⟨fun _ => hnone, fun _ => ⟨fun _ => hnone, fun _ => ?_⟩⟩
    rw [ends_uncaught, ends_lift]
    cases t.encodeChecked envelope with
    | error e => exact hnone
    | ok requestFrame =>
        simp only [Except.mapError]
        unfold clock
        rw [ends_uncaught, ends_callPipe]
        intro reading
        simp only [Except.mapError]
        rw [ends_caught, ends_callPipe]
        intro connected
        rcases connected with (_ | ⟨name, isValueOrTypeError⟩ | name) | u
        · apply (ends_reportDeadline t envelope requestId timeoutSeconds _ _ _).mono
          exact fun tr' r h => disciplined_iff_of_calm (.refused _ _ _) (hrefused _) h
        · exact disciplined_iff_of_calm (.refused _ _ _) (hrefused _) (.nil hraised)
        · exact disciplined_iff_of_calm (.refused _ _ _) (hrefused _) (.nil hraised)
        · simp only [id]
          rw [Prog.ends_bind, ends_caught]
          apply (TalksFor.exchange t requestFrame requestId _ _).mono
          rintro _ r ⟨es, rfl, hes⟩
          -- Unless the deadline passed, the `finally` closes the handle.
          have hclosing {outcome : Except Raised PipeResponse} (hr : ∀ stage, r ≠ .error (stage, .deadline)) :
              Prog.Ends (fun _ _ => True) (NamedPipeTransport.uncaught (NamedPipeTransport.closing .primary outcome))
                ([] ++ [⟨.clock, reading⟩] ++
                  [⟨.connect .primary t.pipeName (reading + timeoutSeconds), .ok u⟩] ++ es)
                fun tr r => Disciplined t tr r ↔ ¬ Interrupted tr := by
            have hcalm : Talk .primary (reading + timeoutSeconds) 1 False es := by
              refine hes.mono ?_ (Nat.le_refl 1)
              rintro ⟨⟨stage, e⟩, heq, rfl⟩
              exact hr stage heq
            rw [ends_uncaught]
            apply (ends_closing .primary _ outcome).mono
            rintro _ r' ⟨a, rfl, rfl⟩
            refine @disciplined_iff_of_calm _ _ reading _ _ (.closed t.pipeName hcalm a) ?_ ?_
            · intro e he
              rcases List.mem_append.mp he with he | he
              · rcases List.mem_cons.mp he with rfl | he
                · exact fun h => by cases h
                · exact hcalm.not_cancel e he
              · rw [List.mem_singleton.mp he]
                exact fun h => by cases h
            · refine .nil fun details h => ?_
              cases a <;> cases outcome <;> cases h
          rcases r with ⟨stage, _ | ⟨name, isValueOrTypeError⟩ | name⟩ | response
          · have hpassed := hes.mono (fun _ => trivial) (Nat.le_refl 1)
            simp only
            rw [Prog.ends_bind, ends_uncaught]
            apply (ends_cancelPrimary t _).mono
            rintro tr' r ⟨later, cs, outcome, hcs, ⟨hother, rfl, p, rfl⟩ | ⟨⟨base, rfl⟩, a, e, htr, rfl⟩⟩
            · apply (ends_reportDeadline t envelope requestId timeoutSeconds _ _ _).mono
              intro tr' r h
              have hreport : Reported t (⟨.clock, reading⟩ ::
                  ⟨.connect .primary t.pipeName (reading + timeoutSeconds), .ok u⟩ :: (es ++ ⟨.clock, later⟩ :: cs))
                  tr' r := by
                simpa using h
              exact disciplined_iff_of_cancelled hpassed hcs hother hreport
            · have htr' : tr' = ⟨.clock, reading⟩ ::
                  ⟨.connect .primary t.pipeName (reading + timeoutSeconds), .ok u⟩ ::
                    (es ++ ⟨.clock, later⟩ :: (cs ++ [⟨.close .primary, a⟩])) := by
                simpa using htr
              exact disciplined_iff_of_interrupted hpassed hcs htr'
          · exact hclosing fun stage h => by cases h
          · exact hclosing fun stage h => by cases h
          · exact hclosing fun stage h => by cases h
  · exact hnone

/-! ## An interrupted cancellation -/

section
variable {ε α δ : Type} {world : Prog.World PipeSig} {tr : List PipeEvent}

theorem exec_callPipe (o : PipeOp) (read : PipeSig.Res o → Except Raised α) :
    Prog.exec world (callPipe o read) tr = (tr ++ [⟨o, world tr o⟩], read (world tr o)) := rfl

theorem exec_lift (e : Except ε α) : Prog.exec world (liftM e : ExceptT ε (Prog PipeSig) α) tr = (tr, e) := rfl

theorem exec_caught (m : ExceptT δ (Prog PipeSig) α) :
    Prog.exec world (caught m : ExceptT ε (Prog PipeSig) _) tr =
      ((Prog.exec world m tr).1, .ok (Prog.exec world m tr).2) := by
  simp only [Prog.exec, caught, ExceptT.run_mk, Prog.runWith_bind]
  rfl

theorem exec_mapError (m : PipeM α) (f : Raised → ε) :
    Prog.exec world (ExceptT.mk (m.run >>= fun r => pure (r.mapError f)) : ExceptT ε (Prog PipeSig) α) tr =
      ((Prog.exec world m tr).1, (Prog.exec world m tr).2.mapError f) := by
  simp only [Prog.exec, ExceptT.run_mk, Prog.runWith_bind]
  rfl

theorem exec_uncaught (m : PipeM α) : Prog.exec world (NamedPipeTransport.uncaught m) tr =
    ((Prog.exec world m tr).1, (Prog.exec world m tr).2.mapError .raised) := exec_mapError m _

theorem exec_atStage (stage : NamedPipeTransport.TransportStage) (m : PipeM α) :
    Prog.exec world (NamedPipeTransport.atStage stage m) tr =
      ((Prog.exec world m tr).1, (Prog.exec world m tr).2.mapError fun error => (stage, error)) := exec_mapError m _

end

/-- A driver whose reads run into the deadline, and that is interrupted when it cancels. -/
def interruptedDriver : Prog.World PipeSig := fun _ o =>
  match o with
  | .clock => (0 : ℚ)
  | .connect _ _ _ => .ok ()
  | .serverProcessId _ => none
  | .write _ _ _ => .ok ()
  | .readExact _ _ _ => .error .deadline
  | .cancelPending _ => .error (.base "KeyboardInterrupt")
  | .waitPendingTerminal _ _ => .ok ()
  | .close _ => .ok ()
  | .requestId => .ok "cancel_1"
  | .uuid4 => ""
  | .sleep _ => .ok ()

def statusEnvelope : PipeResponse :=
  [("schema_version", .str schemaVersion), ("method", .str "get_document_status"), ("request_id", .str "req_1")]

def exampleTransport : NamedPipeTransport where
  pipeName := "\\\\.\\pipe\\cad"
  cancellationGraceSeconds := 2
  cancellationRetrySeconds := 1 / 20
  maxFrameBytes := Ipc.maxFrameBytes
  loads := fun _ => .error .valueError
  grace_pos := by norm_num
  retry_pos := by norm_num
  maxFrameBytes_le := by decide

theorem encodeChecked_statusEnvelope : ∃ frame, exampleTransport.encodeChecked statusEnvelope = .ok frame := by
  have hleaf (s : String) : Sendable 1 (.str s) :=
    sendable_iff.mpr ⟨⟨by decide, by simp⟩, by simp [Json.children]⟩
  have hsendable : Sendable 0 (.obj statusEnvelope) := by
    refine sendable_iff.mpr ⟨⟨by decide, by simp⟩, fun c hc => ?_⟩
    simp only [Json.children, statusEnvelope, List.map_cons, List.map_nil, List.mem_cons, List.not_mem_nil,
      or_false] at hc
    rcases hc with rfl | rfl | rfl <;> exact hleaf _
  have hframe := encodeFrame_of_sendable hsendable rfl (by decide +kernel)
  unfold NamedPipeTransport.encodeChecked
  rw [hframe]
  exact ⟨_, if_neg (by decide +kernel)⟩

/-- The handle of the interrupted request is closed twice. -/
theorem interruptedDriver_closes_twice :
    ((Prog.exec interruptedDriver (exampleTransport.request statusEnvelope 1) []).1.countP
        (PipeEvent.closes .primary) = 2) ∧
      ¬ Disciplined exampleTransport (Prog.exec interruptedDriver (exampleTransport.request statusEnvelope 1) []).1
        (Prog.exec interruptedDriver (exampleTransport.request statusEnvelope 1) []).2 := by
  obtain ⟨frame, hframe⟩ := encodeChecked_statusEnvelope
  have htrace : (Prog.exec interruptedDriver (exampleTransport.request statusEnvelope 1) []).1 =
      [⟨.clock, (0 : ℚ)⟩, ⟨.connect .primary exampleTransport.pipeName (0 + 1), .ok ()⟩,
        ⟨.serverProcessId .primary, none⟩, ⟨.clock, (0 : ℚ)⟩, ⟨.write .primary frame (0 + 1), .ok ()⟩,
        ⟨.clock, (0 : ℚ)⟩, ⟨.readExact .primary 4 (0 + 1), .error .deadline⟩, ⟨.clock, (0 : ℚ)⟩,
        ⟨.cancelPending .primary, .error (.base "KeyboardInterrupt")⟩, ⟨.close .primary, .ok ()⟩,
        ⟨.close .primary, .ok ()⟩] := by
    have hid : statusEnvelope.lookup "request_id" = some (.str "req_1") := by rfl
    have hschema : isText schemaVersion (statusEnvelope.lookup "schema_version") = true := by rfl
    unfold NamedPipeTransport.request
    rw [if_neg (by norm_num), hid]
    simp only [hschema]
    rw [if_neg (by decide), if_neg (by decide), hframe]
    have hcheck (tr : List PipeEvent) : Prog.exec interruptedDriver (NamedPipeTransport.checkDeadline 1) tr =
        (tr ++ [⟨.clock, (0 : ℚ)⟩], .ok ()) := by
      have hlate : ¬ 1 < (0 : ℚ) := by norm_num
      have hstep : Prog.exec interruptedDriver (NamedPipeTransport.checkDeadline 1) tr =
          Prog.exec interruptedDriver (if 1 < (0 : ℚ) then throw .deadline else pure ())
            (tr ++ [⟨.clock, (0 : ℚ)⟩]) := rfl
      rw [hstep, if_neg hlate, Prog.exec_pure]
    have hclock (tr : List PipeEvent) : Prog.exec interruptedDriver clock tr = (tr ++ [⟨.clock, (0 : ℚ)⟩], .ok 0) := rfl
    simp [Prog.exec_bind, exec_callPipe, exec_caught, exec_uncaught, exec_lift, exec_atStage, hclock, hcheck,
      Except.mapError, NamedPipeTransport.exchange, NamedPipeTransport.readServerProcessId,
      NamedPipeTransport.readResponse, NamedPipeTransport.cancelPrimary, NamedPipeTransport.cancelWaitClose,
      NamedPipeTransport.closing, interruptedDriver]
  have hcount : (Prog.exec interruptedDriver (exampleTransport.request statusEnvelope 1) []).1.countP
      (PipeEvent.closes .primary) = 2 := by
    rw [htrace]
    rfl
  refine ⟨hcount, fun h => ?_⟩
  have hclosed := (h.handled .primary).closed
  have hopened := (h.handled .primary).opened
  rw [hcount] at hclosed
  omega

end CadHarness.Ipc
