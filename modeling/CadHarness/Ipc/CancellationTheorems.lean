import CadHarness.Ipc.Lemmas.Cancellation

/-!
# Cancellation

A cancel request is answered with a terminal result only when its target has come to an end, and a request
that finds a cancellation waiting for it is never handled.
-/

namespace CadHarness.Ipc
open CadHarness.Lib

namespace Processor

variable {S S' : Processor} {a : ProcessorEvent} {tr : List ProcessorEvent} {n : Nat} {r : String} {e : Nat}

/-! ## What lasts -/

/-- A call stays in its phase or goes on to a next one. -/
theorem Step.calls {ph : Phase} (hs : Processor.Step S a S') (hn : S.calls n = some ph) :
    ∃ ph', S'.calls n = some ph' ∧ (ph' = ph ∨ ph.Next ph') := by
  have hupdate : ∀ {m : Nat} {ph₀ ph₁ : Phase}, S.calls m = some ph₀ → ph₀.Next ph₁ →
      ∃ ph', Function.update S.calls m (some ph₁) n = some ph' ∧ (ph' = ph ∨ ph.Next ph') := by
    intro m ph₀ ph₁ hm hnext
    rw [Function.update_apply]
    split
    · subst n
      cases hn.symm.trans hm
      exact ⟨ph₁, rfl, .inr hnext⟩
    · exact ⟨ph, hn, .inl rfl⟩
  cases hs with
  | @requested m request hm =>
      refine ⟨ph, ?_, .inl rfl⟩
      have hne : n ≠ m := by
        rintro rfl
        cases hn.symm.trans hm
      rw [← hn]
      exact Function.update_of_ne hne _ _
  | invoked hm _ => exact hupdate hm .invoked
  | notInvoked hm _ => exact hupdate hm .notInvoked
  | terminated hm => exact hupdate hm .terminated
  | completed hm => exact hupdate hm .completed
  | awaited hm _ => exact hupdate hm .replied
  | abandoned hm => exact hupdate hm .replied
  | cancel | fired => exact ⟨ph, hn, .inl rfl⟩

theorem Owns.run (h : S.Owns n r e) (hr : processorSystem.Run S tr S') : S'.Owns n r e := by
  refine hr.invariant (I := fun T => T.Owns n r e) h ?_
  rintro T b T' ⟨ph, hn, he⟩ hs
  obtain ⟨ph', hn', rfl | hnext⟩ := Step.calls hs hn
  · exact ⟨ph', hn', he⟩
  · exact ⟨ph', hn', hnext.entry?.trans he⟩

/-- A completed call stays completed, and its handler is not invoked any more. -/
theorem completed_run {response : Response} (h : S.calls n = some (.completed r e response))
    (hr : processorSystem.Run S tr S') : S'.calls n = some (.completed r e response) ∧ .invoked n ∉ tr := by
  refine hr.induct (I := fun tr T => T.calls n = some (.completed r e response) ∧ .invoked n ∉ tr) ⟨h, nofun⟩ ?_
  rintro tr T b T' - ⟨hn, htr⟩ hs
  constructor
  · obtain ⟨ph', hn', rfl | hnext⟩ := Step.calls hs hn
    · exact hn'
    · cases hnext
  · intro hmem
    rcases List.mem_append.mp hmem with hold | hnew
    · exact htr hold
    · rw [List.mem_singleton] at hnew
      subst hnew
      cases hs with
      | invoked hn' _ => cases hn.symm.trans hn'

/-- A waiting call waits for the same target until it is answered. -/
theorem Waits.run {target : String} {t : Terminal} (h : S.Waits n target t) (hr : processorSystem.Run S tr S') :
    S'.Waits n target t ∨ ∃ response, S'.calls n = some (.answered response) := by
  refine hr.invariant (I := fun T => T.Waits n target t ∨ ∃ response, T.calls n = some (.answered response))
    (.inl h) ?_
  rintro T b T' (⟨r, hn⟩ | ⟨response, hn⟩) hs
  · obtain ⟨ph', hn', rfl | hnext⟩ := Step.calls hs hn
    · exact .inl ⟨r, hn'⟩
    · cases hnext
      exact .inr ⟨_, hn'⟩
  · obtain ⟨ph', hn', rfl | hnext⟩ := Step.calls hs hn
    · exact .inr ⟨response, hn'⟩
    · cases hnext

/-- An entry keeps the pending cancellation that it was made with. -/
theorem Step.entry (hs : Processor.Step S a S') {entry : RequestEntry} (he : S.registry.entries[e]? = some entry) :
    ∃ entry' : RequestEntry, S'.registry.entries[e]? = some entry' ∧
      entry'.pendingCancellation = entry.pendingCancellation := by
  have hcancel : ∀ i, ∃ entry' : RequestEntry, (S.registry.cancelEntry i).entries[e]? = some entry' ∧
      entry'.pendingCancellation = entry.pendingCancellation := by
    grind [RequestCancellationRegistry.cancelEntry]
  cases hs with
  | @requested m request hm =>
      have hreceives := S.registry.processRequest_receives request
      generalize processRequest S.registry request = received at hreceives
      obtain ⟨ph, g⟩ := received
      cases hreceives with
      | refused | waitsPending | pends => exact ⟨entry, he, rfl⟩
      | waitsActive => exact hcancel _
      | registered | bound =>
          refine ⟨entry, ?_, rfl⟩
          exact (List.getElem?_append_left (List.getElem?_eq_some_iff.mp he).1).trans he
  | completed hm =>
      grind [RequestCancellationRegistry.complete, RequestCancellationRegistry.completeEntry]
  | @cancel r =>
      unfold RequestCancellationRegistry.tryCancel
      split
      · split
        · exact hcancel _
        · exact ⟨entry, he, rfl⟩
      · exact ⟨entry, he, rfl⟩
  | fired =>
      refine ⟨entry, ?_, rfl⟩
      unfold RequestCancellationRegistry.expire
      split <;> exact he
  | _ => exact ⟨entry, he, rfl⟩

theorem entry_run {p? : Option Nat} (hr : processorSystem.Run S tr S')
    (he : ∃ entry : RequestEntry, S.registry.entries[e]? = some entry ∧ entry.pendingCancellation = p?) :
    ∃ entry : RequestEntry, S'.registry.entries[e]? = some entry ∧ entry.pendingCancellation = p? := by
  refine hr.invariant (I := fun T => ∃ entry : RequestEntry, T.registry.entries[e]? = some entry ∧
    entry.pendingCancellation = p?) he ?_
  rintro T b T' ⟨entry, hi, hp⟩ hs
  obtain ⟨entry', hi', hp'⟩ := Step.entry hs hi
  exact ⟨entry', hi', hp'.trans hp⟩

/-- A handler runs until it terminates. -/
theorem Step.handles (hs : Processor.Step S a S') (h : S.Handles n) : S'.Handles n ∨ a = .terminated n := by
  obtain ⟨r, e, hn⟩ := h
  have hupdate : ∀ {m : Nat} {ph₁ : Phase}, m ≠ n → ∃ r e, Function.update S.calls m (some ph₁) n = some (.handling r e) :=
    fun hne => ⟨r, e, (Function.update_of_ne hne.symm _ _).trans hn⟩
  have hother : ∀ {m : Nat} {ph₀ : Phase}, S.calls m = some ph₀ → ph₀ ≠ .handling r e → m ≠ n := by
    rintro m ph₀ hm hne rfl
    exact hne (Option.some.inj (hm.symm.trans hn))
  cases hs with
  | @requested m request hm =>
      refine .inl (hupdate ?_)
      rintro rfl
      cases hm.symm.trans hn
  | invoked hm _ => exact .inl (hupdate (hother hm nofun))
  | notInvoked hm _ => exact .inl (hupdate (hother hm nofun))
  | @terminated m _ _ _ _ hm =>
      by_cases hmn : m = n
      · exact .inr (congrArg _ hmn)
      · exact .inl (hupdate hmn)
  | completed hm => exact .inl (hupdate (hother hm nofun))
  | awaited hm _ => exact .inl (hupdate (hother hm nofun))
  | abandoned hm => exact .inl (hupdate (hother hm nofun))
  | cancel | fired => exact .inl ⟨r, e, hn⟩

/-- A handler that was invoked runs or has terminated. -/
theorem invoked_run (hr : processorSystem.Run {} tr S) (h : .invoked n ∈ tr) :
    S.Handles n ∨ .terminated n ∈ tr := by
  refine hr.induct (I := fun tr T => .invoked n ∈ tr → T.Handles n ∨ .terminated n ∈ tr) nofun ?_ h
  intro tr T b T' _ ih hs hmem
  by_cases hb : b = .invoked n
  · subst hb
    cases hs with
    | @invoked _ r e hn _ => exact .inl ⟨r, e, Function.update_self ..⟩
  · have hold : .invoked n ∈ tr := by simpa [Ne.symm hb] using hmem
    rcases ih hold with hhandles | hterm
    · rcases Step.handles hs hhandles with hhandles' | rfl
      · exact .inl hhandles'
      · exact .inr (List.mem_append_right _ (List.mem_singleton_self _))
    · exact .inr (List.mem_append_left _ hterm)

/-! ## The parts of the claim -/

/-- A call that was bound to a waiting cancellation is never handled. -/
theorem bound_run {p : Nat} (h : S.Invariant) (howns : S.Owns n r e)
    (he : ∃ entry : RequestEntry, S.registry.entries[e]? = some entry ∧ entry.pendingCancellation = some p)
    (hr : processorSystem.Run S tr S') : .invoked n ∉ tr := by
  refine hr.induct (I := fun tr _ => .invoked n ∉ tr) nofun ?_
  intro tr T b T' hrun ih hs hmem
  rcases List.mem_append.mp hmem with hold | hnew
  · exact ih hold
  rw [List.mem_singleton] at hnew
  subst hnew
  cases hs with
  | @invoked _ r' e' hn hc =>
      obtain ⟨entry, hi, hp⟩ := entry_run hrun he
      have hT := howns.run hrun
      obtain ⟨hcancelled, -⟩ := (h.run hrun).bound n r e entry p hT hi hp
      rw [owns_of_calls hn] at hT
      cases hT
      simp [RequestCancellationRegistry.cancelled, hi, hcancelled] at hc

/-- The call that a cancel request has waited for since it was received. -/
theorem Waits.completed {target : String} {t : Terminal} {S₂ S₃ : Processor} (h : S₂.Invariant) (hnew : match t with
      | .entry e => S₂.registry.active.lookup target = some e
      | .pending p => S₂.registry.pending.lookup target = some p)
    (hr : processorSystem.Run S₂ tr S₃) (hwaits' : S₃.Waits n target t)
    (hresult : S₃.registry.result? t = some true) :
    ∃ m e response, (∀ r' e' response', S₂.calls m ≠ some (.completed r' e' response')) ∧
      S₃.calls m = some (.completed target e response) := by
  have h₃ := h.run hr
  -- the owner of a terminal entry has completed
  have howner : ∀ {m e} {entry : RequestEntry}, S₃.Owns m target e → S₃.registry.entries[e]? = some entry →
      entry.terminal = true → ∃ response, S₃.calls m = some (.completed target e response) := by
    intro m e entry hm hi ht
    obtain ⟨entry', hi', hterm⟩ := h₃.owned m target e hm
    cases hi.symm.trans hi'
    have hnot := hterm.mp ht
    obtain ⟨ph, hn, he⟩ := hm
    cases ph <;> cases he
    · exact absurd ⟨_, hn, rfl, rfl⟩ hnot
    · exact absurd ⟨_, hn, rfl, rfl⟩ hnot
    · exact absurd ⟨_, hn, rfl, rfl⟩ hnot
    · exact ⟨_, hn⟩
  cases t with
  | entry e =>
      obtain ⟨m, hm⟩ := (h.active target e).mp hnew
      obtain ⟨entry, hi, -⟩ := h₃.owned m target e (hm.owns.run hr)
      have ht : entry.terminal = true := by
        simpa [RequestCancellationRegistry.result?, hi] using hresult
      obtain ⟨response, hm₃⟩ := howner (hm.owns.run hr) hi ht
      refine ⟨m, e, response, ?_, hm₃⟩
      intro r' e' response' hm₂
      obtain ⟨ph, hph, -, hactive⟩ := hm
      cases hm₂.symm.trans hph
      cases hactive
  | pending p =>
      obtain ⟨x, hx, hxr⟩ := h₃.waitsPending n target p hwaits'
      have ht : x.terminal = some true := by
        simpa [RequestCancellationRegistry.result?, hx] using hresult
      obtain ⟨e, entry, hi, hpc, hterm⟩ := h₃.result p x hx ht
      obtain ⟨m, r, hm⟩ := h₃.owner e entry hi
      obtain ⟨-, -, y, hy, hyr, -⟩ := h₃.bound m r e entry p hm hi hpc
      cases hx.symm.trans hy
      obtain rfl : r = target := hyr.symm.trans hxr
      obtain ⟨response, hm₃⟩ := howner hm hi hterm
      refine ⟨m, e, response, ?_, hm₃⟩
      intro r' e' response' hm₂
      -- its entry would be bound to a cancellation that still waits
      have hm₂ : S₂.Owns m r' e' := ⟨_, hm₂, rfl⟩
      obtain ⟨ph, hph, hpe⟩ := hm₂.run hr
      obtain ⟨ph', hph', hpe'⟩ := hm
      cases hph.symm.trans hph'
      cases hpe.symm.trans hpe'
      obtain ⟨entry₂, hi₂, -⟩ := h.owned m r e hm₂
      obtain ⟨entry₃, hi₃, hpc₃⟩ := entry_run hr ⟨entry₂, hi₂, Eq.refl entry₂.pendingCancellation⟩
      cases hi.symm.trans hi₃
      obtain ⟨-, -, z, hz, -, hzb⟩ := h.bound m r e entry₂ p hm₂ hi₂ (hpc₃.symm.trans hpc)
      obtain ⟨z', hz', -, hzb', -⟩ := h.pending r p hnew
      cases hz.symm.trans hz'
      cases hzb.symm.trans hzb'

/-- What a cancel request waits for when it is received. -/
theorem requested_waits {S₁ S₂ : Processor} {request : Request} (hs : Processor.Step S₁ (.requested n request) S₂) :
    (∃ target t, S₂.Waits n target t ∧ match t with
      | .entry e => S₂.registry.active.lookup target = some e
      | .pending p => S₂.registry.pending.lookup target = some p) ∨
    (∃ r e, S₂.Owns n r e) ∨ ∃ response, S₂.calls n = some (.answered response) := by
  cases hs with
  | requested hn =>
      have hreceives := S₁.registry.processRequest_receives request
      generalize processRequest S₁.registry request = received at hreceives
      obtain ⟨ph, g⟩ := received
      cases hreceives with
      | refused => exact .inr (.inr ⟨_, Function.update_self ..⟩)
      | registered | bound => exact .inr (.inl ⟨_, _, _, Function.update_self .., rfl⟩)
      | @waitsActive r target e ha => exact .inl ⟨target, .entry e, ⟨r, Function.update_self ..⟩, ha⟩
      | @waitsPending r target p ha hp => exact .inl ⟨target, .pending p, ⟨r, Function.update_self ..⟩, hp⟩
      | @pends r target ha hp hlt =>
          refine .inl ⟨target, .pending _, ⟨r, Function.update_self ..⟩, ?_⟩
          exact Assoc.lookup_set_self _ _ _

/-- The entry of a request that found a cancellation waiting for it. -/
theorem requested_bound {S₁ S₂ : Processor} {request : Request} {p : Nat}
    (hs : Processor.Step S₁ (.requested n request) S₂) (hmethod : request.method ≠ "cancel")
    (ha : S₁.registry.active.lookup request.requestId = none)
    (hp : S₁.registry.pending.lookup request.requestId = some p) :
    ∃ e, S₂.Owns n request.requestId e ∧
      ∃ entry : RequestEntry, S₂.registry.entries[e]? = some entry ∧ entry.pendingCancellation = some p := by
  cases hs with
  | requested hn =>
      have hreceived : processRequest S₁.registry request = (.registered request.requestId S₁.registry.entries.length,
          (S₁.registry.bindPending request.requestId p).addEntry request.requestId (some p)) := by
        simp [processRequest, hmethod, RequestCancellationRegistry.tryRegister, ha, hp]
      rw [hreceived]
      refine ⟨_, ⟨_, Function.update_self .., rfl⟩, ⟨some p, true, false⟩, ?_, rfl⟩
      simp [RequestCancellationRegistry.addEntry, RequestCancellationRegistry.bindPending]

/-- Whatever the order of requests, cancellations, completions and timers: no two calls hold the same id, the
waiting cancellations are bounded, a request bound to one is never handled, and a cancel request whose reply is
terminal was followed by the completion of a registration of its target, whose handler has terminated or was
not and will not be invoked. -/
theorem cancellation_terminal {tr₁ : List ProcessorEvent} {S₁ : Processor} (hr₁ : processorSystem.Run {} tr₁ S₁) :
    (∀ n n' r e e', S₁.Holds n r e → S₁.Holds n' r e' → n = n') ∧
      S₁.registry.pending.length ≤ maximumPendingCancellations ∧
      (∀ n request p S₂ tr₂ S₃, Processor.Step S₁ (.requested n request) S₂ → request.method ≠ "cancel" →
        S₁.registry.active.lookup request.requestId = none →
        S₁.registry.pending.lookup request.requestId = some p → processorSystem.Run S₂ tr₂ S₃ →
        .invoked n ∉ tr₂) ∧
      ∀ n request S₂ tr₂ S₃ id data S₄, Processor.Step S₁ (.requested n request) S₂ →
        processorSystem.Run S₂ tr₂ S₃ → Processor.Step S₃ (.replied n (.success id data)) S₄ →
        ∃ target m e response, data = [("cancelled_request_id", .str target), ("terminal", .bool true)] ∧
          (∀ r' e' response', S₂.calls m ≠ some (.completed r' e' response')) ∧
          S₃.calls m = some (.completed target e response) ∧
          (.invoked m ∈ tr₁ ++ .requested n request :: tr₂ → .terminated m ∈ tr₁ ++ .requested n request :: tr₂) ∧
          ∀ tr₃ S, processorSystem.Run S₃ tr₃ S → .invoked m ∉ tr₃ := by
  have h₁ := Invariant.empty.run hr₁
  refine ⟨?_, h₁.bounded, ?_, ?_⟩
  · intro n n' r e e' hn hn'
    have hee : e = e' := Option.some.inj (((h₁.active r e).mpr ⟨n, hn⟩).symm.trans ((h₁.active r e').mpr ⟨n', hn'⟩))
    subst hee
    exact h₁.unique n n' r r e hn.owns hn'.owns
  · intro n request p S₂ tr₂ S₃ hs hmethod ha hp hr₂
    obtain ⟨e, howns, he⟩ := requested_bound hs hmethod ha hp
    exact bound_run (h₁.step hs) howns he hr₂
  · intro n request S₂ tr₂ S₃ id data S₄ hs hr₂ hreply
    have h₂ := h₁.step hs
    generalize hresponse : Response.success id data = response at hreply
    cases hreply with
    | abandoned => cases hresponse
    | @awaited _ r target t result hn₃ hresult =>
        cases result with
        | false => cases hresponse
        | true =>
        cases hresponse
        rcases requested_waits hs with ⟨target', t', hwaits, hnew⟩ | ⟨r', e', howns⟩ | ⟨response, hn₂⟩
        · rcases hwaits.run hr₂ with ⟨r', hn₃'⟩ | ⟨response, hn₃'⟩
          · cases hn₃.symm.trans hn₃'
            obtain ⟨m, e, response, hm₂, hm₃⟩ := Waits.completed h₂ hnew hr₂ ⟨_, hn₃⟩ hresult
            refine ⟨target, m, e, response, rfl, hm₂, hm₃, ?_, fun tr₃ S hr₃ => (completed_run hm₃ hr₃).2⟩
            intro hinvoked
            have hr : processorSystem.Run {} (tr₁ ++ .requested n request :: tr₂) S₃ := hr₁.append (.cons hs hr₂)
            rcases invoked_run hr hinvoked with ⟨_, _, hhandles⟩ | hterm
            · cases hm₃.symm.trans hhandles
            · exact hterm
          · cases hn₃.symm.trans hn₃'
        · obtain ⟨ph, hn₃', he⟩ := howns.run hr₂
          cases hn₃.symm.trans hn₃'
          cases he
        · have hstays : S₃.calls n = some (.answered response) := by
            refine hr₂.invariant (I := fun T => T.calls n = some (.answered response)) hn₂ ?_
            intro T b T' hn hstep
            obtain ⟨ph', hn', rfl | hnext⟩ := Step.calls hstep hn
            · exact hn'
            · cases hnext
          cases hn₃.symm.trans hstays

/-! ## A cancellation that comes before its request -/

def cancelRequest : Request := ⟨"c", "cancel", [("target_request_id", .str "r")]⟩

def targetRequest : Request := ⟨"r", "commit", []⟩

def receive (S : Processor) (n : Nat) (request : Request) : Processor :=
  S.goes n (processRequest S.registry request).1 (processRequest S.registry request).2

def cancelReceived : Processor := receive {} 0 cancelRequest

def targetReceived : Processor := cancelReceived.receive 1 targetRequest

def targetEnding : Processor := targetReceived.goes 1 (.ending "r" 0 (.timeout "r")) targetReceived.registry

def targetCompleted : Processor :=
  targetEnding.goes 1 (.completed "r" 0 (.timeout "r")) (targetEnding.registry.complete "r" 0)

theorem targetCompleted_run : processorSystem.Run cancelReceived
    [.requested 1 targetRequest, .notInvoked 1, .completed 1] targetCompleted := by
  refine .cons (.requested rfl) ?_
  refine .cons (@Processor.Step.notInvoked _ 1 _ _ false rfl rfl) ?_
  exact .single (.completed rfl)

theorem cancellation_terminal_bound :
    ∃ m e response, targetCompleted.calls m = some (.completed "r" e response) ∧
      ∀ tr₃ S, processorSystem.Run targetCompleted tr₃ S → .invoked m ∉ tr₃ := by
  have hreply : Processor.Step targetCompleted
      (.replied 0 (.success "c" [("cancelled_request_id", .str "r"), ("terminal", .bool true)]))
      (targetCompleted.goes 0 (.answered (cancellationResponse "c" "r" true)) targetCompleted.registry) :=
    @Processor.Step.awaited targetCompleted 0 "c" "r" (.pending 0) true rfl rfl
  obtain ⟨target, m, e, response, hdata, -, hm, -, hnever⟩ := (cancellation_terminal .nil).2.2.2 0 cancelRequest
    cancelReceived _ targetCompleted "c" _ _ (.requested rfl) targetCompleted_run hreply
  cases hdata
  exact ⟨m, e, response, hm, hnever⟩

end Processor

end CadHarness.Ipc
