import CadHarness.Persistence.Lemmas.Validity

/-!
# Writer leases exclude each other

Over every sequence of calls the two stores accept the same calls with the same leases, and the leases of
a document are never valid at once.
-/

namespace CadHarness.Persistence
open CadHarness.Lib CadHarness.Domain

def issued (calls : List (Time × LeaseCall)) : List String := calls.filterMap (fun c => c.2.newId?)

theorem issued_concat (calls : List (Time × LeaseCall)) (now : Time) (call : LeaseCall) :
    issued (calls ++ [(now, call)]) = call.mark (issued calls) := by
  rw [issued, List.filterMap_append, LeaseCall.mark]
  cases h : call.newId? <;> simp [h, issued]

namespace Admissible

variable {calls before after : List (Time × LeaseCall)} {now : Time} {call : LeaseCall}

theorem left (h : Admissible (before ++ after)) : Admissible before := by
  refine ⟨?_, ?_, fun c hc => h.ttl c (List.mem_append_left _ hc)⟩
  · exact (List.map_append ▸ h.ordered).sublist (List.sublist_append_left _ _)
  · exact h.fresh.sublist ((List.sublist_append_left _ _).filterMap _)

/-- The clock has not gone back at a call. -/
theorem past (h : Admissible (calls ++ [(now, call)])) : ∀ c ∈ calls, c.1 ≤ now := by
  intro c hc
  have hordered := h.ordered
  rw [List.map_append, List.pairwise_append] at hordered
  exact hordered.2.2 c.1 (List.mem_map_of_mem hc) now (List.mem_singleton_self now)

theorem promised (h : Admissible (calls ++ [(now, call)])) : call.Promised (issued calls) := by
  constructor
  · intro id hid hmem
    have hfresh : (issued (calls ++ [(now, call)])).Nodup := h.fresh
    rw [issued_concat, LeaseCall.mark, hid, List.nodup_append] at hfresh
    exact hfresh.2.2 id hmem id (List.mem_singleton_self id) rfl
  · intro ttl httl
    obtain ⟨settings, rfl⟩ := h.ttl (now, call) (List.mem_append_right _ (List.mem_singleton_self _)) ttl httl
    exact settings.ttl_pos

end Admissible

/-- Where both stores stand after the same calls. -/
structure Standing (calls : List (Time × LeaseCall)) (now : Time) : Prop where
  wf : (InMemoryLeaseStore.port.history calls).2.Wf (issued calls) now
  tracks : Tracks (InMemoryLeaseStore.port.history calls).2 (ledger (InMemoryLeaseStore.port.history calls).1)
    (issued calls) now
  same : SameLeases (InMemoryLeaseStore.port.history calls).2 (SqlLeaseStore.port.history calls).2
  accepted : InMemoryLeaseStore.port.accepted calls = SqlLeaseStore.port.accepted calls
  ledger : ledger (InMemoryLeaseStore.port.history calls).1 = ledger (SqlLeaseStore.port.history calls).1

theorem Standing.later {calls : List (Time × LeaseCall)} {now later : Time} (h : Standing calls now)
    (hle : now ≤ later) : Standing calls later :=
  { h with wf := h.wf.later hle, tracks := h.tracks.later hle }

theorem record_congr {entries : List Validity} {e e' : LeaseEvent} (hnow : e.now = e'.now)
    (hcall : e.call = e'.call) (hanswer : e.answer.toOption = e'.answer.toOption) :
    Validity.record entries e = Validity.record entries e' := by
  obtain ⟨now, call, answer⟩ := e
  obtain ⟨now', call', answer'⟩ := e'
  obtain rfl : now = now' := hnow
  obtain rfl : call = call' := hcall
  cases answer <;> cases answer' <;> cases hanswer <;> cases call <;> rfl

theorem standing_nil (now : Time) : Standing [] now :=
  ⟨InMemoryLeaseStore.wf_empty now, tracks_empty now, fun _ => iff_of_false nofun nofun, rfl, rfl⟩

/-- One call keeps both stores in step. -/
theorem Standing.call {calls : List (Time × LeaseCall)} {now : Time} {call : LeaseCall} (h : Standing calls now)
    (hcall : call.Promised (issued calls)) : Standing (calls ++ [(now, call)]) now := by
  obtain ⟨hanswer, hsame⟩ := h.same.call h.wf hcall
  constructor
  · rw [issued_concat, LeaseStore.history_concat]
    exact h.wf.call hcall
  · rw [issued_concat, LeaseStore.history_concat, ledger_concat]
    exact h.tracks.call h.wf hcall
  · rw [LeaseStore.history_concat, LeaseStore.history_concat]
    exact hsame
  · have haccepted := h.accepted
    unfold LeaseStore.accepted at haccepted ⊢
    rw [LeaseStore.history_concat, LeaseStore.history_concat, List.map_append, List.map_append, haccepted]
    simp only [List.map_cons, List.map_nil, hanswer]
  · rw [LeaseStore.history_concat, LeaseStore.history_concat, ledger_concat, ledger_concat, h.ledger]
    exact record_congr rfl rfl hanswer

/-- After every sequence of calls. -/
theorem standing {calls : List (Time × LeaseCall)} (h : Admissible calls) {now : Time}
    (hnow : ∀ c ∈ calls, c.1 ≤ now) : Standing calls now := by
  induction calls using List.reverseRecOn generalizing now with
  | nil => exact standing_nil now
  | append_singleton calls c ih =>
      obtain ⟨time, call⟩ := c
      have hbefore : Standing calls time := ih h.left h.past
      exact (hbefore.call h.promised).later
        (hnow (time, call) (List.mem_append_right _ (List.mem_singleton_self _)))

theorem Standing.disjoint {calls : List (Time × LeaseCall)} {now : Time} (h : Standing calls now) :
    (Persistence.ledger (InMemoryLeaseStore.port.history calls).1).Pairwise
      (fun v w => v.documentId = w.documentId → ∀ t, ¬ (v.At t ∧ w.At t)) := by
  refine h.tracks.order.imp (fun {v w} hvw hd t ht => ?_)
  have hstop := (hvw.2 hd).1
  exact absurd (ht.1.2.trans_le hstop) (not_lt.mpr ht.2.1)

/-- An entry that is over is not renewed in the dictionary, nor in the table. -/
theorem Standing.renewal {calls : List (Time × LeaseCall)} {now : Time} (h : Standing calls now) {v : Validity}
    (hv : v ∈ Persistence.ledger (InMemoryLeaseStore.port.history calls).1)
    (hover : v.Over (Persistence.ledger (InMemoryLeaseStore.port.history calls).1) now) (ttl : Time) :
    ((InMemoryLeaseStore.port.history calls).2.renew v.leaseId ttl now).1.isOk = false := by
  have hstop : v.stop ≤ now := by
    rcases hover with hstop | hreleased | ⟨w, hsub, hd⟩
    · exact hstop
    · exact h.tracks.released v hv hreleased
    · have hbefore := List.pairwise_iff_forall_sublist.mp h.tracks.order hsub
      have hw := hsub.subset (List.mem_cons_of_mem _ (List.mem_singleton_self w))
      exact (hbefore.2 hd.symm).1.trans (h.tracks.started w hw)
  obtain ⟨e, hres⟩ := h.tracks.renew_refused h.wf hv hstop ttl
  rw [hres]
  rfl

theorem isOk_eq_of_toOption {ε α : Type} {a b : Except ε α} (h : a.toOption = b.toOption) : a.isOk = b.isOk := by
  cases a <;> cases b <;> cases h <;> rfl

/-- Where both stores stand at a call in the middle. -/
theorem Admissible.at_call {before after : List (Time × LeaseCall)} {now : Time} {call : LeaseCall}
    (h : Admissible (before ++ (now, call) :: after)) : Standing before now ∧ call.Promised (issued before) := by
  have hleft : Admissible (before ++ [(now, call)]) := by
    rw [List.append_cons] at h
    exact h.left
  exact ⟨standing hleft.left hleft.past, hleft.promised⟩

/-- Both stores accept the same calls with the same leases, no two leases of a document are valid at once,
and a lease that is over is not renewed. -/
theorem lease_stores_agree_and_exclude {calls : List (Time × LeaseCall)} (h : Admissible calls) :
    InMemoryLeaseStore.port.accepted calls = SqlLeaseStore.port.accepted calls ∧
      InMemoryLeaseStore.port.Excludes calls ∧ SqlLeaseStore.port.Excludes calls := by
  have hlast : ∃ now, ∀ c ∈ calls, c.1 ≤ now :=
    ⟨(calls.map Prod.fst).foldr max 0, fun c hc => List.le_max_of_le' _ (List.mem_map_of_mem hc) (le_refl _)⟩
  obtain ⟨now, hnow⟩ := hlast
  have hend := standing h hnow
  refine ⟨hend.accepted, ⟨hend.disjoint, ?_⟩, ⟨hend.ledger ▸ hend.disjoint, ?_⟩⟩
  · rintro before time id ttl after rfl v hv rfl hover
    exact h.at_call.1.renewal hv hover ttl
  · rintro before time id ttl after rfl v hv rfl hover
    obtain ⟨hbefore, hcall⟩ := h.at_call
    rw [← hbefore.ledger] at hv hover
    rw [← isOk_eq_of_toOption (hbefore.same.call hbefore.wf hcall).1]
    exact hbefore.renewal hv hover ttl

/-- Two writers of one document: the second one gets its lease once the first one has released its own. -/
def twoWriters : List (Time × LeaseCall) :=
  let ttl := ({} : LeaseSettings).ttl
  [(0, .tryAcquire "lease_1" "doc-1" "job_1" ttl), (5000000, .renew "lease_1" ttl),
    (6000000, .tryAcquire "lease_2" "doc-1" "job_2" ttl), (7000000, .release "lease_1"),
    (7000000, .tryAcquire "lease_3" "doc-1" "job_2" ttl), (8000000, .renew "lease_1" ttl)]

theorem lease_stores_agree_and_exclude_two_writers :
    InMemoryLeaseStore.port.accepted twoWriters = SqlLeaseStore.port.accepted twoWriters ∧
      InMemoryLeaseStore.port.Excludes twoWriters ∧ SqlLeaseStore.port.Excludes twoWriters := by
  apply lease_stores_agree_and_exclude
  refine ⟨by decide, by decide, fun c hc ttl httl => ⟨{}, ?_⟩⟩
  simp only [twoWriters, List.mem_cons, List.not_mem_nil, or_false] at hc
  rcases hc with rfl | rfl | rfl | rfl | rfl | rfl
  · exact (Option.some.inj httl).symm
  · exact (Option.some.inj httl).symm
  · exact (Option.some.inj httl).symm
  · cases httl
  · exact (Option.some.inj httl).symm
  · exact (Option.some.inj httl).symm

end CadHarness.Persistence
