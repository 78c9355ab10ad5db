import CadHarness.Ipc.PipeRequestProcessor

/-!
# What holds between the registry and its calls
-/

namespace CadHarness.Ipc
open CadHarness.Lib

/-! ## Phases -/

namespace Phase

/-- The request and the entry of a call that was registered. -/
def entry? : Phase → Option (String × Nat)
  | registered r e | handling r e | ending r e _ | completed r e _ => some (r, e)
  | waiting _ _ _ | answered _ => none

/-- The call holds a lease. -/
def active : Phase → Bool
  | registered _ _ | handling _ _ | ending _ _ _ => true
  | completed _ _ _ | waiting _ _ _ | answered _ => false

/-- The phases in the order in which a call goes through them. -/
inductive Next : Phase → Phase → Prop
  | invoked {r : String} {e : Nat} : Next (.registered r e) (.handling r e)
  | notInvoked {r : String} {e : Nat} {response : Response} : Next (.registered r e) (.ending r e response)
  | terminated {r : String} {e : Nat} {response : Response} : Next (.handling r e) (.ending r e response)
  | completed {r : String} {e : Nat} {response : Response} : Next (.ending r e response) (.completed r e response)
  | replied {r target : String} {t : Terminal} {response : Response} : Next (.waiting r target t) (.answered response)

theorem Next.entry? {ph ph' : Phase} (h : ph.Next ph') : ph'.entry? = ph.entry? := by
  cases h <;> rfl

end Phase

/-! ## What a request does to the registry -/

namespace RequestCancellationRegistry

variable {g : RequestCancellationRegistry}

/-- How a request may be received. -/
inductive Receives (g : RequestCancellationRegistry) : Phase → RequestCancellationRegistry → Prop
  | refused {response : Response} : Receives g (.answered response) g
  | registered {r : String} : g.active.lookup r = none → g.pending.lookup r = none →
      Receives g (.registered r g.entries.length) (g.addEntry r none)
  | bound {r : String} {p : Nat} : g.active.lookup r = none → g.pending.lookup r = some p →
      Receives g (.registered r g.entries.length) ((g.bindPending r p).addEntry r (some p))
  | waitsActive {r target : String} {e : Nat} : g.active.lookup target = some e →
      Receives g (.waiting r target (.entry e)) (g.cancelEntry e)
  | waitsPending {r target : String} {p : Nat} : g.active.lookup target = none → g.pending.lookup target = some p →
      Receives g (.waiting r target (.pending p)) g
  | pends {r target : String} : g.active.lookup target = none → g.pending.lookup target = none →
      g.pending.length < maximumPendingCancellations →
      Receives g (.waiting r target (.pending g.pendings.length)) (g.addPending target)

theorem processRequest_receives (g : RequestCancellationRegistry) (request : Request) :
    g.Receives (processRequest g request).1 (processRequest g request).2 := by
  unfold processRequest
  split
  · unfold processCancellation
    split
    · exact .refused
    rename_i target _
    split
    · exact .refused
    unfold tryCancelAndWaitForTerminal
    cases ha : g.active.lookup target with
    | some e =>
        dsimp only
        by_cases hl : g.live e = true
        · rw [if_pos hl]
          exact .waitsActive ha
        · rw [if_neg hl]
          exact .refused
    | none =>
        dsimp only
        cases hp : g.pending.lookup target with
        | some p => exact .waitsPending ha hp
        | none =>
            dsimp only
            by_cases hmax : maximumPendingCancellations ≤ g.pending.length
            · rw [if_pos hmax]
              exact .refused
            · rw [if_neg hmax]
              exact .pends ha hp (Nat.lt_of_not_le hmax)
  · unfold tryRegister
    cases ha : g.active.lookup request.requestId with
    | some e => exact .refused
    | none =>
        cases hp : g.pending.lookup request.requestId with
        | some p => exact .bound ha hp
        | none => exact .registered ha hp

end RequestCancellationRegistry

/-! ## The invariant -/

namespace Processor

/-- The call was registered with this request and entry. -/
def Owns (S : Processor) (n : Nat) (r : String) (e : Nat) : Prop := ∃ ph, S.calls n = some ph ∧ ph.entry? = some (r, e)

/-- The call has the lease of this request and entry. -/
def Holds (S : Processor) (n : Nat) (r : String) (e : Nat) : Prop :=
  ∃ ph, S.calls n = some ph ∧ ph.entry? = some (r, e) ∧ ph.active = true

def Handles (S : Processor) (n : Nat) : Prop := ∃ r e, S.calls n = some (.handling r e)

/-- The call is a cancel request that waits for its target. -/
def Waits (S : Processor) (n : Nat) (target : String) (t : Terminal) : Prop :=
  ∃ r, S.calls n = some (.waiting r target t)

/-- What holds in every state. -/
structure Invariant (S : Processor) : Prop where
  /-- a request is active while a call holds its lease -/
  active : ∀ r e, S.registry.active.lookup r = some e ↔ ∃ n, S.Holds n r e
  owner : ∀ (e : Nat) (entry : RequestEntry), S.registry.entries[e]? = some entry → ∃ n r, S.Owns n r e
  owned : ∀ n r e, S.Owns n r e →
    ∃ entry : RequestEntry, S.registry.entries[e]? = some entry ∧ (entry.terminal = true ↔ ¬ S.Holds n r e)
  unique : ∀ n n' r r' e, S.Owns n r e → S.Owns n' r' e → n = n'
  /-- a pending cancellation that was bound is bound to its own request, which is not handled -/
  bound : ∀ n r e (entry : RequestEntry) p, S.Owns n r e → S.registry.entries[e]? = some entry →
    entry.pendingCancellation = some p → entry.cancelled = true ∧ ¬ S.Handles n ∧
      ∃ pending : PendingCancellation, S.registry.pendings[p]? = some pending ∧ pending.requestId = r ∧
        pending.boundOrExpired = true
  pending : ∀ r p, S.registry.pending.lookup r = some p → ∃ pending : PendingCancellation,
    S.registry.pendings[p]? = some pending ∧ pending.requestId = r ∧ pending.boundOrExpired = false ∧
      pending.terminal = none
  bounded : S.registry.pending.length ≤ maximumPendingCancellations
  result : ∀ (p : Nat) (pending : PendingCancellation), S.registry.pendings[p]? = some pending →
    pending.terminal = some true → ∃ (e : Nat) (entry : RequestEntry), S.registry.entries[e]? = some entry ∧
      entry.pendingCancellation = some p ∧ entry.terminal = true
  waitsEntry : ∀ n target e, S.Waits n target (.entry e) → ∃ m, S.Owns m target e
  waitsPending : ∀ n target p, S.Waits n target (.pending p) →
    ∃ pending : PendingCancellation, S.registry.pendings[p]? = some pending ∧ pending.requestId = target

variable {S : Processor}

theorem Holds.owns {n : Nat} {r : String} {e : Nat} (h : S.Holds n r e) : S.Owns n r e := by
  obtain ⟨ph, hn, he, -⟩ := h
  exact ⟨ph, hn, he⟩

/-- One call in another phase. -/
def goes (S : Processor) (n : Nat) (ph : Phase) (g : RequestCancellationRegistry) : Processor :=
  ⟨g, Function.update S.calls n (some ph)⟩

section

variable {n m : Nat} {ph ph' : Phase} {g : RequestCancellationRegistry} {r : String} {e : Nat}

@[simp] theorem goes_registry : (S.goes n ph g).registry = g := rfl

theorem goes_owns : (S.goes n ph g).Owns m r e ↔ if m = n then ph.entry? = some (r, e) else S.Owns m r e := by
  unfold Owns goes
  simp only [Function.update_apply]
  split <;> simp

theorem goes_holds : (S.goes n ph g).Holds m r e ↔
    if m = n then ph.entry? = some (r, e) ∧ ph.active = true else S.Holds m r e := by
  unfold Holds goes
  simp only [Function.update_apply]
  split <;> simp

theorem goes_handles : (S.goes n ph g).Handles m ↔ if m = n then ∃ r e, ph = .handling r e else S.Handles m := by
  unfold Handles goes
  simp only [Function.update_apply]
  split <;> simp

theorem goes_waits {target : String} {t : Terminal} : (S.goes n ph g).Waits m target t ↔
    if m = n then ∃ r, ph = .waiting r target t else S.Waits m target t := by
  unfold Waits goes
  simp only [Function.update_apply]
  split <;> simp

theorem owns_of_calls (hn : S.calls n = some ph) : S.Owns n r e ↔ ph.entry? = some (r, e) := by
  simp [Owns, hn]

theorem holds_of_calls (hn : S.calls n = some ph) : S.Holds n r e ↔ ph.entry? = some (r, e) ∧ ph.active = true := by
  simp [Holds, hn]

/-- A call that goes on keeps what it owns. -/
theorem goes_owns_next (hn : S.calls n = some ph) (hnext : ph.Next ph') :
    (S.goes n ph' g).Owns m r e ↔ S.Owns m r e := by
  rw [goes_owns]
  split
  · subst m
    rw [owns_of_calls hn, hnext.entry?]
  · rfl

theorem goes_holds_next (hn : S.calls n = some ph) (hnext : ph.Next ph') (ha : ph'.active = ph.active) :
    (S.goes n ph' g).Holds m r e ↔ S.Holds m r e := by
  rw [goes_holds]
  split
  · subst m
    rw [holds_of_calls hn, hnext.entry?, ha]
  · rfl

end

namespace Invariant

theorem empty : Invariant {} where
  active := by simp [Holds]
  owner := by simp
  owned := by simp [Owns]
  unique := by simp [Owns]
  bound := by simp
  pending := by simp
  bounded := by simp
  result := by simp
  waitsEntry := by simp [Waits]
  waitsPending := by simp [Waits]

/-- A call goes on, and the registry stays as it is. -/
theorem phase (h : S.Invariant) {n : Nat} {ph ph' : Phase} (hn : S.calls n = some ph) (hnext : ph.Next ph')
    (hactive : ph'.active = ph.active) (hwaits : ∀ r target t, ph' ≠ .waiting r target t)
    (hfree : ∀ r e, ph' = .handling r e → S.registry.cancelled e = false) :
    (S.goes n ph' S.registry).Invariant where
  active r e := by
    simp only [goes_registry, goes_holds_next hn hnext hactive]
    exact h.active r e
  owner := by
    simp only [goes_registry, goes_owns_next hn hnext]
    exact h.owner
  owned := by
    simp only [goes_registry, goes_owns_next hn hnext, goes_holds_next hn hnext hactive]
    exact h.owned
  unique := by
    simp only [goes_owns_next hn hnext]
    exact h.unique
  bound m r e entry p hm he hp := by
    rw [goes_owns_next hn hnext] at hm
    obtain ⟨hcancelled, hhandles, hpending⟩ := h.bound m r e entry p hm he hp
    refine ⟨hcancelled, ?_, hpending⟩
    rw [goes_handles]
    split
    · subst m
      rintro ⟨r', e', rfl⟩
      rw [owns_of_calls hn, ← hnext.entry?] at hm
      cases hm
      have hfree := hfree r e rfl
      simp only [goes_registry] at he
      simp [RequestCancellationRegistry.cancelled, he, hcancelled] at hfree
    · exact hhandles
  pending := h.pending
  bounded := h.bounded
  result := h.result
  waitsEntry m target e hm := by
    simp only [goes_owns_next hn hnext]
    rw [goes_waits] at hm
    split at hm
    · obtain ⟨r, rfl⟩ := hm
      exact absurd rfl (hwaits r target _)
    · exact h.waitsEntry m target e hm
  waitsPending m target p hm := by
    rw [goes_waits] at hm
    split at hm
    · obtain ⟨r, rfl⟩ := hm
      exact absurd rfl (hwaits r target _)
    · exact h.waitsPending m target p hm

/-- A call that has just been received, and that owns nothing. -/
theorem received (h : S.Invariant) {n : Nat} {ph : Phase} (hn : S.calls n = none) (hentry : ph.entry? = none)
    (hwaits : ∀ r target t, ph = .waiting r target t → match t with
      | .entry e => ∃ m, S.Owns m target e
      | .pending p => ∃ pending : PendingCancellation, S.registry.pendings[p]? = some pending ∧ pending.requestId = target) :
    (S.goes n ph S.registry).Invariant := by
  have hno : ∀ r e, ¬ S.Owns n r e := by simp [Owns, hn]
  have howns : ∀ m r e, (S.goes n ph S.registry).Owns m r e ↔ S.Owns m r e := by
    intro m r e
    rw [goes_owns]
    split
    · subst m
      exact iff_of_false (by simp [hentry]) (hno r e)
    · rfl
  have hholds : ∀ m r e, (S.goes n ph S.registry).Holds m r e ↔ S.Holds m r e := by
    intro m r e
    rw [goes_holds]
    split
    · subst m
      exact iff_of_false (by simp [hentry]) fun hm => hno r e hm.owns
    · rfl
  have hhandles : ∀ m, (S.goes n ph S.registry).Handles m → S.Handles m := by
    intro m hm
    rw [goes_handles] at hm
    split at hm
    · obtain ⟨r, e, rfl⟩ := hm
      cases hentry
    · exact hm
  constructor
  · simpa only [goes_registry, hholds] using h.active
  · simpa only [goes_registry, howns] using h.owner
  · simpa only [goes_registry, howns, hholds] using h.owned
  · simpa only [howns] using h.unique
  · intro m r e entry p hm he hp
    obtain ⟨hc, hh, hpending⟩ := h.bound m r e entry p ((howns _ _ _).mp hm) he hp
    exact ⟨hc, fun hm => hh (hhandles m hm), hpending⟩
  · exact h.pending
  · exact h.bounded
  · exact h.result
  · intro m target e hm
    simp only [howns]
    rw [goes_waits] at hm
    split at hm
    · obtain ⟨r, rfl⟩ := hm
      exact hwaits r target _ rfl
    · exact h.waitsEntry m target e hm
  · intro m target p hm
    rw [goes_waits] at hm
    split at hm
    · obtain ⟨r, rfl⟩ := hm
      exact hwaits r target _ rfl
    · exact h.waitsPending m target p hm

/-- A change of the pending cancellations alone. -/
theorem pendings (h : S.Invariant) {g : RequestCancellationRegistry} (hactive : g.active = S.registry.active)
    (hentries : g.entries = S.registry.entries)
    (hkept : ∀ (p : Nat) x, S.registry.pendings[p]? = some x → ∃ x' : PendingCancellation, g.pendings[p]? = some x' ∧
      x'.requestId = x.requestId ∧ (x.boundOrExpired = true → x'.boundOrExpired = true))
    (hresult : ∀ (p : Nat) x', g.pendings[p]? = some x' → x'.terminal = some true →
      ∃ x : PendingCancellation, S.registry.pendings[p]? = some x ∧ x.terminal = some true)
    (hpending : ∀ r p, g.pending.lookup r = some p → ∃ x : PendingCancellation, g.pendings[p]? = some x ∧
      x.requestId = r ∧ x.boundOrExpired = false ∧ x.terminal = none)
    (hbounded : g.pending.length ≤ maximumPendingCancellations) : Processor.Invariant ⟨g, S.calls⟩ where
  active := hactive ▸ h.active
  owner := hentries ▸ h.owner
  owned := hentries ▸ h.owned
  unique := h.unique
  bound n r e entry p hn he hp := by
    obtain ⟨hc, hh, x, hx, hr, hb⟩ := h.bound n r e entry p hn (hentries ▸ he) hp
    obtain ⟨x', hx', hr', hb'⟩ := hkept p x hx
    exact ⟨hc, hh, x', hx', hr'.trans hr, hb' hb⟩
  pending := hpending
  bounded := hbounded
  result p x' hx' ht := by
    obtain ⟨x, hx, hxt⟩ := hresult p x' hx' ht
    exact hentries ▸ h.result p x hx hxt
  waitsEntry := h.waitsEntry
  waitsPending n target p hn := by
    obtain ⟨x, hx, hr⟩ := h.waitsPending n target p hn
    obtain ⟨x', hx', hr', -⟩ := hkept p x hx
    exact ⟨x', hx', hr'.trans hr⟩

theorem cancelEntry (h : S.Invariant) (e : Nat) : Processor.Invariant ⟨S.registry.cancelEntry e, S.calls⟩ := by
  have hentries : ∀ (i : Nat) entry', (S.registry.cancelEntry e).entries[i]? = some entry' →
      ∃ entry, S.registry.entries[i]? = some entry ∧ entry'.pendingCancellation = entry.pendingCancellation ∧
        entry'.terminal = entry.terminal ∧ (entry.cancelled = true → entry'.cancelled = true) := by
    grind [RequestCancellationRegistry.cancelEntry]
  have hkept : ∀ (i : Nat) entry, S.registry.entries[i]? = some entry →
      ∃ entry', (S.registry.cancelEntry e).entries[i]? = some entry' ∧
        entry'.pendingCancellation = entry.pendingCancellation ∧ entry'.terminal = entry.terminal := by
    grind [RequestCancellationRegistry.cancelEntry]
  constructor
  · exact h.active
  · intro i entry' hi
    obtain ⟨entry, hi, -⟩ := hentries i entry' hi
    exact h.owner i entry hi
  · intro n r i hn
    obtain ⟨entry, hi, ht⟩ := h.owned n r i hn
    obtain ⟨entry', hi', -, ht'⟩ := hkept i entry hi
    exact ⟨entry', hi', ht'.symm ▸ ht⟩
  · exact h.unique
  · intro n r i entry' p hn hi hp
    obtain ⟨entry, hi, hp', -, hc'⟩ := hentries i entry' hi
    obtain ⟨hc, hrest⟩ := h.bound n r i entry p hn hi (hp' ▸ hp)
    exact ⟨hc' hc, hrest⟩
  · exact h.pending
  · exact h.bounded
  · intro p pending hp ht
    obtain ⟨i, entry, hi, hpc, hterm⟩ := h.result p pending hp ht
    obtain ⟨entry', hi', hpc', hterm'⟩ := hkept i entry hi
    exact ⟨i, entry', hi', hpc'.trans hpc, hterm'.trans hterm⟩
  · exact h.waitsEntry
  · exact h.waitsPending

theorem addPending (h : S.Invariant) {r : String} (hlt : S.registry.pending.length < maximumPendingCancellations)
    (hnone : S.registry.pending.lookup r = none) : Processor.Invariant ⟨S.registry.addPending r, S.calls⟩ := by
  have hpendings : (S.registry.addPending r).pendings = S.registry.pendings ++ [{ requestId := r }] := rfl
  refine h.pendings rfl rfl ?_ ?_ ?_ ?_
  · intro p x hx
    refine ⟨x, ?_, rfl, id⟩
    rw [hpendings, List.getElem?_append_left (List.getElem?_eq_some_iff.mp hx).1, hx]
  · intro p x' hx' ht
    rw [hpendings, List.getElem?_append] at hx'
    split at hx'
    · exact ⟨x', hx', ht⟩
    · obtain ⟨hlt, rfl⟩ := List.getElem?_eq_some_iff.mp hx'
      simp at ht
  · intro r' p hp
    rw [RequestCancellationRegistry.addPending, Assoc.lookup_set] at hp
    split at hp
    · subst r'
      cases hp
      exact ⟨{ requestId := r }, by simp [hpendings], rfl, rfl, rfl⟩
    · obtain ⟨x, hx, hrest⟩ := h.pending r' p hp
      refine ⟨x, ?_, hrest⟩
      rw [hpendings, List.getElem?_append_left (List.getElem?_eq_some_iff.mp hx).1, hx]
  · have hset : (S.registry.addPending r).pending = S.registry.pending ++ [(r, S.registry.pendings.length)] :=
      Assoc.set_of_lookup_none hnone _
    rw [hset, List.length_append]
    exact hlt

/-- A pending cancellation leaves the registry, with a result that is not `true`. -/
theorem removePending (h : S.Invariant) {r : String} {p : Nat} (hp : S.registry.pending.lookup r = some p)
    {f : PendingCancellation → PendingCancellation} (hr : ∀ x, (f x).requestId = x.requestId)
    (hb : ∀ x, x.boundOrExpired = true → (f x).boundOrExpired = true)
    (ht : ∀ x, (f x).terminal = some true → x.terminal = some true) :
    Processor.Invariant ⟨{ S.registry with
      pending := Assoc.remove S.registry.pending r
      pendings := S.registry.pendings.modify p f }, S.calls⟩ := by
  refine h.pendings rfl rfl ?_ ?_ ?_ ?_
  · intro i x hx
    by_cases hi : p = i
    · exact ⟨f x, by simp [hx, hi], hr x, hb x⟩
    · exact ⟨x, by simp [hx, hi], rfl, id⟩
  · intro i x' hx' hterm
    simp only [List.getElem?_modify, Option.map_eq_map, Option.map_eq_some_iff] at hx'
    obtain ⟨x, hx, rfl⟩ := hx'
    refine ⟨x, hx, ?_⟩
    split at hterm
    · exact ht x hterm
    · exact hterm
  · intro r' p' hp'
    simp only [Assoc.lookup_remove] at hp'
    split at hp'
    · cases hp'
    rename_i hne
    obtain ⟨x, hx, hxr, hrest⟩ := h.pending r' p' hp'
    refine ⟨x, ?_, hxr, hrest⟩
    -- distinct ids have distinct pending cancellations
    have hpp : p ≠ p' := by
      rintro rfl
      obtain ⟨y, hy, hyr, -⟩ := h.pending r p hp
      rw [hx] at hy
      cases hy
      exact hne (hxr.symm.trans hyr)
    simp [hx, hpp]
  · exact Nat.le_trans (List.length_filter_le _ _) h.bounded

theorem expire (h : S.Invariant) (r : String) : Processor.Invariant ⟨S.registry.expire r, S.calls⟩ := by
  unfold RequestCancellationRegistry.expire
  split
  · rename_i p hp
    refine h.removePending hp (f := (·.expire)) ?_ ?_ ?_ <;> intro x <;> unfold PendingCancellation.expire <;> split
    all_goals simp_all
    intro hx
    cases ht : x.terminal <;> simp_all
  · exact h

/-- The timer of a pending cancellation fires. -/
theorem fired (h : S.Invariant) {p : Nat} {pending : PendingCancellation} (hp : S.registry.pendings[p]? = some pending) :
    Processor.Invariant ⟨{ S.registry with
      pendings := S.registry.pendings.set p { pending with fired := true } }, S.calls⟩ := by
  have hset : ∀ i, (S.registry.pendings.set p { pending with fired := true })[i]? =
      if p = i then some { pending with fired := true } else S.registry.pendings[i]? := by
    intro i
    rw [List.getElem?_set]
    split
    · subst i
      rw [if_pos (List.getElem?_eq_some_iff.mp hp).1]
    · rfl
  refine h.pendings rfl rfl ?_ ?_ ?_ h.bounded
  · intro i x hx
    rw [hset]
    split
    · subst i
      cases hp.symm.trans hx
      exact ⟨_, rfl, rfl, id⟩
    · exact ⟨x, hx, rfl, id⟩
  · intro i x' hx' ht
    rw [hset] at hx'
    split at hx'
    · subst i
      cases hx'
      exact ⟨pending, hp, ht⟩
    · exact ⟨x', hx', ht⟩
  · intro r i hi
    obtain ⟨x, hx, hrest⟩ := h.pending r i hi
    rw [hset]
    split
    · subst i
      cases hp.symm.trans hx
      exact ⟨_, rfl, hrest⟩
    · exact ⟨x, hx, hrest⟩

/-- A call is registered. -/
theorem registered (h : S.Invariant) {n : Nat} {r : String} {p? : Option Nat} (hn : S.calls n = none)
    (hactive : S.registry.active.lookup r = none)
    (hp : ∀ p, p? = some p → ∃ x : PendingCancellation, S.registry.pendings[p]? = some x ∧ x.requestId = r ∧
      x.boundOrExpired = true) :
    (S.goes n (.registered r S.registry.entries.length) (S.registry.addEntry r p?)).Invariant := by
  have hno : ∀ r e, ¬ S.Owns n r e := by simp [Owns, hn]
  have hlt : ∀ {m r' e'}, S.Owns m r' e' → e' < S.registry.entries.length := by
    intro m r' e' hm
    obtain ⟨entry, he, -⟩ := h.owned m r' e' hm
    exact (List.getElem?_eq_some_iff.mp he).1
  have howns : ∀ m r' e', (S.goes n (.registered r S.registry.entries.length) (S.registry.addEntry r p?)).Owns m r' e' ↔
      (m = n ∧ r' = r ∧ e' = S.registry.entries.length) ∨ S.Owns m r' e' := by
    intro m r' e'
    rw [goes_owns]
    split
    · subst m
      simp [Phase.entry?, hno, eq_comm]
    · rename_i hm
      simp [hm]
  have hholds : ∀ m r' e', (S.goes n (.registered r S.registry.entries.length) (S.registry.addEntry r p?)).Holds m r' e' ↔
      (m = n ∧ r' = r ∧ e' = S.registry.entries.length) ∨ S.Holds m r' e' := by
    intro m r' e'
    rw [goes_holds]
    split
    · subst m
      have hnone : ¬ S.Holds n r' e' := fun hm => hno _ _ hm.owns
      simp [Phase.entry?, Phase.active, hnone, eq_comm]
    · rename_i hm
      simp [hm]
  have hentries : ∀ i, (S.registry.addEntry r p?).entries[i]? =
      if i = S.registry.entries.length then some ⟨p?, p?.isSome, false⟩ else S.registry.entries[i]? := by
    intro i
    rw [RequestCancellationRegistry.addEntry, List.getElem?_append]
    split
    · rw [if_neg (by omega)]
    · split
      · subst i
        simp
      · rw [List.getElem?_eq_none (by simp; omega), List.getElem?_eq_none (by omega)]
  constructor
  · intro r' e'
    simp only [goes_registry, hholds]
    rw [RequestCancellationRegistry.addEntry, Assoc.lookup_set]
    split
    · subst r'
      have hnone : ∀ m, ¬ S.Holds m r e' := by
        intro m hm
        cases hactive.symm.trans ((h.active r e').mpr ⟨m, hm⟩)
      simp [hnone, eq_comm]
    · rename_i hne
      simp [hne, h.active r' e']
  · intro i entry hi
    simp only [howns]
    rw [goes_registry, hentries] at hi
    split at hi
    · exact ⟨n, r, .inl ⟨rfl, rfl, by assumption⟩⟩
    · obtain ⟨m, r', hm⟩ := h.owner i entry hi
      exact ⟨m, r', .inr hm⟩
  · intro m r' e' hm
    rw [goes_registry, hentries, hholds]
    rcases (howns _ _ _).mp hm with ⟨rfl, rfl, rfl⟩ | hold
    · exact ⟨_, if_pos rfl, by simp⟩
    · rw [if_neg (Nat.ne_of_lt (hlt hold))]
      obtain ⟨entry, he, ht⟩ := h.owned m r' e' hold
      refine ⟨entry, he, ht.trans (not_congr ?_)⟩
      constructor
      · exact .inr
      · rintro (⟨rfl, -, -⟩ | hm)
        · exact absurd hold (hno _ _)
        · exact hm
  · intro m m' r' r'' e' hm hm'
    rcases (howns _ _ _).mp hm with ⟨rfl, rfl, rfl⟩ | hold <;>
      rcases (howns _ _ _).mp hm' with ⟨rfl, rfl, he⟩ | hold'
    · rfl
    · exact absurd (hlt hold') (Nat.lt_irrefl _)
    · exact absurd he (Nat.ne_of_lt (hlt hold))
    · exact h.unique m m' r' r'' e' hold hold'
  · intro m r' e' entry p hm he hpc
    rw [goes_registry, hentries] at he
    rcases (howns _ _ _).mp hm with ⟨rfl, rfl, rfl⟩ | hold
    · rw [if_pos rfl] at he
      cases he
      refine ⟨?_, ?_, hp p hpc⟩
      · change p?.isSome = true
        rw [show p? = some p from hpc]
        rfl
      · rw [goes_handles, if_pos rfl]
        rintro ⟨_, _, hph⟩
        cases hph
    · rw [if_neg (Nat.ne_of_lt (hlt hold))] at he
      obtain ⟨hc, hh, hpending⟩ := h.bound m r' e' entry p hold he hpc
      refine ⟨hc, ?_, hpending⟩
      rw [goes_handles]
      split
      · rintro ⟨_, _, hph⟩
        cases hph
      · exact hh
  · exact h.pending
  · exact h.bounded
  · intro p x hx ht
    obtain ⟨e', entry, he, hpc, hterm⟩ := h.result p x hx ht
    refine ⟨e', entry, ?_, hpc, hterm⟩
    rw [goes_registry, hentries, if_neg (Nat.ne_of_lt (List.getElem?_eq_some_iff.mp he).1), he]
  · intro m target e' hm
    simp only [howns]
    rw [goes_waits] at hm
    split at hm
    · obtain ⟨_, hph⟩ := hm
      cases hph
    · obtain ⟨m', hm'⟩ := h.waitsEntry m target e' hm
      exact ⟨m', .inr hm'⟩
  · intro m target p hm
    rw [goes_waits] at hm
    split at hm
    · obtain ⟨_, hph⟩ := hm
      cases hph
    · exact h.waitsPending m target p hm

/-- The lease of a call is disposed of. -/
theorem completed (h : S.Invariant) {n : Nat} {r : String} {e : Nat} {response : Response}
    (hn : S.calls n = some (.ending r e response)) :
    (S.goes n (.completed r e response) (S.registry.complete r e)).Invariant := by
  have hnholds : S.Holds n r e := ⟨_, hn, rfl, rfl⟩
  obtain ⟨entry, he, hterm⟩ := h.owned n r e hnholds.owns
  have hlive : entry.terminal = false := by simpa [hnholds] using hterm
  have hlookup : S.registry.active.lookup r = some e := (h.active r e).mpr ⟨n, hnholds⟩
  have hcomplete : S.registry.complete r e = { S.registry with
      active := Assoc.remove S.registry.active r
      entries := S.registry.entries.set e { entry with terminal := true }
      pendings := entry.pendingCancellation.elim S.registry.pendings
        (S.registry.pendings.modify · (·.completeTerminal)) } := by
    simp only [RequestCancellationRegistry.complete, RequestCancellationRegistry.completeEntry, he, hlive,
      Bool.false_eq_true, ↓reduceIte, hlookup]
    cases entry.pendingCancellation <;> rfl
  have hentries : ∀ i, (S.registry.complete r e).entries[i]? =
      if e = i then some { entry with terminal := true } else S.registry.entries[i]? := by
    intro i
    rw [hcomplete, List.getElem?_set]
    split
    · subst i
      rw [if_pos (List.getElem?_eq_some_iff.mp he).1]
    · rfl
  have hother : ∀ p, entry.pendingCancellation ≠ some p →
      (S.registry.complete r e).pendings[p]? = S.registry.pendings[p]? := by
    intro p hp
    rw [hcomplete]
    cases hpc : entry.pendingCancellation with
    | none => rfl
    | some q =>
        have hqp : q ≠ p := fun hqp => hp (hpc.trans (congrArg some hqp))
        simp [hqp]
  have hkept : ∀ (p : Nat) x, S.registry.pendings[p]? = some x → ∃ x' : PendingCancellation,
      (S.registry.complete r e).pendings[p]? = some x' ∧ x'.requestId = x.requestId ∧
        x'.boundOrExpired = x.boundOrExpired := by
    intro p x hx
    by_cases hp : entry.pendingCancellation = some p
    · refine ⟨x.completeTerminal, ?_, rfl, rfl⟩
      rw [hcomplete, hp]
      simp [hx]
    · exact ⟨x, (hother p hp).trans hx, rfl, rfl⟩
  have howns : ∀ m r' e', (S.goes n (.completed r e response) (S.registry.complete r e)).Owns m r' e' ↔ S.Owns m r' e' :=
    fun m r' e' => goes_owns_next hn .completed
  have hholds : ∀ m r' e', (S.goes n (.completed r e response) (S.registry.complete r e)).Holds m r' e' ↔
      m ≠ n ∧ S.Holds m r' e' := by
    intro m r' e'
    rw [goes_holds]
    split
    · simp [Phase.active, *]
    · simp [*]
  constructor
  · intro r' e'
    have hactive : (S.registry.complete r e).active = Assoc.remove S.registry.active r := by rw [hcomplete]
    simp only [goes_registry, hactive, hholds, Assoc.lookup_remove]
    split
    · subst r'
      refine iff_of_false (Option.some_ne_none _).symm ?_
      rintro ⟨m, hne, hm⟩
      have hee : e' = e := Option.some.inj (((h.active r e').mpr ⟨m, hm⟩).symm.trans hlookup)
      subst hee
      exact hne (h.unique m n r r e' hm.owns hnholds.owns)
    · rename_i hr
      rw [h.active r' e']
      constructor
      · rintro ⟨m, hm⟩
        refine ⟨m, ?_, hm⟩
        rintro rfl
        obtain ⟨ph, hph, hpe, -⟩ := hm
        cases hn.symm.trans hph
        cases hpe
        exact hr rfl
      · rintro ⟨m, -, hm⟩
        exact ⟨m, hm⟩
  · intro i entry' hi
    simp only [howns]
    rw [goes_registry, hentries] at hi
    split at hi
    · subst i
      exact ⟨n, r, hnholds.owns⟩
    · exact h.owner i entry' hi
  · intro m r' e' hm
    have hold := (howns m r' e').mp hm
    rw [goes_registry, hentries, hholds]
    split
    · subst e'
      have hmn := h.unique m n r' r e hold hnholds.owns
      exact ⟨_, rfl, by simp [hmn]⟩
    · rename_i hne
      obtain ⟨entry', he', ht⟩ := h.owned m r' e' hold
      refine ⟨entry', he', ht.trans (not_congr ?_)⟩
      have hmn : m ≠ n := by
        rintro rfl
        obtain ⟨ph, hph, hpe⟩ := hold
        cases hn.symm.trans hph
        cases hpe
        exact hne rfl
      simp [hmn]
  · simpa only [howns] using h.unique
  · intro m r' e' entry' p hm he' hpc
    have hm := (howns m r' e').mp hm
    have hold : ∃ entry₀ : RequestEntry, S.registry.entries[e']? = some entry₀ ∧
        entry₀.pendingCancellation = some p ∧ entry'.cancelled = entry₀.cancelled := by
      rw [goes_registry, hentries] at he'
      split at he'
      · subst e'
        cases he'
        exact ⟨entry, he, hpc, rfl⟩
      · exact ⟨entry', he', hpc, rfl⟩
    obtain ⟨entry₀, he₀, hpc₀, hc₀⟩ := hold
    obtain ⟨hc, hh, x, hx, hxr, hxb⟩ := h.bound m r' e' entry₀ p hm he₀ hpc₀
    obtain ⟨x', hx', hxr', hxb'⟩ := hkept p x hx
    refine ⟨hc₀.trans hc, ?_, x', hx', hxr'.trans hxr, hxb'.trans hxb⟩
    rw [goes_handles]
    split
    · rintro ⟨_, _, hph⟩
      cases hph
    · exact hh
  · intro r' p hp
    have hpending : (S.registry.complete r e).pending = S.registry.pending := by rw [hcomplete]
    rw [goes_registry, hpending] at hp
    obtain ⟨x, hx, hxr, hxb, hxt⟩ := h.pending r' p hp
    refine ⟨x, (hother p ?_).trans hx, hxr, hxb, hxt⟩
    intro hpc
    obtain ⟨-, -, y, hy, -, hyb⟩ := h.bound n r e entry p hnholds.owns he hpc
    cases hx.symm.trans hy
    cases hxb.symm.trans hyb
  · have hpending : (S.registry.complete r e).pending = S.registry.pending := by rw [hcomplete]
    rw [goes_registry, hpending]
    exact h.bounded
  · intro p x' hx' ht
    rw [goes_registry] at hx' ⊢
    by_cases hp : entry.pendingCancellation = some p
    · exact ⟨e, { entry with terminal := true }, by rw [hentries, if_pos rfl], hp, rfl⟩
    · obtain ⟨i, entry', hi, hpc, hit⟩ := h.result p x' ((hother p hp).symm.trans hx') ht
      refine ⟨i, entry', ?_, hpc, hit⟩
      rw [hentries, if_neg, hi]
      rintro rfl
      cases he.symm.trans hi
      exact hp hpc
  · intro m target e' hm
    simp only [howns]
    rw [goes_waits] at hm
    split at hm
    · obtain ⟨_, hph⟩ := hm
      cases hph
    · exact h.waitsEntry m target e' hm
  · intro m target p hm
    rw [goes_waits] at hm
    split at hm
    · obtain ⟨_, hph⟩ := hm
      cases hph
    · obtain ⟨x, hx, hxr⟩ := h.waitsPending m target p hm
      obtain ⟨x', hx', hxr', -⟩ := hkept p x hx
      exact ⟨x', hx', hxr'.trans hxr⟩

/-- Every step keeps the invariant. -/
theorem step (h : S.Invariant) {a : ProcessorEvent} {S' : Processor} (hs : Processor.Step S a S') :
    S'.Invariant := by
  cases hs with
  | @requested n request hn =>
      have hreceives := S.registry.processRequest_receives request
      generalize processRequest S.registry request = received at hreceives
      obtain ⟨ph, g⟩ := received
      cases hreceives with
      | refused => exact h.received hn rfl nofun
      | registered ha hp => exact h.registered hn ha nofun
      | @bound r p ha hp =>
          have hbind : Processor.Invariant ⟨S.registry.bindPending r p, S.calls⟩ :=
            h.removePending hp (f := (·.bind)) (fun _ => rfl) (fun _ _ => rfl) (fun _ => id)
          refine hbind.registered hn ha ?_
          rintro q ⟨⟩
          obtain ⟨x, hx, hxr, -⟩ := h.pending r p hp
          exact ⟨x.bind, by simp [RequestCancellationRegistry.bindPending, hx], hxr, rfl⟩
      | @waitsActive r target e ha =>
          refine (h.cancelEntry e).received hn rfl ?_
          rintro _ _ _ ⟨⟩
          obtain ⟨m, hm⟩ := (h.active target e).mp ha
          exact ⟨m, hm.owns⟩
      | @waitsPending r target p ha hp =>
          refine h.received hn rfl ?_
          rintro _ _ _ ⟨⟩
          obtain ⟨x, hx, hxr, -⟩ := h.pending target p hp
          exact ⟨x, hx, hxr⟩
      | @pends r target ha hp hlt =>
          refine (h.addPending hlt hp).received hn rfl ?_
          rintro _ _ _ ⟨⟩
          exact ⟨{ requestId := target }, by simp [RequestCancellationRegistry.addPending], rfl⟩
  | invoked hn hc =>
      refine h.phase hn .invoked rfl nofun ?_
      rintro _ _ ⟨⟩
      exact hc
  | notInvoked hn _ => exact h.phase hn .notInvoked rfl nofun nofun
  | terminated hn => exact h.phase hn .terminated rfl nofun nofun
  | completed hn => exact h.completed hn
  | awaited hn _ => exact h.phase hn .replied rfl nofun nofun
  | abandoned hn => exact h.phase hn .replied rfl nofun nofun
  | @cancel r =>
      unfold RequestCancellationRegistry.tryCancel
      split
      · split
        · exact h.cancelEntry _
        · exact h
      · exact h
  | fired hp _ => exact (h.fired hp).expire _

theorem run (h : S.Invariant) {tr : List ProcessorEvent} {S' : Processor} (hr : processorSystem.Run S tr S') :
    S'.Invariant :=
  hr.invariant h fun _ _ _ hI hs => hI.step hs

end Invariant

end Processor

end CadHarness.Ipc
