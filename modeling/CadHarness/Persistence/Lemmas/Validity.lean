import CadHarness.Persistence.Lemmas.Lease

/-!
# The ledger of leases

The ledger agrees with the dictionary on the leases that the dictionary holds, and every other lease is
over.
-/

namespace CadHarness.Persistence
open CadHarness.Lib CadHarness.Domain

/-- The lease of the entry is the one that the dictionary holds for its document. -/
def Validity.Held (v : Validity) (s : InMemoryLeaseStore) : Prop :=
  ∃ l, s.leases.lookup v.documentId = some l ∧ l.leaseId = v.leaseId

/-- Of two entries the older one is over when the newer one of its document starts, and not held. -/
def Validity.Before (s : InMemoryLeaseStore) (v w : Validity) : Prop :=
  v.leaseId ≠ w.leaseId ∧ (v.documentId = w.documentId → v.stop ≤ w.start ∧ ¬ v.Held s)

structure Tracks (s : InMemoryLeaseStore) (ledger : List Validity) (used : List String) (now : Time) : Prop where
  held : ∀ {d l}, s.leases.lookup d = some l →
    ∃ v ∈ ledger, v.leaseId = l.leaseId ∧ v.documentId = d ∧ v.stop = l.expiresAt
  ended : ∀ v ∈ ledger, v.stop ≤ now ∨ v.Held s
  released : ∀ v ∈ ledger, v.released = true → v.stop ≤ now
  started : ∀ v ∈ ledger, v.start ≤ now
  used : ∀ v ∈ ledger, v.leaseId ∈ used
  order : ledger.Pairwise (Validity.Before s)

variable {s : InMemoryLeaseStore} {ledger : List Validity} {used : List String} {now : Time}

theorem tracks_empty (now : Time) : Tracks {} [] [] now :=
  ⟨nofun, nofun, nofun, nofun, nofun, .nil⟩

theorem Tracks.later (h : Tracks s ledger used now) {later : Time} (hle : now ≤ later) :
    Tracks s ledger used later :=
  { h with
    ended := fun v hv => (h.ended v hv).imp_left (fun h => h.trans hle)
    released := fun v hv hr => (h.released v hv hr).trans hle
    started := fun v hv => (h.started v hv).trans hle }

theorem Tracks.unique (h : Tracks s ledger used now) {v w : Validity} (hv : v ∈ ledger) (hw : w ∈ ledger)
    (hid : v.leaseId = w.leaseId) : v = w := by
  by_contra hne
  have hids : ledger.Pairwise (fun v w => v.leaseId ≠ w.leaseId) := h.order.imp And.left
  have : Std.Symm (fun v w : Validity => v.leaseId ≠ w.leaseId) := ⟨fun _ _ h => h.symm⟩
  exact hids.forall hv hw hne hid

/-- The entry of a lease that the dictionary holds. -/
theorem Tracks.stop_eq (h : Tracks s ledger used now) {v : Validity} (hv : v ∈ ledger) {l : WriterLease}
    {d : String} (hl : s.leases.lookup d = some l) (hid : v.leaseId = l.leaseId) :
    v.documentId = d ∧ v.stop = l.expiresAt := by
  obtain ⟨w, hw, hwid, hdoc, hstop⟩ := h.held hl
  obtain rfl := h.unique hv hw (hid.trans hwid.symm)
  exact ⟨hdoc, hstop⟩

/-- An entry whose lease is over is not renewed. -/
theorem Tracks.renew_refused (h : Tracks s ledger used now) (hwf : s.Wf used now) {v : Validity}
    (hv : v ∈ ledger) (hover : v.stop ≤ now) (ttl : Time) :
    ∃ e, s.renew v.leaseId ttl now = (.error e, s) := by
  rcases hwf.renew_cases v.leaseId ttl with ⟨e, hres, _⟩ | ⟨l, _, _, hl, hid, hlt, _⟩
  · exact ⟨e, hres⟩
  · rw [← (h.stop_eq hv hl hid.symm).2] at hlt
    exact absurd hover (not_le.mpr hlt)

/-! ## Calls -/

/-- An acquisition appends an entry that starts now. -/
theorem Tracks.acquire (h : Tracks s ledger used now) {id d owner : String} {ttl : Time} (hid : id ∉ used)
    (hover : ∀ l, s.leases.lookup d = some l → l.expiresAt ≤ now) :
    Tracks { leases := Assoc.set s.leases d ⟨id, d, owner, now, now + ttl, now⟩ }
      (ledger ++ [{ leaseId := id, documentId := d, start := now, stop := now + ttl }]) (used ++ [id]) now := by
  have hstop {v : Validity} (hv : v ∈ ledger) (hd : v.documentId = d) : v.stop ≤ now := by
    rcases h.ended v hv with hstop | ⟨l, hl, hlid⟩
    · exact hstop
    · rw [(h.stop_eq hv hl hlid.symm).2]
      exact hover l (hd ▸ hl)
  have hheld {v : Validity} (hv : v ∈ ledger) :
      v.Held { leases := Assoc.set s.leases d ⟨id, d, owner, now, now + ttl, now⟩ } ↔
        v.documentId ≠ d ∧ v.Held s := by
    unfold Validity.Held
    rw [Assoc.lookup_set]
    by_cases hd : v.documentId = d
    · rw [if_pos hd]
      refine iff_of_false ?_ (fun h => h.1 hd)
      rintro ⟨l, hl, hlid⟩
      obtain rfl := Option.some.inj hl
      have hfresh : id = v.leaseId := hlid
      exact hid (hfresh ▸ h.used v hv)
    · rw [if_neg hd]
      exact (and_iff_right hd).symm
  constructor
  · intro d' l hl
    rw [Assoc.lookup_set] at hl
    split_ifs at hl with hd
    · obtain rfl := Option.some.inj hl
      exact ⟨_, List.mem_append_right _ (List.mem_singleton_self _), rfl, hd.symm, rfl⟩
    · obtain ⟨v, hv, hrest⟩ := h.held hl
      exact ⟨v, List.mem_append_left _ hv, hrest⟩
  · intro v hv
    rcases List.mem_append.mp hv with hv | hv
    · by_cases hd : v.documentId = d
      · exact .inl (hstop hv hd)
      · exact (h.ended v hv).imp_right (fun hv' => (hheld hv).mpr ⟨hd, hv'⟩)
    · obtain rfl := List.mem_singleton.mp hv
      exact .inr ⟨_, Assoc.lookup_set_self _ _ _, rfl⟩
  · intro v hv hr
    rcases List.mem_append.mp hv with hv | hv
    · exact h.released v hv hr
    · obtain rfl := List.mem_singleton.mp hv
      cases hr
  · intro v hv
    rcases List.mem_append.mp hv with hv | hv
    · exact h.started v hv
    · obtain rfl := List.mem_singleton.mp hv
      exact le_refl now
  · intro v hv
    rcases List.mem_append.mp hv with hv | hv
    · exact List.mem_append_left _ (h.used v hv)
    · obtain rfl := List.mem_singleton.mp hv
      exact List.mem_append_right _ (List.mem_singleton_self id)
  · rw [List.pairwise_append]
    refine ⟨?_, List.pairwise_singleton _ _, ?_⟩
    · refine h.order.imp_of_mem (fun {v w} hv _ hvw => ⟨hvw.1, fun hd => ?_⟩)
      exact ⟨(hvw.2 hd).1, fun hh => (hvw.2 hd).2 ((hheld hv).mp hh).2⟩
    · intro v hv w hw
      obtain rfl := List.mem_singleton.mp hw
      have hfresh : v.leaseId ≠ id := fun heq => hid (heq ▸ h.used v hv)
      refine ⟨hfresh, fun hd => ⟨hstop hv hd, fun hh => ?_⟩⟩
      exact ((hheld hv).mp hh).1 hd

/-- A renewal moves the end of the entry of its lease. -/
theorem Tracks.extend (h : Tracks s ledger used now) (hwf : s.Wf used now) {l : WriterLease} {ttl : Time}
    (hl : s.leases.lookup l.documentId = some l) (hlt : now < l.expiresAt) :
    Tracks { leases := Assoc.set s.leases l.documentId { l with heartbeatAt := now, expiresAt := now + ttl } }
      (ledger.map (fun v => if v.leaseId = l.leaseId then { v with stop := now + ttl } else v)) used now := by
  have hheld (v : Validity) :
      v.Held { leases := Assoc.set s.leases l.documentId { l with heartbeatAt := now, expiresAt := now + ttl } } ↔
        v.Held s := by
    unfold Validity.Held
    rw [Assoc.lookup_set]
    split_ifs with hd
    · rw [hd, hl]
      simp
    · exact Iff.rfl
  constructor
  · intro d k hk
    rw [Assoc.lookup_set] at hk
    split_ifs at hk with hd
    · obtain rfl := Option.some.inj hk
      obtain ⟨v, hv, hid, hdoc, _⟩ := h.held hl
      exact ⟨{ v with stop := now + ttl }, List.mem_map.mpr ⟨v, hv, if_pos hid⟩, hid, hdoc.trans hd.symm, rfl⟩
    · obtain ⟨v, hv, hid, hdoc, hstop⟩ := h.held hk
      have hne : v.leaseId ≠ l.leaseId := fun heq => hd (hwf.unique hk hl (hid.symm.trans heq))
      exact ⟨v, List.mem_map.mpr ⟨v, hv, if_neg hne⟩, hid, hdoc, hstop⟩
  · intro w hw
    obtain ⟨v, hv, rfl⟩ := List.mem_map.mp hw
    split_ifs with hid
    · exact .inr ((hheld _).mpr ⟨l, by rw [← hl, ← (h.stop_eq hv hl hid).1], hid.symm⟩)
    · exact (h.ended v hv).imp_right (hheld v).mpr
  · intro w hw hr
    obtain ⟨v, hv, rfl⟩ := List.mem_map.mp hw
    split_ifs at hr ⊢ with hid
    · have hover := h.released v hv hr
      rw [(h.stop_eq hv hl hid).2] at hover
      exact absurd hover (not_le.mpr hlt)
    · exact h.released v hv hr
  · intro w hw
    obtain ⟨v, hv, rfl⟩ := List.mem_map.mp hw
    split_ifs <;> exact h.started v hv
  · intro w hw
    obtain ⟨v, hv, rfl⟩ := List.mem_map.mp hw
    split_ifs <;> exact h.used v hv
  · rw [List.pairwise_map]
    refine h.order.imp_of_mem (fun {v w} hv hw hvw => ?_)
    have hbefore : v.leaseId ≠ w.leaseId ∧ (v.documentId = w.documentId → v.stop ≤ w.start ∧ ¬ v.Held s) := hvw
    by_cases hid : v.leaseId = l.leaseId
    · have hdoc : v.documentId ≠ w.documentId := by
        intro hd
        exact (hbefore.2 hd).2 ⟨l, by rw [← hl, ← (h.stop_eq hv hl hid).1], hid.symm⟩
      have hw' : w.leaseId ≠ l.leaseId := fun heq => hbefore.1 (hid.trans heq.symm)
      rw [if_pos hid, if_neg hw']
      exact ⟨hbefore.1, fun hd => absurd hd hdoc⟩
    · rw [if_neg hid]
      split_ifs
      · exact ⟨hbefore.1, fun hd => ⟨(hbefore.2 hd).1, fun hh => (hbefore.2 hd).2 ((hheld v).mp hh)⟩⟩
      · exact ⟨hbefore.1, fun hd => ⟨(hbefore.2 hd).1, fun hh => (hbefore.2 hd).2 ((hheld v).mp hh)⟩⟩

/-- A release ends the entry of its lease now. -/
theorem Tracks.release (h : Tracks s ledger used now) (hwf : s.Wf used now) (id : String) :
    Tracks (s.release id)
      (ledger.map (fun v =>
        if v.leaseId = id then { v with stop := min v.stop now, released := true } else v)) used now := by
  have hlookup {d : String} {l : WriterLease} :
      (s.release id).leases.lookup d = some l ↔ s.leases.lookup d = some l ∧ l.leaseId ≠ id := by
    rw [hwf.lookup_release, Option.filter_eq_some_iff, decide_eq_true_iff]
  have hheld {v : Validity} : v.Held (s.release id) ↔ v.Held s ∧ v.leaseId ≠ id := by
    constructor
    · rintro ⟨l, hl, hid⟩
      exact ⟨⟨l, (hlookup.mp hl).1, hid⟩, hid ▸ (hlookup.mp hl).2⟩
    · rintro ⟨⟨l, hl, hid⟩, hne⟩
      exact ⟨l, hlookup.mpr ⟨hl, hid.symm ▸ hne⟩, hid⟩
  constructor
  · intro d l hl
    obtain ⟨hl, hne⟩ := hlookup.mp hl
    obtain ⟨v, hv, hid, hrest⟩ := h.held hl
    exact ⟨v, List.mem_map.mpr ⟨v, hv, if_neg (hid ▸ hne)⟩, hid, hrest⟩
  · intro w hw
    obtain ⟨v, hv, rfl⟩ := List.mem_map.mp hw
    split_ifs with hid
    · exact .inl (min_le_right _ _)
    · exact (h.ended v hv).imp_right (fun hh => hheld.mpr ⟨hh, hid⟩)
  · intro w hw hr
    obtain ⟨v, hv, rfl⟩ := List.mem_map.mp hw
    split_ifs at hr ⊢ with hid
    · exact min_le_right _ _
    · exact h.released v hv hr
  · intro w hw
    obtain ⟨v, hv, rfl⟩ := List.mem_map.mp hw
    split_ifs <;> exact h.started v hv
  · intro w hw
    obtain ⟨v, hv, rfl⟩ := List.mem_map.mp hw
    split_ifs <;> exact h.used v hv
  · rw [List.pairwise_map]
    refine h.order.imp (fun {v w} hvw => ?_)
    have hbefore : v.leaseId ≠ w.leaseId ∧ (v.documentId = w.documentId → v.stop ≤ w.start ∧ ¬ v.Held s) := hvw
    have hstill (hd : v.documentId = w.documentId) : ¬ v.Held (s.release id) :=
      fun hh => (hbefore.2 hd).2 (hheld.mp hh).1
    split_ifs
    · exact ⟨hbefore.1, fun hd => ⟨(min_le_left _ _).trans (hbefore.2 hd).1, hstill hd⟩⟩
    · exact ⟨hbefore.1, fun hd => ⟨(min_le_left _ _).trans (hbefore.2 hd).1, hstill hd⟩⟩
    · exact ⟨hbefore.1, fun hd => ⟨(hbefore.2 hd).1, hstill hd⟩⟩
    · exact ⟨hbefore.1, fun hd => ⟨(hbefore.2 hd).1, hstill hd⟩⟩

/-- Every call keeps the ledger on the dictionary. -/
theorem Tracks.call (h : Tracks s ledger used now) (hwf : s.Wf used now) {call : LeaseCall}
    (hcall : call.Promised used) :
    Tracks (InMemoryLeaseStore.port.call now call s).2
      (Validity.record ledger ⟨now, call, (InMemoryLeaseStore.port.call now call s).1⟩) (call.mark used) now := by
  cases call with
  | tryAcquire id d owner ttl =>
      rcases s.tryAcquire_cases id d owner ttl now with ⟨e, hres, _⟩ | ⟨hover, _, l, rfl, hres⟩
      · rw [show InMemoryLeaseStore.port.call now (.tryAcquire id d owner ttl) s = _ from hres]
        exact { h with used := fun v hv => List.mem_append_left _ (h.used v hv) }
      · rw [show InMemoryLeaseStore.port.call now (.tryAcquire id d owner ttl) s = _ from hres]
        exact h.acquire (hcall.fresh id rfl) hover
  | renew id ttl =>
      rw [show LeaseCall.mark (.renew id ttl) used = used from List.append_nil _]
      rcases hwf.renew_cases id ttl with ⟨e, hres, _⟩ | ⟨l, r, _, hl, _, hlt, rfl, hres⟩
      · rw [show InMemoryLeaseStore.port.call now (.renew id ttl) s = _ from hres]
        exact h
      · rw [show InMemoryLeaseStore.port.call now (.renew id ttl) s = _ from hres]
        exact h.extend hwf hl hlt
  | release id =>
      rw [show LeaseCall.mark (.release id) used = used from List.append_nil _]
      exact h.release hwf id

end CadHarness.Persistence
