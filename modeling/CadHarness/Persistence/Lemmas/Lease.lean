import CadHarness.Persistence.LeaseStore

/-!
# Calls of the lease stores

What a call does to the dictionary, and that the table follows it.
-/

namespace CadHarness.Persistence
open CadHarness.Lib CadHarness.Domain

/-- What a caller promises of one call: a fresh identifier, and time to live. -/
structure LeaseCall.Promised (call : LeaseCall) (used : List String) : Prop where
  fresh : ∀ id, call.newId? = some id → id ∉ used
  ttl : ∀ ttl, call.ttl? = some ttl → 0 < ttl

/-- The identifiers generated up to and with a call. -/
def LeaseCall.mark (call : LeaseCall) (used : List String) : List String := used ++ call.newId?.toList

namespace InMemoryLeaseStore

/-- The dictionary as the calls leave it. -/
structure Wf (s : InMemoryLeaseStore) (used : List String) (now : Time) : Prop where
  keys : (s.leases.map Prod.fst).Nodup
  document : ∀ {d l}, s.leases.lookup d = some l → l.documentId = d
  unique : ∀ {d d' l l'}, s.leases.lookup d = some l → s.leases.lookup d' = some l' →
    l.leaseId = l'.leaseId → d = d'
  used : ∀ {d l}, s.leases.lookup d = some l → l.leaseId ∈ used
  ordered : ∀ {d l}, s.leases.lookup d = some l →
    l.acquiredAt ≤ l.heartbeatAt ∧ l.heartbeatAt < l.expiresAt ∧ l.heartbeatAt ≤ now

variable {s : InMemoryLeaseStore} {used : List String} {now : Time}

theorem wf_empty (now : Time) : Wf {} [] now :=
  ⟨.nil, nofun, nofun, nofun, nofun⟩

theorem Wf.later (h : s.Wf used now) {later : Time} (hle : now ≤ later) : s.Wf used later :=
  { h with ordered := fun hl => ⟨(h.ordered hl).1, (h.ordered hl).2.1, (h.ordered hl).2.2.trans hle⟩ }

theorem Wf.same (h : s.Wf used now) {d d' : String} {l l' : WriterLease} (hl : s.leases.lookup d = some l)
    (hl' : s.leases.lookup d' = some l') (hid : l.leaseId = l'.leaseId) : l = l' := by
  obtain rfl := h.unique hl hl' hid
  exact Option.some.inj (hl.symm.trans hl')

/-- A lease that is found is the one of its document. -/
theorem Wf.find_eq_some_iff (h : s.Wf used now) {id : String} {l : WriterLease} :
    s.find id = some l ↔ s.leases.lookup l.documentId = some l ∧ l.leaseId = id := by
  have hmem {l : WriterLease} (hl : l ∈ s.leases.map Prod.snd) : s.leases.lookup l.documentId = some l := by
    obtain ⟨⟨d, l⟩, he, rfl⟩ := List.mem_map.mp hl
    have hlookup := (Assoc.lookup_eq_some_iff h.keys).mpr he
    rw [h.document hlookup]
    exact hlookup
  constructor
  · intro hfind
    exact ⟨hmem (List.mem_of_find?_eq_some hfind), by simpa using List.find?_some hfind⟩
  · rintro ⟨hl, rfl⟩
    have hin : l ∈ s.leases.map Prod.snd :=
      List.mem_map_of_mem ((Assoc.lookup_eq_some_iff h.keys).mp hl)
    have hsome : (s.find l.leaseId).isSome := List.find?_isSome.mpr ⟨l, hin, by simp⟩
    obtain ⟨l', hfind⟩ := Option.isSome_iff_exists.mp hsome
    have hid : l'.leaseId = l.leaseId := by simpa using List.find?_some hfind
    rw [hfind, h.same (hmem (List.mem_of_find?_eq_some hfind)) hl hid]

/-- After a release, the leases of other identifiers. -/
theorem Wf.lookup_release (h : s.Wf used now) (id d : String) :
    (s.release id).leases.lookup d = (s.leases.lookup d).filter (fun l => decide (l.leaseId ≠ id)) := by
  unfold release
  cases hfind : s.leases.find? (fun e => decide (e.2.leaseId = id)) with
  | none =>
      cases hl : s.leases.lookup d with
      | none => rfl
      | some l =>
          have hne : l.leaseId ≠ id := by
            simpa using List.find?_eq_none.mp hfind _ ((Assoc.lookup_eq_some_iff h.keys).mp hl)
          simp [Option.filter_some, hne]
  | some e =>
      obtain ⟨d', l'⟩ := e
      have hl' := (Assoc.lookup_eq_some_iff h.keys).mpr (List.mem_of_find?_eq_some hfind)
      have hid : l'.leaseId = id := by simpa using List.find?_some hfind
      rw [Assoc.lookup_remove]
      split_ifs with hd
      · subst hd
        simp [hl', Option.filter_some, hid]
      · cases hl : s.leases.lookup d with
        | none => rfl
        | some l =>
            have hne : l.leaseId ≠ id := fun hid' => hd (h.unique hl hl' (hid'.trans hid.symm))
            simp [Option.filter_some, hne]

/-! ## What a call does -/

/-- An acquisition is refused, or the document gets a lease that starts now. -/
theorem tryAcquire_cases (s : InMemoryLeaseStore) (id d owner : String) (ttl now : Time) :
    (∃ e, s.tryAcquire id d owner ttl now = (.error e, s) ∧ ((s.activeLease d now).isSome ∨ ttl ≤ 0)) ∨
    ((∀ l, s.leases.lookup d = some l → l.expiresAt ≤ now) ∧ 0 < ttl ∧
      ∃ l : WriterLease, l = ⟨id, d, owner, now, now + ttl, now⟩ ∧
        s.tryAcquire id d owner ttl now = (.ok (some l), { leases := Assoc.set s.leases d l })) := by
  unfold tryAcquire
  cases hactive : s.activeLease d now with
  | some current => exact .inl ⟨_, rfl, .inl rfl⟩
  | none =>
      by_cases httl : ttl ≤ 0
      · have hvalid : (⟨id, d, owner, now, now + ttl, now⟩ : WriterLease).validated =
            .error (.valueError "expires_at must be later than acquired_at") :=
          if_pos (show now + ttl ≤ now by linarith)
        simp only [hvalid]
        exact .inl ⟨_, rfl, .inr httl⟩
      · have hvalid : (⟨id, d, owner, now, now + ttl, now⟩ : WriterLease).validated = .ok _ :=
          WriterLease.validated_eq_ok (le_refl now) (show now < now + ttl by linarith)
        refine .inr ⟨fun l hl => ?_, not_le.mp httl, _, rfl, by simp only [hvalid]⟩
        have hnone := Option.filter_eq_none_iff.mp hactive l hl
        simpa using hnone

/-- A renewal is refused, or moves the end of a lease that is not over. -/
theorem Wf.renew_cases (h : s.Wf used now) (id : String) (ttl : Time) :
    (∃ e, s.renew id ttl now = (.error e, s) ∧ ∀ l, s.find id = some l → l.expiresAt ≤ now) ∨
    ∃ l r : WriterLease, s.find id = some l ∧ s.leases.lookup l.documentId = some l ∧ l.leaseId = id ∧
      now < l.expiresAt ∧ r = { l with heartbeatAt := now, expiresAt := now + ttl } ∧
      s.renew id ttl now = (.ok (some r), { leases := Assoc.set s.leases l.documentId r }) := by
  unfold renew
  cases hfind : s.find id with
  | none => exact .inl ⟨_, rfl, nofun⟩
  | some l =>
      obtain ⟨hl, hid⟩ := h.find_eq_some_iff.mp hfind
      by_cases hover : l.expiresAt ≤ now
      · refine .inl ⟨_, by simp only [if_pos hover]; rfl, fun l' hl' => ?_⟩
        rw [← Option.some.inj hl']
        exact hover
      · exact .inr ⟨l, _, rfl, hl, hid, not_le.mp hover, rfl, by simp only [if_neg hover]⟩

/-- The dictionary stays well formed when a document gets a new lease, or its lease a new end. -/
theorem Wf.set (h : s.Wf used now) {used' : List String} {l : WriterLease} (hused : ∀ id ∈ used, id ∈ used')
    (hid : l.leaseId ∈ used') (hl : l.acquiredAt ≤ l.heartbeatAt ∧ l.heartbeatAt < l.expiresAt ∧ l.heartbeatAt ≤ now)
    (hunique : ∀ d l', s.leases.lookup d = some l' → l'.leaseId = l.leaseId → d = l.documentId) :
    Wf { leases := Assoc.set s.leases l.documentId l } used' now := by
  have hcases {d : String} {l' : WriterLease}
      (hl' : (Assoc.set s.leases l.documentId l).lookup d = some l') :
      d = l.documentId ∧ l' = l ∨ d ≠ l.documentId ∧ s.leases.lookup d = some l' := by
    rw [Assoc.lookup_set] at hl'
    split_ifs at hl' with hd
    · exact .inl ⟨hd, (Option.some.inj hl').symm⟩
    · exact .inr ⟨hd, hl'⟩
  constructor
  · exact Assoc.nodup_set h.keys _ _
  · intro d l' hl'
    rcases hcases hl' with ⟨rfl, rfl⟩ | ⟨_, hl'⟩
    · rfl
    · exact h.document hl'
  · intro d d' l₁ l₂ h₁ h₂ heq
    rcases hcases h₁ with ⟨hd, rfl⟩ | ⟨_, h₁⟩ <;> rcases hcases h₂ with ⟨hd', hl₂⟩ | ⟨_, h₂⟩
    · rw [hd, hd']
    · rw [hd, hunique d' l₂ h₂ heq.symm]
    · rw [hd', hunique d l₁ h₁ (hl₂ ▸ heq)]
    · exact h.unique h₁ h₂ heq
  · intro d l' hl'
    rcases hcases hl' with ⟨rfl, rfl⟩ | ⟨_, hl'⟩
    · exact hid
    · exact hused _ (h.used hl')
  · intro d l' hl'
    rcases hcases hl' with ⟨rfl, rfl⟩ | ⟨_, hl'⟩
    · exact hl
    · exact h.ordered hl'

theorem Wf.release (h : s.Wf used now) (id : String) : (s.release id).Wf used now := by
  have hsub {d : String} {l : WriterLease} (hl : (s.release id).leases.lookup d = some l) :
      s.leases.lookup d = some l := by
    rw [h.lookup_release, Option.filter_eq_some_iff] at hl
    exact hl.1
  have hkeys : ((s.release id).leases.map Prod.fst).Nodup := by
    unfold InMemoryLeaseStore.release
    split
    · exact Assoc.nodup_remove h.keys _
    · exact h.keys
  exact ⟨hkeys, fun hl => h.document (hsub hl), fun hl hl' => h.unique (hsub hl) (hsub hl'),
    fun hl => h.used (hsub hl), fun hl => h.ordered (hsub hl)⟩

/-- Every call leaves the dictionary well formed. -/
theorem Wf.call (h : s.Wf used now) {call : LeaseCall} (hcall : call.Promised used) :
    (port.call now call s).2.Wf (call.mark used) now := by
  cases call with
  | tryAcquire id d owner ttl =>
      have hmark : ∀ i ∈ used, i ∈ LeaseCall.mark (.tryAcquire id d owner ttl) used :=
        fun i hi => List.mem_append_left _ hi
      have hkeep : s.Wf (LeaseCall.mark (.tryAcquire id d owner ttl) used) now :=
        { h with used := fun hl => hmark _ (h.used hl) }
      rcases tryAcquire_cases s id d owner ttl now with ⟨e, hres, _⟩ | ⟨_, httl, l, rfl, hres⟩
      · rw [show port.call now (.tryAcquire id d owner ttl) s = _ from hres]
        exact hkeep
      · rw [show port.call now (.tryAcquire id d owner ttl) s = _ from hres]
        refine h.set (l := ⟨id, d, owner, now, now + ttl, now⟩) hmark
          (List.mem_append_right _ (List.mem_singleton_self id))
          ⟨le_refl now, lt_add_of_pos_right now httl, le_refl now⟩ (fun d' l' hl' hid => ?_)
        have hused : l'.leaseId = id := hid
        exact absurd (hused ▸ h.used hl') (hcall.fresh id rfl)
  | renew id ttl =>
      have hmark : LeaseCall.mark (.renew id ttl) used = used := List.append_nil _
      rw [hmark]
      rcases h.renew_cases id ttl with ⟨e, hres, _⟩ | ⟨l, r, _, hl, _, _, rfl, hres⟩
      · rw [show port.call now (.renew id ttl) s = _ from hres]
        exact h
      · rw [show port.call now (.renew id ttl) s = _ from hres]
        obtain ⟨hacq, _, hpast⟩ := h.ordered hl
        have hused : l.leaseId ∈ used := h.used hl
        exact h.set (l := { l with heartbeatAt := now, expiresAt := now + ttl }) (fun _ hi => hi) hused
          ⟨hacq.trans hpast, lt_add_of_pos_right now (hcall.ttl ttl rfl), le_refl now⟩
          (fun d' l' hl' hid => h.unique hl' hl hid)
  | release id =>
      have hmark : LeaseCall.mark (.release id) used = used := List.append_nil _
      rw [hmark]
      exact h.release id

end InMemoryLeaseStore

/-! ## The table -/

/-- The rows are the leases of the dictionary. -/
def SameLeases (m : InMemoryLeaseStore) (q : SqlLeaseStore) : Prop :=
  ∀ l, l ∈ q.rows ↔ m.leases.lookup l.documentId = some l

variable {m : InMemoryLeaseStore} {q : SqlLeaseStore} {used : List String} {now : Time}

theorem SameLeases.find_eq (h : SameLeases m q) (hwf : m.Wf used now) (id : String) : q.find id = m.find id := by
  apply Option.ext
  intro l
  rw [hwf.find_eq_some_iff]
  constructor
  · intro hfind
    exact ⟨(h l).mp (List.mem_of_find?_eq_some hfind), by simpa using List.find?_some hfind⟩
  · rintro ⟨hl, rfl⟩
    have hsome : (q.find l.leaseId).isSome := List.find?_isSome.mpr ⟨l, (h l).mpr hl, by simp⟩
    obtain ⟨l', hfind⟩ := Option.isSome_iff_exists.mp hsome
    have hid : l'.leaseId = l.leaseId := by simpa using List.find?_some hfind
    rw [hfind, hwf.same ((h l').mp (List.mem_of_find?_eq_some hfind)) hl hid]

/-- A row stands in the way of an acquisition just when the document has a lease that is not over. -/
theorem SameLeases.blocked_iff (h : SameLeases m q) (hwf : m.Wf used now) {id d : String} (hid : id ∉ used) :
    (q.rows.filter (fun row => !decide (row.documentId = d ∧ row.expiresAt ≤ now))).any
        (fun row => decide (row.leaseId = id ∨ row.documentId = d)) = true ↔
      (m.activeLease d now).isSome := by
  have hactive : (m.activeLease d now).isSome ↔ ∃ l, m.leases.lookup d = some l ∧ now < l.expiresAt := by
    simp [InMemoryLeaseStore.activeLease, Option.any_eq_true]
  rw [hactive, List.any_eq_true]
  constructor
  · rintro ⟨row, hrow, hhit⟩
    obtain ⟨hmem, hkept⟩ := List.mem_filter.mp hrow
    have hlookup := (h row).mp hmem
    rcases of_decide_eq_true hhit with hhit | rfl
    · exact absurd (hhit ▸ hwf.used hlookup) hid
    · exact ⟨row, hlookup, by simpa using hkept⟩
  · rintro ⟨l, hl, hlt⟩
    obtain rfl := hwf.document hl
    exact ⟨l, List.mem_filter.mpr ⟨(h l).mpr hl, by simpa using hlt⟩, by simp⟩

/-- The rows that an acquisition does not delete. -/
def SqlLeaseStore.kept (q : SqlLeaseStore) (d : String) (now : Time) : List WriterLease :=
  q.rows.filter (fun row => !decide (row.documentId = d ∧ row.expiresAt ≤ now))

/-- Whether a row stands in the way of an insertion. -/
def SqlLeaseStore.Blocked (q : SqlLeaseStore) (id d : String) (now : Time) : Prop :=
  (q.kept d now).any (fun row => decide (row.leaseId = id ∨ row.documentId = d)) = true

theorem SqlLeaseStore.tryAcquire_refused {id d owner : String} {ttl : Time} (h : q.Blocked id d now ∨ ttl ≤ 0) :
    ∃ e, q.tryAcquire id d owner ttl now = (.error e, q) := by
  by_cases httl : ttl ≤ 0
  · have hvalid : (⟨id, d, owner, now, now + ttl, now⟩ : WriterLease).validated = .error _ :=
      if_pos (show now + ttl ≤ now by linarith)
    simp only [tryAcquire, hvalid]
    exact ⟨_, rfl⟩
  · have hvalid : (⟨id, d, owner, now, now + ttl, now⟩ : WriterLease).validated = .ok _ :=
      WriterLease.validated_eq_ok (le_refl now) (lt_add_of_pos_right now (not_le.mp httl))
    have hblocked : (q.kept d now).any (fun row => decide (row.leaseId = id ∨ row.documentId = d)) = true :=
      h.resolve_right httl
    simp only [tryAcquire, hvalid]
    exact ⟨_, if_pos hblocked⟩

theorem SqlLeaseStore.tryAcquire_granted {id d owner : String} {ttl : Time} (h : ¬ q.Blocked id d now)
    (httl : 0 < ttl) :
    q.tryAcquire id d owner ttl now =
      (.ok (some ⟨id, d, owner, now, now + ttl, now⟩),
        { rows := q.kept d now ++ [⟨id, d, owner, now, now + ttl, now⟩] }) := by
  have hvalid : (⟨id, d, owner, now, now + ttl, now⟩ : WriterLease).validated = .ok _ :=
    WriterLease.validated_eq_ok (le_refl now) (lt_add_of_pos_right now httl)
  simp only [tryAcquire, hvalid]
  exact if_neg h

/-- A row that is kept belongs to another document, when the document's own lease is over. -/
theorem SameLeases.mem_kept_iff (h : SameLeases m q) {d : String}
    (hover : ∀ l, m.leases.lookup d = some l → l.expiresAt ≤ now) {l : WriterLease} :
    l ∈ q.kept d now ↔ l.documentId ≠ d ∧ m.leases.lookup l.documentId = some l := by
  rw [SqlLeaseStore.kept, List.mem_filter, h l]
  constructor
  · rintro ⟨hl, hkept⟩
    refine ⟨?_, hl⟩
    rintro rfl
    have hexpired := hover l hl
    simp [hexpired] at hkept
  · rintro ⟨hd, hl⟩
    exact ⟨hl, by simp [hd]⟩

theorem SameLeases.tryAcquire (h : SameLeases m q) (hwf : m.Wf used now) {id d owner : String} {ttl : Time}
    (hid : id ∉ used) :
    (m.tryAcquire id d owner ttl now).1.toOption = (q.tryAcquire id d owner ttl now).1.toOption ∧
      SameLeases (m.tryAcquire id d owner ttl now).2 (q.tryAcquire id d owner ttl now).2 := by
  have hblocked : q.Blocked id d now ↔ _ := h.blocked_iff hwf hid
  rcases m.tryAcquire_cases id d owner ttl now with ⟨e, hmem, hwhy⟩ | ⟨hover, httl, l, rfl, hmem⟩
  · obtain ⟨e', hsql⟩ : ∃ e', q.tryAcquire id d owner ttl now = (.error e', q) :=
      SqlLeaseStore.tryAcquire_refused (hwhy.imp_left hblocked.mpr)
    rw [hmem, hsql]
    exact ⟨rfl, h⟩
  · have hfree : ¬ q.Blocked id d now := by
      rw [hblocked, InMemoryLeaseStore.activeLease, Option.not_isSome_iff_eq_none, Option.filter_eq_none_iff]
      intro l hl
      simpa using hover l hl
    rw [hmem, SqlLeaseStore.tryAcquire_granted hfree httl]
    refine ⟨rfl, fun l => ?_⟩
    rw [List.mem_append, List.mem_singleton, h.mem_kept_iff hover, Assoc.lookup_set]
    split_ifs with hd
    · simp [hd, eq_comm]
    · constructor
      · rintro (⟨_, hl⟩ | rfl)
        · exact hl
        · exact absurd rfl hd
      · exact fun hl => .inl ⟨hd, hl⟩

theorem SameLeases.renew (h : SameLeases m q) (hwf : m.Wf used now) {id : String} {ttl : Time} (httl : 0 < ttl) :
    (m.renew id ttl now).1.toOption = (q.renew id ttl now).1.toOption ∧
      SameLeases (m.renew id ttl now).2 (q.renew id ttl now).2 := by
  unfold SqlLeaseStore.renew
  rw [h.find_eq hwf]
  rcases hwf.renew_cases id ttl with ⟨e, hmem, hwhy⟩ | ⟨l, r, hfind, hl, rfl, hlt, rfl, hmem⟩
  · rw [hmem]
    cases hfind : m.find id with
    | none => exact ⟨rfl, h⟩
    | some l =>
        simp only [if_pos (hwhy l hfind)]
        exact ⟨rfl, h⟩
  · obtain ⟨hacq, _, hpast⟩ := hwf.ordered hl
    have hvalid : ({ l with heartbeatAt := now, expiresAt := now + ttl } : WriterLease).validated = .ok _ :=
      WriterLease.validated_eq_ok (hacq.trans hpast) (lt_add_of_pos_right now httl)
    simp only [hmem, hfind, if_neg (not_le.mpr hlt), hvalid]
    refine ⟨rfl, fun k => ?_⟩
    rw [List.mem_map, Assoc.lookup_set]
    constructor
    · rintro ⟨row, hrow, rfl⟩
      have hlookup := (h row).mp hrow
      split_ifs with hsame hd hd
      · rfl
      · exact absurd rfl hd
      · have hrl : row = l := Option.some.inj (hlookup.symm.trans (hd ▸ hl))
        exact absurd (congrArg WriterLease.leaseId hrl) hsame
      · exact hlookup
    · intro hk
      split_ifs at hk with hd
      · exact ⟨l, (h l).mpr hl, by rw [if_pos rfl]; exact Option.some.inj hk⟩
      · refine ⟨k, (h k).mpr hk, if_neg (fun hsame => hd (hwf.unique hk hl hsame))⟩

theorem SameLeases.release (h : SameLeases m q) (hwf : m.Wf used now) (id : String) :
    SameLeases (m.release id) (q.release id) := by
  intro l
  rw [hwf.lookup_release, Option.filter_eq_some_iff, SqlLeaseStore.release, List.mem_filter, h l]

/-- Both stores answer a call alike, and go on alike. -/
theorem SameLeases.call (h : SameLeases m q) (hwf : m.Wf used now) {call : LeaseCall}
    (hcall : call.Promised used) :
    (InMemoryLeaseStore.port.call now call m).1.toOption = (SqlLeaseStore.port.call now call q).1.toOption ∧
      SameLeases (InMemoryLeaseStore.port.call now call m).2 (SqlLeaseStore.port.call now call q).2 := by
  cases call with
  | tryAcquire id d owner ttl => exact h.tryAcquire hwf (hcall.fresh id rfl)
  | renew id ttl => exact h.renew hwf (hcall.ttl ttl rfl)
  | release id => exact ⟨rfl, h.release hwf id⟩

end CadHarness.Persistence
