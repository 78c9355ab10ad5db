import CadHarness.Journal.Lemmas.Effect

/-!
# The invariant of the journal

Every request that has a reservation to complete finds the entry as it left it, and is alone with its
key. A request whose commit was started keeps the key from all others, until it abandons.
-/

namespace CadHarness.Journal
open CadHarness.Lib DurableCommitJournal

variable {P : Primitives} {s s' : Site} {tr : List CommitEvent}

/-- The requests in progress, and how far each has come. -/
abbrev Stages := Nat → Option (CommitCall × Stage)

variable {qs : Stages}

/-- The commit callback of the request is started. -/
def started (i : Nat) (c : CommitCall) : CommitEvent := Event.act (S := commitSig) i c .startCommit ()

/-- The commit callback of the request ends. -/
def awaited (i : Nat) (c : CommitCall) (r : Except Unit BridgeHostResult) : CommitEvent :=
  Event.act (S := commitSig) i c .awaitCommit r

/-- The request removes its reservation. -/
def IsAbandon (i : Nat) (e : CommitEvent) : Prop :=
  ∃ c o r, e = .act i c o r ∧ CommitOp.Abandons o r

def Abandoned (i : Nat) (tr : List CommitEvent) : Prop := ∃ e ∈ tr, IsAbandon i e

/-- A living request that has a reservation of that key to complete. -/
def Holder (P : Primitives) (s : Site) (qs : Stages) (i : Nat) (name : String) : Prop :=
  ∃ c q v, qs i = some (c, q) ∧ q.reservation? = some v ∧ s.Alive c.process ∧ c.keyHash P = name

structure Inv (P : Primitives) (tr : List CommitEvent) (s : Site) (qs : Stages) : Prop where
  positive : ∀ p, s.Alive p → p.Positive
  present : ∀ {i c q}, qs i = some (c, q) → s.process c.process ≠ .absent
  valid : Valid P s.files
  clean : Clean s.files
  held : ∀ {i c q v}, qs i = some (c, q) → q.reservation? = some v → s.Alive c.process →
    ∃ e, s.files.lookup (c.keyHash P) = some e ∧ HeldAs P c q v e
  unique : ∀ {i j name}, Holder P s qs i name → Holder P s qs j name → i = j
  exclusive : ∀ {i c}, started i c ∈ tr → Abandoned i tr ∨
    (s.files.lookup (c.keyHash P) ≠ none ∧ ∀ j, Holder P s qs j (c.keyHash P) → j = i)
  unstarted : ∀ {i c q}, qs i = some (c, q) →
    q = .arrived ∨ q = .authorized ∨ (∃ v, q = .reserved v) → ∀ c', started i c' ∉ tr
  unabandoned : ∀ {i c q}, qs i = some (c, q) → (∀ a, q ≠ .done a) → ¬ Abandoned i tr
  outcome : ∀ {i c v r}, qs i = some (c, .settled v r) → awaited i c r ∈ tr
  definite : ∀ {i}, Abandoned i tr → ∃ c result, awaited i c (.ok result) ∈ tr ∧
    result.outcome ≠ .ok ∧ result.outcome ≠ .unknownCommitState
  succeeds : ∀ {i c a}, qs i = some (c, .done a) → a.outcome = .ok → CommittedAs P s.files c a
  replied : ∀ {i c a}, Event.reply i c a ∈ tr → a.outcome = .ok → CommittedAs P s.files c a

/-! ## Entries that stay -/

theorem Effect.settled {c : CommitCall} {q : Stage} {x y : Option JournalEnvelope}
    (h : Effect P s c q x y) {e : JournalEnvelope} (hx : x = some e)
    (he : e.payload.state ≠ .prepared) : y = some e := by
  cases h with
  | kept => exact hx
  | reserved _ => cases hx
  | committed _ hO => cases hx; exact absurd hO.state he
  | unknown hst _ => cases hx; exact absurd hst he
  | removed _ hO => cases hx; exact absurd hO.state he

theorem Touches.settled {c : CommitCall} {q : Stage} (h : Touches P s c q s') {name : String}
    {e : JournalEnvelope} (he : s.files.lookup name = some e) (hst : e.payload.state ≠ .prepared) :
    s'.files.lookup name = some e := by
  by_cases hn : name = c.keyHash P
  · subst hn; exact h.own.settled he hst
  · rw [h.others name hn]; exact he

/-- What happens to the entries when a process starts. -/
def Recovered (P : Primitives) (s s' : Site) : Prop :=
  ∀ name, s'.files.lookup name = s.files.lookup name ∨
    ∃ e, s.files.lookup name = some e ∧ ValidEntry P name e ∧ e.payload.state = .prepared ∧
      ¬ s.Alive (owner e.payload) ∧ Sized P e.payload.asUnknown ∧
      s'.files.lookup name = some (envelope P e.payload.asUnknown)

theorem Recovered.settled (h : Recovered P s s') {name : String} {e : JournalEnvelope}
    (he : s.files.lookup name = some e) (hst : e.payload.state ≠ .prepared) :
    s'.files.lookup name = some e := by
  rcases h name with h | ⟨e', he', _, hst', _⟩
  · rw [h]; exact he
  · rw [he] at he'; cases he'; exact absurd hst' hst

theorem CommittedAs.keep {c : CommitCall} {a : BridgeHostResult} (h : CommittedAs P s.files c a)
    (hs : ∀ name e, s.files.lookup name = some e → e.payload.state ≠ .prepared →
      s'.files.lookup name = some e) : CommittedAs P s'.files c a := by
  obtain ⟨hid, e, data, he, hst, hd, ha, hr⟩ := h
  exact ⟨hid, e, data, hs _ _ he (by rw [hst]; exact nofun), hst, hd, ha, hr⟩

theorem HeldAs.owner {c : CommitCall} {q : Stage} {v : String} {e : JournalEnvelope}
    (h : HeldAs P c q v e) (hst : e.payload.state = .prepared) :
    CadHarness.Journal.owner e.payload = c.process := by
  rcases h.2 with h | ⟨_, h⟩
  · rw [h]; rfl
  · rw [hst] at h; cases h

theorem Effect.clean {c : CommitCall} {q : Stage} {x y : Option JournalEnvelope}
    (h : Effect P s c q x y)
    (hx : ∀ e data, x = some e → e.payload.resultData = some data → data.lookup "job_id" = none)
    {e : JournalEnvelope} {data : JsonObject} (hy : y = some e)
    (hdata : e.payload.resultData = some data) : data.lookup "job_id" = none := by
  cases h with
  | kept => exact hx e data hy hdata
  | reserved _ => cases hy; cases hdata
  | committed _ _ => cases hy; cases hdata; exact Assoc.lookup_remove_self _ _
  | unknown _ _ => cases hy; cases hdata
  | removed _ _ => cases hy

theorem Recovered.valid (h : Recovered P s s') (hV : Valid P s.files) : Valid P s'.files := by
  intro name e he
  rcases h name with h | ⟨e', he', hv, _, _, hs, h⟩
  · rw [h] at he; exact hV name e he
  · rw [h] at he
    cases he
    exact ⟨rfl, hs, hv.record.complete (by simp)⟩

theorem Recovered.clean (h : Recovered P s s') (hc : Clean s.files) : Clean s'.files := by
  intro name e data he hdata
  rcases h name with h | ⟨e', _, _, _, _, _, h⟩
  · rw [h] at he; exact hc name e data he hdata
  · rw [h] at he; cases he; cases hdata

theorem Recovered.present (h : Recovered P s s') {name : String} (hn : s.files.lookup name ≠ none) :
    s'.files.lookup name ≠ none := by
  rcases h name with h | ⟨_, _, _, _, _, _, h⟩
  · rw [h]; exact hn
  · rw [h]; exact nofun

/-! ## Steps of the world -/

theorem Abandoned.append {i : Nat} (h : Abandoned i tr) (tr' : List CommitEvent) :
    Abandoned i (tr ++ tr') := by
  obtain ⟨e, he, ha⟩ := h
  exact ⟨e, List.mem_append_left _ he, ha⟩

theorem abandoned_snoc {i : Nat} {e : CommitEvent} (h : Abandoned i (tr ++ [e])) :
    Abandoned i tr ∨ IsAbandon i e := by
  obtain ⟨x, hx, ha⟩ := h
  rcases List.mem_append.mp hx with hx | hx
  · exact Or.inl ⟨x, hx, ha⟩
  · rw [List.mem_singleton.mp hx] at ha; exact Or.inr ha

theorem mem_snoc {x e : CommitEvent} (h : x ∈ tr ++ [e]) (hne : x ≠ e) : x ∈ tr :=
  (List.mem_append.mp h).resolve_right (fun h => hne (List.mem_singleton.mp h))

theorem Inv.world (h : Inv P tr s qs) {ev : ProcessEvent} (hpos : ∀ p, s'.Alive p → p.Positive)
    (hpresent : ∀ p, s.process p ≠ .absent → s'.process p ≠ .absent)
    (halive : ∀ p, s.process p ≠ .absent → s'.Alive p → s.Alive p) (hrec : Recovered P s s') :
    Inv P (tr ++ [.env ev]) s' qs := by
  have hholder : ∀ {i name}, Holder P s' qs i name → Holder P s qs i name := by
    rintro i name ⟨c, q, v, hi, hv, ha, hn⟩
    exact ⟨c, q, v, hi, hv, halive _ (h.present hi) ha, hn⟩
  have habandon : ∀ {i}, Abandoned i (tr ++ [.env ev]) → Abandoned i tr := by
    intro i ha
    refine (abandoned_snoc ha).resolve_right ?_
    rintro ⟨_, _, _, hev, _⟩
    cases hev
  refine ⟨hpos, fun hi => hpresent _ (h.present hi), hrec.valid h.valid, hrec.clean h.clean, ?_, ?_,
    ?_, ?_, ?_, ?_, ?_, ?_, ?_⟩
  · intro i c q v hi hv ha
    have ha := halive _ (h.present hi) ha
    obtain ⟨e, he, hheld⟩ := h.held hi hv ha
    rcases hrec (c.keyHash P) with hr | ⟨e', he', _, hst, hdead, _⟩
    · exact ⟨e, by rw [hr]; exact he, hheld⟩
    · rw [he] at he'
      cases he'
      rw [hheld.owner hst] at hdead
      exact absurd ha hdead
  · exact fun hi hj => h.unique (hholder hi) (hholder hj)
  · intro i c hs
    rcases h.exclusive (mem_snoc hs nofun) with ha | ⟨hn, hx⟩
    · exact Or.inl (ha.append _)
    · exact Or.inr ⟨hrec.present hn, fun j hj => hx j (hholder hj)⟩
  · exact fun hi hq c' hs => h.unstarted hi hq c' (mem_snoc hs nofun)
  · exact fun hi hq ha => h.unabandoned hi hq (habandon ha)
  · exact fun hi => List.mem_append_left _ (h.outcome hi)
  · intro i ha
    obtain ⟨c, result, hw, hne⟩ := h.definite (habandon ha)
    exact ⟨c, result, List.mem_append_left _ hw, hne⟩
  · exact fun hi ho => (h.succeeds hi ho).keep (fun _ _ => hrec.settled)
  · exact fun hr ho => (h.replied (mem_snoc hr nofun) ho).keep (fun _ _ => hrec.settled)

theorem Recovers.recovered {io : Io} {files : Directory} (hio : s.Sound io)
    (h : Recovers P io s.files files) (hf : s'.files = files) : Recovered P s s' := by
  intro name
  rw [hf]
  rcases h name with h | ⟨e, he, hv, hst, hdead, hs, h⟩
  · exact Or.inl h
  · exact Or.inr ⟨e, he, hv, hst, hio _ hdead, hs, h⟩

theorem Site.Env.recovered {ev : ProcessEvent} (he : Site.Env P s ev s') : Recovered P s s' := by
  cases he with
  | started _ _ _ hio hnew => exact Recovers.recovered hio (new_post.ok hnew) rfl
  | startFailed _ hio hnew => exact Recovers.recovered hio (new_post.error hnew) rfl
  | crashed _ => exact fun _ => Or.inl rfl

theorem Inv.env (h : Inv P tr s qs) {ev : ProcessEvent} (he : Site.Env P s ev s') :
    Inv P (tr ++ [.env ev]) s' qs := by
  have hrec := he.recovered
  cases he with
  | @started p io t habs hid htime _ _ =>
      refine h.world ?_ ?_ ?_ hrec
      · rintro p' ⟨records, hp'⟩
        by_cases hp : p' = p
        · subst hp; exact ⟨hid, htime⟩
        · exact h.positive p' ⟨records, by rwa [Site.after_of_ne hp] at hp'⟩
      · intro p' hp'
        by_cases hp : p' = p
        · subst hp; exact absurd habs hp'
        · rwa [Site.after_of_ne hp]
      · rintro p' hp' ⟨records, ha⟩
        by_cases hp : p' = p
        · subst hp; exact absurd habs hp'
        · exact ⟨records, by rwa [Site.after_of_ne hp] at ha⟩
  | startFailed _ _ _ => exact h.world h.positive (fun _ h => h) (fun _ _ h => h) hrec
  | @crashed p hp =>
      have hpast : ∀ p', (s.setStatus p .exited).Alive p' → s.Alive p' := by
        rintro p' ⟨records, ha⟩
        by_cases hp' : p' = p
        · subst hp'; rw [Site.setStatus_self] at ha; cases ha
        · exact ⟨records, by rwa [Site.setStatus_of_ne hp'] at ha⟩
      refine h.world (fun p' ha => h.positive p' (hpast p' ha)) ?_ (fun p' _ ha => hpast p' ha) hrec
      intro p' hp'
      by_cases hpp : p' = p
      · subst hpp; rw [Site.setStatus_self]; exact nofun
      · rwa [Site.setStatus_of_ne hpp]

/-! ## Steps of a request -/

theorem update_cases {i j : Nat} {x y : Option (CommitCall × Stage)}
    (h : Function.update qs i x j = y) : (j = i ∧ x = y) ∨ (j ≠ i ∧ qs j = y) := by
  by_cases hj : j = i
  · subst hj; rw [Function.update_self] at h; exact Or.inl ⟨rfl, h⟩
  · rw [Function.update_of_ne hj] at h; exact Or.inr ⟨hj, h⟩

theorem IsAbandon.thread {i : Nat} {e : CommitEvent} (h : IsAbandon i e) : e.thread? = some i := by
  obtain ⟨_, _, _, rfl, _⟩ := h
  rfl

theorem Inv.start (h : Inv P tr s qs) {i : Nat} {c : CommitCall}
    (hfresh : ∀ e ∈ tr, e.thread? ≠ some i) (ha : s.Alive c.process) :
    Inv P (tr ++ [.start i c]) s (Function.update qs i (some (c, .arrived))) := by
  have hholder : ∀ {j name}, Holder P s (Function.update qs i (some (c, .arrived))) j name →
      Holder P s qs j name := by
    rintro j name ⟨d, q, v, hj, hv, hd, hn⟩
    rcases update_cases hj with ⟨_, hj⟩ | ⟨_, hj⟩
    · cases hj; cases hv
    · exact ⟨d, q, v, hj, hv, hd, hn⟩
  have habandon : ∀ {j}, Abandoned j (tr ++ [.start i c]) → Abandoned j tr := by
    intro j hab
    refine (abandoned_snoc hab).resolve_right ?_
    rintro ⟨_, _, _, hev, _⟩
    cases hev
  refine ⟨h.positive, ?_, h.valid, h.clean, ?_, ?_, ?_, ?_, ?_, ?_, ?_, ?_, ?_⟩
  · intro j d q hj
    rcases update_cases hj with ⟨_, hj⟩ | ⟨_, hj⟩
    · cases hj
      obtain ⟨records, hr⟩ := ha
      rw [hr]; exact nofun
    · exact h.present hj
  · intro j d q v hj hv hd
    rcases update_cases hj with ⟨_, hj⟩ | ⟨_, hj⟩
    · cases hj; cases hv
    · exact h.held hj hv hd
  · exact fun hi hj => h.unique (hholder hi) (hholder hj)
  · intro j d hs
    rcases h.exclusive (mem_snoc hs nofun) with hab | ⟨hn, hx⟩
    · exact Or.inl (hab.append _)
    · exact Or.inr ⟨hn, fun k hk => hx k (hholder hk)⟩
  · intro j d q hj hq c' hs
    have hs' := mem_snoc hs nofun
    rcases update_cases hj with ⟨rfl, _⟩ | ⟨_, hj⟩
    · exact hfresh (started j c') hs' rfl
    · exact h.unstarted hj hq c' hs'
  · intro j d q hj hq hab
    obtain ⟨e, he, hisab⟩ := habandon hab
    rcases update_cases hj with ⟨rfl, _⟩ | ⟨_, hj⟩
    · exact hfresh _ he hisab.thread
    · exact h.unabandoned hj hq ⟨e, he, hisab⟩
  · intro j d v r hj
    rcases update_cases hj with ⟨_, hj⟩ | ⟨_, hj⟩
    · cases hj
    · exact List.mem_append_left _ (h.outcome hj)
  · intro j hab
    obtain ⟨d, result, hw, hne⟩ := h.definite (habandon hab)
    exact ⟨d, result, List.mem_append_left _ hw, hne⟩
  · intro j d a hj
    rcases update_cases hj with ⟨_, hj⟩ | ⟨_, hj⟩
    · cases hj
    · exact h.succeeds hj
  · exact fun hr ho => h.replied (mem_snoc hr nofun) ho

theorem Inv.reply (h : Inv P tr s qs) {i : Nat} {c : CommitCall} {a : BridgeHostResult}
    (hi : qs i = some (c, .done a)) :
    Inv P (tr ++ [.reply i c a]) s (Function.update qs i none) := by
  have hqs : ∀ {j x}, Function.update qs i none j = some x → qs j = some x := by
    intro j x hj
    rcases update_cases hj with ⟨_, hj⟩ | ⟨_, hj⟩
    · cases hj
    · exact hj
  have hholder : ∀ {j name}, Holder P s (Function.update qs i none) j name → Holder P s qs j name := by
    rintro j name ⟨d, q, v, hj, hv, hd, hn⟩
    exact ⟨d, q, v, hqs hj, hv, hd, hn⟩
  have habandon : ∀ {j}, Abandoned j (tr ++ [.reply i c a]) → Abandoned j tr := by
    intro j hab
    refine (abandoned_snoc hab).resolve_right ?_
    rintro ⟨_, _, _, hev, _⟩
    cases hev
  refine ⟨h.positive, fun hj => h.present (hqs hj), h.valid, h.clean,
    fun hj hv ha => h.held (hqs hj) hv ha, fun hi hj => h.unique (hholder hi) (hholder hj), ?_,
    fun hj hq c' hs => h.unstarted (hqs hj) hq c' (mem_snoc hs nofun),
    fun hj hq hab => h.unabandoned (hqs hj) hq (habandon hab),
    fun hj => List.mem_append_left _ (h.outcome (hqs hj)), ?_, fun hj => h.succeeds (hqs hj), ?_⟩
  · intro j d hs
    rcases h.exclusive (mem_snoc hs nofun) with hab | ⟨hn, hx⟩
    · exact Or.inl (hab.append _)
    · exact Or.inr ⟨hn, fun k hk => hx k (hholder hk)⟩
  · intro j hab
    obtain ⟨d, result, hw, hne⟩ := h.definite (habandon hab)
    exact ⟨d, result, List.mem_append_left _ hw, hne⟩
  · intro j d b hr ho
    rcases List.mem_append.mp hr with hr | hr
    · exact h.replied hr ho
    · cases List.mem_singleton.mp hr
      exact h.succeeds hi ho

theorem Stage.May.reservation {c : CommitCall} {q : Stage} {o : CommitOp} (h : Stage.May c q o) :
    (∀ a, q ≠ .done a) ∧ (q.reservation? = none → q = .arrived ∨ q = .authorized) := by
  cases h <;> exact ⟨nofun, by simp [Stage.reservation?]⟩

/-- The step does not touch the entry of another living request that has a reservation. -/
theorem Inv.frame (h : Inv P tr s qs) {i j : Nat} {c d : CommitCall} {q q' : Stage} {v : String}
    (hi : qs i = some (c, q)) (ha : s.Alive c.process) (ht : Touches P s c q s')
    (hj : qs j = some (d, q')) (hv : q'.reservation? = some v) (hd : s.Alive d.process) (hne : j ≠ i) :
    s'.files.lookup (d.keyHash P) = s.files.lookup (d.keyHash P) := by
  by_cases hk : d.keyHash P = c.keyHash P
  · obtain ⟨e, he, hheld⟩ := h.held hj hv hd
    have hother : ∀ w, q.reservation? ≠ some w := by
      intro w hw
      exact hne (h.unique ⟨d, q', v, hj, hv, hd, hk⟩ ⟨c, q, w, hi, hw, ha, rfl⟩)
    have hown := ht.own
    rw [hk] at he ⊢
    rw [he] at hown ⊢
    generalize s'.files.lookup (c.keyHash P) = y at hown
    cases hown with
    | kept => rfl
    | committed hq _ => exact absurd hq (hother _)
    | unknown hst hor =>
        rcases hor with hdead | ⟨w, hq, _⟩
        · rw [hheld.owner hst] at hdead; exact absurd hd hdead
        · exact absurd hq (hother _)
    | removed hq _ => exact absurd hq (hother _)
  · exact ht.others _ hk

theorem Stage.next_started {c : CommitCall} {q : Stage} {o : CommitOp} {r : o.Result}
    (h : Stage.May c q o) (hq : q.next o r = .arrived ∨ q.next o r = .authorized ∨
      ∃ v, q.next o r = .reserved v) : q = .arrived ∨ q = .authorized := by
  cases h with
  | authorize => exact Or.inl rfl
  | begin => exact Or.inr rfl
  | startCommit => rcases hq with hq | hq | ⟨_, hq⟩ <;> cases hq
  | awaitCommit => rcases hq with hq | hq | ⟨_, hq⟩ <;> cases hq
  | markCommitted _ => rcases r with _ | _ <;> rcases hq with hq | hq | ⟨_, hq⟩ <;> cases hq
  | @markUnknown _ r' _ => rcases r' with _ | _ <;> rcases hq with hq | hq | ⟨_, hq⟩ <;> cases hq
  | abandon _ _ => rcases hq with hq | hq | ⟨_, hq⟩ <;> cases hq
  | giveUp => rcases hq with hq | hq | ⟨_, hq⟩ <;> cases hq

theorem Stage.ofDecision_ne_settled (d : CommitJournalDecision) (v : String)
    (r : Except Unit BridgeHostResult) : ofDecision d ≠ .settled v r := by
  obtain ⟨kind, result, rid⟩ := d
  cases kind <;> cases rid <;> exact nofun

theorem Inv.act (h : Inv P tr s qs) {i : Nat} {c : CommitCall} {q : Stage} {o : CommitOp}
    {r : o.Result} (hi : qs i = some (c, q)) (hmay : Stage.May c q o) (ha : s.Alive c.process)
    (hm : Moves P s c q o r s') :
    Inv P (tr ++ [.act i c o r]) s' (Function.update qs i (some (c, q.next o r))) := by
  have halive : ∀ {p}, s'.Alive p → s.Alive p := fun {p} hp => (hm.touches.processes p).1.mp hp
  -- A holder afterwards was one before, or has just found the key free.
  have hholder : ∀ {j name}, Holder P s' (Function.update qs i (some (c, q.next o r))) j name →
      Holder P s qs j name ∨ (j = i ∧ name = c.keyHash P ∧ s.files.lookup name = none) := by
    rintro j name ⟨d, q', v, hj, hv, hd, hn⟩
    rcases update_cases hj with ⟨hji, hj'⟩ | ⟨_, hj'⟩
    · cases hj'
      rcases hm.held v hv with ⟨hq, _⟩ | ⟨hnone, _⟩
      · exact Or.inl ⟨c, q, v, hji ▸ hi, hq, ha, hn⟩
      · subst hn; exact Or.inr ⟨hji, rfl, hnone⟩
    · exact Or.inl ⟨d, q', v, hj', hv, halive hd, hn⟩
  have hfree : ∀ {j name}, Holder P s qs j name → s.files.lookup name ≠ none := by
    rintro j name ⟨d, q', v, hj, hv, hd, rfl⟩ hnone
    obtain ⟨e, he, _⟩ := h.held hj hv hd
    rw [he] at hnone; cases hnone
  refine ⟨fun p hp => h.positive p (halive hp), ?_, hm.touches.valid h.valid, ?_, ?_, ?_, ?_, ?_, ?_,
    ?_, ?_, ?_, ?_⟩
  · intro j d q' hj
    rcases update_cases hj with ⟨_, hj⟩ | ⟨_, hj⟩
    · cases hj; exact (hm.touches.processes _).2 (h.present hi)
    · exact (hm.touches.processes _).2 (h.present hj)
  · intro name e data he hdata
    by_cases hk : name = c.keyHash P
    · subst hk
      exact hm.touches.own.clean (fun e data he hd => h.clean _ e data he hd) he hdata
    · rw [hm.touches.others name hk] at he; exact h.clean name e data he hdata
  · intro j d q' v hj hv hd
    rcases update_cases hj with ⟨_, hj'⟩ | ⟨hne, hj'⟩
    · cases hj'
      rcases hm.held v hv with ⟨_, hheld⟩ | ⟨_, hheld⟩ <;> exact hheld
    · rw [h.frame hi ha hm.touches hj' hv (halive hd) hne]
      exact h.held hj' hv (halive hd)
  · intro j k name hj hk
    rcases hholder hj with hj' | ⟨hji, _, hnone⟩
    · rcases hholder hk with hk' | ⟨_, _, hnone⟩
      · exact h.unique hj' hk'
      · exact absurd hnone (hfree hj')
    · rcases hholder hk with hk' | ⟨hki, _, _⟩
      · exact absurd hnone (hfree hk')
      · rw [hji, hki]
  · intro j d hs
    rcases List.mem_append.mp hs with hs | hs
    · rcases h.exclusive hs with hab | ⟨hn, hx⟩
      · exact Or.inl (hab.append _)
      by_cases hnone : s'.files.lookup (d.keyHash P) = none
      · have hk : d.keyHash P = c.keyHash P := by
          by_contra hk
          rw [hm.touches.others _ hk] at hnone
          exact hn hnone
        rw [hk] at hn hnone hx
        have hab := hm.removes hn hnone
        have hij : i = j := by
          cases hmay with
          | @abandon v _ _ _ => exact hx i ⟨c, _, v, hi, rfl, ha, rfl⟩
          | _ => exact hab.elim
        exact Or.inl ⟨_, List.mem_append_right _ List.mem_cons_self, c, o, r, hij ▸ rfl, hab⟩
      · refine Or.inr ⟨hnone, fun k hk => ?_⟩
        rcases hholder hk with hk | ⟨_, _, hfree⟩
        · exact hx k hk
        · exact absurd hfree hn
    · cases List.mem_singleton.mp hs
      cases hmay with
      | @startCommit v =>
          have hself : Holder P s qs i (c.keyHash P) := ⟨c, _, v, hi, rfl, ha, rfl⟩
          refine Or.inr ⟨?_, fun k hk => ?_⟩
          · rcases hm.held v rfl with ⟨_, e, he, _⟩ | ⟨_, e, he, _⟩ <;> (rw [he]; exact nofun)
          · rcases hholder hk with hk | ⟨hk, _, _⟩
            · exact h.unique hk hself
            · exact hk
  · intro j d q' hj hq c' hs
    rcases update_cases hj with ⟨hji, hj'⟩ | ⟨hne, hj'⟩
    · cases hj'
      subst hji
      have hfirst := Stage.next_started hmay hq
      refine h.unstarted hi (hfirst.imp_right Or.inl) c' (mem_snoc hs ?_)
      intro heq
      cases heq
      cases hmay
      rcases hfirst with hfirst | hfirst <;> cases hfirst
    · refine h.unstarted hj' hq c' (mem_snoc hs ?_)
      intro heq
      cases heq
      exact hne rfl
  · intro j d q' hj hq hab
    rcases update_cases hj with ⟨hji, hj'⟩ | ⟨hne, hj'⟩
    · cases hj'
      subst hji
      rcases abandoned_snoc hab with hab | hab
      · exact h.unabandoned hi hmay.reservation.1 hab
      · obtain ⟨_, _, _, hev, hab⟩ := hab
        cases hev
        cases hmay with
        | abandon _ _ => exact hq _ rfl
        | _ => exact hab
    · rcases abandoned_snoc hab with hab | hab
      · exact h.unabandoned hj' hq hab
      · obtain ⟨_, _, _, hev, _⟩ := hab
        cases hev
        exact hne rfl
  · intro j d v r' hj
    rcases update_cases hj with ⟨hji, hj'⟩ | ⟨_, hj'⟩
    · simp only [Option.some.injEq, Prod.mk.injEq] at hj'
      obtain ⟨rfl, hq⟩ := hj'
      subst hji
      cases hmay with
      | awaitCommit => cases hq; exact List.mem_append_right _ List.mem_cons_self
      | authorize => rcases r with _ | _ | _ <;> cases hq
      | begin =>
          rcases r with _ | decision
          · cases hq
          · exact absurd hq (Stage.ofDecision_ne_settled _ _ _)
      | startCommit => cases hq
      | markCommitted _ => rcases r with _ | _ <;> cases hq
      | @markUnknown _ r'' _ => rcases r'' with _ | _ <;> cases hq
      | abandon _ _ => cases hq
      | giveUp => cases hq
    · exact List.mem_append_left _ (h.outcome hj')
  · intro j hab
    rcases abandoned_snoc hab with hab | hab
    · obtain ⟨d, result, hw, hne⟩ := h.definite hab
      exact ⟨d, result, List.mem_append_left _ hw, hne⟩
    · obtain ⟨_, _, _, hev, hab⟩ := hab
      cases hev
      cases hmay with
      | abandon h₁ h₂ => exact ⟨c, _, List.mem_append_left _ (h.outcome hi), h₁, h₂⟩
      | _ => exact hab.elim
  · intro j d a hj
    rcases update_cases hj with ⟨_, hj'⟩ | ⟨_, hj'⟩
    · intro ho
      simp only [Option.some.injEq, Prod.mk.injEq] at hj'
      obtain ⟨rfl, hq⟩ := hj'
      exact hm.replies a hq ho
    · exact fun ho => (h.succeeds hj' ho).keep (fun _ _ => hm.touches.settled)
  · exact fun hr ho => (h.replied (mem_snoc hr nofun) ho).keep (fun _ _ => hm.touches.settled)

/-! ## Runs -/

theorem Inv.initial (h : Site.Initial s) : Inv P [] s (fun _ => none) := by
  have hlookup : ∀ name, s.files.lookup name = none := by
    intro name
    rw [h.1]; rfl
  have hdead : ∀ p, ¬ s.Alive p := by
    rintro p ⟨records, hr⟩
    rw [h.2 p] at hr; cases hr
  have habandon : ∀ {i}, ¬ Abandoned i [] := by
    rintro i ⟨e, he, _⟩
    cases he
  refine ⟨fun p hp => absurd hp (hdead p), nofun, ?_, ?_, nofun, ?_, nofun, nofun, nofun, nofun,
    fun ha => absurd ha habandon, nofun, nofun⟩
  · intro name e he; rw [hlookup] at he; cases he
  · intro name e data he; rw [hlookup] at he; cases he
  · rintro i j name ⟨_, _, _, hi, _⟩; cases hi

theorem inv_inductive (P : Primitives) :
    commitProtocol.Inductive (Site.world P) (fun tr s qs => Inv P tr s qs) where
  start h _ hfresh ha := h.start hfresh ha
  act {_ s _ _ c q _ _ _} h hi hmay ha hact := by
    refine ⟨_, rfl, h.act hi hmay ha ?_⟩
    exact act_moves hmay hact ha (h.positive _ ha) h.clean (fun v hv => h.held hi hv ha)
  reply h hi hret _ := by
    obtain rfl := hret
    exact h.reply hi
  env h he := h.env he

/-- The invariant holds after every run. -/
theorem inv_run {S₀ S : CommitPool} (h₀ : (commitSystem P).init S₀) (h : (commitSystem P).Run S₀ tr S) :
    ∃ qs, commitProtocol.Holds (fun tr s qs => Inv P tr s qs) tr S qs :=
  Pool.Protocol.run (inv_inductive P) (fun _ hs => Inv.initial hs) h₀ h

end CadHarness.Journal

/-!
## Where a reply comes from

What a request answers follows from what it was told: a property of the program alone, whatever the
journal holds.
-/

namespace CadHarness.Journal
open CadHarness.Lib DurableCommitJournal

variable {P : Primitives} {tr : List CommitEvent} {s : Site} {qs : Stages}

/-- The caller answered the question for authorization. -/
def authorized (i : Nat) (c : CommitCall) (r : Except Unit Bool) : CommitEvent :=
  Event.act (S := commitSig) i c .authorize r

/-- The journal answered `Begin`. -/
def begun (i : Nat) (c : CommitCall) (r : Except Exception CommitJournalDecision) : CommitEvent :=
  Event.act (S := commitSig) i c (.begin c.jobId c.idempotencyKey c.digest) r

/-- Why the request answers `a`. -/
inductive Caused (i : Nat) (c : CommitCall) (tr : List CommitEvent) : BridgeHostResult → Prop
  | rejected {r : Except Unit Bool} : r ≠ .ok true → authorized i c r ∈ tr →
      Caused i c tr ⟨.rejected, none⟩
  | failed {e : Exception} : begun i c (.error e) ∈ tr → Caused i c tr ⟨.failed, none⟩
  | decided {d : CommitJournalDecision} {a : BridgeHostResult} : begun i c (.ok d) ∈ tr →
      (Stage.ofDecision d = .done a ∨ ∃ v, Stage.ofDecision d = .reserved v) → Caused i c tr a

theorem Caused.append {i : Nat} {c : CommitCall} {a : BridgeHostResult} (h : Caused i c tr a)
    (tr' : List CommitEvent) : Caused i c (tr ++ tr') a := by
  cases h with
  | rejected hr he => exact .rejected hr (List.mem_append_left _ he)
  | failed he => exact .failed (List.mem_append_left _ he)
  | decided he hd => exact .decided (List.mem_append_left _ he) hd

/-- What a request has been told by the time it has come so far. -/
def Told (i : Nat) (c : CommitCall) (tr : List CommitEvent) (q : Stage) : Prop :=
  (∀ a, q = .done a → Caused i c tr a) ∧
    (q.reservation?.isSome → ∃ d v, begun i c (.ok d) ∈ tr ∧ Stage.ofDecision d = .reserved v)

theorem Told.append {i : Nat} {c : CommitCall} {q : Stage} (h : Told i c tr q)
    (tr' : List CommitEvent) : Told i c (tr ++ tr') q := by
  refine ⟨fun a ha => (h.1 a ha).append _, fun hv => ?_⟩
  obtain ⟨d, v, hd, hdec⟩ := h.2 hv
  exact ⟨d, v, List.mem_append_left _ hd, hdec⟩

/-- A request that has a reservation to complete has been told so, wherever it gets from there. -/
theorem Told.reserved {i : Nat} {c : CommitCall} {q : Stage} (h : Told i c tr q)
    (hq : q.reservation?.isSome) (q' : Stage) : Told i c tr q' := by
  obtain ⟨d, v, hd, hdec⟩ := h.2 hq
  exact ⟨fun a _ => .decided hd (Or.inr ⟨v, hdec⟩), fun _ => ⟨d, v, hd, hdec⟩⟩

theorem Told.next {i : Nat} {c : CommitCall} {q : Stage} {o : CommitOp} {r : o.Result}
    (h : Told i c tr q) (hmay : Stage.May c q o) :
    Told i c (tr ++ [.act (S := commitSig) i c o r]) (q.next o r) := by
  have hlast : ∀ {e : CommitEvent}, e ∈ tr ++ [e] := fun {e} => by simp
  cases hmay with
  | authorize =>
      rcases r with e | _ | _
      · exact ⟨by rintro _ ⟨⟩; exact @Caused.rejected i c _ (.error e) nofun hlast, nofun⟩
      · exact ⟨by rintro _ ⟨⟩; exact @Caused.rejected i c _ (.ok false) nofun hlast, nofun⟩
      · exact ⟨nofun, nofun⟩
  | begin =>
      rcases r with e | d
      · exact ⟨by rintro _ ⟨⟩; exact .failed hlast, nofun⟩
      · refine ⟨fun a ha => .decided hlast (Or.inl ha), fun hv => ?_⟩
        obtain ⟨kind, result, v⟩ := d
        cases kind with
        | execute =>
            cases v with
            | none => cases hv
            | some v => exact ⟨_, v, hlast, rfl⟩
        | _ => cases hv
  | startCommit => exact (h.append _).reserved rfl _
  | awaitCommit => exact (h.append _).reserved rfl _
  | markCommitted _ => exact (h.append _).reserved rfl _
  | markUnknown _ => exact (h.append _).reserved rfl _
  | abandon _ _ => exact (h.append _).reserved rfl _
  | giveUp => exact (h.append _).reserved rfl _

/-- Every request in progress, and every one that was answered. -/
structure History (tr : List CommitEvent) (qs : Stages) : Prop where
  told : ∀ {i c q}, qs i = some (c, q) → Told i c tr q
  replied : ∀ {i c a}, Event.reply i c a ∈ tr → Caused i c tr a

theorem history_inductive (P : Primitives) :
    commitProtocol.Inductive (Site.world P) (fun tr _ qs => History tr qs) where
  start h _ _ _ := by
    refine ⟨fun {j d q} hj => ?_, fun hr => (h.replied (mem_snoc hr nofun)).append _⟩
    rcases update_cases hj with ⟨_, hj'⟩ | ⟨_, hj'⟩
    · cases hj'; exact ⟨nofun, nofun⟩
    · exact (h.told hj').append _
  act {_ _ _ _ c q _ _ _} h hi hmay _ _ := by
    refine ⟨_, rfl, fun {j d q'} hj => ?_, fun hr => (h.replied (mem_snoc hr nofun)).append _⟩
    rcases update_cases hj with ⟨hji, hj'⟩ | ⟨_, hj'⟩
    · cases hj'; subst hji; exact (h.told hi).next hmay
    · exact (h.told hj').append _
  reply {_ _ _ i c q a} h hi hret _ := by
    obtain rfl := hret
    refine ⟨fun {j d q'} hj => ?_, fun {j d b} hr => ?_⟩
    · rcases update_cases hj with ⟨_, hj'⟩ | ⟨_, hj'⟩
      · cases hj'
      · exact (h.told hj').append _
    · rcases List.mem_append.mp hr with hr | hr
      · exact (h.replied hr).append _
      · cases List.mem_singleton.mp hr
        exact ((h.told hi).1 a rfl).append _
  env h _ :=
    ⟨fun hi => (h.told hi).append _, fun hr => (h.replied (mem_snoc hr nofun)).append _⟩

theorem history_run {S₀ S : CommitPool} (h₀ : (commitSystem P).init S₀)
    (h : (commitSystem P).Run S₀ tr S) : ∃ qs, History tr qs := by
  obtain ⟨qs, hqs⟩ := Pool.Protocol.run (history_inductive P)
    (fun _ _ => ⟨nofun, nofun⟩) h₀ h
  exact ⟨qs, hqs.inv⟩

end CadHarness.Journal
