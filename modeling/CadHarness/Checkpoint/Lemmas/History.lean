import CadHarness.Checkpoint.CatalogStore
import CadHarness.Checkpoint.Lemmas.Calls
import Mathlib.Data.List.Chain

/-!
# The history of a store

A store with many instances goes through the same catalogs as one catalog that is mutated again and again.
-/

namespace CadHarness.Checkpoint
open CadHarness.Lib DurableCheckpointCatalog

variable {P : Primitives} {key : Key} {io : Io} {s s' t : Session} {p q : CatalogPayload} {disk : Disk}
  {outcome : Option (String × DurableCheckpointState)} {written written' : Written}

/-! ## One catalog -/

/-- What may be persisted over the last catalog. -/
inductive Succeeds (P : Primitives) : Option CatalogPayload → CatalogPayload → Prop
  | created : Succeeds P none emptyCatalog
  | mutated {p q : CatalogPayload} : p.Next q → Valid P q → Succeeds P (some p) q

/-- The catalog that is on the disk at last, labelled by what is persisted. -/
def catalogSystem (P : Primitives) : System (Option CatalogPayload) CatalogPayload where
  init p := p = none
  step p q p' := Succeeds P p q ∧ p' = some q

/-- `q` was persisted after `p`. -/
structure CatalogPayload.Precedes (p q : CatalogPayload) : Prop where
  generation : p.generation < q.generation
  kept : ∀ (i : Nat) record, p.records[i]? = some record → ∃ record', q.records[i]? = some record' ∧
    record.Evolves record'

theorem CatalogPayload.Next.precedes (h : p.Next q) : p.Precedes q where
  generation := by
    rw [h.generation]
    omega
  kept i record hi := by
    obtain ⟨record', hi', hstep⟩ := h.kept hi
    exact ⟨record', hi', .single hstep⟩

theorem CatalogPayload.Precedes.trans {p q r : CatalogPayload} (h : p.Precedes q) (h' : q.Precedes r) :
    p.Precedes r where
  generation := h.generation.trans h'.generation
  kept i record hi := by
    obtain ⟨record', hi', hev⟩ := h.kept i record hi
    obtain ⟨record'', hi'', hev'⟩ := h'.kept i record' hi'
    exact ⟨record'', hi'', hev.trans hev'⟩

instance : Trans CatalogPayload.Precedes CatalogPayload.Precedes CatalogPayload.Precedes where
  trans := CatalogPayload.Precedes.trans

theorem emptyCatalog_valid : Valid P emptyCatalog :=
  ⟨rfl, le_refl _, Nat.zero_le _, nofun, List.nodup_nil, List.nodup_nil⟩

theorem Succeeds.valid {p? : Option CatalogPayload} (h : Succeeds P p? q) : Valid P q := by
  cases h with
  | created => exact emptyCatalog_valid
  | mutated _ hv => exact hv

section

variable {l : List CatalogPayload} {last : Option CatalogPayload}

theorem catalogSystem_last (h : (catalogSystem P).Run none l last) : last = l.getLast? := by
  refine h.induct (I := fun l last => last = l.getLast?) rfl fun tr t a t' _ _ hs => ?_
  rw [hs.2, List.getLast?_concat]

theorem catalogSystem_valid (h : (catalogSystem P).Run none l last) : ∀ p ∈ l, Valid P p := by
  refine h.induct (I := fun l _ => ∀ p ∈ l, Valid P p) nofun fun tr t a t' _ ih hs p hp => ?_
  rcases List.mem_append.mp hp with hold | hnew
  · exact ih p hold
  · rw [List.mem_singleton.mp hnew]
    exact hs.1.valid

/-- Every catalog precedes the ones persisted after it. -/
theorem catalogSystem_precedes (h : (catalogSystem P).Run none l last) :
    l.Pairwise CatalogPayload.Precedes := by
  rw [← List.isChain_iff_pairwise]
  refine h.induct (I := fun l _ => l.IsChain CatalogPayload.Precedes) .nil fun tr t a t' hr ih hs => ?_
  refine List.isChain_append.mpr ⟨ih, .singleton a, fun p hp q hq => ?_⟩
  have hlast := catalogSystem_last hr
  cases hq
  cases hs.1 with
  | created =>
      rw [← hlast] at hp
      cases hp
  | mutated hnext _ =>
      rw [← hlast] at hp
      cases hp
      exact hnext.precedes

end

/-! ## What the replacements of a call persist -/

def Disk.payload? (disk : Disk) : Option CatalogPayload := disk.catalog.map (·.payload)

/-- Replacements that persist one catalog after the other, the last one perhaps without its watermark. -/
inductive Writes (P : Primitives) (key : Key) : Disk → Written → Prop
  | nil {disk : Disk} : Writes P key disk []
  | half {disk : Disk} {q : CatalogPayload} : Succeeds P disk.payload? q →
      Writes P key disk [(.catalog, disk.half P key q)]
  | both {disk : Disk} {q : CatalogPayload} {written : Written} : Succeeds P disk.payload? q →
      Writes P key (disk.stored P key q) written →
      Writes P key disk ((.catalog, disk.half P key q) :: (.watermark, disk.stored P key q) :: written)

/-- A crash keeps the first replacements. -/
theorem Writes.shorten (h : Writes P key disk written) (h' : written' <+: written) : Writes P key disk written' := by
  induction h generalizing written' with
  | nil =>
      rw [List.prefix_nil.mp h']
      exact .nil
  | half hs =>
      rcases List.prefix_cons_iff.mp h' with rfl | ⟨rest, rfl, hrest⟩
      · exact .nil
      · rw [List.prefix_nil.mp hrest]
        exact .half hs
  | both hs _ ih =>
      rcases List.prefix_cons_iff.mp h' with rfl | ⟨rest, rfl, hrest⟩
      · exact .nil
      rcases List.prefix_cons_iff.mp hrest with rfl | ⟨rest', rfl, hrest'⟩
      · exact .half hs
      · exact .both hs (ih hrest')

theorem Disk.after_cons (disk : Disk) (file : CatalogFile) (d : Disk) (written : Written) :
    disk.after ((file, d) :: written) = d.after written := by
  cases written with
  | nil => rfl
  | cons next rest => simp [Disk.after, List.getLast?_cons]

theorem Writes.run (h : Writes P key disk written) :
    (catalogSystem P).Run disk.payload? (persisted written) (disk.after written).payload? := by
  induction h with
  | nil => exact .nil
  | half hs => exact .single ⟨hs, rfl⟩
  | both hs _ ih =>
      rw [Disk.after_cons, Disk.after_cons]
      exact .cons ⟨hs, rfl⟩ ih

/-- What persisting `q` replaces. -/
theorem Persisted.writes {r : Except Exception Unit} (h : Persisted P key q s r t)
    (hs : Succeeds P s.disk.payload? q) :
    ∃ l, t.written = s.written ++ l ∧ Writes P key s.disk l ∧ t.disk = s.disk.after l := by
  cases h with
  | nothing => exact ⟨[], (List.append_nil _).symm, .nil, rfl⟩
  | half => exact ⟨[(.catalog, s.disk.half P key q)], rfl, .half hs, rfl⟩
  | both =>
      refine ⟨[(.catalog, s.disk.half P key q), (.watermark, s.disk.stored P key q)], ?_, .both hs .nil, rfl⟩
      simp [Session.wroteBoth, Session.wroteHalf, Session.wrote]

theorem Verified.payload? (h : Verified P key disk p) : disk.payload? = some p := by
  rw [Disk.payload?, h.catalog]
  rfl

theorem DurableCheckpointRecord.recovered_step (record : DurableCheckpointRecord) :
    record.Step (record.recovered P disk) := by
  unfold DurableCheckpointRecord.recovered
  split
  · rename_i hstale
    refine .inr ⟨.quarantined, ?_, rfl⟩
    rcases hstale.1 with h | h <;> rw [h]
    · exact .quarantineAvailable
    · exact .quarantineRestoring
  · exact .inl rfl

theorem CatalogPayload.recovered_next (p : CatalogPayload) : p.Next (p.recovered P disk) := by
  refine .change ?_
  rw [List.forall₂_map_right_iff, List.forall₂_same]
  exact fun record _ => record.recovered_step

theorem Persisted.storable {r : Except Exception Unit} (h : Persisted P key q s r t) :
    t = s ∨ Storable P key q := by
  cases h with
  | nothing => exact .inl rfl
  | half hst => exact .inr hst
  | both hst => exact .inr hst

/-- Persisting a mutation of the catalog on the disk. -/
theorem Persisted.writes_next {r : Except Exception Unit} (h : Persisted P key q s r t) (hv : s.disk.payload? = some p)
    (hn : p.Next q) : ∃ l, t.written = s.written ++ l ∧ Writes P key s.disk l ∧ t.disk = s.disk.after l := by
  rcases h.storable with rfl | hst
  · exact ⟨[], (List.append_nil _).symm, .nil, rfl⟩
  · refine h.writes ?_
    rw [hv]
    exact .mutated hn hst.valid

theorem Touched.writes (h : Touched P key outcome s s') (hnil : s.written = []) :
    Writes P key s.disk s'.written ∧ s'.disk = s.disk.after s'.written := by
  have hof : ∀ {t : Session}, t.SameFiles s' → (∃ l, t.written = s.written ++ l ∧ Writes P key s.disk l ∧
      t.disk = s.disk.after l) → Writes P key s.disk s'.written ∧ s'.disk = s.disk.after s'.written := by
    rintro t ⟨hdisk, hwritten⟩ ⟨l, hl, hw, hd⟩
    rw [hnil, List.nil_append] at hl
    rw [hwritten, hdisk, hl]
    exact ⟨hw, hd⟩
  cases h with
  | nothing hs => exact hof hs ⟨[], (List.append_nil _).symm, .nil, rfl⟩
  | recovered hv _ _ _ hp ht => exact hof ht (hp.writes_next hv.payload? (CatalogPayload.recovered_next _))
  | mutated hv _ hm hu hp ht =>
      refine hof ht ?_
      rw [← hu.1, ← hu.2]
      refine hp.writes_next (p := _) ?_ (hm.next hv.storable.valid)
      rw [hu.1]
      exact hv.payload?
  | @recoveredMutated p q r u t _ hv _ _ _ hst hm hu hp ht =>
      have hdisk : u.disk = s.disk.stored P key (p.recovered P s.disk) := hu.1
      obtain ⟨l, hl, hw, hd⟩ := hp.writes_next (p := p.recovered P s.disk) (by rw [hdisk]; rfl) (hm.next hst.valid)
      refine hof ht ⟨_ :: _ :: l, ?_, .both (hv.payload? ▸ .mutated p.recovered_next hst.valid) (hdisk ▸ hw), ?_⟩
      · rw [hl, hu.2]
        simp [Session.wroteBoth, Session.wroteHalf, Session.wrote]
      · rw [hd, Disk.after_cons, Disk.after_cons, hdisk]
  | created hc _ _ hp ht =>
      refine hof ht (hp.writes ?_)
      rw [Disk.payload?, hc]
      exact .created

/-! ## Refinement -/

theorem Store.Step.run {S S' : Store} {a : StoreEvent} (h : Store.Step P S a S') :
    (catalogSystem P).Run S.disk.payload? (persisted a.written) S'.disk.payload? := by
  cases h with
  | opened _ hran =>
      obtain ⟨hw, hd⟩ := (new_touched.of_ran hran).writes rfl
      exact hd ▸ hw.run
  | notOpened _ hran =>
      obtain ⟨hw, hd⟩ := (new_touched.of_ran hran).writes rfl
      exact hd ▸ hw.run
  | called _ _ hran =>
      obtain ⟨hw, hd⟩ := ((CatalogCall.run_touched _).of_ran hran).writes rfl
      exact hd ▸ hw.run
  | crashedOpening _ hran hprefix => exact (((new_touched.of_ran hran).writes rfl).1.shorten hprefix).run
  | crashed _ _ hran hprefix =>
      exact ((((CatalogCall.run_touched _).of_ran hran).writes rfl).1.shorten hprefix).run
  | refused | disposed | staged => exact .nil

/-- Every interleaving over a store is a run of one catalog. -/
theorem storeSystem_run {S₀ S : Store} {tr : List StoreEvent} (hi : (storeSystem P).init S₀)
    (hr : (storeSystem P).Run S₀ tr S) : (catalogSystem P).Run none (history tr) S.disk.payload? := by
  refine hr.induct (I := fun tr S => (catalogSystem P).Run none (history tr) S.disk.payload?) ?_ ?_
  · rw [Disk.payload?, hi.1]
    exact .nil
  · intro tr T a T' _ ih hs
    have happend : history (tr ++ [a]) = history tr ++ persisted a.written := by
      simp [history, persisted]
    rw [happend]
    exact ih.append (Store.Step.run hs)

end CadHarness.Checkpoint
