import CadHarness.Checkpoint.Lemmas.Opening
import Mathlib.Algebra.Group.Nat.Even

/-!
# Crashes of the catalog

A mutation replaces the catalog file and then its watermark. A catalog that crashed between the two is lost;
at every other point it opens to the state before the operation or after it.
-/

namespace CadHarness.Checkpoint
open CadHarness.Lib

variable {P : Primitives} {key : Key} {io : Io} {s s' t u : Session} {p q : CatalogPayload} {disk : Disk}
  {outcome : Option (String × DurableCheckpointState)}

/-- Persisting `q` on this disk, at each point where it may stop. -/
structure Stage (P : Primitives) (key : Key) (disk : Disk) (p q : CatalogPayload) : Prop where
  before : Opens P key disk p
  between : ∀ p', ¬ Opens P key (disk.half P key q) p'
  after : Opens P key (disk.stored P key q) q

/-- What persisting does to the files. -/
theorem Persisted.files {r : Except Exception Unit} (h : Persisted P key q s r t) :
    s.SameFiles t ∨ Storable P key q ∧
      (t.disk = s.disk.half P key q ∧ t.written = s.written ++ [(.catalog, s.disk.half P key q)] ∨
        t.disk = s.disk.stored P key q ∧
          t.written = s.written ++ [(.catalog, s.disk.half P key q), (.watermark, s.disk.stored P key q)]) := by
  cases h with
  | nothing => exact .inl (.refl _)
  | half hst => exact .inr ⟨hst, .inl ⟨rfl, rfl⟩⟩
  | both hst =>
      refine .inr ⟨hst, .inr ⟨rfl, ?_⟩⟩
      simp [Session.wroteBoth, Session.wroteHalf, Session.wrote]

/-- The points between the replacements of a call: at an even number of them the catalog opens. -/
def Reopens (P : Primitives) (key : Key) (disk : Disk) (s : Session) (k : Nat) : Prop :=
  ∃ p, Opens P key (disk.after (s.written.take k)) p ∧ (Opens P key disk p ∨ Opens P key s.disk p)

/-- A stop between two replacements. -/
theorem not_reopens {k : Nat} (hd : disk.after (s.written.take k) = t.disk.half P key q)
    (h : ∀ p, ¬ Opens P key (t.disk.half P key q) p) (hodd : ¬ Even k) : Reopens P key disk s k ↔ Even k := by
  refine iff_of_false ?_ hodd
  rintro ⟨p, hp, -⟩
  rw [hd] at hp
  exact h p hp

/-- A stop after a watermark was replaced, or before anything was. -/
theorem reopens {k : Nat} (h : Opens P key (disk.after (s.written.take k)) p)
    (h' : Opens P key disk p ∨ Opens P key s.disk p) (heven : Even k) : Reopens P key disk s k ↔ Even k :=
  iff_of_true ⟨p, h, h'⟩ heven

/-- A call that persists once. -/
theorem reopens_one {r : Except Exception Unit} (hstage : Storable P key q → Stage P key u.disk p q)
    (hp : Persisted P key q u r t) (hnil : u.written = []) (hw : t.written ≠ []) {k : Nat}
    (hk : k ≤ t.written.length) : Reopens P key u.disk t k ↔ Even k := by
  rcases hp.files with hsame | ⟨hst, hfiles⟩
  · exact absurd (hsame.2.trans hnil) hw
  have hs := hstage hst
  rw [hnil] at hfiles
  rcases hfiles with ⟨-, hl⟩ | ⟨hd, hl⟩
  · rw [hl] at hk
    have hcases : k = 0 ∨ k = 1 := by simp at hk; omega
    rcases hcases with rfl | rfl
    · exact reopens hs.before (.inl hs.before) (by decide)
    · exact not_reopens (by rw [hl]; rfl) hs.between (by decide)
  · rw [hl] at hk
    have hcases : k = 0 ∨ k = 1 ∨ k = 2 := by simp at hk; omega
    rcases hcases with rfl | rfl | rfl
    · exact reopens hs.before (.inl hs.before) (by decide)
    · exact not_reopens (by rw [hl]; rfl) hs.between (by decide)
    · exact reopens (by rw [hl]; exact hs.after) (.inr (by rw [hd]; exact hs.after)) (by decide)

/-- A call that persists what its load has recovered, and then its own mutation. -/
theorem reopens_two {q₀ : CatalogPayload} {r : Except Exception Unit} (hfirst : Stage P key s.disk q₀ q₀)
    (hstage : Storable P key q → Stage P key (s.disk.stored P key q₀) q₀ q) (hnil : s.written = [])
    (hu : (s.wroteBoth P key q₀).SameFiles u) (hp : Persisted P key q u r t) {k : Nat}
    (hk : k ≤ t.written.length) : Reopens P key s.disk t k ↔ Even k := by
  have hud : u.disk = s.disk.stored P key q₀ := hu.1
  have hul : u.written = [(.catalog, s.disk.half P key q₀), (.watermark, s.disk.stored P key q₀)] := by
    rw [hu.2]
    simp [Session.wroteBoth, Session.wroteHalf, Session.wrote, hnil]
  have hbefore : ∀ {l : Written}, t.written = u.written ++ l → k = 0 ∨ k = 1 ∨ k = 2 →
      (Reopens P key s.disk t k ↔ Even k) := by
    rintro l hl (rfl | rfl | rfl)
    · exact reopens hfirst.before (.inl hfirst.before) (by decide)
    · exact not_reopens (by rw [hl, hul]; rfl) hfirst.between (by decide)
    · exact reopens (by rw [hl, hul]; exact hfirst.after) (.inl hfirst.before) (by decide)
  rcases hp.files with hsame | ⟨hst, ⟨-, hl⟩ | ⟨hd, hl⟩⟩
  · rw [hsame.2, hul] at hk
    refine hbefore (l := []) (by rw [hsame.2, List.append_nil]) ?_
    simp at hk
    omega
  · have hs := hstage hst
    have hlen : t.written.length = 3 := by rw [hl, hul]; rfl
    have hcases : (k = 0 ∨ k = 1 ∨ k = 2) ∨ k = 3 := by omega
    rcases hcases with hlow | rfl
    · exact hbefore hl hlow
    · refine not_reopens (t := u) (by rw [hl, hul]; rfl) ?_ (by decide)
      rw [hud]
      exact hs.between
  · have hs := hstage hst
    have hlen : t.written.length = 4 := by rw [hl, hul]; rfl
    have hcases : (k = 0 ∨ k = 1 ∨ k = 2) ∨ k = 3 ∨ k = 4 := by omega
    rcases hcases with hlow | rfl | rfl
    · exact hbefore hl hlow
    · refine not_reopens (t := u) (by rw [hl, hul]; rfl) ?_ (by decide)
      rw [hud]
      exact hs.between
    · refine reopens (by rw [hl, hul, hud]; exact hs.after) (.inr ?_) (by decide)
      rw [hd, hud]
      exact hs.after

/-! ## Stages -/

/-- The files of a verified catalog, with the catalog file of its successor. -/
theorem Verified.not_opens_half (h : Verified P key disk p) (hgen : q.generation = p.generation + 1) (p' : CatalogPayload) :
    ¬ Opens P key (disk.half P key q) p' := by
  refine not_opens rfl fun w hw => ?_
  rw [Disk.half_watermark, h.watermark] at hw
  cases hw
  change p.generation ≠ q.generation
  omega

theorem stage_recovered (hkey : ¬ key.length < 32) (h : Verified P key disk p)
    (hc : ∀ record ∈ p.records, ¬ record.Corrupt P disk) (hs : ∃ record ∈ p.records, record.Stale P disk)
    (hgen : p.generation + 1 ≤ maximumGeneration) (hst : Storable P key (p.recovered P disk)) :
    Stage P key disk (p.recovered P disk) (p.recovered P disk) where
  before := opens_recovered hkey h hc hs hgen hst
  between := h.not_opens_half rfl
  after := opens_clean hkey (.stored hst hgen disk) recovered_clean

theorem stage_mutated (hkey : ¬ key.length < 32) (h : Verified P key disk p) (hclean : Clean P disk p)
    (hm : Mutates P disk outcome p q) (hst : Storable P key q) : Stage P key disk p q where
  before := opens_clean hkey h hclean
  between := h.not_opens_half (hm.next h.storable.valid).generation
  after := opens_clean hkey (.stored hst hm.generation disk) (hm.clean hclean)

theorem stage_created (hkey : ¬ key.length < 32) (hc : disk.catalog = none) (hw : disk.watermark = none)
    (hd : ¬ disk.HasDwg P) (hst : Storable P key DurableCheckpointCatalog.emptyCatalog) :
    Stage P key disk DurableCheckpointCatalog.emptyCatalog DurableCheckpointCatalog.emptyCatalog where
  before := opens_created hkey hc hw hd hst
  between := fun p' => not_opens rfl fun w hw' => by cases hw.symm.trans hw'
  after := opens_clean hkey (.stored hst (by decide) disk) nofun

theorem Touched.reopens (hkey : ¬ key.length < 32) (h : Touched P key outcome s s') (hnil : s.written = [])
    (hw : s'.written ≠ []) {k : Nat} (hk : k ≤ s'.written.length) : Reopens P key s.disk s' k ↔ Even k := by
  have hsame : ∀ {t : Session}, t.SameFiles s' → (t.written ≠ [] → k ≤ t.written.length →
      (Reopens P key s.disk t k ↔ Even k)) → (Reopens P key s.disk s' k ↔ Even k) := by
    intro t ht hiff
    rw [ht.2] at hw hk
    rw [← hiff hw hk, Reopens, Reopens, ht.1, ht.2]
  cases h with
  | nothing hs => exact absurd (hs.2.trans hnil) hw
  | recovered hv hc hs hg hp ht =>
      exact hsame ht fun hw hk => reopens_one (stage_recovered hkey hv hc hs hg) hp hnil hw hk
  | mutated hv hclean hm hu hp ht =>
      have hone := fun hw hk => reopens_one (k := k) (fun hst => hu.1.symm ▸ stage_mutated hkey hv hclean hm hst) hp
        (hu.2.trans hnil) hw hk
      rw [hu.1] at hone
      exact hsame ht hone
  | recoveredMutated hv hc hs hg hst hm hu hp ht =>
      exact hsame ht fun _ => reopens_two (stage_recovered hkey hv hc hs hg hst)
        (stage_mutated hkey (.stored hst hg s.disk) recovered_clean ⟨hm.generation, hm.next, hm.clean, hm.changes⟩)
        hnil hu hp
  | created hc hwm hd hp ht =>
      exact hsame ht fun hw hk => reopens_one (stage_created hkey hc hwm hd) hp hnil hw hk

theorem CatalogOperation.run_touched (op : CatalogOperation) :
    ∃ outcome, Post (op.run P io key) s (fun _ s' => Touched P key outcome s s') := by
  cases op with
  | new => exact ⟨none, DurableCheckpointCatalog.new_touched⟩
  | call c => exact ⟨c.outcome?, Post.map.mpr c.run_touched⟩

/-- An operation that has replaced files may stop after any number of replacements. The catalog then opens to
the state before or after the operation exactly when the number is even, so not between a catalog file and
its watermark. -/
theorem reopens_iff_even {op : CatalogOperation} {h : Int} {r : Except Exception Unit} (hkey : 32 ≤ key.length)
    (hran : Ran (op.run P io key) ⟨h, disk, []⟩ r s) (hmutated : s.written ≠ []) {k : Nat}
    (hk : k ≤ s.written.length) : Reopens P key disk s k ↔ Even k := by
  obtain ⟨outcome, hpost⟩ := op.run_touched
  exact (hpost.of_ran hran).reopens (not_lt.mpr hkey) rfl hmutated hk

/-! ## The first catalog of a root -/

def exampleTag : String := "0000000000000000000000000000000000000000000000000000000000000000"

theorem exampleTag_hex : isLowerHex exampleTag 64 = true := by decide +kernel

def examplePrimitives : Primitives where
  envelopeSha256 _ := exampleTag
  catalogTag _ _ := exampleTag
  watermarkTag _ _ := exampleTag
  catalogLength _ := 200
  watermarkLength _ := 200
  pathHash _ := some exampleTag
  fileNameKey name := name
  envelopeSha256_hex _ := exampleTag_hex
  catalogTag_hex _ _ := exampleTag_hex
  watermarkTag_hex _ _ := exampleTag_hex
  watermarkLength_mem _ _ _ _ _ := by decide

def exampleKey : Key := List.replicate 32 7

/-- The session after the first opening of an empty root. -/
def createdSession : Session :=
  let created := (⟨0, {}, []⟩ : Session).wroteBoth examplePrimitives exampleKey DurableCheckpointCatalog.emptyCatalog
  created.observed 0

theorem createdSession_ran :
    Ran (CatalogOperation.new.run examplePrimitives .faultless exampleKey) ⟨0, {}, []⟩ (.ok ()) createdSession :=
  .of_decide (by decide +kernel)

/-- A crash in between leaves a root that cannot be opened. -/
theorem crash_loses_catalog :
    Ran (CatalogOperation.new.run examplePrimitives .faultless exampleKey) ⟨0, {}, []⟩ (.ok ()) createdSession ∧
      createdSession.written.length = 2 ∧ ¬ Reopens examplePrimitives exampleKey {} createdSession 1 := by
  refine ⟨createdSession_ran, rfl, ?_⟩
  rintro ⟨p, hp, -⟩
  exact not_opens rfl (fun w hw => by cases hw) hp

/-- A crash before the first replacement, or after the second. -/
theorem reopens_iff_even_created :
    Reopens examplePrimitives exampleKey {} createdSession 0 ∧
      Reopens examplePrimitives exampleKey {} createdSession 2 :=
  ⟨(reopens_iff_even (by decide) createdSession_ran (by decide +kernel) (by decide)).mpr (by decide),
    (reopens_iff_even (by decide) createdSession_ran (by decide +kernel) (by decide +kernel)).mpr (by decide)⟩

end CadHarness.Checkpoint
