import CadHarness.Checkpoint.Lemmas.Calls

/-!
# Opening a catalog

Opening does without faults what its files allow: it succeeds on a catalog with its own watermark, and fails
on one with another.
-/

namespace CadHarness.Checkpoint
open CadHarness.Lib

variable {P : Primitives} {key : Key} {s : Session} {p q : CatalogPayload} {disk : Disk}

/-- Opening the root succeeds and leaves this catalog in it. -/
def Opens (P : Primitives) (key : Key) (disk : Disk) (payload : CatalogPayload) : Prop :=
  ∃ s, Ran (DurableCheckpointCatalog.new P .faultless key) ⟨0, disk, []⟩ (.ok ()) s ∧
    s.disk.catalog.map (·.payload) = some payload

/-! ## Methods without faults -/

theorem readCatalogFile_faultless (hc : s.disk.catalog = some (catalogEnvelope P key p))
    (hsize : ¬ (P.catalogLength (catalogEnvelope P key p) = 0 ∨
      maximumCatalogBytes < P.catalogLength (catalogEnvelope P key p))) :
    Post (readCatalogFile P .faultless key) s (fun r s' =>
      r = .ok ⟨p, P.envelopeSha256 (catalogEnvelope P key p)⟩ ∧ s' = s) := by
  rw [readCatalogFile, Post.bind, Post.get]
  dsimp only
  rw [hc]
  refine Post.guard.mpr ⟨fun h => absurd h hsize, fun _ => ?_⟩
  refine Post.guard.mpr ⟨fun h => absurd h Bool.false_ne_true, fun _ => ?_⟩
  refine Post.guard.mpr ⟨fun h => ?_, fun _ => ?_⟩
  · have hhex : isLowerHex (catalogEnvelope P key p).authenticationTag 64 = true := P.catalogTag_hex key p
    rw [hhex] at h
    exact absurd h Bool.false_ne_true
  · exact Post.guard.mpr ⟨fun h => absurd rfl h, fun _ => ⟨rfl, rfl⟩⟩

theorem validateWatermark_faultless (hw : s.disk.watermark = some (watermarkEnvelope P key p))
    (hsize : ¬ (P.watermarkLength (watermarkEnvelope P key p) = 0 ∨
      maximumWatermarkBytes < P.watermarkLength (watermarkEnvelope P key p))) :
    Post (validateWatermark P .faultless key ⟨p, P.envelopeSha256 (catalogEnvelope P key p)⟩) s (fun r s' =>
      r = .ok () ∧ s' = s) := by
  rw [validateWatermark, Post.bind, Post.get]
  dsimp only
  rw [hw]
  refine Post.guard.mpr ⟨fun h => absurd h hsize, fun _ => ?_⟩
  refine Post.guard.mpr ⟨fun h => absurd h Bool.false_ne_true, fun _ => ?_⟩
  refine Post.guard.mpr ⟨fun h => ?_, fun _ => ?_⟩
  · have hhex : isLowerHex (watermarkEnvelope P key p).authenticationTag 64 = true := P.watermarkTag_hex key _
    rw [hhex] at h
    exact absurd h Bool.false_ne_true
  · refine Post.ite.mpr ⟨fun h => ?_, fun _ => ⟨rfl, rfl⟩⟩
    simp [watermarkEnvelope] at h

theorem validateCatalogStructure_valid (h : Valid P p) :
    Post (validateCatalogStructure P p) s (fun r s' => r = .ok () ∧ s' = s) :=
  (validateCatalogStructure_post p).mono fun _ _ h' => ⟨h'.2.mpr h, h'.1⟩

theorem writeDurableAtomic_faultless (file : CatalogFile) (replace : Disk → Disk) :
    Post (writeDurableAtomic .faultless file replace) s (fun r s' =>
      r = .ok () ∧ s' = s.wrote file (replace s.disk)) := ⟨rfl, rfl⟩

theorem persistUnderLock_faultless (h : Storable P key q) (hgen : q.generation ≤ maximumGeneration) :
    Post (persistUnderLock P .faultless key q) s (fun r s' => r = .ok () ∧ s' = s.wroteBoth P key q) := by
  have hsize : ¬ (P.watermarkLength (watermarkEnvelope P key q) = 0 ∨
      maximumWatermarkBytes < P.watermarkLength (watermarkEnvelope P key q)) :=
    watermarkEnvelope_size h.valid.generation hgen
  refine (validateCatalogStructure_valid h.valid).step ?_
  rintro _ rfl
  refine Post.guard.mpr ⟨fun hbad => absurd hbad h.size, fun _ => ?_⟩
  refine (writeDurableAtomic_faultless .catalog _).step ?_
  rintro _ rfl
  refine Post.guard.mpr ⟨fun hbad => absurd hbad hsize, fun _ => ?_⟩
  refine (writeDurableAtomic_faultless .watermark _).step ?_
  rintro _ rfl
  refine (readCatalogFile_faultless rfl h.size).step ?_
  rintro _ rfl
  refine (validateWatermark_faultless rfl hsize).step ?_
  rintro _ rfl
  exact Post.ite.mpr ⟨fun hne => absurd rfl hne, fun _ => ⟨rfl, rfl⟩⟩

theorem recoverRecords_faultless {records : List DurableCheckpointRecord}
    (h : ∀ record ∈ records, ¬ record.Corrupt P s.disk) :
    Post (recoverRecords P records) s (fun r s' => s' = s ∧
      ∃ recovered, r = .ok (records.map (·.recovered P s.disk), recovered) ∧
        (recovered = true ↔ ∃ record ∈ records, record.Stale P s.disk)) := by
  refine (recoverRecords_post records).mono fun r s' ⟨hs, hr⟩ => ⟨hs, ?_⟩
  rcases hr with ⟨-, bad, hbad, hc⟩ | ⟨recovered, hr, -, hiff⟩
  · exact absurd hc (h bad hbad)
  · exact ⟨recovered, hr, hiff⟩

/-- The first part of loading, up to the records. -/
theorem loadAndRecoverUnderLock_verified {Q : Except Exception CatalogPayload → Session → Prop}
    (h : Verified P key s.disk p) (hgen : s.highestObservedGeneration ≤ p.generation)
    (hc : ∀ record ∈ p.records, ¬ record.Corrupt P s.disk)
    (hclean : (∀ record ∈ p.records, ¬ record.Stale P s.disk) → Q (.ok p) (s.observed p.generation))
    (hstale : (∃ record ∈ p.records, record.Stale P s.disk) →
      Post (do
        let generation ← nextGeneration p.generation
        let replacement := { p with generation, records := p.records.map (·.recovered P s.disk) }
        persistUnderLock P .faultless key replacement
        observe replacement.generation
        return replacement) s Q) :
    Post (loadAndRecoverUnderLock P .faultless key) s Q := by
  rw [loadAndRecoverUnderLock, Post.bind, Post.get]
  refine Post.guard.mpr ⟨fun hnone => ?_, fun _ => ?_⟩
  · rw [h.catalog] at hnone
    exact absurd hnone Bool.false_ne_true
  refine (readCatalogFile_faultless h.catalog h.storable.size).step ?_
  rintro _ rfl
  refine (validateWatermark_faultless h.watermark h.watermarkSize).step ?_
  rintro _ rfl
  rw [Post.bind, Post.get]
  refine Post.guard.mpr ⟨fun hlt => absurd hlt (not_lt.mpr hgen), fun _ => ?_⟩
  refine (validateCatalogStructure_valid h.storable.valid).step ?_
  rintro _ rfl
  refine (recoverRecords_faultless hc).seq ?_ ?_
  swap
  · rintro e _ ⟨rfl, _, he, -⟩
    exact Post.not_ok he
  rintro _ _ ⟨rfl, recovered, he, hiff⟩
  cases he
  refine Post.ite.mpr ⟨fun hfresh => hclean fun record hr hs => ?_, fun hrecovered => hstale (hiff.mp ?_)⟩
  · rw [hiff.mpr ⟨record, hr, hs⟩] at hfresh
    exact absurd hfresh Bool.false_ne_true
  · simpa using hrecovered

theorem Clean.not_stale (h : Clean P disk p) : ∀ record ∈ p.records, ¬ record.Stale P disk :=
  fun record hr hs => hs.2 (h record hr hs.1)

theorem Clean.not_corrupt (h : Clean P disk p) : ∀ record ∈ p.records, ¬ record.Corrupt P disk := by
  rintro record hr ⟨hactive, hnot⟩
  obtain ⟨facts, hf, -⟩ := h record hr hactive
  cases hnot.symm.trans hf

theorem loadAndRecoverUnderLock_clean (h : Verified P key s.disk p) (hgen : s.highestObservedGeneration ≤ p.generation)
    (hclean : Clean P s.disk p) :
    Post (loadAndRecoverUnderLock P .faultless key) s (fun r s' => r = .ok p ∧ s' = s.observed p.generation) :=
  loadAndRecoverUnderLock_verified h hgen hclean.not_corrupt (fun _ => ⟨rfl, rfl⟩)
    fun ⟨record, hr, hs⟩ => absurd hs (hclean.not_stale record hr)

theorem loadAndRecoverUnderLock_recovered (h : Verified P key s.disk p)
    (hgen : s.highestObservedGeneration ≤ p.generation) (hc : ∀ record ∈ p.records, ¬ record.Corrupt P s.disk)
    (hs : ∃ record ∈ p.records, record.Stale P s.disk) (hmax : p.generation + 1 ≤ maximumGeneration)
    (hst : Storable P key (p.recovered P s.disk)) :
    Post (loadAndRecoverUnderLock P .faultless key) s (fun r s' => r = .ok (p.recovered P s.disk) ∧
      s' = (s.wroteBoth P key (p.recovered P s.disk)).observed (p.generation + 1)) := by
  refine loadAndRecoverUnderLock_verified h hgen hc (fun hfresh => ?_) fun _ => ?_
  · obtain ⟨record, hr, hstale⟩ := hs
    exact absurd hstale (hfresh record hr)
  · refine Post.step (a := p.generation + 1) (R := (· = s)) ?_ ?_
    · rw [nextGeneration, if_pos hmax]
      exact ⟨rfl, rfl⟩
    rintro _ rfl
    refine (persistUnderLock_faultless hst hmax).step ?_
    rintro _ rfl
    exact ⟨rfl, rfl⟩

/-! ## Opening -/

/-- A catalog file with the watermark of another catalog, or without one, is refused. -/
theorem not_opens (hcatalog : disk.catalog = some (catalogEnvelope P key q))
    (hwatermark : ∀ w, disk.watermark = some w → w.payload.generation ≠ q.generation) {p : CatalogPayload} :
    ¬ Opens P key disk p := by
  rintro ⟨s, hran, -⟩
  obtain ⟨hpair, hverified⟩ := DurableCheckpointCatalog.new_ok.of_ran hran rfl
  have hsome : disk.catalog.isSome = true := by rw [hcatalog]; rfl
  obtain ⟨p', hv⟩ := hverified hsome
  have hcat := hv.catalog
  simp only [hcatalog, Option.some.injEq] at hcat
  have hpq : q = p' := congrArg CatalogEnvelope.payload hcat
  exact hwatermark _ hv.watermark (by rw [hpq]; rfl)

variable (hkey : ¬ key.length < 32)
include hkey

/-- The first part of the constructor. -/
theorem new_faultless {Q : Except Exception Unit → Session → Prop}
    (hpair : disk.catalog.isSome = disk.watermark.isSome)
    (hsome : disk.catalog.isSome = true → Post (do
      let loaded ← loadAndRecoverUnderLock P .faultless key
      observe loaded.generation) ⟨0, disk, []⟩ Q)
    (hnone : disk.catalog.isSome = false → Post (do
      if disk.artifacts.any fun file => (P.fileNameKey ".dwg").toList.isSuffixOf (P.fileNameKey file.1).toList then
        throw (.invalidData "Checkpoint artifacts exist without an authenticated catalog.")
      persistUnderLock P .faultless key DurableCheckpointCatalog.emptyCatalog
      observe DurableCheckpointCatalog.emptyCatalog.generation) ⟨0, disk, []⟩ Q) :
    Post (DurableCheckpointCatalog.new P .faultless key) ⟨0, disk, []⟩ Q := by
  refine Post.guard.mpr ⟨fun h => absurd h hkey, fun _ => ?_⟩
  refine Post.guard.mpr ⟨fun h => absurd h Bool.false_ne_true, fun _ => ?_⟩
  refine Post.step (a := ()) (R := (· = ⟨0, disk, []⟩)) ⟨rfl, rfl⟩ ?_
  rintro _ rfl
  rw [Post.bind, Post.get]
  refine Post.guard.mpr ⟨fun h => absurd hpair h, fun _ => ?_⟩
  refine Post.ite.mpr ⟨hsome, fun h => ?_⟩
  exact hnone (Bool.not_eq_true _ ▸ h)

theorem opens_clean (h : Verified P key disk p) (hclean : Clean P disk p) : Opens P key disk p := by
  apply Post.ran
  refine new_faultless hkey (by rw [h.catalog, h.watermark]; rfl) (fun _ => ?_) (fun hnone => ?_)
  · refine (loadAndRecoverUnderLock_clean h h.storable.valid.generation hclean).step ?_
    rintro _ rfl
    refine ⟨rfl, ?_⟩
    change disk.catalog.map (·.payload) = some p
    rw [h.catalog]
    rfl
  · rw [h.catalog] at hnone
    cases hnone

theorem opens_recovered (h : Verified P key disk p) (hc : ∀ record ∈ p.records, ¬ record.Corrupt P disk)
    (hs : ∃ record ∈ p.records, record.Stale P disk) (hgen : p.generation + 1 ≤ maximumGeneration)
    (hst : Storable P key (p.recovered P disk)) : Opens P key disk (p.recovered P disk) := by
  apply Post.ran
  refine new_faultless hkey (by rw [h.catalog, h.watermark]; rfl) (fun _ => ?_) (fun hnone => ?_)
  · refine (loadAndRecoverUnderLock_recovered h h.storable.valid.generation hc hs hgen hst).step ?_
    rintro _ rfl
    exact ⟨rfl, rfl⟩
  · rw [h.catalog] at hnone
    cases hnone

theorem opens_created (hc : disk.catalog = none) (hw : disk.watermark = none) (hd : ¬ disk.HasDwg P)
    (hst : Storable P key DurableCheckpointCatalog.emptyCatalog) :
    Opens P key disk DurableCheckpointCatalog.emptyCatalog := by
  apply Post.ran
  refine new_faultless hkey (by rw [hc, hw]; rfl) (fun hsome => ?_) (fun _ => ?_)
  · rw [hc] at hsome
    cases hsome
  · refine Post.guard.mpr ⟨fun h => absurd h hd, fun _ => ?_⟩
    refine (persistUnderLock_faultless hst (by decide)).step ?_
    rintro _ rfl
    exact ⟨rfl, rfl⟩

end CadHarness.Checkpoint
