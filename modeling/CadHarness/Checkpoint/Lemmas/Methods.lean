import CadHarness.Checkpoint.Lemmas.Records

/-!
# Methods of the catalog

What reading, persisting and loading may come to, and what a method does that goes through
`withFreshCatalog`.
-/

namespace CadHarness.Checkpoint
open CadHarness.Lib

variable {P : Primitives} {key : Key} {io : Io} {s s' : Session}

/-! ## Files -/

/-- The disk after the catalog file of `payload` has been replaced, with the watermark of another one. -/
def Disk.half (P : Primitives) (key : Key) (payload : CatalogPayload) (disk : Disk) : Disk :=
  { disk with catalog := some (catalogEnvelope P key payload) }

/-- The disk after both files of `payload` have been replaced. -/
def Disk.stored (P : Primitives) (key : Key) (payload : CatalogPayload) (disk : Disk) : Disk :=
  { disk.half P key payload with watermark := some (watermarkEnvelope P key payload) }

@[simp] theorem Disk.half_catalog (payload : CatalogPayload) (disk : Disk) :
    (disk.half P key payload).catalog = some (catalogEnvelope P key payload) := rfl

@[simp] theorem Disk.half_watermark (payload : CatalogPayload) (disk : Disk) :
    (disk.half P key payload).watermark = disk.watermark := rfl

@[simp] theorem Disk.half_artifacts (payload : CatalogPayload) (disk : Disk) :
    (disk.half P key payload).artifacts = disk.artifacts := rfl

@[simp] theorem Disk.stored_catalog (payload : CatalogPayload) (disk : Disk) :
    (disk.stored P key payload).catalog = some (catalogEnvelope P key payload) := rfl

@[simp] theorem Disk.stored_watermark (payload : CatalogPayload) (disk : Disk) :
    (disk.stored P key payload).watermark = some (watermarkEnvelope P key payload) := rfl

@[simp] theorem Disk.stored_artifacts (payload : CatalogPayload) (disk : Disk) :
    (disk.stored P key payload).artifacts = disk.artifacts := rfl

namespace Session

/-- One replacement of a file. -/
def wrote (s : Session) (file : CatalogFile) (disk : Disk) : Session :=
  { s with disk := disk, written := s.written ++ [(file, disk)] }

def wroteHalf (P : Primitives) (key : Key) (payload : CatalogPayload) (s : Session) : Session :=
  s.wrote .catalog (s.disk.half P key payload)

def wroteBoth (P : Primitives) (key : Key) (payload : CatalogPayload) (s : Session) : Session :=
  (s.wroteHalf P key payload).wrote .watermark (s.disk.stored P key payload)

def observed (s : Session) (generation : Int) : Session :=
  { s with highestObservedGeneration := max s.highestObservedGeneration generation }

@[simp] theorem observed_disk (generation : Int) : (s.observed generation).disk = s.disk := rfl

@[simp] theorem observed_written (generation : Int) : (s.observed generation).written = s.written := rfl

@[simp] theorem wroteHalf_disk (payload : CatalogPayload) :
    (s.wroteHalf P key payload).disk = s.disk.half P key payload := rfl

@[simp] theorem wroteBoth_disk (payload : CatalogPayload) :
    (s.wroteBoth P key payload).disk = s.disk.stored P key payload := rfl

end Session

/-- A catalog that passes the checks of persisting. -/
structure Storable (P : Primitives) (key : Key) (payload : CatalogPayload) : Prop where
  valid : Valid P payload
  size : ¬ (P.catalogLength (catalogEnvelope P key payload) = 0 ∨
    maximumCatalogBytes < P.catalogLength (catalogEnvelope P key payload))

/-- The disk holds this catalog and its watermark, and loading accepts them. -/
structure Verified (P : Primitives) (key : Key) (disk : Disk) (payload : CatalogPayload) : Prop where
  catalog : disk.catalog = some (catalogEnvelope P key payload)
  watermark : disk.watermark = some (watermarkEnvelope P key payload)
  watermarkSize : ¬ (P.watermarkLength (watermarkEnvelope P key payload) = 0 ∨
    maximumWatermarkBytes < P.watermarkLength (watermarkEnvelope P key payload))
  storable : Storable P key payload

/-- The size check of a watermark never fails. -/
theorem watermarkEnvelope_size {payload : CatalogPayload} (h : 0 ≤ payload.generation)
    (h' : payload.generation ≤ maximumGeneration) :
    ¬ (P.watermarkLength (watermarkEnvelope P key payload) = 0 ∨
      maximumWatermarkBytes < P.watermarkLength (watermarkEnvelope P key payload)) := by
  have hmem := P.watermarkLength_mem (watermarkEnvelope P key payload) (P.envelopeSha256_hex _)
    (P.watermarkTag_hex _ _) h h'
  rintro (hz | hlt)
  · exact absurd hz hmem.1.ne'
  · exact absurd hmem.2 (not_le.mpr hlt)

theorem Verified.stored {payload : CatalogPayload} (h : Storable P key payload)
    (h' : payload.generation ≤ maximumGeneration) (disk : Disk) :
    Verified P key (disk.stored P key payload) payload :=
  ⟨rfl, rfl, watermarkEnvelope_size h.valid.generation h', h⟩

theorem readCatalogFile_post :
    Post (readCatalogFile P io key) s (fun r s' => s' = s ∧ ∀ catalog, r = .ok catalog →
      ∃ payload, catalog = ⟨payload, P.envelopeSha256 (catalogEnvelope P key payload)⟩ ∧
        s.disk.catalog = some (catalogEnvelope P key payload) ∧
        ¬ (P.catalogLength (catalogEnvelope P key payload) = 0 ∨
          maximumCatalogBytes < P.catalogLength (catalogEnvelope P key payload))) := by
  simp only [readCatalogFile, Post.bind, Post.get]
  cases hc : s.disk.catalog with
  | none => exact ⟨rfl, fun _ => Post.not_ok⟩
  | some envelope =>
      simp only [Post.bind, Post.ite, Post.throw, Post.pure]
      refine ⟨fun _ => ⟨trivial, fun _ => Post.not_ok⟩, fun hsize => ⟨fun _ => ⟨trivial, fun _ => Post.not_ok⟩, fun _ =>
        ⟨fun _ => ⟨trivial, fun _ => Post.not_ok⟩, fun _ => ⟨fun _ => ⟨trivial, fun _ => Post.not_ok⟩, fun htag => ⟨trivial, ?_⟩⟩⟩⟩⟩
      rintro catalog hcat
      cases hcat
      have henv : catalogEnvelope P key envelope.payload = envelope := by
        rw [catalogEnvelope, not_not.mp htag]
      exact ⟨envelope.payload, by rw [henv], by rw [henv], by rwa [henv]⟩

theorem validateWatermark_post (payload : CatalogPayload) :
    Post (validateWatermark P io key ⟨payload, P.envelopeSha256 (catalogEnvelope P key payload)⟩) s
      (fun r s' => s' = s ∧ (r = .ok () → s.disk.watermark = some (watermarkEnvelope P key payload) ∧
        ¬ (P.watermarkLength (watermarkEnvelope P key payload) = 0 ∨
          maximumWatermarkBytes < P.watermarkLength (watermarkEnvelope P key payload)))) := by
  simp only [validateWatermark, Post.bind, Post.get]
  cases hw : s.disk.watermark with
  | none => exact ⟨rfl, Post.not_ok⟩
  | some envelope =>
      simp only [Post.bind, Post.ite, Post.throw, Post.pure]
      refine ⟨fun _ => ⟨trivial, Post.not_ok⟩, fun hsize => ⟨fun _ => ⟨trivial, Post.not_ok⟩, fun _ =>
        ⟨fun _ => ⟨trivial, Post.not_ok⟩, fun _ => ⟨fun _ => ⟨trivial, Post.not_ok⟩, fun hok => ⟨trivial, fun _ => ?_⟩⟩⟩⟩⟩
      simp only [not_or, not_not] at hok
      obtain ⟨htag, hschema, hgen, hsha⟩ := hok
      have hpayload : envelope.payload
          = ⟨currentCatalogSchema, payload.generation, P.envelopeSha256 (catalogEnvelope P key payload)⟩ := by
        rw [← hschema, ← hgen, ← hsha]
      have henv : watermarkEnvelope P key payload = envelope := by
        rw [watermarkEnvelope, ← hpayload, htag]
      rw [henv]
      exact ⟨rfl, hsize⟩

/-- What persisting may come to: nothing, the catalog file alone, or both files. -/
inductive Persisted (P : Primitives) (key : Key) (payload : CatalogPayload) (s : Session) :
    Except Exception Unit → Session → Prop
  | nothing {e : Exception} : Persisted P key payload s (.error e) s
  | half {e : Exception} : Storable P key payload →
      Persisted P key payload s (.error e) (s.wroteHalf P key payload)
  | both {r : Except Exception Unit} : Storable P key payload →
      Persisted P key payload s r (s.wroteBoth P key payload)

theorem writeDurableAtomic_post (file : CatalogFile) (replace : Disk → Disk) :
    Post (writeDurableAtomic io file replace) s (fun r s' =>
      (∃ e, r = .error e) ∧ s' = s ∨ s' = s.wrote file (replace s.disk)) := by
  simp only [writeDurableAtomic, Post.bind, Post.get]
  cases io.write s.written.length with
  | failed => exact .inl ⟨⟨_, rfl⟩, rfl⟩
  | replacedThenFailed => exact .inr rfl
  | done => exact .inr rfl

theorem persistUnderLock_post {payload : CatalogPayload} (hgen : payload.generation ≤ maximumGeneration) :
    Post (persistUnderLock P io key payload) s (Persisted P key payload s) := by
  refine (validateCatalogStructure_post payload).seq ?_ ?_
  swap
  · rintro e _ ⟨rfl, -⟩
    exact .nothing
  rintro ⟨⟩ _ ⟨rfl, hvalid⟩
  have hvalid := hvalid.mp rfl
  refine Post.guard.mpr ⟨fun _ => .nothing, fun hsize => ?_⟩
  have hstorable : Storable P key payload := ⟨hvalid, hsize⟩
  refine (writeDurableAtomic_post .catalog _).seq ?_ ?_
  swap
  · rintro e _ (⟨-, rfl⟩ | rfl)
    · exact .nothing
    · exact .half hstorable
  rintro ⟨⟩ _ (⟨⟨e, he⟩, -⟩ | rfl)
  · cases he
  refine Post.guard.mpr ⟨fun hbad => absurd hbad (watermarkEnvelope_size hvalid.generation hgen), fun _ => ?_⟩
  refine (writeDurableAtomic_post .watermark _).seq ?_ ?_
  swap
  · rintro e _ (⟨-, rfl⟩ | rfl)
    · exact .half hstorable
    · exact .both hstorable
  rintro ⟨⟩ _ (⟨⟨e, he⟩, -⟩ | rfl)
  · cases he
  -- what follows reads both files back and changes nothing
  refine readCatalogFile_post.seq ?_ ?_
  swap
  · rintro e _ ⟨rfl, -⟩
    exact .both hstorable
  rintro catalog _ ⟨rfl, hread⟩
  obtain ⟨_, rfl, -, -⟩ := hread _ rfl
  refine (validateWatermark_post _).seq ?_ ?_
  · rintro ⟨⟩ _ ⟨rfl, -⟩
    exact Post.ite.mpr ⟨fun _ => .both hstorable, fun _ => .both hstorable⟩
  · rintro e _ ⟨rfl, -⟩
    exact .both hstorable

/-! ## Loading -/

/-- What loading may come to. -/
inductive Loaded (P : Primitives) (key : Key) (s : Session) : Except Exception CatalogPayload → Session → Prop
  | refused {e : Exception} : Loaded P key s (.error e) s
  | clean {payload : CatalogPayload} : Verified P key s.disk payload →
      s.highestObservedGeneration ≤ payload.generation → Clean P s.disk payload →
      Loaded P key s (.ok payload) (s.observed payload.generation)
  | recovered {payload : CatalogPayload} {r : Except Exception Unit} {s' : Session} :
      Verified P key s.disk payload → s.highestObservedGeneration ≤ payload.generation →
      (∀ record ∈ payload.records, ¬ record.Corrupt P s.disk) →
      (∃ record ∈ payload.records, record.Stale P s.disk) → payload.generation + 1 ≤ maximumGeneration →
      Persisted P key (payload.recovered P s.disk) s r s' →
      Loaded P key s (r.map fun _ => payload.recovered P s.disk)
        (match r with
        | .ok _ => s'.observed (payload.generation + 1)
        | .error _ => s')

theorem nextGeneration_post (generation : Int) :
    Post (nextGeneration generation) s (fun r s' => s' = s ∧ ∀ g, r = .ok g →
      g = generation + 1 ∧ generation + 1 ≤ maximumGeneration) := by
  simp only [nextGeneration, Post.ite, Post.pure, Post.throw]
  exact ⟨fun h => ⟨trivial, fun g hg => by cases hg; exact ⟨rfl, h⟩⟩, fun _ => ⟨trivial, fun _ => Post.not_ok⟩⟩

theorem loadAndRecoverUnderLock_post :
    Post (loadAndRecoverUnderLock P io key) s (Loaded P key s) := by
  rw [loadAndRecoverUnderLock, Post.bind, Post.get]
  refine Post.guard.mpr ⟨fun _ => .refused, fun _ => ?_⟩
  refine readCatalogFile_post.seq ?_ ?_
  swap
  · rintro e _ ⟨rfl, -⟩
    exact .refused
  rintro catalog _ ⟨rfl, hread⟩
  obtain ⟨payload, rfl, hcatalog, hsize⟩ := hread _ rfl
  refine (validateWatermark_post payload).seq ?_ ?_
  swap
  · rintro e _ ⟨rfl, -⟩
    exact .refused
  rintro ⟨⟩ _ ⟨rfl, hwatermark⟩
  rw [Post.bind, Post.get]
  refine Post.guard.mpr ⟨fun _ => .refused, fun hgen => ?_⟩
  refine (validateCatalogStructure_post payload).seq ?_ ?_
  swap
  · rintro e _ ⟨rfl, -⟩
    exact .refused
  rintro ⟨⟩ _ ⟨rfl, hvalid⟩
  have hverified : Verified P key _ payload :=
    ⟨hcatalog, (hwatermark rfl).1, (hwatermark rfl).2, hvalid.mp rfl, hsize⟩
  have hgen := not_lt.mp hgen
  refine (recoverRecords_post payload.records).seq ?_ ?_
  swap
  · rintro e _ ⟨rfl, -⟩
    exact .refused
  rintro _ _ ⟨rfl, ⟨⟨e, he⟩, -⟩ | ⟨recovered, he, hcorrupt, hstale⟩⟩ <;> cases he
  refine Post.ite.mpr ⟨fun hfresh => ?_, fun hrecovered => ?_⟩
  · refine .clean hverified hgen fun record hr hactive => ?_
    by_contra hm
    rw [hstale.mpr ⟨record, hr, hactive, hm⟩] at hfresh
    cases hfresh
  · rw [Bool.not_eq_true', Bool.not_eq_false] at hrecovered
    refine (nextGeneration_post payload.generation).seq ?_ ?_
    swap
    · rintro e _ ⟨rfl, -⟩
      exact .refused
    rintro _ _ ⟨rfl, hnext⟩
    obtain ⟨rfl, hmax⟩ := hnext _ rfl
    refine (persistUnderLock_post hmax).seq ?_ ?_
    · intro _ s' hp
      exact .recovered hverified hgen hcorrupt (hstale.mp hrecovered) hmax hp
    · intro e s' hp
      exact .recovered hverified hgen hcorrupt (hstale.mp hrecovered) hmax hp

/-! ## Methods on a loaded catalog -/

/-- What a method may come to whose action satisfies `A`. -/
inductive Freshened {α : Type} (P : Primitives) (key : Key)
    (A : CatalogPayload → Session → Except Exception (MutationResult α) → Prop) (s : Session) :
    Except Exception α → Session → Prop
  | unloaded {e : Exception} {s' : Session} : Loaded P key s (.error e) s' →
      Freshened P key A s (.error e) s'
  | refused {p : CatalogPayload} {e : Exception} {s' : Session} : Loaded P key s (.ok p) s' →
      A p s' (.error e) → Freshened P key A s (.error e) s'
  | kept {p : CatalogPayload} {m : MutationResult α} {s' : Session} : Loaded P key s (.ok p) s' →
      A p s' (.ok m) → m.shouldPersist = false →
      Freshened P key A s (.ok m.value) (s'.observed m.catalog.generation)
  | persisted {p : CatalogPayload} {m : MutationResult α} {r : Except Exception Unit} {s' s'' : Session} :
      Loaded P key s (.ok p) s' → A p s' (.ok m) → m.shouldPersist = true →
      Persisted P key m.catalog s' r s'' →
      Freshened P key A s (r.map fun _ => m.value)
        (match r with
        | .ok _ => s''.observed m.catalog.generation
        | .error _ => s'')

theorem withFreshCatalog_post {α : Type} {action : CatalogPayload → CatalogM (MutationResult α)}
    {A : CatalogPayload → Session → Except Exception (MutationResult α) → Prop}
    (hA : ∀ p s, Post (action p) s (fun r s' => s' = s ∧ A p s r))
    (hgen : ∀ p s m, A p s (.ok m) → m.shouldPersist = true → m.catalog.generation ≤ maximumGeneration) :
    Post (withFreshCatalog P io key action) s (Freshened P key A s) := by
  refine Post.guard.mpr ⟨fun _ => .unloaded .refused, fun _ => ?_⟩
  rw [acquireInterprocessLock, Post.bind, Post.ite]
  refine ⟨fun _ => ?_, fun _ => .unloaded .refused⟩
  refine loadAndRecoverUnderLock_post.seq ?_ ?_
  swap
  · intro e s' hl
    exact .unloaded hl
  intro p s' hl
  refine (hA p s').seq ?_ ?_
  swap
  · rintro e _ ⟨rfl, ha⟩
    exact .refused hl ha
  rintro m _ ⟨rfl, ha⟩
  refine Post.ite.mpr ⟨fun hp => ?_, fun hp => ?_⟩
  · refine (persistUnderLock_post (hgen p _ m ha hp)).seq ?_ ?_
    · intro _ s'' hpersisted
      exact .persisted hl ha hp hpersisted
    · intro e s'' hpersisted
      exact .persisted hl ha hp hpersisted
  · exact .kept hl ha (Bool.not_eq_true _ ▸ hp)

/-- What an action may do with the catalog that was loaded: keep it, or hand over one mutation of it. -/
def Effect {α : Type} (P : Primitives) (p : CatalogPayload) (s : Session) (m : MutationResult α) : Prop :=
  m.shouldPersist = false ∧ m.catalog = p ∨
    m.shouldPersist = true ∧ m.catalog.generation ≤ maximumGeneration ∧ (Valid P p → p.Next m.catalog) ∧
      (Clean P s.disk p → Clean P s.disk m.catalog)

theorem readArtifactFacts_post (name : String) :
    Post (readArtifactFacts P name) s (fun r s' => s' = s ∧ ∀ facts, r = .ok facts →
      s.disk.artifact? P name = some (.dwg facts)) := by
  simp only [readArtifactFacts, Post.bind, Post.get]
  cases s.disk.artifact? P name with
  | none => exact ⟨rfl, fun _ => Post.not_ok⟩
  | some artifact =>
      cases artifact with
      | dwg facts => exact ⟨rfl, fun _ h => by cases h; rfl⟩
      | notDwg => exact ⟨rfl, fun _ => Post.not_ok⟩
      | unreadable => exact ⟨rfl, fun _ => Post.not_ok⟩

theorem requireRecord_post (p : CatalogPayload) (checkpointId : String) :
    Post (requireRecord p checkpointId) s (fun r s' => s' = s ∧ ∀ record, r = .ok record →
      record ∈ p.records ∧ record.checkpointId = checkpointId) := by
  unfold requireRecord
  split
  · exact ⟨rfl, fun _ => Post.not_ok⟩
  · rename_i record hfilter
    refine ⟨rfl, fun _ h => ?_⟩
    cases h
    have hmem : record ∈ p.records.filter (·.checkpointId = checkpointId) := hfilter ▸ List.mem_singleton_self _
    simpa using hmem
  · exact ⟨rfl, fun _ => Post.not_ok⟩

/-- Records of a valid catalog with the same id are the same. -/
theorem Valid.eq_of_id {p : CatalogPayload} (h : Valid P p) {record record' : DurableCheckpointRecord}
    (hr : record ∈ p.records) (hr' : record' ∈ p.records) (hid : record'.checkpointId = record.checkpointId) :
    record' = record :=
  List.inj_on_of_nodup_map h.ids hr' hr hid

namespace DurableCheckpointCatalog

/-- What a change of state does. -/
theorem changeState_post {p : CatalogPayload} {checkpointId : String} {required : List DurableCheckpointState}
    {nextState : DurableCheckpointState} {message : String}
    (hnext : ∀ state ∈ required, state.Next nextState) :
    Post (changeState checkpointId required nextState message p) s (fun r s' => s' = s ∧ ∀ m, r = .ok m →
      Effect P p s m ∧ ∃ current ∈ p.records, current.checkpointId = checkpointId ∧
        m.value = { current with state := nextState } ∧
        (m.shouldPersist = false ↔ current.state = nextState) ∧
        (m.shouldPersist = true → current.state ∈ required ∧ (Valid P p → m.value ∈ m.catalog.records))) := by
  refine (requireRecord_post p checkpointId).seq ?_ ?_
  swap
  · rintro e _ ⟨rfl, -⟩
    exact ⟨rfl, fun _ => Post.not_ok⟩
  rintro current _ ⟨rfl, hcurrent⟩
  obtain ⟨hmem, hid⟩ := hcurrent _ rfl
  refine Post.ite.mpr ⟨fun hsame => ⟨rfl, fun m hm => ?_⟩, fun hne => ?_⟩
  · cases hm
    refine ⟨.inl ⟨rfl, rfl⟩, current, hmem, hid, ?_, iff_of_true rfl hsame, nofun⟩
    rw [← hsame]
    rfl
  refine Post.guard.mpr ⟨fun _ => ⟨rfl, fun _ => Post.not_ok⟩, fun hreq => ?_⟩
  have hreq := not_not.mp hreq
  refine (nextGeneration_post p.generation).seq ?_ ?_
  swap
  · rintro e _ ⟨rfl, -⟩
    exact ⟨rfl, fun _ => Post.not_ok⟩
  rintro _ t ⟨rfl, hg⟩
  obtain ⟨rfl, hmax⟩ := hg _ rfl
  refine ⟨rfl, fun m hm => ?_⟩
  cases hm
  refine ⟨.inr ⟨rfl, hmax, fun hvalid => .change ?_, fun hclean => ?_⟩, current, hmem, hid, rfl, ?_,
    fun _ => ⟨hreq, fun hvalid => ?_⟩⟩
  · rw [List.forall₂_map_right_iff, List.forall₂_same]
    intro record hr
    by_cases heq : record.checkpointId = current.checkpointId
    · obtain rfl := hvalid.eq_of_id hmem hr heq
      rw [if_pos rfl]
      exact .inr ⟨nextState, hnext _ hreq, rfl⟩
    · rw [if_neg heq]
      exact .inl rfl
  · intro record hr hactive
    obtain ⟨old, hold, rfl⟩ := List.mem_map.mp hr
    by_cases heq : old.checkpointId = current.checkpointId
    · rw [if_pos heq]
      exact hclean current hmem (hnext _ hreq).active
    · rw [if_neg heq] at hactive ⊢
      exact hclean old hold hactive
  · exact iff_of_false Bool.noConfusion hne
  · exact List.mem_map.mpr ⟨current, hmem, if_pos rfl⟩

/-- What a registration does. -/
theorem register_post {p : CatalogPayload} {r : Registration} {originalPathHash : String} :
    Post (register P r originalPathHash p) s (fun x s' => s' = s ∧ ∀ m, x = .ok m → Effect P p s m) := by
  refine Post.guard.mpr ⟨fun _ => ⟨rfl, fun _ => Post.not_ok⟩, fun _ => ?_⟩
  refine Post.guard.mpr ⟨fun _ => ⟨rfl, fun _ => Post.not_ok⟩, fun _ => ?_⟩
  refine (readArtifactFacts_post r.checkpointFileName).seq ?_ ?_
  swap
  · rintro e _ ⟨rfl, -⟩
    exact ⟨rfl, fun _ => Post.not_ok⟩
  rintro facts _ ⟨rfl, hfacts⟩
  have hfacts := hfacts _ rfl
  refine (nextGeneration_post p.generation).seq ?_ ?_
  swap
  · rintro e _ ⟨rfl, -⟩
    exact ⟨rfl, fun _ => Post.not_ok⟩
  rintro _ _ ⟨rfl, hg⟩
  obtain ⟨rfl, hmax⟩ := hg _ rfl
  refine ⟨rfl, fun m hm => ?_⟩
  cases hm
  refine .inr ⟨rfl, hmax, fun _ => .append _ rfl, fun hclean => ?_⟩
  intro record hr hactive
  rcases List.mem_append.mp hr with hold | hnew
  · exact hclean record hold hactive
  · rw [List.mem_singleton.mp hnew]
    exact ⟨facts, hfacts, rfl, rfl, rfl⟩

end DurableCheckpointCatalog

end CadHarness.Checkpoint
