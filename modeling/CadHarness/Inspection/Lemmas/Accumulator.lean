import CadHarness.Inspection.Lemmas.Reading

/-!
# The accumulated digests

An inspection of either kind that returns has added up the digests of the validated entities, in some order,
and the sum does not depend on it.
-/

namespace CadHarness.Inspection
open CadHarness.Lib CadHarness.Lib.Fallible

variable (rt : Runtime)

namespace EntityRevisionAccumulator

theorem ext {acc acc' : EntityRevisionAccumulator} (hwords : acc.words = acc'.words)
    (hcount : acc.count = acc'.count) : acc = acc' := by
  cases acc
  cases acc'
  simp_all

/-- The accumulator with one more text. -/
def addText (accumulator : EntityRevisionAccumulator) (text : Text) : EntityRevisionAccumulator :=
  ⟨fun index => accumulator.words index + rt.sha256 text.utf8 index, accumulator.count + 1⟩

/-- The accumulator of a list of texts. -/
def ofTexts (texts : List Text) : EntityRevisionAccumulator := texts.foldl (addText rt) new

variable {rt}

theorem addText_right_comm (accumulator : EntityRevisionAccumulator) (s t : Text) :
    (accumulator.addText rt s).addText rt t = (accumulator.addText rt t).addText rt s := by
  apply ext
  · funext index
    simp only [addText]
    rw [UInt64.add_assoc, UInt64.add_comm (rt.sha256 s.utf8 index), ← UInt64.add_assoc]
  · rfl

theorem foldl_addText_perm {texts texts' : List Text} (h : texts.Perm texts')
    (accumulator : EntityRevisionAccumulator) :
    texts.foldl (addText rt) accumulator = texts'.foldl (addText rt) accumulator :=
  h.foldl_eq' (fun _ _ _ _ _ => addText_right_comm _ _ _) accumulator

theorem add_eq_ok {accumulator accumulator' : EntityRevisionAccumulator} {entity : InspectionEntity} :
    accumulator.add rt entity = .ok accumulator' ↔
      ∃ text, appendEntityCanonical rt.band 0 entity = .ok text ∧ accumulator.addText rt text = accumulator' := by
  simp only [add, bind_eq_ok, pure_eq_ok, addText]

theorem foldlM_add_eq_ok {entities : List InspectionEntity} {accumulator accumulator' : EntityRevisionAccumulator} :
    entities.foldlM (add rt) accumulator = .ok accumulator' ↔
      ∃ parts, appendChildren rt.band 0 entities = .ok parts ∧
        (parts.map Prod.snd).foldl (addText rt) accumulator = accumulator' := by
  induction entities generalizing accumulator with
  | nil => simp [appendChildren]
  | cons entity entities ih =>
      simp only [List.foldlM_cons, bind_eq_ok, add_eq_ok, ih, appendChildren, pure_eq_ok]
      constructor
      · rintro ⟨_, ⟨text, htext, rfl⟩, parts, hparts, rfl⟩
        exact ⟨_, ⟨text, htext, parts, hparts, rfl⟩, rfl⟩
      · rintro ⟨_, ⟨text, htext, parts, hparts, rfl⟩, rfl⟩
        exact ⟨_, ⟨text, htext, rfl⟩, parts, hparts, rfl⟩

end EntityRevisionAccumulator

variable {rt}

/-! ## The loops -/

theorem readEntitiesLoop_eq_ok {entities sources result : List InspectionEntity}
    (h : readEntitiesLoop entities sources = .ok result) :
    ∃ validated, copyAndValidateEntities 0 sources = .ok validated ∧ result = entities ++ validated := by
  induction sources generalizing entities with
  | nil =>
      obtain rfl := pure_eq_ok.mp h
      exact ⟨[], rfl, (List.append_nil _).symm⟩
  | cons source sources ih =>
      simp only [readEntitiesLoop, guard_eq_ok, bind_eq_ok] at h
      obtain ⟨_, entity, hentity, _, hrest⟩ := h
      obtain ⟨validated, hvalidated, rfl⟩ := ih hrest
      refine ⟨entity :: validated, ?_, List.append_assoc _ _ _⟩
      simp only [copyAndValidateEntities, hentity, hvalidated]
      rfl

theorem readBounded_eq_ok {maxEntities : Int} {includeEntity : Nat → InspectionEntity → Except Exception Bool}
    {read read' : BridgeInspectionService.BoundedRead} {source : InspectionEntity}
    (h : BridgeInspectionService.readBounded rt maxEntities includeEntity read source = .ok read') :
    ∃ entity, source.copyAndValidate 0 = .ok entity ∧
      read.revisionEntities.add rt entity = .ok read'.revisionEntities := by
  simp only [BridgeInspectionService.readBounded, guard_eq_ok, bind_eq_ok] at h
  obtain ⟨_, entity, hentity, _, accumulator, hadd, accepted, _, hread⟩ := h
  refine ⟨entity, hentity, ?_⟩
  cases accepted with
  | true =>
      simp only [if_true, guard_eq_ok, pure_eq_ok] at hread
      rw [hadd, ← hread.2]
  | false =>
      obtain rfl := pure_eq_ok.mp hread
      exact hadd

theorem foldlM_readBounded_eq_ok {maxEntities : Int}
    {includeEntity : Nat → InspectionEntity → Except Exception Bool}
    {read read' : BridgeInspectionService.BoundedRead} {sources : List InspectionEntity}
    (h : sources.foldlM (BridgeInspectionService.readBounded rt maxEntities includeEntity) read = .ok read') :
    ∃ validated, copyAndValidateEntities 0 sources = .ok validated ∧
      validated.foldlM (EntityRevisionAccumulator.add rt) read.revisionEntities = .ok read'.revisionEntities := by
  induction sources generalizing read with
  | nil =>
      obtain rfl := pure_eq_ok.mp h
      exact ⟨[], rfl, rfl⟩
  | cons source sources ih =>
      rw [List.foldlM_cons, bind_eq_ok] at h
      obtain ⟨next, hnext, hrest⟩ := h
      obtain ⟨entity, hentity, hadd⟩ := readBounded_eq_ok hnext
      obtain ⟨validated, hvalidated, hfold⟩ := ih hrest
      refine ⟨entity :: validated, ?_, ?_⟩
      · simp only [copyAndValidateEntities, hentity, hvalidated]
        rfl
      · rw [List.foldlM_cons, hadd]
        exact hfold

/-! ## What either inspection reports -/

/-- Validated, the entity has the canonical text. -/
def Commits (band : Canonical.Band) (source : InspectionEntity) (text : Text) : Prop :=
  ∃ entity, source.copyAndValidate 0 = .ok entity ∧ appendEntityCanonical band 0 entity = .ok text

theorem forall₂_commits_iff {band : Canonical.Band} {sources : List InspectionEntity} {texts : List Text} :
    List.Forall₂ (Commits band) sources texts ↔ ∃ validated parts, copyAndValidateEntities 0 sources = .ok validated ∧
      appendChildren band 0 validated = .ok parts ∧ parts.map Prod.snd = texts := by
  induction sources generalizing texts with
  | nil =>
      rw [List.forall₂_nil_left_iff]
      constructor
      · rintro rfl
        exact ⟨[], [], rfl, rfl, rfl⟩
      · rintro ⟨_, _, hvalidated, hparts, rfl⟩
        obtain rfl := pure_eq_ok.mp hvalidated
        obtain rfl := pure_eq_ok.mp hparts
        rfl
  | cons source sources ih =>
      simp only [List.forall₂_cons_left_iff, ih, copyAndValidateEntities, bind_eq_ok, pure_eq_ok]
      constructor
      · rintro ⟨text, _, ⟨entity, hentity, htext⟩, ⟨validated, parts, hvalidated, hparts, rfl⟩, rfl⟩
        refine ⟨_, (entity.handle, text) :: parts, ⟨entity, hentity, validated, hvalidated, rfl⟩, ?_, rfl⟩
        simp only [appendChildren, bind_eq_ok, pure_eq_ok]
        exact ⟨text, htext, parts, hparts, rfl⟩
      · rintro ⟨_, _, ⟨entity, hentity, validated, hvalidated, rfl⟩, hparts, rfl⟩
        simp only [appendChildren, bind_eq_ok, pure_eq_ok] at hparts
        obtain ⟨text, htext, parts, hparts, rfl⟩ := hparts
        exact ⟨text, _, ⟨entity, hentity, htext⟩, ⟨validated, parts, hvalidated, hparts, rfl⟩, rfl⟩

theorem distinct_of_copyAndValidate {depth : Nat} {sources entities : List InspectionEntity}
    (h : copyAndValidateEntities depth sources = .ok entities) : AllOf DistinctHandles entities := by
  rw [allOf_iff]
  exact forall_of_forall₂ (copyAndValidateEntities_eq_ok.mp h) (fun _ _ h => (reordered_of_copyAndValidate h).2)

theorem reorderedList_of_copyAndValidate {depth : Nat} {sources entities : List InspectionEntity}
    (h : copyAndValidateEntities depth sources = .ok entities) : ReorderedList sources entities :=
  .of_forall₂ ((copyAndValidateEntities_eq_ok.mp h).imp (fun _ _ h => (reordered_of_copyAndValidate h).1))

/-- Reordered entities commit to the same texts. -/
theorem ReorderedList.commits_perm {band : Canonical.Band} {es es' : List InspectionEntity} {texts texts' : List Text}
    (h : ReorderedList es es') (ht : List.Forall₂ (Commits band) es texts)
    (ht' : List.Forall₂ (Commits band) es' texts') : texts.Perm texts' := by
  obtain ⟨validated, parts, hvalidated, hparts, rfl⟩ := forall₂_commits_iff.mp ht
  obtain ⟨validated', parts', hvalidated', hparts', rfl⟩ := forall₂_commits_iff.mp ht'
  have hreordered : ReorderedList validated validated' :=
    (reorderedList_of_copyAndValidate hvalidated).symm.trans (h.trans (reorderedList_of_copyAndValidate hvalidated'))
  obtain ⟨_, hread, hperm⟩ := hreordered.canonical (distinct_of_copyAndValidate hvalidated) hparts
  obtain rfl := Except.ok.inj (hread.symm.trans hparts')
  exact hperm.map Prod.snd

/-- How the revision that an inspection reports comes about. -/
structure Reports (rt : Runtime) (document : BoundInspectionDocument) (revision : Text) where
  sourceUnitCode : Text
  texts : List Text
  unit_eq : normalizeSourceUnitCode rt document.sourceUnitCode = .ok sourceUnitCode
  commits : List.Forall₂ (Commits rt.band) document.readEntities texts
  layers_nodup : (document.readLayers.map (·.name)).Nodup
  styles_nodup : (document.readStyles.map (fun style => (style.kind, style.name))).Nodup
  revision_eq : revision = computeRevision rt document.documentId sourceUnitCode (.ofTexts rt texts)
    (sortBy (fun layer => ordinal layer.name) document.readLayers) (sortBy InspectionStyle.key document.readStyles)

theorem new_eq_ok {document : BoundInspectionDocument} {service : BridgeInspectionService}
    (h : BridgeInspectionService.new rt document = .ok service) :
    ∃ sourceUnitCode, normalizeSourceUnitCode rt document.sourceUnitCode = .ok sourceUnitCode ∧
      service = ⟨document, document.documentId, sourceUnitCode⟩ := by
  simp only [BridgeInspectionService.new, bind_eq_ok, pure_eq_ok] at h
  obtain ⟨_, _, sourceUnitCode, hunit, rfl⟩ := h
  exact ⟨sourceUnitCode, hunit, rfl⟩

theorem Call.reports {call : Call} {document : BoundInspectionDocument} {snapshot : DocumentInspectionSnapshot}
    (h : call.run rt document = .ok snapshot) : Nonempty (Reports rt document snapshot.revision) := by
  cases call with
  | whole =>
      simp only [Call.run, bind_eq_ok] at h
      obtain ⟨service, hnew, h⟩ := h
      obtain ⟨sourceUnitCode, hunit, rfl⟩ := new_eq_ok hnew
      simp only [BridgeInspectionService.inspectDocument, readAndOrderEntities, bind_eq_ok, pure_eq_ok] at h
      obtain ⟨_, ⟨_, hread, rfl⟩, layers, hlayers, styles, hstyles, accumulator, hfold, rfl⟩ := h
      obtain ⟨validated, hvalidated, hread⟩ := readEntitiesLoop_eq_ok hread
      rw [hread, List.nil_append] at hfold
      obtain ⟨rfl, hlayersNodup⟩ := readAndOrderLayers_eq_ok hlayers
      obtain ⟨rfl, hstylesNodup⟩ := readAndOrderStyles_eq_ok hstyles
      obtain ⟨sorted, hsorted, rfl⟩ := EntityRevisionAccumulator.foldlM_add_eq_ok.mp hfold
      have hperm : ReorderedList (sortBy (fun entity => ordinal entity.handle) validated) validated :=
        .of_perm (sortBy_perm _ _)
      have hdistinct := hperm.symm.distinct (distinct_of_copyAndValidate hvalidated)
      obtain ⟨parts, hparts, hpartsPerm⟩ := hperm.canonical hdistinct hsorted
      refine ⟨⟨sourceUnitCode, _, hunit, forall₂_commits_iff.mpr ⟨validated, parts, hvalidated, hparts, rfl⟩,
        hlayersNodup, hstylesNodup, ?_⟩⟩
      rw [EntityRevisionAccumulator.ofTexts,
        ← EntityRevisionAccumulator.foldl_addText_perm (hpartsPerm.map Prod.snd)]
  | bounded maxEntities includeEntity =>
      simp only [Call.run, bind_eq_ok] at h
      obtain ⟨service, hnew, h⟩ := h
      obtain ⟨sourceUnitCode, hunit, rfl⟩ := new_eq_ok hnew
      simp only [BridgeInspectionService.inspectDocumentBounded, guard_eq_ok, bind_eq_ok, pure_eq_ok] at h
      obtain ⟨_, layers, hlayers, styles, hstyles, read, hread, rfl⟩ := h
      obtain ⟨validated, hvalidated, hfold⟩ := foldlM_readBounded_eq_ok hread
      obtain ⟨rfl, hlayersNodup⟩ := readAndOrderLayers_eq_ok hlayers
      obtain ⟨rfl, hstylesNodup⟩ := readAndOrderStyles_eq_ok hstyles
      obtain ⟨parts, hparts, heq⟩ := EntityRevisionAccumulator.foldlM_add_eq_ok.mp hfold
      refine ⟨⟨sourceUnitCode, _, hunit, forall₂_commits_iff.mpr ⟨validated, parts, hvalidated, hparts, rfl⟩,
        hlayersNodup, hstylesNodup, ?_⟩⟩
      rw [← heq, EntityRevisionAccumulator.ofTexts]

end CadHarness.Inspection
