import CadHarness.Inspection.Lemmas.Accumulator
import CadHarness.Inspection.Lemmas.RevisionText

/-!
# What a revision tells of its document

Equal revisions mean equal documents, up to order, in everything but the entities. Of these the revision
keeps the number and the sum of the digests, so that one changed entity is noticed.
-/

/-!
## The revision of a document

The whole inspection and the bounded one report the same revision, in whatever order the host enumerates.
-/

namespace CadHarness.Inspection
open CadHarness.Lib CadHarness.Lib.Fallible

/-- Two documents that differ in the order of what the host enumerates, and in lists that are null or empty. -/
structure BoundInspectionDocument.Reordered (document document' : BoundInspectionDocument) : Prop where
  documentId : document.documentId = document'.documentId
  sourceUnitCode : document.sourceUnitCode = document'.sourceUnitCode
  entities : ReorderedList document.readEntities document'.readEntities
  layers : document.readLayers.Perm document'.readLayers
  styles : document.readStyles.Perm document'.readStyles

theorem InspectionStyleKind.ctorIdx_injective : Function.Injective InspectionStyleKind.ctorIdx := by
  intro kind kind' h
  cases kind <;> cases kind' <;> first | rfl | cases h

theorem sortLayers_congr {layers layers' : List InspectionLayer} (h : (layers.map (·.name)).Nodup)
    (hperm : layers.Perm layers') :
    sortBy (fun layer => ordinal layer.name) layers = sortBy (fun layer => ordinal layer.name) layers' := by
  apply sortBy_congr _ hperm
  have := h.map ordinal_injective
  rwa [List.map_map] at this

theorem sortStyles_congr {styles styles' : List InspectionStyle}
    (h : (styles.map (fun style => (style.kind, style.name))).Nodup) (hperm : styles.Perm styles') :
    sortBy InspectionStyle.key styles = sortBy InspectionStyle.key styles' := by
  apply sortBy_congr _ hperm
  have hinj : Function.Injective (fun key : InspectionStyleKind × Text => key.1.ctorIdx :: ordinal key.2) := by
    rintro ⟨kind, name⟩ ⟨kind', name'⟩ heq
    obtain ⟨hkind, hname⟩ := List.cons.inj heq
    exact Prod.ext (InspectionStyleKind.ctorIdx_injective hkind) (ordinal_injective hname)
  have := h.map hinj
  rwa [List.map_map] at this

variable {rt : Runtime}

/-- Any two inspections that return report the same revision of two documents that differ in order only. -/
theorem inspection_revision_agrees {document document' : BoundInspectionDocument}
    (h : document.Reordered document') {call call' : Call} {snapshot snapshot' : DocumentInspectionSnapshot}
    (hcall : call.run rt document = .ok snapshot) (hcall' : call'.run rt document' = .ok snapshot') :
    snapshot.revision = snapshot'.revision := by
  obtain ⟨r⟩ := Call.reports hcall
  obtain ⟨r'⟩ := Call.reports hcall'
  have hunit : r.sourceUnitCode = r'.sourceUnitCode :=
    Except.ok.inj (r.unit_eq.symm.trans (h.sourceUnitCode ▸ r'.unit_eq))
  have haccumulator : EntityRevisionAccumulator.ofTexts rt r.texts = EntityRevisionAccumulator.ofTexts rt r'.texts :=
    EntityRevisionAccumulator.foldl_addText_perm (h.entities.commits_perm r.commits r'.commits) _
  rw [r.revision_eq, r'.revision_eq, h.documentId, hunit, haccumulator, sortLayers_congr r.layers_nodup h.layers,
    sortStyles_congr r.styles_nodup h.styles]

/-! ## Concrete documents -/

/-- A digest that tells nothing, and the invariant culture without upper case. -/
def plainRuntime : Runtime := ⟨fun _ _ => 0, Canonical.dotNetBand, id⟩

/-- A handle of one digit. -/
def digitRef (digit : UInt16) (h : isHexDigit digit = true) : StableEntityReference :=
  ⟨[digit], by simp, by simp, by simp [h]⟩

/-- The handles "1" to "4". -/
def refOne : StableEntityReference := digitRef 49 rfl
def refTwo : StableEntityReference := digitRef 50 rfl
def refThree : StableEntityReference := digitRef 51 rfl
def refFour : StableEntityReference := digitRef 52 rfl

def digitAttributes (ref : StableEntityReference) : InspectionAttributes where
  entityRef := ref
  entityType := [76]
  layer := [48]
  style := none
  colorIndex := none
  linetype := none
  content := none
  harnessMetadata := none
  visible := true
  space := [77]

def emptyGeometry : InspectionGeometry := { kind := .other, points := [] }

def digitEntity (ref : StableEntityReference) (children : Option (List InspectionEntity)) : InspectionEntity :=
  .mk (digitAttributes ref) emptyGeometry children

def digitDocument (entities : List InspectionEntity) : BoundInspectionDocument :=
  ⟨[68], [109], entities, [⟨[48], false, false, false, none, none⟩], []⟩

/-- Two entities, one of them with two child entities. -/
def drawing : BoundInspectionDocument :=
  digitDocument [digitEntity (digitRef 49 rfl) (some [digitEntity (digitRef 51 rfl) none,
    digitEntity (digitRef 52 rfl) none]), digitEntity (digitRef 50 rfl) none]

/-- The same drawing, enumerated from the end. -/
def drawingReversed : BoundInspectionDocument :=
  digitDocument [digitEntity (digitRef 50 rfl) (some []), digitEntity (digitRef 49 rfl)
    (some [digitEntity (digitRef 52 rfl) none, digitEntity (digitRef 51 rfl) none])]

theorem drawing_reordered : drawing.Reordered drawingReversed where
  documentId := rfl
  sourceUnitCode := rfl
  entities := .trans (.swap _ _ _) (.cons (.mk rfl .nil) (.cons (.mk rfl (.swap _ _ _)) .nil))
  layers := .refl _
  styles := .refl _

theorem inspection_revision_agrees_example :
    ∃ snapshot snapshot', Call.whole.run plainRuntime drawing = .ok snapshot ∧
      (Call.bounded 1 (fun index _ => .ok (index == 1))).run plainRuntime drawingReversed = .ok snapshot' ∧
      snapshot.revision = snapshot'.revision := by
  obtain ⟨snapshot, hcall⟩ := exists_of_toBool
    (show (Call.whole.run plainRuntime drawing).toBool = true by decide +kernel)
  obtain ⟨snapshot', hcall'⟩ := exists_of_toBool
    (show ((Call.bounded 1 (fun index _ => .ok (index == 1))).run plainRuntime drawingReversed).toBool = true
      by decide +kernel)
  exact ⟨snapshot, snapshot', hcall, hcall', inspection_revision_agrees drawing_reordered hcall hcall'⟩

end CadHarness.Inspection

namespace CadHarness.Inspection
open CadHarness.Lib CadHarness.Lib.Fallible CadHarness.Canonical

variable (rt : Runtime)

/-- The texts that an inspection of the document hashes. -/
def Hashed (document : BoundInspectionDocument) : Set Text :=
  fun text => (∃ source ∈ document.readEntities, Commits rt.band source text) ∨
    ∃ sourceUnitCode texts, normalizeSourceUnitCode rt document.sourceUnitCode = .ok sourceUnitCode ∧
      List.Forall₂ (Commits rt.band) document.readEntities texts ∧
      text = revisionCanonical rt.band document.documentId sourceUnitCode (.ofTexts rt texts)
        (sortBy (fun layer => ordinal layer.name) document.readLayers)
        (sortBy InspectionStyle.key document.readStyles)

/-- A document whose strings hold whole characters, none of them "<null>" where null may stand. -/
structure BoundInspectionDocument.Plain (document : BoundInspectionDocument) : Prop where
  documentId : document.documentId.WellFormed
  sourceUnitCode : ∀ unit, normalizeSourceUnitCode rt document.sourceUnitCode = .ok unit → unit.WellFormed
  entities : ∀ e ∈ document.readEntities, e.All PlainEntity
  layers : ∀ layer ∈ document.readLayers, layer.Plain
  styles : ∀ style ∈ document.readStyles, style.name.WellFormed

variable {rt} {document document' : BoundInspectionDocument}

theorem InspectionGeometry.Plain.of_withoutNull {geometry geometry' : InspectionGeometry}
    (h : geometry.withoutNull = geometry'.withoutNull) (hp : geometry.Plain) : geometry'.Plain := by
  have hplain : geometry.withoutNull.Plain := ⟨hp.textStyle, hp.dimensionType, hp.dimensionStyle, hp.textOverride,
    hp.patternName, hp.blockName⟩
  rw [h] at hplain
  exact ⟨hplain.textStyle, hplain.dimensionType, hplain.dimensionStyle, hplain.textOverride, hplain.patternName,
    hplain.blockName⟩

theorem Reordered.plain {e e' : InspectionEntity} (h : Reordered e e') (hp : e.All PlainEntity) :
    e'.All PlainEntity :=
  h.all (fun _ _ _ _ _ hgeometry _ hplain => ⟨hplain.1, hplain.2.of_withoutNull hgeometry⟩) hp

/-- Entities that commit to one text differ in order only. -/
theorem Commits.reordered {band : Band} {source source' : InspectionEntity} {text : Text}
    (hp : source.All PlainEntity) (hp' : source'.All PlainEntity) (h : Commits band source text)
    (h' : Commits band source' text) : Reordered source source' := by
  obtain ⟨entity, hentity, htext⟩ := h
  obtain ⟨entity', hentity', htext'⟩ := h'
  have hreordered := (reordered_of_copyAndValidate hentity).1
  have hreordered' := (reordered_of_copyAndValidate hentity').1
  have hread : Reordered entity entity' := (appendEntityCanonical_append_inj (hreordered.plain hp)
    (hreordered'.plain hp') htext htext' (rfl : text ++ [] = text ++ [])).1
  exact hreordered.trans (hread.trans hreordered'.symm)

theorem Commits.wellFormed {band : Band} {source : InspectionEntity} {text : Text} (hp : source.All PlainEntity)
    (h : Commits band source text) : text.WellFormed := by
  obtain ⟨entity, hentity, htext⟩ := h
  exact wellFormed_appendEntityCanonical ((reordered_of_copyAndValidate hentity).1.plain hp) htext

/-- Entities that commit to the same texts, in any order, are the same entities. -/
theorem reorderedList_of_texts {band : Band} {es es' : List InspectionEntity} {texts texts' : List Text}
    (hp : ∀ e ∈ es, e.All PlainEntity) (hp' : ∀ e ∈ es', e.All PlainEntity)
    (h : List.Forall₂ (Commits band) es texts) (h' : List.Forall₂ (Commits band) es' texts')
    (hperm : texts.Perm texts') : ReorderedList es es' := by
  obtain ⟨es'', hflip, hes⟩ := List.perm_comp_forall₂ hperm h'.flip
  have hall : List.Forall₂ Reordered es es'' := by
    have hes'' : ∀ e ∈ es'', e.All PlainEntity := fun e he => hp' e (hes.mem_iff.mp he)
    clear hes hperm h'
    induction h generalizing es'' with
    | nil =>
        cases hflip
        exact .nil
    | cons he _ ih =>
        cases hflip with
        | cons he' hrest =>
            rw [List.forall_mem_cons] at hp hes''
            exact .cons (he.reordered hp.1 hes''.1 he') (ih hp.2 _ hrest hes''.2)
  exact .trans (.of_forall₂ hall) (.of_perm hes)

/-! ## Equal revisions -/

theorem Reports.hashed {revision : Text} (r : Reports rt document revision) :
    revisionCanonical rt.band document.documentId r.sourceUnitCode (.ofTexts rt r.texts)
      (sortBy (fun layer => ordinal layer.name) document.readLayers)
      (sortBy InspectionStyle.key document.readStyles) ∈ Hashed rt document :=
  .inr ⟨r.sourceUnitCode, r.texts, r.unit_eq, r.commits, rfl⟩

/-- Texts that are hashed for plain documents and have one digest are the same. -/
theorem eq_of_sha256 {t t' : Text}
    (hsha : Set.InjOn rt.sha256 (Text.utf8 '' (Hashed rt document ∪ Hashed rt document')))
    (ht : t ∈ Hashed rt document ∪ Hashed rt document') (ht' : t' ∈ Hashed rt document ∪ Hashed rt document')
    (hwell : t.WellFormed) (hwell' : t'.WellFormed) (h : rt.sha256 t.utf8 = rt.sha256 t'.utf8) : t = t' :=
  hwell.eq_of_utf8 hwell' (hsha (Set.mem_image_of_mem _ ht) (Set.mem_image_of_mem _ ht') h)

theorem EntityRevisionAccumulator.ofTexts_perm {texts texts' : List Text} (h : texts.Perm texts') :
    ofTexts rt texts = ofTexts rt texts' :=
  foldl_addText_perm h _

/-- The accumulator of a list is that of the rest, with one more text. -/
theorem EntityRevisionAccumulator.ofTexts_cons (text : Text) (texts : List Text) :
    ofTexts rt (text :: texts) = (ofTexts rt texts).addText rt text := by
  have hperm : (text :: texts).Perm (texts ++ [text]) := (List.perm_append_singleton _ _).symm
  rw [ofTexts, foldl_addText_perm hperm, List.foldl_append]
  rfl

@[simp] theorem EntityRevisionAccumulator.count_ofTexts (texts : List Text) :
    (ofTexts rt texts).count = texts.length := by
  induction texts with
  | nil => rfl
  | cons text texts ih => rw [ofTexts_cons, addText, ih, List.length_cons]

/-- What is added to one sum can be told from the new sum. -/
theorem EntityRevisionAccumulator.sha256_eq_of_ofTexts_cons {text text' : Text} {texts : List Text}
    (h : ofTexts rt (text :: texts) = ofTexts rt (text' :: texts)) : rt.sha256 text.utf8 = rt.sha256 text'.utf8 := by
  rw [ofTexts_cons, ofTexts_cons] at h
  funext index
  have hword := congrFun (congrArg EntityRevisionAccumulator.words h) index
  exact (UInt64.add_right_inj _).mp hword

/-- Of plain documents with one revision, everything but the entities is the same, up to order; the entities
are as many, and their digests have one sum. When the digests themselves are the same, so are the entities,
and when all entities but one are the same, so is that one. -/
theorem same_revision_same_document (hp : document.Plain rt) (hp' : document'.Plain rt)
    (hsha : Set.InjOn rt.sha256 (Text.utf8 '' (Hashed rt document ∪ Hashed rt document'))) {call call' : Call}
    {snapshot snapshot' : DocumentInspectionSnapshot} (hcall : call.run rt document = .ok snapshot)
    (hcall' : call'.run rt document' = .ok snapshot') (hrevision : snapshot.revision = snapshot'.revision) :
    document.documentId = document'.documentId ∧
    normalizeSourceUnitCode rt document.sourceUnitCode = normalizeSourceUnitCode rt document'.sourceUnitCode ∧
    document.readLayers.Perm document'.readLayers ∧ document.readStyles.Perm document'.readStyles ∧
    document.readEntities.length = document'.readEntities.length ∧
    (∃ texts texts', List.Forall₂ (Commits rt.band) document.readEntities texts ∧
      List.Forall₂ (Commits rt.band) document'.readEntities texts' ∧
      EntityRevisionAccumulator.ofTexts rt texts = .ofTexts rt texts' ∧
      (texts.Perm texts' → ReorderedList document.readEntities document'.readEntities)) ∧
    ∀ e e' es es', document.readEntities.Perm (e :: es) → document'.readEntities.Perm (e' :: es') →
      ReorderedList es es' → Reordered e e' := by
  obtain ⟨r⟩ := Call.reports hcall
  obtain ⟨r'⟩ := Call.reports hcall'
  have hlayers : ∀ layer ∈ sortBy (fun layer : InspectionLayer => ordinal layer.name) document.readLayers,
      layer.Plain := fun layer hl => hp.layers layer ((mem_sortBy _).mp hl)
  have hlayers' : ∀ layer ∈ sortBy (fun layer : InspectionLayer => ordinal layer.name) document'.readLayers,
      layer.Plain := fun layer hl => hp'.layers layer ((mem_sortBy _).mp hl)
  have hstyles : ∀ style ∈ sortBy InspectionStyle.key document.readStyles, style.name.WellFormed :=
    fun style hs => hp.styles style ((mem_sortBy _).mp hs)
  have hstyles' : ∀ style ∈ sortBy InspectionStyle.key document'.readStyles, style.name.WellFormed :=
    fun style hs => hp'.styles style ((mem_sortBy _).mp hs)
  -- One revision is one digest, which is one text.
  have hdigest := hrevision
  rw [r.revision_eq, r'.revision_eq] at hdigest
  have hcanonical := eq_of_sha256 hsha (.inl r.hashed) (.inr r'.hashed)
    (wellFormed_revisionCanonical hp.documentId (hp.sourceUnitCode _ r.unit_eq) hlayers hstyles)
    (wellFormed_revisionCanonical hp'.documentId (hp'.sourceUnitCode _ r'.unit_eq) hlayers' hstyles')
    (Digest.hex_injective (List.append_cancel_left hdigest))
  obtain ⟨hid, hunit, haccumulator, hlayersEq, hstylesEq⟩ := revisionCanonical_inj hlayers hlayers' hcanonical
  have hcount : r.texts.length = r'.texts.length := by
    have := congrArg EntityRevisionAccumulator.count haccumulator
    rwa [EntityRevisionAccumulator.count_ofTexts, EntityRevisionAccumulator.count_ofTexts] at this
  refine ⟨hid, by rw [r.unit_eq, r'.unit_eq, hunit], ?_, ?_, ?_, ⟨r.texts, r'.texts, r.commits, r'.commits,
    haccumulator, reorderedList_of_texts hp.entities hp'.entities r.commits r'.commits⟩, ?_⟩
  · exact perm_of_sortBy_eq hlayersEq
  · exact perm_of_sortBy_eq hstylesEq
  · rw [r.commits.length_eq, r'.commits.length_eq, hcount]
  · intro e e' es es' hperm hperm' hes
    obtain ⟨texts, htexts, htextsPerm⟩ := List.perm_comp_forall₂ hperm.symm r.commits
    obtain ⟨texts', htexts', htextsPerm'⟩ := List.perm_comp_forall₂ hperm'.symm r'.commits
    cases htexts with
    | @cons _ text _ rest htext hrest =>
        cases htexts' with
        | @cons _ text' _ rest' htext' hrest' =>
            have hrestPerm := hes.commits_perm hrest hrest'
            have hsum : EntityRevisionAccumulator.ofTexts rt (text :: rest) =
                EntityRevisionAccumulator.ofTexts rt (text' :: rest) := by
              rw [EntityRevisionAccumulator.ofTexts_perm htextsPerm, haccumulator,
                ← EntityRevisionAccumulator.ofTexts_perm htextsPerm',
                EntityRevisionAccumulator.ofTexts_perm (hrestPerm.symm.cons text')]
            have hdigests := EntityRevisionAccumulator.sha256_eq_of_ofTexts_cons hsum
            have hmem : e ∈ document.readEntities := hperm.mem_iff.mpr List.mem_cons_self
            have hmem' : e' ∈ document'.readEntities := hperm'.mem_iff.mpr List.mem_cons_self
            have hplain := hp.entities e hmem
            have hplain' := hp'.entities e' hmem'
            obtain rfl := eq_of_sha256 hsha (.inl (.inl ⟨e, hmem, htext⟩)) (.inr (.inl ⟨e', hmem', htext'⟩))
              (htext.wellFormed hplain) (htext'.wellFormed hplain') hdigests
            exact htext.reordered hplain hplain' htext'

/-! ## Entities with one sum of digests -/

/-- The canonical text of an entity with a handle of one digit. -/
def digitText (ref : StableEntityReference) : Text := appendEntity dotNetBand 0 (digitAttributes ref) emptyGeometry []

/-- A document of such entities. -/
def digits (refs : List StableEntityReference) : BoundInspectionDocument :=
  digitDocument (refs.map (fun ref => digitEntity ref none))

theorem commits_digitEntity_iff {ref : StableEntityReference} {text : Text} :
    Commits dotNetBand (digitEntity ref none) text ↔ text = digitText ref := by
  have hvalid : (digitEntity ref none).copyAndValidate 0 = .ok (digitEntity ref none) := rfl
  have htext : appendEntityCanonical dotNetBand 0 (digitEntity ref none) = .ok (digitText ref) :=
    appendEntityCanonical_eq_ok.mpr ⟨by decide, [], rfl, rfl⟩
  constructor
  · rintro ⟨entity, hentity, h⟩
    obtain rfl := Except.ok.inj (hvalid.symm.trans hentity)
    exact Except.ok.inj (h.symm.trans htext)
  · rintro rfl
    exact ⟨_, hvalid, htext⟩

theorem plain_digitEntity (ref : StableEntityReference) : (digitEntity ref none).All PlainEntity := by
  have hattributes : (digitAttributes ref).Plain :=
    ⟨(by decide : Text.WellFormed [76]), (by decide : Text.WellFormed [48]), nofun, nofun, nofun,
      (by decide : Text.WellFormed [77])⟩
  exact all_mk_iff.mpr ⟨⟨hattributes, nofun, nofun, nofun, nofun, nofun, nofun⟩, trivial⟩

theorem digitText_injective {ref ref' : StableEntityReference} (h : (digitText ref).utf8 = (digitText ref').utf8) :
    ref = ref' := by
  have hcommits := commits_digitEntity_iff.mpr (rfl : digitText ref = digitText ref)
  have hcommits' := commits_digitEntity_iff.mpr (rfl : digitText ref' = digitText ref')
  have htext := (hcommits.wellFormed (plain_digitEntity ref)).eq_of_utf8 (hcommits'.wellFormed (plain_digitEntity ref')) h
  have hreordered := hcommits.reordered (plain_digitEntity ref) (plain_digitEntity ref') (htext ▸ hcommits')
  exact StableEntityReference.ext hreordered.handle_eq

theorem forall₂_commits_digits_iff {refs : List StableEntityReference} {texts : List Text} :
    List.Forall₂ (Commits dotNetBand) (refs.map (fun ref => digitEntity ref none)) texts ↔
      texts = refs.map digitText := by
  rw [List.forall₂_map_left_iff]
  simp only [commits_digitEntity_iff]
  induction refs generalizing texts with
  | nil => exact List.forall₂_nil_left_iff
  | cons ref refs ih =>
      rw [List.forall₂_cons_left_iff, List.map_cons]
      simp only [ih]
      exact ⟨fun ⟨_, _, ht, hts, h⟩ => by rw [h, ht, hts], fun h => ⟨_, _, rfl, rfl, h⟩⟩

/-- The text that is hashed for a document of such entities. -/
def digitsText (accumulator : EntityRevisionAccumulator) : Text :=
  revisionCanonical dotNetBand [68] [109] accumulator [⟨[48], false, false, false, none, none⟩] []

variable {sha256 : List UInt8 → Digest} {refs refs' : List StableEntityReference}

theorem unit_digits {unit : Text} (h : normalizeSourceUnitCode ⟨sha256, dotNetBand, id⟩ [109] = .ok unit) :
    unit = [109] :=
  (Except.ok.inj h).symm

theorem hashed_digits {text : Text} (h : text ∈ Hashed ⟨sha256, dotNetBand, id⟩ (digits refs)) :
    text ∈ refs.map digitText ∨ text = digitsText (.ofTexts ⟨sha256, dotNetBand, id⟩ (refs.map digitText)) := by
  rcases h with ⟨source, hsource, hcommits⟩ | ⟨unit, texts, hunit, htexts, rfl⟩
  · obtain ⟨ref, href, rfl⟩ := List.mem_map.mp hsource
    exact .inl (List.mem_map.mpr ⟨ref, href, (commits_digitEntity_iff.mp hcommits).symm⟩)
  · obtain rfl := forall₂_commits_digits_iff.mp htexts
    obtain rfl := unit_digits hunit
    exact .inr rfl

theorem revision_digits {call : Call} {snapshot : DocumentInspectionSnapshot}
    (h : call.run ⟨sha256, dotNetBand, id⟩ (digits refs) = .ok snapshot) :
    snapshot.revision = .ofString "sha256:" ++
      (sha256 (digitsText (.ofTexts ⟨sha256, dotNetBand, id⟩ (refs.map digitText))).utf8).hex := by
  obtain ⟨unit, texts, hunit, hcommits, -, -, hrevision⟩ := Call.reports h
  obtain rfl := forall₂_commits_digits_iff.mp hcommits
  obtain rfl := unit_digits hunit
  exact hrevision

theorem revision_digits_of_sum {call call' : Call} {snapshot snapshot' : DocumentInspectionSnapshot}
    (h : call.run ⟨sha256, dotNetBand, id⟩ (digits refs) = .ok snapshot)
    (h' : call'.run ⟨sha256, dotNetBand, id⟩ (digits refs') = .ok snapshot')
    (hsum : EntityRevisionAccumulator.ofTexts ⟨sha256, dotNetBand, id⟩ (refs.map digitText) =
      .ofTexts ⟨sha256, dotNetBand, id⟩ (refs'.map digitText)) : snapshot.revision = snapshot'.revision := by
  rw [revision_digits h, revision_digits h', hsum]

/-- A digest that numbers the texts of the four entities. -/
def weigh (bytes : List UInt8) : Digest := fun _ =>
  if bytes = (digitText refOne).utf8 then 1
  else if bytes = (digitText refTwo).utf8 then 2
  else if bytes = (digitText refThree).utf8 then 3
  else if bytes = (digitText refFour).utf8 then 4
  else 0

def weighingRuntime : Runtime := ⟨weigh, dotNetBand, id⟩

theorem digitText_ne {ref ref' : StableEntityReference} (h : ref ≠ ref') :
    (digitText ref).utf8 ≠ (digitText ref').utf8 :=
  fun heq => h (digitText_injective heq)

@[simp] theorem weigh_one : weigh (digitText refOne).utf8 = fun _ => 1 := by
  funext index
  rw [weigh, if_pos rfl]

@[simp] theorem weigh_two : weigh (digitText refTwo).utf8 = fun _ => 2 := by
  have h : (digitText refTwo).utf8 ≠ (digitText refOne).utf8 := digitText_ne (by decide)
  funext index
  rw [weigh, if_neg h, if_pos rfl]

@[simp] theorem weigh_three : weigh (digitText refThree).utf8 = fun _ => 3 := by
  have h : (digitText refThree).utf8 ≠ (digitText refOne).utf8 := digitText_ne (by decide)
  have h' : (digitText refThree).utf8 ≠ (digitText refTwo).utf8 := digitText_ne (by decide)
  funext index
  rw [weigh, if_neg h, if_neg h', if_pos rfl]

@[simp] theorem weigh_four : weigh (digitText refFour).utf8 = fun _ => 4 := by
  have h : (digitText refFour).utf8 ≠ (digitText refOne).utf8 := digitText_ne (by decide)
  have h' : (digitText refFour).utf8 ≠ (digitText refTwo).utf8 := digitText_ne (by decide)
  have h'' : (digitText refFour).utf8 ≠ (digitText refThree).utf8 := digitText_ne (by decide)
  funext index
  rw [weigh, if_neg h, if_neg h', if_neg h'', if_pos rfl]

/-- The digest is injective on the four texts and any other. -/
theorem weigh_injOn {other : List UInt8} {s : Set (List UInt8)}
    (hs : ∀ bytes ∈ s, (∃ ref ∈ [refOne, refTwo, refThree, refFour], bytes = (digitText ref).utf8) ∨ bytes = other) :
    Set.InjOn weigh s := by
  intro bytes hbytes bytes' hbytes' h
  have h := congrFun h 0
  have hb := hs bytes hbytes
  have hb' := hs bytes' hbytes'
  simp only [List.mem_cons, List.not_mem_nil, or_false, exists_eq_or_imp, exists_eq_left] at hb hb'
  unfold weigh at h
  split_ifs at h <;> simp_all

theorem hashed_weighing {refs refs' : List StableEntityReference} (hrefs : ∀ ref ∈ refs ++ refs',
      ref ∈ [refOne, refTwo, refThree, refFour])
    (hsum : EntityRevisionAccumulator.ofTexts weighingRuntime (refs.map digitText) =
      .ofTexts weighingRuntime (refs'.map digitText)) :
    Set.InjOn weigh (Text.utf8 '' (Hashed weighingRuntime (digits refs) ∪ Hashed weighingRuntime (digits refs'))) := by
  apply @weigh_injOn (digitsText (.ofTexts weighingRuntime (refs.map digitText))).utf8
  rintro _ ⟨text, h | h, rfl⟩
  · rcases hashed_digits h with h | rfl
    · obtain ⟨ref, href, rfl⟩ := List.mem_map.mp h
      exact .inl ⟨ref, hrefs ref (List.mem_append_left _ href), rfl⟩
    · exact .inr rfl
  · rcases hashed_digits h with h | rfl
    · obtain ⟨ref, href, rfl⟩ := List.mem_map.mp h
      exact .inl ⟨ref, hrefs ref (List.mem_append_right _ href), rfl⟩
    · exact .inr (by rw [hsum]; rfl)

/-- The entities 1 and 4 have the sum of the entities 2 and 3. -/
theorem sums_equal : EntityRevisionAccumulator.ofTexts weighingRuntime ([refOne, refFour].map digitText) =
    .ofTexts weighingRuntime ([refTwo, refThree].map digitText) := by
  apply EntityRevisionAccumulator.ext
  · funext index
    simp only [EntityRevisionAccumulator.ofTexts, List.map_cons, List.map_nil, List.foldl_cons, List.foldl_nil,
      EntityRevisionAccumulator.addText, EntityRevisionAccumulator.new, weighingRuntime, weigh_one, weigh_two,
      weigh_three, weigh_four]
    rfl
  · rw [EntityRevisionAccumulator.count_ofTexts, EntityRevisionAccumulator.count_ofTexts, List.length_map,
      List.length_map]
    rfl

theorem whole_digits : ∀ refs ∈ [[refOne, refFour], [refFour, refOne], [refTwo, refThree]],
    (Call.whole.run weighingRuntime (digits refs)).toBool = true := by
  decide +kernel

/-- Two different documents have one revision, because the sums of their digests are equal. -/
theorem revision_not_injective :
    ¬ ∀ (rt : Runtime) (document document' : BoundInspectionDocument) (call call' : Call)
      (snapshot snapshot' : DocumentInspectionSnapshot),
      Set.InjOn rt.sha256 (Text.utf8 '' (Hashed rt document ∪ Hashed rt document')) →
      call.run rt document = .ok snapshot → call'.run rt document' = .ok snapshot' →
      snapshot.revision = snapshot'.revision → document.Reordered document' := by
  intro hclaim
  obtain ⟨snapshot, hcall⟩ := exists_of_toBool (whole_digits [refOne, refFour] (by simp))
  obtain ⟨snapshot', hcall'⟩ := exists_of_toBool (whole_digits [refTwo, refThree] (by simp))
  have hrevision : snapshot.revision = snapshot'.revision := by
    rw [revision_digits_of_sum hcall hcall' sums_equal]
  have hreordered := hclaim _ _ _ _ _ _ _ (hashed_weighing (by simp) sums_equal) hcall hcall' hrevision
  have hhandles := hreordered.entities.handles
  exact absurd hhandles (by decide)

theorem plain_digits {rt : Runtime} (hrt : rt.toLowerInvariant = id) (refs : List StableEntityReference) :
    (digits refs).Plain rt where
  documentId := by
    show Text.WellFormed [68]
    decide
  sourceUnitCode unit hunit := by
    have h : unit = rt.toLowerInvariant [109] := (Except.ok.inj hunit).symm
    rw [h, hrt]
    show Text.WellFormed [109]
    decide
  entities e he := by
    obtain ⟨ref, -, rfl⟩ := List.mem_map.mp he
    exact plain_digitEntity ref
  layers layer hl := by
    obtain rfl := List.mem_singleton.mp hl
    exact ⟨(by decide : Text.WellFormed [48]), nofun⟩
  styles _ hs := absurd hs List.not_mem_nil

theorem same_revision_same_document_example :
    ∃ snapshot snapshot', Call.whole.run weighingRuntime (digits [refOne, refFour]) = .ok snapshot ∧
      Call.whole.run weighingRuntime (digits [refFour, refOne]) = .ok snapshot' ∧
      snapshot.revision = snapshot'.revision ∧
      (digits [refOne, refFour]).readLayers.Perm (digits [refFour, refOne]).readLayers := by
  obtain ⟨snapshot, hcall⟩ := exists_of_toBool (whole_digits [refOne, refFour] (by simp))
  obtain ⟨snapshot', hcall'⟩ := exists_of_toBool (whole_digits [refFour, refOne] (by simp))
  have hsum : EntityRevisionAccumulator.ofTexts weighingRuntime ([refOne, refFour].map digitText) =
      .ofTexts weighingRuntime ([refFour, refOne].map digitText) :=
    EntityRevisionAccumulator.ofTexts_perm (.swap _ _ _)
  have hrevision : snapshot.revision = snapshot'.revision := by
    rw [revision_digits_of_sum hcall hcall' hsum]
  have hsame := same_revision_same_document (plain_digits rfl _) (plain_digits rfl _)
    (hashed_weighing (by simp) hsum) hcall hcall' hrevision
  exact ⟨snapshot, snapshot', hcall, hcall', hrevision, hsame.2.2.1⟩

end CadHarness.Inspection
