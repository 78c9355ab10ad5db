import CadHarness.Inspection.Lemmas.Accumulator
import CadHarness.Inspection.Lemmas.ValueText

/-!
# The canonical text of an entity

Each part of the text can be read off, whatever follows it, as long as no nullable string is "<null>".
-/

namespace CadHarness.Inspection
open CadHarness.Lib CadHarness.Lib.Fallible CadHarness.Canonical

variable {band : Band} {r r' : Text}

/-! ## Texts that hold whole characters -/

/-- Strings of whole characters, none of them "<null>" where null may stand. -/
structure InspectionAttributes.Plain (attributes : InspectionAttributes) : Prop where
  entityType : attributes.entityType.WellFormed
  layer : attributes.layer.WellFormed
  style : Readable attributes.style
  linetype : Readable attributes.linetype
  content : Readable attributes.content
  space : attributes.space.WellFormed

structure InspectionGeometry.Plain (geometry : InspectionGeometry) : Prop where
  textStyle : Readable geometry.textStyle
  dimensionType : Readable geometry.dimensionType
  dimensionStyle : Readable geometry.dimensionStyle
  textOverride : Readable geometry.textOverride
  patternName : Readable geometry.patternName
  blockName : Readable geometry.blockName

def PlainEntity (attributes : InspectionAttributes) (geometry : InspectionGeometry)
    (_ : List InspectionEntity) : Prop :=
  attributes.Plain ∧ geometry.Plain

structure InspectionLayer.Plain (layer : InspectionLayer) : Prop where
  name : layer.name.WellFormed
  linetype : Readable layer.linetype

/-! ## Parts of the text -/

theorem append_append_inj {vs vs' : List Value} (h : append band vs ++ r = append band vs' ++ r')
    (hlength : vs.length = vs'.length) :
    vs.map (Value.text band) = vs'.map (Value.text band) ∧ r = r' :=
  Text.frames_append_inj (by rw [List.length_map, List.length_map, hlength]) h

theorem append_cons_append_inj {v v' : Value} {vs vs' : List Value}
    (h : append band (v :: vs) ++ r = append band (v' :: vs') ++ r') :
    v.text band = v'.text band ∧ append band vs ++ r = append band vs' ++ r' := by
  simp only [append, List.map_cons, Text.frames_cons, List.append_assoc] at h
  exact Text.frame_append_inj h

theorem appendEach_append_inj {α : Type} {label : String} {values : α → List Value} {l l' : List α}
    (h : appendEach band label values l ++ r = appendEach band label values l' ++ r') (hlength : l.length = l'.length)
    (hlengths : ∀ a a', (values a).length = (values a').length)
    (hinj : ∀ a ∈ l, ∀ a' ∈ l', (values a).map (Value.text band) = (values a').map (Value.text band) → a = a') :
    l = l' ∧ r = r' := by
  have hread : ∀ a ∈ l, ∀ a' ∈ l', ∀ s s', append band (.label label :: values a) ++ s =
      append band (.label label :: values a') ++ s' → a = a' ∧ s = s' := by
    intro a ha a' ha' s s' hs
    obtain ⟨-, hs⟩ := append_cons_append_inj hs
    obtain ⟨hvalues, rfl⟩ := append_append_inj hs (hlengths a a')
    exact ⟨hinj a ha a' ha' hvalues, rfl⟩
  obtain ⟨hall, hr⟩ := Text.flatten_map_append_inj hread hlength h
  rw [List.forall₂_eq_eq_eq] at hall
  exact ⟨hall, hr⟩

theorem appendOptional_append_inj {α : Type} {label : String} {values : α → List Value} {o o' : Option α}
    (h : appendOptional band label values o ++ r = appendOptional band label values o' ++ r')
    (hlengths : ∀ a a', (values a).length = (values a').length)
    (hinj : ∀ a a', (values a).map (Value.text band) = (values a').map (Value.text band) → a = a')
    (hhead : ∀ a, ∃ x vs, values a = .double x :: vs) : o = o' ∧ r = r' := by
  have hnull : ∀ a vs s s', append band (.label label :: values a) ++ s ≠ append band (.label label :: .null :: vs) ++ s' := by
    intro a vs s s' heq
    obtain ⟨x, rest, ha⟩ := hhead a
    obtain ⟨-, heq⟩ := append_cons_append_inj heq
    rw [ha] at heq
    exact text_double_ne_null x (append_cons_append_inj heq).1
  cases o with
  | none =>
      cases o' with
      | none => exact ⟨rfl, (append_append_inj h rfl).2⟩
      | some a' => exact absurd h.symm (hnull a' [] r' r)
  | some a =>
      cases o' with
      | none => exact absurd h (hnull a [] r r')
      | some a' =>
          obtain ⟨-, h⟩ := append_cons_append_inj h
          obtain ⟨hvalues, rfl⟩ := append_append_inj h (hlengths a a')
          exact ⟨congrArg some (hinj a a' hvalues), rfl⟩

theorem InspectionPoint.values_inj {point point' : InspectionPoint}
    (h : point.values.map (Value.text band) = point'.values.map (Value.text band)) : point = point' := by
  cases point
  cases point'
  simpa [InspectionPoint.values] using h

theorem InspectionBounds.values_inj {bounds bounds' : InspectionBounds}
    (h : (bounds.minimum.values ++ bounds.maximum.values).map (Value.text band) =
      (bounds'.minimum.values ++ bounds'.maximum.values).map (Value.text band)) : bounds = bounds' := by
  rw [List.map_append, List.map_append] at h
  obtain ⟨hminimum, hmaximum⟩ := List.append_inj h (by simp [InspectionPoint.values])
  cases bounds
  cases bounds'
  rw [InspectionBounds.mk.injEq]
  exact ⟨InspectionPoint.values_inj hminimum, InspectionPoint.values_inj hmaximum⟩

theorem StableEntityReference.ext {reference reference' : StableEntityReference}
    (h : reference.handle = reference'.handle) : reference = reference' := by
  cases reference
  cases reference'
  simpa using h

theorem appendReferences_append_inj {label : String} {references references' : Option (List StableEntityReference)}
    (h : appendReferences band label references ++ r = appendReferences band label references' ++ r') :
    references.getD [] = references'.getD [] ∧ r = r' := by
  simp only [appendReferences, List.append_assoc] at h
  obtain ⟨hhead, h⟩ := append_append_inj h rfl
  simp only [List.map_cons, List.map_nil, List.cons.injEq, text_count_inj, true_and, and_true] at hhead
  refine appendEach_append_inj h hhead (fun _ _ => rfl) (fun a _ a' _ hvalues => ?_)
  simp only [List.map_cons, List.map_nil, List.cons.injEq, text_string, and_true] at hvalues
  exact StableEntityReference.ext hvalues

/-! ## Attributes and geometry -/

theorem appendAttributes_append_inj {depth : Nat} {attributes attributes' : InspectionAttributes}
    (hp : attributes.Plain) (hp' : attributes'.Plain)
    (h : appendAttributes band depth attributes ++ r = appendAttributes band depth attributes' ++ r') :
    { attributes with harnessMetadata := none } = { attributes' with harnessMetadata := none } ∧ r = r' := by
  obtain ⟨hvalues, rfl⟩ := append_append_inj h rfl
  simp only [List.map_cons, List.map_nil, List.cons.injEq, text_string, text_bool_inj, text_optional_int_inj,
    true_and, and_true] at hvalues
  obtain ⟨hhandle, htype, hlayer, hstyle, hcolor, hlinetype, hcontent, hvisible, hspace⟩ := hvalues
  rw [StableEntityReference.ext hhandle, htype, hlayer, text_optional_string_inj hp.style hp'.style hstyle, hcolor,
    text_optional_string_inj hp.linetype hp'.linetype hlinetype,
    text_optional_string_inj hp.content hp'.content hcontent, hvisible, hspace]
  exact ⟨rfl, rfl⟩

theorem appendGeometry_append_inj {geometry geometry' : InspectionGeometry} (hp : geometry.Plain)
    (hp' : geometry'.Plain) (h : appendGeometry band geometry ++ r = appendGeometry band geometry' ++ r') :
    geometry.withoutNull = geometry'.withoutNull ∧ r = r' := by
  simp only [appendGeometry, List.append_assoc] at h
  obtain ⟨hvalues, h⟩ := append_append_inj h rfl
  simp only [List.map_cons, List.map_nil, List.cons.injEq, text_geometryKind_inj, text_optional_double_inj,
    text_bool_inj, text_int_inj, text_count_inj, true_and, and_true] at hvalues
  obtain ⟨hkind, hradius, hstart, hend, hclosed, hmajor, hminor, hrotation, hheight, htextStyle, hdimensionType,
    hdimensionStyle, hmeasurement, htextOverride, hpatternName, harea, hblockName, hscaleX, hscaleY, hnonUniform,
    hdepth, hbeyond, hpoints⟩ := hvalues
  obtain ⟨hpoints, h⟩ := appendEach_append_inj h hpoints (fun _ _ => rfl)
    (fun _ _ _ _ => InspectionPoint.values_inj)
  obtain ⟨hcount, h⟩ := append_append_inj h rfl
  simp only [List.map_cons, List.map_nil, List.cons.injEq, text_count_inj, true_and, and_true] at hcount
  obtain ⟨hbulges, h⟩ := appendEach_append_inj h hcount (fun _ _ => rfl)
    (fun _ _ _ _ hbulge => by simpa using hbulge)
  obtain ⟨hinsertion, h⟩ := appendOptional_append_inj h (fun _ _ => rfl)
    (fun _ _ => InspectionPoint.values_inj) (fun _ => ⟨_, _, rfl⟩)
  obtain ⟨hmeasured, h⟩ := appendReferences_append_inj h
  obtain ⟨hboundary, h⟩ := appendReferences_append_inj h
  obtain ⟨hbounds, h⟩ := appendOptional_append_inj h (fun _ _ => rfl)
    (fun _ _ => InspectionBounds.values_inj) (fun _ => ⟨_, _, rfl⟩)
  refine ⟨?_, h⟩
  simp only [InspectionGeometry.withoutNull, InspectionGeometry.mk.injEq]
  exact ⟨hkind, hpoints, hbounds, hradius, hstart, hend, hclosed, congrArg some hbulges, hmajor, hminor, hrotation,
    hheight, text_optional_string_inj hp.textStyle hp'.textStyle htextStyle,
    text_optional_string_inj hp.dimensionType hp'.dimensionType hdimensionType,
    text_optional_string_inj hp.dimensionStyle hp'.dimensionStyle hdimensionStyle, hmeasurement,
    text_optional_string_inj hp.textOverride hp'.textOverride htextOverride, congrArg some hmeasured,
    text_optional_string_inj hp.patternName hp'.patternName hpatternName, harea, congrArg some hboundary,
    text_optional_string_inj hp.blockName hp'.blockName hblockName, hinsertion, hscaleX, hscaleY, hnonUniform,
    hdepth, hbeyond⟩

/-! ## Metadata -/

theorem MetadataIdentifier.ext {identifier identifier' : MetadataIdentifier}
    (h : identifier.text = identifier'.text) : identifier = identifier' := by
  cases identifier
  cases identifier'
  simpa using h

theorem MetadataIdentifier.ne_null (identifier : MetadataIdentifier) : identifier.text ≠ nullText := by
  intro h
  have hascii := identifier.ascii
  rw [h] at hascii
  exact absurd hascii (by decide)

theorem appendMetadata_append_inj {metadata metadata' : Option CadHarnessMetadata}
    (h : appendMetadata band metadata ++ r = appendMetadata band metadata' ++ r') : metadata = metadata' ∧ r = r' := by
  obtain ⟨hvalues, rfl⟩ := append_append_inj h rfl
  simp only [List.map_cons, List.map_nil, List.cons.injEq, true_and, and_true] at hvalues
  refine ⟨?_, rfl⟩
  cases metadata with
  | none =>
      cases metadata' with
      | none => rfl
      | some metadata' => exact absurd hvalues.1.symm metadata'.featureId.ne_null
  | some metadata =>
      cases metadata' with
      | none => exact absurd hvalues.1 metadata.featureId.ne_null
      | some metadata' =>
          cases metadata
          cases metadata'
          rw [Option.some.injEq, CadHarnessMetadata.mk.injEq]
          exact ⟨MetadataIdentifier.ext hvalues.1, MetadataIdentifier.ext hvalues.2⟩

/-! ## The tree of entities -/

theorem InspectionAttributes.eq_of_parts {attributes attributes' : InspectionAttributes}
    (h : { attributes with harnessMetadata := none } = { attributes' with harnessMetadata := none })
    (hmetadata : attributes.harnessMetadata = attributes'.harnessMetadata) : attributes = attributes' := by
  cases attributes
  cases attributes'
  simp_all

/-- Children are related when their texts, in one order, are. -/
theorem forall₂_of_texts {R : InspectionEntity → InspectionEntity → Prop} {S : InspectionEntity → Text × Text → Prop}
    {T : Text × Text → Text × Text → Prop} {es es' : List InspectionEntity} {parts parts' : List (Text × Text)}
    (h : List.Forall₂ S es parts) (h' : List.Forall₂ S es' parts') (hT : List.Forall₂ T parts parts')
    (hR : ∀ e ∈ es, ∀ e' ∈ es', ∀ part part', S e part → S e' part' → T part part' → R e e') :
    List.Forall₂ R es es' := by
  induction hT generalizing es es' with
  | nil =>
      cases h
      cases h'
      exact .nil
  | cons hpart _ ih =>
      cases h with
      | cons he hes =>
          cases h' with
          | cons he' hes' =>
              refine .cons (hR _ List.mem_cons_self _ List.mem_cons_self _ _ he he' hpart) (ih hes hes' ?_)
              exact fun e hmem e' hmem' => hR e (List.mem_cons_of_mem _ hmem) e' (List.mem_cons_of_mem _ hmem')

/-- Entities with one canonical text differ in order only. -/
theorem appendEntityCanonical_append_inj {e e' : InspectionEntity} (hp : e.All PlainEntity)
    (hp' : e'.All PlainEntity) {depth : Nat} {text text' : Text}
    (ht : appendEntityCanonical band depth e = .ok text) (ht' : appendEntityCanonical band depth e' = .ok text')
    (h : text ++ r = text' ++ r') : Reordered e e' ∧ r = r' := by
  induction e using InspectionEntity.induction generalizing e' depth text text' r r' with
  | h attributes geometry children ih =>
      obtain ⟨attributes', geometry', children'⟩ := e'
      rw [all_mk_iff, allOf_iff] at hp hp'
      obtain ⟨-, parts, hparts, rfl⟩ := appendEntityCanonical_eq_ok.mp ht
      obtain ⟨-, parts', hparts', rfl⟩ := appendEntityCanonical_eq_ok.mp ht'
      simp only [appendEntity, List.append_assoc] at h
      obtain ⟨hattributes, h⟩ := appendAttributes_append_inj hp.1.1 hp'.1.1 h
      obtain ⟨hgeometry, h⟩ := appendGeometry_append_inj hp.1.2 hp'.1.2 h
      obtain ⟨hmetadata, h⟩ := appendMetadata_append_inj h
      obtain ⟨hcount, hrest⟩ := append_append_inj h rfl
      simp only [List.map_cons, List.map_nil, List.cons.injEq, text_count_inj, true_and, and_true] at hcount
      obtain rfl := InspectionAttributes.eq_of_parts hattributes hmetadata
      -- The children are read off in the order of their handles.
      obtain ⟨sorted, hsorted, hall⟩ :=
        exists_forall₂_sortBy (fun part : Text × Text => ordinal part.1) (appendChildren_eq_ok.mp hparts)
      obtain ⟨sorted', hsorted', hall'⟩ :=
        exists_forall₂_sortBy (fun part : Text × Text => ordinal part.1) (appendChildren_eq_ok.mp hparts')
      have hchild : ∀ child ∈ sorted, ∀ child' ∈ sorted', ∀ t t' s s',
          appendEntityCanonical band (depth + 1) child = .ok t →
          appendEntityCanonical band (depth + 1) child' = .ok t' → t ++ s = t' ++ s' →
          Reordered child child' ∧ s = s' := by
        intro child hc child' hc' t t' s s' htext htext' hs
        have hmem := hsorted.mem_iff.mp hc
        exact ih child hmem (hp.2 child hmem) (hp'.2 child' (hsorted'.mem_iff.mp hc')) htext htext' hs
      obtain ⟨hread, hr⟩ := Text.flatten_map_append_inj (R := fun part part' => ∀ child ∈ sorted, ∀ child' ∈ sorted',
          appendEntityCanonical band (depth + 1) child = .ok part.2 →
          appendEntityCanonical band (depth + 1) child' = .ok part'.2 → Reordered child child')
        (fun part hpart part' hpart' s s' hs => by
          obtain ⟨child, hc, htext⟩ := mem_of_forall₂ hall hpart
          obtain ⟨child', hc', htext'⟩ := mem_of_forall₂ hall' hpart'
          refine ⟨fun _ h₁ _ h₂ ht₁ ht₂ => (hchild _ h₁ _ h₂ _ _ _ _ ht₁ ht₂ hs).1, ?_⟩
          exact (hchild child hc child' hc' _ _ _ _ htext.2 htext'.2 hs).2)
        (by rw [length_sortBy, length_sortBy, hcount]) hrest
      have hchildren : List.Forall₂ Reordered sorted sorted' :=
        forall₂_of_texts hall hall' hread
          (fun _ hc _ hc' _ _ hpart hpart' hrelated => hrelated _ hc _ hc' hpart.2 hpart'.2)
      exact ⟨.mk hgeometry (.trans (.of_perm hsorted.symm) (.trans (.of_forall₂ hchildren) (.of_perm hsorted'))), hr⟩

end CadHarness.Inspection
