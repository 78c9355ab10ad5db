import CadHarness.Inspection.Lemmas.CanonicalText

/-!
# The text of a revision

The canonical texts hold whole characters when the strings in them do, so that their bytes determine them.
The text that is hashed for the revision determines what it was made of.
-/

namespace CadHarness.Inspection
open CadHarness.Lib CadHarness.Lib.Fallible CadHarness.Canonical

variable {band : Band}

/-! ## Whole characters -/

theorem Text.wellFormed_of_all {p : UInt16 → Bool} {t : Text} (h : t.all p)
    (hp : ∀ u, p u = true → u.toNat < 0xD800) : t.WellFormed :=
  Text.wellFormed_of_lt (fun u hu => hp u (List.all_eq_true.mp h u hu))

theorem StableEntityReference.wellFormed (reference : StableEntityReference) : reference.handle.WellFormed := by
  apply Text.wellFormed_of_all reference.hex
  intro u hu
  simp only [isHexDigit, Bool.or_eq_true, Bool.and_eq_true, decide_eq_true_eq, UInt16.le_iff_toNat_le,
    UInt16.reduceToNat] at hu
  omega

theorem MetadataIdentifier.wellFormed (identifier : MetadataIdentifier) : identifier.text.WellFormed := by
  apply Text.wellFormed_of_all identifier.ascii
  intro u hu
  simp only [isIdentifierUnit, Bool.or_eq_true, Bool.and_eq_true, decide_eq_true_eq, UInt16.le_iff_toNat_le,
    UInt16.reduceToNat, ← UInt16.toNat_inj] at hu
  omega

/-- A value whose text holds whole characters. -/
def Value.Whole (band : Band) (v : Value) : Prop := (v.text band).WellFormed

@[simp] theorem whole_null : Value.null.Whole band := Text.wellFormed_ofString _

@[simp] theorem whole_double (x : RawDouble) : (Value.double x).Whole band := by
  rw [Value.Whole, RawDouble.text_double]
  exact Text.wellFormed_encode _

@[simp] theorem whole_int (i : Int) : (Value.int i).Whole band := Text.wellFormed_encode _

@[simp] theorem whole_bool (b : Bool) : (Value.bool b).Whole band := Text.wellFormed_ofString _

@[simp] theorem whole_label (s : String) : (Value.label s).Whole band := Text.wellFormed_ofString _

@[simp] theorem whole_count {α : Type} (l : List α) : (Value.count l).Whole band := whole_int _

@[simp] theorem whole_geometryKind (kind : InspectionGeometryKind) : (Value.geometryKind kind).Whole band :=
  whole_label _

@[simp] theorem whole_styleKind (kind : InspectionStyleKind) : (Value.styleKind kind).Whole band := whole_label _

theorem whole_string {t : Text} (h : t.WellFormed) : (Value.string t).Whole band := h

theorem whole_optional {α : Type} {f : α → Value} {o : Option α} (h : ∀ a ∈ o, (f a).Whole band) :
    (Value.optional f o).Whole band := by
  cases o with
  | none => exact whole_null
  | some a => exact h a rfl

@[simp] theorem whole_optional_double (o : Option RawDouble) : (Value.optional .double o).Whole band :=
  whole_optional (fun _ _ => whole_double _)

@[simp] theorem whole_optional_int (o : Option Int) : (Value.optional .int o).Whole band :=
  whole_optional (fun _ _ => whole_int _)

theorem whole_optional_string {o : Option Text} (h : Readable o) : (Value.optional .string o).Whole band :=
  whole_optional (f := .string) (fun t ht => (h t ht).1)

theorem wellFormed_append {vs : List Value} (h : ∀ v ∈ vs, v.Whole band) : (append band vs).WellFormed := by
  apply Text.WellFormed.frames
  intro t ht
  obtain ⟨v, hv, rfl⟩ := List.mem_map.mp ht
  exact h v hv

theorem wellFormed_appendEach {α : Type} {label : String} {values : α → List Value} {l : List α}
    (h : ∀ a ∈ l, ∀ v ∈ values a, v.Whole band) : (appendEach band label values l).WellFormed := by
  apply Text.WellFormed.flatten
  intro t ht
  obtain ⟨a, ha, rfl⟩ := List.mem_map.mp ht
  exact wellFormed_append (List.forall_mem_cons.mpr ⟨whole_label _, h a ha⟩)

theorem wellFormed_appendOptional {α : Type} {label : String} {values : α → List Value} {o : Option α}
    (h : ∀ a ∈ o, ∀ v ∈ values a, v.Whole band) : (appendOptional band label values o).WellFormed := by
  cases o with
  | none => exact wellFormed_append (by simp)
  | some a => exact wellFormed_append (List.forall_mem_cons.mpr ⟨whole_label _, h a rfl⟩)

theorem InspectionPoint.whole_values (point : InspectionPoint) : ∀ v ∈ point.values, v.Whole band := by
  simp [InspectionPoint.values]

theorem wellFormed_appendReferences (label : String) (references : Option (List StableEntityReference)) :
    (appendReferences band label references).WellFormed := by
  apply Text.WellFormed.append
  · exact wellFormed_append (by simp)
  · apply wellFormed_appendEach
    intro reference _
    simpa using whole_string reference.wellFormed

theorem wellFormed_appendAttributes {depth : Nat} {attributes : InspectionAttributes} (h : attributes.Plain) :
    (appendAttributes band depth attributes).WellFormed := by
  apply wellFormed_append
  simp [whole_string attributes.entityRef.wellFormed, whole_string h.entityType, whole_string h.layer,
    whole_optional_string h.style, whole_optional_string h.linetype, whole_optional_string h.content,
    whole_string h.space]

theorem wellFormed_appendGeometry {geometry : InspectionGeometry} (h : geometry.Plain) :
    (appendGeometry band geometry).WellFormed := by
  have hpoint : ∀ point : InspectionPoint, ∀ v ∈ point.values, v.Whole band := InspectionPoint.whole_values
  have hbulges : (appendEach band "bulge" (fun bulge => [.double bulge]) (geometry.bulges.getD [])).WellFormed :=
    wellFormed_appendEach (by simp)
  refine ((((((Text.WellFormed.append ?_ ?_).append ?_).append hbulges).append ?_).append
    (wellFormed_appendReferences _ _)).append (wellFormed_appendReferences _ _)).append ?_
  · apply wellFormed_append
    simp [whole_optional_string h.textStyle, whole_optional_string h.dimensionType,
      whole_optional_string h.dimensionStyle, whole_optional_string h.textOverride,
      whole_optional_string h.patternName, whole_optional_string h.blockName]
  · exact wellFormed_appendEach (fun point _ => hpoint point)
  · exact wellFormed_append (by simp)
  · exact wellFormed_appendOptional (fun point _ => hpoint point)
  · apply wellFormed_appendOptional
    intro bounds _ v hv
    rcases List.mem_append.mp hv with hv | hv
    · exact hpoint _ v hv
    · exact hpoint _ v hv

theorem wellFormed_appendMetadata (metadata : Option CadHarnessMetadata) :
    (appendMetadata band metadata).WellFormed := by
  apply wellFormed_append
  have hfeature : (Value.optional (fun m : CadHarnessMetadata => .string m.featureId.text) metadata).Whole band :=
    whole_optional (fun m _ => whole_string m.featureId.wellFormed)
  have hoperation : (Value.optional (fun m : CadHarnessMetadata => .string m.operationId.text) metadata).Whole band :=
    whole_optional (fun m _ => whole_string m.operationId.wellFormed)
  simp [hfeature, hoperation]

/-- The canonical text of an entity of whole strings holds whole characters. -/
theorem wellFormed_appendEntityCanonical {e : InspectionEntity} (hp : e.All PlainEntity) {depth : Nat} {text : Text}
    (h : appendEntityCanonical band depth e = .ok text) : text.WellFormed := by
  induction e using InspectionEntity.induction generalizing depth text with
  | h attributes geometry children ih =>
      rw [all_mk_iff, allOf_iff] at hp
      obtain ⟨-, parts, hparts, rfl⟩ := appendEntityCanonical_eq_ok.mp h
      have hchildren : ∀ t ∈ (sortBy (fun part : Text × Text => ordinal part.1) parts).map Prod.snd, t.WellFormed := by
        intro t ht
        obtain ⟨part, hpart, rfl⟩ := List.mem_map.mp ht
        obtain ⟨child, hchild, -, htext⟩ :=
          mem_of_forall₂ (appendChildren_eq_ok.mp hparts) ((mem_sortBy _).mp hpart)
        exact ih child hchild (hp.2 child hchild) htext
      exact ((((wellFormed_appendAttributes hp.1.1).append (wellFormed_appendGeometry hp.1.2)).append
        (wellFormed_appendMetadata _)).append (wellFormed_append (by simp))).append (Text.WellFormed.flatten hchildren)

/-! ## The revision -/

theorem Digest.hex_injective : Function.Injective Digest.hex := by
  intro digest digest' h
  have hflat := encode_injective h
  have hsize : (16 : Nat) ^ 16 = 2 ^ 64 := by norm_num
  have hwords : (List.finRange 4).map (fun i => Hex.digits 16 (digest i).toNat) =
      (List.finRange 4).map (fun i => Hex.digits 16 (digest' i).toNat) := by
    apply List.eq_iff_flatten_eq.mpr
    refine ⟨hflat, ?_⟩
    simp [Function.comp_def]
  funext i
  have hi := List.map_inj_left.mp hwords i (List.mem_finRange i)
  exact UInt64.toNat_inj.mp (Hex.digits_inj (hsize ▸ (digest i).toNat_lt) (hsize ▸ (digest' i).toNat_lt) hi)

theorem InspectionLayer.values_inj {layer layer' : InspectionLayer} (hp : layer.Plain) (hp' : layer'.Plain)
    (h : layer.values.map (Value.text band) = layer'.values.map (Value.text band)) : layer = layer' := by
  simp only [InspectionLayer.values, List.map_cons, List.map_nil, List.cons.injEq, text_string, text_bool_inj,
    text_optional_int_inj, and_true] at h
  obtain ⟨hname, hoff, hfrozen, hlocked, hcolor, hlinetype⟩ := h
  have hlinetype := text_optional_string_inj hp.linetype hp'.linetype hlinetype
  cases layer
  cases layer'
  simp_all

theorem InspectionStyle.values_inj {style style' : InspectionStyle}
    (h : style.values.map (Value.text band) = style'.values.map (Value.text band)) : style = style' := by
  cases style
  cases style'
  simpa [InspectionStyle.values] using h

variable {documentId documentId' unit unit' : Text} {accumulator accumulator' : EntityRevisionAccumulator}
  {layers layers' : List InspectionLayer} {styles styles' : List InspectionStyle}

/-- The hashed text determines what it was made of. -/
theorem revisionCanonical_inj (hlayers : ∀ layer ∈ layers, layer.Plain) (hlayers' : ∀ layer ∈ layers', layer.Plain)
    (h : revisionCanonical band documentId unit accumulator layers styles =
      revisionCanonical band documentId' unit' accumulator' layers' styles') :
    documentId = documentId' ∧ unit = unit' ∧ accumulator = accumulator' ∧ layers = layers' ∧ styles = styles' := by
  rw [← List.append_nil (revisionCanonical band documentId unit accumulator layers styles),
    ← List.append_nil (revisionCanonical band documentId' unit' accumulator' layers' styles')] at h
  simp only [revisionCanonical, List.append_assoc] at h
  obtain ⟨hhead, h⟩ := append_append_inj h rfl
  simp only [List.map_cons, List.map_nil, List.cons.injEq, text_string, text_count_inj, true_and, and_true] at hhead
  obtain ⟨hlayersEq, h⟩ := appendEach_append_inj h hhead.2.2 (fun _ _ => rfl)
    (fun layer hl layer' hl' => InspectionLayer.values_inj (hlayers layer hl) (hlayers' layer' hl'))
  obtain ⟨hcount, h⟩ := append_append_inj h rfl
  simp only [List.map_cons, List.map_nil, List.cons.injEq, text_count_inj, true_and, and_true] at hcount
  obtain ⟨hstylesEq, h⟩ := appendEach_append_inj h hcount (fun _ _ => rfl)
    (fun _ _ _ _ => InspectionStyle.values_inj)
  obtain ⟨hentities, -⟩ := append_append_inj h (by simp only [List.length_cons])
  simp only [List.map_cons, List.map_nil, List.cons.injEq, text_string, text_int_inj, Int.natCast_inj, true_and,
    and_true] at hentities
  exact ⟨hhead.1, hhead.2.1, EntityRevisionAccumulator.ext (Digest.hex_injective hentities.2) hentities.1,
    hlayersEq, hstylesEq⟩

theorem wellFormed_revisionCanonical (hid : documentId.WellFormed) (hunit : unit.WellFormed)
    (hlayers : ∀ layer ∈ layers, layer.Plain) (hstyles : ∀ style ∈ styles, style.name.WellFormed) :
    (revisionCanonical band documentId unit accumulator layers styles).WellFormed := by
  refine (((Text.WellFormed.append ?_ ?_).append ?_).append ?_).append ?_
  · apply wellFormed_append
    simp [whole_string hid, whole_string hunit]
  · apply wellFormed_appendEach
    intro layer hl
    simp [InspectionLayer.values, whole_string (hlayers layer hl).name, whole_optional_string (hlayers layer hl).linetype]
  · exact wellFormed_append (by simp)
  · apply wellFormed_appendEach
    intro style hs
    simp [InspectionStyle.values, whole_string (hstyles style hs)]
  · apply wellFormed_append
    have hhex : (Value.string accumulator.words.hex).Whole band := whole_string (Text.wellFormed_encode _)
    simp [hhex]

end CadHarness.Inspection
