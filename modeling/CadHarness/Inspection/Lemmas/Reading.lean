import CadHarness.Inspection.Lemmas.ValueText

/-!
# What an inspection has read

A validated entity is the entity that the host supplied, in another order; layers and styles come out as they
were. Both inspections add up the same digests.
-/

namespace CadHarness.Inspection
open CadHarness.Lib CadHarness.Lib.Fallible

/-! ## Validated values -/

theorem copyAndValidateEntities_eq_ok {depth : Nat} {sources entities : List InspectionEntity} :
    copyAndValidateEntities depth sources = .ok entities ↔
      List.Forall₂ (fun source entity => source.copyAndValidate depth = .ok entity) sources entities := by
  induction sources generalizing entities with
  | nil => rw [copyAndValidateEntities, pure_eq_ok, List.forall₂_nil_left_iff, eq_comm]
  | cons source sources ih =>
      simp only [copyAndValidateEntities, bind_eq_ok, pure_eq_ok, List.forall₂_cons_left_iff, ih]
      constructor
      · rintro ⟨entity, hentity, rest, hrest, rfl⟩
        exact ⟨entity, rest, hentity, hrest, rfl⟩
      · rintro ⟨entity, rest, hentity, hrest, rfl⟩
        exact ⟨entity, hentity, rest, hrest, rfl⟩

theorem copyAndValidateChildEntities_eq_ok {depth : Nat} {sources entities : Option (List InspectionEntity)}
    (h : copyAndValidateChildEntities depth sources = .ok entities) :
    ∃ children, copyAndValidateEntities depth (sources.getD []) = .ok children ∧
      (children.map (·.handle)).Nodup ∧ children.Perm (entities.getD []) := by
  cases sources with
  | none =>
      obtain rfl := pure_eq_ok.mp h
      exact ⟨[], rfl, List.nodup_nil, List.Perm.refl _⟩
  | some sources =>
      obtain ⟨children, hchildren, hrest⟩ := bind_eq_ok.mp h
      by_cases hnodup : (children.map (·.handle)).Nodup
      · simp only [hnodup, not_true_eq_false, if_false] at hrest
        obtain rfl := pure_eq_ok.mp hrest
        exact ⟨children, hchildren, hnodup, (sortBy_perm _ _).symm⟩
      · simp only [hnodup, not_false_eq_true, if_true] at hrest
        exact absurd hrest (by simp)

theorem copyAndValidate_eq_ok {depth : Nat} {attributes : InspectionAttributes} {geometry : InspectionGeometry}
    {children : Option (List InspectionEntity)} {entity : InspectionEntity}
    (h : (InspectionEntity.mk attributes geometry children).copyAndValidate depth = .ok entity) :
    ∃ children', copyAndValidateChildEntities (depth + 1) children = .ok children' ∧
      entity = .mk attributes geometry children' := by
  simp only [InspectionEntity.copyAndValidate, guard_eq_ok, bind_eq_ok, pure_eq_ok] at h
  obtain ⟨_, _, _, _, _, children', hchildren, _, _, rfl⟩ := h
  exact ⟨children', hchildren, rfl⟩

/-- A validated entity is a reordering of its source. -/
theorem reordered_of_copyAndValidate {depth : Nat} {source entity : InspectionEntity}
    (h : source.copyAndValidate depth = .ok entity) : Reordered source entity ∧ entity.All DistinctHandles := by
  induction source using InspectionEntity.induction generalizing depth entity with
  | h attributes geometry children ih =>
      obtain ⟨children', hchildren', rfl⟩ := copyAndValidate_eq_ok h
      obtain ⟨read, hread, hnodup, hperm⟩ := copyAndValidateChildEntities_eq_ok hchildren'
      have hall : List.Forall₂ (fun e v => Reordered e v ∧ v.All DistinctHandles) (children.getD []) read :=
        List.forall₂_iff_zip.mpr ⟨(copyAndValidateEntities_eq_ok.mp hread).length_eq, fun {a b} hab =>
          ih a (List.of_mem_zip hab).1 ((List.forall₂_zip (copyAndValidateEntities_eq_ok.mp hread)) hab)⟩
      have hdistinct : AllOf DistinctHandles read := by
        rw [allOf_iff]
        exact forall_of_forall₂ hall (fun _ _ h => h.2)
      have hsorted := ReorderedList.of_perm hperm
      constructor
      · exact .mk rfl (.trans (.of_forall₂ (hall.imp (fun _ _ h => h.1))) hsorted)
      · rw [all_mk_iff]
        exact ⟨(hperm.map _).nodup_iff.mp hnodup, hsorted.distinct hdistinct⟩

/-- Layers and styles come out as they were, with distinct keys. -/
theorem readDistinct_eq_ok {α κ : Type} [DecidableEq κ] {validate : α → Except Exception α} {key : α → κ}
    {duplicate : Exception} (hvalidate : ∀ a b, validate a = .ok b → b = a) {read sources values : List α}
    (h : readDistinct validate key duplicate read sources = .ok values) (hread : (read.map key).Nodup) :
    values = read ++ sources ∧ (values.map key).Nodup := by
  induction sources generalizing read with
  | nil =>
      obtain rfl := pure_eq_ok.mp h
      exact ⟨(List.append_nil _).symm, hread⟩
  | cons source sources ih =>
      simp only [readDistinct, bind_eq_ok, guard_eq_ok] at h
      obtain ⟨value, hvalue, hnew, hrest⟩ := h
      obtain rfl := hvalidate _ _ hvalue
      have hnodup : ((read ++ [value]).map key).Nodup := by
        rw [List.map_append, List.map_singleton, List.nodup_append]
        exact ⟨hread, List.nodup_singleton _, fun k hk l hl heq => hnew (List.mem_singleton.mp hl ▸ heq ▸ hk)⟩
      obtain ⟨rfl, hvalues⟩ := ih hrest hnodup
      exact ⟨List.append_assoc _ _ _, hvalues⟩

theorem InspectionLayer.eq_of_copyAndValidate {source layer : InspectionLayer}
    (h : source.copyAndValidate = .ok layer) : layer = source := by
  simp only [InspectionLayer.copyAndValidate, bind_eq_ok, pure_eq_ok] at h
  obtain ⟨_, _, _, _, rfl⟩ := h
  rfl

theorem InspectionStyle.eq_of_copyAndValidate {source style : InspectionStyle}
    (h : source.copyAndValidate = .ok style) : style = source := by
  simp only [InspectionStyle.copyAndValidate, bind_eq_ok, pure_eq_ok] at h
  obtain ⟨_, _, _, _, rfl⟩ := h
  rfl

theorem readAndOrderLayers_eq_ok {document : BoundInspectionDocument} {layers : List InspectionLayer}
    (h : readAndOrderLayers document = .ok layers) :
    layers = sortBy (fun layer => ordinal layer.name) document.readLayers ∧
      (document.readLayers.map (·.name)).Nodup := by
  simp only [readAndOrderLayers, bind_eq_ok, pure_eq_ok] at h
  obtain ⟨read, hread, rfl⟩ := h
  obtain ⟨rfl, hnodup⟩ := readDistinct_eq_ok (fun _ _ => InspectionLayer.eq_of_copyAndValidate) hread
    List.nodup_nil
  exact ⟨rfl, hnodup⟩

theorem readAndOrderStyles_eq_ok {document : BoundInspectionDocument} {styles : List InspectionStyle}
    (h : readAndOrderStyles document = .ok styles) :
    styles = sortBy InspectionStyle.key document.readStyles ∧
      (document.readStyles.map (fun style => (style.kind, style.name))).Nodup := by
  simp only [readAndOrderStyles, bind_eq_ok, pure_eq_ok] at h
  obtain ⟨read, hread, rfl⟩ := h
  obtain ⟨rfl, hnodup⟩ := readDistinct_eq_ok (fun _ _ => InspectionStyle.eq_of_copyAndValidate) hread
    List.nodup_nil
  exact ⟨rfl, hnodup⟩

/-! ## Canonical text -/

theorem ordinal_injective : Function.Injective ordinal :=
  List.map_injective_iff.mpr (fun _ _ h => UInt16.toNat_inj.mp h)

variable (band : Canonical.Band)

theorem appendChildEntities_eq (depth : Nat) (children : Option (List InspectionEntity)) :
    appendChildEntities band depth children = appendChildren band depth (children.getD []) := by
  cases children with
  | none => rw [appendChildEntities, Option.getD_none, appendChildren]
  | some children => rw [appendChildEntities, Option.getD_some]

variable {band}

theorem appendEntityCanonical_eq_ok {depth : Nat} {attributes : InspectionAttributes}
    {geometry : InspectionGeometry} {children : Option (List InspectionEntity)} {text : Text} :
    appendEntityCanonical band depth (.mk attributes geometry children) = .ok text ↔
      ¬ maximumNestedEntityDepth < depth ∧ ∃ parts, appendChildren band (depth + 1) (children.getD []) = .ok parts ∧
        appendEntity band depth attributes geometry parts = text := by
  simp only [appendEntityCanonical, guard_eq_ok, bind_eq_ok, pure_eq_ok, appendChildEntities_eq]

theorem appendChildren_eq_ok {depth : Nat} {children : List InspectionEntity} {parts : List (Text × Text)} :
    appendChildren band depth children = .ok parts ↔
      List.Forall₂ (fun child part => part.1 = child.handle ∧ appendEntityCanonical band depth child = .ok part.2)
        children parts := by
  induction children generalizing parts with
  | nil => rw [appendChildren, pure_eq_ok, List.forall₂_nil_left_iff, eq_comm]
  | cons child children ih =>
      simp only [appendChildren, bind_eq_ok, pure_eq_ok, List.forall₂_cons_left_iff, ih]
      constructor
      · rintro ⟨text, htext, rest, hrest, rfl⟩
        exact ⟨_, rest, ⟨rfl, htext⟩, hrest, rfl⟩
      · rintro ⟨⟨_, text⟩, rest, ⟨rfl, htext⟩, hrest, rfl⟩
        exact ⟨text, htext, rest, hrest, rfl⟩

theorem handles_of_appendChildren {depth : Nat} {children : List InspectionEntity} {parts : List (Text × Text)}
    (h : appendChildren band depth children = .ok parts) : parts.map Prod.fst = children.map (·.handle) := by
  have hall := appendChildren_eq_ok.mp h
  clear h
  induction hall with
  | nil => rfl
  | cons hpart _ ih => rw [List.map_cons, List.map_cons, hpart.1, ih]

theorem appendGeometry_withoutNull (geometry : InspectionGeometry) :
    appendGeometry band geometry.withoutNull = appendGeometry band geometry := rfl

/-- The text of an entity depends on the handles and texts of its child entities, not on their order. -/
theorem appendEntity_congr {depth : Nat} {attributes : InspectionAttributes}
    {geometry geometry' : InspectionGeometry} {parts parts' : List (Text × Text)}
    (hgeometry : geometry.withoutNull = geometry'.withoutNull) (hnodup : (parts.map Prod.fst).Nodup)
    (hparts : parts.Perm parts') :
    appendEntity band depth attributes geometry parts = appendEntity band depth attributes geometry' parts' := by
  have hkeys : (parts.map (fun part => ordinal part.1)).Nodup := by
    rw [← Function.comp_def ordinal Prod.fst, ← List.map_map]
    exact hnodup.map ordinal_injective
  rw [appendEntity, ← appendGeometry_withoutNull geometry, hgeometry, appendGeometry_withoutNull,
    sortBy_congr hkeys hparts, Value.count, hparts.length_eq, ← Value.count]
  rfl

mutual
/-- A reordered entity has the same canonical text. -/
theorem Reordered.canonical {e e' : InspectionEntity} (h : Reordered e e') (hd : e.All DistinctHandles) {depth : Nat}
    {text : Text} (ht : appendEntityCanonical band depth e = .ok text) :
    appendEntityCanonical band depth e' = .ok text := by
  match h with
  | .mk hgeometry hchildren =>
      rw [all_mk_iff] at hd
      rw [appendEntityCanonical_eq_ok] at ht ⊢
      obtain ⟨hdepth, parts, hparts, rfl⟩ := ht
      obtain ⟨parts', hparts', hperm⟩ := ReorderedList.canonical hchildren hd.2 hparts
      have hnodup : (parts.map Prod.fst).Nodup := handles_of_appendChildren hparts ▸ hd.1
      exact ⟨hdepth, parts', hparts', (appendEntity_congr hgeometry hnodup hperm).symm⟩

theorem ReorderedList.canonical {es es' : List InspectionEntity} (h : ReorderedList es es')
    (hd : AllOf DistinctHandles es) {depth : Nat} {parts : List (Text × Text)}
    (hp : appendChildren band depth es = .ok parts) :
    ∃ parts', appendChildren band depth es' = .ok parts' ∧ parts.Perm parts' := by
  match h with
  | .nil => exact ⟨parts, hp, .refl _⟩
  | .cons he hes =>
      simp only [appendChildren, bind_eq_ok, pure_eq_ok] at hp ⊢
      obtain ⟨text, htext, rest, hrest, rfl⟩ := hp
      obtain ⟨rest', hrest', hperm⟩ := ReorderedList.canonical hes hd.2 hrest
      refine ⟨_, ⟨text, Reordered.canonical he hd.1 htext, rest', hrest', rfl⟩, ?_⟩
      rw [he.handle_eq]
      exact hperm.cons _
  | .swap e e' es =>
      simp only [appendChildren, bind_eq_ok, pure_eq_ok] at hp ⊢
      obtain ⟨text', htext', _, ⟨text, htext, rest, hrest, rfl⟩, rfl⟩ := hp
      exact ⟨_, ⟨text, htext, _, ⟨text', htext', rest, hrest, rfl⟩, rfl⟩, .swap _ _ _⟩
  | .trans h h' =>
      obtain ⟨parts', hparts', hperm⟩ := ReorderedList.canonical h hd hp
      obtain ⟨parts'', hparts'', hperm'⟩ := ReorderedList.canonical h' (h.distinct hd) hparts'
      exact ⟨parts'', hparts'', hperm.trans hperm'⟩
end

end CadHarness.Inspection
