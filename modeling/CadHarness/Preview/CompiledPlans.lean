import CadHarness.Preview.SvgTheorems

/-!
# Previews of compiled plans

Every operation of a compiled plan has what the SVG writer reads: points where it reads points, numbers where it reads
numbers, and texts that are not empty.
-/

namespace CadHarness.Preview
open CadHarness.Annotation (listEntry)
open CadHarness.Catalog CadHarness.Plan
open CadHarness.Geometry (BoundingBox KernelError Point2D Polyline2D)
open CadHarness.Domain (OperationType)
open CadHarness.Lib

noncomputable section
open Classical

/-! ## Geometries -/

def numberKeys : List String := ["diameter_mm", "radius_mm", "start_angle_deg", "end_angle_deg"]

/-- An entry that the writer can read, if it reads it at all. -/
structure IsEntry (e : String × Value) : Prop where
  list : e.1 ∈ pointListKeys → ∃ l, e.2 = points l
  single : e.1 ∈ pointKeys → ∃ p : Point2D, e.2 = p.asTuple
  number : e.1 ∈ numberKeys → ∃ x, e.2 = real x
  text : e.1 = "text" → ∃ t, t ≠ "" ∧ e.2 = .str t

/-- What the writer requires of an operation. -/
def requiredKeys : OperationType → List String
  | .createClosedPolyline | .createPolyline => ["vertices_mm"]
  | .createCircles => ["centers_mm"]
  | .createCircle => ["center_mm"]
  | .createArc => ["center_mm", "radius_mm", "start_angle_deg", "end_angle_deg"]
  | .createLine | .createCenterline | .createLinearDimension | .createAlignedDimension => ["start_mm", "end_mm"]
  | .createText => ["position_mm", "text"]
  | _ => []

structure IsForm (type : OperationType) (geometry : Dict) : Prop where
  entries : ∀ e ∈ geometry, IsEntry e
  keys : ∀ key ∈ requiredKeys type, key ∈ geometry.map Prod.fst

theorem isEntry_points {key : String} (h : key ∈ pointListKeys) (l : List Point2D) : IsEntry (key, points l) := by
  have hkeys : ∀ key ∈ pointListKeys, key ∉ pointKeys ∧ key ∉ numberKeys ∧ key ≠ "text" := by decide
  obtain ⟨hsingle, hnumber, htext⟩ := hkeys key h
  exact ⟨fun _ => ⟨l, rfl⟩, fun h => absurd h hsingle, fun h => absurd h hnumber, fun h => absurd h htext⟩

theorem isEntry_point {key : String} (h : key ∈ pointKeys) (p : Point2D) : IsEntry (key, p.asTuple) := by
  have hkeys : ∀ key ∈ pointKeys, key ∉ pointListKeys ∧ key ∉ numberKeys ∧ key ≠ "text" := by decide
  obtain ⟨hlist, hnumber, htext⟩ := hkeys key h
  exact ⟨fun h => absurd h hlist, fun _ => ⟨p, rfl⟩, fun h => absurd h hnumber, fun h => absurd h htext⟩

theorem isEntry_number {key : String} (h : key ∈ numberKeys) (x : ℝ) : IsEntry (key, real x) := by
  have hkeys : ∀ key ∈ numberKeys, key ∉ pointListKeys ∧ key ∉ pointKeys ∧ key ≠ "text" := by decide
  obtain ⟨hlist, hsingle, htext⟩ := hkeys key h
  exact ⟨fun h => absurd h hlist, fun h => absurd h hsingle, fun _ => ⟨x, rfl⟩, fun h => absurd h htext⟩

theorem isEntry_text {t : String} (h : t ≠ "") : IsEntry ("text", .str t) := by
  have hkeys : "text" ∉ pointListKeys ∧ "text" ∉ pointKeys ∧ "text" ∉ numberKeys := by decide
  obtain ⟨hlist, hsingle, hnumber⟩ := hkeys
  exact ⟨fun h => absurd h hlist, fun h => absurd h hsingle, fun h => absurd h hnumber, fun _ => ⟨t, h, rfl⟩⟩

theorem isEntry_other {key : String} (h : key ∉ pointListKeys ++ pointKeys ++ numberKeys ++ ["text"]) (value : Value) :
    IsEntry (key, value) := by
  simp only [List.mem_append, List.mem_singleton, not_or] at h
  obtain ⟨⟨⟨hlist, hsingle⟩, hnumber⟩, htext⟩ := h
  exact ⟨fun h => absurd h hlist, fun h => absurd h hsingle, fun h => absurd h hnumber, fun h => absurd h htext⟩

namespace IsForm

variable {type : OperationType} {geometry : Dict} {key : String}

theorem lookup_some (h : IsForm type geometry) (key : String) (hkey : key ∈ requiredKeys type) :
    ∃ value, geometry.lookup key = some value ∧ IsEntry (key, value) := by
  cases hlookup : geometry.lookup key with
  | none =>
      obtain ⟨e, he, rfl⟩ := List.mem_map.mp (h.keys key hkey)
      rw [List.lookup_eq_none_iff] at hlookup
      exact absurd (hlookup e he) (by simp)
  | some value => exact ⟨value, rfl, h.entries _ (Assoc.mem_of_lookup hlookup)⟩

/-- A required list of points is there. -/
theorem points_entry (h : IsForm type geometry) (key : String) (hkey : key ∈ requiredKeys type)
    (hlist : key ∈ pointListKeys) :
    ∃ l : List Point2D, listEntry geometry key = .ok (l.map Point2D.asTuple) := by
  obtain ⟨value, hvalue, hentry⟩ := h.lookup_some key hkey
  obtain ⟨l, rfl⟩ := hentry.list hlist
  refine ⟨l, ?_⟩
  rw [listEntry, entry_eq_ok.mpr hvalue]
  rfl

theorem point_entry (h : IsForm type geometry) (key : String) (hkey : key ∈ requiredKeys type)
    (hsingle : key ∈ pointKeys) :
    ∃ p : Point2D, entry geometry key = .ok p.asTuple := by
  obtain ⟨value, hvalue, hentry⟩ := h.lookup_some key hkey
  obtain ⟨p, rfl⟩ := hentry.single hsingle
  exact ⟨p, entry_eq_ok.mpr hvalue⟩

theorem number_entry (h : IsForm type geometry) (key : String) (hkey : key ∈ requiredKeys type)
    (hnumber : key ∈ numberKeys) :
    ∃ x, entry geometry key = .ok (real x) := by
  obtain ⟨value, hvalue, hentry⟩ := h.lookup_some key hkey
  obtain ⟨x, rfl⟩ := hentry.number hnumber
  exact ⟨x, entry_eq_ok.mpr hvalue⟩

/-- A list of points is read, or there is none. -/
theorem geometryPoints_ok (h : IsForm type geometry) (hlist : key ∈ pointListKeys) :
    ∃ l, geometryPoints geometry key = .ok l := by
  rw [geometryPoints]
  cases hlookup : geometry.lookup key with
  | none => exact ⟨[], rfl⟩
  | some value =>
      obtain ⟨l, rfl⟩ := (h.entries _ (Assoc.mem_of_lookup hlookup)).list hlist
      exact ⟨l, pointItems_map_asTuple l⟩

theorem pointUnder_ok (h : IsForm type geometry) (hsingle : key ∈ pointKeys) :
    ∃ l, pointUnder geometry key = .ok l := by
  cases hlookup : geometry.lookup key with
  | none =>
      refine ⟨[], ?_⟩
      rw [pointUnder, Plan.get, hlookup]
  | some value =>
      obtain ⟨p, rfl⟩ := (h.entries _ (Assoc.mem_of_lookup hlookup)).single hsingle
      exact ⟨[p], pointUnder_of_entry (entry_eq_ok.mpr hlookup) (pointItem_asTuple p)⟩

end IsForm

/-- The operation has a form that the writer can read. -/
theorem renderable_of_isForm {operation : Plan.Operation} (h : IsForm operation.type operation.geometry) :
    Renderable operation := by
  have hcenters (hcircle : IsCircle operation.type) : ∃ centers, circleCenters operation = .ok centers := by
    rw [circleCenters]
    rcases hcircle with htype | htype
    · obtain ⟨p, hp⟩ := h.point_entry "center_mm" (by rw [htype]; decide) (by decide)
      rw [if_pos htype, hp]
      exact ⟨[p], rfl⟩
    · obtain ⟨l, hl⟩ := h.points_entry "centers_mm" (by rw [htype]; decide) (by decide)
      rw [if_neg (by rw [htype]; decide), hl, Fallible.ok_bind, pointItems_map_asTuple]
      exact ⟨l, rfl⟩
  constructor
  · intro hradius
    obtain ⟨listed, hlisted⟩ : ∃ listed,
        ["vertices_mm", "centers_mm"].mapM (geometryPoints operation.geometry) = .ok listed :=
      Fallible.exists_mapM fun key hkey => h.geometryPoints_ok (by revert key; decide)
    obtain ⟨single, hsingle⟩ : ∃ single, ["center_mm", "start_mm", "end_mm", "position_mm", "text_position_mm"].mapM
        (pointUnder operation.geometry) = .ok single :=
      Fallible.exists_mapM fun key hkey => h.pointUnder_ok (by revert key; decide)
    obtain ⟨extremes, hextremes⟩ : ∃ extremes, circlePoints operation = .ok extremes := by
      rw [circlePoints]
      split_ifs with hcircle
      · obtain ⟨radius, hr⟩ := hradius hcircle
        obtain ⟨centers, hc⟩ := hcenters hcircle
        rw [hr, Fallible.ok_bind, hc]
        exact ⟨_, rfl⟩
      · exact ⟨[], rfl⟩
    rw [operationPoints, hlisted, Fallible.ok_bind, hsingle, Fallible.ok_bind, hextremes]
    exact ⟨_, rfl⟩
  · intro hradius
    unfold drawingOf
    cases htype : operation.type
    case createClosedPolyline | createPolyline =>
      obtain ⟨l, hl⟩ := h.points_entry "vertices_mm" (by rw [htype]; decide) (by decide)
      dsimp only
      rw [hl, Fallible.ok_bind, pointItems_map_asTuple]
      exact ⟨_, rfl⟩
    case createCircles | createCircle =>
      have hcircle : IsCircle operation.type := by
        rw [htype]
        simp [IsCircle]
      obtain ⟨radius, hr⟩ := hradius hcircle
      obtain ⟨centers, hc⟩ := hcenters hcircle
      dsimp only
      rw [hr, Fallible.ok_bind, hc]
      exact ⟨_, rfl⟩
    case createArc =>
      obtain ⟨p, hp⟩ := h.point_entry "center_mm" (by rw [htype]; decide) (by decide)
      obtain ⟨r, hr⟩ := h.number_entry "radius_mm" (by rw [htype]; decide) (by decide)
      obtain ⟨a, ha⟩ := h.number_entry "start_angle_deg" (by rw [htype]; decide) (by decide)
      obtain ⟨b, hb⟩ := h.number_entry "end_angle_deg" (by rw [htype]; decide) (by decide)
      dsimp only
      rw [hp, hr, ha, hb]
      exact ⟨_, rfl⟩
    case createLine | createCenterline | createLinearDimension | createAlignedDimension =>
      obtain ⟨p, hp⟩ := h.point_entry "start_mm" (by rw [htype]; decide) (by decide)
      obtain ⟨q, hq⟩ := h.point_entry "end_mm" (by rw [htype]; decide) (by decide)
      dsimp only
      rw [hp, hq]
      exact ⟨_, rfl⟩
    case createText =>
      obtain ⟨p, hp⟩ := h.point_entry "position_mm" (by rw [htype]; decide) (by decide)
      obtain ⟨value, hvalue, hentry⟩ := h.lookup_some "text" (by rw [htype]; decide)
      obtain ⟨t, -, rfl⟩ := hentry.text rfl
      dsimp only
      rw [hp, View.textOf, entry_eq_ok.mpr hvalue]
      exact ⟨_, rfl⟩
    all_goals exact ⟨_, rfl⟩
  · intro position text hdrawing
    unfold drawingOf at hdrawing
    cases htype : operation.type
    case createText =>
      obtain ⟨value, hvalue, hentry⟩ := h.lookup_some "text" (by rw [htype]; decide)
      obtain ⟨t, hne, rfl⟩ := hentry.text rfl
      simp only [htype, View.textOf, entry_eq_ok.mpr hvalue, Fallible.ok_bind, Fallible.bind_eq_ok, Fallible.pure_eq_ok,
        Drawing.text.injEq] at hdrawing
      obtain ⟨_, _, _, _, _, rfl, _, rfl⟩ := hdrawing
      exact hne
    all_goals simp [htype] at hdrawing

/-! ## Compiled features -/

/-- All operations have forms that the writer can read. -/
def AreForms (operations : List Plan.Operation) : Prop :=
  ∀ operation ∈ operations, IsForm operation.type operation.geometry

theorem AreForms.append {operations others : List Plan.Operation} (h : AreForms operations) (h' : AreForms others) :
    AreForms (operations ++ others) :=
  List.forall_mem_append.mpr ⟨h, h'⟩

theorem areForms_singleton {operation : Plan.Operation} (h : IsForm operation.type operation.geometry) :
    AreForms [operation] :=
  fun _ ho => List.mem_singleton.mp ho ▸ h

section

variable (featureId suffix layer : String) (centers : List Point2D) (n : Value) (center : Point2D) (diameterMm : ℝ)
  (outline : Polyline2D) (expected : Dict)

theorem isForm_circles :
    IsForm .createCircles (circlesOperation featureId suffix layer centers n diameterMm).geometry := by
  have hkeys : ∀ key ∈ requiredKeys .createCircles, key ∈ ["centers_mm", "diameter_mm"] := by decide
  refine ⟨?_, hkeys⟩
  simp only [circlesOperation, List.forall_mem_cons]
  exact ⟨isEntry_points (by decide) centers, isEntry_number (by decide) diameterMm, List.forall_mem_nil _⟩

theorem isForm_circle :
    IsForm .createCircle (circleOperation featureId suffix layer center diameterMm expected).geometry := by
  have hkeys : ∀ key ∈ requiredKeys .createCircle, key ∈ ["center_mm", "diameter_mm"] := by decide
  refine ⟨?_, hkeys⟩
  simp only [circleOperation, List.forall_mem_cons]
  exact ⟨isEntry_point (by decide) center, isEntry_number (by decide) diameterMm, List.forall_mem_nil _⟩

theorem isForm_outline :
    IsForm .createClosedPolyline (outlineOperation featureId suffix layer outline expected).geometry := by
  have hkeys : ∀ key ∈ requiredKeys .createClosedPolyline, key ∈ ["vertices_mm"] := by decide
  refine ⟨?_, hkeys⟩
  simp only [outlineOperation, List.forall_mem_cons]
  exact ⟨isEntry_points (by decide) outline.vertices, List.forall_mem_nil _⟩

theorem isForm_line (start endPoint : Point2D) : IsForm .createLine (geometryDict (.line start endPoint)) := by
  have hkeys : ∀ key ∈ requiredKeys .createLine, key ∈ ["start_mm", "end_mm"] := by decide
  refine ⟨?_, hkeys⟩
  simp only [geometryDict, List.forall_mem_cons]
  exact ⟨isEntry_point (by decide) start, isEntry_point (by decide) endPoint, List.forall_mem_nil _⟩

theorem isForm_arc (radius a b : ℝ) : IsForm .createArc (geometryDict (.arc center radius a b)) := by
  have hkeys : ∀ key ∈ requiredKeys .createArc,
      key ∈ ["center_mm", "radius_mm", "start_angle_deg", "end_angle_deg"] := by decide
  refine ⟨?_, hkeys⟩
  simp only [geometryDict, List.forall_mem_cons]
  exact ⟨isEntry_point (by decide) center, isEntry_number (by decide) radius, isEntry_number (by decide) a,
    isEntry_number (by decide) b, List.forall_mem_nil _⟩

end

section

open Fallible (Gives)

variable (featureId : String) (feature : FeatureSpec) (parameters : Dict) (context : CompileContext)

theorem areForms_requestedCentermarks (centers : List Point2D) :
    Gives (requestedCentermarks featureId parameters context centers) AreForms := by
  rw [requestedCentermarks]
  refine .ite (.bind fun layer => .pure fun operation ho => ?_) (.pure fun _ ho => absurd ho List.not_mem_nil)
  obtain ⟨c, -, rfl⟩ := List.mem_map.mp ho
  refine ⟨?_, fun key hkey => absurd hkey List.not_mem_nil⟩
  simp only [List.forall_mem_cons]
  exact ⟨isEntry_point (by decide) c.1, List.forall_mem_nil _⟩

theorem areForms_rectangularHolePattern :
    Gives (compileRectangularHolePattern featureId parameters context) fun c => AreForms c.operations := by
  rw [compileRectangularHolePattern]
  repeat
    first
    | refine .bind_of (areForms_requestedCentermarks _ _ _ _) fun marks hmarks => ?_
    | refine .bind fun _ => ?_
  exact .pure (List.forall_mem_cons.mpr ⟨isForm_circles .., hmarks⟩)

theorem areForms_boltCirclePattern :
    Gives (compileBoltCirclePattern featureId parameters context) fun c => AreForms c.operations := by
  rw [compileBoltCirclePattern]
  repeat
    first
    | refine .bind_of (areForms_requestedCentermarks _ _ _ _) fun marks hmarks => ?_
    | refine .bind fun _ => ?_
  exact .pure (List.forall_mem_cons.mpr ⟨isForm_circles .., hmarks⟩)

theorem areForms_linearHolePattern :
    Gives (compileLinearHolePattern featureId parameters context) fun c => AreForms c.operations := by
  rw [compileLinearHolePattern]
  repeat refine .bind fun _ => ?_
  refine .ite .error ?_
  repeat refine .bind fun _ => ?_
  exact .pure (areForms_singleton (isForm_circles ..))

theorem isForm_bore (center : Point2D) (boreDiameter : ℝ) :
    Gives (boreOperation featureId parameters context center boreDiameter) fun bore =>
      IsForm bore.1.type bore.1.geometry := by
  rintro ⟨operation, expectations⟩ h
  cases boreOperation_ok h with
  | keyed layer outline width depth expected => exact isForm_outline ..
  | plain layer hpos => exact isForm_circle ..

theorem areForms_flange : Gives (compileFlange featureId parameters context) fun c => AreForms c.operations := by
  rw [compileFlange]
  repeat refine .bind fun _ => ?_
  refine .ite .error ?_
  repeat
    first
    | refine .bind_of (isForm_bore _ _ _ _ _) fun bore hbore => ?_
    | refine .bind fun _ => ?_
  exact .pure (List.forall_mem_cons.mpr ⟨isForm_circle .., List.forall_mem_cons.mpr ⟨hbore,
    areForms_singleton (isForm_circles ..)⟩⟩)

theorem areForms_keyway : Gives (compileKeyway featureId parameters context) fun c => AreForms c.operations := by
  rw [compileKeyway]
  repeat refine .bind fun _ => ?_
  exact .pure (areForms_singleton (isForm_outline ..))

theorem areForms_referenceCircle : Gives (compileReferenceCircle feature context) fun c => AreForms c.operations := by
  rw [compileReferenceCircle]
  repeat refine .bind fun _ => ?_
  exact .pure (areForms_singleton (isForm_circle ..))

theorem areForms_lBracket : Gives (compileLBracket featureId parameters context) fun c => AreForms c.operations := by
  rw [compileLBracket]
  repeat refine .bind fun _ => ?_
  exact .pure (areForms_singleton (isForm_outline ..))

theorem areForms_cornerNotch :
    Gives (compileCornerNotch featureId parameters context) fun c => AreForms c.operations := by
  rw [compileCornerNotch]
  repeat refine .bind fun _ => ?_
  cases context.parentOutline with
  | none => exact .error
  | some parent =>
      repeat refine .bind fun _ => ?_
      exact .pure (areForms_singleton (isForm_outline ..))

theorem areForms_edgeCutout :
    Gives (compileEdgeCutout featureId parameters context) fun c => AreForms c.operations := by
  rw [compileEdgeCutout]
  repeat refine .bind fun _ => ?_
  cases context.parentOutline with
  | none => exact .error
  | some parent =>
      repeat refine .bind fun _ => ?_
      exact .pure (areForms_singleton (isForm_outline ..))

theorem isArc_arcGeometry (c : Geometry.CurveParams) :
    Gives (Geometry.arcGeometry c) fun g => ∃ center radius a b, g = .arc center radius a b := by
  rw [Geometry.arcGeometry]
  split
  · exact .error
  · exact .pure ⟨_, _, _, _, rfl⟩

theorem areForms_compileSlot (slot : Geometry.SlotParameters) (slotContext : Geometry.CompileContext) :
    Gives (Geometry.compileSlot featureId slot slotContext) fun c => AreForms (c.operations.map planOperation) := by
  rw [Geometry.compileSlot]
  split
  · repeat
      first
      | refine .bind_of (isArc_arcGeometry _) ?_
        rintro _ ⟨_, _, _, _, rfl⟩
      | refine .bind fun _ => ?_
    refine .pure ?_
    simp only [AreForms, Geometry.slotOperations, List.map_cons, List.map_nil, List.forall_mem_cons]
    exact ⟨isForm_line .., isForm_arc .., isForm_line .., isForm_arc .., List.forall_mem_nil _⟩
  · exact .error

theorem areForms_slot : Gives (compileSlotFeature featureId parameters context) fun c => AreForms c.operations := by
  rw [compileSlotFeature]
  repeat
    first
    | refine .bind_of (areForms_compileSlot _ _ _) fun compiled hcompiled => ?_
    | refine .bind fun _ => ?_
  exact .pure hcompiled

/-- A plate begins with its outline. -/
structure IsPlate (operations : List Plan.Operation) : Prop where
  forms : AreForms operations
  outline : ∃ outline others, operations = outline :: others ∧ outline.type = .createClosedPolyline

theorem isPlate_plate (modifiers : List ModifierSpec) :
    Gives (compilePlate featureId parameters modifiers context) fun plate => IsPlate plate.compiled.operations := by
  rw [compilePlate]
  repeat refine .bind fun _ => ?_
  exact .pure ⟨areForms_singleton (isForm_outline ..), _, _, rfl, rfl⟩

theorem areForms_leaf (compiler : Compiler) :
    Gives (compileLeaf compiler feature context) fun c => AreForms c.operations := by
  unfold compileLeaf
  cases compiler
  case rectangularPlate => exact .bind_of (isPlate_plate _ _ _ _) fun plate hplate => .pure hplate.forms
  case rectangularHolePattern => exact areForms_rectangularHolePattern _ _ _
  case boltCirclePattern => exact areForms_boltCirclePattern _ _ _
  case linearHolePattern => exact areForms_linearHolePattern _ _ _
  case flange => exact areForms_flange _ _ _
  case lBracket => exact areForms_lBracket _ _ _
  case slot => exact areForms_slot _ _ _
  case keyway => exact areForms_keyway _ _ _
  case cornerNotch => exact areForms_cornerNotch _ _ _
  case edgeCutout => exact areForms_edgeCutout _ _ _
  case referenceCircle => exact areForms_referenceCircle _ _
  case recognized => exact .error

theorem isPlate_replaceOutline {compiled child : CompiledFeature} (h : IsPlate compiled.operations) :
    Gives (replaceOutline compiled child) fun replaced => IsPlate replaced.1.operations := by
  obtain ⟨hforms, outline, others, heq, htype⟩ := h
  rw [replaceOutline]
  split
  · rename_i parent rest _ _ hparent _
    rw [heq] at hparent
    obtain ⟨rfl, rfl⟩ := List.cons.inj hparent
    rw [heq] at hforms
    repeat refine .bind fun _ => ?_
    refine .pure ⟨List.forall_mem_cons.mpr ⟨?_, (List.forall_mem_cons.mp hforms).2⟩, _, _, rfl, htype⟩
    rw [htype]
    exact isForm_outline "" "" "" _ []
  · exact .error

theorem IsPlate.merge {compiled child : CompiledFeature} (h : IsPlate compiled.operations)
    (hchild : AreForms child.operations) :
    IsPlate (compiled.merge child).operations := by
  obtain ⟨hforms, outline, others, heq, htype⟩ := h
  exact ⟨hforms.append hchild, outline, others ++ child.operations, by rw [CompiledFeature.merge, heq]; rfl, htype⟩

mutual
theorem areForms_feature : (feature : FeatureSpec) → (context : CompileContext) →
    Gives (compileFeature feature context) fun c => AreForms c.operations
  | .mk featureId type parameters modifiers children, context => by
      rw [compileFeature]
      refine .bind fun compiler => ?_
      cases compiler
      case rectangularPlate =>
        refine .bind_of (isPlate_plate _ _ _ _) fun plate hplate => ?_
        intro c hc
        exact (isPlate_children featureId plate.box context children plate.compiled plate.outline hplate c hc).forms
      all_goals exact areForms_leaf _ _ _

theorem isPlate_children (featureId : String) (box : Geometry.BoundingBox) (context : CompileContext) :
    (children : List FeatureSpec) → (compiled : CompiledFeature) → (outline : Polyline2D) →
      IsPlate compiled.operations →
    Gives (compileChildren featureId box context children compiled outline) fun c => IsPlate c.operations
  | [], compiled, outline, h => by
      rw [compileChildren]
      exact .pure h
  | child :: children, compiled, outline, h => by
      rw [compileChildren]
      refine .bind_of (areForms_feature child _) fun childCompiled hchild => ?_
      split
      · refine .bind_of (isPlate_replaceOutline h) fun replaced hreplaced => ?_
        exact isPlate_children featureId box context children replaced.1 replaced.2 hreplaced
      · exact isPlate_children featureId box context children _ outline (h.merge hchild)
end

/-! ## Views -/

theorem isEntry_translate {dx dy : ℝ} {e : String × Value} (h : IsEntry e) :
    Gives (translateEntry dx dy e) fun moved => IsEntry moved ∧ moved.1 = e.1 := by
  rw [translateEntry]
  split
  · split_ifs with hlist hsingle
    · exact .bind fun moved => .pure ⟨isEntry_points hlist _, rfl⟩
    · split
      · exact .bind fun x => .bind fun y => .pure ⟨isEntry_point hsingle ⟨x + dx, y + dy⟩, rfl⟩
      · exact .pure ⟨h, rfl⟩
    · exact .pure ⟨h, rfl⟩
  · exact .pure ⟨h, rfl⟩

theorem isForm_translate {type : OperationType} {geometry : Dict} (h : IsForm type geometry) (dx dy : ℝ) :
    Gives (translateGeometry geometry dx dy) (IsForm type) := by
  intro moved hmoved
  have hall := Gives.mapM (fun e he => isEntry_translate (h.entries e he)) moved hmoved
  constructor
  · intro e he
    obtain ⟨source, -, hentry, -⟩ := Fallible.mem_of_forall₂ hall he
    exact hentry
  · have hkeys : moved.map Prod.fst = geometry.map Prod.fst := by
      clear hmoved h
      induction hall with
      | nil => rfl
      | cons hab _ ih => rw [List.map_cons, List.map_cons, hab.2, ih]
    rw [hkeys]
    exact h.keys

theorem IsForm.set {type : OperationType} {geometry : Dict} (h : IsForm type geometry) {key : String} {value : Value}
    (hentry : IsEntry (key, value)) : IsForm type (Assoc.set geometry key value) := by
  constructor
  · intro e he
    rcases Assoc.mem_set he with rfl | he
    · exact hentry
    · exact h.entries e he
  · exact fun key hkey => Assoc.mem_keys_set.mpr (.inr (h.keys key hkey))

theorem isForm_placeOperation {source : Plan.Operation} (h : IsForm source.type source.geometry) (spacing : ℝ)
    (viewType : String) : Gives (placeOperation spacing viewType source) fun placed =>
      IsForm placed.type placed.geometry := by
  rw [placeOperation]
  refine .bind_of (isForm_translate h _ _) fun geometry hgeometry => .pure ?_
  exact ((hgeometry.set (isEntry_other (by decide) _)).set (isEntry_other (by decide) _)).set
    (isEntry_other (by decide) _)

theorem areForms_placeViews {operations : List Plan.Operation} (h : AreForms operations) (views : List String)
    (profile : CompanyProfile) : Gives (placeViews operations views profile) AreForms := by
  rw [placeViews]
  split
  · exact .error
  · exact .error
  · rename_i spacing _ _
    have hplace (view : String) : Gives (operations.mapM (placeOperation spacing view)) AreForms := by
      intro placed hplaced operation ho
      have hall := Gives.mapM (fun source hs => isForm_placeOperation (h source hs) spacing view) placed hplaced
      obtain ⟨source, -, hform⟩ := Fallible.mem_of_forall₂ hall ho
      exact hform
    refine .bind_of (Gives.mapM fun view _ => hplace view) fun placed hplaced => .pure fun operation ho => ?_
    obtain ⟨some, hsome, ho⟩ := List.mem_flatten.mp ho
    obtain ⟨view, -, hforms⟩ := Fallible.mem_of_forall₂ hplaced hsome
    exact hforms operation ho

theorem isForm_candidate (layer : String) (candidate : RasterVectorCandidate) :
    Gives (candidateOperation layer candidate) fun operation => IsForm operation.type operation.geometry := by
  rw [candidateOperation]
  refine .bind_of (q := fun form => IsForm form.1 form.2.1) ?_ fun form hform => .pure hform
  unfold candidateGeometry
  split
  · exact .pure (isForm_line _ _)
  · exact .pure (isForm_circle "" "" "" _ _ [])
  · exact .pure (isForm_arc _ _ _ _)
  · rename_i vertices _
    have hkeys : ∀ key ∈ requiredKeys .createClosedPolyline, key ∈ ["vertices_mm"] := by decide
    refine .pure ⟨?_, hkeys⟩
    simp only [List.forall_mem_cons]
    exact ⟨isEntry_points (by decide) vertices, List.forall_mem_nil _⟩
  · exact .error

theorem areForms_topLevel (service : PlanCompilerService) :
    Gives (service.compileTopLevel context feature) fun c => AreForms c.operations := by
  rw [PlanCompilerService.compileTopLevel]
  refine .ite ?_ (areForms_feature _ _)
  unfold PlanCompilerService.compileAcceptedRaster
  dsimp only
  split
  · refine .bind fun candidates => ?_
    refine .bind_of (Gives.mapM fun candidate _ => isForm_candidate _ candidate) fun operations ho => ?_
    refine .pure fun operation hmem => ?_
    obtain ⟨candidate, -, hform⟩ := Fallible.mem_of_forall₂ ho hmem
    exact hform
  · exact .error

theorem areForms_geometry (service : PlanCompilerService) (spec : DrawingSpec) {compiled : List CompiledFeature}
    (h : ∀ c ∈ compiled, AreForms c.operations) : Gives (service.geometryOperations spec compiled) AreForms := by
  have hall : AreForms (compiled.flatMap (·.operations)) := by
    intro operation ho
    obtain ⟨c, hc, ho⟩ := List.mem_flatMap.mp ho
    exact h c hc operation ho
  rw [PlanCompilerService.geometryOperations]
  have hkept {placed : List Plan.Operation} (hplaced : AreForms placed) :
      AreForms (placed.filter fun operation => ¬ PlanCompilerService.IsCenterEntity operation) :=
    fun operation ho => hplaced operation (List.mem_of_mem_filter ho)
  refine .ite (.bind_of (.pure hall) fun placed hplaced => .pure (hkept hplaced)) ?_
  exact .bind_of (areForms_placeViews hall _ _) fun placed hplaced => .pure (hkept hplaced)

/-! ## Annotations -/

open Annotation

/-- A draft whose operation the writer can read, wherever its text is placed. -/
structure IsDraft (draft : Draft) : Prop where
  entries : ∀ e ∈ draft.geometry, IsEntry e
  label : ∀ label ∈ draft.label, label.key ∈ pointKeys
  keys : ∀ key ∈ requiredKeys draft.type, key ∈ draft.geometry.map Prod.fst ∨ ∃ label ∈ draft.label, label.key = key

theorem isForm_draft {draft : Draft} (h : IsDraft draft) (rules : PlacementRules) (heightMm : ℝ)
    (occupied : List TextBox) :
    IsForm draft.type (draft.operation (draft.placement rules heightMm occupied).1).geometry := by
  rw [Draft.operation, Draft.placement]
  cases hlabel : draft.label with
  | none =>
      dsimp only
      rw [List.append_nil]
      refine ⟨h.entries, fun key hkey => (h.keys key hkey).resolve_right ?_⟩
      rintro ⟨label, hmem, -⟩
      rw [hlabel] at hmem
      cases hmem
  | some label =>
      have hkey := h.label label hlabel
      dsimp only
      refine ⟨List.forall_mem_append.mpr ⟨h.entries, ?_⟩, fun key hrequired => ?_⟩
      · simp only [List.forall_mem_cons]
        exact ⟨isEntry_point hkey ⟨_, _⟩, isEntry_other (by decide) _, List.forall_mem_nil _⟩
      · rw [List.map_append, List.mem_append]
        rcases h.keys key hrequired with hmem | ⟨found, hmem, rfl⟩
        · exact .inl hmem
        · rw [hlabel] at hmem
          cases hmem
          exact .inr List.mem_cons_self

theorem areForms_placeDrafts (rules : PlacementRules) (heightMm : ℝ) {drafts : List Draft}
    (h : ∀ draft ∈ drafts, IsDraft draft) (occupied : List TextBox) : AreForms (placeDrafts rules heightMm drafts occupied) := by
  induction drafts generalizing occupied with
  | nil => exact fun _ ho => absurd ho List.not_mem_nil
  | cons draft drafts ih =>
      rw [List.forall_mem_cons] at h
      exact List.forall_mem_cons.mpr ⟨isForm_draft h.1 rules heightMm occupied, ih h.2 _⟩

section

variable (style : TextStyle) (dimstyle layer suffix draftId annotationKind : String) (index : Nat)

theorem isDraft_dimension (value : ℝ) (start endPoint anchor : ℝ × ℝ) :
    IsDraft (dimensionDraft style dimstyle layer suffix draftId value start endPoint anchor annotationKind) := by
  refine ⟨?_, ?_, ?_⟩
  · simp only [dimensionDraft, List.forall_mem_cons]
    exact ⟨isEntry_point (by decide) ⟨start.1, start.2⟩, isEntry_point (by decide) ⟨endPoint.1, endPoint.2⟩,
      isEntry_other (by decide) _, isEntry_other (by decide) _, isEntry_other (by decide) _,
        isEntry_other (by decide) _,
      isEntry_other (by decide) _, isEntry_other (by decide) _, List.forall_mem_nil _⟩
  · rintro label ⟨⟩
    have hkey : "text_position_mm" ∈ pointKeys := by decide
    exact hkey
  · have hkeys : ∀ key ∈ requiredKeys .createLinearDimension, key = "start_mm" ∨ key = "end_mm" := by decide
    intro key hkey
    refine .inl ?_
    rcases hkeys key hkey with rfl | rfl <;> simp [dimensionDraft]

theorem isDraft_diameter (hole : Hole) (diameter : ℝ) :
    IsDraft (diameterDraft style dimstyle layer index hole diameter) := by
  refine ⟨?_, ?_, fun key hkey => absurd hkey List.not_mem_nil⟩
  · simp only [diameterDraft, List.forall_mem_cons]
    exact ⟨isEntry_point (by decide) hole.center, isEntry_other (by decide) _, isEntry_other (by decide) _,
      isEntry_other (by decide) _, isEntry_other (by decide) _, isEntry_other (by decide) _,
        isEntry_other (by decide) _,
      List.forall_mem_nil _⟩
  · rintro label ⟨⟩
    have hkey : "text_position_mm" ∈ pointKeys := by decide
    exact hkey

theorem isDraft_text {text : String} (htext : text ≠ "") (anchor : ℝ × ℝ) {extra : Dict}
    (hextra : ∀ e ∈ extra, e.1 ∉ pointListKeys ++ pointKeys ++ numberKeys ++ ["text"] ∨ IsEntry e) :
    IsDraft (textDraft style layer suffix draftId text anchor annotationKind extra) := by
  refine ⟨List.forall_mem_append.mpr ⟨?_, ?_⟩, ?_, ?_⟩
  · simp only [List.forall_mem_cons]
    exact ⟨isEntry_text htext, isEntry_other (by decide) _, isEntry_other (by decide) _, isEntry_other (by decide) _,
      List.forall_mem_nil _⟩
  · intro e he
    exact (hextra e he).elim (fun hkey => isEntry_other hkey e.2) id
  · rintro label ⟨⟩
    have hkey : "position_mm" ∈ pointKeys := by decide
    exact hkey
  · have hkeys : ∀ key ∈ requiredKeys .createText, key = "position_mm" ∨ key = "text" := by decide
    intro key hkey
    rcases hkeys key hkey with rfl | rfl
    · exact .inr ⟨_, rfl, rfl⟩
    · exact .inl List.mem_cons_self

theorem isDraft_group (threshold : ℤ) (group : HoleGroup) :
    IsDraft (groupDraft style dimstyle layer threshold index group) := by
  rw [groupDraft]
  split_ifs
  · refine isDraft_text _ _ _ _ _ (fun h => ?_) _ ?_
    · replace h := congrArg String.toList h
      simp [toString] at h
    · simp only [List.forall_mem_cons]
      exact ⟨.inr (isEntry_number (by decide) _), .inl (by decide), List.forall_mem_nil _⟩
  · exact isDraft_diameter ..

theorem isDraft_centermark (hole : Hole) : IsDraft (centermarkDraft layer index hole) := by
  refine ⟨?_, fun label hlabel => absurd hlabel (by simp [centermarkDraft]),
    fun key hkey => absurd hkey List.not_mem_nil⟩
  simp only [centermarkDraft, List.forall_mem_cons]
  exact ⟨isEntry_point (by decide) hole.center, List.forall_mem_nil _⟩

theorem isDraft_centerline (first second : Hole) : IsDraft (centerlineDraft layer index first second) := by
  have hkeys : ∀ key ∈ requiredKeys .createCenterline, key ∈ ["start_mm", "end_mm"] := by decide
  refine ⟨?_, fun label hlabel => absurd hlabel (by simp [centerlineDraft]), fun key hkey => .inl (hkeys key hkey)⟩
  simp only [centerlineDraft, List.forall_mem_cons]
  exact ⟨isEntry_point (by decide) first.center, isEntry_point (by decide) second.center, List.forall_mem_nil _⟩

theorem isDraft_tableRow (box : BoundingBox) (group : HoleGroup) :
    IsDraft (tableRowDraft style layer box index group) := by
  refine isDraft_text _ _ _ _ _ (fun h => ?_) _ ?_
  · replace h := congrArg String.toList h
    simp [toString] at h
  · simp only [List.forall_mem_cons]
    exact ⟨.inl (by decide), .inl (by decide), .inr (isEntry_number (by decide) _), List.forall_mem_nil _⟩

theorem isDraft_titleBlock (name : String) (value : TitleBlockValue) :
    IsDraft (titleBlockDraft style layer index name value) := by
  refine isDraft_text _ _ _ _ _ (fun h => ?_) _ ?_
  · replace h := congrArg String.toList h
    simp [toString] at h
  · simp only [List.forall_mem_cons]
    exact ⟨.inl (by decide), .inl (by decide), .inl (by decide), List.forall_mem_nil _⟩

theorem isDraft_datumSymbol (symbol : DatumFeatureSymbol) : IsDraft (datumSymbolDraft style layer symbol) := by
  refine isDraft_text _ _ _ _ _ (fun h => ?_) _ ?_
  · replace h := congrArg String.toList h
    simp [toString] at h
  · simp only [List.forall_mem_cons]
    exact ⟨.inl (by decide), List.forall_mem_nil _⟩

theorem isDraft_controlFrame (frame : FeatureControlFrame) : IsDraft (controlFrameDraft style layer frame) := by
  refine isDraft_text _ _ _ _ _ (fun h => ?_) _ ?_
  · replace h := congrArg String.toList h
    rw [String.toList_intercalate] at h
    simp at h
  · simp only [List.forall_mem_cons]
    exact ⟨.inl (by decide), .inl (by decide), .inl (by decide), List.forall_mem_nil _⟩

theorem isDraft_overall (box : BoundingBox) : ∀ draft ∈ overallDrafts style dimstyle layer box, IsDraft draft := by
  simp only [overallDrafts, List.forall_mem_cons]
  exact ⟨isDraft_dimension .., isDraft_dimension .., List.forall_mem_nil _⟩

theorem isDraft_location (datum : Point2D) (group : HoleGroup) :
    ∀ draft ∈ locationDrafts style dimstyle layer datum index group, IsDraft draft := by
  intro draft hdraft
  obtain ⟨hole, -, hmem⟩ := List.mem_flatMap.mp hdraft
  simp only [List.mem_cons, List.not_mem_nil, or_false] at hmem
  rcases hmem with rfl | rfl
  · exact isDraft_dimension ..
  · exact isDraft_dimension ..

theorem isDraft_groups (threshold : ℤ) (datum : Option Point2D) (groups : List HoleGroup) :
    ∀ draft ∈ (groupDrafts style dimstyle layer threshold datum groups).1, IsDraft draft := by
  intro draft hdraft
  cases datum with
  | none =>
      obtain ⟨group, -, rfl⟩ := List.mem_map.mp hdraft
      exact isDraft_group ..
  | some datum =>
      obtain ⟨group, -, hmem⟩ := List.mem_flatMap.mp hdraft
      rcases List.mem_cons.mp hmem with rfl | hmem
      · exact isDraft_group ..
      · exact isDraft_location _ _ _ _ _ _ draft hmem

end

section

variable (profile : CompanyProfile) (tolerance : Geometry.ToleranceProfile) (operations : List Plan.Operation)
  (spec : DrawingSpec) (datum : Option Point2D) (style : TextStyle) (measured : GeometryMeasurements)

theorem isDraft_dimensions (dimstyle : String) :
    Gives (dimensionDrafts profile style dimstyle datum measured)
      fun drafted => ∀ draft ∈ drafted.1, IsDraft draft := by
  rw [dimensionDrafts]
  repeat refine .bind fun _ => ?_
  exact .pure (List.forall_mem_append.mpr ⟨isDraft_overall _ _ _ _, isDraft_groups _ _ _ _ _ _⟩)

theorem isDraft_centers :
    Gives (centerDrafts profile tolerance measured) fun drafts => ∀ draft ∈ drafts, IsDraft draft := by
  rw [centerDrafts]
  refine .bind fun _ => .bind fun _ => .pure (List.forall_mem_append.mpr
    ⟨fun draft hdraft => ?_, fun draft hdraft => ?_⟩)
  · obtain ⟨hole, -, rfl⟩ := List.mem_map.mp hdraft
    exact isDraft_centermark ..
  · obtain ⟨pair, -, rfl⟩ := List.mem_map.mp hdraft
    exact isDraft_centerline ..

theorem isDraft_table : Gives (tableDrafts profile style measured) fun drafts => ∀ draft ∈ drafts, IsDraft draft := by
  rw [tableDrafts]
  refine .ite (fun drafts h draft hdraft => ?_) (.pure (List.forall_mem_nil _))
  have hall := Gives.mapM (R := fun _ draft => IsDraft draft)
    (fun group _ => .bind fun layer => .pure (isDraft_tableRow style layer group.2 measured.box group.1)) drafts h
  obtain ⟨group, -, hrow⟩ := Fallible.mem_of_forall₂ hall hdraft
  exact hrow

theorem isDraft_titleBlocks :
    Gives (titleBlockDrafts profile spec style) fun drafted => ∀ draft ∈ drafted.1, IsDraft draft := by
  rw [titleBlockDrafts]
  split
  · exact .pure (List.forall_mem_nil _)
  · refine .bind_of (Gives.mapM (R := fun _ draft => IsDraft draft)
      fun v _ => .bind fun layer => .pure (isDraft_titleBlock style layer v.2 v.1.1 v.1.2)) fun drafts hall => .pure ?_
    intro draft hdraft
    obtain ⟨v, -, hfield⟩ := Fallible.mem_of_forall₂ hall hdraft
    exact hfield

theorem isDraft_gdt : Gives (gdtDrafts profile spec style) fun drafts => ∀ draft ∈ drafts, IsDraft draft := by
  rw [gdtDrafts]
  refine .bind fun layer => .pure (List.forall_mem_append.mpr ⟨fun draft hdraft => ?_, fun draft hdraft => ?_⟩)
  · obtain ⟨symbol, -, rfl⟩ := List.mem_map.mp hdraft
    exact isDraft_datumSymbol ..
  · obtain ⟨frame, -, rfl⟩ := List.mem_map.mp hdraft
    exact isDraft_controlFrame ..

theorem isDraft_measured : Gives (measuredDrafts profile tolerance operations datum style)
    fun drafted => ∀ draft ∈ drafted.1, IsDraft draft := by
  rw [measuredDrafts]
  refine .bind fun dimstyle => .bind fun layer => .bind fun measured =>
    .bind_of (isDraft_dimensions _ _ _ _ _) fun dimensions hdimensions =>
    .bind_of (isDraft_centers _ _ _) fun centers hcenters => .bind_of (isDraft_table _ _ _) fun table htable => .pure ?_
  exact List.forall_mem_append.mpr ⟨List.forall_mem_append.mpr ⟨hdimensions, hcenters⟩, htable⟩

theorem areForms_annotate :
    Gives (annotate profile tolerance operations spec datum) fun result => AreForms result.operations := by
  have hdrafts : Gives (draftAnnotations profile tolerance operations spec datum)
      fun drafted => ∀ draft ∈ drafted.drafts, IsDraft draft := by
    rw [draftAnnotations]
    refine .ite (.pure (List.forall_mem_nil _)) (.bind fun name => .bind fun heightMm => ?_)
    refine .ite (.bind_of (isDraft_measured _ _ _ _ _) fun measured hmeasured => ?_)
      (.bind_of (q := fun drafted => ∀ draft ∈ drafted.1, IsDraft draft) (.pure (List.forall_mem_nil _))
        fun measured hmeasured => ?_)
    all_goals
      refine .bind_of (isDraft_titleBlocks _ _ _) fun titleBlock htitle => .bind_of (isDraft_gdt _ _ _) fun gdt hgdt =>
        .pure ?_
      exact List.forall_mem_append.mpr ⟨List.forall_mem_append.mpr ⟨hmeasured, htitle⟩, hgdt⟩
  rw [annotate]
  exact .bind_of hdrafts fun drafted h => .pure (areForms_placeDrafts _ _ h _)

end

/-! ## Compiled plans -/

theorem areForms_compile (service : PlanCompilerService) (spec : DrawingSpec) (jobId expectedRevision : String) :
    Gives (service.compile spec jobId expectedRevision)
      fun result => ∀ plan ∈ result.plan, AreForms plan.operations := by
  rw [PlanCompilerService.compile]
  refine .bind fun _ => .bind fun _ => .ite (.pure fun plan hplan => by cases hplan) ?_
  refine .bind_of (Gives.mapM fun feature _ => areForms_topLevel feature (service.context spec) service)
    fun compiled hcompiled => ?_
  have hall : ∀ c ∈ compiled, AreForms c.operations := by
    intro c hc
    obtain ⟨feature, -, hforms⟩ := Fallible.mem_of_forall₂ hcompiled hc
    exact hforms
  refine .bind_of (areForms_geometry service spec hall) fun geometry hgeometry => ?_
  refine .bind_of (areForms_annotate _ _ _ _ _) fun annotation hannotation => ?_
  refine .ite (.pure fun plan hplan => by cases hplan) ?_
  dsimp only
  split
  · refine .bind fun _ => .pure fun plan hplan => ?_
    cases hplan
    exact hgeometry.append hannotation
  · refine .pure fun plan hplan => ?_
    cases hplan
    exact hgeometry.append hannotation

theorem renderable_of_compile {service : PlanCompilerService} {spec : DrawingSpec} {jobId expectedRevision : String}
    {plan : OperationPlan} (h : service.compile spec jobId expectedRevision = .ok { plan := some plan }) :
    ∀ operation ∈ plan.operations, Renderable operation :=
  fun operation ho =>
    renderable_of_isForm (areForms_compile service spec jobId expectedRevision _ h plan rfl operation ho)

/-- The preview of a compiled plan hides nothing when, and only when, the arcs do not turn around beyond the view box of
the named points and the texts need no escapes. -/
theorem hidesNothing_iff (service : PlanCompilerService) (spec : DrawingSpec) (jobId expectedRevision : String)
    {plan : OperationPlan} (h : service.compile spec jobId expectedRevision = .ok { plan := some plan })
    (separator : LineSeparator) (timestampMs randomness : Nat) :
    HidesNothing separator (newPlanId timestampMs randomness) plan ↔ IsPreviewable plan :=
  ⟨isPreviewable_of_hidesNothing (renderable_of_compile h), hidesNothing_of_isPreviewable (renderable_of_compile h)⟩

/-! ## A title block -/

def titleProfile : CompanyProfile where
  profileId := "profile"
  version := "1"
  textStyle := some "ISO"
  layers := ["TEXT"]
  layerMap := [("text", "TEXT")]
  annotationRules := { textHeightMm := some 3.5 }
  titleBlockFields := [{ name := "project" }]

def titleService : PlanCompilerService where
  profile := titleProfile
  tolerance := {}

/-- No features, and a title block with one text. -/
def titleSpec (project : String) : DrawingSpec where
  documentId := "drawing"
  annotations := { titleBlock := some "A4", titleBlockValues := [("project", project)] }

def titleText (project : String) : Draft :=
  titleBlockDraft ⟨"ISO", 3.5⟩ "TEXT" 0 "project" ⟨project, "drawing-spec", Domain.schemaVersion⟩

def titlePlan (project : String) : OperationPlan where
  jobId := "job"
  documentId := "drawing"
  expectedRevision := "revision"
  profileRef := titleProfile.asRef
  operations := placeDrafts (placementRules titleProfile) 3.5 [titleText project] []
  validationExpectations := (titleText project).expectations

theorem compile_titleSpec (project : String) (hstrip : Python.strip project = project) (hne : project ≠ "") :
    titleService.compile (titleSpec project) "job" "revision" = .ok { plan := some (titlePlan project) } := by
  have hvalue : titleBlockValue (titleSpec project) titleProfile { name := "project" } =
      some ⟨project, "drawing-spec", Domain.schemaVersion⟩ := by
    have hblank : nonBlank (some project) = some project := by
      rw [nonBlank, Option.map_some, hstrip, Option.filter_some, if_pos (by simpa using hne)]
    simp [titleBlockValue, titleSpec, hblank]
  have hvalues : resolveTitleBlock (titleSpec project) titleProfile =
      ([("project", ⟨project, "drawing-spec", Domain.schemaVersion⟩)], []) := by
    have hfields : titleProfile.titleBlockFields = [{ name := "project" }] := rfl
    simp [resolveTitleBlock, hfields, hvalue, Assoc.set]
  have hlayer : titleProfile.layerFor "text" = .ok "TEXT" := by simp [CompanyProfile.layerFor, titleProfile]
  have hdrafts : titleBlockDrafts titleProfile (titleSpec project) ⟨"ISO", 3.5⟩ = .ok ([titleText project], []) := by
    have hblock : (titleSpec project).annotations.titleBlock = some "A4" := rfl
    rw [titleBlockDrafts, hblock]
    simp [hvalues, hlayer, titleText, bind, Except.bind, pure, Except.pure]
  have hannotate : annotate titleProfile {} [] (titleSpec project) none =
      .ok ⟨(titlePlan project).operations, (titlePlan project).validationExpectations, []⟩ := by
    have hgdt : gdtDrafts titleProfile (titleSpec project) ⟨"ISO", 3.5⟩ = .ok [] := by
      rw [gdtDrafts, hlayer]
      rfl
    have hstyle : requiredText "text_style" titleProfile.textStyle = .ok "ISO" := by
      have hname : titleProfile.textStyle = some "ISO" := rfl
      rw [requiredText, hname, Option.filter_some, if_pos (by decide)]
      rfl
    rw [annotate, draftAnnotations, if_neg (by simp [hasNonDimensionAnnotations, titleSpec]), hstyle]
    have hheight : required "annotation_rules.text_height_mm" titleProfile.annotationRules.textHeightMm = .ok 3.5 := rfl
    simp [hheight, hdrafts, hgdt, titlePlan, bind, Except.bind, pure, Except.pure]
  have hreject : rejectRedundantStandaloneKeyways titleService.tolerance (titleSpec project) = .ok () := by
    simp [rejectRedundantStandaloneKeyways, titleSpec]
  have hfeatures : (titleSpec project).features = [] := rfl
  have hdatum : (titleService.context (titleSpec project)).datum = none := rfl
  have hgeometry : titleService.geometryOperations (titleSpec project) [] = .ok [] := by
    simp [PlanCompilerService.geometryOperations, titleSpec, bind, Except.bind, pure, Except.pure]
  rw [PlanCompilerService.compile, hreject, hfeatures, hdatum]
  simp only [Fallible.ok_bind, List.mapM_nil, pure, Except.pure, List.flatten_nil, ne_eq, not_true_eq_false, if_false,
    hgeometry]
  rw [show annotate titleService.profile titleService.tolerance [] (titleSpec project) none = _ from hannotate]
  rfl

theorem drawingOf_titleText {project : String} {operation : Plan.Operation}
    (h : operation ∈ (titlePlan project).operations) :
    operation.type = .createText ∧ ∃ position, drawingOf operation = .ok (.text position s!"project: {project}") := by
  have heq : operation = (titleText project).operation
      ((titleText project).placement (placementRules titleProfile) 3.5 []).1 := List.mem_singleton.mp h
  have hform : IsForm .createText operation.geometry := by
    rw [heq]
    exact isForm_draft (isDraft_titleBlock _ _ _ _ _) _ _ _
  obtain ⟨position, hposition⟩ := hform.point_entry "position_mm" (by decide) (by decide)
  have htype : operation.type = .createText := by rw [heq]; rfl
  have htext : View.textOf operation.geometry = .ok s!"project: {project}" := by rw [heq]; rfl
  refine ⟨htype, position, ?_⟩
  unfold drawingOf
  rw [htype]
  dsimp only
  rw [hposition, Fallible.ok_bind, pointItem_asTuple, Fallible.ok_bind, htext]
  rfl

theorem hidesNothing_plainTitle : HidesNothing .lineFeed (newPlanId 0 0) (titlePlan "Bracket") := by
  have hcompile := compile_titleSpec "Bracket" (by decide) (by decide)
  refine (hidesNothing_iff titleService (titleSpec "Bracket") "job" "revision" hcompile .lineFeed 0 0).mpr ⟨fun operation ho hcircle => ?_, fun operation ho center radius a b hdrawing => ?_,
    fun operation ho position text hdrawing => ?_⟩
  all_goals obtain ⟨htype, place, hplace⟩ := drawingOf_titleText ho
  · rw [IsCircle, htype] at hcircle
    simp at hcircle
  · rw [hplace] at hdrawing
    cases hdrawing
  · rw [hplace] at hdrawing
    cases hdrawing
    decide

/-- A text with an ampersand is not escaped. -/
theorem hides_ampersand : ¬ ∀ (service : PlanCompilerService) (spec : DrawingSpec) (jobId expectedRevision : String)
    (plan : OperationPlan), service.compile spec jobId expectedRevision = .ok { plan := some plan } →
    ∀ (separator : LineSeparator) (timestampMs randomness : Nat),
      HidesNothing separator (newPlanId timestampMs randomness) plan := by
  intro h
  have hcompile := compile_titleSpec "A & B" (by decide) (by decide)
  have hplain := isPreviewable_of_hidesNothing (renderable_of_compile hcompile)
    (h titleService (titleSpec "A & B") "job" "revision" _ hcompile .lineFeed 0 0)
  obtain ⟨operation, ho⟩ : ∃ operation, operation ∈ (titlePlan "A & B").operations := ⟨_, List.mem_cons_self⟩
  obtain ⟨-, position, hdrawing⟩ := drawingOf_titleText ho
  have hdata := hplain.texts operation ho position _ hdrawing
  revert hdata
  decide

end

end

end CadHarness.Preview
