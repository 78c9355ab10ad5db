import CadHarness.Catalog.Registry
import CadHarness.Geometry.Theorems
import CadHarness.Lib.Fallible

/-!
# What the compilers compile to

One case for each compiler, with what its checks leave true of the numbers in it.
-/

namespace CadHarness.Catalog
open CadHarness.Geometry (Circle2D KernelError Point2D Polyline2D)
open CadHarness.Plan
open CadHarness.Lib

noncomputable section
open Classical

variable {featureId : String} {feature : FeatureSpec} {parameters : Dict} {context : CompileContext}
  {compiled : CompiledFeature} {compiler : Compiler}

/-- The operations are centermarks. -/
def AreCentermarks (operations : List Plan.Operation) : Prop := ∀ operation ∈ operations, operation.type = .createCentermark

/-- The expectation of a keyed contour. -/
def keywayExpectation (featureId suffix : String) (expected : Dict) : Plan.ValidationExpectation where
  ruleId := "KEYWAY_GEOMETRY"
  featureId := some featureId
  operationId := some (operationId featureId suffix)
  expected

/-- The bore of a flange. -/
inductive BoreResult (featureId : String) (center : Point2D) (boreDiameter : ℝ) :
    Plan.Operation → List Plan.ValidationExpectation → Prop
  | keyed (layer : String) (outline : Polyline2D) (width depth : ℝ) (expected : Dict) :
      BoreResult featureId center boreDiameter
        (outlineOperation featureId "keyed-bore" layer outline
          [("closed", .bool true), ("area_mm2", real outline.area), ("bore_diameter_mm", real boreDiameter),
            ("keyway_width_mm", real width), ("keyway_depth_mm", real depth)])
        [keywayExpectation featureId "keyed-bore" expected]
  | plain (layer : String) (hpos : 0 < boreDiameter) :
      BoreResult featureId center boreDiameter
        (circleOperation featureId "bore" layer center boreDiameter
          [("diameter_mm", real boreDiameter), ("center_mm", center.asTuple)]) []

/-- An expectation about an operation of the feature. -/
def expectation (ruleId featureId suffix : String) (expected : Dict) : Plan.ValidationExpectation where
  ruleId
  featureId := some featureId
  operationId := some (operationId featureId suffix)
  expected

/-- What a compiler without children compiles a feature to. -/
inductive LeafResult (featureId : String) (parent : Option String) : Compiler → CompiledFeature → Prop
  | plate (plate : CompiledPlate) : LeafResult featureId parent .rectangularPlate plate.compiled
  | pattern (compiler : Compiler) (hcompiler : compiler ∈ [.rectangularHolePattern, .boltCirclePattern, .linearHolePattern])
      (layer : String) (centers : List Point2D) (hne : centers ≠ []) (diameter : ℝ) (marks : List Plan.Operation)
      (hmarks : AreCentermarks marks) (ruleId : String) (expected : Dict) :
      LeafResult featureId parent compiler
        ⟨featureId, circlesOperation featureId "holes" layer centers (count centers.length) diameter :: marks,
          [expectation ruleId featureId "holes" expected]⟩
  | flange (outline layer : String) (center : Point2D) (outerDiameter boreDiameter holeDiameter : ℝ)
      (houter : 0 < outerDiameter) (bore : Plan.Operation) (boreExpectations : List Plan.ValidationExpectation)
      (hbore : BoreResult featureId center boreDiameter bore boreExpectations) (centers : List Point2D)
      (hne : centers ≠ []) (clearance onCircle : Dict) :
      LeafResult featureId parent .flange
        ⟨featureId,
          [circleOperation featureId "outer" outline center outerDiameter
            [("diameter_mm", real outerDiameter), ("center_mm", center.asTuple)],
            bore,
            circlesOperation featureId "bolt-holes" layer centers (count centers.length) holeDiameter],
          [expectation "FLANGE_OUTER_DIAMETER_CLEARANCE" featureId "outer" clearance,
            expectation "FLANGE_HOLES_ON_PCD" featureId "bolt-holes" onCircle] ++ boreExpectations⟩
  | bracket (layer : String) (outline : Polyline2D) (legA legB thickness : ℝ) (expected : Dict) :
      LeafResult featureId parent .lBracket
        ⟨featureId,
          [outlineOperation featureId "outline" layer outline
            [("closed", .bool true), ("leg_a_mm", real legA), ("leg_b_mm", real legB), ("thickness_mm", real thickness),
              ("area_mm2", real outline.area)]],
          [expectation "LBRACKET_LEG_PERPENDICULARITY" featureId "outline" expected]⟩
  | slot (layer : String) (width : ℝ) (outline : Geometry.SlotOutline) (right left : Point2D) (a b c d : ℝ)
      (hwidth : 0 < width) :
      LeafResult featureId parent .slot
        ⟨featureId,
          (Geometry.slotOperations featureId layer width outline (.arc right (width / 2) a b)
            (.arc left (width / 2) c d)).map planOperation,
          [{ ruleId := "SLOT_ARC_TANGENCY", featureId := some featureId
             expected := expectedDict (Geometry.slotExpectation featureId).expected }]⟩
  | keyway (layer : String) (outline : Polyline2D) (expected : Dict) :
      LeafResult featureId parent .keyway
        ⟨featureId,
          [outlineOperation featureId "contour" layer outline
            [("closed", .bool true), ("area_mm2", real outline.area), ("parent_feature_id", optional parent)]],
          [expectation "KEYWAY_GEOMETRY" featureId "contour" expected]⟩
  | cutout (compiler : Compiler) (hcompiler : compiler ∈ [.cornerNotch, .edgeCutout]) (layer : String)
      (outline : Polyline2D) (expected : Dict) :
      LeafResult featureId parent compiler
        ⟨featureId,
          [outlineOperation featureId "modified-outline" layer outline
            [("closed", .bool true), ("area_mm2", real outline.area), ("parent_feature_id", optional parent)]],
          [expectation "BOUNDARY_CUTOUT_AREA" featureId "modified-outline" expected]⟩
  | referenceCircle (layer : String) (center : Point2D) (radius : ℝ) (hpos : 0 < radius) (expected : Dict) :
      LeafResult featureId parent .referenceCircle
        ⟨featureId,
          [circleOperation featureId "circle" layer center (radius * 2)
            [("layer", .str layer), ("center_mm", center.asTuple), ("radius_mm", real radius),
              ("diameter_mm", real (radius * 2)), ("area_mm2", real (Real.pi * radius * radius))]],
          [expectation "REFERENCE_CIRCLE_GEOMETRY" featureId "circle" expected]⟩

theorem normalizeCircle_ok {center : Point2D} {radius : ℝ} {curve : Geometry.CurveParams}
    (h : Geometry.normalizeCircle center radius = .ok curve) :
    curve.center = center ∧ curve.maximumRadiusMm = radius ∧ 0 < radius := by
  have hf := Geometry.CurveFields.checked_ok h
  have hr : curve.radiusMm = some radius := by rw [hf]
  exact ⟨by rw [hf], by rw [Geometry.CurveParams.maximumRadiusMm, hr]; rfl, curve.radius_pos hr⟩

theorem boreOperation_ok {center : Point2D} {boreDiameter : ℝ} {operation : Plan.Operation}
    {expectations : List Plan.ValidationExpectation}
    (h : boreOperation featureId parameters context center boreDiameter = .ok (operation, expectations)) :
    BoreResult featureId center boreDiameter operation expectations := by
  rw [boreOperation] at h
  split at h
  · simp only [Fallible.bind_eq_ok, Fallible.pure_eq_ok, Prod.mk.injEq] at h
    obtain ⟨width, -, depth, -, keyed, hkeyed, layer, -, rfl, rfl⟩ := h
    exact .keyed layer keyed.previewOutline keyed.keyWidthMm keyed.keyDepthMm _
  · simp only [Fallible.bind_eq_ok, Fallible.pure_eq_ok, Prod.mk.injEq] at h
    obtain ⟨curve, hcurve, layer, -, rfl, rfl⟩ := h
    obtain ⟨rfl, hradius, hpos⟩ := normalizeCircle_ok hcurve
    have hdiameter : curve.maximumRadiusMm * 2 = boreDiameter := by
      rw [hradius]
      ring
    rw [hdiameter]
    exact .plain layer (by linarith)

theorem areCentermarks_requested {centers : List Point2D} {marks : List Plan.Operation}
    (h : requestedCentermarks featureId parameters context centers = .ok marks) : AreCentermarks marks := by
  rw [requestedCentermarks] at h
  split at h
  · simp only [Fallible.bind_eq_ok, Fallible.pure_eq_ok] at h
    obtain ⟨layer, -, rfl⟩ := h
    intro operation hoperation
    obtain ⟨center, -, rfl⟩ := List.mem_map.mp hoperation
    rfl
  · cases h
    intro operation hoperation
    cases hoperation

theorem boltCircle_ok {center : Point2D} {pcd start : ℝ} {holes : ℤ} {clockwise : Bool} {centers : List Point2D}
    (h : Geometry.boltCircle center pcd holes start clockwise = .ok centers) :
    centers ≠ [] ∧ (centers.length : ℤ) = holes := by
  rw [Geometry.boltCircle] at h
  split at h
  · cases h
  split at h
  · cases h
  · rename_i hcount
    cases h
    have hpos : 0 < holes.toNat := by omega
    refine ⟨List.ne_nil_of_length_pos ?_, ?_⟩ <;> simp <;> omega

theorem linearPattern_ok {start : Point2D} {direction : ℝ × ℝ} {pitch : ℝ} {holes : ℤ} {centers : List Point2D}
    (h : Geometry.linearPattern start direction pitch holes = .ok centers) :
    centers ≠ [] ∧ (centers.length : ℤ) = holes := by
  rw [Geometry.linearPattern] at h
  split at h
  · cases h
  split at h
  · cases h
  simp only at h
  split at h
  · cases h
  · cases h
    have hpos : 0 < holes.toNat := by omega
    refine ⟨List.ne_nil_of_length_pos ?_, ?_⟩ <;> simp <;> omega

theorem rectangularGrid_ok {origin : Point2D} {countX countY : ℤ} {pitchX pitchY : ℝ} {centers : List Point2D}
    (h : Geometry.rectangularGrid origin countX countY pitchX pitchY = .ok centers) : centers ≠ [] := by
  rw [Geometry.rectangularGrid] at h
  split at h
  · cases h
  split at h
  · cases h
  · rename_i hcount _
    cases h
    have hx : 0 < countX := by omega
    have hy : 0 < countY := by omega
    simp
    exact ⟨⟨0, hy⟩, 0, hx⟩

end

end CadHarness.Catalog

/-!
## Reading back the points of operations

What the compilers write into the geometry of an operation reads back as the same points.
-/

namespace CadHarness.Catalog
open CadHarness.Geometry CadHarness.Plan
open CadHarness.Lib

variable (featureId suffix layer : String) (centers : List Point2D) (n : Value) (diameterMm : ℝ) (outline : Polyline2D)
  (expected : Dict)

theorem entry_eq_ok {geometry : Dict} {key : String} {value : Value} :
    entry geometry key = .ok value ↔ geometry.lookup key = some value := by
  rw [entry]
  cases geometry.lookup key <;> simp

@[simp] theorem float_real (x : ℝ) : float (real x) = .ok x := rfl

@[simp] theorem pointItem_asTuple (p : Point2D) : pointItem p.asTuple = .ok p := rfl

@[simp] theorem pointItems_map_asTuple (l : List Point2D) : pointItems (l.map Point2D.asTuple) = .ok l := by
  rw [pointItems, List.mapM_map]
  simpa using Fallible.mapM_ok (f := pointItem ∘ Point2D.asTuple) (g := id) fun p _ => pointItem_asTuple p

theorem geometryPoints_points (key : String) (others : Dict) :
    geometryPoints ((key, points centers) :: others) key = .ok centers := by
  simp [geometryPoints, points]

@[simp] theorem geometryPoints_circles :
    geometryPoints (circlesOperation featureId suffix layer centers n diameterMm).geometry "centers_mm" = .ok centers :=
  geometryPoints_points _ _ _

@[simp] theorem geometryPoints_outline :
    geometryPoints (outlineOperation featureId suffix layer outline expected).geometry "vertices_mm" =
      .ok outline.vertices :=
  geometryPoints_points _ _ _

theorem checked_vertices (h : outline.closed = true) : Polyline2D.checked outline.vertices true = .ok outline := by
  rw [Polyline2D.checked, dif_pos outline.two_le, ← h]

end CadHarness.Catalog
