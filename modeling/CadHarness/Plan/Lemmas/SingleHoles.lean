import CadHarness.Lib.Fallible
import CadHarness.Plan.Compiler

/-!
# Specifications of single holes

A specification whose features are patterns of one hole each, at any places.
-/

namespace CadHarness.Plan
open CadHarness.Catalog CadHarness.Annotation
open CadHarness.Geometry (KernelError Point2D rectangularGrid)
open CadHarness.Lib

noncomputable section
open Classical

structure SingleHole where
  featureId : String
  diameterMm : ℝ
  center : Point2D

namespace SingleHole

variable (hole : SingleHole)

def parameters : Dict :=
  [("hole_diameter_mm", real hole.diameterMm), ("count_x", count 1), ("count_y", count 1), ("pitch_x_mm", real 1),
    ("pitch_y_mm", real 1), ("edge_offset_x_mm", real hole.center.x), ("edge_offset_y_mm", real hole.center.y)]

def feature : FeatureSpec := .mk hole.featureId "rectangular_hole_pattern" hole.parameters [] []

def operation (layer : String) : Operation :=
  circlesOperation hole.featureId "holes" layer [hole.center] (count 1) hole.diameterMm

def expectation : ValidationExpectation where
  ruleId := "GEO-HOLE-PATTERN-GRID"
  featureId := some hole.featureId
  operationId := some (operationId hole.featureId "holes")
  expected := [("count", count 1), ("diameter_mm", real hole.diameterMm), ("pitch_x_mm", real 1),
    ("pitch_y_mm", real 1), ("centers_mm", points [hole.center]), ("parent_feature_id", .null)]

def compiled (layer : String) : CompiledFeature where
  featureId := hole.featureId
  operations := [hole.operation layer]
  expectations := [hole.expectation]

theorem missingInputs_eq (context : CompileContext) :
    missingGridInputs hole.featureId hole.parameters context = .ok [] := by
  simp [missingGridInputs, parameters, number, get, Assoc.lookup_cons, bothNumbers, require, isInteger, count, real,
    bind, Except.bind, pure, Except.pure]

/-- A top-level pattern is placed by its offsets from the origin. -/
theorem compileFeature_eq {context : CompileContext} {layer : String} (hlayer : context.layerFor "hole" = .ok layer)
    (hparent : context.parentFeatureId = none) (hbox : context.parentBox = none) (hdatum : context.datum = none) :
    compileFeature hole.feature context = .ok (hole.compiled layer) := by
  have hcompiler : getCompiler "rectangular_hole_pattern" = .ok .rectangularHolePattern := by
    simp [getCompiler, supportedTypes, internalTypes, Assoc.lookup_cons]
  rw [feature, compileFeature, hcompiler]
  change compileRectangularHolePattern hole.featureId hole.parameters context = _
  rw [compileRectangularHolePattern, hole.missingInputs_eq]
  simp [parameters, number, get, entry, Assoc.lookup_cons, complete, count, real, float, Catalog.int, resolveGrid,
    rectangularGrid, requestedCentermarks, truth, Number.toReal, hlayer, hparent, hbox, hdatum, compiled, operation,
    expectation, Plan.optional, bind, Except.bind, pure, Except.pure]

end SingleHole

/-- A specification of single holes alone. -/
structure DrawingSpec.IsHoles (spec : DrawingSpec) (holes : List SingleHole) : Prop where
  features : spec.features = holes.map SingleHole.feature
  views : spec.views = []
  datum : spec.datum = none
  dimensions : spec.annotations.dimensions = .none
  others : hasNonDimensionAnnotations spec.annotations = false

/-- The plan of such a specification. -/
def holesPlan (profile : CompanyProfile) (spec : DrawingSpec) (jobId expectedRevision layer : String)
    (holes : List SingleHole) : OperationPlan where
  jobId
  documentId := spec.documentId
  expectedRevision
  profileRef := profile.asRef
  operations := holes.map (·.operation layer)
  validationExpectations := holes.map SingleHole.expectation

namespace PlanCompilerService

variable {service : PlanCompilerService} {spec : DrawingSpec} {holes : List SingleHole} {layer : String}

theorem collectMissing_hole (hole : SingleHole) (context : CompileContext) :
    service.collectMissing hole.feature context = .ok [] := by
  have hcompiler : getCompiler "rectangular_hole_pattern" = .ok .rectangularHolePattern := by
    simp [getCompiler, supportedTypes, internalTypes, Assoc.lookup_cons]
  rw [SingleHole.feature, collectMissing, if_neg (by decide), hcompiler]
  simp [missingInputs, FeatureSpec.featureId, FeatureSpec.parameters, hole.missingInputs_eq, collectChildren, bind,
    Except.bind, pure, Except.pure]

theorem rejectRedundantStandaloneKeyways_holes (h : spec.IsHoles holes) :
    rejectRedundantStandaloneKeyways service.tolerance spec = .ok () := by
  have hflanges : spec.features.filter (·.type = "flange") = [] := by
    rw [h.features, List.filter_eq_nil_iff]
    intro feature hfeature
    obtain ⟨hole, -, rfl⟩ := List.mem_map.mp hfeature
    simp [SingleHole.feature, FeatureSpec.type]
  rw [rejectRedundantStandaloneKeyways, hflanges]
  rfl

theorem operations_compiled (holes : List SingleHole) :
    (holes.map (·.compiled layer)).flatMap (·.operations) = holes.map (·.operation layer) := by
  rw [List.flatMap_map, List.map_eq_flatMap]
  rfl

theorem expectations_compiled (holes : List SingleHole) :
    (holes.map (·.compiled layer)).flatMap (·.expectations) = holes.map SingleHole.expectation := by
  rw [List.flatMap_map, List.map_eq_flatMap]
  rfl

theorem geometryOperations_holes (h : spec.IsHoles holes) :
    service.geometryOperations spec (holes.map (·.compiled layer)) = .ok (holes.map (·.operation layer)) := by
  have hkept : (holes.map (·.operation layer)).filter (fun operation => ¬ IsCenterEntity operation) =
      holes.map (·.operation layer) := by
    rw [List.filter_eq_self]
    intro operation hoperation
    obtain ⟨hole, -, rfl⟩ := List.mem_map.mp hoperation
    simp [IsCenterEntity, SingleHole.operation, circlesOperation]
  rw [geometryOperations, operations_compiled, h.views, List.isEmpty_nil, if_pos rfl]
  exact congrArg Except.ok hkept

theorem annotate_holes (h : spec.IsHoles holes) (operations : List Operation) (datum : Option Point2D) :
    annotate service.profile service.tolerance operations spec datum = .ok {} := by
  have hdrafted : draftAnnotations service.profile service.tolerance operations spec datum = .ok {} := by
    rw [draftAnnotations, if_pos ⟨h.dimensions, by simp [h.others]⟩]
  rw [annotate, hdrafted]
  rfl

/-- The plan has one operation for each hole. -/
theorem compile_holes (h : spec.IsHoles holes) (hadapter : service.adapter = none)
    (hlayer : service.profile.layerFor "hole" = .ok layer) (jobId expectedRevision : String) :
    service.compile spec jobId expectedRevision =
      .ok { plan := some (holesPlan service.profile spec jobId expectedRevision layer holes) } := by
  have hmissing : (spec.features.mapM fun feature => service.collectMissing feature (service.context spec)) =
      .ok (holes.map fun _ => []) := by
    rw [h.features, List.mapM_map]
    exact Fallible.mapM_ok fun hole _ => collectMissing_hole hole _
  have hcompiled : spec.features.mapM (service.compileTopLevel (service.context spec)) =
      .ok (holes.map (·.compiled layer)) := by
    rw [h.features, List.mapM_map]
    apply Fallible.mapM_ok
    intro hole _
    rw [Function.comp, compileTopLevel, if_neg (by simp [SingleHole.feature, FeatureSpec.type, acceptedRasterFeature])]
    exact hole.compileFeature_eq hlayer rfl rfl (by simp [context, h.datum])
  rw [compile, rejectRedundantStandaloneKeyways_holes h, hmissing, hcompiled, hadapter]
  simp only [Fallible.ok_bind, geometryOperations_holes h, annotate_holes h, expectations_compiled, holesPlan]
  simp [pure, Except.pure]

end PlanCompilerService

end

end CadHarness.Plan
