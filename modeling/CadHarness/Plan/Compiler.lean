import CadHarness.Annotation.Engine
import CadHarness.Catalog.Registry

/-!
# The plan compiler

`cad_harness.application.services.plan_compiler`. The verification of a reviewed raster trace is a parameter, which
gives the candidates that the engineer has accepted.
-/

namespace CadHarness.Plan
open CadHarness.Catalog CadHarness.Annotation
open CadHarness.Geometry (BoundingBox KernelError Point2D Polyline2D ToleranceProfile)
open CadHarness.Domain (OperationType)
open CadHarness.Lib

/-! ## Accepted raster traces -/

inductive RasterGeometry where
  | line (startMm endMm : Point2D)
  | circle (centerMm : Point2D) (radiusMm : ℝ)
  | arc (centerMm : Point2D) (radiusMm startAngleDeg endAngleDeg : ℝ)
  | polyline (vertices : List Point2D) (closed : Bool)

/-- A candidate of a report whose identities were verified. -/
structure RasterVectorCandidate where
  /-- `digest[:24]` of the evidence -/
  digest : String
  digest_hex : ∀ c ∈ digest.toList, c ∈ "0123456789abcdef".toList
  geometry : RasterGeometry

def RasterVectorCandidate.candidateId (candidate : RasterVectorCandidate) : String :=
  s!"raster-candidate-{candidate.digest}"

structure RasterTraceService where
  /-- The candidates that a report, an acceptance, a token and a layer stand for, once they are verified. -/
  accepted : Value → Value → String → String → Except KernelError (List RasterVectorCandidate)

def acceptedRasterFeature : String := "_accepted_raster_trace"

noncomputable section
open Classical

/-- The type, the geometry and the expected values of a candidate's operation. -/
def candidateGeometry : RasterGeometry → Except KernelError (OperationType × Dict × Dict)
  | .line startMm endMm => .ok (.createLine, [("start_mm", startMm.asTuple), ("end_mm", endMm.asTuple)],
      [("length_mm", real (startMm.distanceTo endMm))])
  | .circle centerMm radiusMm => .ok (.createCircle,
      [("center_mm", centerMm.asTuple), ("diameter_mm", real (radiusMm * 2))],
      [("center_mm", centerMm.asTuple), ("radius_mm", real radiusMm), ("diameter_mm", real (radiusMm * 2))])
  | .arc centerMm radiusMm startAngleDeg endAngleDeg => .ok (.createArc,
      [("center_mm", centerMm.asTuple), ("radius_mm", real radiusMm), ("start_angle_deg", real startAngleDeg),
        ("end_angle_deg", real endAngleDeg)], [("radius_mm", real radiusMm)])
  | .polyline vertices true => .ok (.createClosedPolyline, [("vertices_mm", points vertices)],
      [("closed", .bool true), ("vertex_count", count vertices.length)])
  | .polyline _ false => .error (.harness .approvalScopeMismatch "Raster trace changed after engineer acceptance"
      (some "Regenerate the trace overlay and request a fresh acceptance") [])

/-- `accepted_operations` for one candidate -/
def candidateOperation (layer : String) (candidate : RasterVectorCandidate) : Except KernelError Plan.Operation := do
  let (type, geometry, expected) ← candidateGeometry candidate.geometry
  return { operationId := s!"op:raster:{candidate.digest}", featureId := candidate.candidateId,
           type, layer, geometry, expected }

/-! ## The service -/

/-- What the compiler asks of an adapter. -/
structure PreflightAdapter where
  adapterType : String
  supportedOperations : List OperationType

structure PlanCompilerService where
  profile : CompanyProfile
  tolerance : ToleranceProfile
  adapter : Option PreflightAdapter := none
  rasterTraceService : Option RasterTraceService := none

/-- Either a plan, or the inputs that are still needed. -/
structure CompilationResult where
  plan : Option OperationPlan := none
  missingInputs : List MissingInput := []

def isDict : Option Value → Bool
  | some (.obj _) => true
  | _ => false

/-- `isinstance(value, str) and bool(value.strip())` -/
def isNonBlankText : Option Value → Bool
  | some (.str text) => Python.strip text ≠ ""
  | _ => false

/-- `_parameter_number` -/
def parameterNumber : Option Value → Option ℝ
  | some (.num n) => some n.toReal
  | _ => none

/-- `_parameter_point` -/
def parameterPoint : Option Value → Option Point2D
  | some (.arr [.num x, .num y]) => some ⟨x.toReal, y.toReal⟩
  | _ => none

/-- The types that the adapter cannot map, in the order of their values. -/
def unsupportedOperations (adapter : PreflightAdapter) (plan : OperationPlan) : List OperationType :=
  sortBy OperationType.value ((plan.operations.map (·.type)).dedup.filter (· ∉ adapter.supportedOperations))

/-- `preflight` -/
def preflight (adapter : PreflightAdapter) (plan : OperationPlan) : Except KernelError Unit :=
  match unsupportedOperations adapter plan with
  | [] => .ok ()
  | first :: others => .error (.harness .adapterCapabilityMissing
      "The configured adapter cannot map every operation in the compiled plan"
      (some "Select a capable adapter or change the requested features")
      [("adapter_type", .value (.str adapter.adapterType)), ("operation_type", .value (.str first.value)),
        ("missing_operations", .paths ((first :: others).map OperationType.value))])

/-- A keyway that repeats the bore of a flange. -/
def IsRedundantKeyway (tolerance : ToleranceProfile) (flange keyway : FeatureSpec) : Prop :=
  ∃ flangeCenter flangeBore keywayCenter keywayBore,
    parameterPoint (flange.parameters.lookup "datum") = some flangeCenter ∧
    parameterNumber (flange.parameters.lookup "bore_diameter_mm") = some flangeBore ∧
    parameterPoint (keyway.parameters.lookup "center_mm") = some keywayCenter ∧
    parameterNumber (keyway.parameters.lookup "bore_diameter_mm") = some keywayBore ∧
    tolerance.LengthClose flangeBore keywayBore ∧ tolerance.IsCoincident (flangeCenter.distanceTo keywayCenter)

/-- `_reject_redundant_standalone_keyways` -/
def rejectRedundantStandaloneKeyways (tolerance : ToleranceProfile) (spec : DrawingSpec) : Except KernelError Unit :=
  let pairs := (spec.features.filter (·.type = "flange")).flatMap fun flange =>
    (spec.features.filter (·.type = "keyway")).map fun keyway => (flange, keyway)
  match pairs.find? fun pair => IsRedundantKeyway tolerance pair.1 pair.2 with
  | none => .ok ()
  | some (flange, keyway) => .error (.harness .invalidFeatureParameters
      "A standalone keyway duplicates this flange bore contour"
      (some ("Put keyway_width_mm and keyway_depth_mm on the flange, then remove " ++ "the standalone keyway feature"))
      [("flange_feature_id", .value (.str flange.featureId)), ("keyway_feature_id", .value (.str keyway.featureId))])

namespace PlanCompilerService

variable (service : PlanCompilerService)

/-- `_validate_accepted_raster` -/
def validateAcceptedRaster (feature : FeatureSpec) : List MissingInput :=
  let path := parameterPath feature.featureId
  let parameters := feature.parameters
  require service.rasterTraceService.isSome (path "raster_trace_service")
      "This harness instance has no local raster acceptance verifier" ["configured local RasterTraceService"] ++
    require (isDict (parameters.lookup "report")) (path "report") "The source-bound RasterTraceReport is required"
      ["RasterTraceReport object"] ++
    require (isDict (parameters.lookup "acceptance")) (path "acceptance")
      "The engineer's source-bound acceptance is required" ["RasterTraceAcceptance object"] ++
    require (isText (parameters.lookup "acceptance_token")) (path "acceptance_token")
      "The signed raster acceptance token is required" ["raster-v1 token from the Engineer Desktop or CLI"] ++
    require (isNonBlankText (parameters.lookup "layer")) (path "layer")
      "The engineer must explicitly choose the target layer" ["non-empty AutoCAD layer name"] ++
    require (feature.children.isEmpty && feature.modifiers.isEmpty) s!"features[{feature.featureId}]"
      "Accepted raster geometry cannot carry child features or outline modifiers"
      ["one flat source-bound raster feature"]

def incompleteRaster (missing : List MissingInput) : KernelError :=
  .harness .invalidFeatureParameters "Accepted raster draft is incomplete"
    (some "Create a fresh draft with cad_image_draft") [("missing_inputs", .paths (missing.map (·.path)))]

/-- `_compile_accepted_raster` -/
def compileAcceptedRaster (feature : FeatureSpec) : Except KernelError CompiledFeature :=
  let missing := service.validateAcceptedRaster feature
  let parameters := feature.parameters
  match service.rasterTraceService, missing, parameters.lookup "report", parameters.lookup "acceptance",
      parameters.lookup "acceptance_token", parameters.lookup "layer" with
  | some raster, [], some report, some acceptance, some (.str token), some (.str layer) => do
      let candidates ← raster.accepted report acceptance token layer
      return { featureId := feature.featureId, operations := ← candidates.mapM (candidateOperation layer) }
  | _, _, _, _, _, _ => .error (incompleteRaster missing)

def placeholderBox : BoundingBox := ⟨0, 0, 1, 1⟩

def placeholderOutline : Polyline2D where
  vertices := [⟨0, 0⟩, ⟨1, 0⟩, ⟨1, 1⟩, ⟨0, 1⟩]
  closed := true
  two_le := by simp

mutual
/-- `_collect_missing` -/
def collectMissing : FeatureSpec → CompileContext → Except KernelError (List MissingInput)
  | .mk featureId type parameters modifiers children, context => do
      let feature : FeatureSpec := .mk featureId type parameters modifiers children
      let missing ←
        if type = acceptedRasterFeature then pure (service.validateAcceptedRaster feature)
        else do missingInputs (← getCompiler type) feature context
      return missing ++ (← collectChildren children (context.forChild featureId placeholderBox placeholderOutline))

def collectChildren : List FeatureSpec → CompileContext → Except KernelError (List MissingInput)
  | [], _ => .ok []
  | child :: children, context => do
      return (← collectMissing child context) ++ (← collectChildren children context)
end

def context (spec : DrawingSpec) : CompileContext where
  profile := service.profile
  tolerance := service.tolerance
  datum := spec.datum.map fun p => ⟨p.1, p.2⟩

/-- A feature of the specification, not of another feature. -/
def compileTopLevel (context : CompileContext) (feature : FeatureSpec) : Except KernelError CompiledFeature :=
  if feature.type = acceptedRasterFeature then service.compileAcceptedRaster feature
  else compileFeature feature context

/-- The center entities that the annotation engine owns. -/
def IsCenterEntity (operation : Plan.Operation) : Prop :=
  operation.type = .createCentermark ∨ operation.type = .createCenterline

/-- The geometry operations of a plan: once for each view, if there are views. -/
def geometryOperations (spec : DrawingSpec) (compiled : List CompiledFeature) :
    Except KernelError (List Plan.Operation) := do
  let operations := compiled.flatMap (·.operations)
  let placed ←
    if spec.views.isEmpty then pure operations
    else placeViews operations spec.views service.profile
  return placed.filter fun operation => ¬ IsCenterEntity operation

/-- `compile` -/
def compile (spec : DrawingSpec) (jobId expectedRevision : String) : Except KernelError CompilationResult := do
  let context := service.context spec
  rejectRedundantStandaloneKeyways service.tolerance spec
  let missing := (← spec.features.mapM fun feature => service.collectMissing feature context).flatten
  if missing ≠ [] then return { missingInputs := missing } else do
  let compiled ← spec.features.mapM (service.compileTopLevel context)
  let geometry ← service.geometryOperations spec compiled
  let annotation ← annotate service.profile service.tolerance geometry spec context.datum
  if annotation.missingInputs ≠ [] then return { missingInputs := annotation.missingInputs } else do
  let plan : OperationPlan := {
    jobId, documentId := spec.documentId, expectedRevision, profileRef := service.profile.asRef
    operations := geometry ++ annotation.operations
    validationExpectations := compiled.flatMap (·.expectations) ++ annotation.expectations }
  match service.adapter with
  | some adapter => preflight adapter plan
  | none => pure ()
  return { plan := some plan }

end PlanCompilerService

end

end CadHarness.Plan
