import CadHarness.Geometry.Contours
import CadHarness.Geometry.Patterns

/-!
# Operations of the compilers

`cad_harness.feature_catalog.slot.compiler`, `cad_harness.feature_catalog.recognized.compiler` and the arc of
`RemediationService._rebuild_fillet`. The parameters of a slot are read from their dictionary already; the
layer map of the profile is a function.
-/

namespace CadHarness.Geometry

inductive OperationType where
  | createLine
  | createArc
  | createCircle
  deriving DecidableEq

inductive OperationGeometry where
  | line (startMm endMm : Point2D)
  | arc (centerMm : Point2D) (radiusMm startAngleDeg endAngleDeg : ℝ)
  | circle (centerMm : Point2D) (diameterMm : ℝ)

inductive Expected where
  | number (value : ℝ)
  | text (value : String)
  | texts (values : List String)
  | flag (value : Bool)

structure Operation where
  operationId : String
  featureId : String
  type : OperationType
  layer : String
  geometry : OperationGeometry
  expected : List (String × Expected)

structure ValidationExpectation where
  ruleId : String
  featureId : String
  expected : List (String × Expected)

structure CompiledFeature where
  featureId : String
  operations : List Operation
  expectations : List ValidationExpectation := []

/-- What a slot or an outline is compiled with: the layers of the profile and the datum of the drawing. -/
structure CompileContext where
  layerFor : String → Except KernelError String
  datum : Option Point2D := none

/-- The parameters of a slot that were given. -/
structure SlotParameters where
  lengthMm : Option ℝ := none
  widthMm : Option ℝ := none
  centerMm : Option Point2D := none
  angleDeg : Option ℝ := none

def operationId (featureId suffix : String) : String := s!"op:{featureId}:{suffix}"

noncomputable section
open Classical

/-- `_arc_geometry` of the slot, `_curve_geometry` of the remediation -/
def arcGeometry (c : CurveParams) : Except KernelError OperationGeometry :=
  match c.radiusMm with
  | none => .error .assertionError
  | some radius => .ok (.arc c.center radius c.startAngleDeg c.endAngleDeg)

/-! ## Slot -/

/-- The paths that `validate_inputs` reports as missing. -/
def missingSlotInputs (featureId : String) (parameters : SlotParameters) (context : CompileContext) : List String :=
  let path := fun key => s!"features[{featureId}].parameters.{key}"
  (if parameters.lengthMm.isSome then [] else [path "length_mm"]) ++
    (if parameters.widthMm.isSome then [] else [path "width_mm"]) ++
    if parameters.centerMm.isSome ∨ context.datum.isSome then [] else [path "center_mm"]

/-- The operations of a slot whose arcs are built. -/
def slotOperations (featureId layer : String) (widthMm : ℝ) (outline : SlotOutline)
    (rightGeometry leftGeometry : OperationGeometry) : List Operation :=
  let flank := fun suffix (start endPoint : Point2D) =>
    { operationId := operationId featureId suffix, featureId, type := .createLine, layer
      geometry := .line start endPoint
      expected := [("length_mm", .number (start.distanceTo endPoint))] : Operation }
  let endArc := fun suffix geometry =>
    { operationId := operationId featureId suffix, featureId, type := .createArc, layer, geometry
      expected := [("radius_mm", .number (widthMm / 2)), ("sweep_deg", .number 180)] : Operation }
  [flank "top-flank" outline.topLeft outline.topRight, endArc "right-arc" rightGeometry,
    flank "bottom-flank" outline.bottomRight outline.bottomLeft, endArc "left-arc" leftGeometry]

/-- The expectation that flanks and end arcs are tangent. -/
def slotExpectation (featureId : String) : ValidationExpectation where
  ruleId := "SLOT_ARC_TANGENCY"
  featureId := featureId
  expected := [("line_operation_ids", .texts [operationId featureId "top-flank", operationId featureId "bottom-flank"]),
    ("arc_operation_ids", .texts [operationId featureId "right-arc", operationId featureId "left-arc"]),
    ("tangent_angle_deg", .number 90)]

/-- `SlotCompiler.compile` -/
def compileSlot (featureId : String) (parameters : SlotParameters) (context : CompileContext) :
    Except KernelError CompiledFeature :=
  match parameters.lengthMm, parameters.widthMm, parameters.centerMm.or context.datum with
  | some length, some width, some center => do
      let outline ← slotOutline center length width (parameters.angleDeg.getD 0)
      let (right, left) ← slotEndArcs outline width
      let layer ← context.layerFor "outline"
      let rightGeometry ← arcGeometry right
      let leftGeometry ← arcGeometry left
      return { featureId, operations := slotOperations featureId layer width outline rightGeometry leftGeometry
               expectations := [slotExpectation featureId] }
  | _, _, _ =>
      .error (.harness .missingRequiredInputs "Slot cannot be compiled while required inputs are missing"
        (some "Supply every missing slot input and resubmit the spec")
        [("missing_inputs", .paths (missingSlotInputs featureId parameters context))])

/-! ## Recognized outlines -/

/-- `_edge_operation` -/
def edgeOperation (featureId : String) (index : Nat) (record : EdgeRecord) (layer : String) :
    Except KernelError Operation :=
  let operationId := operationId featureId s!"source-edge-{index}"
  match record.edge with
  | .line edge =>
      .ok { operationId, featureId, type := .createLine, layer, geometry := .line edge.start edge.endPoint
            expected := [("source_entity_ref", .text record.entityRef)] }
  | .curve c =>
      match c.radiusMm with
      | none => .error .assertionError
      | some radius =>
          let expected := [("source_entity_ref", .text record.entityRef), ("radius_mm", .number radius)]
          if c.IsFull then
            .ok { operationId, featureId, type := .createCircle, layer
                  geometry := .circle c.center (radius * 2), expected }
          else
            .ok { operationId, featureId, type := .createArc, layer
                  geometry := .arc c.center radius c.startAngleDeg c.endAngleDeg, expected }

/-- `RecognizedPartOutlineCompiler.compile` on the edges of its selection, which is not a circle -/
def compileOutline (featureId : String) (edges : List EdgeRecord) (context : CompileContext) :
    Except KernelError CompiledFeature := do
  let operations ← edges.zipIdx.mapM fun (record, index) => do
    edgeOperation featureId index record (← context.layerFor "outline")
  return { featureId, operations }

/-! ## Remediation -/

/-- The arc that `_rebuild_fillet` draws in the place of the old one. -/
def replacementArc (featureId layer : String) (radiusMm : ℝ) (rebuilt : FilletResult) : Except KernelError Operation := do
  let geometry ← arcGeometry rebuilt.arc
  return { operationId := operationId featureId "replacement-arc", featureId, type := .createArc, layer, geometry
           expected := [("radius_mm", .number radiusMm), ("tangent", .flag true)] }

/-! ## What an operation draws -/

/-- An arc runs counter-clockwise from its start angle to its end angle: `normalize_arc` without a sweep. -/
def OperationGeometry.points : OperationGeometry → Set Point2D
  | .line start endPoint => {p | ∃ t : ℝ, 0 ≤ t ∧ t ≤ 1 ∧
      p = ⟨start.x + t * (endPoint.x - start.x), start.y + t * (endPoint.y - start.y)⟩}
  | .arc center radius startAngle endAngle =>
      {p | ∃ c, normalizeArc center radius startAngle (some endAngle) none = .ok c ∧ p ∈ c.points}
  | .circle center diameter => {p | ∃ c, normalizeCircle center (diameter / 2) = .ok c ∧ p ∈ c.points}

end

end CadHarness.Geometry
