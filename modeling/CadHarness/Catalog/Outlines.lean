import CadHarness.Catalog.Base

/-!
# Outlines

The outline modifiers, and the compilers of brackets, slots, notches and cutouts. A plate compiles its outline
here; its children are compiled by the registry.
-/

namespace CadHarness.Catalog
open CadHarness.Geometry CadHarness.Plan

noncomputable section
open Classical

/-! ## Modifiers -/

structure ModifiedOutline where
  outline : Polyline2D
  expectations : List Plan.ValidationExpectation

def modifierFeatureId (parentFeatureId modifierType : String) (index : Nat) : String :=
  s!"feature:{parentFeatureId}:mod:{modifierType}:{index}"

/-- The integers of a list, if they all are. -/
def integers (items : List Value) : Option (List ℤ) :=
  items.mapM fun item =>
    match item with
    | .num (.int n) => some n
    | _ => none

/-- `_indices` -/
def vertexIndices (parameters : Dict) (vertexCount : Nat) : Except KernelError (Option (List Nat)) :=
  match get parameters "vertex_indices" with
  | none => .ok none
  | some (.arr (item :: items)) =>
      match integers (item :: items) with
      | none => .error (invalidParameters "Every target vertex index must be an integer")
      | some result =>
          if ¬ result.Nodup then .error (invalidParameters "Target vertex indices must be unique")
          else if ∃ n ∈ result, n < 0 ∨ n ≥ vertexCount then
            .error (invalidParameters "Target vertex index is outside the outline"
              [("vertex_indices", .value (.arr (result.map fun n => .num (.int n)))),
                ("vertex_count", .count vertexCount)])
          else .ok (some (result.map Int.toNat))
  | some _ => .error (invalidParameters "vertex_indices must be a non-empty integer list")

def modifierPath (modifierType key : String) : String := s!"modifiers[{modifierType}].parameters.{key}"

def missingModifierInputs (message : String) (missing : List MissingInput) : KernelError :=
  missingError message "Supply every missing modifier input and resubmit the spec" missing

def cornersFormat : List String := ["non-empty integer list"]

/-- The vertices around each target, what replaces it, and the outline with the replacements. -/
def replaceCorners (outline : Polyline2D) (indices : List Nat)
    (replacement : Nat → Point2D → Point2D → Point2D → Except KernelError (List Point2D × Dict))
    (ruleId modifierId : String) : Except KernelError ModifiedOutline := do
  let replaced ← indices.mapM fun index =>
    replacement index (outline.vertexAt (index - 1)) (outline.vertexAt index) (outline.vertexAt (index + 1))
  let found := indices.zip (replaced.map Prod.fst)
  let vertices := outline.vertices.zipIdx.flatMap fun v => (found.lookup v.2).getD [v.1]
  return { outline := ← Polyline2D.checked vertices true
           expectations := replaced.map fun r => { ruleId, featureId := some modifierId, expected := r.2 } }

/-- `CornerFilletModifier.validate_inputs` -/
def missingFilletInputs (spec : ModifierSpec) (vertexCount : Nat) : Except KernelError (List MissingInput) := do
  let radius ← number spec.parameters "radius_mm"
  let indices ← vertexIndices spec.parameters vertexCount
  return require radius.isSome (modifierPath spec.type "radius_mm") "Fillet radius is required" positiveFormat ++
    require indices.isSome (modifierPath spec.type "vertex_indices") "At least one target corner is required"
      cornersFormat

/-- `CornerFilletModifier.apply` -/
def applyCornerFillet (spec : ModifierSpec) (outline : Polyline2D) (context : CompileContext) (modifierIndex : Nat) :
    Except KernelError ModifiedOutline := do
  let missing ← missingFilletInputs spec outline.vertices.length
  complete missing (missingModifierInputs "Corner fillet inputs are incomplete" missing)
  let radius ← float (← entry spec.parameters "radius_mm")
  let indices ← vertexIndices spec.parameters outline.vertices.length
  replaceCorners outline (indices.getD []) (fun index previous vertex following => do
      let result ← filletVertex previous vertex following radius context.tolerance
      let points ← linearizeCurve result.arc context.tolerance.arcChordToleranceMm
      return (points, [("vertex_index", count index), ("radius_mm", real radius),
        ("actual_radius_mm", real result.arc.maximumRadiusMm), ("maximum_allowed_mm", real result.maximumRadiusMm),
        ("tangent_in_mm", result.tangentIn.asTuple), ("tangent_out_mm", result.tangentOut.asTuple)]))
    "CORNER_FILLET_GEOMETRY"
    (modifierFeatureId (context.parentFeatureId.getD "unbound") "corner_fillet" modifierIndex)

/-- `CornerChamferModifier.validate_inputs` -/
def missingChamferInputs (spec : ModifierSpec) (vertexCount : Nat) : Except KernelError (List MissingInput) := do
  let first ← number spec.parameters "distance_1_mm"
  let second ← number spec.parameters "distance_2_mm"
  let angle ← number spec.parameters "angle_deg"
  if second.isSome && angle.isSome then
    throw (invalidParameters "Provide exactly one of distance_2_mm or angle_deg")
  else do
  let indices ← vertexIndices spec.parameters vertexCount
  return require first.isSome (modifierPath spec.type "distance_1_mm") "First chamfer distance is required"
      positiveFormat ++
    require indices.isSome (modifierPath spec.type "vertex_indices") "At least one target corner is required"
      cornersFormat ++
    require (second.isSome || angle.isSome) (modifierPath spec.type "distance_2_mm")
      "A second distance or angle is required" ["distance_2_mm", "angle_deg"]

/-- `CornerChamferModifier.apply` -/
def applyCornerChamfer (spec : ModifierSpec) (outline : Polyline2D) (context : CompileContext) (modifierIndex : Nat) :
    Except KernelError ModifiedOutline := do
  let missing ← missingChamferInputs spec outline.vertices.length
  complete missing (missingModifierInputs "Corner chamfer inputs are incomplete" missing)
  let first ← float (← entry spec.parameters "distance_1_mm")
  let second ← number spec.parameters "distance_2_mm"
  let angle ← number spec.parameters "angle_deg"
  let indices ← vertexIndices spec.parameters outline.vertices.length
  replaceCorners outline (indices.getD []) (fun index previous vertex following => do
      let result ← chamferVertex previous vertex following first second angle context.tolerance
      return ([result.pointOnFirst, result.pointOnSecond],
        [("vertex_index", count index), ("distance_1_mm", real result.distanceFirstMm),
          ("distance_2_mm", real result.distanceSecondMm), ("angle_deg", real result.angleDeg),
          ("actual_angle_deg", real result.angleDeg)]))
    "CORNER_CHAMFER_GEOMETRY"
    (modifierFeatureId (context.parentFeatureId.getD "unbound") "corner_chamfer" modifierIndex)

/-- `get_modifier(...).apply` -/
def applyModifier (spec : ModifierSpec) (outline : Polyline2D) (context : CompileContext) (modifierIndex : Nat) :
    Except KernelError ModifiedOutline :=
  if spec.type = "corner_fillet" then applyCornerFillet spec outline context modifierIndex
  else if spec.type = "corner_chamfer" then applyCornerChamfer spec outline context modifierIndex
  else .error (.harness .unsupportedFeature s!"Modifier type '{spec.type}' is not in the catalog"
    (some "Choose a supported modifier type") [("supported", .paths ["corner_chamfer", "corner_fillet"])])

/-- The modifiers in their order. The context keeps the box of the plain rectangle. -/
def applyModifiers (featureId : String) (box : BoundingBox) (context : CompileContext) :
    List (ModifierSpec × Nat) → ModifiedOutline → Except KernelError ModifiedOutline
  | [], modified => .ok modified
  | (spec, index) :: specs, modified => do
      let next ← applyModifier spec modified.outline (context.forChild featureId box modified.outline) index
      applyModifiers featureId box context specs ⟨next.outline, modified.expectations ++ next.expectations⟩

/-! ## Plates -/

def missingPlateParameters (featureId : String) (parameters : Dict) (context : CompileContext) :
    Except KernelError (List MissingInput) := do
  let path := parameterPath featureId
  let width ← positive parameters "width_mm"
  let height ← positive parameters "height_mm"
  let thickness ← positive parameters "thickness_mm"
  return require width.isSome (path "width_mm") "Width is a required plate size" positiveFormat ++
    require height.isSome (path "height_mm") "Height is a required plate size" positiveFormat ++
    require thickness.isSome (path "thickness_mm") "Thickness is a required plate size" positiveFormat ++
    require ((get parameters "origin_mm").isSome || context.datum.isSome) (path "origin_mm")
      "Origin or drawing datum is required to place the plate" datumFormats

/-- A plate before its children: what is compiled, its box and its outline. -/
structure CompiledPlate where
  compiled : CompiledFeature
  box : BoundingBox
  outline : Polyline2D

def plateOutline (origin : Point2D) (width height : ℝ) : Polyline2D where
  vertices := [origin, ⟨origin.x + width, origin.y⟩, ⟨origin.x + width, origin.y + height⟩,
    ⟨origin.x, origin.y + height⟩]
  closed := true
  two_le := by simp

/-- `RectangularPlateCompiler.compile` up to the children -/
def compilePlate (featureId : String) (parameters : Dict) (modifiers : List ModifierSpec) (context : CompileContext) :
    Except KernelError CompiledPlate := do
  let missing ← missingPlateParameters featureId parameters context
  complete missing (missingPlateInputs "Plate cannot be compiled while required inputs are missing" missing)
  let width ← float (← entry parameters "width_mm")
  let height ← float (← entry parameters "height_mm")
  let origin ← placed (get parameters "origin_mm") context.datum (rawPoint · "origin_mm")
  let plain := plateOutline origin width height
  let box := plain.boundingBox
  let modified ← applyModifiers featureId box context modifiers.zipIdx ⟨plain, []⟩
  let outline := modified.outline
  let layer ← context.layerFor "outline"
  return {
    box, outline
    compiled := {
      featureId
      operations := [outlineOperation featureId "outline" layer outline
        [("closed", .bool true), ("vertex_count", count outline.vertices.length), ("width_mm", real width),
          ("height_mm", real height), ("area_mm2", real outline.area)]]
      expectations :=
        { ruleId := "GEO-PLATE-OUTLINE", featureId := some featureId
          operationId := some (operationId featureId "outline")
          expected := [("orthogonal_rectangle", .bool true), ("width_mm", real width), ("height_mm", real height),
            ("area_mm2", real outline.area)] } :: modified.expectations } }

/-! ## Brackets -/

def missingBracketInputs (featureId : String) (parameters : Dict) (context : CompileContext) :
    Except KernelError (List MissingInput) := do
  let path := parameterPath featureId
  let legA ← number parameters "leg_a_mm"
  let legB ← number parameters "leg_b_mm"
  let thickness ← number parameters "thickness_mm"
  return require legA.isSome (path "leg_a_mm") "Horizontal leg is a required bracket size" positiveFormat ++
    require legB.isSome (path "leg_b_mm") "Vertical leg is a required bracket size" positiveFormat ++
    require thickness.isSome (path "thickness_mm") "Bracket thickness is a required bracket size" positiveFormat ++
    require ((get parameters "origin_mm").isSome || context.datum.isSome) (path "origin_mm")
      "Origin or drawing datum is required to place the bracket" datumFormats

def compileLBracket (featureId : String) (parameters : Dict) (context : CompileContext) :
    Except KernelError CompiledFeature := do
  let missing ← missingBracketInputs featureId parameters context
  complete missing (missingError "L-bracket cannot be compiled while required inputs are missing"
    "Supply every missing bracket input and resubmit the spec" missing)
  let origin ← placed (get parameters "origin_mm") context.datum (rawPoint · "origin_mm")
  let legA ← float (← entry parameters "leg_a_mm")
  let legB ← float (← entry parameters "leg_b_mm")
  let thickness ← float (← entry parameters "thickness_mm")
  let fillet ← number parameters "inner_fillet_radius_mm"
  let outline ← lBracketOutline origin legA legB thickness context.tolerance fillet
  let layer ← context.layerFor "outline"
  return {
    featureId
    operations := [outlineOperation featureId "outline" layer outline
      [("closed", .bool true), ("leg_a_mm", real legA), ("leg_b_mm", real legB), ("thickness_mm", real thickness),
        ("area_mm2", real outline.area)]]
    expectations := [
      { ruleId := "LBRACKET_LEG_PERPENDICULARITY", featureId := some featureId
        operationId := some (operationId featureId "outline")
        expected := [("leg_angle_deg", real 90), ("closed", .bool true)] }] }

/-! ## Slots -/

/-- The dictionary of an operation's geometry. -/
def geometryDict : OperationGeometry → Dict
  | .line start endPoint => [("start_mm", start.asTuple), ("end_mm", endPoint.asTuple)]
  | .arc center radius startAngle endAngle => [("center_mm", center.asTuple), ("radius_mm", real radius),
      ("start_angle_deg", real startAngle), ("end_angle_deg", real endAngle)]
  | .circle center diameter => [("center_mm", center.asTuple), ("diameter_mm", real diameter)]

def expectedValue : Expected → Value
  | .number x => real x
  | .text s => .str s
  | .texts l => strings l
  | .flag b => .bool b

def expectedDict (expected : List (String × Expected)) : Dict := expected.map fun e => (e.1, expectedValue e.2)

def operationType : Geometry.OperationType → Domain.OperationType
  | .createLine => .createLine
  | .createArc => .createArc
  | .createCircle => .createCircle

/-- An operation of the geometry compilers as it stands in a plan. -/
def planOperation (o : Geometry.Operation) : Plan.Operation where
  operationId := o.operationId
  featureId := o.featureId
  type := operationType o.type
  layer := o.layer
  geometry := geometryDict o.geometry
  expected := expectedDict o.expected

def missingSlotParameters (featureId : String) (parameters : Dict) (context : CompileContext) :
    Except KernelError (List MissingInput) := do
  let path := parameterPath featureId
  let length ← number parameters "length_mm"
  let width ← number parameters "width_mm"
  return require length.isSome (path "length_mm") "Length is a required slot size" positiveFormat ++
    require width.isSome (path "width_mm") "Width is a required slot size" positiveFormat ++
    require ((get parameters "center_mm").isSome || context.datum.isSome) (path "center_mm")
      "Center or drawing datum is required to place the slot" datumFormats

/-- `SlotCompiler.compile`, with the parameters read from their dictionary -/
def compileSlotFeature (featureId : String) (parameters : Dict) (context : CompileContext) :
    Except KernelError CompiledFeature := do
  let missing ← missingSlotParameters featureId parameters context
  complete missing (missingError "Slot cannot be compiled while required inputs are missing"
    "Supply every missing slot input and resubmit the spec" missing)
  let length ← float (← entry parameters "length_mm")
  let width ← float (← entry parameters "width_mm")
  let angle ← float ((parameters.lookup "angle_deg").getD (real 0))
  let center ← placed (get parameters "center_mm") context.datum (rawPoint · "center_mm")
  let compiled ← compileSlot featureId ⟨some length, some width, some center, some angle⟩
    { layerFor := context.layerFor, datum := context.datum }
  return {
    featureId
    operations := compiled.operations.map planOperation
    expectations := compiled.expectations.map fun e =>
      { ruleId := e.ruleId, featureId := some e.featureId, expected := expectedDict e.expected } }

/-! ## Notches and cutouts -/

/-- What the removal of a part of the parent's outline compiles to. -/
def compileCutout (featureId : String) (context : CompileContext) (parent : Polyline2D)
    (result : BoundaryCutoutResult) (message : String) : Except KernelError CompiledFeature := do
  checkContourOverflow context result.outline message none
  let layer ← context.layerFor "outline"
  return {
    featureId
    operations := [outlineOperation featureId "modified-outline" layer result.outline
      [("closed", .bool true), ("area_mm2", real result.outline.area),
        ("parent_feature_id", optional context.parentFeatureId)]]
    expectations := [
      { ruleId := "BOUNDARY_CUTOUT_AREA", featureId := some featureId
        operationId := some (operationId featureId "modified-outline")
        expected := [("removed_area_mm2", real result.removedAreaMm2), ("parent_area_mm2", real parent.area),
          ("result_area_mm2", real result.outline.area)] }] }

def missingNotchInputs (featureId : String) (parameters : Dict) (context : CompileContext) :
    Except KernelError (List MissingInput) := do
  let path := parameterPath featureId
  let corner ← integer parameters "corner_index"
  let width ← number parameters "width_mm"
  let height ← number parameters "height_mm"
  return require corner.isSome (path "corner_index") "Target corner index is required" ["zero-based integer"] ++
    require width.isSome (path "width_mm") "width_mm is required" positiveFormat ++
    require height.isSome (path "height_mm") "height_mm is required" positiveFormat ++
    require context.parentOutline.isSome s!"features[{featureId}].parent_outline"
      "Corner notch must be declared as a child of an outline feature" ["child feature"]

def compileCornerNotch (featureId : String) (parameters : Dict) (context : CompileContext) :
    Except KernelError CompiledFeature := do
  let missing ← missingNotchInputs featureId parameters context
  complete missing (missingFeatureInputs "Corner notch inputs are incomplete" missing)
  match context.parentOutline with
  | none => throw .assertionError
  | some parent => do
      let corner ← int (← entry parameters "corner_index")
      let width ← float (← entry parameters "width_mm")
      let height ← float (← entry parameters "height_mm")
      let result ← cornerNotch parent corner width height context.tolerance
      compileCutout featureId context parent result "Corner notch extends outside its parent outline"

def missingEdgeCutoutInputs (featureId : String) (parameters : Dict) (context : CompileContext) :
    Except KernelError (List MissingInput) := do
  let path := parameterPath featureId
  let edge ← integer parameters "edge_index"
  let offset ← number parameters "offset_mm"
  let width ← number parameters "width_mm"
  let depth ← number parameters "depth_mm"
  return require edge.isSome (path "edge_index") "Target edge index is required" ["zero-based integer"] ++
    require offset.isSome (path "offset_mm") "offset_mm is required" ["number in millimetres"] ++
    require width.isSome (path "width_mm") "width_mm is required" ["number in millimetres"] ++
    require depth.isSome (path "depth_mm") "depth_mm is required" ["number in millimetres"] ++
    require context.parentOutline.isSome s!"features[{featureId}].parent_outline"
      "Edge cutout must be declared as a child of an outline feature" ["child feature"]

def compileEdgeCutout (featureId : String) (parameters : Dict) (context : CompileContext) :
    Except KernelError CompiledFeature := do
  let missing ← missingEdgeCutoutInputs featureId parameters context
  complete missing (missingFeatureInputs "Edge cutout inputs are incomplete" missing)
  match context.parentOutline with
  | none => throw .assertionError
  | some parent => do
      let edge ← int (← entry parameters "edge_index")
      let offset ← float (← entry parameters "offset_mm")
      let width ← float (← entry parameters "width_mm")
      let depth ← float (← entry parameters "depth_mm")
      let result ← edgeCutout parent edge offset width depth context.tolerance
      compileCutout featureId context parent result "Edge cutout extends outside its parent outline"

end

end CadHarness.Catalog
