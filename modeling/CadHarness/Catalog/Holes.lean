import CadHarness.Catalog.Base

/-!
# Holes

The compilers of hole patterns, flanges, keyways and reference circles.
-/

namespace CadHarness.Catalog
open CadHarness.Geometry CadHarness.Plan

noncomputable section
open Classical

def centermarkOperations (featureId : String) (centers : List Point2D) (layer : String) : List Plan.Operation :=
  centers.zipIdx.map fun c =>
    { operationId := operationId featureId s!"centermark-{c.2}", featureId, type := .createCentermark, layer
      geometry := [("center_mm", c.1.asTuple)], expected := [("center_mm", c.1.asTuple)] }

/-- The centermarks that a pattern asks for. -/
def requestedCentermarks (featureId : String) (parameters : Dict) (context : CompileContext) (centers : List Point2D) :
    Except KernelError (List Plan.Operation) :=
  if truth ((get parameters "add_centermarks").getD .null) then do
    return centermarkOperations featureId centers (← context.layerFor "centermark")
  else .ok []

/-! ## Rectangular hole patterns -/

/-- Two numbers, of which the second is read only where the first is there. -/
def bothNumbers (parameters : Dict) (first second : String) : Except KernelError Bool := do
  match ← number parameters first with
  | none => return false
  | some _ => return (← number parameters second).isSome

def missingGridInputs (featureId : String) (parameters : Dict) (context : CompileContext) :
    Except KernelError (List MissingInput) := do
  let path := parameterPath featureId
  let diameter ← number parameters "hole_diameter_mm"
  let hasOffsets ← bothNumbers parameters "edge_offset_x_mm" "edge_offset_y_mm"
  let hasPitch ← bothNumbers parameters "pitch_x_mm" "pitch_y_mm"
  return require diameter.isSome (path "hole_diameter_mm") "Hole diameter is a required engineering input" positiveFormat ++
    require (isInteger (get parameters "count_x")) (path "count_x") "count_x must be given as a positive integer hole count"
      ["positive integer"] ++
    require (isInteger (get parameters "count_y")) (path "count_y") "count_y must be given as a positive integer hole count"
      ["positive integer"] ++
    require (hasOffsets || hasPitch) (path "edge_offset_x_mm")
      "Hole placement needs edge offsets (with a parent outline) or explicit pitch"
      ["edge_offset_x_mm + edge_offset_y_mm", "pitch_x_mm + pitch_y_mm"] ++
    if hasOffsets && !hasPitch then
      require context.parentBox.isSome (path "pitch_x_mm")
        "Edge offsets require a parent outline; supply explicit pitch instead" ["pitch_x_mm + pitch_y_mm"]
    else []

/-- `_resolve_grid`: the origin and the pitches -/
def resolveGrid (parameters : Dict) (context : CompileContext) (countX countY : ℤ) :
    Except KernelError (Point2D × ℝ × ℝ) := do
  let pitchX ← number parameters "pitch_x_mm"
  let pitchY ← number parameters "pitch_y_mm"
  let offsetX ← number parameters "edge_offset_x_mm"
  let offsetY ← number parameters "edge_offset_y_mm"
  match context.parentBox, offsetX, offsetY with
  | some box, some offsetX, some offsetY =>
      let spanX := box.width - 2 * offsetX
      let spanY := box.height - 2 * offsetY
      if spanX < 0 ∨ spanY < 0 then
        throw (invalidParameters "Edge offsets exceed the parent outline size"
          [("outline_width_mm", .number box.width), ("outline_height_mm", .number box.height),
            ("edge_offset_x_mm", .number offsetX), ("edge_offset_y_mm", .number offsetY)])
      else
        let derivedX := if countX > 1 then spanX / (countX - 1 : ℝ) else 0
        let derivedY := if countY > 1 then spanY / (countY - 1 : ℝ) else 0
        return (⟨box.minX + offsetX, box.minY + offsetY⟩, pitchX.getD derivedX, pitchY.getD derivedY)
  | _, _, _ =>
      match pitchX, pitchY with
      | some pitchX, some pitchY =>
          let base := context.datum.getD ⟨0, 0⟩
          return (⟨base.x + offsetX.getD 0, base.y + offsetY.getD 0⟩, pitchX, pitchY)
      | _, _ => throw .assertionError

def compileRectangularHolePattern (featureId : String) (parameters : Dict) (context : CompileContext) :
    Except KernelError CompiledFeature := do
  let missing ← missingGridInputs featureId parameters context
  complete missing (missingPlateInputs "Hole pattern cannot be compiled while required inputs are missing" missing)
  let diameter ← float (← entry parameters "hole_diameter_mm")
  let countX ← int (← entry parameters "count_x")
  let countY ← int (← entry parameters "count_y")
  let (origin, pitchX, pitchY) ← resolveGrid parameters context countX countY
  let centers ← rectangularGrid origin countX countY pitchX pitchY
  let layer ← context.layerFor "hole"
  let centermarks ← requestedCentermarks featureId parameters context centers
  return {
    featureId
    operations := circlesOperation featureId "holes" layer centers (count centers.length) diameter :: centermarks
    expectations := [
      { ruleId := "GEO-HOLE-PATTERN-GRID", featureId := some featureId
        operationId := some (operationId featureId "holes")
        expected := [("count", count centers.length), ("diameter_mm", real diameter), ("pitch_x_mm", real pitchX),
          ("pitch_y_mm", real pitchY), ("centers_mm", points centers),
          ("parent_feature_id", optional context.parentFeatureId)] }] }

/-! ## Bolt circles -/

def missingBoltCircleInputs (featureId : String) (parameters : Dict) (context : CompileContext) :
    Except KernelError (List MissingInput) := do
  let path := parameterPath featureId
  let diameter ← number parameters "hole_diameter_mm"
  let pcd ← number parameters "pcd_mm"
  return require diameter.isSome (path "hole_diameter_mm") "Hole diameter is a required engineering input" positiveFormat ++
    require pcd.isSome (path "pcd_mm") "Pitch circle diameter is a required engineering input" positiveFormat ++
    require (isInteger (get parameters "count")) (path "count") "Hole count is required and must be a positive integer"
      ["positive integer"] ++
    require ((get parameters "center_mm").isSome || context.datum.isSome || context.parentBox.isSome)
      (path "center_mm") "Centre or datum is required to place the bolt circle" datumFormats

/-- `_resolve_center` -/
def boltCircleCenter (parameters : Dict) (context : CompileContext) : Except KernelError Point2D :=
  match get parameters "center_mm", context.parentBox, context.datum with
  | some value, _, _ => rawPoint value "center_mm"
  | none, some box, _ => .ok ⟨(box.minX + box.maxX) / 2, (box.minY + box.maxY) / 2⟩
  | none, none, some datum => .ok datum
  | none, none, none => .error .assertionError

def compileBoltCirclePattern (featureId : String) (parameters : Dict) (context : CompileContext) :
    Except KernelError CompiledFeature := do
  let missing ← missingBoltCircleInputs featureId parameters context
  complete missing (missingPlateInputs "Bolt circle cannot be compiled while required inputs are missing" missing)
  let diameter ← float (← entry parameters "hole_diameter_mm")
  let pcd ← float (← entry parameters "pcd_mm")
  let holes ← int (← entry parameters "count")
  let startAngle ← float ((parameters.lookup "start_angle_deg").getD (real 0))
  let center ← boltCircleCenter parameters context
  let centers ← boltCircle center pcd holes startAngle (truth ((parameters.lookup "clockwise").getD (.bool false)))
  let layer ← context.layerFor "hole"
  let centermarks ← requestedCentermarks featureId parameters context centers
  return {
    featureId
    operations := circlesOperation featureId "holes" layer centers (.num (.int holes)) diameter :: centermarks
    expectations := [
      { ruleId := "GEO-HOLE-PATTERN-BOLT-CIRCLE", featureId := some featureId
        operationId := some (operationId featureId "holes")
        expected := [("count", .num (.int holes)), ("diameter_mm", real diameter), ("pcd_mm", real pcd),
          ("center_mm", center.asTuple), ("angular_spacing_deg", real (360 / holes)),
          ("centers_mm", points centers)] }] }

/-! ## Linear hole patterns -/

/-- The direction of a pattern, with the errors of `validate_inputs`. -/
def directionOf (value : Value) : Except KernelError (ℝ × ℝ) :=
  match value with
  | .arr [dx, dy] =>
      match float dx, float dy with
      | .ok dx, .ok dy => .ok (dx, dy)
      | _, _ => .error (invalidParameters "direction must contain numeric values")
  | _ => .error (invalidParameters "direction must be a two-element [dx, dy] pair")

/-- A check of a parameter that is given. -/
def checked {α : Type} (given : Option Value) (read : Value → Except KernelError α) : Except KernelError Unit :=
  match given with
  | some value => do
      let _ ← read value
      return ()
  | none => .ok ()

def missingLinearPatternInputs (featureId : String) (parameters : Dict) : Except KernelError (List MissingInput) := do
  let path := parameterPath featureId
  let start := get parameters "start_point"
  let direction := get parameters "direction"
  let pitch ← number parameters "pitch_mm"
  let holes ← integer parameters "count"
  let diameter ← number parameters "hole_diameter_mm"
  checked start (point · "start_point")
  checked direction directionOf
  return require start.isSome (path "start_point") "Pattern start point is required" ["[x, y]"] ++
    require direction.isSome (path "direction") "Pattern direction is required" ["[dx, dy]"] ++
    require pitch.isSome (path "pitch_mm") "Pattern pitch is required" positiveFormat ++
    require holes.isSome (path "count") "Hole count is required" ["positive integer"] ++
    require diameter.isSome (path "hole_diameter_mm") "Hole diameter is required" positiveFormat

/-- A linear pattern stays inside its parent. -/
def checkPatternOverflow (context : CompileContext) (centers : List Point2D) (diameterMm : ℝ) :
    Except KernelError Unit :=
  match context.parentOutline with
  | none => .ok ()
  | some outline => do
      let circles ← centers.mapM fun center => Circle2D.checked center diameterMm
      let overflow := maximumOf (circles.map fun circle => circleOverflowMm outline circle context.tolerance)
      if context.tolerance.IsZeroLength overflow then return ()
      else throw (.harness .invalidGeometry "Linear hole pattern extends outside its parent outline"
        (some "Move or resize the pattern so every hole remains in the parent")
        [("overflow_mm", .number overflow), ("parent_feature_id", .value (optional context.parentFeatureId))])

def compileLinearHolePattern (featureId : String) (parameters : Dict) (context : CompileContext) :
    Except KernelError CompiledFeature := do
  let missing ← missingLinearPatternInputs featureId parameters
  complete missing (missingFeatureInputs "Linear hole pattern inputs are incomplete" missing)
  let start ← point (← entry parameters "start_point") "start_point"
  let direction ← directionOf (← entry parameters "direction")
  let pitch ← float (← entry parameters "pitch_mm")
  let holes ← int (← entry parameters "count")
  let diameter ← float (← entry parameters "hole_diameter_mm")
  let centers ← linearPattern start direction pitch holes
  if diameter ≤ 0 then throw (invalidParameters "Hole diameter must be positive") else do
  checkPatternOverflow context centers diameter
  let layer ← context.layerFor "hole"
  return {
    featureId
    operations := [circlesOperation featureId "holes" layer centers (.num (.int holes)) diameter]
    expectations := [
      { ruleId := "LINEAR_HOLE_PATTERN_GEOMETRY", featureId := some featureId
        operationId := some (operationId featureId "holes")
        expected := [("count", .num (.int holes)), ("pitch_mm", real pitch), ("centers_mm", points centers),
          ("parent_feature_id", optional context.parentFeatureId)] }] }

/-! ## Flanges -/

def missingFlangeInputs (featureId : String) (parameters : Dict) (context : CompileContext) :
    Except KernelError (List MissingInput) := do
  let path := parameterPath featureId
  let outer ← positive parameters "outer_diameter_mm"
  let bore ← positive parameters "bore_diameter_mm"
  let hole ← positive parameters "bolt_hole_diameter_mm"
  let pcd ← positive parameters "pcd_mm"
  let holes := get parameters "bolt_hole_count"
  checked holes fun value =>
    match value with
    | .num (.int n) => if n ≤ 0 then throw (wrongCount value) else pure ()
    | _ => throw (wrongCount value)
  let hasKeywayWidth := (get parameters "keyway_width_mm").isSome
  let hasKeywayDepth := (get parameters "keyway_depth_mm").isSome
  let _ ← positive parameters "keyway_width_mm"
  let _ ← positive parameters "keyway_depth_mm"
  return require outer.isSome (path "outer_diameter_mm") "Outer diameter is a required flange input" positiveFormat ++
    require bore.isSome (path "bore_diameter_mm") "Bore diameter is a required flange input" positiveFormat ++
    require hole.isSome (path "bolt_hole_diameter_mm") "Bolt-hole diameter is a required flange input" positiveFormat ++
    require pcd.isSome (path "pcd_mm") "Pitch circle diameter is a required flange input" positiveFormat ++
    require holes.isSome (path "bolt_hole_count") "Bolt-hole count is required and must be positive"
      ["positive integer"] ++
    require ((get parameters "datum").isSome || context.datum.isSome) (path "datum")
      "Center/datum is required to place the flange" datumFormats ++
    require (hasKeywayWidth == hasKeywayDepth)
      (path (if hasKeywayWidth then "keyway_depth_mm" else "keyway_width_mm"))
      "A keyed flange requires both keyway width and depth" positiveFormat
where
  wrongCount (value : Value) : KernelError :=
    invalidParameters "bolt_hole_count must be a positive integer" [("bolt_hole_count", .repr value)]

/-- The bore of a flange: a keyed contour with its expectation, or a circle. -/
def boreOperation (featureId : String) (parameters : Dict) (context : CompileContext) (center : Point2D)
    (boreDiameter : ℝ) : Except KernelError (Plan.Operation × List Plan.ValidationExpectation) :=
  match get parameters "keyway_width_mm", get parameters "keyway_depth_mm" with
  | some width, some depth => do
      let keyed ← keywayContour center boreDiameter (← float width) (← float depth) context.tolerance
      let layer ← context.layerFor "hole"
      return (outlineOperation featureId "keyed-bore" layer keyed.previewOutline
          [("closed", .bool true), ("area_mm2", real keyed.previewOutline.area), ("bore_diameter_mm", real boreDiameter),
            ("keyway_width_mm", real keyed.keyWidthMm), ("keyway_depth_mm", real keyed.keyDepthMm)],
        [{ ruleId := "KEYWAY_GEOMETRY", featureId := some featureId
           operationId := some (operationId featureId "keyed-bore")
           expected := [("bore_diameter_mm", real boreDiameter), ("key_width_mm", real keyed.keyWidthMm),
            ("key_depth_mm", real keyed.keyDepthMm), ("removed_area_mm2", real keyed.removedAreaMm2)] }])
  | _, _ => do
      let curve ← normalizeCircle center (boreDiameter / 2)
      let layer ← context.layerFor "hole"
      return (circleOperation featureId "bore" layer curve.center (curve.maximumRadiusMm * 2)
        [("diameter_mm", real boreDiameter), ("center_mm", center.asTuple)], [])

def compileFlange (featureId : String) (parameters : Dict) (context : CompileContext) :
    Except KernelError CompiledFeature := do
  let missing ← missingFlangeInputs featureId parameters context
  complete missing (missingError "Flange cannot be compiled while required inputs are missing"
    "Supply every missing flange input and resubmit the spec" missing)
  let outerDiameter ← float (← entry parameters "outer_diameter_mm")
  let boreDiameter ← float (← entry parameters "bore_diameter_mm")
  let holeDiameter ← float (← entry parameters "bolt_hole_diameter_mm")
  let pcd ← float (← entry parameters "pcd_mm")
  let holes ← int (← entry parameters "bolt_hole_count")
  let center ← placed (get parameters "datum") context.datum (rawPoint · "datum")
  let startAngle ← float ((parameters.lookup "start_angle_deg").getD (real 0))
  if boreDiameter ≥ outerDiameter then
    throw (invalidParameters "Flange bore must be smaller than its outer diameter"
      [("bore_diameter_mm", .number boreDiameter), ("outer_diameter_mm", .number outerDiameter)])
  else do
  let outer ← normalizeCircle center (outerDiameter / 2)
  let centers ← boltCircle center pcd holes startAngle
  let (bore, boreExpectations) ← boreOperation featureId parameters context center boreDiameter
  let outline ← context.layerFor "outline"
  let layer ← context.layerFor "hole"
  return {
    featureId
    operations := [
      circleOperation featureId "outer" outline outer.center (outer.maximumRadiusMm * 2)
        [("diameter_mm", real outerDiameter), ("center_mm", center.asTuple)],
      bore,
      circlesOperation featureId "bolt-holes" layer centers (.num (.int holes)) holeDiameter]
    expectations := [
      { ruleId := "FLANGE_OUTER_DIAMETER_CLEARANCE", featureId := some featureId
        operationId := some (operationId featureId "outer")
        expected := [("outer_diameter_mm", real outerDiameter), ("pcd_mm", real pcd),
          ("bolt_hole_diameter_mm", real holeDiameter)] },
      { ruleId := "FLANGE_HOLES_ON_PCD", featureId := some featureId
        operationId := some (operationId featureId "bolt-holes")
        expected := [("center_mm", center.asTuple), ("pcd_mm", real pcd), ("bolt_hole_count", .num (.int holes)),
          ("angular_spacing_deg", real (360 / holes))] }] ++ boreExpectations }

/-! ## Keyways -/

def missingKeywayInputs (featureId : String) (parameters : Dict) (context : CompileContext) :
    Except KernelError (List MissingInput) := do
  let path := parameterPath featureId
  let bore ← number parameters "bore_diameter_mm"
  let width ← number parameters "key_width_mm"
  let depth ← number parameters "key_depth_mm"
  return require bore.isSome (path "bore_diameter_mm") "bore_diameter_mm is required" positiveFormat ++
    require width.isSome (path "key_width_mm") "key_width_mm is required" positiveFormat ++
    require depth.isSome (path "key_depth_mm") "key_depth_mm is required" positiveFormat ++
    require ((get parameters "center_mm").isSome || context.datum.isSome) (path "center_mm")
      "A center or drawing datum is required to place the keyway" ["[x, y]", "named datum"]

def compileKeyway (featureId : String) (parameters : Dict) (context : CompileContext) :
    Except KernelError CompiledFeature := do
  let missing ← missingKeywayInputs featureId parameters context
  complete missing (missingFeatureInputs "Keyway inputs are incomplete" missing)
  let center ← placed (get parameters "center_mm") context.datum (point · "center_mm")
  let bore ← float (← entry parameters "bore_diameter_mm")
  let width ← float (← entry parameters "key_width_mm")
  let depth ← float (← entry parameters "key_depth_mm")
  let result ← keywayContour center bore width depth context.tolerance
  checkContourOverflow context result.previewOutline "Keyway extends outside its parent outline"
    (some "Move or resize the keyway so it remains in the parent")
  let layer ← context.layerFor "hole"
  return {
    featureId
    operations := [outlineOperation featureId "contour" layer result.previewOutline
      [("closed", .bool true), ("area_mm2", real result.previewOutline.area),
        ("parent_feature_id", optional context.parentFeatureId)]]
    expectations := [
      { ruleId := "KEYWAY_GEOMETRY", featureId := some featureId, operationId := some (operationId featureId "contour")
        expected := [("bore_diameter_mm", real (result.boreRadiusMm * 2)), ("key_width_mm", real result.keyWidthMm),
          ("key_depth_mm", real result.keyDepthMm), ("removed_area_mm2", real result.removedAreaMm2)] }] }

/-! ## Reference circles -/

def referenceCircleParameters : List String := ["radius_mm", "layer_name", "center_mm"]

/-- The layer of a reference circle, if it is given: a layer that the profile declares. -/
def declaredLayer (context : CompileContext) (value : Value) : Except KernelError String :=
  match value with
  | .str layer =>
      if layer = "" then .error (notALayer value)
      else if layer ∈ context.profile.layers then .ok layer
      else .error (.harness .invalidFeatureParameters
        s!"Layer '{layer}' is not declared by the selected company profile"
        (some "Choose one of the profile's declared layers")
        [("layer_name", .value value),
          ("declared_layers", .paths (context.profile.layers.dedup.insertionSort (· ≤ ·)))])
  | value => .error (notALayer value)
where
  notALayer (value : Value) : KernelError :=
    invalidParameters "layer_name must be a non-empty string" [("layer_name", .repr value)]

def missingReferenceCircleInputs (feature : FeatureSpec) (context : CompileContext) :
    Except KernelError (List MissingInput) := do
  let path := parameterPath feature.featureId
  let parameters := feature.parameters
  let unexpected := (parameters.map Prod.fst).filter (· ∉ referenceCircleParameters)
  if unexpected ≠ [] then
    throw (.harness .invalidFeatureParameters "reference_circle contains unsupported parameters"
      (some "Use only center_mm, radius_mm and layer_name")
      [("unexpected_parameters", .paths (unexpected.insertionSort (· ≤ ·)))])
  else do
  let radius ← number parameters "radius_mm"
  if ∃ r, radius = some r ∧ r ≤ 0 then
    throw (invalidParameters "radius_mm must be a positive finite number"
      [("radius_mm", .repr ((get parameters "radius_mm").getD .null))])
  else do
  checked (get parameters "center_mm") (point · "center_mm")
  checked (get parameters "layer_name") (declaredLayer context)
  if feature.modifiers.isEmpty && feature.children.isEmpty then
    return require radius.isSome (path "radius_mm") "Reference-circle radius is required"
        ["positive finite number in millimetres"] ++
      require ((get parameters "center_mm").isSome || context.datum.isSome) (path "center_mm")
        "A centre or resolved drawing datum is required to place the circle" ["[x, y]", "drawing.datum"] ++
      require (get parameters "layer_name").isSome (path "layer_name")
        "An explicit declared layer is required for reference geometry" ["layer name from the selected company profile"]
  else
    throw (.harness .invalidFeatureParameters "reference_circle does not accept modifiers or child features"
      (some "Submit each reference circle as an independent feature")
      [("modifier_count", .count feature.modifiers.length), ("child_count", .count feature.children.length)])

def compileReferenceCircle (feature : FeatureSpec) (context : CompileContext) :
    Except KernelError CompiledFeature := do
  let featureId := feature.featureId
  let parameters := feature.parameters
  let missing ← missingReferenceCircleInputs feature context
  complete missing (missingFeatureInputs "Reference-circle inputs are incomplete" missing)
  let center ← placed (get parameters "center_mm") context.datum (point · "center_mm")
  let radius ← float (← entry parameters "radius_mm")
  let layer ← declaredLayer context (← entry parameters "layer_name")
  let curve ← normalizeCircle center radius
  let diameter := curve.maximumRadiusMm * 2
  let expected : Dict := [("layer", .str layer), ("center_mm", curve.center.asTuple),
    ("radius_mm", real curve.maximumRadiusMm), ("diameter_mm", real diameter),
    ("area_mm2", real (Real.pi * curve.maximumRadiusMm * curve.maximumRadiusMm))]
  return {
    featureId
    operations := [circleOperation featureId "circle" layer curve.center diameter expected]
    expectations := [
      { ruleId := "REFERENCE_CIRCLE_GEOMETRY", featureId := some featureId
        operationId := some (operationId featureId "circle")
        expected := expected ++ [("circumference_mm", real (2 * Real.pi * curve.maximumRadiusMm))] }] }

end

end CadHarness.Catalog
