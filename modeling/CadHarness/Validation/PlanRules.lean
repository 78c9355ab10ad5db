import CadHarness.Validation.FeatureRules

/-!
# Standards, annotations and views

`cad_harness.validation.rules.standard_rules`, `annotation_rules` and `layout_rules`, as far as the stage before a
commit runs them, and all the rules of that stage.
-/

namespace CadHarness.Validation
open CadHarness.Annotation CadHarness.Geometry CadHarness.Plan
open CadHarness.Catalog (float)

noncomputable section
open Classical

/-! ## Company standards -/

/-- `CanonicalUnitsRule` -/
def canonicalUnitsRule : Rule := fun context =>
  if context.plan.canonicalUnits = "mm" then .ok []
  else .ok [{ ruleId := "STD-UNITS-CANONICAL", severity := .blocking
              message := "Operation plan is not in canonical units", expected := .value (.str "mm")
              actual := .value (.str context.plan.canonicalUnits)
              suggestedFix := some "Normalize the spec to millimetres before compiling" }]

/-- `sorted(declared)` -/
def declaredLayers (profile : CompanyProfile) : Value := strings (profile.layers.dedup.insertionSort (· ≤ ·))

def layerFindings (profile : CompanyProfile) (operation : Plan.Operation) : List Finding :=
  if operation.layer = "0" ∧ operation.expected.lookup "layer" ≠ some (.str "0") then
    [Finding.about operation
      { ruleId := "STD-LAYER-DECLARED", severity := .error
        message := "Operation falls back to layer '0' because the purpose is unmapped"
        expected := .value (declaredLayers profile), actual := .value (.str "0")
        suggestedFix := some ("Map the feature purpose to a declared layer, or explicitly bind " ++
          "layer 0 as a post-commit expectation") }]
  else if operation.layer ∉ profile.layers then
    [Finding.about operation
      { ruleId := "STD-LAYER-DECLARED", severity := .error
        message := s!"Layer '{operation.layer}' is not declared in the standard profile"
        expected := .value (declaredLayers profile), actual := .value (.str operation.layer) }]
  else []

/-- `LayerDeclaredRule` -/
def layerDeclaredRule : Rule := fun context => .ok (context.plan.operations.flatMap (layerFindings context.profile))

/-- `ProfileProvenanceRule` -/
def profileProvenanceRule : Rule := fun context =>
  let notApproved : List Finding :=
    if context.profile.companyApproved then []
    else [{ ruleId := "STD-PROFILE-PROVENANCE", severity := .warning
            message := "Drawing produced with a profile that is not company approved"
            expected := .value (.str "company_approved: true"), actual := .value (.str context.profile.asRef)
            suggestedFix := some "Install and select the reviewed company profile before release" }]
  let otherProfile : List Finding :=
    if context.plan.profileRef = context.profile.asRef then []
    else [{ ruleId := "STD-PROFILE-PROVENANCE", severity := .blocking
            message := "Plan was compiled against a different profile version than the one loaded"
            expected := .value (.str context.plan.profileRef), actual := .value (.str context.profile.asRef)
            suggestedFix := some "Recompile the plan; a profile change invalidates the plan hash" }]
  .ok (notApproved ++ otherProfile)

/-- `GeneralToleranceDeclaredRule` -/
def generalToleranceDeclaredRule : Rule := fun context =>
  if context.profile.generalTolerance.getD "" ≠ "" then .ok []
  else .ok [{ ruleId := "STD-GENERAL-TOLERANCE", severity := .warning
              message := "No general tolerance class declared by the standard profile"
              expected := .value (.str "e.g. ISO 2768-m")
              suggestedFix := some "Set general_tolerance in the company profile" }]

/-! ## Annotations -/

/-- The box of an operation's text, if the operation has one. -/
def textBoxOf (operation : Plan.Operation) : Except KernelError (Option (Plan.Operation × TextBox)) :=
  match operation.geometry.lookup "text_bbox_mm" with
  | some (.arr [minX, minY, maxX, maxY]) => do
      return some (operation, ⟨← float minX, ← float minY, ← float maxX, ← float maxY⟩)
  | _ => .ok none

def overlapFindings (maximum : ℝ) (pair : ((Plan.Operation × TextBox) × Nat) × ((Plan.Operation × TextBox) × Nat)) :
    List Finding :=
  let ((operation, first), _) := pair.1
  let ((other, second), _) := pair.2
  let ratio := overlapRatio first second
  if ratio ≤ maximum then []
  else [Finding.about operation
    { ruleId := "ANNOTATION_OVERLAP", severity := .warning
      message := "Annotation text bounding boxes exceed the allowed overlap"
      expected := .value (.obj [("maximum_overlap_ratio", real maximum)])
      actual := .value (.obj [("overlap_ratio", real ratio), ("other_operation_id", .str other.operationId)])
      tolerance := some maximum }]

/-- `AnnotationOverlapRule` -/
def annotationOverlapRule : Rule := fun context => do
  let boxes := (← context.plan.operations.mapM textBoxOf).filterMap id
  let maximum := context.profile.annotationRules.maximumTextOverlapRatio.getD maximumOverlapRatio
  return (orderedPairs boxes).flatMap (overlapFindings maximum)

def isDimensionType : Domain.OperationType → Bool
  | .createLinearDimension | .createAlignedDimension | .createDiameterDimension | .createRadiusDimension
  | .createAngularDimension => true
  | _ => false

/-- The purpose of the layer of an annotation, as `_expected_layer` has it. -/
def annotationPurpose (operation : Plan.Operation) : String :=
  if operation.type = .createCentermark then "centermark"
  else if operation.type = .createCenterline then "centerline"
  else if get operation.geometry "annotation_kind" = some (.str "hole_callout") ∨ isDimensionType operation.type then
    "dimension"
  else "text"

/-- `"dimension" in str(kind) or kind == "hole_diameter"`, of a kind that is a string -/
def HasDimensionStyle (kind : Option Value) : Prop :=
  ∃ text, kind = some (.str text) ∧ ("dimension".toList <:+: text.toList ∨ text = "hole_diameter")

def annotationProfileFindings (profile : CompanyProfile) (operation : Plan.Operation) :
    Except KernelError (List Finding) :=
  let kind := get operation.geometry "annotation_kind"
  if kind = none ∧ operation.type ≠ .createCentermark ∧ operation.type ≠ .createCenterline then .ok []
  else do
    let layer ← profile.layerFor (annotationPurpose operation)
    let wrongLayer : List Finding :=
      if operation.layer = layer then []
      else [Finding.about operation
        { ruleId := "ANNOTATION_PROFILE_MATCH", severity := .error, message := "Annotation is on the wrong profile layer"
          expected := .value (.str layer), actual := .value (.str operation.layer) }]
    let dimstyle := (operation.geometry.lookup "dimstyle").getD .null
    let wrongDimstyle : List Finding :=
      if HasDimensionStyle kind ∧ dimstyle ≠ Plan.optional profile.dimensionStyle then
        [{ ruleId := "ANNOTATION_PROFILE_MATCH", severity := .error, message := "Dimension uses the wrong dimstyle"
           operationId := some operation.operationId, expected := .value (Plan.optional profile.dimensionStyle)
           actual := .value dimstyle }]
      else []
    let wrongTextstyle : List Finding :=
      match operation.geometry.lookup "textstyle" with
      | none => []
      | some textstyle =>
          if textstyle = Plan.optional profile.textStyle then []
          else [{ ruleId := "ANNOTATION_PROFILE_MATCH", severity := .error
                  message := "Annotation uses the wrong textstyle", operationId := some operation.operationId
                  expected := .value (Plan.optional profile.textStyle), actual := .value textstyle }]
    return wrongLayer ++ wrongDimstyle ++ wrongTextstyle

/-- `AnnotationProfileRule` -/
def annotationProfileRule : Rule := fun context => do
  return (← context.plan.operations.mapM (annotationProfileFindings context.profile)).flatten

/-- The identifier of a datum symbol. -/
def datumOf (operation : Plan.Operation) : Option String :=
  if get operation.geometry "annotation_kind" = some (.str "gdt_datum_symbol") then
    (operation.geometry.lookup "datum_identifier").bind asText
  else none

/-- The references of a feature control frame, which are strings. -/
def frameReferences (operation : Plan.Operation) : Except KernelError (Option (String × List String)) :=
  if get operation.geometry "annotation_kind" = some (.str "gdt_feature_control_frame") then
    match operation.geometry.lookup "datum_references" with
    | none => .ok (some (operation.operationId, []))
    | some (.arr references) => .ok (some (operation.operationId, references.filterMap asText))
    | some _ => .error .typeError
  else .ok none

def datumFindings (datums : List String) (frame : String × List String) : List Finding :=
  match frame.2.filter (· ∉ datums) with
  | [] => []
  | missing => [{
      ruleId := "GDT_DATUM_EXISTS", severity := .error
      message := "Feature control frame references an undefined datum symbol", operationId := some frame.1
      expected := .value (.obj [("defined_datums", strings (datums.dedup.insertionSort (· ≤ ·)))])
      actual := .value (.obj [("missing_datums", strings missing)]) }]

/-- `GdtDatumExistsRule` -/
def gdtDatumExistsRule : Rule := fun context => do
  let frames := (← context.plan.operations.mapM frameReferences).filterMap id
  return frames.flatMap (datumFindings (context.plan.operations.filterMap datumOf))

/-! ## Layers and views -/

/-- `NoUndeclaredLayerRule` -/
def noUndeclaredLayerRule : Rule := fun context =>
  .ok ((context.plan.operations.filter (·.layer ∉ context.profile.layers)).map fun operation =>
    Finding.about operation
      { ruleId := "NO_UNDECLARED_LAYER", severity := .error
        message := "Operation references a layer outside the selected company profile"
        expected := .value (declaredLayers context.profile), actual := .value (.str operation.layer) })

/-- The view of an operation with its origin. -/
def viewOf (operation : Plan.Operation) : Except KernelError (Option (String × ℝ × ℝ)) :=
  match operation.geometry.lookup "view_type", operation.geometry.lookup "view_origin_mm" with
  | some (.str viewType), some (.arr [x, y]) => do return some (viewType, ← float x, ← float y)
  | _, _ => .ok none

/-- A view is at the distance of the profile from the top view, along one axis. -/
def Projected (tolerance : ToleranceProfile) (spacing : Option ℝ) (along across : ℝ × ℝ) : Prop :=
  tolerance.LengthClose along.1 along.2 ∧ ∃ s, spacing = some s ∧ tolerance.LengthClose |across.1 - across.2| s

def projectionFindings (tolerance : ToleranceProfile) (spacing : Option ℝ) (viewType : String) (axis : Nat)
    (top origin : ℝ × ℝ) (along across : ℝ × ℝ) : List Finding :=
  if Projected tolerance spacing along across then []
  else [{ ruleId := "VIEW_PROJECTION_ALIGNMENT", severity := .error
          message := s!"{viewType} view is not projection-aligned with the top view"
          expected := .value (.obj [("aligned_axis", count axis), ("spacing_mm", (spacing.map real).getD .null)])
          actual := .value (.obj [("top_origin_mm", pair top.1 top.2), ("view_origin_mm", pair origin.1 origin.2)])
          tolerance := some tolerance.absoluteLengthMm }]

/-- `ViewProjectionAlignmentRule`; of the origins of one view, the first counts -/
def viewProjectionAlignmentRule : Rule := fun context => do
  let origins := (← context.plan.operations.mapM viewOf).filterMap id
  let spacing := context.profile.viewSpacingMm
  match origins.lookup "top" with
  | none => return []
  | some top =>
      let front := match origins.lookup "front" with
        | none => []
        | some origin => projectionFindings context.tolerance spacing "front" 0 top origin (origin.1, top.1) (origin.2, top.2)
      let side := match origins.lookup "side" with
        | none => []
        | some origin => projectionFindings context.tolerance spacing "side" 1 top origin (origin.2, top.2) (origin.1, top.1)
      return front ++ side

/-! ## The stage before a commit -/

/-- The rules of the stage `PRE_COMMIT`, in their order. -/
def preCommitRules : List Rule :=
  [closedOutlineRule, holePlacementRule, holeSpacingRule, patternIntegrityRule, flangeOuterDiameterClearanceRule,
    flangeHolesOnPcdRule, slotArcTangencyRule, lBracketLegPerpendicularityRule, noUndeclaredContourIntersectionRule,
    referenceCircleGeometryRule, canonicalUnitsRule, layerDeclaredRule, profileProvenanceRule,
    generalToleranceDeclaredRule, annotationOverlapRule, annotationProfileRule, gdtDatumExistsRule,
    noUndeclaredLayerRule, viewProjectionAlignmentRule]

/-- A finding that `gate_allows_commit` does not let through. -/
def Finding.Stops (finding : Finding) : Prop := finding.severity = .error ∨ finding.severity = .blocking

/-- The validation before a commit ends without a finding of severity error or blocking. -/
def PassesPreCommit (context : RuleContext) : Prop :=
  ∃ findings, runRules preCommitRules context = .ok findings ∧ ∀ finding ∈ findings, ¬ finding.Stops

end

end CadHarness.Validation
