import CadHarness.Catalog.Holes
import CadHarness.Catalog.Outlines
import Mathlib.Data.List.DropRight

/-!
# The registry

`cad_harness.feature_catalog.registry` and the compilation of a feature with its children. The compilers of
recognized geometry need a source model, which a service never gives.
-/

namespace CadHarness.Catalog
open CadHarness.Geometry CadHarness.Plan

inductive Compiler where
  | rectangularPlate
  | rectangularHolePattern
  | boltCirclePattern
  | linearHolePattern
  | flange
  | lBracket
  | slot
  | keyway
  | cornerNotch
  | edgeCutout
  | referenceCircle
  | recognized
  deriving DecidableEq

/-- The public feature types, in their order. -/
def supportedTypes : List (String × Compiler) :=
  [("bolt_circle_pattern", .boltCirclePattern), ("corner_notch", .cornerNotch), ("edge_cutout", .edgeCutout),
    ("flange", .flange), ("keyway", .keyway), ("l_bracket", .lBracket), ("linear_hole_pattern", .linearHolePattern),
    ("rectangular_hole_pattern", .rectangularHolePattern), ("rectangular_plate", .rectangularPlate),
    ("reference_circle", .referenceCircle), ("slot", .slot)]

def internalTypes : List (String × Compiler) :=
  [("_recognized_part_outline", .recognized), ("_recognized_circular_hole", .recognized),
    ("_recognized_fillet_corner", .recognized), ("_recognized_chamfer_corner", .recognized)]

def getCompiler (featureType : String) : Except KernelError Compiler :=
  match (supportedTypes ++ internalTypes).lookup featureType with
  | some compiler => .ok compiler
  | none => .error (.harness .unsupportedFeature s!"Feature type '{featureType}' is not in the catalog"
      (some "Choose a supported feature type or request it be implemented")
      [("supported", .paths (supportedTypes.map Prod.fst))])

noncomputable section

/-- `isinstance(value, str)` -/
def isText : Option Value → Bool
  | some (.str _) => true
  | _ => false

def isTextList : Option Value → Bool
  | some (.arr (item :: items)) => (item :: items).all fun value => isText (some value)
  | _ => false

/-- `_RecognizedCompilerBase.validate_inputs` without a source model -/
def missingRecognizedInputs (featureId : String) (parameters : Dict) : List MissingInput :=
  let path := parameterPath featureId
  require false (path "source_model") "Internal recognition recompilation requires the trusted source DrawingModel"
      ["DrawingModel supplied by the read/remediation service"] ++
    require (isText (get parameters "source_revision")) (path "source_revision") "Source revision is required"
      ["drawing revision fingerprint"] ++
    require (isTextList (get parameters "source_entity_refs")) (path "source_entity_refs")
      "At least one source entity reference is required" ["non-empty string list"]

/-- `validate_inputs` of the compiler -/
def missingInputs (compiler : Compiler) (feature : FeatureSpec) (context : CompileContext) :
    Except KernelError (List MissingInput) :=
  let featureId := feature.featureId
  let parameters := feature.parameters
  match compiler with
  | .rectangularPlate => missingPlateParameters featureId parameters context
  | .rectangularHolePattern => missingGridInputs featureId parameters context
  | .boltCirclePattern => missingBoltCircleInputs featureId parameters context
  | .linearHolePattern => missingLinearPatternInputs featureId parameters
  | .flange => missingFlangeInputs featureId parameters context
  | .lBracket => missingBracketInputs featureId parameters context
  | .slot => missingSlotParameters featureId parameters context
  | .keyway => missingKeywayInputs featureId parameters context
  | .cornerNotch => missingNotchInputs featureId parameters context
  | .edgeCutout => missingEdgeCutoutInputs featureId parameters context
  | .referenceCircle => missingReferenceCircleInputs feature context
  | .recognized => .ok (missingRecognizedInputs featureId parameters)

/-- `compile` of a compiler without children -/
def compileLeaf (compiler : Compiler) (feature : FeatureSpec) (context : CompileContext) :
    Except KernelError CompiledFeature :=
  let featureId := feature.featureId
  let parameters := feature.parameters
  match compiler with
  | .rectangularPlate => do return (← compilePlate featureId parameters feature.modifiers context).compiled
  | .rectangularHolePattern => compileRectangularHolePattern featureId parameters context
  | .boltCirclePattern => compileBoltCirclePattern featureId parameters context
  | .linearHolePattern => compileLinearHolePattern featureId parameters context
  | .flange => compileFlange featureId parameters context
  | .lBracket => compileLBracket featureId parameters context
  | .slot => compileSlotFeature featureId parameters context
  | .keyway => compileKeyway featureId parameters context
  | .cornerNotch => compileCornerNotch featureId parameters context
  | .edgeCutout => compileEdgeCutout featureId parameters context
  | .referenceCircle => compileReferenceCircle feature context
  | .recognized => .error (missingError "Recognition source binding is incomplete"
      "Re-run recognition against the current drawing revision" (missingRecognizedInputs featureId parameters))

/-- `Point2D(float(p[0]), float(p[1]))` -/
def pointItem : Value → Except KernelError Point2D
  | .arr (x :: y :: _) => do return ⟨← float x, ← float y⟩
  | .arr _ => throw .indexError
  | _ => throw .typeError

def pointItems (items : List Value) : Except KernelError (List Point2D) := items.mapM pointItem

/-- The points under a key of a geometry; none if there is no such key. -/
def geometryPoints (geometry : Dict) (key : String) : Except KernelError (List Point2D) :=
  match geometry.lookup key with
  | some (.arr items) => pointItems items
  | none => .ok []
  | some _ => .error .typeError

/-- The plate after a child that has changed its outline. -/
def replaceOutline (compiled child : CompiledFeature) : Except KernelError (CompiledFeature × Polyline2D) :=
  match compiled.operations, child.operations with
  | parent :: others, modified :: _ => do
      let outline ← Polyline2D.checked (← geometryPoints modified.geometry "vertices_mm") true
      let replaced := { parent with
        geometry := [("vertices_mm", points outline.vertices)]
        expected := Lib.Assoc.set (Lib.Assoc.set parent.expected "vertex_count" (count outline.vertices.length))
          "area_mm2" (real outline.area) }
      return ({ compiled with
        operations := replaced :: others
        expectations := compiled.expectations ++ child.expectations }, outline)
  | _, _ => .error .indexError

def changesOutline (featureType : String) : Bool := featureType = "corner_notch" ∨ featureType = "edge_cutout"

mutual
/-- `get_compiler(feature.type).compile` -/
def compileFeature : FeatureSpec → CompileContext → Except KernelError CompiledFeature
  | .mk featureId type parameters modifiers children, context => do
      match ← getCompiler type with
      | .rectangularPlate =>
          let plate ← compilePlate featureId parameters modifiers context
          compileChildren featureId plate.box context children plate.compiled plate.outline
      | compiler => compileLeaf compiler (.mk featureId type parameters modifiers children) context

/-- The children of a plate, each against the outline that the earlier ones have left. -/
def compileChildren (featureId : String) (box : BoundingBox) (context : CompileContext) :
    List FeatureSpec → CompiledFeature → Polyline2D → Except KernelError CompiledFeature
  | [], compiled, _ => .ok compiled
  | child :: children, compiled, outline => do
      let childCompiled ← compileFeature child (context.forChild featureId box outline)
      if changesOutline child.type then
        let replaced ← replaceOutline compiled childCompiled
        compileChildren featureId box context children replaced.1 replaced.2
      else compileChildren featureId box context children (compiled.merge childCompiled) outline
end

end

end CadHarness.Catalog

/-!
## Views

`cad_harness.feature_catalog.views`: the geometry of a plan once for each requested view.
-/

namespace CadHarness.Catalog
open CadHarness.Geometry CadHarness.Plan
open CadHarness.Lib

def supportedViewTypes : List String := ["top", "front", "side", "section"]

/-- `value.removeprefix("feature:").split("@", 1)[0]` -/
def baseFeatureId (featureId : String) : String :=
  let text := featureId.toList
  String.ofList (((text.dropPrefix? "feature:".toList).getD text).takeWhile (· ≠ '@'))

def viewFeatureId (featureId viewType : String) : String := s!"feature:{baseFeatureId featureId}@{viewType}"

/-- `operation_id.rsplit(":", 1)[-1]` -/
def operationSuffix (operationId : String) : String :=
  String.ofList (operationId.toList.rtakeWhile (· ≠ ':'))

noncomputable section

/-- `_origin` -/
def viewOrigin (viewType : String) (spacing : ℝ) : ℝ × ℝ :=
  if viewType = "front" then (0, -spacing)
  else if viewType = "side" then (spacing, 0)
  else if viewType = "section" then (spacing * 2, 0)
  else (0, 0)

def pointKeys : List String := ["center_mm", "start_mm", "end_mm", "position_mm", "text_position_mm"]

def pointListKeys : List String := ["centers_mm", "vertices_mm"]

/-- An entry of a geometry, moved. -/
def translateEntry (dx dy : ℝ) (e : String × Value) : Except KernelError (String × Value) :=
  match e.2 with
  | .arr items =>
      if e.1 ∈ pointListKeys then do
        let moved := (← pointItems items).map (·.translated dx dy)
        return (e.1, points moved)
      else if e.1 ∈ pointKeys then
        match items with
        | [x, y] => do return (e.1, pair ((← float x) + dx) ((← float y) + dy))
        | _ => .ok e
      else .ok e
  | _ => .ok e

/-- `_translate_geometry` -/
def translateGeometry (geometry : Dict) (dx dy : ℝ) : Except KernelError Dict :=
  geometry.mapM (translateEntry dx dy)

/-- An operation in one view. -/
def placeOperation (spacing : ℝ) (viewType : String) (source : Plan.Operation) : Except KernelError Plan.Operation := do
  let (dx, dy) := viewOrigin viewType spacing
  let featureId := viewFeatureId source.featureId viewType
  let geometry ← translateGeometry source.geometry dx dy
  return { source with
    operationId := operationId featureId (operationSuffix source.operationId)
    featureId
    geometry := Assoc.set (Assoc.set (Assoc.set geometry "view_type" (.str viewType)) "view_origin_mm" (pair dx dy))
      "base_feature_id" (.str source.featureId) }

def placeViews (operations : List Plan.Operation) (views : List String) (profile : CompanyProfile) :
    Except KernelError (List Plan.Operation) :=
  match views.filter (· ∉ supportedViewTypes), profile.viewSpacingMm with
  | first :: others, _ => .error (.harness .unsupportedFeature s!"Unsupported drawing view type '{first}'"
      (some "Choose a supported orthographic view type")
      [("unsupported_view_types", .paths (first :: others)), ("supported_view_types", .paths supportedViewTypes)])
  | [], none => .error (profileNotFound "Standard profile does not declare multi-view spacing"
      "Set layout_rules.view_spacing_mm in the company profile" "layout_rules.view_spacing_mm")
  | [], some spacing => do
      let placed ← views.mapM fun view => operations.mapM (placeOperation spacing view)
      return placed.flatten

end

end CadHarness.Catalog
