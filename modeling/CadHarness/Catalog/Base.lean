import CadHarness.Geometry.Compile
import CadHarness.Geometry.Curves
import CadHarness.Geometry.Outlines
import CadHarness.Lib.Assoc
import CadHarness.Lib.PythonText
import CadHarness.Plan.Model

/-!
# The compiler contract

`cad_harness.feature_catalog.base` and `cad_harness.feature_catalog.parameters`. The compilers apply no defaults
and make no assumptions, so that a report is its missing inputs.
-/

/-!
## Company profiles

`cad_harness.company_rules.loader`: what the compilers, the annotation engine and the rules of a plan read from
a profile.
-/

namespace CadHarness.Plan
open CadHarness.Geometry (KernelError)

structure AnnotationRules where
  holeCalloutMinCount : Option ℤ := none
  holeTable : Option Bool := none
  textHeightMm : Option ℝ := none
  maximumTextOverlapRatio : Option ℝ := none
  placementOffsetsMm : List (ℝ × ℝ) := []

structure TitleBlockField where
  name : String
  required : Bool := true
  value : Option String := none

structure CompanyProfile where
  profileId : String
  version : String
  companyApproved : Bool := false
  generalTolerance : Option String := none
  dimensionStyle : Option String := none
  textStyle : Option String := none
  /-- the names of `layers` -/
  layers : List String := []
  layerMap : List (String × String) := []
  minimumHoleEdgeDistanceMm : Option ℝ := none
  minimumHoleLigamentMm : Option ℝ := none
  annotationRules : AnnotationRules := {}
  /-- `layout_rules.view_spacing_mm` -/
  viewSpacingMm : Option ℝ := none
  titleBlockFields : List TitleBlockField := []

/-- An error of a profile that lacks a key. -/
def profileNotFound (message requiredAction missingKey : String) : KernelError :=
  .harness .standardProfileNotFound message (some requiredAction) [("missing_config_key", .value (.str missingKey))]

namespace CompanyProfile

variable (profile : CompanyProfile)

def asRef : String := s!"{profile.profileId}@{profile.version}"

def layerFor (purpose : String) : Except KernelError String :=
  match profile.layerMap.lookup purpose with
  | none => .error (profileNotFound s!"Standard profile does not declare layer purpose '{purpose}'"
      "Add the missing layer_map key to the company profile" s!"layer_map.{purpose}")
  | some layer =>
      if layer ∈ profile.layers then .ok layer
      else .error (profileNotFound s!"Layer '{layer}' is mapped but not declared by the standard profile"
        "Declare the mapped layer in the company profile" s!"layers.{layer}")

end CompanyProfile

end CadHarness.Plan

namespace CadHarness.Catalog
open CadHarness.Geometry CadHarness.Plan
open CadHarness.Lib (FloatText.read)

export Geometry (operationId)

/-- What a compiler may rely on beside the feature. A service never gives it a source model. -/
structure CompileContext where
  profile : CompanyProfile
  tolerance : ToleranceProfile
  datum : Option Point2D := none
  parentFeatureId : Option String := none
  parentBox : Option BoundingBox := none
  parentOutline : Option Polyline2D := none

namespace CompileContext

def layerFor (context : CompileContext) (purpose : String) : Except KernelError String :=
  context.profile.layerFor purpose

def forChild (context : CompileContext) (parentFeatureId : String) (parentBox : BoundingBox)
    (parentOutline : Polyline2D) : CompileContext where
  profile := context.profile
  tolerance := context.tolerance
  datum := context.datum
  parentFeatureId := some parentFeatureId
  parentBox := some parentBox
  parentOutline := some parentOutline

end CompileContext

structure CompiledFeature where
  featureId : String
  operations : List Plan.Operation := []
  expectations : List Plan.ValidationExpectation := []

def CompiledFeature.merge (compiled other : CompiledFeature) : CompiledFeature where
  featureId := compiled.featureId
  operations := compiled.operations ++ other.operations
  expectations := compiled.expectations ++ other.expectations

/-! ## Reports -/

/-- `InputReport.require` -/
def require (present : Bool) (path reason : String) (formats : List String) : List MissingInput :=
  if present then [] else [⟨path, reason, formats⟩]

/-- The path of a parameter. -/
def parameterPath (featureId key : String) : String := s!"features[{featureId}].parameters.{key}"

def positiveFormat : List String := ["positive number in millimetres"]

def datumFormats : List String := ["[x, y]", "selected_point", "named_datum"]

/-- `MissingInput.model_dump(mode="json")` -/
def MissingInput.dump (missing : MissingInput) : Value :=
  .obj [("path", .str missing.path), ("reason", .str missing.reason),
    ("accepted_formats", strings missing.acceptedFormats)]

/-- `missing_error` -/
def missingError (message requiredAction : String) (missing : List MissingInput) : KernelError :=
  .harness .missingRequiredInputs message (some requiredAction)
    [("missing_inputs", .value (.arr (missing.map MissingInput.dump)))]

/-- The check of a report before the compilation. -/
def complete (missing : List MissingInput) (e : KernelError) : Except KernelError Unit :=
  if missing.isEmpty then .ok () else .error e

/-- The error of the plate and the hole patterns. -/
def missingPlateInputs (message : String) (missing : List MissingInput) : KernelError :=
  .harness .invalidFeatureParameters message (some "Supply the missing inputs and resubmit the spec")
    [("missing", .paths (missing.map (·.path)))]

def missingFeatureInputs (message : String) (missing : List MissingInput) : KernelError :=
  missingError message "Supply every missing feature input and resubmit the spec" missing

/-! ## Parameters -/

noncomputable section
open Classical

/-- `float(value)` -/
def float : Value → Except KernelError ℝ
  | .num n => .ok n.toReal
  | .bool b => .ok (if b then 1 else 0)
  | .str text =>
      match FloatText.read text with
      | some x => .ok x
      | none => .error .valueError
  | _ => .error .typeError

/-- `int(value)` of an `int` -/
def int : Value → Except KernelError ℤ
  | .num (.int n) => .ok n
  | _ => .error .typeError

/-- `parameters[key]` -/
def entry (parameters : Dict) (key : String) : Except KernelError Value :=
  match parameters.lookup key with
  | some value => .ok value
  | none => .error .keyError

/-- `number`, `_number` and `_require_number` -/
def number (parameters : Dict) (key : String) : Except KernelError (Option ℝ) :=
  match get parameters key with
  | none => .ok none
  | some (.num n) => .ok (some n.toReal)
  | some value => .error (invalidParameters s!"Parameter '{key}' must be numeric" [(key, .repr value)])

/-- `_positive` of the plate and `_number` of the flange -/
def positive (parameters : Dict) (key : String) : Except KernelError (Option ℝ) := do
  let value ← number parameters key
  match value with
  | none => return none
  | some x =>
      if x ≤ 0 then
        throw (invalidParameters s!"Parameter '{key}' must be greater than zero"
          [(key, .value ((get parameters key).getD .null))])
      else return some x

def integer (parameters : Dict) (key : String) : Except KernelError (Option ℤ) :=
  match get parameters key with
  | none => .ok none
  | some (.num (.int n)) => .ok (some n)
  | some value => .error (invalidParameters s!"Parameter '{key}' must be an integer" [(key, .repr value)])

/-- `isinstance(value, int) and not isinstance(value, bool)` -/
def isInteger : Option Value → Bool
  | some (.num (.int _)) => true
  | _ => false

def notAPair (key : String) (value : Value) : KernelError :=
  invalidParameters s!"{key} must be a two-element [x, y] pair" [(key, .repr value)]

/-- `_point` of the compilers: the coordinates are taken with `float` -/
def rawPoint (value : Value) (key : String) : Except KernelError Point2D :=
  match value with
  | .arr [x, y] => do return ⟨← float x, ← float y⟩
  | _ => .error (notAPair key value)

/-- `parameters.point` -/
def point (value : Value) (key : String) : Except KernelError Point2D :=
  match value with
  | .arr [x, y] =>
      match float x, float y with
      | .ok x, .ok y => .ok ⟨x, y⟩
      | _, _ => .error (invalidParameters s!"{key} must contain numeric coordinates" [(key, .repr value)])
  | _ => .error (notAPair key value)

/-- A point that is given, or the datum, which `validate_inputs` has found. -/
def placed (given : Option Value) (datum : Option Point2D) (read : Value → Except KernelError Point2D) :
    Except KernelError Point2D :=
  match given, datum with
  | some value, _ => read value
  | none, some p => .ok p
  | none, none => .error .assertionError

/-- `[list(p.as_tuple()) for p in points]` -/
def points (l : List Point2D) : Value := .arr (l.map Point2D.asTuple)

/-! ## Containment -/

/-- A contour stays inside its parent. -/
def checkContourOverflow (context : CompileContext) (contour : Polyline2D) (message : String)
    (requiredAction : Option String) : Except KernelError Unit :=
  match context.parentOutline with
  | none => .ok ()
  | some outline =>
      let overflow := contourOverflowMm outline contour context.tolerance
      if context.tolerance.IsZeroLength overflow then .ok ()
      else .error (.harness .invalidGeometry message requiredAction
        [("overflow_mm", .number overflow), ("parent_feature_id", .value (optional context.parentFeatureId))])

/-! ## Operations -/

def circlesOperation (featureId suffix layer : String) (centers : List Point2D) (count : Value) (diameterMm : ℝ) :
    Plan.Operation where
  operationId := operationId featureId suffix
  featureId := featureId
  type := .createCircles
  layer := layer
  geometry := [("centers_mm", points centers), ("diameter_mm", real diameterMm)]
  expected := [("count", count), ("diameter_mm", real diameterMm)]

def circleOperation (featureId suffix layer : String) (center : Point2D) (diameterMm : ℝ) (expected : Dict) :
    Plan.Operation where
  operationId := operationId featureId suffix
  featureId := featureId
  type := .createCircle
  layer := layer
  geometry := [("center_mm", center.asTuple), ("diameter_mm", real diameterMm)]
  expected := expected

def outlineOperation (featureId suffix layer : String) (outline : Polyline2D) (expected : Dict) : Plan.Operation where
  operationId := operationId featureId suffix
  featureId := featureId
  type := .createClosedPolyline
  layer := layer
  geometry := [("vertices_mm", points outline.vertices)]
  expected := expected

end

end CadHarness.Catalog
