import CadHarness.Domain.Plan
import CadHarness.Lib.Json
import Mathlib.Data.Real.Basic

/-!
# Specifications and plans

`cad_harness.domain.models.drawing_spec` and `cad_harness.domain.models.operation_plan` with exact numbers. The
identifiers and the hash of a plan are left out.
-/

namespace CadHarness.Plan
open CadHarness.Lib
open CadHarness.Domain (OperationType)

/-! ## Values

What a dictionary of Python holds, with exact numbers in the place of floating-point ones. -/

/-- An `int` or a `float`. -/
inductive Number where
  | int (n : ℤ)
  | float (x : ℝ)

abbrev Value := Json Number

abbrev Dict := List (String × Value)

noncomputable def Number.toReal : Number → ℝ
  | int n => n
  | float x => x

def real (x : ℝ) : Value := .num (.float x)

def count (n : Nat) : Value := .num (.int n)

def pair (x y : ℝ) : Value := .arr [real x, real y]

def strings (texts : List String) : Value := .arr (texts.map .str)

/-- A string, or `None`. -/
def optional : Option String → Value
  | some text => .str text
  | none => .null

/-- `dictionary.get(key)`: an entry `None` is like none. -/
def get (dictionary : Dict) (key : String) : Option Value :=
  match dictionary.lookup key with
  | some .null => none
  | entry => entry

/-- `isinstance(value, int | float)`, and its number. A `bool` is an `int`. -/
noncomputable def asNumber : Value → Option ℝ
  | .num n => some n.toReal
  | .bool b => some (if b then 1 else 0)
  | _ => none

/-- `bool(value)` -/
noncomputable def truth : Value → Bool
  | .null => false
  | .bool b => b
  | .num (.int n) => n ≠ 0
  | .num (.float x) => open Classical in decide (x ≠ 0)
  | .str text => text ≠ ""
  | .arr items => !items.isEmpty
  | .obj members => !members.isEmpty

/-! ## Specifications -/

structure ModifierSpec where
  type : String
  parameters : Dict := []

inductive FeatureSpec where
  | mk (featureId type : String) (parameters : Dict) (modifiers : List ModifierSpec) (children : List FeatureSpec)

namespace FeatureSpec

def featureId : FeatureSpec → String
  | mk featureId _ _ _ _ => featureId

def type : FeatureSpec → String
  | mk _ type _ _ _ => type

def parameters : FeatureSpec → Dict
  | mk _ _ parameters _ _ => parameters

def modifiers : FeatureSpec → List ModifierSpec
  | mk _ _ _ modifiers _ => modifiers

def children : FeatureSpec → List FeatureSpec
  | mk _ _ _ _ children => children

end FeatureSpec

/-- A datum symbol that the specification declares. -/
structure DatumFeatureSymbol where
  identifier : String
  featureId : String
  positionMm : ℝ × ℝ

structure FeatureControlFrame where
  frameId : String
  featureId : String
  characteristic : String
  toleranceText : String
  datumReferences : List String := []
  positionMm : ℝ × ℝ

inductive DimensionMode where
  | autoRequired
  | autoOptional
  | none
  deriving DecidableEq

structure Annotations where
  dimensions : DimensionMode := .none
  titleBlock : Option String := none
  titleBlockValues : List (String × String) := []
  datumSymbols : List DatumFeatureSymbol := []
  featureControlFrames : List FeatureControlFrame := []

structure DrawingSpec where
  schemaVersion : String := Domain.schemaVersion
  documentId : String
  /-- the types of `drawing.views` -/
  views : List String := []
  /-- `drawing.datum.point_mm` -/
  datum : Option (ℝ × ℝ) := none
  features : List FeatureSpec := []
  annotations : Annotations := {}

structure MissingInput where
  path : String
  reason : String
  acceptedFormats : List String := []

/-! ## Plans -/

structure Operation where
  operationId : String
  featureId : String
  type : OperationType
  layer : String
  geometry : Dict := []
  expected : Dict := []
  targetEntityRef : Option String := none

structure ValidationExpectation where
  ruleId : String
  featureId : Option String := none
  operationId : Option String := none
  expected : Dict := []

structure OperationPlan where
  jobId : String
  documentId : String
  expectedRevision : String
  canonicalUnits : String := "mm"
  profileRef : String
  operations : List Operation := []
  validationExpectations : List ValidationExpectation := []

end CadHarness.Plan
