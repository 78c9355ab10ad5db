import CadHarness.Plan.Compiler

/-!
# Validation

`cad_harness.validation.engine` and the model of its findings, for the rules that read a plan.
-/

namespace CadHarness.Validation
open CadHarness.Catalog CadHarness.Plan
open CadHarness.Domain (OperationType)
open CadHarness.Geometry (KernelError Point2D Polyline2D ToleranceProfile)

inductive Severity where
  | info
  | warning
  | error
  | blocking
  deriving DecidableEq

/-- What a finding expects or has found. -/
inductive Evidence where
  | value (value : Value)
  /-- `{key: f"> {bound}"}` -/
  | above (key : String) (bound : ℝ)

structure Finding where
  ruleId : String
  severity : Severity
  message : String
  featureId : Option String := none
  entityRef : Option String := none
  operationId : Option String := none
  expected : Evidence := .value .null
  actual : Evidence := .value .null
  tolerance : Option ℝ := none
  suggestedFix : Option String := none
  measurement : Dict := []

/-- What a rule of a plan may read before the commit. -/
structure RuleContext where
  profile : CompanyProfile
  tolerance : ToleranceProfile
  plan : OperationPlan

abbrev Rule := RuleContext → Except KernelError (List Finding)

/-- `ValidationEngine.run`: the findings of the rules of a stage, in their order -/
def runRules {Context : Type} (rules : List (Context → Except KernelError (List Finding))) (context : Context) :
    Except KernelError (List Finding) := do
  return (← rules.mapM fun rule => rule context).flatten

/-- The findings of the operations of one kind. -/
def forOperations (operations : List Plan.Operation) (type : OperationType)
    (evaluate : Plan.Operation → Except KernelError (List Finding)) : Except KernelError (List Finding) := do
  return (← (operations.filter (·.type = type)).mapM evaluate).flatten

namespace RuleContext

variable (context : RuleContext)

/-- `{op.operation_id: op for op in plan.operations}.get(id or "")`: of operations with one id, the last -/
def operationNamed (id : Option String) : Option Plan.Operation :=
  (context.plan.operations.filter (·.operationId = id.getD "")).getLast?

end RuleContext

/-- A finding about an operation. -/
def Finding.about (operation : Plan.Operation) (finding : Finding) : Finding :=
  { finding with featureId := some operation.featureId, operationId := some operation.operationId }

/-! ## Values -/

/-- A Python `int`, of which `bool` is a kind. -/
def asInteger : Value → Option ℤ
  | .num (.int n) => some n
  | .bool b => some (if b then 1 else 0)
  | _ => none

def asText : Value → Option String
  | .str text => some text
  | _ => none

noncomputable section

/-- `float(geometry.get(key, 0.0))` -/
def numberAt (geometry : Dict) (key : String) : Except KernelError ℝ :=
  float ((geometry.lookup key).getD (real 0))

/-- A closed polyline of an operation, of any type, with the points under `vertices_mm`. -/
def closedPolyline (operation : Plan.Operation) : Except KernelError Polyline2D := do
  Polyline2D.checked (← geometryPoints operation.geometry "vertices_mm") true

end

end CadHarness.Validation
