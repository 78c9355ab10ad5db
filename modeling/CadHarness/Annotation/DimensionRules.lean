import CadHarness.Catalog.Registry
import CadHarness.Lib.SortBy
import Mathlib.Data.Prod.Lex
import Mathlib.Data.String.Basic

/-!
# Measurements of compiled geometry

`cad_harness.annotation.dimension_rules`: the extents and the holes that the annotations are made from, read from
the operations of a plan.
-/

namespace CadHarness.Annotation
open CadHarness.Catalog CadHarness.Geometry CadHarness.Plan
open CadHarness.Lib

structure Hole where
  featureId : String
  sourceOperationId : String
  center : Point2D
  diameterMm : ℝ

/-- Holes of one diameter; the first one gives it. -/
structure HoleGroup where
  first : Hole
  others : List Hole := []

namespace HoleGroup

variable (group : HoleGroup)

def diameterMm : ℝ := group.first.diameterMm

def holes : List Hole := group.first :: group.others

end HoleGroup

structure GeometryMeasurements where
  box : BoundingBox
  holeGroups : List HoleGroup

/-- What the measurement sees of an operation. -/
inductive Entity where
  | circle (circle : Circle2D)
  | polyline (polyline : Polyline2D)

/-- The items of a list under a key. -/
def listEntry (geometry : Dict) (key : String) : Except KernelError (List Value) := do
  match ← entry geometry key with
  | .arr items => return items
  | _ => throw .typeError

noncomputable section
open Classical

namespace Entity

/-- `entity_bounding_box` -/
def box : Entity → BoundingBox
  | circle c => ⟨c.center.x - c.radiusMm, c.center.y - c.radiusMm, c.center.x + c.radiusMm, c.center.y + c.radiusMm⟩
  | polyline p => p.boundingBox

end Entity

/-- `entity_set_bounding_box` -/
def entitySetBoundingBox (entities : List Entity) : Except KernelError BoundingBox :=
  if entities.isEmpty then .error (invalidGeometry "Cannot measure an empty entity set")
  else
    let boxes := entities.map Entity.box
    .ok ⟨minimumOf (boxes.map (·.minX)), minimumOf (boxes.map (·.minY)), maximumOf (boxes.map (·.maxX)),
      maximumOf (boxes.map (·.maxY))⟩

/-- The circles of one operation. -/
def circlesOf (geometry : Dict) : Except KernelError (List Circle2D) := do
  let diameter ← float (← entry geometry "diameter_mm")
  (← listEntry geometry "centers_mm").mapM fun item => do Circle2D.checked (← pointItem item) diameter

/-- A single circle is measured with half of its diameter in the place of the diameter. -/
def circleOf (geometry : Dict) : Except KernelError Circle2D := do
  let center ← entry geometry "center_mm"
  Circle2D.checked (← pointItem center) ((← float (← entry geometry "diameter_mm")) / 2)

/-- `_entities`; lines and arcs give none -/
def entities (operation : Plan.Operation) : Except KernelError (List Entity) :=
  match operation.type with
  | .createPolyline => do
      return [.polyline (← Polyline2D.checked (← pointItems (← listEntry operation.geometry "vertices_mm")) false)]
  | .createClosedPolyline => do
      return [.polyline (← Polyline2D.checked (← pointItems (← listEntry operation.geometry "vertices_mm")) true)]
  | .createCircles => do return (← circlesOf operation.geometry).map Entity.circle
  | .createCircle => do return [.circle (← circleOf operation.geometry)]
  | _ => .ok []

/-- The operations whose circles are holes. -/
def IsHoleGeometry (holeLayer : String) (operation : Plan.Operation) : Prop :=
  operation.type = .createCircles ∨
    (operation.type = .createCircle ∧ ¬ ":outer".toList <:+ operation.operationId.toList ∧
      (operation.layer = holeLayer ∨ "hole".toList <:+: operation.operationId.toList ∨
        "bore".toList <:+: operation.operationId.toList))

def holesOfEntities (operation : Plan.Operation) (found : List Entity) : List Hole :=
  found.filterMap fun entity =>
    match entity with
    | .circle c => some ⟨operation.featureId, operation.operationId, c.center, c.radiusMm * 2⟩
    | .polyline _ => none

def holesOf (holeLayer : String) (operation : Plan.Operation) : Except KernelError (List Hole) :=
  if IsHoleGeometry holeLayer operation then holesOfEntities operation <$> entities operation else .ok []

/-- The order of the holes. -/
def holeKey (hole : Hole) : ℝ ×ₗ ℝ ×ₗ ℝ ×ₗ String :=
  toLex (hole.diameterMm, toLex (hole.center.x, toLex (hole.center.y, hole.featureId)))

/-- A hole joins the first group of its diameter. -/
def joinGroup (tolerance : ToleranceProfile) : List HoleGroup → Hole → List HoleGroup
  | [], hole => [{ first := hole }]
  | group :: groups, hole =>
      if tolerance.LengthClose group.first.diameterMm hole.diameterMm then
        { group with others := group.others ++ [hole] } :: groups
      else group :: joinGroup tolerance groups hole

def measureGeometry (operations : List Plan.Operation) (holeLayer : String) (tolerance : ToleranceProfile) :
    Except KernelError GeometryMeasurements := do
  let measurable ← operations.mapM entities
  let box ← entitySetBoundingBox measurable.flatten
  let holes ← operations.mapM (holesOf holeLayer)
  return ⟨box, (sortBy holeKey holes.flatten).foldl (joinGroup tolerance) []⟩

/-- Two holes that share a horizontal or a vertical axis. -/
def Aligned (tolerance : ToleranceProfile) (first second : Hole) : Prop :=
  tolerance.IsCoincident |first.center.x - second.center.x| ∨ tolerance.IsCoincident |first.center.y - second.center.y|

def alignedHolePairs (tolerance : ToleranceProfile) : List Hole → List (Hole × Hole)
  | [] => []
  | first :: holes =>
      ((holes.filter fun second => Aligned tolerance first second).map fun second => (first, second)) ++
        alignedHolePairs tolerance holes

end

end CadHarness.Annotation
