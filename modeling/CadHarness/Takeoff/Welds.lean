import CadHarness.Drawing.Model
import CadHarness.Geometry.Contours
import CadHarness.Geometry.Outlines
import CadHarness.Geometry.Predicates
import CadHarness.Geometry.Tracing

/-!
# Welds of parts

`_weld_length` of `cad_harness.comprehension.takeoff`, and the weld lengths that `compute_takeoff` reports for the
parts with these outlines.
-/

/-!
## Lengths of declared entities

`_entity_length` of `cad_harness.comprehension.takeoff`, and the edges that the contour analysis takes from the
same entity.
-/

namespace CadHarness.Takeoff
open CadHarness.Geometry

noncomputable section

/-- `EntityGeometry` of the drawing model -/
abbrev Shape := Drawing.EntityGeometry Drawing.EntityRecord

def point (p : Drawing.Point) : Point2D := ⟨p.1, p.2⟩

theorem singleton_ne_nil {α : Type} (a : α) : [a] ≠ [] := List.cons_ne_nil a []

/-- `_entity_length` -/
def entityLength : Shape → Except KernelError (Option ℝ)
  | .line start finish => .ok (some ((point start).distanceTo (point finish)))
  | .arc center radius startAngle endAngle => do
      let curve ← normalizeArc (point center) radius startAngle (some endAngle) none
      return some (contourPerimeter ⟨[.curve curve], singleton_ne_nil _⟩)
  | .circle _ radius => .ok (some (2 * Real.pi * radius))
  | .ellipse center majorAxis minorAxis rotation => do
      let curve ← normalizeEllipse (point center) majorAxis minorAxis rotation
      return some (contourPerimeter ⟨[.curve curve], singleton_ne_nil _⟩)
  | .polyline vertices closed => do
      let polyline ← Polyline2D.checked (vertices.map fun vertex => point vertex.pointMm) closed
      return some polyline.perimeter
  | _ => .ok none

/-! ## The contour analysis -/

def boundaryVertex (vertex : Drawing.PolylineVertex) : Geometry.PolylineVertex := ⟨point vertex.pointMm, vertex.bulge⟩

/-- The geometry of which the contour analysis takes edges. -/
def boundaryGeometry : Shape → Option Geometry.EntityGeometry
  | .line start finish => some (.line (point start) (point finish))
  | .arc center radius startAngle endAngle => some (.arc (point center) radius startAngle endAngle)
  | .circle center radius => some (.circle (point center) radius)
  | .polyline vertices closed => some (.polyline (vertices.map boundaryVertex) closed)
  | _ => none

/-- The edges of an entity, in `_entity_edges`; the flag tells the circles. -/
def boundaryEdges (entityRef : String) (geometry : Shape) :
    Except KernelError (List EdgeRecord × Bool) :=
  match boundaryGeometry geometry with
  | some g => entityEdges ⟨entityRef, g⟩
  | none => .ok ([], false)

end

end CadHarness.Takeoff

namespace CadHarness.Takeoff
open CadHarness.Geometry

noncomputable section
open Classical

variable (tolerance : ToleranceProfile)

/-! ## Outlines as polygons -/

/-- The points of an edge. -/
def edgePoints (chordToleranceMm : ℝ) : ContourEdge → Except KernelError (List Point2D)
  | .line edge => .ok [edge.start, edge.endPoint]
  | .curve c => linearizeCurve c chordToleranceMm

/-- The points of the edges, each edge without its first point. -/
def joinPoints : List (List Point2D) → List Point2D
  | [] => []
  | first :: rest => first ++ rest.flatMap List.tail

/-- The last point is left out where it meets the first. -/
def dropClosing (chordToleranceMm : ℝ) (points : List Point2D) : List Point2D :=
  match points.head?, points.getLast? with
  | some first, some last =>
      if 1 < points.length ∧ first.distanceTo last ≤ chordToleranceMm then points.dropLast else points
  | _, _ => points

/-- `CurveContour.vertices` -/
def contourVertices (contour : CurveContour) (chordToleranceMm : ℝ) : Except KernelError (List Point2D) := do
  let points ← contour.edges.mapM (edgePoints chordToleranceMm)
  return dropClosing chordToleranceMm (joinPoints points)

/-- `_as_polyline` -/
def asPolyline (root : AssembledContour) : Except KernelError Polyline2D := do
  let vertices ← contourVertices root.contour tolerance.arcChordToleranceMm
  Polyline2D.checked vertices true

/-! ## Welds -/

/-- `_missing` -/
def missing (message : String) (details : List (String × Detail)) : KernelError :=
  .harness .missingRequiredInputs message
    (some "Supply a valid explicit take-off input; values are never defaulted or clamped") details

/-- The record of an entity: the last in the drawing. -/
def entityOf (entities : List Drawing.EntityRecord) (entityRef : String) : Option Drawing.EntityRecord :=
  entities.reverse.find? fun entity => entity.entityRef = entityRef

/-- The centre of the box around an entity. -/
def boxCenter (entity : Drawing.EntityRecord) : Point2D :=
  ⟨(entity.boundingBoxMm.minX + entity.boundingBoxMm.maxX) / 2, (entity.boundingBoxMm.minY + entity.boundingBoxMm.maxY) / 2⟩

/-- The length of a declared weld, if the part owns it. -/
def ownedLength (entities : List Drawing.EntityRecord) (outline : Polyline2D) (entityRef : String) :
    Except KernelError (Option ℝ) :=
  match entityOf entities entityRef with
  | none => .error (missing "Declared weld edge does not exist in the drawing"
      [("path", .value (.str "weld_edges")), ("entity_ref", .value (.str entityRef))])
  | some entity =>
      if ContainsPoint outline (boxCenter entity) tolerance then do
        match ← entityLength entity.geometry with
        | some length => return some length
        | none => .error (missing "Declared weld entity has no supported length"
            [("path", .value (.str "weld_edges")), ("entity_ref", .value (.str entityRef)),
              ("entity_type", .value (.str entity.entityType))])
      else .ok none

/-- `_weld_length`: the length, and the welds that the part owns -/
def weldLength (weldEdges : List String) (entities : List Drawing.EntityRecord) (root : AssembledContour) :
    Except KernelError (ℝ × List String) := do
  let outline ← asPolyline tolerance root
  let lengths ← weldEdges.mapM (ownedLength tolerance entities outline)
  return (lengths.reduceOption.sum, ((weldEdges.zip lengths).filter fun weld => weld.2.isSome).map Prod.fst)

/-- The weld lengths of the part lines of `compute_takeoff`, from the root contour of each part. -/
def weldLines (weldEdges : List String) (entities : List Drawing.EntityRecord) (roots : List AssembledContour) :
    Except KernelError (List (ℝ × List String)) :=
  roots.mapM (weldLength tolerance weldEdges entities)

end

end CadHarness.Takeoff
