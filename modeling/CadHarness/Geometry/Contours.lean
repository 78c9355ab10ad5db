import CadHarness.Geometry.Curves
import CadHarness.Geometry.Primitives
import Mathlib.Algebra.BigOperators.Group.Finset.Defs

/-!
# Contour edges

`cad_harness.comprehension.contours`: the edges of a drawing's entities, and the direction in which a chain
takes them. Entities that have no edges are left out.
-/

namespace CadHarness.Geometry

structure LineEdge where
  start : Point2D
  endPoint : Point2D

inductive ContourEdge where
  | line (edge : LineEdge)
  | curve (curve : CurveParams)

structure EdgeRecord where
  edge : ContourEdge
  entityRef : String

structure PolylineVertex where
  pointMm : Point2D
  bulge : ℝ := 0

inductive EntityGeometry where
  | line (startMm endMm : Point2D)
  | arc (centerMm : Point2D) (radiusMm startAngleDeg endAngleDeg : ℝ)
  | circle (centerMm : Point2D) (radiusMm : ℝ)
  | polyline (vertices : List PolylineVertex) (closed : Bool)

structure EntityRecord where
  entityRef : String
  geometry : EntityGeometry

noncomputable section

namespace EdgeRecord

def startPoint (record : EdgeRecord) : Point2D :=
  match record.edge with
  | .line edge => edge.start
  | .curve c => c.startPoint

def endPoint (record : EdgeRecord) : Point2D :=
  match record.edge with
  | .line edge => edge.endPoint
  | .curve c => c.endPoint

end EdgeRecord

/-- `_reverse_curve` -/
def reverseCurve (c : CurveParams) : CurveParams where
  kind := c.kind
  center := c.center
  startAngleDeg := c.endAngleDeg
  sweepDeg := -c.sweepDeg
  radiusMm := c.radiusMm
  semiMajorMm := c.semiMajorMm
  semiMinorMm := c.semiMinorMm
  rotationDeg := c.rotationDeg
  sweep_ne := by simpa using c.sweep_ne
  sweep_le := by simpa using c.sweep_le
  shape := by
    cases c.shape with
    | circular radius hradius hpos hmajor hminor => exact .circular radius hradius hpos hmajor hminor
    | elliptic major minor hmajor hminor hpos hle hradius =>
        exact .elliptic major minor hmajor hminor hpos hle hradius

/-- `_reverse` -/
def EdgeRecord.reverse (record : EdgeRecord) : EdgeRecord :=
  match record.edge with
  | .line edge => ⟨.line ⟨edge.endPoint, edge.start⟩, record.entityRef⟩
  | .curve c => ⟨.curve (reverseCurve c), record.entityRef⟩

open Classical in
/-- One segment of a polyline. -/
def segmentEdge (start endPoint : PolylineVertex) : Except KernelError ContourEdge :=
  if |start.bulge| ≤ 1e-15 then .ok (.line ⟨start.pointMm, endPoint.pointMm⟩)
  else (normalizeBulge start.pointMm endPoint.pointMm start.bulge).map .curve

/-- The segments of a polyline, with the closing one. -/
def segments (vertices : List PolylineVertex) (closed : Bool) : List (PolylineVertex × PolylineVertex) :=
  match vertices with
  | [] => []
  | first :: rest => vertices.zip (if closed then rest ++ [first] else rest)

/-- The edges that `_entity_edges` takes from one entity; the flag tells the circles, which are contours alone. -/
def entityEdges (entity : EntityRecord) : Except KernelError (List EdgeRecord × Bool) :=
  match entity.geometry with
  | .line start endPoint => .ok ([⟨.line ⟨start, endPoint⟩, entity.entityRef⟩], false)
  | .arc center radius startAngle endAngle => do
      let c ← normalizeArc center radius startAngle (some endAngle) none
      return ([⟨.curve c, entity.entityRef⟩], false)
  | .circle center radius => do
      let c ← normalizeCircle center radius
      return ([⟨.curve c, entity.entityRef⟩], true)
  | .polyline vertices closed => do
      let edges ← (segments vertices closed).mapM fun (start, endPoint) => segmentEdge start endPoint
      return (edges.map (⟨·, entity.entityRef⟩), false)

open Classical in
/-- `_find_match`: the first edge with an end at the given point, turned so that it starts there -/
def findMatch (coincidenceMm : ℝ) (endpoint : Point2D) : List EdgeRecord → Option (Nat × EdgeRecord)
  | [] => none
  | candidate :: rest =>
      if endpoint.distanceTo candidate.startPoint ≤ coincidenceMm then some (0, candidate)
      else if endpoint.distanceTo candidate.endPoint ≤ coincidenceMm then some (0, candidate.reverse)
      else (findMatch coincidenceMm endpoint rest).map fun (index, record) => (index + 1, record)

end

end CadHarness.Geometry

/-!
## Lengths of contours

`curve_length` and `contour_perimeter` of `cad_harness.geometry.areas`.
-/

namespace CadHarness.Geometry

noncomputable section

/-- `normalize_ellipse` -/
def normalizeEllipse (center : Point2D) (semiMajorMm semiMinorMm rotationDeg : ℝ) :
    Except KernelError CurveParams :=
  CurveFields.checked
    { kind := .ellipse, center, startAngleDeg := 0, sweepDeg := 360, semiMajorMm := some semiMajorMm,
      semiMinorMm := some semiMinorMm, rotationDeg }

/-- `_ellipse_arc_length`: the rule of Simpson with a fixed subdivision -/
def ellipseArcLength (semiMajor semiMinor startAngle endAngle : ℝ) : ℝ :=
  let count : Nat := 4096
  let step := (endAngle - startAngle) / count
  let speed (parameter : ℝ) := √((semiMajor * Real.sin parameter) ^ 2 + (semiMinor * Real.cos parameter) ^ 2)
  let inner := ((List.range (count - 1)).map fun i =>
    (if i % 2 = 0 then (4 : ℚ) else 2 : ℚ) * speed (startAngle + (i + 1 : Nat) * step)).sum
  |(speed startAngle + speed endAngle + inner) * step / (3 : ℚ)|

/-- `curve_length`; `shape` gives the axes that the source asserts -/
def curveLength (c : CurveParams) : ℝ :=
  match c.radiusMm with
  | some radius => radius * |radians c.sweepDeg|
  | none =>
      ellipseArcLength (c.semiMajorMm.getD 0) (c.semiMinorMm.getD 0) (radians c.startAngleDeg) (radians c.endAngleDeg)

def ContourEdge.length : ContourEdge → ℝ
  | .line edge => edge.start.distanceTo edge.endPoint
  | .curve c => curveLength c

/-- `CurveContour` -/
structure CurveContour where
  edges : List ContourEdge
  edges_ne : edges ≠ []

/-- `contour_perimeter` of a contour of edges -/
def contourPerimeter (contour : CurveContour) : ℝ := (contour.edges.map ContourEdge.length).sum

end

end CadHarness.Geometry
