import CadHarness.Geometry.Patterns

/-!
# Boxes, circles and polylines

The rest of `cad_harness.geometry.primitives`.
-/

namespace CadHarness.Geometry

def Point2D.asTuple (p : Point2D) : Plan.Value := Plan.pair p.x p.y

/-! ## Bounding boxes -/

@[ext] structure BoundingBox where
  minX : ℝ
  minY : ℝ
  maxX : ℝ
  maxY : ℝ

noncomputable section
open Classical

namespace BoundingBox

variable (box : BoundingBox)

def width : ℝ := box.maxX - box.minX

def height : ℝ := box.maxY - box.minY

/-- The distance of a point inside to the nearest edge; it is negative outside. -/
def distanceToEdge (p : Point2D) : ℝ :=
  min (min (p.x - box.minX) (box.maxX - p.x)) (min (p.y - box.minY) (box.maxY - p.y))

/-- The box of a point and others. -/
def around (p : Point2D) (points : List Point2D) : BoundingBox where
  minX := points.foldl (fun m q => min m q.x) p.x
  minY := points.foldl (fun m q => min m q.y) p.y
  maxX := points.foldl (fun m q => max m q.x) p.x
  maxY := points.foldl (fun m q => max m q.y) p.y

def fromPoints : List Point2D → Except KernelError BoundingBox
  | [] => .error (invalidGeometry "Cannot build a bounding box from zero points")
  | p :: points => .ok (around p points)

end BoundingBox

/-! ## Circles -/

structure Circle2D where
  center : Point2D
  diameterMm : ℝ
  diameter_pos : 0 < diameterMm

namespace Circle2D

def checked (center : Point2D) (diameterMm : ℝ) : Except KernelError Circle2D :=
  if h : 0 < diameterMm then .ok ⟨center, diameterMm, h⟩
  else .error (.harness .invalidGeometry "Circle diameter must be positive" none
    [("diameter_mm", .number diameterMm)])

def radiusMm (circle : Circle2D) : ℝ := circle.diameterMm / 2

end Circle2D

/-! ## Polylines -/

structure Polyline2D where
  vertices : List Point2D
  closed : Bool
  two_le : 2 ≤ vertices.length

namespace Polyline2D

def checked (vertices : List Point2D) (closed : Bool) : Except KernelError Polyline2D :=
  if h : 2 ≤ vertices.length then .ok ⟨vertices, closed, h⟩
  else .error (.harness .invalidGeometry "A polyline needs at least two vertices" none
    [("vertex_count", .count vertices.length)])

variable (polyline : Polyline2D)

/-- Each vertex with the next one; a closed polyline comes back to the first. -/
def segments : List (Point2D × Point2D) :=
  match polyline.vertices with
  | [] => []
  | first :: rest => (first :: rest).zip (if polyline.closed then rest ++ [first] else rest)

def perimeter : ℝ := (polyline.segments.map fun s => s.1.distanceTo s.2).sum

def signedArea : ℝ :=
  ((polyline.vertices.zip (polyline.vertices.tail ++ polyline.vertices.take 1)).map fun s =>
    s.1.x * s.2.y - s.2.x * s.1.y).sum / 2

def area : ℝ := |polyline.signedArea|

def boundingBox : BoundingBox :=
  match polyline.vertices with
  | [] => ⟨0, 0, 0, 0⟩
  | first :: rest => .around first rest

def HasZeroLengthSegment (tolerance : ToleranceProfile) : Prop :=
  ∃ s ∈ polyline.segments, tolerance.IsZeroLength (s.1.distanceTo s.2)

end Polyline2D

end

end CadHarness.Geometry
