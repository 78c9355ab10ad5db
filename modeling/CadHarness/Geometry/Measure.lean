import CadHarness.Geometry.Forest

/-!
# Measuring entities

Distances of points and entities, from `cad_harness.geometry.measure`.
-/

namespace CadHarness.Geometry

inductive MeasurableEntity where
  | circle (circle : Circle2D)
  | polyline (polyline : Polyline2D)
  | line (edge : LineEdge)
  | curve (curve : CurveParams)
  | contour (contour : CurveContour)

noncomputable section
open Classical

/-- `min`: there is none of no numbers -/
def leastOf : List ℝ → Except KernelError ℝ
  | [] => .error .valueError
  | x :: xs => .ok (minimumOf (x :: xs))

/-- `_segments` -/
def MeasurableEntity.segments (tolerance : ToleranceProfile) :
    MeasurableEntity → Except KernelError (List (Point2D × Point2D))
  | .polyline path => .ok path.segments
  | .line edge => .ok [(edge.start, edge.endPoint)]
  | .curve c => do
      let points ← linearizeCurve c tolerance.arcChordToleranceMm
      return points.zip points.tail
  | .contour c => do
      let points ← c.vertices tolerance.arcChordToleranceMm
      return (← Polyline2D.checked points true).segments
  | .circle _ => .error (invalidParameters "A circle does not expose line segments")

def pointEntityDistance (p : Point2D) (entity : MeasurableEntity) (tolerance : ToleranceProfile) :
    Except KernelError ℝ :=
  match entity with
  | .circle circle => .ok |p.distanceTo circle.center - circle.radiusMm|
  | entity => do
      let segments ← entity.segments tolerance
      leastOf (segments.map fun s => pointToSegmentDistance p s.1 s.2)

/-- A length that the tolerance does not tell from zero is zero. -/
def ToleranceProfile.snap (tolerance : ToleranceProfile) (lengthMm : ℝ) : ℝ :=
  if tolerance.IsZeroLength lengthMm then 0 else lengthMm

/-- `_segment_distance` -/
def segmentDistance (first second : Point2D × Point2D) (tolerance : ToleranceProfile) : ℝ :=
  if (segmentIntersection first.1 first.2 second.1 second.2).isSome then 0
  else tolerance.snap (minimumOf
    [pointToSegmentDistance first.1 second.1 second.2, pointToSegmentDistance first.2 second.1 second.2,
      pointToSegmentDistance second.1 first.1 first.2, pointToSegmentDistance second.2 first.1 first.2])

/-- The distance of a circle to an entity of another kind. -/
def circleEntityDistance (circle : Circle2D) (entity : MeasurableEntity) (tolerance : ToleranceProfile) :
    Except KernelError ℝ := do
  return tolerance.snap ((← pointEntityDistance circle.center entity tolerance) - circle.radiusMm)

def entityEntityDistance (first second : MeasurableEntity) (tolerance : ToleranceProfile) : Except KernelError ℝ :=
  match first, second with
  | .circle first, .circle second =>
      .ok (tolerance.snap (first.center.distanceTo second.center - first.radiusMm - second.radiusMm))
  | .circle first, second => circleEntityDistance first second tolerance
  | first, .circle second => circleEntityDistance second first tolerance
  | first, second => do
      let segments ← first.segments tolerance
      let others ← second.segments tolerance
      leastOf (segments.flatMap fun a => others.map fun b => segmentDistance a b tolerance)

end

end CadHarness.Geometry
