import CadHarness.Geometry.Primitives

/-!
# Intersections and containment

`cad_harness.geometry.intersections` and `cad_harness.geometry.predicates`, as far as the compilers and the rules
of a plan use them.
-/

namespace CadHarness.Geometry

noncomputable section
open Classical

/-! ## Intersections -/

/-- The point where two segments cross. Parallel segments do not. -/
def segmentIntersection (a₁ a₂ b₁ b₂ : Point2D) : Option Point2D :=
  let d₁ := a₁.vectorTo a₂
  let d₂ := b₁.vectorTo b₂
  let denominator := d₁.cross d₂
  if |denominator| < 1e-12 then none
  else
    let offset := a₁.vectorTo b₁
    let t := offset.cross d₂ / denominator
    let u := offset.cross d₁ / denominator
    if 0 ≤ t ∧ t ≤ 1 ∧ 0 ≤ u ∧ u ≤ 1 then some ⟨a₁.x + d₁.dx * t, a₁.y + d₁.dy * t⟩ else none

def pointToSegmentDistance (p a b : Point2D) : ℝ :=
  let segment := a.vectorTo b
  let lengthSquared := segment.dx ^ 2 + segment.dy ^ 2
  if lengthSquared ≤ 0 then p.distanceTo a
  else
    let t := max 0 (min 1 ((a.vectorTo p).dot segment / lengthSquared))
    p.distanceTo ⟨a.x + segment.dx * t, a.y + segment.dy * t⟩

def CirclesOverlap (centerA : Point2D) (diameterA : ℝ) (centerB : Point2D) (diameterB minimumLigament : ℝ) : Prop :=
  centerA.distanceTo centerB < (diameterA + diameterB) / 2 + minimumLigament

/-- `angular_spacing_deg`: the gaps between the directions of the points, in the order of their angles -/
def angularSpacingDeg (center : Point2D) (points : List Point2D) : List ℝ :=
  match (points.map fun p => modulo (degrees (atan2 (p.y - center.y) (p.x - center.x))) 360).insertionSort (· ≤ ·) with
  | [] | [_] => []
  | first :: second :: rest =>
      ((first :: second :: rest).zip (second :: rest)).map (fun gap => gap.2 - gap.1) ++
        [360 - (second :: rest).getLastD first + first]

/-- `angle_close_deg`: the difference is wrapped into a half turn on both sides -/
def ToleranceProfile.AngleCloseDeg (tolerance : ToleranceProfile) (a b : ℝ) : Prop :=
  |modulo (a - b + 180) 360 - 180| ≤ tolerance.angularDeg

/-- `line_angle_deg` -/
def lineAngleDeg (firstStart firstEnd secondStart secondEnd : Point2D) (tolerance : ToleranceProfile) :
    Except KernelError ℝ :=
  let first := firstStart.vectorTo firstEnd
  let second := secondStart.vectorTo secondEnd
  if tolerance.IsZeroLength first.length ∨ tolerance.IsZeroLength second.length then
    .error (invalidGeometry "Line angle is undefined for a zero-length line")
  else .ok (degrees (Real.arccos (max (-1) (min 1 |first.dot second / (first.length * second.length)|))))

/-- `contour_intersections`: the crossings in the order of the segments, each once -/
def contourIntersections (first second : Polyline2D) (tolerance : ToleranceProfile) : List Point2D :=
  (first.segments.flatMap fun a => second.segments.map fun b => (a, b)).foldl (fun found pair =>
    match segmentIntersection pair.1.1 pair.1.2 pair.2.1 pair.2.2 with
    | none => found
    | some candidate =>
        if ∃ item ∈ found, tolerance.IsCoincident (candidate.distanceTo item) then found
        else found ++ [candidate]) []

/-! ## Predicates -/

/-- `polyline_self_intersects`: two segments cross that are not neighbours -/
def PolylineSelfIntersects (polyline : Polyline2D) : Prop :=
  let segments := polyline.segments
  ∃ i j a b, i < j ∧ segments[i]? = some a ∧ segments[j]? = some b ∧
    ¬ (j = i + 1 ∨ (i = 0 ∧ j = segments.length - 1 ∧ polyline.closed = true)) ∧
    (segmentIntersection a.1 a.2 b.1 b.2).isSome = true

def IsOrthogonalRectangle (polyline : Polyline2D) (tolerance : ToleranceProfile) : Prop :=
  polyline.closed = true ∧ polyline.vertices.length = 4 ∧ ∀ s ∈ polyline.segments,
    tolerance.IsZeroLength |s.1.y - s.2.y| ∨ tolerance.IsZeroLength |s.1.x - s.2.x|

/-- The least of the numbers, or zero for none. -/
def minimumOf : List ℝ → ℝ
  | [] => 0
  | x :: xs => xs.foldl min x

def maximumOf : List ℝ → ℝ
  | [] => 0
  | x :: xs => xs.foldl max x

/-- The distance of a point to the segments of a contour, which has some. -/
def boundaryDistance (contour : Polyline2D) (p : Point2D) : ℝ :=
  minimumOf (contour.segments.map fun s => pointToSegmentDistance p s.1 s.2)

def PointOnBoundary (p : Point2D) (contour : Polyline2D) (tolerance : ToleranceProfile) : Prop :=
  ∃ s ∈ contour.segments, tolerance.IsCoincident (pointToSegmentDistance p s.1 s.2)

/-- A segment that a ray from the point to the right crosses. -/
def RayCrosses (p start endPoint : Point2D) : Prop :=
  ¬ (start.y > p.y ↔ endPoint.y > p.y) ∧
    start.x + (p.y - start.y) * (endPoint.x - start.x) / (endPoint.y - start.y) > p.x

/-- `_contains_point`: on the boundary, or an odd number of crossings -/
def ContainsPoint (contour : Polyline2D) (p : Point2D) (tolerance : ToleranceProfile) : Prop :=
  PointOnBoundary p contour tolerance ∨
    contour.segments.foldl (fun inside s => if RayCrosses p s.1 s.2 then !inside else inside) false = true

/-- The vertices and the midpoints of the segments. -/
def probes (contour : Polyline2D) : List Point2D :=
  contour.vertices ++ contour.segments.map fun s => ⟨(s.1.x + s.2.x) / 2, (s.1.y + s.2.y) / 2⟩

def IsClosedWithin (polyline : Polyline2D) (tolerance : ToleranceProfile) : Prop :=
  polyline.closed = true ∨ ∃ first last, polyline.vertices.head? = some first ∧
    polyline.vertices.getLast? = some last ∧ tolerance.IsCoincident (first.distanceTo last)

def ContainsContour (outer inner : Polyline2D) (tolerance : ToleranceProfile) : Prop :=
  IsClosedWithin outer tolerance ∧ IsClosedWithin inner tolerance ∧ ∀ p ∈ probes inner, ContainsPoint outer p tolerance

/-- `contour_overflow_mm`: how far a contour extends outside its parent -/
def contourOverflowMm (outer inner : Polyline2D) (tolerance : ToleranceProfile) : ℝ :=
  maximumOf (((probes inner).filter fun p => ¬ ContainsPoint outer p tolerance).map (boundaryDistance outer))

/-- `circle_overflow_mm` -/
def circleOverflowMm (outer : Polyline2D) (circle : Circle2D) (tolerance : ToleranceProfile) : ℝ :=
  let edgeDistance := boundaryDistance outer circle.center
  if ContainsPoint outer circle.center tolerance then max 0 (circle.radiusMm - edgeDistance)
  else circle.radiusMm + edgeDistance

/-! ## Containment forests -/

/-- The container with the least area, the first of equal ones. -/
def leastContainer (areas : List ℝ) : List Nat → Option Nat
  | [] => none
  | c :: cs => some (cs.foldl (fun best c => if areas.getD c 0 < areas.getD best 0 then c else best) c)

/-- The parents that `ContourForest.build` finds for polylines. -/
def forestParents (contours : List Polyline2D) (tolerance : ToleranceProfile) : List (Option Nat) :=
  let areas := contours.map Polyline2D.area
  contours.zipIdx.map fun child => leastContainer areas
    ((contours.zipIdx.filter fun candidate => candidate.2 ≠ child.2 ∧ candidate.1.area > child.1.area ∧
      ContainsContour candidate.1 child.1 tolerance).map Prod.snd)

/-- The way from a contour to its root. A way that comes back to a contour raises. -/
def forestDepth (parents : List (Option Nat)) : Nat → List Nat → Option Nat → Except KernelError Nat
  | _, _, none => .ok 0
  | 0, _, some _ => .error (invalidGeometry "Contour containment cycle detected")
  | steps + 1, seen, some parent =>
      if parent ∈ seen then .error (invalidGeometry "Contour containment cycle detected")
      else (· + 1) <$> forestDepth parents steps (parent :: seen) (parents.getD parent none)

/-- `ContourForest.build` on closed polylines: the parent of each. A way has at most as many steps as there are
contours. -/
def buildForest (contours : List Polyline2D) (tolerance : ToleranceProfile) : Except KernelError (List (Option Nat)) :=
  if ∃ contour ∈ contours, contour.closed = false then
    .error (invalidGeometry "Contour forests accept only closed contours")
  else do
    let parents := forestParents contours tolerance
    let _ ← (List.range contours.length).mapM fun index =>
      forestDepth parents contours.length [index] (parents.getD index none)
    return parents

end

end CadHarness.Geometry
