import CadHarness.Geometry.Outlines
import CadHarness.Geometry.Tracing

/-!
# The forest of contours

The contours of `cad_harness.geometry.areas`, their areas and their forest.
-/

namespace CadHarness.Geometry

noncomputable section
open Classical

/-! ## Polylines of curves -/

def ContourEdge.points (chordToleranceMm : ℝ) : ContourEdge → Except KernelError (List Point2D)
  | .line edge => .ok [edge.start, edge.endPoint]
  | .curve c => linearizeCurve c chordToleranceMm

/-- The points of the edges, without those where an edge goes on from the one before. -/
def joinPoints (points : List Point2D) : List (List Point2D) → List Point2D
  | [] => points
  | edgePoints :: rest => joinPoints (if points = [] then edgePoints else points ++ edgePoints.tail) rest

/-- The last point is left out where it meets the first. -/
def dropClosing (points : List Point2D) (chordToleranceMm : ℝ) : List Point2D :=
  match points.head?, points.getLast? with
  | some first, some last =>
      if 1 < points.length ∧ first.distanceTo last ≤ chordToleranceMm then points.dropLast else points
  | _, _ => points

namespace CurveContour

def vertices (contour : CurveContour) (chordToleranceMm : ℝ) : Except KernelError (List Point2D) := do
  let points ← contour.edges.mapM (ContourEdge.points chordToleranceMm)
  return dropClosing (joinPoints [] points) chordToleranceMm

/-- `signed_contour_area` of a contour of edges -/
def signedArea (contour : CurveContour) : ℝ := (contour.edges.map ContourEdge.signedArea).sum

end CurveContour

/-! ## Contours -/

inductive Contour where
  | polyline (polyline : Polyline2D)
  | curves (contour : CurveContour)

def signedContourArea : Contour → Except KernelError ℝ
  | .polyline polyline =>
      if polyline.closed then .ok polyline.signedArea
      else .error (invalidGeometry "Area is undefined for an open contour")
  | .curves contour => .ok contour.signedArea

/-- `contour_area` -/
def Contour.area (contour : Contour) : Except KernelError ℝ := abs <$> signedContourArea contour

/-- `_as_polyline` -/
def asPolyline (tolerance : ToleranceProfile) : Contour → Except KernelError Polyline2D
  | .polyline polyline => .ok polyline
  | .curves contour => do Polyline2D.checked (← contour.vertices tolerance.arcChordToleranceMm) true

/-! ## The forest -/

structure ContourNode where
  contour : Contour
  parentIndex : Option Nat
  depth : Nat
  areaMm2 : ℝ

structure ContourForest where
  nodes : List ContourNode

namespace ContourForest

/-- The containers of one contour, in their order. -/
def containersOf (areas : List ℝ) (polylines : List Polyline2D) (tolerance : ToleranceProfile)
    (child : Polyline2D × Nat) : List Nat :=
  (polylines.zipIdx.filter fun candidate => candidate.2 ≠ child.2 ∧
    areas.getD candidate.2 0 > areas.getD child.2 0 ∧ ContainsContour candidate.1 child.1 tolerance).map Prod.snd

/-- The parent of each contour: the least of its containers -/
def parentsOf (areas : List ℝ) (polylines : List Polyline2D) (tolerance : ToleranceProfile) : List (Option Nat) :=
  polylines.zipIdx.map fun child => leastContainer areas (containersOf areas polylines tolerance child)

def build (contours : List Contour) (tolerance : ToleranceProfile) : Except KernelError ContourForest :=
  if ∃ polyline, .polyline polyline ∈ contours ∧ polyline.closed = false then
    .error (invalidGeometry "Contour forests accept only closed contours")
  else do
    let areas ← contours.mapM Contour.area
    let polylines ← contours.mapM (asPolyline tolerance)
    let parents := parentsOf areas polylines tolerance
    let depths ← (List.range contours.length).mapM fun index =>
      forestDepth parents contours.length [index] (parents.getD index none)
    return ⟨contours.zipIdx.map fun entry =>
      ⟨entry.1, parents.getD entry.2 none, depths.getD entry.2 0, areas.getD entry.2 0⟩⟩

variable (forest : ContourForest)

/-- The areas with the sign of their depth. -/
def netAreaMm2 : ℝ := (forest.nodes.map fun node => node.areaMm2 * (if node.depth % 2 = 0 then 1 else -1)).sum

end ContourForest

/-! ## The whole analysis -/

/-- `analyze_contours` -/
def analyzeDrawing (tolerance : ToleranceProfile) (entities : List EntityRecord) :
    Except KernelError (ContourAnalysis × ContourForest) := do
  let analysis ← analyzeContours tolerance entities
  let forest ← ContourForest.build (analysis.contours.map fun item => .curves item.contour) tolerance
  return (analysis, forest)

end

end CadHarness.Geometry
