import CadHarness.Geometry.Compile
import CadHarness.Geometry.Predicates
import CadHarness.Lib.Levels
import Mathlib.Analysis.SpecialFunctions.Log.Base

/-!
# Tracing of raster images

`cad_harness.comprehension.raster_trace`: how a component of ink becomes a shape in pixels, and the shape a geometry in
millimetres. Numbers are exact: the rounding of the results to nine decimals is left out. What NumPy and OpenCV solve is
a parameter.
-/

namespace CadHarness.Comprehension
open CadHarness.Geometry CadHarness.Lib

/-- The outline of a component. -/
structure Contour where
  arcLength : ℝ
  contourArea : ℝ
  approxPolyDP : ℝ → List Point2D

/-- What the libraries compute from pixels. -/
structure Vision where
  /-- `np.linalg.lstsq` of the circle equations: the solution, if the rank is full -/
  lstsq : List Point2D → Option (ℝ × ℝ × ℝ)
  /-- `np.linalg.eigh` of a covariance: the eigenvalues in ascending order, and the direction of the second -/
  eigh : ℝ → ℝ → ℝ → (ℝ × ℝ) × Point2D
  /-- the largest of `cv2.findContours` -/
  findContours : List Point2D → Option Contour

/-- A connected component of ink: its pixels and its statistics, beside the size of the image. -/
structure Component where
  pixels : List Point2D
  x : ℝ
  y : ℝ
  width : ℝ
  height : ℝ
  support : Nat
  imageWidth : ℝ
  imageHeight : ℝ

inductive ShapeKind where
  | line (start endPoint : Point2D)
  | circle (center : Point2D) (radius : ℝ)
  /-- angles in radians, as pixels have them: from the first axis towards the second -/
  | arc (center : Point2D) (radius start endAngle : ℝ)
  | polyline (vertices : List Point2D)

/-- `_DetectedShape` -/
structure DetectedShape where
  shape : ShapeKind
  confidence : ℝ
  fitErrorPx : ℝ
  supportPixels : Nat
  bbox : ℝ × ℝ × ℝ × ℝ
  warnings : List String := []

structure CircleFit where
  center : Point2D
  radius : ℝ
  error : ℝ
  start : ℝ
  endAngle : ℝ
  sweep : ℝ

structure LineFit where
  start : Point2D
  endPoint : Point2D
  error : ℝ
  elongation : ℝ

noncomputable section
open Classical

/-! ## Fits -/

def tau : ℝ := 2 * Real.pi

/-- `np.hypot` of the way between two points -/
def hypot (center p : Point2D) : ℝ := √((p.x - center.x) ^ 2 + (p.y - center.y) ^ 2)

/-- The directions of the pixels around a center, in ascending order. -/
def directions (center : Point2D) (points : List Point2D) : List ℝ :=
  (points.map fun p => modulo (atan2 (p.y - center.y) (p.x - center.x)) tau).insertionSort (· ≤ ·)

/-- `np.diff(np.concatenate((angles, angles[:1] + math.tau)))` -/
def turnGaps (angles : List ℝ) : List ℝ :=
  (angles.zip (angles.tail ++ (angles.take 1).map (· + tau))).map fun pair => pair.2 - pair.1

/-- `np.argmax`: the first place of the greatest number -/
def argmax (l : List ℝ) : Nat := l.findIdx (· = maximumOf l)

/-- `_circle_fit` -/
def circleFit (vision : Vision) (points : List Point2D) : Option CircleFit :=
  if points.length < 8 then none
  else
    match vision.lstsq points with
    | none => none
    | some (centerX, centerY, constant) =>
        let center : Point2D := ⟨centerX, centerY⟩
        let radiusSquared := constant + centerX * centerX + centerY * centerY
        if radiusSquared ≤ 0 then none
        else
          let radius := √radiusSquared
          let angles := directions center points
          let gapIndex := argmax (turnGaps angles)
          some
            { center, radius
              error := √(mean (points.map fun p => (hypot center p - radius) ^ 2))
              start := angles.getD ((gapIndex + 1) % angles.length) 0
              endAngle := angles.getD gapIndex 0
              sweep := tau - (turnGaps angles).getD gapIndex 0 }

/-- `_line_fit` -/
def lineFit (vision : Vision) (points : List Point2D) : Option LineFit :=
  if points.length < 2 then none
  else
    let center : Point2D := ⟨mean (points.map Point2D.x), mean (points.map Point2D.y)⟩
    let centered := points.map fun p => (⟨p.x - center.x, p.y - center.y⟩ : Point2D)
    let solved := vision.eigh (mean (centered.map fun p => p.x * p.x)) (mean (centered.map fun p => p.x * p.y))
      (mean (centered.map fun p => p.y * p.y))
    let (smaller, larger) := solved.1
    if larger ≤ 0 then none
    else
      let direction : Point2D := if solved.2.x < 0 ∨ solved.2.x = 0 ∧ solved.2.y < 0 then ⟨-solved.2.x, -solved.2.y⟩
        else solved.2
      let projections := centered.map fun p => p.x * direction.x + p.y * direction.y
      let along := fun t : ℝ => (⟨center.x + direction.x * t, center.y + direction.y * t⟩ : Point2D)
      some
        { start := along (minimumOf projections)
          endPoint := along (maximumOf projections)
          error := √(mean ((centered.zip projections).map fun item =>
            (item.1.x - item.2 * direction.x) ^ 2 + (item.1.y - item.2 * direction.y) ^ 2))
          elongation := larger / max smaller 1e-12 }

/-! ## Classification -/

namespace Component

variable (component : Component)

def bbox : ℝ × ℝ × ℝ × ℝ :=
  (component.x, component.y, component.x + component.width - 1, component.y + component.height - 1)

/-- A component that is a circle or an arc. -/
def circular (fit : CircleFit) : Option DetectedShape :=
  let tolerance := max 2 (fit.radius * 0.08)
  let fitScore := max 0 (1 - fit.error / tolerance)
  let supportScore := min 1 (component.support / max 32 (2 * Real.pi * fit.radius))
  let diagonal := √(component.imageWidth ^ 2 + component.imageHeight ^ 2)
  if fit.sweep ≥ tau * 0.88 ∧ fit.radius ≥ 3 ∧ fitScore ≥ 0.45 then
    some ⟨.circle fit.center fit.radius, 0.8 * fitScore + 0.2 * supportScore, fit.error, component.support,
      component.bbox, []⟩
  else if radians 25 ≤ fit.sweep ∧ fit.sweep < tau * 0.88 ∧ 3 ≤ fit.radius ∧ fit.radius ≤ diagonal * 2 ∧
      fitScore ≥ 0.5 then
    some ⟨.arc fit.center fit.radius fit.start fit.endAngle,
      0.75 * fitScore + 0.15 * supportScore + 0.1 * min 1 (fit.sweep / Real.pi), fit.error, component.support,
      component.bbox, ["arc_direction_requires_engineer_review"]⟩
  else none

def linear (fit : LineFit) : Option DetectedShape :=
  let length := hypot fit.start fit.endPoint
  let tolerance := max 3 (length * 0.025)
  let fitScore := max 0 (1 - fit.error / tolerance)
  if length ≥ 5 ∧ fit.elongation ≥ 10 ∧ fitScore ≥ 0.35 then
    some ⟨.line fit.start fit.endPoint, 0.75 * fitScore + 0.25 * min 1 (Real.logb 10 fit.elongation / 2), fit.error,
      component.support, component.bbox, []⟩
  else none

def outlined (contour : Contour) : Option DetectedShape :=
  let perimeter := contour.arcLength
  let area := contour.contourArea
  let vertices := contour.approxPolyDP (max 1 (perimeter * 0.02))
  let circularity := if perimeter > 0 then 4 * Real.pi * area / (perimeter * perimeter) else 0
  if 3 ≤ vertices.length ∧ vertices.length ≤ 12 ∧ area ≥ 16 ∧ circularity < 0.9 then
    some ⟨.polyline vertices, min 0.96 (0.7 + min (area / max 1 (component.width * component.height)) 1 * 0.2), 0,
      component.support, component.bbox, []⟩
  else if vertices.length ≥ 2 then
    some ⟨.polyline vertices, 0.15, max component.width component.height / 2, component.support, component.bbox,
      ["component_has_no_supported_primitive_fit"]⟩
  else none

def unsupported : DetectedShape :=
  ⟨.line ⟨component.x, component.y⟩ ⟨component.x + component.width - 1, component.y + component.height - 1⟩, 0.05,
    max component.width component.height, component.support, component.bbox,
    ["component_has_no_supported_primitive_fit"]⟩

end Component

/-- `_classify_component` -/
def classifyComponent (vision : Vision) (component : Component) : DetectedShape :=
  (((circleFit vision component.pixels).bind component.circular).orElse fun _ =>
    ((lineFit vision component.pixels).bind component.linear).orElse fun _ =>
      (vision.findContours component.pixels).bind component.outlined).getD component.unsupported

/-! ## Calibration -/

/-- Two pixels, where the first lies in millimetres and how far the second is from it. -/
structure RasterCalibration where
  pixelA : Point2D
  pixelB : Point2D
  referenceDistanceMm : ℝ
  originMm : Point2D := ⟨0, 0⟩
  reference_pos : 0 < referenceDistanceMm
  distinct : 0 < hypot pixelA pixelB

namespace RasterCalibration

variable (calibration : RasterCalibration)

def millimetresPerPixel : ℝ := calibration.referenceDistanceMm / hypot calibration.pixelA calibration.pixelB

def ux : ℝ := (calibration.pixelB.x - calibration.pixelA.x) / hypot calibration.pixelA calibration.pixelB

def uy : ℝ := (calibration.pixelB.y - calibration.pixelA.y) / hypot calibration.pixelA calibration.pixelB

end RasterCalibration

/-- `_CalibrationTransform.point` -/
def transformPoint (calibration : Option RasterCalibration) (p : Point2D) : Point2D :=
  match calibration with
  | none => p
  | some calibration =>
      let dx := p.x - calibration.pixelA.x
      let dy := p.y - calibration.pixelA.y
      ⟨calibration.originMm.x + calibration.millimetresPerPixel * (dx * calibration.ux + dy * calibration.uy),
        -- The ordinates of pixels point down.
        calibration.originMm.y + calibration.millimetresPerPixel * (dx * calibration.uy - dy * calibration.ux)⟩

/-- `_CalibrationTransform.length` -/
def transformLength (calibration : Option RasterCalibration) (value : ℝ) : ℝ :=
  match calibration with
  | none => value
  | some calibration => value * calibration.millimetresPerPixel

/-! ## Geometry -/

inductive RasterGeometry where
  | line (startMm endMm : Point2D)
  | circle (centerMm : Point2D) (radiusMm : ℝ)
  | arc (centerMm : Point2D) (radiusMm startAngleDeg endAngleDeg : ℝ)
  /-- a closed polyline without bulges -/
  | polyline (vertices : List Point2D)

/-- `p < q` of tuples -/
def TupleLt (p q : Point2D) : Prop := p.x < q.x ∨ p.x = q.x ∧ p.y < q.y

def signedArea (points : List Point2D) : ℝ :=
  ((points.zip (points.tail ++ points.take 1)).map fun edge => edge.1.x * edge.2.y - edge.2.x * edge.1.y).sum

/-- `_canonical_closed_points` -/
def canonicalClosedPoints (points : List Point2D) : List Point2D :=
  let distinct := points.destutter (· ≠ ·)
  let compact := if distinct.length > 1 ∧ distinct.head? = distinct.getLast? then distinct.dropLast else distinct
  if compact.dedup.length < 3 then compact
  else
    let oriented := if signedArea compact ≥ 0 then compact else compact.reverse
    oriented.rotate (oriented.findIdx fun p => ∀ q ∈ oriented, ¬ TupleLt q p)

/-- The direction of a point around a center, in degrees. -/
def directionOf (center p : Point2D) : ℝ := modulo (degrees (atan2 (p.y - center.y) (p.x - center.x))) 360

/-- `_geometry` -/
def rasterGeometry (calibration : Option RasterCalibration) : ShapeKind → RasterGeometry
  | .line start endPoint =>
      let first := transformPoint calibration start
      let second := transformPoint calibration endPoint
      if TupleLt second first then .line second first else .line first second
  | .circle center radius => .circle (transformPoint calibration center) (transformLength calibration radius)
  | .arc center radius start endAngle =>
      let startPoint : Point2D := ⟨center.x + radius * Real.cos start, center.y + radius * Real.sin start⟩
      let endPoint : Point2D := ⟨center.x + radius * Real.cos endAngle, center.y + radius * Real.sin endAngle⟩
      let centerMm := transformPoint calibration center
      .arc centerMm (transformLength calibration radius) (directionOf centerMm (transformPoint calibration startPoint))
        (directionOf centerMm (transformPoint calibration endPoint))
  | .polyline vertices => .polyline (canonicalClosedPoints (vertices.map (transformPoint calibration)))

/-! ## What is drawn -/

/-- The points of the arc of a component: from its first to its last pixel, the way on which its pixels lie. -/
def pixelArc (center : Point2D) (radius start endAngle : ℝ) : Set Point2D :=
  {p | ∃ turn, 0 ≤ turn ∧ turn ≤ modulo (endAngle - start) tau ∧
    p = ⟨center.x + radius * Real.cos (start + turn), center.y + radius * Real.sin (start + turn)⟩}

/-- The points of an emitted arc: counter-clockwise from its start angle to its end angle. -/
def RasterGeometry.arcPoints : RasterGeometry → Set Point2D
  | arc centerMm radiusMm startAngleDeg endAngleDeg =>
      (OperationGeometry.arc centerMm radiusMm startAngleDeg endAngleDeg).points
  | _ => ∅

end

end CadHarness.Comprehension
