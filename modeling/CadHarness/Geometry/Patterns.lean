import CadHarness.Geometry.Curves
import Mathlib.Analysis.SpecialFunctions.Trigonometric.Inverse
import Mathlib.Data.Real.Basic

/-!
# Slots and fillets

`cad_harness.geometry.patterns` (the slot) and `cad_harness.geometry.fillet_chamfer` (the fillet): the arcs
that the compilers and the remediation draw.
-/

/-!
## Tolerances

`cad_harness.geometry.tolerance` over exact reals.
-/

namespace CadHarness.Geometry

structure ToleranceProfile where
  absoluteLengthMm : ℝ := 1e-3
  relativeLength : ℝ := 1e-9
  angularDeg : ℝ := 1e-4
  coincidenceMm : ℝ := 1e-3
  areaMm2 : ℝ := 1e-2
  arcChordToleranceMm : ℝ := 0.01

namespace ToleranceProfile

variable (tolerance : ToleranceProfile)

def LengthClose (a b : ℝ) : Prop :=
  |a - b| ≤ max (tolerance.relativeLength * max |a| |b|) tolerance.absoluteLengthMm

def AreaClose (a b : ℝ) : Prop := |a - b| ≤ max (tolerance.relativeLength * max |a| |b|) tolerance.areaMm2

def IsCoincident (distanceMm : ℝ) : Prop := distanceMm ≤ tolerance.coincidenceMm

def IsZeroLength (lengthMm : ℝ) : Prop := lengthMm ≤ tolerance.absoluteLengthMm

end ToleranceProfile

end CadHarness.Geometry

namespace CadHarness.Geometry

structure Vector2D where
  dx : ℝ
  dy : ℝ

noncomputable section
open Classical

namespace Vector2D

def length (v : Vector2D) : ℝ := √(v.dx ^ 2 + v.dy ^ 2)

def scaled (v : Vector2D) (factor : ℝ) : Vector2D := ⟨v.dx * factor, v.dy * factor⟩

def normalized (v : Vector2D) : Except KernelError Vector2D :=
  if v.length ≤ 0 then .error (invalidGeometry "Cannot normalize a zero-length vector")
  else .ok ⟨v.dx / v.length, v.dy / v.length⟩

def dot (v w : Vector2D) : ℝ := v.dx * w.dx + v.dy * w.dy

def cross (v w : Vector2D) : ℝ := v.dx * w.dy - v.dy * w.dx

end Vector2D

def Point2D.vectorTo (p q : Point2D) : Vector2D := ⟨q.x - p.x, q.y - p.y⟩

/-! ## Slot -/

/-- The four tangent points of a slot: top left, top right, bottom right, bottom left. -/
structure SlotOutline where
  topLeft : Point2D
  topRight : Point2D
  bottomRight : Point2D
  bottomLeft : Point2D

def slotOutline (center : Point2D) (lengthMm widthMm angleDeg : ℝ) : Except KernelError SlotOutline :=
  if widthMm ≤ 0 then
    .error (invalidParameters "Slot width must be positive" [("width_mm", .number widthMm)])
  else if lengthMm ≤ widthMm then
    .error (invalidParameters "Slot length must exceed its width, otherwise specify a circular hole"
      [("length_mm", .number lengthMm), ("width_mm", .number widthMm)])
  else
    let halfStraight := (lengthMm - widthMm) / 2
    let halfWidth := widthMm / 2
    let place := fun (p : Point2D) => (p.rotated angleDeg).translated center.x center.y
    .ok {
      topLeft := place ⟨-halfStraight, halfWidth⟩
      topRight := place ⟨halfStraight, halfWidth⟩
      bottomRight := place ⟨halfStraight, -halfWidth⟩
      bottomLeft := place ⟨-halfStraight, -halfWidth⟩ }

/-- The half turn clockwise from one tangent point to the opposite one. -/
def slotEndArc (first second : Point2D) (radius : ℝ) : Except KernelError CurveParams :=
  let center : Point2D := ⟨(first.x + second.x) / 2, (first.y + second.y) / 2⟩
  let start := degrees (atan2 (first.y - center.y) (first.x - center.x))
  normalizeArc center radius start none (some (-180))

/-- `slot_end_arcs`: the right and the left semicircle -/
def slotEndArcs (tangentPoints : SlotOutline) (widthMm : ℝ) : Except KernelError (CurveParams × CurveParams) :=
  if widthMm ≤ 0 then
    .error (invalidParameters "Slot width must be positive" [("width_mm", .number widthMm)])
  else do
    let ⟨topLeft, topRight, bottomRight, bottomLeft⟩ := tangentPoints
    let right ← slotEndArc topRight bottomRight (widthMm / 2)
    let left ← slotEndArc bottomLeft topLeft (widthMm / 2)
    return (right, left)

/-! ## Fillet -/

structure FilletResult where
  tangentIn : Point2D
  tangentOut : Point2D
  arc : CurveParams
  maximumRadiusMm : ℝ

/-- `_unit_from_vertex` -/
def unitFromVertex (vertex point : Point2D) : Except KernelError Vector2D :=
  let vector := vertex.vectorTo point
  if vector.length ≤ 0 then .error (invalidParameters "Adjacent edge has zero length") else vector.normalized

/-- `_interior_angle` -/
def interiorAngle (first second : Vector2D) : Except KernelError ℝ :=
  let cosine := max (-1) (min 1 (first.dot second))
  let angle := Real.arccos cosine
  if angle ≤ 1e-12 ∨ Real.pi - angle ≤ 1e-12 then
    .error (invalidParameters "Fillet/chamfer requires a non-collinear vertex")
  else .ok angle

/-- `_offset` -/
def offset (vertex : Point2D) (direction : Vector2D) (distanceMm : ℝ) : Point2D :=
  ⟨vertex.x + direction.dx * distanceMm, vertex.y + direction.dy * distanceMm⟩

/-- How the path turns at a vertex: positive to the left. -/
def turn (previous vertex following : Point2D) : ℝ :=
  (previous.vectorTo vertex).cross (vertex.vectorTo following)

def filletIsTangent (fillet : FilletResult) (previous vertex following : Point2D)
    (tolerance : ToleranceProfile) : Except KernelError Bool := do
  let incoming ← (previous.vectorTo vertex).normalized
  let outgoing ← (vertex.vectorTo following).normalized
  let firstError := |(fillet.arc.center.vectorTo fillet.tangentIn).dot incoming|
  let secondError := |(fillet.arc.center.vectorTo fillet.tangentOut).dot outgoing|
  let scale := max (fillet.arc.radiusMm.getD (fillet.arc.semiMajorMm.getD 0)) 1
  return tolerance.IsZeroLength (firstError / scale) ∧ tolerance.IsZeroLength (secondError / scale)

/-- The radius is at most half of the shorter edge. -/
def checkFilletRadius (radiusMm maximum : ℝ) (tolerance : ToleranceProfile) : Except KernelError Unit :=
  if radiusMm > maximum ∧ ¬ tolerance.LengthClose radiusMm maximum then
    .error (.harness .invalidFeatureParameters "Fillet radius exceeds the feasible maximum"
      (some "Reduce the radius or lengthen both adjacent edges")
      [("radius_mm", .number radiusMm), ("maximum_allowed_mm", .number maximum),
        ("maximum_radius_mm", .number maximum)])
  else .ok ()

def filletVertex (previous vertex following : Point2D) (radiusMm : ℝ) (tolerance : ToleranceProfile) :
    Except KernelError FilletResult :=
  if radiusMm ≤ 0 then .error (invalidParameters "Fillet radius must be positive") else do
    let first ← unitFromVertex vertex previous
    let second ← unitFromVertex vertex following
    let angle ← interiorAngle first second
    let maximum := min (vertex.distanceTo previous) (vertex.distanceTo following) / 2
    checkFilletRadius radiusMm maximum tolerance
    let tangentDistance := radiusMm / Real.tan (angle / 2)
    let tangentIn := offset vertex first tangentDistance
    let tangentOut := offset vertex second tangentDistance
    let bisector ← Vector2D.normalized ⟨first.dx + second.dx, first.dy + second.dy⟩
    let center := offset vertex bisector (radiusMm / Real.sin (angle / 2))
    let startAngle := degrees (atan2 (tangentIn.y - center.y) (tangentIn.x - center.x))
    let magnitude := 180 - degrees angle
    let sweep := if turn previous vertex following > 0 then magnitude else -magnitude
    let arc ← normalizeArc center radiusMm startAngle none (some sweep)
    let result : FilletResult := ⟨tangentIn, tangentOut, arc, maximum⟩
    if ← filletIsTangent result previous vertex following tolerance then return result
    else .error (invalidParameters "Constructed fillet failed its tangency check")

end

end CadHarness.Geometry
