import CadHarness.Domain.Errors
import CadHarness.Lib.Numerals
import CadHarness.Plan.Model
import Mathlib.Analysis.SpecialFunctions.Complex.Arg
import Mathlib.Analysis.SpecialFunctions.Trigonometric.Arctan

/-!
# Curves of the geometry kernel

`cad_harness.geometry.primitives` and `cad_harness.geometry.curves` over exact reals. Lengths are in
millimetres, angles in degrees, counter-clockwise from the positive x axis.
-/

namespace CadHarness.Geometry
open CadHarness.Domain (ErrorCode)

/-- What an error of the kernel says beside its message. -/
inductive Detail where
  | number (value : ℝ)
  | count (n : Nat)
  | paths (missing : List String)
  | value (value : Plan.Value)
  | repr (value : Plan.Value)

/-- What the kernel and the compilers raise. -/
inductive KernelError where
  | harness (code : ErrorCode) (message : String) (requiredAction : Option String)
      (details : List (String × Detail))
  | assertionError
  | typeError
  | valueError
  | indexError
  | keyError

def invalidGeometry (message : String) : KernelError := .harness .invalidGeometry message none []

def invalidParameters (message : String) (details : List (String × Detail) := []) : KernelError :=
  .harness .invalidFeatureParameters message none details

noncomputable section

/-! ## `math` -/

def radians (degrees : ℝ) : ℝ := degrees * (Real.pi / 180)

def degrees (radians : ℝ) : ℝ := radians * (180 / Real.pi)

def atan2 (y x : ℝ) : ℝ := Complex.arg ⟨x, y⟩

/-- The operator `%` of Python: the result has the sign of the divisor. -/
def modulo (a b : ℝ) : ℝ := a - b * ⌊a / b⌋

/-- `math.isclose` with an absolute tolerance only -/
def IsClose (a b tolerance : ℝ) : Prop := |a - b| ≤ tolerance

/-! ## Points -/

@[ext] structure Point2D where
  x : ℝ
  y : ℝ

namespace Point2D

def translated (p : Point2D) (dx dy : ℝ) : Point2D := ⟨p.x + dx, p.y + dy⟩

/-- `rotated` about the origin -/
def rotated (p : Point2D) (angleDeg : ℝ) : Point2D :=
  ⟨p.x * Real.cos (radians angleDeg) - p.y * Real.sin (radians angleDeg),
    p.x * Real.sin (radians angleDeg) + p.y * Real.cos (radians angleDeg)⟩

def distanceTo (p q : Point2D) : ℝ := √((p.x - q.x) ^ 2 + (p.y - q.y) ^ 2)

/-- The point as a complex number. -/
def toComplex (p : Point2D) : ℂ := ⟨p.x, p.y⟩

end Point2D

/-! ## Curves -/

inductive CurveKind where
  | arc
  | circle
  | ellipse
  deriving DecidableEq

/-- The arguments of `CurveParams`. -/
structure CurveFields where
  kind : CurveKind
  center : Point2D
  startAngleDeg : ℝ
  sweepDeg : ℝ
  radiusMm : Option ℝ := none
  semiMajorMm : Option ℝ := none
  semiMinorMm : Option ℝ := none
  rotationDeg : ℝ := 0

/-- The axes of a curve fit its kind. -/
inductive CurveFields.Shape (c : CurveFields) : Prop
  | circular (radius : ℝ) (hradius : c.radiusMm = some radius) (hpos : 0 < radius)
      (hmajor : c.semiMajorMm = none) (hminor : c.semiMinorMm = none)
  | elliptic (major minor : ℝ) (hmajor : c.semiMajorMm = some major) (hminor : c.semiMinorMm = some minor)
      (hpos : 0 < minor) (hle : minor ≤ major) (hradius : c.radiusMm = none)

/-- A curve that passed `__post_init__`. -/
structure CurveParams extends CurveFields where
  sweep_ne : 0 < |sweepDeg|
  sweep_le : |sweepDeg| ≤ 360
  shape : toCurveFields.Shape

open Classical in
/-- `CurveParams(...)`: the checks of `__post_init__`, in their order -/
def CurveFields.checked (c : CurveFields) : Except KernelError CurveParams :=
  if hs : 0 < |c.sweepDeg| ∧ |c.sweepDeg| ≤ 360 then
    match c.kind, hr : c.radiusMm, ha : c.semiMajorMm, hb : c.semiMinorMm with
    | .ellipse, none, some major, some minor =>
        if h : 0 < major ∧ 0 < minor ∧ minor ≤ major then
          .ok ⟨c, hs.1, hs.2, .elliptic major minor ha hb h.2.1 h.2.2 hr⟩
        else .error (invalidGeometry "Ellipse axes must satisfy major >= minor > 0")
    | .ellipse, _, _, _ => .error (invalidGeometry "Ellipse axes must satisfy major >= minor > 0")
    | _, none, _, _ => .error (invalidGeometry "Circular curve radius must be positive")
    | _, some radius, none, none =>
        if h : 0 < radius then .ok ⟨c, hs.1, hs.2, .circular radius hr h ha hb⟩
        else .error (invalidGeometry "Circular curve radius must be positive")
    | _, some radius, _, _ =>
        if 0 < radius then .error (invalidGeometry "Circular curves cannot carry ellipse axes")
        else .error (invalidGeometry "Circular curve radius must be positive")
  else .error (invalidGeometry "Curve sweep must be non-zero and at most 360 degrees")

namespace CurveParams

variable (c : CurveParams)

def endAngleDeg : ℝ := c.startAngleDeg + c.sweepDeg

def IsFull : Prop := IsClose |c.sweepDeg| 360 1e-12

/-- The point at a fraction that passed its check; `shape` gives the axes that the source asserts. -/
def pointAt (fraction : ℝ) : Point2D :=
  let parameter := radians (c.startAngleDeg + c.sweepDeg * fraction)
  match c.radiusMm with
  | some radius => ⟨c.center.x + radius * Real.cos parameter, c.center.y + radius * Real.sin parameter⟩
  | none =>
      let rotation := radians c.rotationDeg
      let localX := c.semiMajorMm.getD 0 * Real.cos parameter
      let localY := c.semiMinorMm.getD 0 * Real.sin parameter
      ⟨c.center.x + localX * Real.cos rotation - localY * Real.sin rotation,
        c.center.y + localX * Real.sin rotation + localY * Real.cos rotation⟩

open Classical in
def pointAtFraction (fraction : ℝ) : Except KernelError Point2D :=
  if 0 ≤ fraction ∧ fraction ≤ 1 then .ok (c.pointAt fraction)
  else .error (invalidGeometry "Curve fraction must lie in [0, 1]")

def startPoint : Point2D := c.pointAt 0

def endPoint : Point2D := c.pointAt 1

/-- The points of the curve. -/
def points : Set Point2D := {p | ∃ fraction, c.pointAtFraction fraction = .ok p}

end CurveParams

def normalizeCircle (center : Point2D) (radiusMm : ℝ) : Except KernelError CurveParams :=
  CurveFields.checked
    { kind := .circle, center, startAngleDeg := 0, sweepDeg := 360, radiusMm := some radiusMm }

open Classical in
/-- `normalize_arc`: without a sweep the arc runs counter-clockwise from its start to its end -/
def normalizeArc (center : Point2D) (radiusMm startAngleDeg : ℝ) (endAngleDeg sweepDeg : Option ℝ) :
    Except KernelError CurveParams :=
  match endAngleDeg, sweepDeg with
  | none, some sweep =>
      CurveFields.checked { kind := .arc, center, startAngleDeg, sweepDeg := sweep, radiusMm := some radiusMm }
  | some endAngle, none =>
      let sweep := modulo (endAngle - startAngleDeg) 360
      let sweep := if IsClose sweep 0 1e-12 then 360 else sweep
      CurveFields.checked { kind := .arc, center, startAngleDeg, sweepDeg := sweep, radiusMm := some radiusMm }
  | _, _ => .error (invalidGeometry "Provide exactly one of end_angle_deg or sweep_deg")

open Classical in
/-- `normalize_bulge`: a bulge is the tangent of a quarter of the sweep -/
def normalizeBulge (start endPoint : Point2D) (bulge : ℝ) : Except KernelError CurveParams :=
  let chord := start.distanceTo endPoint
  if chord ≤ 0 ∨ IsClose bulge 0 1e-15 then
    .error (invalidGeometry "A bulge needs distinct endpoints and a non-zero factor")
  else
    let dx := endPoint.x - start.x
    let dy := endPoint.y - start.y
    let midpoint : Point2D := ⟨(start.x + endPoint.x) / 2, (start.y + endPoint.y) / 2⟩
    let offset := chord * (1 - bulge * bulge) / (4 * bulge)
    let center : Point2D := ⟨midpoint.x - dy * offset / chord, midpoint.y + dx * offset / chord⟩
    let radius := chord * (1 + bulge * bulge) / (4 * |bulge|)
    let startAngle := degrees (atan2 (start.y - center.y) (start.x - center.x))
    let sweep := degrees (4 * Real.arctan bulge)
    CurveFields.checked
      { kind := .arc, center, startAngleDeg := startAngle, sweepDeg := sweep, radiusMm := some radius }

end

end CadHarness.Geometry
