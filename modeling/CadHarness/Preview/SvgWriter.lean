import CadHarness.Geometry.Extents
import CadHarness.Lib.Xml
import CadHarness.Plan.Compiler

/-!
# The SVG preview

`cad_harness.preview.svg_writer` with exact numbers, and what an engineer is to see in it. The name of the file is
left out, and so are the folders that are made for it.
-/

namespace CadHarness.Preview
open CadHarness.Annotation (listEntry)
open CadHarness.Catalog CadHarness.Plan
open CadHarness.Geometry (BoundingBox KernelError OperationGeometry Point2D linearizeCurve normalizeArc)
open CadHarness.Domain (OperationType)
open CadHarness.Lib (FloatText.fixed FloatText.rounded)

/-! ## Identifiers -/

def base32 : List Char := "0123456789ABCDEFGHJKMNPQRSTVWXYZ".toList

/-- `_encode` -/
def encode (number : Nat) : Nat → List Char
  | 0 => []
  | length + 1 => encode (number / 32) length ++ [base32.getD (number % 32) '0']

/-- `new_id(IdPrefix.PLAN)` -/
def newPlanId (timestampMs randomness : Nat) : String :=
  s!"plan_{String.ofList (encode timestampMs 10)}{String.ofList (encode randomness 16)}"

noncomputable section
open Classical

/-! ## The view box -/

def strokeNew : String := "#2e7d32"

def marginMm : ℝ := 20

/-- `_circle_radius_mm` -/
def circleRadiusMm (geometry : Dict) : Except KernelError ℝ := do
  let value ←
    match get geometry "diameter_mm", get geometry "radius_mm" with
    | some diameter, none => do pure ((← float diameter) / 2)
    | none, some radius => float radius
    | _, _ => throw .valueError
  if value ≤ 0 then throw .valueError else return value

/-- The centers of a circle operation. -/
def circleCenters (operation : Plan.Operation) : Except KernelError (List Point2D) :=
  if operation.type = .createCircle then do return [← pointItem (← entry operation.geometry "center_mm")]
  else do pointItems (← listEntry operation.geometry "centers_mm")

/-- The outermost points of a circle. -/
def circleExtremes (radius : ℝ) (center : Point2D) : List Point2D :=
  [⟨center.x - radius, center.y⟩, ⟨center.x + radius, center.y⟩, ⟨center.x, center.y - radius⟩,
    ⟨center.x, center.y + radius⟩]

def IsCircle (type : OperationType) : Prop := type = .createCircle ∨ type = .createCircles

/-- The point under a key, if there is one. -/
def pointUnder (geometry : Dict) (key : String) : Except KernelError (List Point2D) :=
  match get geometry key with
  | none => .ok []
  | some raw => do return [← pointItem raw]

/-- The outermost points of the circles of an operation. -/
def circlePoints (operation : Plan.Operation) : Except KernelError (List Point2D) :=
  if IsCircle operation.type then do
    let radius ← circleRadiusMm operation.geometry
    return (← circleCenters operation).flatMap (circleExtremes radius)
  else .ok []

/-- The points of one operation. -/
def operationPoints (operation : Plan.Operation) : Except KernelError (List Point2D) := do
  let listed ← ["vertices_mm", "centers_mm"].mapM (geometryPoints operation.geometry)
  let single ← ["center_mm", "start_mm", "end_mm", "position_mm", "text_position_mm"].mapM
    (pointUnder operation.geometry)
  let extremes ← circlePoints operation
  return listed.flatten ++ single.flatten ++ extremes

/-- `_plan_points` -/
def planPoints (plan : OperationPlan) : Except KernelError (List Point2D) := do
  return (← plan.operations.mapM operationPoints).flatten

/-- The box of the points, with the scale of the drawing. -/
structure View where
  box : BoundingBox
  scale : ℝ := 2

def viewOf (points : List Point2D) : Except KernelError View :=
  if points.isEmpty then .ok { box := ⟨0, 0, 100, 100⟩ } else do return { box := ← BoundingBox.fromPoints points }

namespace View

variable (view : View)

def width : ℝ := (view.box.width + 2 * marginMm) * view.scale

def height : ℝ := (view.box.height + 2 * marginMm) * view.scale

def sx (x : ℝ) : ℝ := (x - view.box.minX + marginMm) * view.scale

def sy (y : ℝ) : ℝ := (view.box.maxY - y + marginMm) * view.scale

def strokeWidth : ℝ := max 0.6 (0.35 * view.scale)

/-! ## Elements -/

/-- `f"{x:.2f}"` of a place along the first axis -/
def xText (p : Point2D) : String := FloatText.fixed 2 (view.sx p.x)

def yText (p : Point2D) : String := FloatText.fixed 2 (view.sy p.y)

/-- The pairs of coordinates of several points. -/
def coords (points : List Point2D) : String :=
  " ".intercalate (points.map fun p => s!"{view.xText p},{view.yText p}")

/-- A circle with its radius in the drawing. -/
def circlePart (radiusMm : ℝ) (center : Point2D) : String :=
  let r := FloatText.fixed 2 (radiusMm * view.scale)
  let cx := view.xText center
  let cy := view.yText center
  s!"<circle cx=\"{cx}\" cy=\"{cy}\" r=\"{r}\"/>"

/-- The text of a text operation; a compiled one is always a string. -/
def textOf (geometry : Dict) : Except KernelError String := do
  match ← entry geometry "text" with
  | .str text => return text
  | _ => throw .typeError

/-- What the loop of `write_svg` appends for an operation. -/
def parts (operation : Plan.Operation) : Except KernelError (List String) :=
  let geometry := operation.geometry
  match operation.type with
  | .createClosedPolyline => do
      let coords := view.coords (← pointItems (← listEntry geometry "vertices_mm"))
      return [s!"<polygon points=\"{coords}\"/>"]
  | .createPolyline => do
      let coords := view.coords (← pointItems (← listEntry geometry "vertices_mm"))
      return [s!"<polyline points=\"{coords}\"/>"]
  | .createCircles | .createCircle => do
      let radius ← circleRadiusMm geometry
      return (← circleCenters operation).map (view.circlePart radius)
  | .createArc => do
      let center ← pointItem (← entry geometry "center_mm")
      let curve ← normalizeArc center (← float (← entry geometry "radius_mm"))
        (← float (← entry geometry "start_angle_deg"))
        (some (← float (← entry geometry "end_angle_deg"))) none
      let coords := view.coords (← linearizeCurve curve 0.01)
      return [s!"<polyline points=\"{coords}\"/>"]
  | .createLine | .createCenterline | .createLinearDimension | .createAlignedDimension => do
      let start ← pointItem (← entry geometry "start_mm")
      let endPoint ← pointItem (← entry geometry "end_mm")
      let x1 := view.xText start
      let y1 := view.yText start
      let x2 := view.xText endPoint
      let y2 := view.yText endPoint
      return [s!"<line x1=\"{x1}\" y1=\"{y1}\" x2=\"{x2}\" y2=\"{y2}\"/>"]
  | .createText => do
      let position ← pointItem (← entry geometry "position_mm")
      let text ← textOf geometry
      let x := view.xText position
      let y := view.yText position
      return [s!"<text x=\"{x}\" y=\"{y}\" fill=\"{strokeNew}\" stroke=\"none\">{text}</text>"]
  | _ => .ok []

/-- The parts before those of the operations. -/
def opening (planId : String) : List String :=
  let width := FloatText.fixed 1 view.width
  let height := FloatText.fixed 1 view.height
  let strokeWidth := FloatText.fixed 2 view.strokeWidth
  [s!"<svg xmlns=\"http://www.w3.org/2000/svg\" width=\"{width}\" height=\"{height}\" " ++
      s!"viewBox=\"0 0 {width} {height}\" role=\"img\" " ++ s!"aria-label=\"Preview of operation plan {planId}\">",
    s!"<title>Operation plan preview {planId}</title>",
    "<rect width=\"100%\" height=\"100%\" fill=\"#ffffff\"/>",
    s!"<g fill=\"none\" stroke=\"{strokeNew}\" stroke-width=\"{strokeWidth}\" " ++ "stroke-linejoin=\"round\">"]

end View

/-! ## The file -/

/-- How the platform ends the lines of a text file. -/
inductive LineSeparator where
  | lineFeed
  | both

def LineSeparator.write (separator : LineSeparator) (text : List Char) : List Char :=
  match separator with
  | lineFeed => text
  | both => Lib.Xml.writeEnds text

/-- `write_svg`: the text of the file -/
def writeSvg (separator : LineSeparator) (planId : String) (plan : OperationPlan) : Except KernelError (List Char) := do
  let view ← viewOf (← planPoints plan)
  let drawn ← plan.operations.mapM view.parts
  return separator.write ("\n".intercalate (view.opening planId ++ drawn.flatten ++ ["</g></svg>"])).toList

/-! ## What the preview is to show -/

open Lib.Xml (Item chars onLines)

/-- An attribute of an element. -/
def attr (name value : String) : List Char × List Char := (name.toList, value.toList)

/-- What an operation is drawn as. -/
inductive Drawing where
  | closedPolyline (vertices : List Point2D)
  | polyline (vertices : List Point2D)
  | circles (radiusMm : ℝ) (centers : List Point2D)
  | arc (center : Point2D) (radiusMm startAngleDeg endAngleDeg : ℝ)
  | line (start endPoint : Point2D)
  | dimension (start endPoint : Point2D)
  | text (position : Point2D) (text : String)
  | hidden

/-- What an operation draws. -/
def drawingOf (operation : Plan.Operation) : Except KernelError Drawing :=
  let geometry := operation.geometry
  match operation.type with
  | .createClosedPolyline => do return .closedPolyline (← pointItems (← listEntry geometry "vertices_mm"))
  | .createPolyline => do return .polyline (← pointItems (← listEntry geometry "vertices_mm"))
  | .createCircles | .createCircle => do return .circles (← circleRadiusMm geometry) (← circleCenters operation)
  | .createArc => do
      return .arc (← pointItem (← entry geometry "center_mm")) (← float (← entry geometry "radius_mm"))
        (← float (← entry geometry "start_angle_deg")) (← float (← entry geometry "end_angle_deg"))
  | .createLine | .createCenterline => do
      return .line (← pointItem (← entry geometry "start_mm")) (← pointItem (← entry geometry "end_mm"))
  | .createLinearDimension | .createAlignedDimension => do
      return .dimension (← pointItem (← entry geometry "start_mm")) (← pointItem (← entry geometry "end_mm"))
  | .createText => do return .text (← pointItem (← entry geometry "position_mm")) (← View.textOf geometry)
  | _ => .ok .hidden

/-- The lines, circles and arcs of a drawing that are to lie in the view box. -/
def Drawing.curves : Drawing → List OperationGeometry
  | closedPolyline vertices => (vertices.zip (vertices.tail ++ vertices.take 1)).map fun s => .line s.1 s.2
  | polyline vertices => (vertices.zip vertices.tail).map fun s => .line s.1 s.2
  | circles radiusMm centers => centers.map fun center => .circle center (2 * radiusMm)
  | arc center radiusMm startAngleDeg endAngleDeg => [.arc center radiusMm startAngleDeg endAngleDeg]
  | line start endPoint => [.line start endPoint]
  | dimension .. | text .. | hidden => []

namespace View

variable (view : View)

/-- The point is in the view box, whose sizes are printed with one decimal. -/
structure Contains (p : Point2D) : Prop where
  left : 0 ≤ view.sx p.x
  right : view.sx p.x ≤ FloatText.rounded 1 view.width
  above : 0 ≤ view.sy p.y
  below : view.sy p.y ≤ FloatText.rounded 1 view.height

def circleElement (radiusMm : ℝ) (center : Point2D) : Item :=
  .element "circle".toList [attr "cx" (view.xText center), attr "cy" (view.yText center),
    attr "r" (FloatText.fixed 2 (radiusMm * view.scale))] []

def lineElement (start endPoint : Point2D) : Item :=
  .element "line".toList [attr "x1" (view.xText start), attr "y1" (view.yText start), attr "x2" (view.xText endPoint),
    attr "y2" (view.yText endPoint)] []

def pointsElement (name : String) (points : List Point2D) : Item :=
  .element name.toList [attr "points" (view.coords points)] []

/-- The points of an arc, at most a hundredth of a millimetre from it. -/
def arcPoints (center : Point2D) (radiusMm startAngleDeg endAngleDeg : ℝ) : List Point2D :=
  match normalizeArc center radiusMm startAngleDeg (some endAngleDeg) none with
  | .ok curve => ((linearizeCurve curve 0.01).toOption).getD []
  | .error _ => []

/-- The elements of a drawing. -/
def elements : Drawing → List Item
  | .closedPolyline vertices => [view.pointsElement "polygon" vertices]
  | .polyline vertices => [view.pointsElement "polyline" vertices]
  | .circles radiusMm centers => centers.map (view.circleElement radiusMm)
  | .arc center radiusMm startAngleDeg endAngleDeg =>
      [view.pointsElement "polyline" (arcPoints center radiusMm startAngleDeg endAngleDeg)]
  | .line start endPoint | .dimension start endPoint => [view.lineElement start endPoint]
  | .text position text =>
      [.element "text".toList [attr "x" (view.xText position), attr "y" (view.yText position), attr "fill" strokeNew,
        attr "stroke" "none"] (chars text.toList)]
  | .hidden => []

def svgAttributes (planId : String) : List (List Char × List Char) :=
  let width := FloatText.fixed 1 view.width
  let height := FloatText.fixed 1 view.height
  [attr "xmlns" "http://www.w3.org/2000/svg", attr "width" width, attr "height" height,
    attr "viewBox" s!"0 0 {width} {height}", attr "role" "img",
      attr "aria-label" s!"Preview of operation plan {planId}"]

def groupAttributes : List (List Char × List Char) :=
  [attr "fill" "none", attr "stroke" strokeNew, attr "stroke-width" (FloatText.fixed 2 view.strokeWidth),
    attr "stroke-linejoin" "round"]

def titleElement (planId : String) : Item :=
  .element "title".toList [] (chars s!"Operation plan preview {planId}".toList)

def backgroundElement : Item :=
  .element "rect".toList [attr "width" "100%", attr "height" "100%", attr "fill" "#ffffff"] []

/-- The document that shows the drawings in their order. -/
def document (planId : String) (drawings : List Drawing) : Item :=
  .element "svg".toList (view.svgAttributes planId)
    (onLines [titleElement planId, backgroundElement,
      .element "g".toList view.groupAttributes (onLines (drawings.flatMap view.elements) ++ chars ['\n'])])

end View

/-- The preview hides nothing of a plan: its file reads as the document that shows all drawings, and all of their curves
are in the view box. -/
structure HidesNothing (separator : LineSeparator) (planId : String) (plan : OperationPlan) : Prop where
  shown : ∃ points view drawings text, planPoints plan = .ok points ∧ viewOf points = .ok view ∧
    plan.operations.mapM drawingOf = .ok drawings ∧ writeSvg separator planId plan = .ok text ∧
    Lib.Xml.Document text (view.document planId drawings) ∧
    ∀ drawing ∈ drawings, ∀ p ∈ Geometry.pointsOf drawing.curves, view.Contains p

/-- The angles where an arc may turn around along an axis, beside its ends. -/
def turningAngles (startAngleDeg endAngleDeg : ℝ) : List ℝ := [startAngleDeg, endAngleDeg, 0, 90, 180, 270]

/-- The angle is on the way from the start counter-clockwise to the end. -/
def IsOnArc (startAngleDeg endAngleDeg angleDeg : ℝ) : Prop :=
  Geometry.modulo (angleDeg - startAngleDeg) 360 ≤ Geometry.ccwSweep (endAngleDeg - startAngleDeg)

/-- The place of an angle on a circle. -/
def onCircle (center : Point2D) (radiusMm angleDeg : ℝ) : Point2D :=
  ⟨center.x + radiusMm * Real.cos (Geometry.radians angleDeg),
    center.y + radiusMm * Real.sin (Geometry.radians angleDeg)⟩

/-- The circles and arcs have a size, the points where the arcs end or turn around along an axis are in the view box,
and the texts need no escapes. -/
structure IsPreviewable (plan : OperationPlan) : Prop where
  circles : ∀ operation ∈ plan.operations, IsCircle operation.type →
    ∃ radius, circleRadiusMm operation.geometry = .ok radius
  arcs : ∀ operation ∈ plan.operations, ∀ center radius a b, drawingOf operation = .ok (.arc center radius a b) →
    0 < radius ∧ ∀ points view, planPoints plan = .ok points → viewOf points = .ok view →
      ∀ angle ∈ turningAngles a b, IsOnArc a b angle → view.Contains (onCircle center radius angle)
  texts : ∀ operation ∈ plan.operations, ∀ position text, drawingOf operation = .ok (.text position text) →
    Lib.Xml.IsCharData text.toList

end

end CadHarness.Preview
