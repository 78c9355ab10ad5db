import CadHarness.Drawing.Model
import CadHarness.Geometry.Forest
import CadHarness.Validation.Engine

/-!
# Audit of drawn contours

The rules for open and for self-intersecting contours of
`cad_harness.validation.rules.drawing_geometry_audit_rules`.
-/

namespace CadHarness.Validation
open CadHarness.Geometry CadHarness.Plan

noncomputable section
open Classical

/-! ## Open contours -/

def openContourRuleId : String := "OPEN_CONTOUR"

/-- `isinstance(entities[entity_ref].geometry, PolylineGeometry)`: of entities with one reference, the last -/
def isPolylineRef (entities : List EntityRecord) (entityRef : String) : Bool :=
  match (entities.filter (·.entityRef = entityRef)).getLast? with
  | some ⟨_, .polyline _ _⟩ => true
  | _ => false

/-- An open chain of one entity is reported for polylines only. -/
def reportedOpen (entities : List EntityRecord) (item : OpenContourFinding) : Bool :=
  item.endpointEntityRefs.1 ≠ item.endpointEntityRefs.2 || isPolylineRef entities item.endpointEntityRefs.1

def openContourFinding (tolerance : ToleranceProfile) (item : OpenContourFinding) : Finding where
  ruleId := openContourRuleId
  severity := .error
  message := "Contour endpoints do not close within tolerance"
  entityRef := some item.endpointEntityRefs.1
  expected := .value (.obj [("gap_mm", real 0)])
  actual := .value (.obj [("gap_mm", real item.gapMm), ("other_entity_ref", .str item.endpointEntityRefs.2)])
  tolerance := some tolerance.absoluteLengthMm
  suggestedFix := some "Join the contour endpoints or remove the incomplete boundary"

/-- `OpenContourRule`, which reports nothing where the analysis raises -/
def openContourRule (tolerance : ToleranceProfile) (entities : List EntityRecord) : List Finding :=
  match analyzeDrawing tolerance entities with
  | .error _ => []
  | .ok (analysis, _) => (analysis.openContours.filter (reportedOpen entities)).map (openContourFinding tolerance)

/-! ## Self-intersecting contours -/

def selfIntersectingContourRuleId : String := "SELF_INTERSECTING_CONTOUR"

def selfIntersectingContourFinding (tolerance : ToleranceProfile) (entityRef : String) : Finding where
  ruleId := selfIntersectingContourRuleId
  severity := .error
  message := "Closed contour self-intersects"
  entityRef := some entityRef
  expected := .value (.str "simple closed contour")
  actual := .value (.str "self-intersection present")
  tolerance := some tolerance.absoluteLengthMm
  suggestedFix := some "Repair the vertex order or split crossing geometry"

/-- The finding about one entity, whose vertices are taken without their bulges. -/
def contourFindings (tolerance : ToleranceProfile) (entity : EntityRecord) : List Finding :=
  match entity.geometry with
  | .polyline vertices true =>
      match Polyline2D.checked (vertices.map PolylineVertex.pointMm) true with
      | .ok polyline =>
          if PolylineSelfIntersects polyline then [selfIntersectingContourFinding tolerance entity.entityRef] else []
      | .error _ => []
  | _ => []

/-- `SelfIntersectingContourRule` -/
def selfIntersectingContourRule (tolerance : ToleranceProfile) (entities : List EntityRecord) : List Finding :=
  entities.flatMap (contourFindings tolerance)

end

end CadHarness.Validation

/-!
## Audit of coincident entities

The rules for duplicate and for overlapping entities of `cad_harness.validation.rules.drawing_geometry_audit_rules`.
-/

namespace CadHarness.Validation
open CadHarness.Geometry CadHarness.Plan

noncomputable section
open Classical

abbrev DrawnEntity := Drawing.EntityRecord

abbrev DrawnGeometry := Drawing.EntityGeometry Drawing.EntityRecord

/-! ## Duplicates -/

/-- `entity.model_dump(exclude={"entity_ref", "feature_id"})` -/
def payload : DrawnEntity → DrawnEntity
  | .mk _ entityType layer visible space geometry boundingBoxMm nonUniformScale =>
      .mk "" entityType layer visible space geometry boundingBoxMm nonUniformScale

/-- An entity of a drawing, and its position. -/
abbrev Placed := DrawnEntity × Nat

/-- The loop of `DuplicateEntityRule`: the entities that have the payload of one that was seen, each with that one. -/
def duplicatesFrom (seen : List Placed) : List Placed → List (Placed × Placed)
  | [] => []
  | entity :: rest =>
      match seen.find? fun original => payload original.1 = payload entity.1 with
      | none => duplicatesFrom (seen ++ [entity]) rest
      | some original => (entity, original) :: duplicatesFrom seen rest

def duplicateFinding (tolerance : ToleranceProfile) (entity original : DrawnEntity) : Finding where
  ruleId := "DUPLICATE_ENTITY"
  severity := .warning
  message := "Entity duplicates an earlier entity"
  entityRef := some entity.entityRef
  expected := .value (.obj [("unique_geometry", .bool true)])
  actual := .value (.obj [("duplicate_of", .str original.entityRef)])
  tolerance := some tolerance.absoluteLengthMm
  suggestedFix := some "Remove the duplicate after confirming the intended geometry"

/-- `DuplicateEntityRule` -/
def duplicateEntityRule (tolerance : ToleranceProfile) (entities : List DrawnEntity) : List Finding :=
  (duplicatesFrom [] entities.zipIdx).map fun pair => duplicateFinding tolerance pair.1.1 pair.2.1

/-! ## Paths -/

def pointOf (p : Drawing.Point) : Point2D := ⟨p.1, p.2⟩

def vertexOf (vertex : Drawing.PolylineVertex) : PolylineVertex := ⟨pointOf vertex.pointMm, vertex.bulge⟩

/-- The points of one segment of a polyline. -/
def segmentPoints (tolerance : ToleranceProfile) (start endPoint : PolylineVertex) : Except KernelError (List Point2D) := do
  (← segmentEdge start endPoint).points tolerance.arcChordToleranceMm

/-- `points.pop()` where a closed polyline comes back to its first point -/
def dropRepeated (closed : Bool) (points : List Point2D) : List Point2D :=
  if closed = true ∧ points ≠ [] ∧ points.getLast? = points.head? then points.dropLast else points

/-- `_entity_path`, with the errors that it hides -/
def entityPath (tolerance : ToleranceProfile) : DrawnGeometry → Except KernelError Polyline2D
  | .line startMm endMm => Polyline2D.checked [pointOf startMm, pointOf endMm] false
  | .arc centerMm radiusMm startAngleDeg endAngleDeg => do
      let curve ← normalizeArc (pointOf centerMm) radiusMm startAngleDeg (some endAngleDeg) none
      Polyline2D.checked (← linearizeCurve curve tolerance.arcChordToleranceMm) false
  | .ellipse centerMm majorAxisMm minorAxisMm rotationDeg => do
      let curve ← normalizeEllipse (pointOf centerMm) majorAxisMm minorAxisMm rotationDeg
      Polyline2D.checked (← linearizeCurve curve tolerance.arcChordToleranceMm).dropLast true
  | .polyline vertices closed => do
      let points ← (segments (vertices.map vertexOf) closed).mapM fun s => segmentPoints tolerance s.1 s.2
      Polyline2D.checked (dropRepeated closed (joinPoints [] points)) closed
  | _ => .error .typeError

/-! ## Overlaps -/

/-- A segment of a path goes through a circle and not merely up to it. -/
def SegmentCrosses (tolerance : ToleranceProfile) (center : Point2D) (radius : ℝ) (start endPoint : Point2D) : Prop :=
  let limit := tolerance.absoluteLengthMm
  let startDistance := center.distanceTo start
  let endDistance := center.distanceTo endPoint
  let startInside := startDistance < radius - limit
  let endInside := endDistance < radius - limit
  let startBoundary := |startDistance - radius| ≤ limit
  let endBoundary := |endDistance - radius| ≤ limit
  let near := pointToSegmentDistance center start endPoint < radius - limit
  if startBoundary ∨ endBoundary then startBoundary ∧ endBoundary ∧ near
  else ¬ (startInside ↔ endInside) ∨ ¬ startInside ∧ ¬ endInside ∧ near

/-- `_circle_crosses_path` -/
def CircleCrossesPath (tolerance : ToleranceProfile) (center : Point2D) (radius : ℝ) (path : Polyline2D) : Prop :=
  ∃ s ∈ path.segments, SegmentCrosses tolerance center radius s.1 s.2

/-- A segment lies along another one. -/
def SegmentsShare (tolerance : ToleranceProfile) (first second : Point2D × Point2D) : Prop :=
  let limit := tolerance.absoluteLengthMm
  let vector := first.1.vectorTo first.2
  let length := vector.length
  let startProjection := (first.1.vectorTo second.1).dot vector / length
  let endProjection := (first.1.vectorTo second.2).dot vector / length
  limit < length ∧
    max |vector.cross (first.1.vectorTo second.1)| |vector.cross (first.1.vectorTo second.2)| ≤ limit * length ∧
    limit < min length (max startProjection endProjection) - max 0 (min startProjection endProjection)

/-- `_paths_have_positive_collinear_overlap` -/
def PathsShare (tolerance : ToleranceProfile) (first second : Polyline2D) : Prop :=
  ∃ a ∈ first.segments, ∃ b ∈ second.segments, SegmentsShare tolerance a b

/-- The point is at the first or the last vertex of a path. -/
def AtEnd (tolerance : ToleranceProfile) (path : Polyline2D) (p : Point2D) : Prop :=
  ∃ endpoint ∈ path.vertices.head?.toList ++ path.vertices.getLast?.toList, tolerance.IsCoincident (p.distanceTo endpoint)

/-- Two paths cross, except where both end, or lie along each other. -/
def PathsOverlap (tolerance : ToleranceProfile) (first second : Polyline2D) : Prop :=
  (∃ p ∈ contourIntersections first second tolerance, ¬ (AtEnd tolerance first p ∧ AtEnd tolerance second p)) ∨
    PathsShare tolerance first second

/-- `_entities_overlap` -/
def EntitiesOverlap (tolerance : ToleranceProfile) (first second : DrawnGeometry) : Prop :=
  match first, second, (entityPath tolerance first).toOption, (entityPath tolerance second).toOption with
  | .circle firstCenter firstRadius, .circle secondCenter secondRadius, _, _ =>
      let distance := (pointOf firstCenter).distanceTo (pointOf secondCenter)
      |firstRadius - secondRadius| + tolerance.absoluteLengthMm < distance ∧
        distance < firstRadius + secondRadius - tolerance.absoluteLengthMm
  | .circle center radius, _, _, some path => CircleCrossesPath tolerance (pointOf center) radius path
  | _, .circle center radius, some path, _ => CircleCrossesPath tolerance (pointOf center) radius path
  | _, _, some firstPath, some secondPath => PathsOverlap tolerance firstPath secondPath
  | _, _, _, _ => False

/-- The loops of `OverlappingEntityRule`: entities of unequal geometry that overlap. -/
def overlaps (tolerance : ToleranceProfile) : List Placed → List (Placed × Placed)
  | [] => []
  | first :: rest => (rest.filter fun second => first.1.geometry ≠ second.1.geometry ∧
      EntitiesOverlap tolerance first.1.geometry second.1.geometry).map (first, ·) ++ overlaps tolerance rest

def overlapFinding (tolerance : ToleranceProfile) (first second : DrawnEntity) : Finding where
  ruleId := "OVERLAPPING_ENTITY"
  severity := .warning
  message := "Entities overlap geometrically"
  entityRef := some first.entityRef
  expected := .value (.str "non-overlapping geometry")
  actual := .value (.obj [("other_entity_ref", .str second.entityRef)])
  tolerance := some tolerance.absoluteLengthMm
  suggestedFix := some "Review the overlapping entities and keep the intended geometry"

/-- `OverlappingEntityRule` -/
def overlappingEntityRule (tolerance : ToleranceProfile) (entities : List DrawnEntity) : List Finding :=
  (overlaps tolerance entities.zipIdx).map fun pair => overlapFinding tolerance pair.1.1 pair.2.1

end

end CadHarness.Validation
