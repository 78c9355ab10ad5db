import CadHarness.Geometry.Forest
import CadHarness.Lib.Levels

/-!
# Recognizing holes

`cad_harness.comprehension.recognizer`, as far as it is about holes: the circles of a drawing that lie in a contour,
and the patterns that those of one radius make. Outlines, slots and corners are recognized from other contours.
-/

namespace CadHarness.Comprehension
open CadHarness.Geometry CadHarness.Lib

/-! ## Features -/

inductive RecognizedFeatureType where
  | circularHole
  | rectangularHolePattern
  | boltCirclePattern
deriving DecidableEq

def RecognizedFeatureType.value : RecognizedFeatureType → String
  | .circularHole => "circular_hole"
  | .rectangularHolePattern => "rectangular_hole_pattern"
  | .boltCirclePattern => "bolt_circle_pattern"

inductive MeasureUnit where
  | mm
  | deg
  | count
deriving DecidableEq

/-- A value that was measured at entities. -/
structure MeasuredValue where
  value : ℝ
  unit : MeasureUnit
  entityRefs : List String

structure RecognizedFeature where
  featureType : RecognizedFeatureType
  entityRefs : List String
  parameters : List (String × MeasuredValue)
  evidence : List (String × ℝ)

structure RecognitionReport where
  features : List RecognizedFeature
  ambiguousGroups : List (List RecognizedFeature)
  openContours : List OpenContourFinding

/-- `_feature`: all values are measured at the same entities. -/
def feature (featureType : RecognizedFeatureType) (entityRefs : List String) (values : List (String × ℝ × MeasureUnit))
    (evidence : List (String × ℝ)) : RecognizedFeature where
  featureType := featureType
  entityRefs := entityRefs
  parameters := values.map fun item => (item.1, ⟨item.2.1, item.2.2, entityRefs⟩)
  evidence := evidence

/-- `_value` -/
def RecognizedFeature.value (feature : RecognizedFeature) (name : String) : Except KernelError ℝ :=
  match feature.parameters.lookup name with
  | some measured => .ok measured.value
  | none => .error (.harness .invalidFeatureParameters
      ("Recognized feature lacks measured parameter '" ++ name ++ "'")
      (some "Re-run recognition on complete supported geometry")
      [("feature_type", .value (.str feature.featureType.value)), ("parameter", .value (.str name))])

noncomputable section
open Classical

/-! ## Circles -/

structure CircleDatum where
  entityRef : String
  center : Point2D
  radiusMm : ℝ

/-- `_circle_data` -/
def circleData (entities : List EntityRecord) : List CircleDatum :=
  entities.filterMap fun entity =>
    match entity.geometry with
    | .circle center radius => some ⟨entity.entityRef, center, radius⟩
    | _ => none

/-- `circle_by_ref`: of circles with one reference the last -/
def circleByRef (entities : List EntityRecord) (ref : String) : Option CircleDatum :=
  (circleData entities).reverse.find? fun circle => circle.entityRef = ref

variable (tolerance : ToleranceProfile)

/-- A circle joins the first group whose first circle is as large, or makes its own. -/
def joinGroup (circle : CircleDatum) : List (List CircleDatum) → List (List CircleDatum)
  | [] => [[circle]]
  | group :: groups =>
      if ∃ first ∈ group.head?, tolerance.LengthClose circle.radiusMm first.radiusMm then
        (group ++ [circle]) :: groups
      else group :: joinGroup circle groups

/-- `_same_radius_groups` -/
def sameRadiusGroups (circles : List CircleDatum) : List (List CircleDatum) :=
  circles.foldl (fun groups circle => joinGroup tolerance circle groups) []

/-! ## Patterns -/

/-- The groups of `_axis_levels`: a value joins the last group when it is close to the last value. -/
def axisGroups (values : List ℝ) : List (List ℝ) := runs tolerance.coincidenceMm values

/-- `_axis_levels` -/
def axisLevels (values : List ℝ) : List ℝ := (axisGroups tolerance values).map mean

/-- The mean step from each level to the next. -/
def meanPitch (levels : List ℝ) : ℝ :=
  ((levels.zip levels.tail).map fun step => step.2 - step.1).sum / (levels.length - 1)

/-- `_rectangular_pattern` -/
def rectangularPattern (group : List CircleDatum) : Option RecognizedFeature :=
  match group with
  | [] => none
  | hole :: _ =>
      let xs := axisLevels tolerance (group.map fun item => item.center.x)
      let ys := axisLevels tolerance (group.map fun item => item.center.y)
      if group.length < 4 then none
      else if xs.length < 2 ∨ ys.length < 2 ∨ xs.length * ys.length ≠ group.length then none
      else if ¬ ∀ x ∈ xs, ∀ y ∈ ys, ∃ item ∈ group, tolerance.IsCoincident (item.center.distanceTo ⟨x, y⟩) then none
      else
        some <| feature .rectangularHolePattern (group.map CircleDatum.entityRef)
          [("hole_diameter_mm", 2 * hole.radiusMm, .mm), ("count_x", xs.length, .count),
            ("count_y", ys.length, .count), ("pitch_x_mm", meanPitch xs, .mm), ("pitch_y_mm", meanPitch ys, .mm),
            ("origin_x_mm", xs.headD 0, .mm), ("origin_y_mm", ys.headD 0, .mm)]
          [("maximum_grid_deviation_mm", 0)]

/-- The point in the middle of the holes. -/
def middle (group : List CircleDatum) : Point2D :=
  ⟨mean (group.map fun item => item.center.x), mean (group.map fun item => item.center.y)⟩

/-- The distances of the holes to their middle. -/
def radii (group : List CircleDatum) : List ℝ := group.map fun item => (middle group).distanceTo item.center

/-- The direction of a hole from the middle. -/
def directionDeg (group : List CircleDatum) (hole : CircleDatum) : ℝ :=
  degrees (atan2 (hole.center.y - (middle group).y) (hole.center.x - (middle group).x))

/-- `_bolt_pattern` -/
def boltPattern (group : List CircleDatum) : Option RecognizedFeature :=
  match group with
  | [] => none
  | hole :: _ =>
      let center := middle group
      let meanRadius := mean (radii group)
      let maxDeviation := maximumOf ((radii group).map fun radius => |radius - meanRadius|)
      let gaps := angularSpacingDeg center (group.map CircleDatum.center)
      if group.length < 3 then none
      else if maxDeviation > tolerance.coincidenceMm then none
      else if ∃ gap ∈ gaps, ¬ tolerance.AngleCloseDeg gap (360 / group.length) then none
      else
        some <| feature .boltCirclePattern (group.map CircleDatum.entityRef)
          [("hole_diameter_mm", 2 * hole.radiusMm, .mm), ("pcd_mm", 2 * meanRadius, .mm),
            ("count", group.length, .count), ("center_x_mm", center.x, .mm), ("center_y_mm", center.y, .mm),
            ("start_angle_deg", modulo (directionDeg group hole) 360, .deg),
            ("max_center_deviation_mm", maxDeviation, .mm)]
          [("max_center_deviation_mm", maxDeviation)]

/-- The patterns that one group makes. -/
def candidates (group : List CircleDatum) : List RecognizedFeature :=
  (rectangularPattern tolerance group).toList ++ (boltPattern tolerance group).toList

/-! ## The report -/

/-- The root above a contour. Areas grow upwards, so as many steps as there are contours suffice. -/
def rootIndex (forest : ContourForest) : Nat → Nat → Nat
  | 0, index => index
  | steps + 1, index =>
      match forest.nodes[index]?.bind ContourNode.parentIndex with
      | none => index
      | some parent => rootIndex forest steps parent

/-- The holes with their roots: the circles at odd depth. -/
def rootedHoles (entities : List EntityRecord) (analysis : ContourAnalysis) (forest : ContourForest) :
    List (Nat × CircleDatum) :=
  (analysis.contours.zip forest.nodes).zipIdx.filterMap fun entry =>
    if entry.1.1.isCircle = true ∧ entry.1.2.depth % 2 = 1 then
      (entry.1.1.entityRefs.head?.bind (circleByRef entities)).map fun circle =>
        (rootIndex forest forest.nodes.length entry.2, circle)
    else none

/-- `circles_by_root`: the roots in the order of their first holes -/
def circlesByRoot (holes : List (Nat × CircleDatum)) : List (List CircleDatum) :=
  (holes.map Prod.fst).eraseDups.map fun root => (holes.filter fun hole => hole.1 = root).map Prod.snd

def circularHole (circle : CircleDatum) : RecognizedFeature :=
  feature .circularHole [circle.entityRef]
    [("diameter_mm", 2 * circle.radiusMm, .mm), ("center_x_mm", circle.center.x, .mm),
      ("center_y_mm", circle.center.y, .mm)] []

/-- `recognize`, as far as it is about holes. A group that makes both patterns is ambiguous. -/
def recognize (entities : List EntityRecord) : Except KernelError RecognitionReport := do
  let (analysis, forest) ← analyzeDrawing tolerance entities
  let roots := circlesByRoot (rootedHoles entities analysis forest)
  let found := (roots.flatMap (sameRadiusGroups tolerance)).map (candidates tolerance)
  return {
    features := roots.flatten.map circularHole ++ (found.filter fun made => made.length = 1).flatten
    ambiguousGroups := found.filter fun made => 1 < made.length
    openContours := analysis.openContours }

end

end CadHarness.Comprehension
