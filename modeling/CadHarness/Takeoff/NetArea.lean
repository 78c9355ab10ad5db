import CadHarness.Geometry.Forest
import CadHarness.Takeoff.Welds
import CadHarness.Validation.GeometryRules

/-!
# Net areas of parts

The contours that `compute_takeoff` of `cad_harness.comprehension.takeoff` counts for each part, those that overlap and
are excluded, and the net area that is left.
-/

namespace CadHarness.Takeoff
open CadHarness.Geometry
open CadHarness.Plan (real)
open CadHarness.Validation (Finding orderedPairs)

noncomputable section
open Classical

structure PartInput where
  outlineEntityRef : String
  innerContourEntityRefs : List String := []

/-! ## The drawing of a part -/

/-- The details of an error about a part. -/
def partDetails (index : Nat) (field actual : String) : List (String × Detail) :=
  [("path", .value (.str s!"parts[{index}].{field}")), ("actual", .value (.str actual))]

/-- `_part_boundary_model`, with the folding of letters of layer names -/
def partBoundaryModel (casefold : String → String) (entities : List Drawing.EntityRecord) (part : PartInput)
    (index : Nat) : Except KernelError (List Drawing.EntityRecord) :=
  match entityOf entities part.outlineEntityRef with
  | none => .error (missing "Part outline entity does not exist in the drawing"
      (partDetails index "outline_entity_ref" part.outlineEntityRef))
  | some outline =>
      if outline.visible = false then .error (missing "Part outline entity must be visible for take-off"
        (partDetails index "outline_entity_ref" part.outlineEntityRef))
      else if part.outlineEntityRef ∈ part.innerContourEntityRefs then
        .error (missing "Part outline cannot also be an inner contour"
          (partDetails index "inner_contour_entity_refs" part.outlineEntityRef))
      else
        match part.innerContourEntityRefs.find? fun entityRef =>
          ¬ ∃ entity, entityOf entities entityRef = some entity ∧ entity.visible = true ∧ entity.space = outline.space with
        | some entityRef => .error (missing "Explicit inner contour must identify visible geometry in the outline space"
            (partDetails index "inner_contour_entity_refs" entityRef))
        | none => .ok (entities.filter fun entity => entity.visible = true ∧ entity.space = outline.space ∧
            (casefold entity.layer = casefold outline.layer ∨ entity.entityRef ∈ part.innerContourEntityRefs))

/-- The records of which the contour analysis takes edges. -/
def boundaryRecords (entities : List Drawing.EntityRecord) : List Geometry.EntityRecord :=
  entities.filterMap fun entity => (boundaryGeometry entity.geometry).map fun geometry => ⟨entity.entityRef, geometry⟩

/-! ## The contours of a part -/

section

variable (forest : ContourForest) (analysis : ContourAnalysis)

/-- `analysis.forest.nodes[index].parent_index` -/
def parentOf (index : Nat) : Option Nat := forest.nodes[index]?.bind ContourNode.parentIndex

/-- The way up from a contour comes to the root. -/
def reaches (rootIndex : Nat) : Nat → Option Nat → Prop
  | 0, _ => False
  | _ + 1, none => False
  | fuel + 1, some cursor => cursor = rootIndex ∨ reaches rootIndex fuel (parentOf forest cursor)

/-- `_descendants` -/
def descendants (rootIndex : Nat) : List Nat :=
  (List.range forest.nodes.length).filter fun index => reaches forest rootIndex forest.nodes.length (some index)

/-- `analysis.contours[index].entity_refs` -/
def refsOf (index : Nat) : List String := analysis.contours[index]?.elim [] AssembledContour.entityRefs

/-- `_resolve_root` -/
def resolveRoot (part : PartInput) (index : Nat) : Except KernelError Nat :=
  let found := (analysis.contours.zip forest.nodes).zipIdx.filter fun entry =>
    entry.1.2.parentIndex = none ∧ part.outlineEntityRef ∈ entry.1.1.entityRefs
  match found.map Prod.snd with
  | [rootIndex] => .ok rootIndex
  | roots => .error (missing "Part outline must identify exactly one root contour"
      (partDetails index "outline_entity_ref" part.outlineEntityRef ++ [("root_match_count", .count roots.length)]))

variable (entities : List Drawing.EntityRecord)

/-- `_circle` -/
def circleOf (contour : AssembledContour) : Option (Point2D × ℝ) :=
  match contour.isCircle, contour.entityRefs with
  | true, [entityRef] =>
      (entityOf entities entityRef).bind fun entity =>
        match entity.geometry with
        | .circle center radius => some (point center, radius)
        | _ => none
  | _, _ => none

/-! ## Overlapping holes -/

/-- The circles among some contours, with their indices. -/
def circlesAmong (indices : List Nat) : List (Nat × Point2D × ℝ) :=
  indices.filterMap fun index =>
    (analysis.contours[index]?.bind (circleOf entities)).map fun circle => (index, circle)

/-- The pairs of circles below the same parent that overlap. -/
def overlappingPairs (indices : List Nat) : List ((Nat × Point2D × ℝ) × Nat × Point2D × ℝ) :=
  ((orderedPairs (circlesAmong analysis entities indices)).map fun pair => (pair.1.1, pair.2.1)).filter fun pair =>
    parentOf forest pair.1.1 = parentOf forest pair.2.1 ∧
      CirclesOverlap pair.1.2.1 (2 * pair.1.2.2) pair.2.2.1 (2 * pair.2.2.2) 0

/-- `analysis.contours[index].entity_refs[0]` -/
def firstRef (index : Nat) : String := (refsOf analysis index).headD ""

def overlapFinding (pair : (Nat × Point2D × ℝ) × Nat × Point2D × ℝ) : Finding :=
  let ((first, firstCenter, firstRadius), (second, secondCenter, secondRadius)) := pair
  let overlap := firstRadius + secondRadius - firstCenter.distanceTo secondCenter
  { ruleId := "OVERLAPPING_HOLES", severity := .error
    message := "Overlapping hole contours were excluded from the complete take-off"
    entityRef := some (firstRef analysis first)
    expected := .value (.obj [("overlap_mm", real 0)])
    actual := .value (.obj [("overlap_mm", real overlap), ("other_entity_ref", .str (firstRef analysis second))])
    tolerance := some 0
    suggestedFix := some "Resolve the overlapping contours and run take-off again"
    measurement := [("overlap_mm", real overlap),
      ("entity_refs", .arr [.str (firstRef analysis first), .str (firstRef analysis second)])] }

/-- `_overlapping_holes`: what is excluded, and the findings -/
def overlappingHoles (indices : List Nat) : List Nat × List Finding :=
  let pairs := overlappingPairs forest analysis entities indices
  (pairs.flatMap fun pair => [pair.1.1, pair.2.1], pairs.map (overlapFinding analysis))

/-! ## Net areas -/

/-- Contours at an even number of levels below the root count positive. -/
def areaSign (rootIndex index : Nat) : ℝ :=
  let depth (i : Nat) : ℤ := (forest.nodes[i]?.elim 0 ContourNode.depth : Nat)
  if (depth index - depth rootIndex) % 2 = 0 then 1 else -1

/-- The contours below the root but for those that overlap, with all that is below these. -/
def validIndices (rootIndex : Nat) : List Nat :=
  let excluded := (overlappingHoles forest analysis entities (descendants forest rootIndex)).1
  (descendants forest rootIndex).filter fun index =>
    index ∉ excluded ++ excluded.flatMap (descendants forest)

def netArea (rootIndex : Nat) (indices : List Nat) : ℝ :=
  (indices.map fun index => (forest.nodes[index]?.elim 0 ContourNode.areaMm2) * areaSign forest rootIndex index).sum

end

/-! ## Parts -/

/-- `_open_findings` -/
def openFindings (tolerance : ToleranceProfile) (analysis : ContourAnalysis) : List Finding :=
  analysis.openContours.map fun item =>
    let refs := Lib.Json.arr [.str item.endpointEntityRefs.1, .str item.endpointEntityRefs.2]
    { ruleId := "OPEN_CONTOUR", severity := .error
      message := "Open contour was excluded from all take-off quantities"
      entityRef := some item.endpointEntityRefs.1
      expected := .value (.obj [("gap_mm", real 0)])
      actual := .value (.obj [("gap_mm", real item.gapMm), ("endpoint_entity_refs", refs)])
      tolerance := some tolerance.coincidenceMm
      suggestedFix := some "Close the contour within the company tolerance and rerun take-off"
      measurement := [("gap_mm", real item.gapMm)] }

/-- The contours of a part, its net area, and what was found. -/
structure PartLine where
  analysis : ContourAnalysis
  forest : ContourForest
  rootIndex : Nat
  validIndices : List Nat
  netAreaMm2 : ℝ
  findings : List Finding

section

variable (casefold : String → String) (tolerance : ToleranceProfile)
  (outsideCircleFindings : ContourAnalysis → Nat → List Nat → Except KernelError (List Finding))
  (entities : List Drawing.EntityRecord)

/-- The steps of `compute_takeoff` for one part, to its net area. -/
def partLine (usedRoots : List (Finset String)) (part : PartInput) (index : Nat) : Except KernelError PartLine := do
  let boundary ← partBoundaryModel casefold entities part index
  let (analysis, forest) ← analyzeDrawing tolerance (boundaryRecords boundary)
  let rootIndex ← resolveRoot forest analysis part index
  let subtree := descendants forest rootIndex
  let subtreeRefs := (subtree.filter (· ≠ rootIndex)).flatMap fun i => refsOf analysis i
  let unresolved := part.innerContourEntityRefs.filter (· ∉ subtreeRefs)
  let valid := validIndices forest analysis entities rootIndex
  if (refsOf analysis rootIndex).toFinset ∈ usedRoots then
    .error (missing "A root contour cannot be assigned to more than one part"
      (partDetails index "outline_entity_ref" part.outlineEntityRef))
  else if unresolved ≠ [] then
    .error (missing "Explicit inner contours must form closed boundaries inside the part outline"
      [("path", .value (.str s!"parts[{index}].inner_contour_entity_refs")), ("unresolved_count", .count unresolved.length)])
  else do
    let outside ← outsideCircleFindings analysis rootIndex subtree
    return {
      analysis, forest, rootIndex, validIndices := valid
      netAreaMm2 := netArea forest rootIndex valid
      findings := openFindings tolerance analysis ++ outside ++ (overlappingHoles forest analysis entities subtree).2 }

/-- The lines of the parts, each with a root of its own. -/
def partLines (usedRoots : List (Finset String)) : List (PartInput × Nat) → Except KernelError (List PartLine)
  | [] => .ok []
  | (part, index) :: rest => do
      let line ← partLine casefold tolerance outsideCircleFindings entities usedRoots part index
      return line :: (← partLines ((refsOf line.analysis line.rootIndex).toFinset :: usedRoots) rest)

/-- `compute_takeoff`, but for quantities that do not depend on net areas or follow from them -/
def takeoffLines (parts : List PartInput) : Except KernelError (List PartLine) :=
  partLines casefold tolerance outsideCircleFindings entities [] parts.zipIdx

end

end

end CadHarness.Takeoff
