import CadHarness.Geometry.Contours
import CadHarness.Geometry.Predicates

/-!
# Outlines and patterns

The hole patterns of `cad_harness.geometry.patterns`, the rest of `cad_harness.geometry.fillet_chamfer`,
`cad_harness.geometry.cutouts`, and what they use of `curves` and `areas`.
-/

namespace CadHarness.Geometry

noncomputable section
open Classical

/-! ## Hole patterns -/

def boltCircle (center : Point2D) (pcdMm : ℝ) (count : ℤ) (startAngleDeg : ℝ) (clockwise : Bool := false) :
    Except KernelError (List Point2D) :=
  if pcdMm ≤ 0 then
    .error (invalidParameters "Pitch circle diameter must be positive" [("pcd_mm", .number pcdMm)])
  else if count < 1 then
    .error (invalidParameters "Bolt circle hole count must be a positive integer"
      [("count", .value (.num (.int count)))])
  else
    let radius := pcdMm / 2
    let step := 360 / (count : ℝ)
    let direction : ℝ := if clockwise then -1 else 1
    .ok <| (List.range count.toNat).map fun index =>
      let angle := radians (startAngleDeg + direction * step * index)
      ⟨center.x + radius * Real.cos angle, center.y + radius * Real.sin angle⟩

def rectangularGrid (origin : Point2D) (countX countY : ℤ) (pitchXMm pitchYMm : ℝ) :
    Except KernelError (List Point2D) :=
  if countX < 1 ∨ countY < 1 then
    .error (invalidParameters "Grid counts must be positive integers"
      [("count_x", .value (.num (.int countX))), ("count_y", .value (.num (.int countY)))])
  else if (countX > 1 ∧ pitchXMm ≤ 0) ∨ (countY > 1 ∧ pitchYMm ≤ 0) then
    .error (invalidParameters "Grid pitch must be positive when more than one hole is requested"
      [("pitch_x_mm", .number pitchXMm), ("pitch_y_mm", .number pitchYMm)])
  else
    .ok <| (List.range countY.toNat).flatMap fun iy => (List.range countX.toNat).map fun ix =>
      ⟨origin.x + ix * pitchXMm, origin.y + iy * pitchYMm⟩

def linearPattern (startPoint : Point2D) (direction : ℝ × ℝ) (pitchMm : ℝ) (count : ℤ) :
    Except KernelError (List Point2D) :=
  if count < 1 then
    .error (invalidParameters "Linear pattern count must be a positive integer"
      [("count", .value (.num (.int count)))])
  else if pitchMm ≤ 0 then
    .error (invalidParameters "Linear pattern pitch must be positive" [("pitch_mm", .number pitchMm)])
  else
    let length := √(direction.1 ^ 2 + direction.2 ^ 2)
    if length ≤ 0 then .error (invalidParameters "Linear pattern direction cannot be zero")
    else
      .ok <| (List.range count.toNat).map fun index =>
        ⟨startPoint.x + direction.1 / length * pitchMm * index,
          startPoint.y + direction.2 / length * pitchMm * index⟩

/-! ## Chords -/

def CurveParams.maximumRadiusMm (c : CurveParams) : ℝ := c.radiusMm.getD (c.semiMajorMm.getD 0)

def chordSegmentCount (c : CurveParams) (chordToleranceMm : ℝ) : Except KernelError Nat :=
  if chordToleranceMm ≤ 0 then .error (invalidGeometry "Chord tolerance must be positive")
  else
    let radius := c.maximumRadiusMm
    let maxStep :=
      if chordToleranceMm ≥ radius then Real.pi
      else 2 * Real.arccos (max (-1) (min 1 (1 - chordToleranceMm / radius)))
    .ok (max 1 ⌈|radians c.sweepDeg| / maxStep⌉₊)

def linearizeCurve (c : CurveParams) (chordToleranceMm : ℝ) : Except KernelError (List Point2D) := do
  let count ← chordSegmentCount c chordToleranceMm
  return (List.range (count + 1)).map fun index => c.pointAt (index / count)

def chordErrorBound (c : CurveParams) (segmentCount : Nat) : Except KernelError ℝ :=
  if segmentCount < 1 then .error (invalidGeometry "A curve approximation needs at least one segment")
  else
    let halfStep := |radians c.sweepDeg| / (2 * segmentCount)
    .ok (c.maximumRadiusMm * (1 - Real.cos halfStep))

/-! ## Chamfers -/

structure ChamferResult where
  pointOnFirst : Point2D
  pointOnSecond : Point2D
  distanceFirstMm : ℝ
  distanceSecondMm : ℝ
  angleDeg : ℝ

/-- The second distance and the angle, of which one is given. -/
def chamferSecond (vertex : Point2D) (first second : Vector2D) (interior distanceFirstMm : ℝ)
    (distanceSecondMm angleDeg : Option ℝ) : Except KernelError (ℝ × ℝ) :=
  match distanceSecondMm, angleDeg with
  | some distance, none =>
      if distance ≤ 0 then .error (invalidParameters "Chamfer distance must be positive")
      else do
        let firstPoint := offset vertex first distanceFirstMm
        let secondPoint := offset vertex second distance
        let towardVertex ← (firstPoint.vectorTo vertex).normalized
        let chamfer ← (firstPoint.vectorTo secondPoint).normalized
        return (distance, degrees (Real.arccos (max (-1) (min 1 (towardVertex.dot chamfer)))))
  | none, some angle =>
      let alpha := radians angle
      if alpha ≤ 0 ∨ alpha + interior ≥ Real.pi then
        .error (invalidParameters "Chamfer angle is incompatible with the vertex")
      else .ok (distanceFirstMm * Real.sin alpha / Real.sin (alpha + interior), angle)
  | _, _ => .error (invalidParameters "Provide exactly one of distance_second_mm or angle_deg")

def chamferVertex (previous vertex following : Point2D) (distanceFirstMm : ℝ)
    (distanceSecondMm angleDeg : Option ℝ) (tolerance : ToleranceProfile) : Except KernelError ChamferResult :=
  if distanceSecondMm.isSome = angleDeg.isSome then
    .error (invalidParameters "Provide exactly one of distance_second_mm or angle_deg")
  else if distanceFirstMm ≤ 0 then .error (invalidParameters "Chamfer distance must be positive")
  else do
    let first ← unitFromVertex vertex previous
    let second ← unitFromVertex vertex following
    let interior ← interiorAngle first second
    let (resolvedSecond, resolvedAngle) ←
      chamferSecond vertex first second interior distanceFirstMm distanceSecondMm angleDeg
    let firstLength := vertex.distanceTo previous
    let secondLength := vertex.distanceTo following
    if (distanceFirstMm > firstLength ∧ ¬ tolerance.LengthClose distanceFirstMm firstLength) ∨
        (resolvedSecond > secondLength ∧ ¬ tolerance.LengthClose resolvedSecond secondLength) then
      .error (invalidParameters "Chamfer distance exceeds an adjacent edge"
        [("maximum_distance_first_mm", .number firstLength), ("maximum_distance_second_mm", .number secondLength)])
    else
      return ⟨offset vertex first distanceFirstMm, offset vertex second resolvedSecond, distanceFirstMm,
        resolvedSecond, resolvedAngle⟩

/-! ## L-brackets -/

def lBracketOutline (origin : Point2D) (legAMm legBMm thicknessMm : ℝ) (tolerance : ToleranceProfile)
    (innerFilletRadiusMm : Option ℝ) : Except KernelError Polyline2D :=
  if legAMm ≤ 0 ∨ legBMm ≤ 0 ∨ thicknessMm ≤ 0 then
    .error (invalidParameters "Bracket legs and thickness must be positive"
      [("leg_a_mm", .number legAMm), ("leg_b_mm", .number legBMm), ("thickness_mm", .number thicknessMm)])
  else if thicknessMm ≥ min legAMm legBMm then
    .error (.harness .invalidFeatureParameters "Bracket thickness must be smaller than both legs"
      (some "Increase both legs or reduce the bracket thickness")
      [("thickness_mm", .number thicknessMm), ("maximum_thickness_mm", .number (min legAMm legBMm))])
  else
    let lowerRight : Point2D := ⟨origin.x + legAMm, origin.y⟩
    let upperRight : Point2D := ⟨origin.x + legAMm, origin.y + thicknessMm⟩
    let inner : Point2D := ⟨origin.x + thicknessMm, origin.y + thicknessMm⟩
    let upperInner : Point2D := ⟨origin.x + thicknessMm, origin.y + legBMm⟩
    let upperLeft : Point2D := ⟨origin.x, origin.y + legBMm⟩
    match innerFilletRadiusMm with
    | none => Polyline2D.checked [origin, lowerRight, upperRight, inner, upperInner, upperLeft] true
    | some radius => do
        let fillet ← filletVertex upperRight inner upperInner radius tolerance
        let arcVertices ← linearizeCurve fillet.arc tolerance.arcChordToleranceMm
        Polyline2D.checked ([origin, lowerRight, upperRight] ++ arcVertices ++ [upperInner, upperLeft]) true

/-! ## Cutouts -/

structure BoundaryCutoutResult where
  outline : Polyline2D
  removedContour : Polyline2D
  removedAreaMm2 : ℝ

/-- `_unit` -/
def cutoutUnit (start endPoint : Point2D) : Except KernelError Vector2D :=
  let vector := start.vectorTo endPoint
  if vector.length ≤ 0 then .error (invalidParameters "Cutout cannot use a zero-length edge") else vector.normalized

/-- The vertex at an index that is taken around the outline. -/
def Polyline2D.vertexAt (outline : Polyline2D) (index : ℤ) : Point2D :=
  outline.vertices.getD (index % outline.vertices.length).toNat ⟨0, 0⟩

def cornerNotch (outline : Polyline2D) (cornerIndex : ℤ) (widthMm heightMm : ℝ) (tolerance : ToleranceProfile) :
    Except KernelError BoundaryCutoutResult :=
  let count := outline.vertices.length
  if outline.closed = false ∨ ¬ (0 ≤ cornerIndex ∧ cornerIndex < count) then
    .error (invalidParameters "Corner notch needs a closed outline and a valid corner index"
      [("corner_index", .value (.num (.int cornerIndex))), ("vertex_count", .count count)])
  else if widthMm ≤ 0 ∨ heightMm ≤ 0 then
    .error (invalidParameters "Notch width and height must be positive")
  else
    let previous := outline.vertexAt (cornerIndex - 1)
    let vertex := outline.vertexAt cornerIndex
    let following := outline.vertexAt (cornerIndex + 1)
    let firstLength := vertex.distanceTo previous
    let secondLength := vertex.distanceTo following
    if (widthMm > firstLength ∧ ¬ tolerance.LengthClose widthMm firstLength) ∨
        (heightMm > secondLength ∧ ¬ tolerance.LengthClose heightMm secondLength) then
      .error (invalidParameters "Corner notch exceeds an adjacent edge"
        [("maximum_width_mm", .number firstLength), ("maximum_height_mm", .number secondLength)])
    else do
      let towardPrevious ← cutoutUnit vertex previous
      let towardFollowing ← cutoutUnit vertex following
      let first := offset vertex towardPrevious widthMm
      let second := offset vertex towardFollowing heightMm
      let inner := offset first towardFollowing heightMm
      let removed ← Polyline2D.checked [first, vertex, second, inner] true
      let index := cornerIndex.toNat
      let outline ← Polyline2D.checked
        (outline.vertices.take index ++ [first, inner, second] ++ outline.vertices.drop (index + 1)) true
      return ⟨outline, removed, removed.area⟩

def edgeCutout (outline : Polyline2D) (edgeIndex : ℤ) (offsetMm widthMm depthMm : ℝ) (tolerance : ToleranceProfile) :
    Except KernelError BoundaryCutoutResult :=
  let count := outline.vertices.length
  if outline.closed = false ∨ ¬ (0 ≤ edgeIndex ∧ edgeIndex < count) then
    .error (invalidParameters "Edge cutout needs a closed outline and a valid edge index"
      [("edge_index", .value (.num (.int edgeIndex))), ("edge_count", .count count)])
  else if offsetMm < 0 ∨ widthMm ≤ 0 ∨ depthMm ≤ 0 then
    .error (invalidParameters "Cutout offset must be non-negative and width/depth positive")
  else do
    let start := outline.vertexAt edgeIndex
    let endPoint := outline.vertexAt (edgeIndex + 1)
    let direction ← cutoutUnit start endPoint
    let edgeLength := start.distanceTo endPoint
    let extent := offsetMm + widthMm
    if extent > edgeLength ∧ ¬ tolerance.LengthClose extent edgeLength then
      .error (invalidParameters "Edge cutout exceeds its target edge"
        [("maximum_allowed_mm", .number edgeLength), ("requested_extent_mm", .number extent)])
    else do
      let orientation : ℝ := if outline.signedArea > 0 then 1 else -1
      let inward : Vector2D := ⟨-direction.dy * orientation, direction.dx * orientation⟩
      let first := offset start direction offsetMm
      let second := offset start direction extent
      let innerFirst := offset first inward depthMm
      let innerSecond := offset second inward depthMm
      let insertion :=
        (if tolerance.IsCoincident (first.distanceTo start) then [] else [first]) ++ [innerFirst, innerSecond] ++
          (if tolerance.IsCoincident (second.distanceTo endPoint) then [] else [second])
      let removed ← Polyline2D.checked [first, second, innerSecond, innerFirst] true
      let index := edgeIndex.toNat + 1
      let outline ← Polyline2D.checked (outline.vertices.take index ++ insertion ++ outline.vertices.drop index) true
      return ⟨outline, removed, removed.area⟩

/-! ## Keyways -/

/-- `_cross` -/
def crossProduct (a b : Point2D) : ℝ := a.x * b.y - b.x * a.y

/-- What an edge adds to the signed area of its contour. -/
def ContourEdge.signedArea : ContourEdge → ℝ
  | .line edge => crossProduct edge.start edge.endPoint / 2
  | .curve c =>
      let axisProduct := match c.radiusMm with
        | some radius => radius ^ 2
        | none => c.semiMajorMm.getD 0 * c.semiMinorMm.getD 0
      (crossProduct c.center c.endPoint - crossProduct c.center c.startPoint) / 2 + axisProduct * radians c.sweepDeg / 2

/-- `contour_area` of a contour of edges -/
def contourArea (edges : List ContourEdge) : ℝ := |(edges.map ContourEdge.signedArea).sum|

structure KeywayResult where
  previewOutline : Polyline2D
  removedAreaMm2 : ℝ
  boreRadiusMm : ℝ
  keyWidthMm : ℝ
  keyDepthMm : ℝ

def keywayContour (center : Point2D) (boreDiameterMm keyWidthMm keyDepthMm : ℝ) (tolerance : ToleranceProfile) :
    Except KernelError KeywayResult :=
  if boreDiameterMm ≤ 0 ∨ keyWidthMm ≤ 0 ∨ keyDepthMm ≤ 0 then
    .error (invalidParameters "Bore diameter and key dimensions must be positive")
  else if keyWidthMm ≥ boreDiameterMm then
    .error (invalidParameters "Key width must be smaller than the bore diameter"
      [("maximum_allowed_mm", .number boreDiameterMm)])
  else do
    let radius := boreDiameterMm / 2
    let halfWidth := keyWidthMm / 2
    let yIntersection := √(radius * radius - halfWidth * halfWidth)
    let right : Point2D := ⟨center.x + halfWidth, center.y + yIntersection⟩
    let left : Point2D := ⟨center.x - halfWidth, center.y + yIntersection⟩
    let topY := center.y + radius + keyDepthMm
    let topLeft : Point2D := ⟨left.x, topY⟩
    let topRight : Point2D := ⟨right.x, topY⟩
    let leftAngle := degrees (atan2 (left.y - center.y) (left.x - center.x))
    let rightAngle := degrees (atan2 (right.y - center.y) (right.x - center.x))
    let arc ← normalizeArc center radius leftAngle none (some (360 - leftAngle + rightAngle))
    let arcPoints ← linearizeCurve arc tolerance.arcChordToleranceMm
    let preview ← Polyline2D.checked (arcPoints.dropLast ++ [right, topRight, topLeft]) true
    let contour := [.curve arc, .line ⟨right, topRight⟩, .line ⟨topRight, topLeft⟩, .line ⟨topLeft, left⟩]
    return ⟨preview, contourArea contour, radius, keyWidthMm, keyDepthMm⟩

end

end CadHarness.Geometry
