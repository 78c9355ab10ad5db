import CadHarness.Annotation.Engine
import CadHarness.Catalog.Lemmas.Compilers
import CadHarness.Geometry.Extents

/-!
# Measured and drawn geometry

What the engine measures of a plan, beside what the plan draws: its box lies within the extents of the drawing, and the
holes of its patterns are the drawn ones.
-/

/-!
## Drawn geometry

What an adapter draws of the operations that the annotations of a plan are made from.
-/

namespace CadHarness.Annotation
open CadHarness.Catalog CadHarness.Plan
open CadHarness.Geometry (Circle2D KernelError OperationGeometry Point2D Polyline2D ToleranceProfile pointsOf)
open CadHarness.Lib

inductive Shape where
  | line (start endPoint : Point2D)
  | polyline (polyline : Polyline2D)
  | circle (center : Point2D) (diameterMm : ℝ)
  | circles (circles : List Circle2D)
  | arc (center : Point2D) (radiusMm startAngleDeg endAngleDeg : ℝ)

noncomputable section
open Classical

/-- A circle has a radius or a diameter, not both. -/
def drawnDiameter (geometry : Dict) : Except KernelError ℝ :=
  match geometry.lookup "radius_mm", geometry.lookup "diameter_mm" with
  | some radius, none => do return 2 * (← float radius)
  | none, some diameter => float diameter
  | none, none => throw .keyError
  | some _, some _ => throw .valueError

/-- What an operation draws. -/
def shapeOf (operation : Plan.Operation) : Except KernelError Shape :=
  let geometry := operation.geometry
  match operation.type with
  | .createLine => do
      return .line (← pointItem (← entry geometry "start_mm")) (← pointItem (← entry geometry "end_mm"))
  | .createPolyline => do
      return .polyline (← Polyline2D.checked (← pointItems (← listEntry geometry "vertices_mm")) false)
  | .createClosedPolyline => do
      return .polyline (← Polyline2D.checked (← pointItems (← listEntry geometry "vertices_mm")) true)
  | .createCircle => do return .circle (← pointItem (← entry geometry "center_mm")) (← drawnDiameter geometry)
  | .createCircles => do return .circles (← circlesOf geometry)
  | .createArc => do
      return .arc (← pointItem (← entry geometry "center_mm")) (← float (← entry geometry "radius_mm"))
        (← float (← entry geometry "start_angle_deg")) (← float (← entry geometry "end_angle_deg"))
  | _ => throw .typeError

namespace Shape

def ofCircle (circle : Circle2D) : OperationGeometry := .circle circle.center circle.diameterMm

/-- The lines, arcs and circles of a shape. -/
def drawn : Shape → List OperationGeometry
  | line start endPoint => [.line start endPoint]
  | polyline p => p.lines
  | circle center diameterMm => [.circle center diameterMm]
  | circles l => l.map ofCircle
  | arc center radiusMm startAngleDeg endAngleDeg => [.arc center radiusMm startAngleDeg endAngleDeg]

/-- What the extents are measured from: polylines, patterns, and single circles at half their size. -/
def measured : Shape → List OperationGeometry
  | polyline p => p.lines
  | circle center diameterMm => [.circle center (diameterMm / 2)]
  | circles l => l.map ofCircle
  | line .. | arc .. => []

/-- The centers of the circles, with their diameters. -/
def drawnCircles : Shape → List (Point2D × ℝ)
  | circle center diameterMm => [(center, diameterMm)]
  | circles l => l.map fun c => (c.center, c.diameterMm)
  | _ => []

end Shape

/-- A plan of lines, polylines, circles and arcs that can be drawn. -/
structure GeometryPlan where
  operations : List Plan.Operation
  drawable : ∀ operation ∈ operations, ∃ shape, shapeOf operation = .ok shape

namespace GeometryPlan

variable (plan : GeometryPlan)

def shapes : List Shape := plan.operations.filterMap fun operation => (shapeOf operation).toOption

def drawn : Set Point2D := pointsOf (plan.shapes.flatMap Shape.drawn)

def measured : Set Point2D := pointsOf (plan.shapes.flatMap Shape.measured)

def drawnCircles : List (Point2D × ℝ) := plan.shapes.flatMap Shape.drawnCircles

/-- How far the drawn points reach along a coordinate. -/
def extent (coordinate : Point2D → ℝ) : ℝ := sSup (coordinate '' plan.drawn) - sInf (coordinate '' plan.drawn)

/-- What the engine takes for holes, in its order. -/
def holes (holeLayer : String) : List Hole :=
  sortBy holeKey (plan.operations.flatMap fun operation => ((holesOf holeLayer operation).toOption).getD [])

end GeometryPlan

/-- The point is between points of the set along both axes. -/
structure Between (points : Set Point2D) (p : Point2D) : Prop where
  left : ∃ q ∈ points, q.x ≤ p.x
  right : ∃ q ∈ points, p.x ≤ q.x
  below : ∃ q ∈ points, q.y ≤ p.y
  above : ∃ q ∈ points, p.y ≤ q.y

/-- The holes that differ from all those before them by more than the tolerance, each from the ones of these. -/
def leaders (tolerance : ToleranceProfile) : List Hole → List Hole → List Hole
  | found, [] => found
  | found, hole :: holes =>
      if ∃ leader ∈ found, tolerance.LengthClose leader.diameterMm hole.diameterMm then leaders tolerance found holes
      else leaders tolerance (found ++ [hole]) holes

/-! ## What annotations say -/

/-- An annotation says what the plan draws. -/
structure Draft.Truthful (plan : GeometryPlan) (draft : Draft) : Prop where
  width : draft.suffix = "overall-width" →
    draft.geometry.lookup "measurement_mm" = some (real (plan.extent Point2D.x))
  height : draft.suffix = "overall-height" →
    draft.geometry.lookup "measurement_mm" = some (real (plan.extent Point2D.y))
  diameter : draft.type = .createDiameterDimension → ∃ circle ∈ plan.drawnCircles,
    draft.geometry.lookup "center_mm" = some circle.1.asTuple ∧
    draft.geometry.lookup "measurement_mm" = some (real circle.2)
  callout : draft.geometry.lookup "annotation_kind" = some (.str "hole_callout") → ∃ circle ∈ plan.drawnCircles,
    draft.label.map Label.anchor = some (circle.1.x, circle.1.y) ∧
    draft.geometry.lookup "diameter_mm" = some (real circle.2)
  row : draft.geometry.lookup "annotation_kind" = some (.str "hole_table_row") → ∃ circle ∈ plan.drawnCircles,
    draft.geometry.lookup "diameter_mm" = some (real circle.2)

/-- What the engine measures is what the plan draws: no point lies outside the measured ones, and a single circle that
stands for the diameter of its group has a circle of half its size inside. -/
structure FaithfullyMeasured (plan : GeometryPlan) (holeLayer : String) (tolerance : ToleranceProfile) : Prop where
  between : ∀ p ∈ plan.drawn, Between plan.measured p
  single : ∀ operation ∈ plan.operations, ∀ center diameterMm, shapeOf operation = .ok (.circle center diameterMm) →
    IsHoleGeometry holeLayer operation →
    ⟨operation.featureId, operation.operationId, center, diameterMm / 2⟩ ∈ leaders tolerance [] (plan.holes holeLayer) →
    (center, diameterMm / 2) ∈ plan.drawnCircles

end

end CadHarness.Annotation

namespace CadHarness.Annotation
open CadHarness.Catalog CadHarness.Plan
open CadHarness.Geometry (BoundingBox Circle2D KernelError OperationGeometry Point2D Polyline2D ToleranceProfile pointsOf)
open CadHarness.Lib Set

noncomputable section
open Classical

variable {plan : GeometryPlan} {operation : Plan.Operation} {shape : Shape} {p : Point2D} {box : BoundingBox}

/-! ## Shapes and entities -/

/-- The lines and circles of an entity. -/
def Entity.geometry : Entity → List OperationGeometry
  | .circle c => [Shape.ofCircle c]
  | .polyline p => p.lines

theorem Circle2D.checked_ok {center : Point2D} {diameterMm : ℝ} {c : Circle2D}
    (h : Circle2D.checked center diameterMm = .ok c) : c.center = center ∧ c.diameterMm = diameterMm := by
  rw [Circle2D.checked] at h
  split at h
  · cases h
    exact ⟨rfl, rfl⟩
  · cases h

/-- A single circle is seen with half of its diameter. -/
theorem circleOf_ok {center : Point2D} {diameterMm : ℝ} {c : Circle2D} (htype : operation.type = .createCircle)
    (hshape : shapeOf operation = .ok (.circle center diameterMm)) (h : circleOf operation.geometry = .ok c) :
    c.center = center ∧ c.diameterMm = diameterMm / 2 := by
  simp only [shapeOf, htype, Fallible.bind_eq_ok, Fallible.pure_eq_ok, Shape.circle.injEq] at hshape
  obtain ⟨value, hvalue, _, hcenter, _, hdrawn, rfl, rfl⟩ := hshape
  simp only [circleOf, hvalue, hcenter, Fallible.ok_bind, Fallible.bind_eq_ok] at h
  obtain ⟨diameter, hentry, d, hfloat, hchecked⟩ := h
  rw [drawnDiameter, entry_eq_ok.mp hentry] at hdrawn
  cases hradius : operation.geometry.lookup "radius_mm" with
  | none =>
      rw [hradius] at hdrawn
      obtain rfl := Except.ok.inj (hdrawn.symm.trans hfloat)
      exact Circle2D.checked_ok hchecked
  | some radius => simp [hradius, throw, throwThe, MonadExceptOf.throw] at hdrawn

theorem polyline_geometry {geometry : Dict} {closed : Bool} {found : List Entity}
    (hshape : (do
      return Shape.polyline
        (← Polyline2D.checked (← pointItems (← listEntry geometry "vertices_mm")) closed)) = .ok shape)
    (h : (do
      return [Entity.polyline
        (← Polyline2D.checked (← pointItems (← listEntry geometry "vertices_mm")) closed)]) = .ok found) :
    found.flatMap Entity.geometry = shape.measured := by
  simp only [Fallible.bind_eq_ok, Fallible.pure_eq_ok] at hshape h
  obtain ⟨items, hitems, vertices, hvertices, polyline, hpolyline, rfl⟩ := hshape
  obtain ⟨_, hitems', _, hvertices', _, hpolyline', rfl⟩ := h
  cases hitems.symm.trans hitems'
  cases hvertices.symm.trans hvertices'
  cases hpolyline.symm.trans hpolyline'
  simp [Entity.geometry, Shape.measured]

/-- The entities of an operation are what its shape is measured by. -/
theorem entities_geometry {found : List Entity} (hshape : shapeOf operation = .ok shape)
    (h : entities operation = .ok found) : found.flatMap Entity.geometry = shape.measured := by
  cases htype : operation.type
  case createPolyline =>
    rw [shapeOf, htype] at hshape
    rw [entities, htype] at h
    exact polyline_geometry hshape h
  case createClosedPolyline =>
    rw [shapeOf, htype] at hshape
    rw [entities, htype] at h
    exact polyline_geometry hshape h
  case createCircles =>
    simp only [shapeOf, entities, htype, Fallible.bind_eq_ok, Fallible.pure_eq_ok] at hshape h
    obtain ⟨circles, hcircles, rfl⟩ := hshape
    obtain ⟨_, hcircles', rfl⟩ := h
    cases hcircles.symm.trans hcircles'
    rw [Shape.measured, List.flatMap_map, List.map_eq_flatMap]
    rfl
  case createCircle =>
    have hcenter := hshape
    simp only [shapeOf, htype, Fallible.bind_eq_ok, Fallible.pure_eq_ok] at hcenter
    obtain ⟨value, _, center, _, diameterMm, _, rfl⟩ := hcenter
    simp only [entities, htype, Fallible.bind_eq_ok, Fallible.pure_eq_ok] at h
    obtain ⟨c, hc, rfl⟩ := h
    obtain ⟨rfl, hdiameter⟩ := circleOf_ok htype hshape hc
    simp [Entity.geometry, Shape.measured, Shape.ofCircle, hdiameter]
  case createLine =>
    simp only [shapeOf, entities, htype, Fallible.bind_eq_ok, Fallible.pure_eq_ok, Except.ok.injEq] at hshape h
    obtain ⟨_, _, _, _, _, _, _, _, rfl⟩ := hshape
    simp [← h, Shape.measured]
  case createArc =>
    simp only [shapeOf, entities, htype, Fallible.bind_eq_ok, Fallible.pure_eq_ok, Except.ok.injEq] at hshape h
    obtain ⟨_, _, _, _, _, _, _, _, _, _, _, _, _, _, _, _, rfl⟩ := hshape
    simp [← h, Shape.measured]
  all_goals
    rw [shapeOf, htype] at hshape
    cases hshape

/-! ## Points of a plan -/

theorem mem_shapes : shape ∈ plan.shapes ↔ ∃ operation ∈ plan.operations, shapeOf operation = .ok shape := by
  simp only [GeometryPlan.shapes, List.mem_filterMap]
  apply exists_congr
  intro operation
  cases shapeOf operation <;> simp [Except.toOption]

theorem mem_drawn : p ∈ plan.drawn ↔ ∃ shape ∈ plan.shapes, p ∈ pointsOf shape.drawn := Geometry.mem_pointsOf_flatMap

theorem mem_measured : p ∈ plan.measured ↔ ∃ shape ∈ plan.shapes, p ∈ pointsOf shape.measured :=
  Geometry.mem_pointsOf_flatMap

/-- The points that the engine measures are those of its entities. -/
theorem measured_eq {found : List (List Entity)} (h : plan.operations.mapM entities = .ok found) :
    plan.measured = pointsOf (found.flatten.flatMap Entity.geometry) := by
  have hfound := Fallible.mapM_eq_ok.mp h
  ext p
  rw [mem_measured, Geometry.mem_pointsOf_flatMap]
  constructor
  · rintro ⟨shape, hshape, hp⟩
    obtain ⟨operation, hoperation, hshape⟩ := mem_shapes.mp hshape
    obtain ⟨es, hes, hentities⟩ := Fallible.exists_of_mem_mapM h hoperation
    rw [← entities_geometry hshape hentities] at hp
    obtain ⟨e, he, hp⟩ := Geometry.mem_pointsOf_flatMap.mp hp
    exact ⟨e, List.mem_flatten_of_mem hes he, hp⟩
  · rintro ⟨e, he, hp⟩
    obtain ⟨es, hes, he⟩ := List.mem_flatten.mp he
    obtain ⟨operation, hoperation, hentities⟩ := Fallible.mem_of_forall₂ hfound hes
    obtain ⟨shape, hshape⟩ := plan.drawable operation hoperation
    refine ⟨shape, mem_shapes.mpr ⟨operation, hoperation, hshape⟩, ?_⟩
    rw [← entities_geometry hshape hentities]
    exact Geometry.mem_pointsOf_flatMap.mpr ⟨e, he, hp⟩

/-! ## Extents -/

theorem tight_entity (e : Entity) : e.box.Tight (pointsOf e.geometry) := by
  cases e with
  | circle c =>
      have hpoints : pointsOf (Entity.circle c).geometry = (Shape.ofCircle c).points := by
        ext p
        simp [pointsOf, Entity.geometry]
      rw [hpoints]
      exact Geometry.tight_circle c.diameter_pos
  | polyline p => exact Polyline2D.tight_boundingBox

theorem image_pointsOf_flatMap {α : Type} {l : List α} {f : α → List OperationGeometry} (coordinate : Point2D → ℝ) :
    coordinate '' pointsOf (l.flatMap f) = {x | ∃ a ∈ l, x ∈ coordinate '' pointsOf (f a)} := by
  ext x
  simp only [mem_image, Geometry.mem_pointsOf_flatMap, mem_ofPred_eq]
  tauto

theorem tight_entitySetBoundingBox {l : List Entity} (h : entitySetBoundingBox l = .ok box) :
    box.Tight (pointsOf (l.flatMap Entity.geometry)) := by
  rw [entitySetBoundingBox] at h
  split at h
  · cases h
  · rename_i hne
    have hne : l ≠ [] := by simpa using hne
    cases h
    constructor
    · rw [image_pointsOf_flatMap]
      simp only [List.map_map]
      exact Geometry.isLeast_minimumOf hne fun e _ => (tight_entity e).left
    · rw [image_pointsOf_flatMap]
      simp only [List.map_map]
      exact Geometry.isGreatest_maximumOf hne fun e _ => (tight_entity e).right
    · rw [image_pointsOf_flatMap]
      simp only [List.map_map]
      exact Geometry.isLeast_minimumOf hne fun e _ => (tight_entity e).below
    · rw [image_pointsOf_flatMap]
      simp only [List.map_map]
      exact Geometry.isGreatest_maximumOf hne fun e _ => (tight_entity e).above

/-- A measured point is between drawn ones: of a single circle, the drawn one is twice as large. -/
theorem between_drawn (h : p ∈ plan.measured) : Between plan.drawn p := by
  obtain ⟨shape, hshape, hp⟩ := mem_measured.mp h
  have hdrawn {q : Point2D} (hq : q ∈ pointsOf shape.drawn) : q ∈ plan.drawn := mem_drawn.mpr ⟨shape, hshape, hq⟩
  have hself (heq : shape.measured = shape.drawn) : Between plan.drawn p :=
    have hp := hdrawn (heq ▸ hp)
    ⟨⟨p, hp, le_rfl⟩, ⟨p, hp, le_rfl⟩, ⟨p, hp, le_rfl⟩, ⟨p, hp, le_rfl⟩⟩
  cases shape with
  | line start endPoint => simp [pointsOf, Shape.measured] at hp
  | arc center radius a b => simp [pointsOf, Shape.measured] at hp
  | polyline polyline => exact hself rfl
  | circles l => exact hself rfl
  | circle center diameterMm =>
      have hp : p ∈ (OperationGeometry.circle center (diameterMm / 2)).points := by
        simpa [pointsOf, Shape.measured] using hp
      obtain ⟨hx, hy⟩ := OperationGeometry.abs_sub_le_of_mem_circle hp
      have hpos : 0 < diameterMm := by
        obtain ⟨c, hc, -⟩ := hp
        have hr : c.radiusMm = some (diameterMm / 2 / 2) := by rw [Geometry.CurveFields.checked_ok hc]
        linarith [c.radius_pos hr]
      rw [abs_le] at hx hy
      obtain ⟨hleft, hright, hbelow, habove⟩ := OperationGeometry.extremes_mem_circle center hpos
      have hcircle {q : Point2D} (hq : q ∈ (OperationGeometry.circle center diameterMm).points) : q ∈ plan.drawn :=
        hdrawn ⟨_, List.mem_singleton_self _, hq⟩
      exact ⟨⟨_, hcircle hleft, by linarith⟩, ⟨_, hcircle hright, by linarith⟩, ⟨_, hcircle hbelow, by linarith⟩,
        ⟨_, hcircle habove, by linarith⟩⟩

theorem bdd_drawn (plan : GeometryPlan) :
    (BddBelow (Point2D.x '' plan.drawn) ∧ BddAbove (Point2D.x '' plan.drawn)) ∧
    (BddBelow (Point2D.y '' plan.drawn) ∧ BddAbove (Point2D.y '' plan.drawn)) := by
  obtain ⟨box, hbox⟩ := Geometry.pointsOf_subset_region (plan.shapes.flatMap Shape.drawn)
  refine ⟨⟨⟨box.minX, ?_⟩, ⟨box.maxX, ?_⟩⟩, ⟨⟨box.minY, ?_⟩, ⟨box.maxY, ?_⟩⟩⟩ <;> rintro _ ⟨p, hp, rfl⟩
  · exact (hbox hp).1
  · exact (hbox hp).2.1
  · exact (hbox hp).2.2.1
  · exact (hbox hp).2.2.2

theorem width_eq_iff (hbox : box.Tight plan.measured) : box.width = plan.extent Point2D.x ↔
    ∀ p ∈ plan.drawn, (∃ q ∈ plan.measured, q.x ≤ p.x) ∧ ∃ q ∈ plan.measured, p.x ≤ q.x := by
  obtain ⟨l, hl, hminX⟩ := hbox.left.1
  obtain ⟨r, hr, hmaxX⟩ := hbox.right.1
  obtain ⟨a, ha, hleft⟩ := (between_drawn hl).left
  obtain ⟨b, hb, hright⟩ := (between_drawn hr).right
  rw [BoundingBox.width, GeometryPlan.extent, Geometry.sub_eq_extent_iff (bdd_drawn plan).1.1 (bdd_drawn plan).1.2
    ⟨_, mem_image_of_mem _ ha, hminX ▸ hleft⟩ ⟨_, mem_image_of_mem _ hb, hmaxX ▸ hright⟩, forall_mem_image]
  constructor
  · intro h p hp
    exact ⟨⟨l, hl, hminX ▸ (h hp).1⟩, ⟨r, hr, hmaxX ▸ (h hp).2⟩⟩
  · intro h p hp
    obtain ⟨⟨q, hq, hle⟩, ⟨s, hs, hge⟩⟩ := h p hp
    exact ⟨(hbox.left.2 (mem_image_of_mem _ hq)).trans hle, hge.trans (hbox.right.2 (mem_image_of_mem _ hs))⟩

theorem height_eq_iff (hbox : box.Tight plan.measured) : box.height = plan.extent Point2D.y ↔
    ∀ p ∈ plan.drawn, (∃ q ∈ plan.measured, q.y ≤ p.y) ∧ ∃ q ∈ plan.measured, p.y ≤ q.y := by
  obtain ⟨l, hl, hminY⟩ := hbox.below.1
  obtain ⟨r, hr, hmaxY⟩ := hbox.above.1
  obtain ⟨a, ha, hbelow⟩ := (between_drawn hl).below
  obtain ⟨b, hb, habove⟩ := (between_drawn hr).above
  rw [BoundingBox.height, GeometryPlan.extent, Geometry.sub_eq_extent_iff (bdd_drawn plan).2.1 (bdd_drawn plan).2.2
    ⟨_, mem_image_of_mem _ ha, hminY ▸ hbelow⟩ ⟨_, mem_image_of_mem _ hb, hmaxY ▸ habove⟩, forall_mem_image]
  constructor
  · intro h p hp
    exact ⟨⟨l, hl, hminY ▸ (h hp).1⟩, ⟨r, hr, hmaxY ▸ (h hp).2⟩⟩
  · intro h p hp
    obtain ⟨⟨q, hq, hle⟩, ⟨s, hs, hge⟩⟩ := h p hp
    exact ⟨(hbox.below.2 (mem_image_of_mem _ hq)).trans hle, hge.trans (hbox.above.2 (mem_image_of_mem _ hs))⟩

/-! ## Holes -/

variable {holeLayer : String} {tolerance : ToleranceProfile} {hole : Hole}

theorem mem_drawnCircles {circle : Point2D × ℝ} :
    circle ∈ plan.drawnCircles ↔ ∃ shape ∈ plan.shapes, circle ∈ shape.drawnCircles := List.mem_flatMap

/-- The hole that the engine sees in a single circle. -/
def singleHole (operation : Plan.Operation) (center : Point2D) (diameterMm : ℝ) : Hole :=
  ⟨operation.featureId, operation.operationId, center, diameterMm / 2⟩

/-- A hole is a drawn one of a pattern, or a single circle with half of its diameter. -/
theorem hole_cases {found : List Hole} (hshape : shapeOf operation = .ok shape)
    (hfound : holesOf holeLayer operation = .ok found) (hhole : hole ∈ found) :
    IsHoleGeometry holeLayer operation ∧ ((hole.center, hole.diameterMm) ∈ shape.drawnCircles ∨
      ∃ center diameterMm, shape = .circle center diameterMm ∧ hole = singleHole operation center diameterMm) := by
  rw [holesOf] at hfound
  split at hfound
  · rename_i hgeometry
    refine ⟨hgeometry, ?_⟩
    obtain ⟨es, hes, rfl⟩ := Fallible.map_eq_ok.mp hfound
    obtain ⟨e, he, hsome⟩ := List.mem_filterMap.mp hhole
    cases e with
    | polyline p => cases hsome
    | circle c =>
        obtain rfl := Option.some.inj hsome
        have hdiameter : c.radiusMm * 2 = c.diameterMm := by
          rw [Circle2D.radiusMm]
          ring
        rcases hgeometry with htype | ⟨htype, -⟩
        · simp only [shapeOf, entities, htype, Fallible.bind_eq_ok, Fallible.pure_eq_ok] at hshape hes
          obtain ⟨circles, hcircles, rfl⟩ := hshape
          obtain ⟨_, hcircles', rfl⟩ := hes
          cases hcircles.symm.trans hcircles'
          left
          rw [hdiameter]
          simpa [Shape.drawnCircles] using ⟨c, by simpa using he, rfl, rfl⟩
        · have hcenter := hshape
          simp only [shapeOf, htype, Fallible.bind_eq_ok, Fallible.pure_eq_ok] at hcenter
          obtain ⟨value, _, center, _, diameterMm, _, rfl⟩ := hcenter
          simp only [entities, htype, Fallible.bind_eq_ok, Fallible.pure_eq_ok] at hes
          obtain ⟨c', hc', rfl⟩ := hes
          obtain rfl : c = c' := by simpa using he
          obtain ⟨rfl, hhalf⟩ := circleOf_ok htype hshape hc'
          right
          exact ⟨_, _, rfl, by rw [hdiameter, hhalf, singleHole]⟩
  · cases hfound
    cases hhole

/-- The first holes of the groups. -/
theorem map_first_joinGroup (groups : List HoleGroup) (hole : Hole) :
    (joinGroup tolerance groups hole).map HoleGroup.first =
      if ∃ leader ∈ groups.map HoleGroup.first, tolerance.LengthClose leader.diameterMm hole.diameterMm then
        groups.map HoleGroup.first
      else groups.map HoleGroup.first ++ [hole] := by
  induction groups with
  | nil => simp [joinGroup]
  | cons group groups ih =>
      rw [joinGroup]
      by_cases h : tolerance.LengthClose group.first.diameterMm hole.diameterMm
      · simp [h]
      · have hcons : (∃ leader ∈ (group :: groups).map HoleGroup.first,
              tolerance.LengthClose leader.diameterMm hole.diameterMm) ↔
            ∃ leader ∈ groups.map HoleGroup.first, tolerance.LengthClose leader.diameterMm hole.diameterMm := by
          simp [h]
        rw [if_neg h, List.map_cons, ih]
        simp only [hcons]
        split <;> rfl

theorem map_first_foldl (holes : List Hole) (groups : List HoleGroup) :
    (holes.foldl (joinGroup tolerance) groups).map HoleGroup.first =
      leaders tolerance (groups.map HoleGroup.first) holes := by
  induction holes generalizing groups with
  | nil => rfl
  | cons hole holes ih =>
      rw [List.foldl_cons, ih, map_first_joinGroup, leaders]
      split <;> rfl

theorem mem_of_mem_leaders {found holes : List Hole} (h : hole ∈ leaders tolerance found holes) :
    hole ∈ found ∨ hole ∈ holes := by
  induction holes generalizing found with
  | nil => exact .inl h
  | cons first holes ih =>
      rw [leaders] at h
      split at h
      · exact (ih h).imp_right (List.mem_cons_of_mem _)
      · rcases ih h with h | h
        · exact (List.mem_append.mp h).imp_right fun h => by simp [List.mem_singleton.mp h]
        · exact .inr (List.mem_cons_of_mem _ h)

theorem flatMap_toOption {α β : Type} {f : α → Except KernelError (List β)} {l : List α} {found : List (List β)}
    (h : l.mapM f = .ok found) : (l.flatMap fun a => (f a).toOption.getD []) = found.flatten := by
  have hforall := Fallible.mapM_eq_ok.mp h
  clear h
  induction hforall with
  | nil => rfl
  | cons hfirst _ ih =>
      rw [List.flatMap_cons, ih, hfirst]
      rfl

theorem holes_eq {found : List (List Hole)} (h : plan.operations.mapM (holesOf holeLayer) = .ok found) :
    plan.holes holeLayer = sortBy holeKey found.flatten := by
  rw [GeometryPlan.holes, flatMap_toOption h]

/-- The groups' first holes are drawn as measured where the single circles among them are. -/
theorem leaders_drawn_iff {found : List (List Hole)} (h : plan.operations.mapM (holesOf holeLayer) = .ok found) :
    (∀ hole ∈ leaders tolerance [] (plan.holes holeLayer), (hole.center, hole.diameterMm) ∈ plan.drawnCircles) ↔
      ∀ operation ∈ plan.operations, ∀ center diameterMm, shapeOf operation = .ok (.circle center diameterMm) →
        IsHoleGeometry holeLayer operation →
        singleHole operation center diameterMm ∈ leaders tolerance [] (plan.holes holeLayer) →
        (center, diameterMm / 2) ∈ plan.drawnCircles := by
  constructor
  · intro hall operation _ center diameterMm _ _ hleader
    exact hall _ hleader
  · intro hsingle hole hleader
    have hmem : hole ∈ found.flatten := by
      rcases mem_of_mem_leaders hleader with hnil | hmem
      · cases hnil
      · rwa [holes_eq h, mem_sortBy] at hmem
    obtain ⟨holes, hholes, hhole⟩ := List.mem_flatten.mp hmem
    obtain ⟨operation, hoperation, hrun⟩ := Fallible.mem_of_forall₂ (Fallible.mapM_eq_ok.mp h) hholes
    obtain ⟨shape, hshape⟩ := plan.drawable operation hoperation
    obtain ⟨hgeometry, hdrawn | ⟨center, diameterMm, rfl, rfl⟩⟩ := hole_cases hshape hrun hhole
    · exact mem_drawnCircles.mpr ⟨shape, mem_shapes.mpr ⟨operation, hoperation, hshape⟩, hdrawn⟩
    · exact hsingle operation hoperation center diameterMm hshape hgeometry hleader

end

end CadHarness.Annotation
