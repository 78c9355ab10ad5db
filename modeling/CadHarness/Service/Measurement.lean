import CadHarness.Geometry.ChordTheorems
import CadHarness.Geometry.ComponentTheorems
import CadHarness.Geometry.Measure

/-!
# Measuring open polylines

A polyline with a bulge is measured as a contour, and a contour is closed: the segment from its last vertex to the first
takes part, whether the polyline is closed or not.
-/

/-!
## The measurement service

How `cad_harness.application.services.measurement_service` takes the entities of a drawing for the geometry kernel.
-/

namespace CadHarness.Service
open CadHarness.Geometry

noncomputable section
open Classical

/-- `CurveContour(...)` -/
def curveContour (edges : List ContourEdge) : Except KernelError CurveContour :=
  if h : edges ≠ [] then .ok ⟨edges, h⟩ else .error (invalidGeometry "A contour needs at least one edge")

/-- `_kernel_entity`: a polyline with a bulge becomes a contour of edges -/
def kernelEntity : EntityGeometry → Except KernelError MeasurableEntity
  | .line start endPoint => .ok (.line ⟨start, endPoint⟩)
  | .arc center radius startAngle endAngle => .curve <$> normalizeArc center radius startAngle (some endAngle) none
  | .circle center radius => .circle <$> Circle2D.checked center (2 * radius)
  | .polyline vertices closed =>
      if ∃ s ∈ segments vertices closed, |s.1.bulge| > 1e-15 then do
        let edges ← (segments vertices closed).mapM fun s => segmentEdge s.1 s.2
        .contour <$> curveContour edges
      else .polyline <$> Polyline2D.checked (vertices.map PolylineVertex.pointMm) closed

/-- The distance that `measure` gives for a point and an entity. -/
def measurePointToEntity (p : Point2D) (entity : EntityGeometry) (tolerance : ToleranceProfile) :
    Except KernelError ℝ := do
  pointEntityDistance p (← kernelEntity entity) tolerance

/-- The distance that it gives for two entities. -/
def measureEntityToEntity (first second : EntityGeometry) (tolerance : ToleranceProfile) : Except KernelError ℝ := do
  let first ← kernelEntity first
  let second ← kernelEntity second
  entityEntityDistance first second tolerance

end

end CadHarness.Service

namespace CadHarness.Service
open CadHarness.Geometry CadHarness.Lib Metric

variable {vertices : List PolylineVertex} {tolerance : ToleranceProfile} {kernel entity : MeasurableEntity}
  {path : List (Point2D × Point2D)} {edges : List ContourEdge} {T : Set ℂ}

/-! ## What is drawn -/

/-- A segment between two vertices is an arc. -/
def Bulged (vertices : List PolylineVertex) : Prop := ∃ s ∈ segments vertices false, |s.1.bulge| > 1e-15

/-- The points of the lines and arcs between the vertices of an open polyline. -/
def drawnPoints (vertices : List PolylineVertex) : Set ℂ :=
  {z | ∃ s ∈ segments vertices false, ∃ edge, segmentEdge s.1 s.2 = .ok edge ∧ z ∈ edge.region}

/-- The distance of a drawn set to another entity; a circle counts as its disc. -/
noncomputable def drawnDistance (S : Set ℂ) (T : Set ℂ) : MeasurableEntity → ℝ
  | .circle circle => max 0 (infDist circle.center.toComplex S - circle.radiusMm)
  | _ => setDist S T

/-- The service measures an open polyline by what is drawn of it: for points within the chord tolerance, for entities
with what the kernel takes for zero besides. -/
def MeasuredAsDrawn (vertices : List PolylineVertex) (tolerance : ToleranceProfile) : Prop :=
  (∀ p : Point2D, ∃ d, measurePointToEntity p (.polyline vertices false) tolerance = .ok d ∧
    |d - infDist p.toComplex (drawnPoints vertices)| ≤ tolerance.arcChordToleranceMm) ∧
  ∀ other entity T, kernelEntity other = .ok entity → entity.boundary tolerance = .ok T →
    ∃ d, measureEntityToEntity (.polyline vertices false) other tolerance = .ok d ∧
      measureEntityToEntity other (.polyline vertices false) tolerance = .ok d ∧
      |d - drawnDistance (drawnPoints vertices) T entity| ≤
        tolerance.arcChordToleranceMm + max |tolerance.absoluteLengthMm| 1e-6

/-- The segment that closes the contour stays near what is drawn. Where the ends are within the chord tolerance the last
vertex is left out, so that the last segment stands for the last edge too. -/
def ClosesOnDrawn (vertices : List PolylineVertex) (path : List (Point2D × Point2D)) (tolerance : ToleranceProfile) : Prop :=
  ∀ first last, vertices.head? = some first → vertices.getLast? = some last →
    if first.pointMm.distanceTo last.pointMm ≤ tolerance.arcChordToleranceMm then
      (∀ s ∈ path.getLast?, ∀ z ∈ segmentPoints s, infDist z (drawnPoints vertices) ≤ tolerance.arcChordToleranceMm) ∧
        ∀ z ∈ drawnPoints vertices, infDist z (pathPoints path) ≤ tolerance.arcChordToleranceMm
    else ∀ z ∈ segmentPoints (last.pointMm, first.pointMm),
      infDist z (drawnPoints vertices) ≤ tolerance.arcChordToleranceMm

theorem drawnDistance_path {others : List (Point2D × Point2D)} (h : entity.segments tolerance = .ok others) (S : Set ℂ) :
    drawnDistance S T entity = setDist S T := by
  cases entity with
  | circle => cases h
  | polyline => rfl
  | line => rfl
  | curve => rfl
  | contour => rfl

/-! ## Two sets that give the same distances -/

/-- Each of two sets is near the other. -/
def Close (v : ℝ) (S S' : Set ℂ) : Prop := (∀ z ∈ S, infDist z S' ≤ v) ∧ ∀ z ∈ S', infDist z S ≤ v

theorem infDist_le_of_withinOf {v : ℝ} {S S' : Set ℂ} (h : WithinOf v S S') (z : ℂ) (hz : z ∈ S) : infDist z S' ≤ v := by
  obtain ⟨w, hw, hdist⟩ := h z hz
  exact (infDist_le_dist_of_mem hw).trans hdist

section

variable (hkernel : kernelEntity (.polyline vertices false) = .ok kernel) (hpath : kernel.segments tolerance = .ok path)
  (hdrawn : (drawnPoints vertices).Nonempty)
include hkernel hpath

theorem measurePointToEntity_eq (p : Point2D) :
    measurePointToEntity p (.polyline vertices false) tolerance = .ok (infDist p.toComplex (pathPoints path)) := by
  rw [measurePointToEntity, hkernel, Fallible.ok_bind, pointEntityDistance_path hpath]

include hdrawn

/-- Points are measured by what is drawn just when the measured path is close to it. -/
theorem points_measured_iff : (∀ p : Point2D, ∃ d, measurePointToEntity p (.polyline vertices false) tolerance = .ok d ∧
    |d - infDist p.toComplex (drawnPoints vertices)| ≤ tolerance.arcChordToleranceMm) ↔
      Close tolerance.arcChordToleranceMm (pathPoints path) (drawnPoints vertices) := by
  rw [Close, ← abs_infDist_sub_le_iff (pathPoints_nonempty (MeasurableEntity.segments_ok hpath).1) hdrawn]
  constructor
  · intro h z
    obtain ⟨p, rfl⟩ := exists_toComplex z
    obtain ⟨d, hd, hclose⟩ := h p
    rw [measurePointToEntity_eq hkernel hpath] at hd
    exact Except.ok.inj hd ▸ hclose
  · intro h p
    exact ⟨_, measurePointToEntity_eq hkernel hpath p, h _⟩

/-- Entities are measured by it too then. -/
theorem entities_measured (hclose : Close tolerance.arcChordToleranceMm (pathPoints path) (drawnPoints vertices))
    {other : EntityGeometry} (hother : kernelEntity other = .ok entity) (hT : entity.boundary tolerance = .ok T) :
    ∃ d, measureEntityToEntity (.polyline vertices false) other tolerance = .ok d ∧
      measureEntityToEntity other (.polyline vertices false) tolerance = .ok d ∧
      |d - drawnDistance (drawnPoints vertices) T entity| ≤
        tolerance.arcChordToleranceMm + max |tolerance.absoluteLengthMm| 1e-6 := by
  have hne := (MeasurableEntity.segments_ok hpath).1
  have hpoints := pathPoints_nonempty hne
  have hboth {d : ℝ} (h : entityEntityDistance kernel entity tolerance = .ok d)
      (h' : entityEntityDistance entity kernel tolerance = .ok d) :
      measureEntityToEntity (.polyline vertices false) other tolerance = .ok d ∧
        measureEntityToEntity other (.polyline vertices false) tolerance = .ok d := by
    rw [measureEntityToEntity, measureEntityToEntity, hkernel, hother]
    exact ⟨h, h'⟩
  rcases boundary_cases hT with ⟨circle, rfl, rfl⟩ | ⟨others, hothers, rfl⟩
  · obtain ⟨h', h⟩ := @entityEntityDistance_circle _ _ _ circle hpath
    rw [circleEntityDistance_path hpath] at h h'
    obtain ⟨hfirst, hsecond⟩ := hboth h h'
    refine ⟨_, hfirst, hsecond, ?_⟩
    have hsnap := @abs_snap_sub_max_le tolerance (infDist circle.center.toComplex (pathPoints path) - circle.radiusMm)
    have hdist := (abs_infDist_sub_le_iff hpoints hdrawn).mpr hclose circle.center.toComplex
    have hmax := abs_max_sub_max_le_abs (infDist circle.center.toComplex (pathPoints path) - circle.radiusMm)
      (infDist circle.center.toComplex (drawnPoints vertices) - circle.radiusMm) 0
    rw [sub_sub_sub_cancel_right, max_comm _ (0 : ℝ), max_comm _ (0 : ℝ)] at hmax
    have htriangle := abs_sub_le (tolerance.snap (infDist circle.center.toComplex (pathPoints path) - circle.radiusMm))
      (max 0 (infDist circle.center.toComplex (pathPoints path) - circle.radiusMm))
      (max 0 (infDist circle.center.toComplex (drawnPoints vertices) - circle.radiusMm))
    have hless := le_max_left |tolerance.absoluteLengthMm| 1e-6
    simp only [drawnDistance]
    linarith
  · have hne' := (MeasurableEntity.segments_ok hothers).1
    have h := entityEntityDistance_paths hpath hothers
    have h' := entityEntityDistance_paths hothers hpath
    rw [minimumOf_pairDistances_comm hne' hne] at h'
    obtain ⟨hfirst, hsecond⟩ := hboth h h'
    refine ⟨_, hfirst, hsecond, ?_⟩
    have hpairs := @abs_pairDistances_sub_le _ _ tolerance hne hne'
    have hle := setDist_le_add hpoints hdrawn (pathPoints_nonempty hne') hclose.1
    have hle' := setDist_le_add hdrawn hpoints (pathPoints_nonempty hne') hclose.2
    rw [drawnDistance_path hothers]
    rw [abs_sub_le_iff] at hpairs ⊢
    constructor
    · linarith [hpairs.1]
    · linarith [hpairs.2]

end

/-! ## The path of a contour -/

/-- The edges of an open polyline go on one from the other. -/
theorem segmentEdge_circular {s : PolylineVertex × PolylineVertex} {edge : ContourEdge} (h : segmentEdge s.1 s.2 = .ok edge) :
    edge.Circular ∧ edge.ends = (s.1.pointMm, s.2.pointMm) := by
  unfold segmentEdge at h
  split at h
  · obtain rfl := Except.ok.inj h
    exact ⟨.line _, rfl⟩
  · obtain ⟨c, hc, rfl⟩ := Fallible.map_eq_ok.mp h
    obtain ⟨hstart, hend⟩ := normalizeBulge_ends hc
    refine ⟨?_, Prod.ext hstart hend⟩
    unfold normalizeBulge at hc
    dsimp only at hc
    split at hc
    · cases hc
    · have hfields := CurveFields.checked_ok hc
      exact .curve c _ (by rw [hfields])

theorem segments_open (vertices : List PolylineVertex) : segments vertices false = vertices.zip vertices.tail := by
  cases vertices <;> rfl

theorem segments_isChain (vertices : List PolylineVertex) : (segments vertices false).IsChain fun s next => s.2 = next.1 := by
  rw [segments_open]
  induction vertices with
  | nil => exact .nil
  | cons v vertices ih =>
      cases vertices with
      | nil => exact .nil
      | cons w vertices =>
          cases vertices with
          | nil => exact .singleton _
          | cons x vertices => exact .cons_cons rfl ih

theorem edges_isChain {l : List (PolylineVertex × PolylineVertex)} (hchain : l.IsChain fun s next => s.2 = next.1)
    (hedges : List.Forall₂ (fun s edge => segmentEdge s.1 s.2 = .ok edge) l edges) :
    edges.IsChain fun edge next => edge.ends.2 = next.ends.1 := by
  induction hedges with
  | nil => exact .nil
  | cons hedge hedges ih =>
      cases hedges with
      | nil => exact .singleton _
      | cons hnext hrest =>
          rw [List.isChain_cons_cons] at hchain ⊢
          refine ⟨?_, ih hchain.2⟩
          rw [(segmentEdge_circular hedge).2, (segmentEdge_circular hnext).2, hchain.1]

theorem drawnPoints_eq (hedges : List.Forall₂ (fun s edge => segmentEdge s.1 s.2 = .ok edge) (segments vertices false) edges) :
    drawnPoints vertices = edgesRegion edges := by
  ext z
  constructor
  · rintro ⟨s, hs, edge, hedge, hz⟩
    obtain ⟨edge', hmem, hedge'⟩ := Fallible.mem_of_forall₂ hedges.flip hs
    obtain rfl := Except.ok.inj (hedge.symm.trans hedge')
    exact ⟨edge, hmem, hz⟩
  · rintro ⟨edge, hmem, hz⟩
    obtain ⟨s, hs, hedge⟩ := Fallible.mem_of_forall₂ hedges hmem
    exact ⟨s, hs, edge, hedge, hz⟩

/-- What the kernel is given for a polyline with a bulge. -/
theorem kernelEntity_bulged (h : Bulged vertices) (hkernel : kernelEntity (.polyline vertices false) = .ok kernel) :
    ∃ contour, kernel = .contour contour ∧
      List.Forall₂ (fun s edge => segmentEdge s.1 s.2 = .ok edge) (segments vertices false) contour.edges := by
  unfold Bulged at h
  rw [kernelEntity, if_pos h] at hkernel
  obtain ⟨edges, hedges, hkernel⟩ := Fallible.bind_eq_ok.mp hkernel
  obtain ⟨contour, hcontour, rfl⟩ := Fallible.map_eq_ok.mp hkernel
  refine ⟨contour, rfl, ?_⟩
  unfold curveContour at hcontour
  split at hcontour
  · obtain rfl := Except.ok.inj hcontour
    exact Fallible.mapM_eq_ok.mp hedges
  · cases hcontour

/-- The path of a contour: the chords of its edges, and from the last vertex that is kept to the first. -/
theorem contour_path {contour : CurveContour} (hpath : MeasurableEntity.segments tolerance (.contour contour) = .ok path) :
    ∃ lists, List.Forall₂ (fun edge points => edge.points tolerance.arcChordToleranceMm = .ok points) contour.edges lists ∧
      ∃ first last, (dropClosing (joinPoints [] lists) tolerance.arcChordToleranceMm).head? = some first ∧
        (dropClosing (joinPoints [] lists) tolerance.arcChordToleranceMm).getLast? = some last ∧
        path = chords (dropClosing (joinPoints [] lists) tolerance.arcChordToleranceMm) ++ [(last, first)] := by
  obtain ⟨points, hpoints, hrest⟩ := Fallible.bind_eq_ok.mp hpath
  obtain ⟨polyline, hpolyline, hsegments⟩ := Fallible.bind_eq_ok.mp hrest
  obtain ⟨lists, hlists, hdropped⟩ := Fallible.bind_eq_ok.mp hpoints
  obtain rfl := Except.ok.inj hdropped
  obtain rfl := Except.ok.inj hsegments
  refine ⟨lists, Fallible.mapM_eq_ok.mp hlists, ?_⟩
  have hvertices := Polyline2D.checked_ok hpolyline
  obtain ⟨first, hfirst⟩ := Option.ne_none_iff_exists'.mp (List.head?_eq_none_iff.not.mpr polyline.vertices_ne_nil)
  obtain ⟨last, hlast⟩ := Option.ne_none_iff_exists'.mp (List.getLast?_eq_none_iff.not.mpr polyline.vertices_ne_nil)
  rw [closed_segments hvertices.2 hfirst hlast]
  rw [hvertices.1] at hfirst hlast ⊢
  exact ⟨first, last, hfirst, hlast, rfl⟩

theorem dropClosing_cases {points : List Point2D} {first last : Point2D} {chordTolerance : ℝ} (htwo : 1 < points.length)
    (hfirst : points.head? = some first) (hlast : points.getLast? = some last) :
    dropClosing points chordTolerance = if first.distanceTo last ≤ chordTolerance then points.dropLast else points := by
  simp [dropClosing, hfirst, hlast, htwo]

/-! ## Main result -/

section

variable {lists : List (List Point2D)} {contour : CurveContour} {first last : PolylineVertex}

theorem forall₂_getLast? {α β : Type} {R : α → β → Prop} {l : List α} {l' : List β} (h : List.Forall₂ R l l') {a : α}
    (ha : l.getLast? = some a) : ∃ b, l'.getLast? = some b ∧ R a b := by
  induction h with
  | nil => cases ha
  | @cons x y l l' hxy hrest ih =>
      cases hrest with
      | nil =>
          obtain rfl := Option.some.inj ha
          exact ⟨y, rfl, hxy⟩
      | cons hnext hrest =>
          rw [List.getLast?_cons_cons] at ha ⊢
          exact ih ha

theorem segments_getLast? (hlast : vertices.getLast? = some last) (hne : segments vertices false ≠ []) :
    ∃ v, (segments vertices false).getLast? = some (v, last) := by
  rw [segments_open] at hne ⊢
  induction vertices with
  | nil => cases hlast
  | cons v vertices ih =>
      cases vertices with
      | nil => simp at hne
      | cons w vertices =>
          cases vertices with
          | nil =>
              obtain rfl := Option.some.inj hlast
              exact ⟨v, rfl⟩
          | cons x vertices =>
              obtain ⟨u, hu⟩ := ih (by simpa using hlast) (by simp)
              exact ⟨u, by simpa using hu⟩

theorem chords_points_ne_nil {edge : ContourEdge} {points : List Point2D} {chordTolerance : ℝ}
    (h : edge.points chordTolerance = .ok points) : chords points ≠ [] := by
  cases edge with
  | line edge =>
      obtain rfl := Except.ok.inj h
      exact List.cons_ne_nil _ _
  | curve c => exact ne_nil_of_linearizeCurve h

/-- The joined points of the edges of an open polyline run from its first vertex to its last. -/
theorem joined_points (hedges : List.Forall₂ (fun s edge => segmentEdge s.1 s.2 = .ok edge) (segments vertices false) edges)
    (hne : edges ≠ [])
    (hlists : List.Forall₂ (fun edge points => edge.points tolerance.arcChordToleranceMm = .ok points) edges lists)
    (hfirst : vertices.head? = some first) (hlast : vertices.getLast? = some last) :
    chords (joinPoints [] lists) = lists.flatMap chords ∧ (joinPoints [] lists).head? = some first.pointMm ∧
      (joinPoints [] lists).getLast? = some last.pointMm ∧ 1 < (joinPoints [] lists).length := by
  have hgoes := goesOn_of_ends (edges_isChain (segments_isChain vertices) hedges) hlists
  have hsegments : segments vertices false ≠ [] := by
    intro hnil
    rw [hnil] at hedges
    cases hedges
    exact hne rfl
  obtain ⟨v, hv⟩ := segments_getLast? hlast hsegments
  obtain ⟨lastEdge, hlastEdge, hspans⟩ := forall₂_getLast? hedges hv
  obtain ⟨lastList, hlastList, hpoints⟩ := forall₂_getLast? hlists hlastEdge
  cases hlists with
  | nil => exact absurd rfl hne
  | @cons edge points edges lists hedge hlists =>
      obtain ⟨hchords, hhead, hend⟩ := chords_joinPoints hgoes
      have hjoined : joinPoints [] (points :: lists) = joinPoints points lists := by rw [joinPoints, if_pos rfl]
      rw [hjoined]
      have hstart : edge.ends.1 = first.pointMm := by
        rw [segments_open] at hedges
        cases vertices with
        | nil => cases hfirst
        | cons v rest =>
            cases rest with
            | nil => cases hedges
            | cons w rest =>
                obtain rfl := Option.some.inj hfirst
                cases hedges with
                | cons hspans hrest => rw [(segmentEdge_circular hspans).2]
      refine ⟨hchords, ?_, ?_, ?_⟩
      · rw [hhead, (edge_points_ends hedge).1, hstart]
      · rw [hend, List.getLast_eq_iff_getLast?_eq_some (List.cons_ne_nil _ _) |>.mpr hlastList, (edge_points_ends hpoints).2,
          (segmentEdge_circular hspans).2]
      · obtain ⟨s, hs⟩ := List.exists_mem_of_ne_nil _ (chords_points_ne_nil hedge)
        have hmem : s ∈ chords (joinPoints points lists) := by
          rw [hchords]
          exact List.mem_flatMap.mpr ⟨points, List.mem_cons_self, hs⟩
        obtain ⟨i, hi, -⟩ := mem_chords_iff.mp hmem
        omega

theorem chords_dropLast_subset (points : List Point2D) : chords points.dropLast ⊆ chords points := by
  intro s hs
  obtain ⟨i, hi, rfl⟩ := mem_chords_iff.mp hs
  rw [List.length_dropLast] at hi
  exact mem_chords_iff.mpr ⟨i, by omega, by simp⟩

/-- The measured path of a polyline with a bulge is close to what is drawn just when the closing segment is. -/
theorem close_iff_closes (hbulged : Bulged vertices) (hkernel : kernelEntity (.polyline vertices false) = .ok kernel)
    (hpath : kernel.segments tolerance = .ok path) (hpos : 0 ≤ tolerance.arcChordToleranceMm) :
    Close tolerance.arcChordToleranceMm (pathPoints path) (drawnPoints vertices) ↔ ClosesOnDrawn vertices path tolerance := by
  obtain ⟨contour, rfl, hedges⟩ := kernelEntity_bulged hbulged hkernel
  obtain ⟨lists, hlists, start, finish, hstart, hfinish, rfl⟩ := contour_path hpath
  have hvertices : vertices ≠ [] := by
    rintro rfl
    obtain ⟨s, hs, -⟩ := hbulged
    cases hs
  obtain ⟨first, hfirst⟩ := Option.ne_none_iff_exists'.mp (List.head?_eq_none_iff.not.mpr hvertices)
  obtain ⟨last, hlast⟩ := Option.ne_none_iff_exists'.mp (List.getLast?_eq_none_iff.not.mpr hvertices)
  obtain ⟨hchords, hhead, hend, hlength⟩ := joined_points hedges contour.edges_ne hlists hfirst hlast
  have hcircular : ∀ edge ∈ contour.edges, edge.Circular := fun edge hedge => by
    obtain ⟨s, -, hs⟩ := Fallible.mem_of_forall₂ hedges hedge
    exact (segmentEdge_circular hs).1
  obtain ⟨hnear, hnear'⟩ := edges_near_chords hcircular hpos hlists
  rw [← drawnPoints_eq hedges, ← hchords] at hnear hnear'
  rw [dropClosing_cases hlength hhead hend] at hstart hfinish ⊢
  have hunique (P : PolylineVertex → PolylineVertex → Prop) :
      (∀ first' last', vertices.head? = some first' → vertices.getLast? = some last' → P first' last') ↔ P first last := by
    rw [hfirst, hlast]
    simp
  -- The chords that are kept are near what is drawn.
  have hkept {points : List Point2D} (hsubset : chords points ⊆ chords (joinPoints [] lists)) {z : ℂ}
      (hz : z ∈ pathPoints (chords points)) : infDist z (drawnPoints vertices) ≤ tolerance.arcChordToleranceMm := by
    obtain ⟨s, hs, hz⟩ := hz
    exact infDist_le_of_withinOf hnear z ⟨s, hsubset hs, hz⟩
  have hpieces (points : List Point2D) (s : Point2D × Point2D) :
      pathPoints (chords points ++ [s]) = pathPoints (chords points) ∪ segmentPoints s := by
    ext z
    simp [pathPoints, or_and_right, exists_or]
  rw [ClosesOnDrawn, hunique]
  split
  · rename_i hdropped
    rw [if_pos hdropped] at hstart hfinish
    rw [Close, hpieces]
    simp only [List.getLast?_concat, Option.mem_some_iff, forall_eq']
    apply and_congr_left'
    constructor
    · intro hall z hz
      exact hall z (.inr hz)
    · rintro hclosing z (hz | hz)
      · exact hkept (chords_dropLast_subset _) hz
      · exact hclosing z hz
  · rename_i hkeeps
    rw [if_neg hkeeps, hhead] at hstart
    rw [if_neg hkeeps, hend] at hfinish
    obtain rfl := Option.some.inj hstart
    obtain rfl := Option.some.inj hfinish
    rw [Close, hpieces]
    constructor
    · intro hclose z hz
      exact hclose.1 z (.inr hz)
    · intro hclosing
      constructor
      · rintro z (hz | hz)
        · exact hkept (List.Subset.refl _) hz
        · exact hclosing z hz
      · intro z hz
        obtain ⟨w, hw, hdist⟩ := hnear' z hz
        exact (infDist_le_dist_of_mem (.inl hw)).trans hdist

/-- A polyline without arcs is measured by its segments. -/
theorem straight_path (hstraight : ¬ Bulged vertices) (hkernel : kernelEntity (.polyline vertices false) = .ok kernel)
    (hpath : kernel.segments tolerance = .ok path) : drawnPoints vertices = pathPoints path := by
  have hbulges : ¬ ∃ s ∈ segments vertices false, |s.1.bulge| > 1e-15 := hstraight
  rw [kernelEntity, if_neg hbulges] at hkernel
  obtain ⟨polyline, hpolyline, rfl⟩ := Fallible.map_eq_ok.mp hkernel
  obtain rfl := Except.ok.inj hpath
  obtain ⟨hpoints, hopen⟩ := Polyline2D.checked_ok hpolyline
  have hsegments : polyline.segments = (segments vertices false).map fun s => (s.1.pointMm, s.2.pointMm) := by
    rw [Polyline2D.segments, hpoints, hopen]
    cases vertices with
    | nil => rfl
    | cons v vertices =>
        exact @List.zip_map _ _ _ _ PolylineVertex.pointMm PolylineVertex.pointMm (v :: vertices) vertices
  rw [hsegments]
  have hline {s : PolylineVertex × PolylineVertex} (hs : s ∈ segments vertices false) :
      segmentEdge s.1 s.2 = .ok (.line ⟨s.1.pointMm, s.2.pointMm⟩) := if_pos (not_lt.mp fun h => hstraight ⟨s, hs, h⟩)
  ext z
  constructor
  · rintro ⟨s, hs, edge, hedge, hz⟩
    obtain rfl := Except.ok.inj ((hline hs).symm.trans hedge)
    exact ⟨_, List.mem_map_of_mem hs, hz⟩
  · rintro ⟨_, hs, hz⟩
    obtain ⟨s, hmem, rfl⟩ := List.mem_map.mp hs
    exact ⟨s, hmem, _, hline hmem, hz⟩

theorem drawnPoints_nonempty (hkernel : kernelEntity (.polyline vertices false) = .ok kernel)
    (hpath : kernel.segments tolerance = .ok path) : (drawnPoints vertices).Nonempty := by
  by_cases hbulged : Bulged vertices
  · obtain ⟨contour, rfl, hedges⟩ := kernelEntity_bulged hbulged hkernel
    obtain ⟨edge, hedge⟩ := List.exists_mem_of_ne_nil _ contour.edges_ne
    rw [drawnPoints_eq hedges]
    cases edge with
    | line line => exact ⟨_, _, hedge, start_mem_segmentPoints⟩
    | curve c => exact ⟨_, _, hedge, c.pointAt 0, CurveParams.mem_points.mpr ⟨0, by simp, rfl⟩, rfl⟩
  · rw [straight_path hbulged hkernel hpath]
    exact pathPoints_nonempty (MeasurableEntity.segments_ok hpath).1

end

/-! ## A hook -/

/-- Half a circle, and two lines that lead away from it. -/
def hook : List PolylineVertex := [⟨⟨0, 0⟩, 1⟩, ⟨⟨2, 0⟩, 0⟩, ⟨⟨100, 0⟩, 0⟩, ⟨⟨100, 100⟩, 0⟩]

theorem hook_bulged : Bulged hook := ⟨(⟨⟨0, 0⟩, 1⟩, ⟨⟨2, 0⟩, 0⟩), by simp [hook, segments], by norm_num⟩

theorem hook_edges : ∃ c : CurveParams, c.radiusMm = some 1 ∧ c.center = ⟨1, 0⟩ ∧
    (segments hook false).mapM (fun s => segmentEdge s.1 s.2) =
      .ok [.curve c, .line ⟨⟨2, 0⟩, ⟨100, 0⟩⟩, .line ⟨⟨100, 0⟩, ⟨100, 100⟩⟩] := by
  have hdistance : (Point2D.mk 0 0).distanceTo ⟨2, 0⟩ = 2 := distanceTo_eq (by norm_num) (by norm_num)
  obtain ⟨c, hc⟩ := @normalizeBulge_isOk ⟨0, 0⟩ ⟨2, 0⟩ 1 (by rw [hdistance]; norm_num) (by unfold IsClose; norm_num)
  have hfields : c.radiusMm = some 1 ∧ c.center = ⟨1, 0⟩ := by
    unfold normalizeBulge at hc
    dsimp only at hc
    split at hc
    · cases hc
    · have hfields := CurveFields.checked_ok hc
      rw [hfields, hdistance]
      norm_num
  refine ⟨c, hfields.1, hfields.2, ?_⟩
  have hfirst : segmentEdge ⟨⟨0, 0⟩, 1⟩ ⟨⟨2, 0⟩, 0⟩ = .ok (.curve c) := by
    unfold segmentEdge
    rw [if_neg (by norm_num)]
    exact congrArg _ hc
  have hline (p q : Point2D) : segmentEdge ⟨p, 0⟩ ⟨q, 0⟩ = .ok (.line ⟨p, q⟩) := if_pos (by norm_num)
  simp [hook, segments, hfirst, hline]

/-- Each drawn point of the hook is far from the middle of the line between its ends. -/
theorem hook_far {z : ℂ} (h : z ∈ drawnPoints hook) : 49 ≤ dist (Point2D.mk 50 50).toComplex z := by
  obtain ⟨c, hr, hcenter, hedges⟩ := hook_edges
  rw [drawnPoints_eq (Fallible.mapM_eq_ok.mp hedges)] at h
  obtain ⟨edge, hedge, hz⟩ := h
  obtain ⟨p, rfl⟩ := exists_toComplex z
  rw [← Point2D.distanceTo_eq_dist]
  simp only [List.mem_cons, List.not_mem_nil, or_false] at hedge
  rcases hedge with rfl | rfl | rfl
  · obtain ⟨q, hq, heq⟩ := hz
    obtain rfl := Point2D.toComplex_injective heq
    have hy := (OperationGeometry.abs_sub_le_of_mem_points hr zero_le_one hq).2
    have hdist := Point2D.abs_y_sub_le ⟨50, 50⟩ q
    rw [hcenter, abs_le] at hy
    linarith [neg_abs_le (50 - q.y), le_abs_self (50 - q.y), hy.2]
  · obtain ⟨t, -, -, rfl⟩ := mem_segmentPoints.mp hz
    refine le_trans ?_ (Point2D.abs_y_sub_le _ _)
    norm_num
  · obtain ⟨t, -, -, rfl⟩ := mem_segmentPoints.mp hz
    refine le_trans ?_ (Point2D.abs_x_sub_le _ _)
    norm_num

/-- The measured path of the hook has a segment between its ends. -/
theorem hook_path : ∃ kernel path, kernelEntity (.polyline hook false) = .ok kernel ∧
    MeasurableEntity.segments {} kernel = .ok path ∧ ((⟨100, 100⟩, ⟨0, 0⟩) : Point2D × Point2D) ∈ path := by
  obtain ⟨c, -, -, hedges⟩ := hook_edges
  obtain ⟨contour, hcontour⟩ : ∃ contour : CurveContour,
      contour.edges = [.curve c, .line ⟨⟨2, 0⟩, ⟨100, 0⟩⟩, .line ⟨⟨100, 0⟩, ⟨100, 100⟩⟩] := ⟨⟨_, List.cons_ne_nil _ _⟩, rfl⟩
  rw [← hcontour] at hedges
  have hkernel : kernelEntity (.polyline hook false) = .ok (.contour contour) := by
    have hbulged : ∃ s ∈ segments hook false, |s.1.bulge| > 1e-15 := hook_bulged
    have hmade : curveContour contour.edges = .ok contour := dif_pos contour.edges_ne
    rw [kernelEntity, if_pos hbulged, hedges, Fallible.ok_bind, hmade]
    rfl
  obtain ⟨points, hpoints, htwo⟩ := @CurveContour.vertices_isOk (ToleranceProfile.arcChordToleranceMm {}) (by norm_num)
    contour (by simp [hcontour])
  have hpath : MeasurableEntity.segments {} (.contour contour) = .ok (Polyline2D.mk points true htwo).segments := by
    rw [MeasurableEntity.segments, hpoints, Fallible.ok_bind, Polyline2D.checked, dif_pos htwo]
    rfl
  refine ⟨_, _, hkernel, hpath, ?_⟩
  obtain ⟨lists, hlists, start, finish, hstart, hfinish, heq⟩ := contour_path hpath
  obtain ⟨-, hhead, hend, hlength⟩ := joined_points (Fallible.mapM_eq_ok.mp hedges) contour.edges_ne hlists
    (show hook.head? = some ⟨⟨0, 0⟩, 1⟩ from rfl) (show hook.getLast? = some ⟨⟨100, 100⟩, 0⟩ from rfl)
  have hapart : ¬ (Point2D.mk 0 0).distanceTo ⟨100, 100⟩ ≤ ToleranceProfile.arcChordToleranceMm {} := by
    have hdist := Point2D.abs_x_sub_le ⟨0, 0⟩ ⟨100, 100⟩
    norm_num at hdist ⊢
    linarith
  rw [dropClosing_cases hlength hhead hend, if_neg hapart] at hstart hfinish heq
  rw [heq, ← Option.some.inj (hhead.symm.trans hstart), ← Option.some.inj (hend.symm.trans hfinish)]
  exact List.mem_append_right _ (List.mem_singleton_self _)

end CadHarness.Service
