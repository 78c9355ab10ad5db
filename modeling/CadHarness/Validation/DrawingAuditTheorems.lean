import CadHarness.Geometry.CrossingTheorems
import CadHarness.Geometry.TracingTheorems
import CadHarness.Takeoff.LengthTheorems
import CadHarness.Validation.DrawingAuditRules

/-!
# Drawn boundaries

The rule for self-intersecting contours looks at the chords of the edges. Where an edge is an arc, or two edges are
parallel, the chords do not tell whether the drawn edges meet.
-/

namespace CadHarness.Validation
open CadHarness.Geometry

/-! ## Edges as they are drawn -/

/-- A vertex of a polyline and the next one. -/
abbrev Span := PolylineVertex × PolylineVertex

namespace Span

variable (s a b : Span)

def chord : Point2D × Point2D := (s.1.pointMm, s.2.pointMm)

def Straight : Prop := |s.1.bulge| ≤ 1e-15

/-- The line or the arc between the vertices. Where neither can be drawn, the vertex alone. -/
def drawn : Set Point2D :=
  match segmentEdge s.1 s.2 with
  | .ok (.line edge) => edgePoints (edge.start, edge.endPoint)
  | .ok (.curve c) => c.points
  | .error _ => {s.1.pointMm}

def DrawnMeet : Prop := (a.drawn ∩ b.drawn).Nonempty

/-- The chords have a common point, and are not parallel. -/
def ChordsCross : Prop := ¬ Parallel a.chord b.chord ∧ (edgePoints a.chord ∩ edgePoints b.chord).Nonempty

def BothStraight : Prop := a.Straight ∧ b.Straight

variable {s a b}

theorem drawn_straight (h : s.Straight) : s.drawn = edgePoints s.chord := by
  have hline : segmentEdge s.1 s.2 = .ok (.line ⟨s.1.pointMm, s.2.pointMm⟩) := if_pos h
  unfold drawn
  rw [hline]
  rfl

theorem drawnMeet_of_chordsCross (hstraight : BothStraight a b) (h : ChordsCross a b) : DrawnMeet a b := by
  unfold DrawnMeet
  rw [drawn_straight hstraight.1, drawn_straight hstraight.2]
  exact h.2

end Span

/-- Two edges of a closed polyline that are not neighbours. -/
def SomeApart (vertices : List PolylineVertex) (P : Span → Span → Prop) : Prop :=
  ∃ i j a b, i < j ∧ (segments vertices true)[i]? = some a ∧ (segments vertices true)[j]? = some b ∧
    ¬ (j = i + 1 ∨ (i = 0 ∧ j = (segments vertices true).length - 1)) ∧ P a b

section

variable {vertices : List PolylineVertex} {P Q : Span → Span → Prop}

theorem SomeApart.imp (h : SomeApart vertices P) (hle : ∀ a b, P a b → Q a b) : SomeApart vertices Q := by
  obtain ⟨i, j, a, b, hlt, ha, hb, hadjacent, hP⟩ := h
  exact ⟨i, j, a, b, hlt, ha, hb, hadjacent, hle a b hP⟩

theorem someApart_or : SomeApart vertices (fun a b => P a b ∨ Q a b) ↔ SomeApart vertices P ∨ SomeApart vertices Q := by
  simp only [SomeApart, and_or_left, exists_or]

/-- The same pairs, some of which have a property. -/
theorem someApart_split (R : Span → Span → Prop) : SomeApart vertices P ↔
    SomeApart vertices (fun a b => R a b ∧ P a b) ∨ SomeApart vertices (fun a b => ¬ R a b ∧ P a b) := by
  rw [← someApart_or]
  simp only [← or_and_right, Classical.em, true_and]

/-! ## What the rule finds -/

theorem segments_chord {polyline : Polyline2D} (hvertices : polyline.vertices = vertices.map PolylineVertex.pointMm)
    (hclosed : polyline.closed = true) : polyline.segments = (segments vertices true).map Span.chord := by
  unfold Polyline2D.segments segments
  rw [hvertices, hclosed]
  cases vertices with
  | nil => rfl
  | cons first rest =>
      simp only [List.map_cons, ↓reduceIte]
      rw [← List.map_cons, ← List.map_nil, ← List.map_cons, ← List.map_append, List.zip_map]
      rfl

theorem selfIntersects_iff_someApart {polyline : Polyline2D}
    (hvertices : polyline.vertices = vertices.map PolylineVertex.pointMm) (hclosed : polyline.closed = true) :
    PolylineSelfIntersects polyline ↔ SomeApart vertices Span.ChordsCross := by
  rw [Polyline2D.selfIntersects_iff, segments_chord hvertices hclosed]
  constructor
  · rintro ⟨i, j, a, b, hlt, ha, hb, hadjacent, hcross⟩
    rw [List.getElem?_map] at ha hb
    obtain ⟨s, hs, rfl⟩ := Option.map_eq_some_iff.mp ha
    obtain ⟨t, ht, rfl⟩ := Option.map_eq_some_iff.mp hb
    refine ⟨i, j, s, t, hlt, hs, ht, ?_, hcross⟩
    simpa [Polyline2D.Adjacent, segments_chord hvertices hclosed, hclosed] using hadjacent
  · rintro ⟨i, j, s, t, hlt, hs, ht, hadjacent, hcross⟩
    refine ⟨i, j, s.chord, t.chord, hlt, ?_, ?_, ?_, hcross⟩
    · rw [List.getElem?_map, hs, Option.map_some]
    · rw [List.getElem?_map, ht, Option.map_some]
    · simpa [Polyline2D.Adjacent, segments_chord hvertices hclosed, hclosed] using hadjacent

/-- The rule reports a polyline just when two chords cross that are not neighbours. -/
theorem contourFindings_ne_nil_iff (tolerance : ToleranceProfile) (entityRef : String) :
    contourFindings tolerance ⟨entityRef, .polyline vertices true⟩ ≠ [] ↔ SomeApart vertices Span.ChordsCross := by
  unfold contourFindings
  by_cases htwo : 2 ≤ (vertices.map PolylineVertex.pointMm).length
  · have hchecked : Polyline2D.checked (vertices.map PolylineVertex.pointMm) true =
        .ok ⟨vertices.map PolylineVertex.pointMm, true, htwo⟩ := dif_pos htwo
    simp only [hchecked]
    rw [selfIntersects_iff_someApart rfl rfl]
    by_cases h : SomeApart vertices Span.ChordsCross <;> simp [h]
  · have hchecked : ∃ e, Polyline2D.checked (vertices.map PolylineVertex.pointMm) true = .error e :=
      ⟨_, dif_neg htwo⟩
    obtain ⟨e, hchecked⟩ := hchecked
    simp only [hchecked]
    refine iff_of_false (fun h => h rfl) ?_
    rintro ⟨i, j, a, b, hlt, -, hb, -, -⟩
    have hj := (List.getElem?_eq_some_iff.mp hb).1
    rw [length_segments] at hj
    rw [List.length_map] at htwo
    omega

end

/-! ## Main result -/

/-- A half turn below the x axis, and a spike that reaches down to it. -/
def spiked : List PolylineVertex := [⟨⟨0, 0⟩, -1⟩, ⟨⟨10, 0⟩, 0⟩, ⟨⟨5, 8⟩, 0⟩, ⟨⟨5, 2⟩, 0⟩]

theorem spiked_segments : segments spiked true = [(⟨⟨0, 0⟩, -1⟩, ⟨⟨10, 0⟩, 0⟩), (⟨⟨10, 0⟩, 0⟩, ⟨⟨5, 8⟩, 0⟩),
    (⟨⟨5, 8⟩, 0⟩, ⟨⟨5, 2⟩, 0⟩), (⟨⟨5, 2⟩, 0⟩, ⟨⟨0, 0⟩, -1⟩)] := rfl

theorem spiked_chords : ¬ SomeApart spiked Span.ChordsCross := by
  rintro ⟨i, j, a, b, hlt, ha, hb, hadjacent, hcross⟩
  have hj := (List.getElem?_eq_some_iff.mp hb).1
  rw [spiked_segments] at ha hb hj hadjacent
  simp only [List.length_cons, List.length_nil] at hj hadjacent
  rw [Span.ChordsCross, ← segmentIntersection_isSome_iff] at hcross
  have hpair : i = 0 ∧ j = 2 ∨ i = 1 ∧ j = 3 := by omega
  rcases hpair with ⟨rfl, rfl⟩ | ⟨rfl, rfl⟩
  · obtain rfl := Option.some.inj ha
    obtain rfl := Option.some.inj hb
    norm_num [segmentIntersection, Span.chord, Point2D.vectorTo, Vector2D.cross] at hcross
  · obtain rfl := Option.some.inj ha
    obtain rfl := Option.some.inj hb
    norm_num [segmentIntersection, Span.chord, Point2D.vectorTo, Vector2D.cross] at hcross

/-- The half turn goes through the top of its circle. -/
theorem spiked_arc : (⟨5, 5⟩ : Point2D) ∈ Span.drawn (⟨⟨0, 0⟩, -1⟩, ⟨⟨10, 0⟩, 0⟩) := by
  have hdistance : (Point2D.mk 0 0).distanceTo ⟨10, 0⟩ = 10 := by
    rw [Point2D.distanceTo, Real.sqrt_eq_iff_mul_self_eq_of_pos (by norm_num)]
    norm_num
  have hbulge : ¬ IsClose (-1) 0 1e-15 := by
    unfold IsClose
    norm_num
  obtain ⟨c, hc⟩ := Geometry.normalizeBulge_isOk (by rw [hdistance]; norm_num) hbulge
  have hedge : segmentEdge ⟨⟨0, 0⟩, -1⟩ ⟨⟨10, 0⟩, 0⟩ = .ok (.curve c) := by
    unfold segmentEdge
    rw [if_neg (by norm_num), hc]
    rfl
  unfold Span.drawn
  rw [hedge]
  refine ⟨1 / 2, ?_⟩
  rw [CurveParams.pointAtFraction, if_pos (by norm_num)]
  unfold normalizeBulge at hc
  rw [hdistance, if_neg (by rw [not_or]; exact ⟨by norm_num, hbulge⟩)] at hc
  have harg : Complex.arg ⟨-5, 0⟩ = Real.pi := Complex.arg_ofReal_of_neg (by norm_num : (-5 : ℝ) < 0)
  have hfields : c.toCurveFields =
      { kind := .arc, center := ⟨5, 0⟩, startAngleDeg := degrees Real.pi, sweepDeg := degrees (4 * Real.arctan (-1)),
        radiusMm := some 5 } := by
    rw [CurveFields.checked_ok hc]
    norm_num [atan2, harg]
  have hangle : radians (degrees Real.pi + degrees (4 * Real.arctan (-1)) * (1 / 2)) = Real.pi / 2 := by
    rw [Real.arctan_neg, Real.arctan_one, radians, degrees, degrees]
    field_simp
    norm_num
  rw [CurveParams.pointAt, hfields]
  simp only [hangle, Real.cos_pi_div_two, Real.sin_pi_div_two]
  norm_num

end CadHarness.Validation
