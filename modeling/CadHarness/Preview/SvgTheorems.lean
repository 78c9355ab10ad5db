import CadHarness.Catalog.Lemmas.Compilers
import CadHarness.Preview.SvgWriter

/-!
# What the preview shows

The preview hides nothing of a compiled plan exactly when its circles and arcs have a size, its arcs turn around in the
view box, and its texts need no escapes: the arcs take no part in the view box, and the texts are written as they are.
-/

namespace CadHarness.Preview
open CadHarness.Annotation (listEntry)
open CadHarness.Catalog CadHarness.Plan
open CadHarness.Geometry
open CadHarness.Lib

noncomputable section
open Classical

/-! ## The view box -/

theorem nearestEven_ge (x : ℝ) : x - 1 / 2 ≤ FloatText.nearestEven x := by
  rw [FloatText.nearestEven]
  split_ifs with h
  · have hfract : Int.fract x ≤ 1 / 2 := by
      rcases h with h | h
      · exact h.le
      · exact h.1.le
    rw [Int.fract] at hfract
    linarith
  · push_cast
    linarith [Int.lt_floor_add_one x]

theorem rounded_ge {x : ℝ} (hx : 0 ≤ x) : x - 1 / 20 ≤ FloatText.rounded 1 x := by
  have hge := nearestEven_ge (x * 10)
  have hnat : (FloatText.nearestEven (x * 10) : ℝ) ≤ ((FloatText.nearestEven (x * 10)).toNat : ℝ) := by
    exact_mod_cast Int.self_le_toNat _
  rw [FloatText.rounded, if_neg hx.not_gt, abs_of_nonneg hx, pow_one]
  linarith

namespace View

variable {view : View} {p q : Point2D}

/-- The named points are in the box, which the margin leaves inside the view box. -/
theorem contains_of_mem_box (hscale : view.scale = 2) (hx : view.box.minX ≤ p.x ∧ p.x ≤ view.box.maxX)
    (hy : view.box.minY ≤ p.y ∧ p.y ≤ view.box.maxY) : view.Contains p := by
  have hwidth : view.width = 2 * (view.box.maxX - view.box.minX) + 80 := by
    rw [width, hscale, BoundingBox.width, marginMm]
    ring
  have hheight : view.height = 2 * (view.box.maxY - view.box.minY) + 80 := by
    rw [height, hscale, BoundingBox.height, marginMm]
    ring
  have hright := rounded_ge (x := view.width) (by linarith)
  have hbelow := rounded_ge (x := view.height) (by linarith)
  constructor
  · rw [sx, hscale, marginMm]
    linarith
  · rw [sx, hscale, marginMm]
    linarith
  · rw [sy, hscale, marginMm]
    linarith
  · rw [sy, hscale, marginMm]
    linarith

/-- What lies between two points of the view box along both axes lies in it. -/
theorem contains_iff (hscale : view.scale = 2) : view.Contains p ↔
    (view.box.minX - 20 ≤ p.x ∧ p.x ≤ view.box.minX - 20 + FloatText.rounded 1 view.width / 2) ∧
    view.box.maxY + 20 - FloatText.rounded 1 view.height / 2 ≤ p.y ∧ p.y ≤ view.box.maxY + 20 := by
  constructor
  · rintro ⟨hleft, hright, habove, hbelow⟩
    rw [sx, hscale, marginMm] at hleft hright
    rw [sy, hscale, marginMm] at habove hbelow
    refine ⟨⟨?_, ?_⟩, ?_, ?_⟩ <;> linarith
  · rintro ⟨⟨hleft, hright⟩, hbelow, habove⟩
    constructor
    · rw [sx, hscale, marginMm]
      linarith
    · rw [sx, hscale, marginMm]
      linarith
    · rw [sy, hscale, marginMm]
      linarith
    · rw [sy, hscale, marginMm]
      linarith

theorem contains_line (hscale : view.scale = 2) (hp : view.Contains p) (hq : view.Contains q) {r : Point2D}
    (hr : r ∈ (OperationGeometry.line p q).points) : view.Contains r := by
  obtain ⟨t, h0, h1, rfl⟩ := hr
  rw [contains_iff hscale] at hp hq ⊢
  obtain ⟨hxlow, hxhigh⟩ := OperationGeometry.line_between (u := p.x) (v := q.x) h0 h1
  obtain ⟨hylow, hyhigh⟩ := OperationGeometry.line_between (u := p.y) (v := q.y) h0 h1
  exact ⟨⟨(le_min hp.1.1 hq.1.1).trans hxlow, hxhigh.trans (max_le hp.1.2 hq.1.2)⟩,
    (le_min hp.2.1 hq.2.1).trans hylow, hyhigh.trans (max_le hp.2.2 hq.2.2)⟩

theorem contains_circle (hscale : view.scale = 2) {center : Point2D} {radius : ℝ}
    (h : ∀ q ∈ circleExtremes radius center, view.Contains q)
    (hp : p ∈ (OperationGeometry.circle center (2 * radius)).points) : view.Contains p := by
  obtain ⟨hx, hy⟩ := OperationGeometry.abs_sub_le_of_mem_circle hp
  rw [mul_div_cancel_left₀ radius two_ne_zero, abs_le] at hx hy
  simp only [circleExtremes, List.mem_cons, List.not_mem_nil, or_false, forall_eq_or_imp, forall_eq,
    contains_iff hscale]
    at h
  obtain ⟨hleft, hright, hbelow, habove⟩ := h
  rw [contains_iff hscale]
  refine ⟨⟨?_, ?_⟩, ?_, ?_⟩ <;> linarith

end View

/-! ## Arcs -/

section
variable {center p : Point2D} {radius a b angle m : ℝ}

theorem cos_radians_add_turns (angle : ℝ) (k : ℤ) :
    Real.cos (radians (angle + k * 360)) = Real.cos (radians angle) := by
  rw [radians_add, mul_comm, radians_mul, radians_full, mul_comm]
  exact Real.cos_add_int_mul_two_pi _ _

theorem sin_radians_add_turns (angle : ℝ) (k : ℤ) :
    Real.sin (radians (angle + k * 360)) = Real.sin (radians angle) := by
  rw [radians_add, mul_comm, radians_mul, radians_full, mul_comm]
  exact Real.sin_add_int_mul_two_pi _ _

theorem onCircle_add_turns (angle : ℝ) (k : ℤ) :
    onCircle center radius (angle + k * 360) = onCircle center radius angle := by
  rw [onCircle, onCircle, cos_radians_add_turns, sin_radians_add_turns]

theorem isOnArc_of_between (k : ℤ) (hlow : a ≤ angle + k * 360) (hhigh : angle + k * 360 ≤ a + ccwSweep (b - a)) :
    IsOnArc a b angle := by
  have hshift : modulo (angle - a) 360 = modulo (angle + k * 360 - a) 360 := by
    rw [← modulo_add_turns (by norm_num) k]
    ring_nf
  have hle : modulo (angle + k * 360 - a) 360 ≤ angle + k * 360 - a := by
    rw [modulo]
    have hnonneg : 0 ≤ (angle + k * 360 - a) / 360 := div_nonneg (by linarith) (by norm_num)
    have hfloor : (0 : ℝ) ≤ ⌊(angle + k * 360 - a) / 360⌋ := Int.cast_nonneg (Int.floor_nonneg.mpr hnonneg)
    linarith
  rw [IsOnArc, hshift]
  linarith

/-- An angle on an arc, counted on from its start. -/
theorem exists_turns (a angle : ℝ) : ∃ k : ℤ, angle = a + modulo (angle - a) 360 + k * 360 := by
  refine ⟨⌊(angle - a) / 360⌋, ?_⟩
  rw [modulo]
  ring

theorem mem_arc_iff (hr : 0 < radius) : p ∈ (OperationGeometry.arc center radius a b).points ↔
    ∃ angle, a ≤ angle ∧ angle ≤ a + ccwSweep (b - a) ∧ p = onCircle center radius angle := by
  obtain ⟨hgt, hle⟩ := ccwSweep_mem (b - a)
  have hpos : 0 < ccwSweep (b - a) := by linarith
  obtain ⟨c, hc, hf⟩ := CurveFields.checked_arc center a hr hpos.ne' (by rwa [abs_of_pos hpos])
  have hnorm : normalizeArc center radius a (some b) none = .ok c := hc
  have hpoint (t : ℝ) : c.pointAt t = onCircle center radius (a + ccwSweep (b - a) * t) := by
    rw [CurveParams.pointAt, hf]
    rfl
  have hpoints : p ∈ (OperationGeometry.arc center radius a b).points ↔ p ∈ c.points := by
    constructor
    · rintro ⟨c', hc', hp⟩
      rw [hnorm] at hc'
      rwa [← Except.ok.inj hc'] at hp
    · intro hp
      exact ⟨c, hnorm, hp⟩
  rw [hpoints, CurveParams.mem_points]
  constructor
  · rintro ⟨t, ht, rfl⟩
    refine ⟨a + ccwSweep (b - a) * t, ?_, ?_, hpoint t⟩
    · linarith [mul_nonneg hpos.le ht.1]
    · linarith [mul_le_of_le_one_right hpos.le ht.2]
  · rintro ⟨angle, hlow, hhigh, rfl⟩
    refine ⟨(angle - a) / ccwSweep (b - a), ⟨div_nonneg (by linarith) hpos.le, (div_le_one hpos).mpr (by linarith)⟩, ?_⟩
    rw [hpoint, mul_div_cancel₀ _ hpos.ne', add_sub_cancel]

/-- The point of an angle on the arc is a point of the arc. -/
theorem onCircle_mem_arc (hr : 0 < radius) (h : IsOnArc a b angle) :
    onCircle center radius angle ∈ (OperationGeometry.arc center radius a b).points := by
  obtain ⟨k, hk⟩ := exists_turns a angle
  rw [mem_arc_iff hr]
  refine ⟨a + modulo (angle - a) 360, ?_, ?_, ?_⟩
  · linarith [(modulo_mem (a := angle - a) (b := 360) (by norm_num)).1]
  · rw [IsOnArc] at h
    linarith
  · rw [hk, onCircle_add_turns, ← hk]

/-- The end of an arc is at its end angle, or where it has started. -/
theorem onCircle_end : onCircle center radius (a + ccwSweep (b - a)) = onCircle center radius b ∨
    onCircle center radius (a + ccwSweep (b - a)) = onCircle center radius a := by
  obtain ⟨k, hk⟩ := exists_turns a b
  unfold ccwSweep
  split_ifs with hfull
  · right
    have hturn : onCircle center radius (a + (1 : ℤ) * 360) = onCircle center radius a := onCircle_add_turns a 1
    rwa [Int.cast_one, one_mul] at hturn
  · left
    rw [hk, onCircle_add_turns, ← hk]

theorem le_of_radians_le (h : radians a ≤ radians b) : a ≤ b := by
  by_contra hlt
  exact absurd (radians_lt (not_le.mp hlt)) h.not_gt

/-- How far an arc reaches in a direction: to an end, or to the whole radius if it turns around there. -/
theorem cos_sub_le {turn : ℝ} (hstart : Real.cos (radians (a - turn)) ≤ m)
    (hend : Real.cos (radians (a + ccwSweep (b - a) - turn)) ≤ m) (hturn : IsOnArc a b turn → 1 ≤ m)
    (hlow : a ≤ angle) (hhigh : angle ≤ a + ccwSweep (b - a)) : Real.cos (radians (angle - turn)) ≤ m := by
  have hmono {x y : ℝ} (h : x ≤ y) : radians x ≤ radians y := by
    rcases h.eq_or_lt with rfl | h
    · exact le_rfl
    · exact (radians_lt h).le
  have hturns (k : ℤ) : k * (2 * Real.pi) = radians (k * 360) := by
    rw [mul_comm (k : ℝ) 360, radians_mul, radians_full, mul_comm]
  refine cos_le_of_between hstart hend (fun k hk hk' => hturn ?_) (hmono (by linarith)) (hmono (by linarith))
  rw [hturns] at hk hk'
  have hk := le_of_radians_le hk
  have hk' := le_of_radians_le hk'
  exact isOnArc_of_between k (by linarith) (by linarith)

/-- The coordinates of a place on a circle, counted from the four directions. -/
theorem cos_sub_quarter (angle : ℝ) : Real.cos (radians (angle - 0)) = Real.cos (radians angle) ∧
    Real.cos (radians (angle - 90)) = Real.sin (radians angle) ∧
    Real.cos (radians (angle - 180)) = -Real.cos (radians angle) ∧
    Real.cos (radians (angle - 270)) = -Real.sin (radians angle) := by
  have hninety : radians 90 = Real.pi / 2 := by
    rw [radians]
    ring
  have hhalf : radians 180 = Real.pi := by
    rw [radians]
    ring
  have hthree : radians 270 = Real.pi / 2 + Real.pi := by
    rw [radians]
    ring
  refine ⟨by rw [sub_zero], ?_, ?_, ?_⟩
  · rw [radians_sub, hninety, Real.cos_sub_pi_div_two]
  · rw [radians_sub, hhalf, Real.cos_sub_pi]
  · rw [radians_sub, hthree, ← sub_sub, Real.cos_sub_pi, Real.cos_sub_pi_div_two]

theorem View.contains_arc {view : View} (hscale : view.scale = 2) (hr : 0 < radius)
    (h : ∀ angle ∈ turningAngles a b, IsOnArc a b angle → view.Contains (onCircle center radius angle))
    (hp : p ∈ (OperationGeometry.arc center radius a b).points) : view.Contains p := by
  obtain ⟨angle, hlow, hhigh, rfl⟩ := (mem_arc_iff hr).mp hp
  have hsweep := ccwSweep_mem (b - a)
  have hstart : view.Contains (onCircle center radius a) := by
    refine h a (by simp [turningAngles]) ?_
    rw [IsOnArc, sub_self, modulo_of_mem le_rfl (by norm_num)]
    linarith
  have hend : view.Contains (onCircle center radius (a + ccwSweep (b - a))) := by
    have hends : onCircle center radius (a + ccwSweep (b - a)) = onCircle center radius b ∨
        onCircle center radius (a + ccwSweep (b - a)) = onCircle center radius a := onCircle_end
    rcases hends with heq | heq
    · rw [heq]
      refine h b (by simp [turningAngles]) ?_
      rw [IsOnArc]
      unfold ccwSweep
      split_ifs with hfull
      · exact (modulo_mem (by norm_num)).2.le
      · exact le_rfl
    · rwa [heq]
  have hscaled {c m : ℝ} (hle : c ≤ m / radius) : radius * c ≤ m := (le_div_iff₀' hr).mp hle
  have hbound {c m : ℝ} (hle : radius * c ≤ m) : c ≤ m / radius := (le_div_iff₀' hr).mpr hle
  -- one bound for each of the four directions
  have hreach (turn m : ℝ) (hmem : turn ∈ turningAngles a b)
      (hinside : ∀ q, view.Contains (onCircle center radius q) → radius * Real.cos (radians (q - turn)) ≤ m) :
      radius * Real.cos (radians (angle - turn)) ≤ m := by
    refine hscaled (cos_sub_le (hbound (hinside a hstart)) (hbound (hinside _ hend)) (fun hon => ?_) hlow hhigh)
    have hfull := hinside turn (h turn hmem hon)
    rw [sub_self, radians, zero_mul, Real.cos_zero] at hfull
    exact hbound hfull
  obtain ⟨hzero, hninety, hhalf, hthree⟩ := cos_sub_quarter angle
  have hright := hreach 0 (view.box.minX - 20 + FloatText.rounded 1 view.width / 2 - center.x) (by simp [turningAngles])
    fun q hq => by
      have hx := ((View.contains_iff hscale).mp hq).1.2
      rw [onCircle] at hx
      rw [(cos_sub_quarter q).1]
      linarith
  have habove := hreach 90 (view.box.maxY + 20 - center.y) (by simp [turningAngles]) fun q hq => by
    have hy := ((View.contains_iff hscale).mp hq).2.2
    rw [onCircle] at hy
    rw [(cos_sub_quarter q).2.1]
    linarith
  have hleft := hreach 180 (center.x - (view.box.minX - 20)) (by simp [turningAngles]) fun q hq => by
    have hx := ((View.contains_iff hscale).mp hq).1.1
    rw [onCircle] at hx
    rw [(cos_sub_quarter q).2.2.1]
    linarith
  have hbelow := hreach 270 (center.y - (view.box.maxY + 20 - FloatText.rounded 1 view.height / 2))
    (by simp [turningAngles]) fun q hq => by
      have hy := ((View.contains_iff hscale).mp hq).2.1
      rw [onCircle] at hy
      rw [(cos_sub_quarter q).2.2.2]
      linarith
  rw [hzero] at hright
  rw [hninety] at habove
  rw [hhalf] at hleft
  rw [hthree] at hbelow
  rw [View.contains_iff hscale, onCircle]
  refine ⟨⟨?_, ?_⟩, ?_, ?_⟩ <;> linarith

end

/-! ## What is written -/

open Lib.Xml

namespace View

variable (view : View)

theorem circlePart_toList (radius : ℝ) (center : Point2D) :
    (view.circlePart radius center).toList = (view.circleElement radius center).render := by
  unfold circlePart circleElement
  generalize FloatText.fixed 2 (radius * view.scale) = r
  simp [attr, toString, Item.render, renderAttributes]

/-- The parts of an operation are the elements of its drawing, as they are. -/
theorem parts_eq {operation : Plan.Operation} {drawing : Drawing} (hdrawing : drawingOf operation = .ok drawing)
    (harc : ∀ center radius a b, drawing = .arc center radius a b → 0 < radius)
    (htext : ∀ position text, drawing = .text position text → text ≠ "") :
    ∃ ps, view.parts operation = .ok ps ∧ ps.map String.toList = (view.elements drawing).map Item.render := by
  unfold drawingOf at hdrawing
  unfold parts
  cases htype : operation.type
  all_goals
    simp only [htype, Fallible.bind_eq_ok, Fallible.pure_eq_ok] at hdrawing
    dsimp only
  case createClosedPolyline =>
    obtain ⟨items, hitems, points, hpoints, rfl⟩ := hdrawing
    refine ⟨_, by rw [hitems, Fallible.ok_bind, hpoints, Fallible.ok_bind]; rfl, ?_⟩
    simp [elements, pointsElement, attr, toString, Item.render, renderAttributes]
  case createPolyline =>
    obtain ⟨items, hitems, points, hpoints, rfl⟩ := hdrawing
    refine ⟨_, by rw [hitems, Fallible.ok_bind, hpoints, Fallible.ok_bind]; rfl, ?_⟩
    simp [elements, pointsElement, attr, toString, Item.render, renderAttributes]
  case createCircles | createCircle =>
    obtain ⟨radius, hradius, centers, hcenters, rfl⟩ := hdrawing
    refine ⟨_, by rw [hradius, Fallible.ok_bind, hcenters, Fallible.ok_bind]; rfl, ?_⟩
    rw [elements, List.map_map, List.map_map]
    exact List.map_congr_left fun center _ => view.circlePart_toList radius center
  case createArc =>
    obtain ⟨raw, hraw, center, hcenter, r, hr, radius, hradius, x, hx, a, ha, y, hy, b, hb, rfl⟩ := hdrawing
    have hpos := harc center radius a b rfl
    obtain ⟨hgt, hle⟩ := ccwSweep_mem (b - a)
    have hsweep : 0 < ccwSweep (b - a) := by linarith
    obtain ⟨c, hc, hf⟩ := CurveFields.checked_arc center a hpos hsweep.ne' (by rwa [abs_of_pos hsweep])
    have hnorm : normalizeArc center radius a (some b) none = .ok c := hc
    obtain ⟨points, hpoints⟩ : ∃ points, linearizeCurve c 0.01 = .ok points := by
      rw [linearizeCurve, chordSegmentCount, if_neg (by norm_num)]
      exact ⟨_, rfl⟩
    have harcPoints : arcPoints center radius a b = points := by
      rw [arcPoints, hnorm]
      simp only [hpoints]
      rfl
    refine ⟨_, by
      rw [hraw, Fallible.ok_bind, hcenter, Fallible.ok_bind, hr, Fallible.ok_bind, hradius, Fallible.ok_bind, hx,
        Fallible.ok_bind, ha, Fallible.ok_bind, hy, Fallible.ok_bind, hb, Fallible.ok_bind, hnorm, Fallible.ok_bind,
          hpoints,
        Fallible.ok_bind]
      rfl, ?_⟩
    simp [elements, harcPoints, pointsElement, attr, toString, Item.render, renderAttributes]
  case createLine | createCenterline | createLinearDimension | createAlignedDimension =>
    obtain ⟨first, hfirst, start, hstart, second, hsecond, endPoint, hend, rfl⟩ := hdrawing
    refine ⟨_, by
      rw [hfirst, Fallible.ok_bind, hstart, Fallible.ok_bind, hsecond, Fallible.ok_bind, hend, Fallible.ok_bind]
      rfl, ?_⟩
    simp [elements, lineElement, attr, toString, Item.render, renderAttributes]
  case createText =>
    obtain ⟨raw, hraw, position, hposition, text, ht, rfl⟩ := hdrawing
    have hne : text.toList ≠ [] := by
      rw [ne_eq, String.toList_eq_nil_iff]
      exact htext position text rfl
    refine ⟨_, by
      rw [hraw, Fallible.ok_bind, hposition, Fallible.ok_bind, ht, Fallible.ok_bind]
      rfl, ?_⟩
    rw [elements, List.map_cons, List.map_nil, List.map_cons, List.map_nil, render_text hne]
    simp [attr, toString, renderAttributes]
  all_goals
    obtain rfl := Except.ok.inj hdrawing
    exact ⟨[], rfl, rfl⟩

theorem renderAttributes_cons (name value : String) (attributes : List (List Char × List Char)) :
    renderAttributes (attr name value :: attributes) = (" " ++ name ++ "=\"" ++ value ++ "\"").toList ++
      renderAttributes attributes := by
  simp [renderAttributes, attr]

set_option maxRecDepth 4000 in
/-- The parts before the operations: two tags that stay open, and two elements between them. -/
theorem opening_toList (planId : String) : (view.opening planId).map String.toList =
    ['<' :: ("svg".toList ++ renderAttributes (view.svgAttributes planId) ++ ['>']), (titleElement planId).render,
      backgroundElement.render, '<' :: ("g".toList ++ renderAttributes view.groupAttributes ++ ['>'])] := by
  have htitle : s!"Operation plan preview {planId}".toList ≠ [] := by simp [toString]
  have htitleRender : (titleElement planId).render = s!"<title>Operation plan preview {planId}</title>".toList := by
    rw [titleElement, render_text htitle]
    simp [toString, renderAttributes]
  rw [htitleRender]
  unfold opening svgAttributes groupAttributes
  generalize FloatText.fixed 1 view.width = width
  generalize FloatText.fixed 1 view.height = height
  generalize FloatText.fixed 2 view.strokeWidth = strokeWidth
  simp only [renderAttributes_cons, String.toList_append, toString, List.append_assoc, List.map_cons, List.map_nil]
  rfl

/-- The file is the document as it is. -/
theorem file_toList (planId : String) (drawings : List Drawing) (drawn : List String)
    (h : drawn.map String.toList = (drawings.flatMap view.elements).map Item.render) :
    ("\n".intercalate (view.opening planId ++ drawn ++ ["</g></svg>"])).toList =
      (view.document planId drawings).render := by
  have hgroup : onLines (drawings.flatMap view.elements) ++ chars ['\n'] ≠ [] := by simp [chars]
  have hnewline : "\n".toList = ['\n'] := rfl
  rw [String.toList_intercalate, List.map_append, List.map_append, h, opening_toList, hnewline, List.cons_append,
    List.cons_append, intercalate_newline]
  rw [document, render_element (by simp [onLines]), renderAll_onLines]
  simp only [List.map_cons, List.map_nil, List.flatMap_cons, List.flatMap_nil, render_element hgroup,
    renderAll_append, renderAll_onLines, renderAll_chars]
  generalize (titleElement planId).render = title
  generalize backgroundElement.render = background
  simp
end View

/-! ## Reading it back -/

theorem isValue_of_isDigit {c : Char} (h : c.isDigit) :
    IsChar c ∧ c ≠ '<' ∧ c ≠ '&' ∧ c ≠ '"' ∧ c ≠ '\t' ∧ c ≠ '\n' := by
  have hbounds : 48 ≤ c.toNat ∧ c.toNat ≤ 57 := by
    simpa [Char.isDigit, UInt32.le_iff_toNat_le] using h
  refine ⟨.inr (.inr (by omega)), ?_, ?_, ?_, ?_, ?_⟩
  all_goals
    rintro rfl
    revert hbounds
    decide

theorem isValue_toDigits (n : Nat) : IsValue (Nat.toDigits 10 n) :=
  fun _ hc => isValue_of_isDigit (Nat.isDigit_of_mem_toDigits (by decide) (by decide) hc)

theorem isValue_fixed (decimals : Nat) (x : ℝ) : IsValue (FloatText.fixed decimals x).toList := by
  rw [FloatText.fixed, String.toList_ofList]
  refine IsValue.append (IsValue.append ?_ (isValue_toDigits _)) ?_
  · split_ifs <;> decide
  · intro c hc
    rcases List.mem_cons.mp hc with rfl | hc
    · decide
    · rw [List.leftpad] at hc
      rcases List.mem_append.mp hc with hc | hc
      · rw [List.eq_of_mem_replicate hc]
        decide
      · exact isValue_toDigits _ c hc

theorem isValue_string_append {s t : String} (hs : IsValue s.toList) (ht : IsValue t.toList) :
    IsValue (s ++ t).toList := by
  rw [String.toList_append]
  exact hs.append ht

theorem isValue_intercalate {sep : List Char} {texts : List (List Char)} (hsep : IsValue sep)
    (h : ∀ t ∈ texts, IsValue t) : IsValue (sep.intercalate texts) := by
  induction texts with
  | nil => exact fun _ hc => absurd hc List.not_mem_nil
  | cons t texts ih =>
      have ht := h t List.mem_cons_self
      have hrest := ih fun u hu => h u (List.mem_cons_of_mem t hu)
      cases texts with
      | nil => simpa using ht
      | cons u texts =>
          rw [List.intercalate_cons_cons]
          exact (ht.append hsep).append hrest

theorem View.isValue_coords (view : View) (points : List Point2D) : IsValue (view.coords points).toList := by
  rw [View.coords, String.toList_intercalate]
  refine isValue_intercalate (by decide) ?_
  intro t ht
  simp only [List.map_map, List.mem_map, Function.comp_apply] at ht
  obtain ⟨p, -, rfl⟩ := ht
  exact isValue_string_append (isValue_string_append (isValue_fixed _ _) (by decide)) (isValue_fixed _ _)

/-- What an identifier of a plan is made of. -/
theorem mem_newPlanId {timestampMs randomness : Nat} {c : Char} (h : c ∈ (newPlanId timestampMs randomness).toList) :
    c ∈ "plan_".toList ++ base32 := by
  have hencode (number length : Nat) : ∀ c ∈ encode number length, c ∈ base32 := by
    induction length generalizing number with
    | zero => exact fun c hc => absurd hc List.not_mem_nil
    | succ length ih =>
        intro c hc
        rcases List.mem_append.mp hc with hc | hc
        · exact ih _ c hc
        · obtain rfl := List.mem_singleton.mp hc
          have hlt : number % 32 < base32.length := Nat.mod_lt _ (by decide)
          rw [List.getD_eq_getElem?_getD, List.getElem?_eq_getElem hlt]
          exact List.getElem_mem hlt
  rw [newPlanId] at h
  simp only [String.toList_append, toString, String.toList_ofList, List.mem_append] at h
  rcases h with (h | h) | h
  · exact List.mem_append_left _ h
  · exact List.mem_append_right _ (hencode _ _ c h)
  · exact List.mem_append_right _ (hencode _ _ c h)

theorem isCharData_of_forall {text : List Char} (h : ∀ c ∈ text, IsChar c ∧ c ≠ '<' ∧ c ≠ '&' ∧ c ≠ ']') :
    IsCharData text :=
  ⟨fun c hc => ⟨(h c hc).1, (h c hc).2.1, (h c hc).2.2.1⟩,
    fun hpart => (h ']' (hpart.subset (by decide))).2.2.2 rfl⟩

theorem isValue_newPlanId (timestampMs randomness : Nat) : IsValue (newPlanId timestampMs randomness).toList := by
  have hall : IsValue ("plan_".toList ++ base32) := by decide
  exact fun c hc => hall c (mem_newPlanId hc)

theorem isCharData_title (timestampMs randomness : Nat) :
    IsCharData s!"Operation plan preview {newPlanId timestampMs randomness}".toList := by
  have hid : ∀ c ∈ "plan_".toList ++ base32, IsChar c ∧ c ≠ '<' ∧ c ≠ '&' ∧ c ≠ ']' :=
    List.all_iff_forall_prop.mp (by decide)
  have htitle : ∀ c ∈ "Operation plan preview ".toList, IsChar c ∧ c ≠ '<' ∧ c ≠ '&' ∧ c ≠ ']' :=
    List.all_iff_forall_prop.mp (by decide)
  apply isCharData_of_forall
  intro c hc
  simp only [String.toList_append, toString, List.mem_append] at hc
  rcases hc with hc | hc
  · exact htitle c hc
  · exact hid c (mem_newPlanId hc)

namespace View

variable (view : View)

theorem isTag_points (name : String) (hname : isName name.toList) (points : List Point2D) :
    IsTag name.toList [attr "points" (view.coords points)] := by
  have hpoints : isName "points".toList := by decide
  refine ⟨hname, ?_, by simp⟩
  intro a ha
  obtain rfl := List.mem_singleton.mp ha
  exact ⟨hpoints, view.isValue_coords points⟩

/-- Each element of a drawing reads back if its text does. -/
theorem reads_elements {drawing : Drawing}
    (htext : ∀ position text, drawing = .text position text → text ≠ "" ∧ IsCharData text.toList) :
    ∀ e ∈ view.elements drawing, Reads .element e.render [e] := by
  have hattribute {a : List Char × List Char} {name value : String} (hname : isName name.toList)
      (hvalue : IsValue value.toList) : a = attr name value → isName a.1 ∧ IsValue a.2 := by
    rintro rfl
    exact ⟨hname, hvalue⟩
  intro e he
  cases drawing with
  | closedPolyline vertices =>
      obtain rfl := List.mem_singleton.mp he
      exact (view.isTag_points "polygon" (by decide) vertices).reads_empty
  | polyline vertices =>
      obtain rfl := List.mem_singleton.mp he
      exact (view.isTag_points "polyline" (by decide) vertices).reads_empty
  | circles radius centers =>
      obtain ⟨center, -, rfl⟩ := List.mem_map.mp he
      refine IsTag.reads_empty ⟨by decide, ?_, by simp [attr]⟩
      simp only [List.mem_cons, List.not_mem_nil, or_false]
      rintro a (ha | ha | ha)
      · exact hattribute (by decide) (isValue_fixed _ _) ha
      · exact hattribute (by decide) (isValue_fixed _ _) ha
      · exact hattribute (by decide) (isValue_fixed _ _) ha
  | arc center radius a b =>
      obtain rfl := List.mem_singleton.mp he
      exact (view.isTag_points "polyline" (by decide) _).reads_empty
  | line start endPoint | dimension start endPoint =>
      obtain rfl := List.mem_singleton.mp he
      refine IsTag.reads_empty ⟨by decide, ?_, by simp [attr]⟩
      simp only [List.mem_cons, List.not_mem_nil, or_false]
      rintro a (ha | ha | ha | ha)
      · exact hattribute (by decide) (isValue_fixed _ _) ha
      · exact hattribute (by decide) (isValue_fixed _ _) ha
      · exact hattribute (by decide) (isValue_fixed _ _) ha
      · exact hattribute (by decide) (isValue_fixed _ _) ha
  | text position text =>
      obtain rfl := List.mem_singleton.mp he
      obtain ⟨hne, hdata⟩ := htext position text rfl
      refine IsTag.reads_text ⟨by decide, ?_, by simp [attr]⟩ (by rwa [ne_eq, String.toList_eq_nil_iff]) hdata
      simp only [List.mem_cons, List.not_mem_nil, or_false]
      rintro a (ha | ha | ha | ha)
      · exact hattribute (by decide) (isValue_fixed _ _) ha
      · exact hattribute (by decide) (isValue_fixed _ _) ha
      · exact hattribute (by decide) (by decide) ha
      · exact hattribute (by decide) (by decide) ha
  | hidden => exact absurd he List.not_mem_nil

/-- The document reads back if all texts do. -/
theorem reads_document (timestampMs randomness : Nat) {drawings : List Drawing}
    (htexts : ∀ drawing ∈ drawings, ∀ position text, drawing = .text position text →
      text ≠ "" ∧ IsCharData text.toList) :
    Reads .element (view.document (newPlanId timestampMs randomness) drawings).render
      [view.document (newPlanId timestampMs randomness) drawings] := by
  have hattribute {a : List Char × List Char} {name value : String} (hname : isName name.toList)
      (hvalue : IsValue value.toList) : a = attr name value → isName a.1 ∧ IsValue a.2 := by
    rintro rfl
    exact ⟨hname, hvalue⟩
  have helements : ∀ e ∈ drawings.flatMap view.elements, Reads .element e.render [e] := by
    intro e he
    obtain ⟨drawing, hdrawing, he⟩ := List.mem_flatMap.mp he
    exact view.reads_elements (htexts drawing hdrawing) e he
  have hgroup : IsTag "g".toList view.groupAttributes := by
    refine ⟨by decide, ?_, by simp [groupAttributes, attr]⟩
    simp only [groupAttributes, List.mem_cons, List.not_mem_nil, or_false]
    rintro a (ha | ha | ha | ha)
    · exact hattribute (by decide) (by decide) ha
    · exact hattribute (by decide) (by decide) ha
    · exact hattribute (by decide) (isValue_fixed _ _) ha
    · exact hattribute (by decide) (by decide) ha
  have hsvg : IsTag "svg".toList (view.svgAttributes (newPlanId timestampMs randomness)) := by
    refine ⟨by decide, ?_, by simp [svgAttributes, attr]⟩
    simp only [svgAttributes, List.mem_cons, List.not_mem_nil, or_false]
    rintro a (ha | ha | ha | ha | ha | ha)
    · exact hattribute (by decide) (by decide) ha
    · exact hattribute (by decide) (isValue_fixed _ _) ha
    · exact hattribute (by decide) (isValue_fixed _ _) ha
    · refine hattribute (by decide) ?_ ha
      exact isValue_string_append (isValue_string_append (isValue_string_append (by decide) (isValue_fixed _ _))
        (by decide))
        (isValue_fixed _ _)
    · exact hattribute (by decide) (by decide) ha
    · refine hattribute (by decide) ?_ ha
      exact isValue_string_append (by decide) (isValue_newPlanId _ _)
  have hinner : ∀ e ∈ [titleElement (newPlanId timestampMs randomness), backgroundElement,
      .element "g".toList view.groupAttributes (onLines (drawings.flatMap view.elements) ++ chars ['\n'])],
      Reads .element e.render [e] := by
    simp only [List.mem_cons, List.not_mem_nil, or_false]
    rintro e (rfl | rfl | rfl)
    · refine IsTag.reads_text ⟨by decide, List.forall_mem_nil _, by decide⟩ (by simp [toString])
        (isCharData_title timestampMs randomness)
    · exact IsTag.reads_empty ⟨by decide, by decide, by decide⟩
    · exact hgroup.reads_full (by simp [chars]) (reads_onLines helements isCharData_newline)
  refine hsvg.reads_full (by simp [onLines]) ?_
  have hending : IsCharData [] := by decide
  simpa [chars] using reads_onLines hinner hending

end View

/-- A document whose characters stand for themselves has such texts. -/
theorem isCharData_of_plain {view : View} {planId : String} {drawings : List Drawing}
    (h : (view.document planId drawings).Plain) {position : Point2D} {text : String}
    (hmem : Drawing.text position text ∈ drawings) : IsCharData text.toList := by
  cases h with
  | element _ hsvg =>
      have hgroup := hsvg (.element "g".toList view.groupAttributes
        (onLines (drawings.flatMap view.elements) ++ chars ['\n'])) (by simp [onLines])
      cases hgroup with
      | element _ hitems =>
          have htext := hitems (.element "text".toList [attr "x" (view.xText position), attr "y" (view.yText position),
            attr "fill" strokeNew, attr "stroke" "none"] (chars text.toList)) (by
              simp only [onLines, List.mem_append, List.mem_flatMap]
              exact .inl ⟨_, ⟨_, hmem, List.mem_singleton_self _⟩, by simp⟩)
          cases htext with
          | element hplain _ => exact hplain _ rfl

/-! ## The points of an operation -/

/-- The points that a drawing without arcs is spanned by. -/
def Drawing.keyPoints : Drawing → List Point2D
  | closedPolyline vertices | polyline vertices => vertices
  | circles radiusMm centers => centers.flatMap (circleExtremes radiusMm)
  | line start endPoint => [start, endPoint]
  | _ => []

theorem geometryPoints_of_listEntry {geometry : Dict} {key : String} {items : List Value}
    (h : listEntry geometry key = .ok items) : geometryPoints geometry key = pointItems items := by
  rw [listEntry] at h
  obtain ⟨value, hvalue, h⟩ := Fallible.bind_eq_ok.mp h
  split at h
  · obtain rfl := Fallible.pure_eq_ok.mp h
    rw [geometryPoints, entry_eq_ok.mp hvalue]
  · cases h

theorem pointUnder_of_entry {geometry : Dict} {key : String} {raw : Value} {p : Point2D}
    (hraw : entry geometry key = .ok raw) (hp : pointItem raw = .ok p) : pointUnder geometry key = .ok [p] := by
  have hget : Plan.get geometry key = some raw := by
    rw [Plan.get, entry_eq_ok.mp hraw]
    cases raw <;> first | rfl | cases hp
  rw [pointUnder, hget]
  simp only [hp]
  rfl

/-- The drawing of an operation is spanned by points of the operation. -/
theorem keyPoints_subset {operation : Plan.Operation} {points : List Point2D} {drawing : Drawing}
    (hpoints : operationPoints operation = .ok points) (hdrawing : drawingOf operation = .ok drawing) :
    ∀ p ∈ drawing.keyPoints, p ∈ points := by
  rw [operationPoints] at hpoints
  simp only [Fallible.bind_eq_ok, Fallible.pure_eq_ok] at hpoints
  obtain ⟨listed, hlisted, single, hsingle, extremes, hextremes, rfl⟩ := hpoints
  have hlist {key : String} (hkey : key ∈ ["vertices_mm", "centers_mm"]) {items : List Value} {l : List Point2D}
      (hitems : listEntry operation.geometry key = .ok items) (hl : pointItems items = .ok l) {p : Point2D}
      (hp : p ∈ l) : p ∈ listed.flatten ++ single.flatten ++ extremes := by
    obtain ⟨l', hl', hmem⟩ := Fallible.exists_of_mem_mapM hlisted hkey
    rw [geometryPoints_of_listEntry hitems, hl] at hmem
    obtain rfl := Except.ok.inj hmem
    exact List.mem_append_left _ (List.mem_append_left _ (List.mem_flatten_of_mem hl' hp))
  have hpoint {key : String} (hkey : key ∈ ["center_mm", "start_mm", "end_mm", "position_mm", "text_position_mm"])
      {raw : Value} {p : Point2D} (hraw : entry operation.geometry key = .ok raw) (hp : pointItem raw = .ok p) :
      p ∈ listed.flatten ++ single.flatten ++ extremes := by
    obtain ⟨l', hl', hmem⟩ := Fallible.exists_of_mem_mapM hsingle hkey
    rw [pointUnder_of_entry hraw hp] at hmem
    obtain rfl := Except.ok.inj hmem
    exact List.mem_append_left _ (List.mem_append_right _ (List.mem_flatten_of_mem hl' (List.mem_singleton_self p)))
  unfold drawingOf at hdrawing
  intro p hp
  cases htype : operation.type
  all_goals simp only [htype, Fallible.bind_eq_ok, Fallible.pure_eq_ok] at hdrawing
  case createClosedPolyline | createPolyline =>
    obtain ⟨items, hitems, l, hl, rfl⟩ := hdrawing
    exact hlist (by simp) hitems hl hp
  case createCircles | createCircle =>
    obtain ⟨radius, hradius, centers, hcenters, rfl⟩ := hdrawing
    have hcircle : IsCircle operation.type := by
      rw [htype]
      simp [IsCircle]
    rw [circlePoints, if_pos hcircle, hradius, Fallible.ok_bind, hcenters, Fallible.ok_bind] at hextremes
    obtain rfl := Fallible.pure_eq_ok.mp hextremes
    exact List.mem_append_right _ hp
  case createLine | createCenterline =>
    obtain ⟨first, hfirst, start, hstart, second, hsecond, endPoint, hend, rfl⟩ := hdrawing
    simp only [Drawing.keyPoints, List.mem_cons, List.not_mem_nil, or_false] at hp
    rcases hp with rfl | rfl
    · exact hpoint (by simp) hfirst hstart
    · exact hpoint (by simp) hsecond hend
  case createLinearDimension | createAlignedDimension =>
    obtain ⟨first, hfirst, start, hstart, second, hsecond, endPoint, hend, rfl⟩ := hdrawing
    exact absurd hp List.not_mem_nil
  case createArc =>
    obtain ⟨_, _, _, _, _, _, _, _, _, _, _, _, _, _, _, _, rfl⟩ := hdrawing
    exact absurd hp List.not_mem_nil
  case createText =>
    obtain ⟨_, _, _, _, _, _, rfl⟩ := hdrawing
    exact absurd hp List.not_mem_nil
  all_goals
    obtain rfl := Except.ok.inj hdrawing
    exact absurd hp List.not_mem_nil

/-- The curves between points of the view box are in it. -/
theorem View.contains_curves {view : View} (hscale : view.scale = 2) {drawing : Drawing}
    (hkey : ∀ p ∈ drawing.keyPoints, view.Contains p)
    (harc : ∀ center radius a b, drawing = .arc center radius a b → 0 < radius ∧
      ∀ angle ∈ turningAngles a b, IsOnArc a b angle → view.Contains (onCircle center radius angle)) :
    ∀ p ∈ pointsOf drawing.curves, view.Contains p := by
  rintro p ⟨g, hg, hp⟩
  cases drawing with
  | closedPolyline vertices =>
      obtain ⟨s, hs, rfl⟩ := List.mem_map.mp hg
      obtain ⟨hfirst, hsecond⟩ := List.of_mem_zip hs
      refine view.contains_line hscale (hkey _ hfirst) (hkey _ ?_) hp
      rcases List.mem_append.mp hsecond with h | h
      · exact List.mem_of_mem_tail h
      · exact List.mem_of_mem_take h
  | polyline vertices =>
      obtain ⟨s, hs, rfl⟩ := List.mem_map.mp hg
      obtain ⟨hfirst, hsecond⟩ := List.of_mem_zip hs
      exact view.contains_line hscale (hkey _ hfirst) (hkey _ (List.mem_of_mem_tail hsecond)) hp
  | circles radius centers =>
      obtain ⟨center, hcenter, rfl⟩ := List.mem_map.mp hg
      exact view.contains_circle hscale (fun q hq => hkey q (List.mem_flatMap.mpr ⟨center, hcenter, hq⟩)) hp
  | arc center radius a b =>
      obtain rfl := List.mem_singleton.mp hg
      obtain ⟨hpos, hturn⟩ := harc center radius a b rfl
      exact view.contains_arc hscale hpos hturn hp
  | line start endPoint =>
      obtain rfl := List.mem_singleton.mp hg
      exact view.contains_line hscale (hkey start (by simp [Drawing.keyPoints]))
        (hkey endPoint (by simp [Drawing.keyPoints])) hp
  | dimension | text | hidden => exact absurd hg List.not_mem_nil

/-- The named points are in the view box. -/
theorem viewOf_ok {points : List Point2D} {view : View} (h : viewOf points = .ok view) :
    view.scale = 2 ∧ ∀ p ∈ points, view.Contains p := by
  cases points with
  | nil =>
      obtain rfl := Except.ok.inj h
      exact ⟨rfl, List.forall_mem_nil _⟩
  | cons first rest =>
      have hbox : BoundingBox.around first rest =
          ⟨minimumOf ((first :: rest).map Point2D.x), minimumOf ((first :: rest).map Point2D.y),
            maximumOf ((first :: rest).map Point2D.x), maximumOf ((first :: rest).map Point2D.y)⟩ := by
        simp [BoundingBox.around, minimumOf, maximumOf, List.foldl_map]
      have hne (coordinate : Point2D → ℝ) : (first :: rest).map coordinate ≠ [] := by simp
      obtain rfl := Except.ok.inj h
      refine ⟨rfl, fun p hp => View.contains_of_mem_box rfl ?_ ?_⟩
      · rw [hbox]
        exact ⟨(minimumOf_mem (hne _)).2 _ (List.mem_map_of_mem hp),
          (maximumOf_mem (hne _)).2 _ (List.mem_map_of_mem hp)⟩
      · rw [hbox]
        exact ⟨(minimumOf_mem (hne _)).2 _ (List.mem_map_of_mem hp),
          (maximumOf_mem (hne _)).2 _ (List.mem_map_of_mem hp)⟩

/-! ## Plans -/

/-- The operation has what the writer reads, but for the sizes of circles. -/
structure Renderable (operation : Plan.Operation) : Prop where
  points : (IsCircle operation.type → ∃ radius, circleRadiusMm operation.geometry = .ok radius) →
    ∃ points, operationPoints operation = .ok points
  drawing : (IsCircle operation.type → ∃ radius, circleRadiusMm operation.geometry = .ok radius) →
    ∃ drawing, drawingOf operation = .ok drawing
  text : ∀ position text, drawingOf operation = .ok (.text position text) → text ≠ ""

/-- An arc that is written has a size. -/
theorem arc_pos {view : View} {operation : Plan.Operation} {ps : List String} {center : Point2D} {radius a b : ℝ}
    (hdrawing : drawingOf operation = .ok (.arc center radius a b)) (hps : view.parts operation = .ok ps) :
      0 < radius := by
  unfold drawingOf at hdrawing
  unfold View.parts at hps
  cases htype : operation.type
  case createArc =>
    simp only [htype, Fallible.bind_eq_ok, Fallible.pure_eq_ok, Drawing.arc.injEq] at hdrawing
    obtain ⟨raw, hraw, c, hcenter, r, hr, radius', hradius, x, hx, a', ha, y, hy, b', hb, rfl, rfl, rfl, rfl⟩ :=
      hdrawing
    simp only [htype, hraw, hcenter, hr, hradius, hx, ha, hy, hb, Fallible.ok_bind, Fallible.bind_eq_ok] at hps
    obtain ⟨curve, hcurve, -⟩ := hps
    have hf := CurveFields.checked_ok hcurve
    exact curve.radius_pos (congrArg CurveFields.radiusMm hf)
  all_goals simp [htype] at hdrawing

/-- The parts of several operations are the elements of their drawings. -/
theorem parts_flatten {view : View} {operations : List Plan.Operation} {drawings : List Drawing}
    {drawn : List (List String)}
    (hdrawings : operations.mapM drawingOf = .ok drawings) (hdrawn : operations.mapM view.parts = .ok drawn)
    (htext : ∀ operation ∈ operations, ∀ position text, drawingOf operation = .ok (.text position text) → text ≠ "") :
    drawn.flatten.map String.toList = (drawings.flatMap view.elements).map Item.render := by
  induction operations generalizing drawings drawn with
  | nil =>
      obtain rfl := Fallible.pure_eq_ok.mp hdrawings
      obtain rfl := Fallible.pure_eq_ok.mp hdrawn
      rfl
  | cons operation operations ih =>
      rw [List.mapM_cons] at hdrawings hdrawn
      simp only [Fallible.bind_eq_ok, Fallible.pure_eq_ok] at hdrawings hdrawn
      obtain ⟨drawing, hdrawing, rest, hrest, rfl⟩ := hdrawings
      obtain ⟨ps, hps, others, hothers, rfl⟩ := hdrawn
      obtain ⟨ps', hps', hrender⟩ := view.parts_eq hdrawing
        (fun center radius a b heq => arc_pos (heq ▸ hdrawing) hps)
        (fun position text heq => htext operation List.mem_cons_self position text (heq ▸ hdrawing))
      obtain rfl := Except.ok.inj (hps.symm.trans hps')
      rw [List.flatten_cons, List.map_append, hrender, List.flatMap_cons, List.map_append,
        ih hrest hothers fun o ho => htext o (List.mem_cons_of_mem operation ho)]

theorem normalizeEnds_write {separator : LineSeparator} {text : List Char} (h : '\r' ∉ text) :
    normalizeEnds (separator.write text) = text := by
  cases separator with
  | lineFeed => exact normalizeEnds_eq h
  | both => exact normalizeEnds_writeEnds h

theorem length_normalizeEnds_write_le (separator : LineSeparator) (text : List Char) :
    (normalizeEnds (separator.write text)).length ≤ text.length := by
  cases separator with
  | lineFeed => exact length_normalizeEnds_le text
  | both => exact length_normalizeEnds_writeEnds_le text

variable {plan : OperationPlan} {separator : LineSeparator} {timestampMs randomness : Nat}

theorem isPreviewable_of_hidesNothing (hplan : ∀ operation ∈ plan.operations, Renderable operation) {planId : String}
    (h : HidesNothing separator planId plan) : IsPreviewable plan := by
  obtain ⟨points, view, drawings, text, hpoints, hview, hdrawings, hwrite, hdocument, hcurves⟩ := h.shown
  rw [writeSvg] at hwrite
  simp only [hpoints, hview, Fallible.ok_bind, Fallible.bind_eq_ok, Fallible.pure_eq_ok] at hwrite
  obtain ⟨drawn, hdrawn, rfl⟩ := hwrite
  have hparts := parts_flatten hdrawings hdrawn fun operation ho => (hplan operation ho).text
  rw [view.file_toList planId drawings drawn.flatten hparts] at hdocument
  have hplain := hdocument.plain (length_normalizeEnds_write_le separator _)
  constructor
  · intro operation ho hcircle
    obtain ⟨drawing, -, hdrawing⟩ := Fallible.exists_of_mem_mapM hdrawings ho
    unfold drawingOf at hdrawing
    rcases hcircle with htype | htype
    all_goals
      simp only [htype, Fallible.bind_eq_ok] at hdrawing
      exact hdrawing.imp fun radius hradius => hradius.1
  · intro operation ho center radius a b hdrawing
    obtain ⟨ps, -, hps⟩ := Fallible.exists_of_mem_mapM hdrawn ho
    obtain ⟨drawing, hmem, hdrawing'⟩ := Fallible.exists_of_mem_mapM hdrawings ho
    obtain rfl := Except.ok.inj (hdrawing.symm.trans hdrawing')
    have hpos := arc_pos hdrawing hps
    refine ⟨hpos, fun points' view' hpoints' hview' angle _ hangle => ?_⟩
    obtain rfl := Except.ok.inj (hpoints.symm.trans hpoints')
    obtain rfl := Except.ok.inj (hview.symm.trans hview')
    exact hcurves _ hmem _ ⟨_, List.mem_singleton_self _, onCircle_mem_arc hpos hangle⟩
  · intro operation ho position text hdrawing
    obtain ⟨drawing, hmem, hdrawing'⟩ := Fallible.exists_of_mem_mapM hdrawings ho
    obtain rfl := Except.ok.inj (hdrawing.symm.trans hdrawing')
    exact isCharData_of_plain hplain hmem

theorem hidesNothing_of_isPreviewable (hplan : ∀ operation ∈ plan.operations, Renderable operation)
    (h : IsPreviewable plan) : HidesNothing separator (newPlanId timestampMs randomness) plan := by
  have hsize {operation : Plan.Operation} (ho : operation ∈ plan.operations) := h.circles operation ho
  obtain ⟨listed, hlisted⟩ : ∃ listed, plan.operations.mapM operationPoints = .ok listed :=
    Fallible.exists_mapM fun operation ho => (hplan operation ho).points (hsize ho)
  obtain ⟨drawings, hdrawings⟩ : ∃ drawings, plan.operations.mapM drawingOf = .ok drawings :=
    Fallible.exists_mapM fun operation ho => (hplan operation ho).drawing (hsize ho)
  have hpoints : planPoints plan = .ok listed.flatten := by
    rw [planPoints, hlisted]
    rfl
  obtain ⟨view, hview⟩ : ∃ view, viewOf listed.flatten = .ok view := by
    cases listed.flatten with
    | nil => exact ⟨_, rfl⟩
    | cons p ps => exact ⟨_, rfl⟩
  obtain ⟨hscale, hcontains⟩ := viewOf_ok hview
  have harc {operation : Plan.Operation} (ho : operation ∈ plan.operations) {drawing : Drawing}
      (hdrawing : drawingOf operation = .ok drawing) : ∀ center radius a b, drawing = .arc center radius a b →
        0 < radius :=
    fun center radius a b heq => (h.arcs operation ho center radius a b (heq ▸ hdrawing)).1
  obtain ⟨drawn, hdrawn⟩ : ∃ drawn, plan.operations.mapM view.parts = .ok drawn := by
    apply Fallible.exists_mapM
    intro operation ho
    obtain ⟨drawing, -, hdrawing⟩ := Fallible.exists_of_mem_mapM hdrawings ho
    obtain ⟨ps, hps, -⟩ := view.parts_eq hdrawing (harc ho hdrawing)
      fun position text heq => (hplan operation ho).text position text (heq ▸ hdrawing)
    exact ⟨ps, hps⟩
  have hparts := parts_flatten hdrawings hdrawn fun operation ho => (hplan operation ho).text
  refine ⟨?_⟩
  have htexts : ∀ drawing ∈ drawings, ∀ position text, drawing = .text position text →
      text ≠ "" ∧ IsCharData text.toList := by
    rintro drawing hmem position text rfl
    obtain ⟨operation, ho, hdrawing⟩ := Fallible.mem_of_forall₂ (Fallible.mapM_eq_ok.mp hdrawings) hmem
    exact ⟨(hplan operation ho).text position text hdrawing, h.texts operation ho position text hdrawing⟩
  have hreads := view.reads_document timestampMs randomness htexts
  refine ⟨listed.flatten, view, drawings,
    separator.write (view.document (newPlanId timestampMs randomness) drawings).render, hpoints, hview, hdrawings, ?_, ?_, ?_⟩
  · rw [writeSvg]
    simp only [hpoints, hview, hdrawn, Fallible.ok_bind, view.file_toList _ drawings drawn.flatten hparts]
    rfl
  · exact document_render (normalizeEnds_write hreads.return_notMem) hreads
  · intro drawing hmem
    obtain ⟨operation, ho, hdrawing⟩ := Fallible.mem_of_forall₂ (Fallible.mapM_eq_ok.mp hdrawings) hmem
    obtain ⟨points, hp, hops⟩ := Fallible.exists_of_mem_mapM hlisted ho
    refine view.contains_curves hscale (fun p hkey => ?_) fun center radius a b heq => ?_
    · exact hcontains p (List.mem_flatten_of_mem hp (keyPoints_subset hops hdrawing p hkey))
    · obtain ⟨hpos, hturn⟩ := h.arcs operation ho center radius a b (heq ▸ hdrawing)
      exact ⟨hpos, hturn _ view hpoints hview⟩

end

end CadHarness.Preview
