import CadHarness.Geometry.Compile
import CadHarness.Lib.CircleArc
import Mathlib.Analysis.Convex.Segment

/-!
# Orientation of compiled arcs

An operation carries the two angles of an arc and no direction. It draws its curve exactly when the curve
runs counter-clockwise; of a curve that runs clockwise it draws the rest of the circle.
-/

namespace CadHarness.Geometry
open CadHarness.Lib Set

/-! ## Angles -/

theorem radians_add (a b : ℝ) : radians (a + b) = radians a + radians b := by unfold radians; ring

theorem radians_sub (a b : ℝ) : radians (a - b) = radians a - radians b := by unfold radians; ring

theorem radians_mul (a b : ℝ) : radians (a * b) = radians a * b := by unfold radians; ring

@[simp] theorem radians_full : radians 360 = 2 * Real.pi := by unfold radians; ring

theorem radians_pos {a : ℝ} (h : 0 < a) : 0 < radians a := by
  unfold radians
  positivity

theorem radians_lt {a b : ℝ} (h : a < b) : radians a < radians b := by
  have := radians_pos (sub_pos.mpr h)
  rw [radians_sub] at this
  linarith

theorem modulo_mem {a b : ℝ} (hb : 0 < b) : 0 ≤ modulo a b ∧ modulo a b < b := by
  have hfloor := Int.floor_le (a / b)
  have hlt := Int.lt_floor_add_one (a / b)
  rw [le_div_iff₀ hb] at hfloor
  rw [div_lt_iff₀ hb] at hlt
  rw [modulo]
  constructor <;> linarith

theorem modulo_of_mem {a b : ℝ} (h : 0 ≤ a) (h' : a < b) : modulo a b = a := by
  have hb : 0 < b := lt_of_le_of_lt h h'
  have hfloor : ⌊a / b⌋ = 0 := by
    rw [Int.floor_eq_zero_iff]
    exact ⟨div_nonneg h hb.le, (div_lt_one hb).mpr h'⟩
  rw [modulo, hfloor]
  simp

theorem modulo_add_self {a b : ℝ} (hb : b ≠ 0) : modulo (a + b) b = modulo a b := by
  rw [modulo, modulo, add_div, div_self hb, Int.floor_add_one]
  push_cast
  ring

theorem modulo_add_turns {a b : ℝ} (hb : b ≠ 0) (k : ℤ) : modulo (a + k * b) b = modulo a b := by
  rw [modulo, modulo, add_div, mul_div_cancel_right₀ _ hb, Int.floor_add_intCast]
  push_cast
  ring

theorem radians_modulo (a : ℝ) : radians (modulo a 360) = radians a - ⌊a / 360⌋ * (2 * Real.pi) := by
  rw [modulo, radians, radians]
  ring

/-- The sweep that `normalize_arc` takes for the way from one angle to another. -/
noncomputable def ccwSweep (difference : ℝ) : ℝ :=
  open Classical in
  if IsClose (modulo difference 360) 0 1e-12 then 360 else modulo difference 360

theorem ccwSweep_pos {w : ℝ} (h : 1e-12 < w) (h' : w ≤ 360) : ccwSweep w = w := by
  unfold ccwSweep IsClose
  rcases h'.lt_or_eq with hlt | rfl
  · rw [modulo_of_mem (by linarith) hlt, if_neg]
    rw [sub_zero, abs_of_pos (by linarith)]
    linarith
  · have h0 : modulo 360 360 = 0 := by norm_num [modulo]
    rw [h0, if_pos (by norm_num)]

theorem ccwSweep_small {w : ℝ} (h : 0 < w) (h' : w ≤ 1e-12) : ccwSweep w = 360 := by
  unfold ccwSweep IsClose
  rw [modulo_of_mem h.le (by linarith), if_pos]
  rwa [sub_zero, abs_of_pos h]

/-- A clockwise sweep becomes the rest of the circle, or the full circle when the rest is too short. -/
theorem ccwSweep_neg {w : ℝ} (h : -360 < w) (h' : w < 0) : ccwSweep w = 360 ∨ ccwSweep w = 360 + w := by
  have hmod : modulo w 360 = 360 + w := by
    rw [← modulo_add_self (by norm_num), modulo_of_mem (by linarith) (by linarith), add_comm]
  unfold ccwSweep
  rw [hmod]
  split
  · exact .inl rfl
  · exact .inr rfl

theorem ccwSweep_full : ccwSweep (-360) = 360 := by
  have h0 : modulo (-360) 360 = 0 := by norm_num [modulo]
  unfold ccwSweep IsClose
  rw [h0, if_pos (by norm_num)]

/-! ## Points of a curve -/

theorem Point2D.toComplex_injective : Function.Injective Point2D.toComplex := by
  intro p q h
  have := Complex.ext_iff.mp h
  exact Point2D.ext this.1 this.2

theorem CurveParams.toComplex_pointAt {c : CurveParams} {radius : ℝ} (hr : c.radiusMm = some radius) (t : ℝ) :
    (c.pointAt t).toComplex
      = circleMap c.center.toComplex radius (radians (c.startAngleDeg + c.sweepDeg * t)) := by
  apply Complex.ext <;>
    simp [pointAt, hr, Point2D.toComplex, circleMap, Complex.exp_ofReal_mul_I_re, Complex.exp_ofReal_mul_I_im]

theorem CurveParams.mem_points {c : CurveParams} {p : Point2D} :
    p ∈ c.points ↔ ∃ t ∈ Icc (0 : ℝ) 1, c.pointAt t = p := by
  simp only [points, pointAtFraction, mem_ofPred_eq, mem_Icc]
  apply exists_congr
  intro t
  split <;> simp [*]

/-- The points of a circular curve are an arc of its circle. -/
theorem CurveParams.image_points {c : CurveParams} {radius : ℝ} (hr : c.radiusMm = some radius) :
    Point2D.toComplex '' c.points
      = circleArc c.center.toComplex radius (radians c.startAngleDeg)
          (radians c.startAngleDeg + radians c.sweepDeg) := by
  rw [circleArc, ← segment_eq_uIcc, segment_eq_image']
  ext z
  simp only [mem_image, mem_points, add_sub_cancel_left, smul_eq_mul]
  constructor
  · rintro ⟨_, ⟨t, ht, rfl⟩, rfl⟩
    refine ⟨_, ⟨t, ht, rfl⟩, ?_⟩
    rw [toComplex_pointAt hr, radians_add, radians_mul, mul_comm t]
  · rintro ⟨_, ⟨t, ht, rfl⟩, rfl⟩
    refine ⟨_, ⟨t, ht, rfl⟩, ?_⟩
    rw [toComplex_pointAt hr, radians_add, radians_mul, mul_comm t]

/-! ## Checked curves -/

theorem CurveFields.checked_ok {f : CurveFields} {c : CurveParams} (h : f.checked = .ok c) :
    c.toCurveFields = f := by
  unfold checked at h
  split at h
  · split at h <;> (try split at h) <;> cases h <;> rfl
  · cases h

theorem CurveFields.checked_arc (center : Point2D) (a : ℝ) {radius w : ℝ} (hr : 0 < radius) (hw : w ≠ 0)
    (hle : |w| ≤ 360) :
    ∃ c : CurveParams, CurveFields.checked
        { kind := .arc, center, startAngleDeg := a, sweepDeg := w, radiusMm := some radius } = .ok c ∧
      c.toCurveFields = { kind := .arc, center, startAngleDeg := a, sweepDeg := w, radiusMm := some radius } := by
  unfold checked
  rw [dif_pos ⟨abs_pos.mpr hw, hle⟩]
  simp only [hr, dite_true]
  exact ⟨_, rfl, rfl⟩

theorem CurveParams.radius_pos {c : CurveParams} {radius : ℝ} (hr : c.radiusMm = some radius) : 0 < radius := by
  cases c.shape with
  | circular r h hpos _ _ =>
      rw [hr] at h
      rwa [Option.some.inj h]
  | elliptic _ _ _ _ _ _ h =>
      rw [hr] at h
      cases h

/-- A curve given by its sweep keeps it. -/
theorem normalizeArc_sweep {center : Point2D} {radius a w : ℝ} {c : CurveParams}
    (h : normalizeArc center radius a none (some w) = .ok c) :
    c.center = center ∧ c.radiusMm = some radius ∧ c.startAngleDeg = a ∧ c.sweepDeg = w := by
  have hf := CurveFields.checked_ok h
  exact ⟨congrArg CurveFields.center hf, congrArg CurveFields.radiusMm hf,
    congrArg CurveFields.startAngleDeg hf, congrArg CurveFields.sweepDeg hf⟩

theorem ccwSweep_mem (w : ℝ) : 1e-12 < ccwSweep w ∧ ccwSweep w ≤ 360 := by
  obtain ⟨hnonneg, hlt⟩ := modulo_mem (a := w) (b := 360) (by norm_num)
  unfold ccwSweep IsClose
  split
  · norm_num
  · rename_i h
    rw [sub_zero, abs_of_nonneg hnonneg] at h
    exact ⟨not_le.mp h, hlt.le⟩

/-- An arc given by its two angles, as a drawing holds it, runs counter-clockwise. -/
theorem normalizeArc_angles {center : Point2D} {radius a b : ℝ} {c : CurveParams}
    (h : normalizeArc center radius a (some b) none = .ok c) : 1e-12 < c.sweepDeg := by
  have hf := congrArg CurveFields.sweepDeg (CurveFields.checked_ok h)
  rw [hf]
  exact (ccwSweep_mem (b - a)).1

/-- The points of an arc operation: counter-clockwise from the one angle to the other. -/
theorem image_points_arc {center : Point2D} {radius a b : ℝ} (hr : 0 < radius) :
    Point2D.toComplex '' (OperationGeometry.arc center radius a b).points
      = circleArc center.toComplex radius (radians a) (radians a + radians (ccwSweep (b - a))) := by
  obtain ⟨hgt, hle⟩ := ccwSweep_mem (b - a)
  have hpos : 0 < ccwSweep (b - a) := by linarith
  obtain ⟨c, hc, hf⟩ := CurveFields.checked_arc center a hr hpos.ne' (by rwa [abs_of_pos hpos])
  have hnorm : normalizeArc center radius a (some b) none = .ok c := hc
  have hpoints : (OperationGeometry.arc center radius a b).points = c.points := by
    ext p
    simp [OperationGeometry.points, hnorm]
  have hradius : c.radiusMm = some radius := by rw [hf]
  rw [hpoints, c.image_points hradius, hf]

/-! ## An operation against its curve -/

section
variable {z : ℂ} {radius a w : ℝ}

/-- The arc that an operation draws for a sweep is the swept one or, from a short or a clockwise sweep, another. -/
theorem circleArc_ccwSweep_eq_iff (hr : 0 < radius) (hne : w ≠ 0) (hge : -360 ≤ w) (hle : w ≤ 360) :
    circleArc z radius (radians a) (radians a + radians (ccwSweep w))
        = circleArc z radius (radians a) (radians a + radians w)
      ↔ 1e-12 < w ∨ w = -360 := by
  rcases hge.eq_or_lt with rfl | hgt
  · -- a full turn clockwise reaches the whole circle too
    have hback : radians (-360) = -(2 * Real.pi) := by
      rw [← radians_full]
      unfold radians
      ring
    rw [ccwSweep_full, radians_full, circleArc_eq_range le_rfl, circleArc_comm, hback,
      circleArc_eq_range (by linarith)]
    simp
  rcases hne.lt_or_gt with hneg | hpos
  · have hW : radians w < 0 := by
      have := radians_lt hneg
      simpa [radians] using this
    have hW' : -(2 * Real.pi) < radians w := by
      have := radians_lt hgt
      rw [← radians_full]
      unfold radians at *
      linarith
    have hfalse : ¬ (1e-12 < w ∨ w = -360) := by
      rintro (h | h) <;> linarith
    refine iff_of_false (fun heq => ?_) hfalse
    rcases ccwSweep_neg hgt hneg with hfull | hrest
    · rw [hfull, radians_full, circleArc_eq_range le_rfl, circleArc_comm] at heq
      exact circleArc_ne_range hr.ne' (by linarith) (by linarith) heq.symm
    · have hmid := circleMap_mid_notMem_rest (c := z) (a := radians a) hr.ne' (neg_pos.mpr hW)
        (by linarith)
      rw [hrest, radians_add, radians_full] at heq
      apply hmid
      rw [sub_neg_eq_add, heq]
      apply circleMap_mem_circleArc
      rw [uIcc_of_ge (by linarith)]
      constructor <;> linarith
  · rcases le_or_gt w 1e-12 with hsmall | hlarge
    · have hfalse : ¬ (1e-12 < w ∨ w = -360) := by
        rintro (h | h) <;> linarith
      refine iff_of_false (fun heq => ?_) hfalse
      have hW := radians_pos hpos
      have hW' : radians w < 2 * Real.pi := by
        rw [← radians_full]
        exact radians_lt (by linarith)
      rw [ccwSweep_small hpos hsmall, radians_full, circleArc_eq_range le_rfl] at heq
      exact circleArc_ne_range hr.ne' (by linarith) (by linarith) heq.symm
    · rw [ccwSweep_pos hlarge hle]
      exact iff_of_true rfl (.inl hlarge)

end

theorem points_arc_eq_iff {c : CurveParams} {radius : ℝ} (hr : c.radiusMm = some radius) :
    (OperationGeometry.arc c.center radius c.startAngleDeg c.endAngleDeg).points = c.points
      ↔ 1e-12 < c.sweepDeg ∨ c.sweepDeg = -360 := by
  have hpos := c.radius_pos hr
  obtain ⟨hge, hle⟩ := abs_le.mp c.sweep_le
  rw [← Point2D.toComplex_injective.image_injective.eq_iff, image_points_arc hpos, c.image_points hr,
    CurveParams.endAngleDeg, add_sub_cancel_left]
  exact circleArc_ccwSweep_eq_iff hpos (abs_pos.mp c.sweep_ne) hge hle

/-! ## The compilers -/

theorem arcGeometry_ok {c : CurveParams} {g : OperationGeometry} (h : arcGeometry c = .ok g) :
    g.points = c.points ↔ 1e-12 < c.sweepDeg ∨ c.sweepDeg = -360 := by
  unfold arcGeometry at h
  split at h
  · cases h
  · rename_i radius hr
    cases h
    exact points_arc_eq_iff hr

theorem bind_ok {α β : Type} {x : Except KernelError α} {f : α → Except KernelError β} {b : β}
    (h : x >>= f = .ok b) : ∃ a, x = .ok a ∧ f a = .ok b := by
  cases x with
  | error e => cases h
  | ok a => exact ⟨a, rfl, h⟩

/-- Both end arcs of a slot run clockwise by half a turn. -/
theorem slotEndArcs_ok {outline : SlotOutline} {width : ℝ} {right left : CurveParams}
    (h : slotEndArcs outline width = .ok (right, left)) :
    right.sweepDeg = -180 ∧ left.sweepDeg = -180 := by
  unfold slotEndArcs at h
  split at h
  · cases h
  obtain ⟨r, hr, h⟩ := bind_ok h
  obtain ⟨l, hl, h⟩ := bind_ok h
  cases h
  exact ⟨(normalizeArc_sweep hr).2.2.2, (normalizeArc_sweep hl).2.2.2⟩

theorem slotEndArc_isOk (first second : Point2D) {radius : ℝ} (hpos : 0 < radius) :
    ∃ c, slotEndArc first second radius = .ok c ∧ c.radiusMm = some radius := by
  obtain ⟨c, hc, hf⟩ := CurveFields.checked_arc _ _ hpos (by norm_num : (-180 : ℝ) ≠ 0) (by norm_num)
  exact ⟨c, hc, by rw [hf]⟩

theorem slotEndArcs_isOk (outline : SlotOutline) {width : ℝ} (hpos : 0 < width) :
    ∃ right left, slotEndArcs outline width = .ok (right, left) ∧ right.radiusMm = some (width / 2) ∧
      left.radiusMm = some (width / 2) := by
  obtain ⟨right, hright, hr⟩ := slotEndArc_isOk outline.topRight outline.bottomRight (half_pos hpos)
  obtain ⟨left, hleft, hl⟩ := slotEndArc_isOk outline.bottomLeft outline.topLeft (half_pos hpos)
  refine ⟨right, left, ?_, hr, hl⟩
  rw [slotEndArcs, if_neg (not_le.mpr hpos), hright, hleft]
  rfl

theorem slotOutline_isOk (center : Point2D) (angle : ℝ) {length width : ℝ} (hpos : 0 < width) (hlt : width < length) :
    ∃ outline, slotOutline center length width angle = .ok outline := by
  rw [slotOutline, if_neg (not_le.mpr hpos), if_neg (not_le.mpr hlt)]
  exact ⟨_, rfl⟩

/-- A slot that is longer than it is wide compiles. -/
theorem compileSlot_isOk {featureId layer : String} {length width : ℝ} {center : Point2D} {angle : Option ℝ}
    {context : CompileContext} (hpos : 0 < width) (hlt : width < length)
    (hlayer : context.layerFor "outline" = .ok layer) :
    ∃ feature, compileSlot featureId ⟨some length, some width, some center, angle⟩ context = .ok feature := by
  obtain ⟨outline, houtline⟩ := slotOutline_isOk center (angle.getD 0) hpos hlt
  obtain ⟨right, left, harcs, hr, hl⟩ := slotEndArcs_isOk outline hpos
  have hright : arcGeometry right = .ok (.arc right.center (width / 2) right.startAngleDeg right.endAngleDeg) := by
    rw [arcGeometry, hr]
  have hleft : arcGeometry left = .ok (.arc left.center (width / 2) left.startAngleDeg left.endAngleDeg) := by
    rw [arcGeometry, hl]
  simp only [compileSlot, Option.some_or, houtline, hlayer, hright, hleft, harcs, bind, Except.bind]
  exact ⟨_, rfl⟩

/-- What a compiled slot consists of. -/
theorem compileSlot_ok {featureId : String} {parameters : SlotParameters} {context : CompileContext}
    {feature : CompiledFeature} (h : compileSlot featureId parameters context = .ok feature) :
    ∃ length width center outline right left layer rightGeometry leftGeometry,
      parameters.lengthMm = some length ∧ parameters.widthMm = some width ∧
      slotOutline center length width (parameters.angleDeg.getD 0) = .ok outline ∧
      slotEndArcs outline width = .ok (right, left) ∧
      arcGeometry right = .ok rightGeometry ∧ arcGeometry left = .ok leftGeometry ∧
      feature.operations = slotOperations featureId layer width outline rightGeometry leftGeometry := by
  unfold compileSlot at h
  split at h
  · rename_i length width center hlength hwidth _
    obtain ⟨outline, houtline, h⟩ := bind_ok h
    obtain ⟨⟨right, left⟩, harcs, h⟩ := bind_ok h
    obtain ⟨layer, _, h⟩ := bind_ok h
    obtain ⟨rightGeometry, hright, h⟩ := bind_ok h
    obtain ⟨leftGeometry, hleft, h⟩ := bind_ok h
    cases h
    exact ⟨length, width, center, outline, right, left, layer, rightGeometry, leftGeometry, hlength, hwidth,
      houtline, harcs, hright, hleft, rfl⟩
  · cases h

/-- The sweep of a fillet is neither empty nor half a turn. -/
theorem interiorAngle_ok {first second : Vector2D} {angle : ℝ} (h : interiorAngle first second = .ok angle) :
    1e-12 < 180 - degrees angle ∧ 180 - degrees angle < 180 := by
  unfold interiorAngle at h
  dsimp only at h
  split at h
  · cases h
  rename_i hwide
  obtain ⟨hpos, hlt⟩ := not_or.mp hwide
  cases h
  generalize Real.arccos _ = angle at *
  have hratio : 1 ≤ 180 / Real.pi := by
    rw [le_div_iff₀ Real.pi_pos]
    linarith [Real.pi_le_four]
  have hmul : 1e-12 * 1 < (Real.pi - angle) * (180 / Real.pi) :=
    mul_lt_mul (not_le.mp hlt) hratio one_pos (by linarith)
  have hfull : Real.pi * (180 / Real.pi) = 180 := mul_div_cancel₀ _ Real.pi_ne_zero
  unfold degrees
  constructor
  · linarith [sub_mul Real.pi angle (180 / Real.pi)]
  · have : 0 < angle * (180 / Real.pi) := mul_pos (by linarith) (by linarith)
    linarith

theorem mapM_ok {α β : Type} {f : α → Except KernelError β} {xs : List α} {ys : List β}
    (h : xs.mapM f = .ok ys) {i : Nat} {x : α} {y : β} (hx : xs[i]? = some x) (hy : ys[i]? = some y) :
    f x = .ok y := by
  induction xs generalizing ys i with
  | nil => cases hx
  | cons a as ih =>
      rw [List.mapM_cons] at h
      obtain ⟨b, hb, h⟩ := bind_ok h
      obtain ⟨bs, hbs, h⟩ := bind_ok h
      cases h
      cases i with
      | zero =>
          cases hx
          cases hy
          exact hb
      | succ i => exact ih hbs hx hy

/-- Each operation of a recompiled outline is that of its edge. -/
theorem compileOutline_ok {featureId : String} {edges : List EdgeRecord} {context : CompileContext}
    {feature : CompiledFeature} (h : compileOutline featureId edges context = .ok feature) {index : Nat}
    {record : EdgeRecord} {op : Operation} (hrecord : edges[index]? = some record)
    (hop : feature.operations[index]? = some op) :
    ∃ layer, edgeOperation featureId index record layer = .ok op := by
  obtain ⟨operations, hmap, h⟩ := bind_ok h
  cases h
  have hindexed : edges.zipIdx[index]? = some (record, index) := by simp [hrecord]
  obtain ⟨layer, _, hedge⟩ := bind_ok (mapM_ok hmap hindexed hop)
  exact ⟨layer, hedge⟩

/-- A fillet turns with its corner. -/
theorem filletVertex_ok {previous vertex following : Point2D} {radius : ℝ} {tolerance : ToleranceProfile}
    {rebuilt : FilletResult} (h : filletVertex previous vertex following radius tolerance = .ok rebuilt) :
    (0 < turn previous vertex following → 1e-12 < rebuilt.arc.sweepDeg) ∧
      (turn previous vertex following ≤ 0 → rebuilt.arc.sweepDeg < 0 ∧ -180 < rebuilt.arc.sweepDeg) := by
  unfold filletVertex at h
  split at h
  · cases h
  obtain ⟨first, _, h⟩ := bind_ok h
  obtain ⟨second, _, h⟩ := bind_ok h
  obtain ⟨angle, hangle, h⟩ := bind_ok h
  obtain ⟨_, _, h⟩ := bind_ok h
  obtain ⟨bisector, _, h⟩ := bind_ok h
  obtain ⟨arc, harc, h⟩ := bind_ok h
  obtain ⟨tangent, _, h⟩ := bind_ok h
  have hsweep := (normalizeArc_sweep harc).2.2.2
  have harc' : rebuilt.arc = arc := by
    split at h
    · cases h
      rfl
    · cases h
  obtain ⟨hlong, hshort⟩ := interiorAngle_ok hangle
  rw [harc', hsweep]
  constructor
  · intro hturn
    rwa [if_pos hturn]
  · intro hturn
    rw [if_neg (not_lt.mpr hturn)]
    constructor <;> linarith

/-! ## Main results -/

/-- Every compiler hands an arc's two angles on without its direction. A contour edge is drawn as it is exactly
when it runs counter-clockwise, the replacement of a fillet when its corner turns left, an end of a slot never. -/
theorem compiled_arc_draws_curve_iff (featureId : String) :
    (∀ edges context feature, compileOutline featureId edges context = .ok feature →
      ∀ (index : Nat) record op c, edges[index]? = some record → record.edge = .curve c →
        feature.operations[index]? = some op → op.type = .createArc →
        (op.geometry.points = c.points ↔ 1e-12 < c.sweepDeg)) ∧
    (∀ previous vertex following radius tolerance rebuilt layer op,
      filletVertex previous vertex following radius tolerance = .ok rebuilt →
      replacementArc featureId layer radius rebuilt = .ok op →
      (op.geometry.points = rebuilt.arc.points ↔ 0 < turn previous vertex following)) ∧
    ∀ parameters context feature, compileSlot featureId parameters context = .ok feature →
      ∃ length width center outline right left topFlank rightArc bottomFlank leftArc,
        parameters.lengthMm = some length ∧ parameters.widthMm = some width ∧
        slotOutline center length width (parameters.angleDeg.getD 0) = .ok outline ∧
        slotEndArcs outline width = .ok (right, left) ∧
        feature.operations = [topFlank, rightArc, bottomFlank, leftArc] ∧
        rightArc.type = .createArc ∧ leftArc.type = .createArc ∧
        rightArc.geometry.points ≠ right.points ∧ leftArc.geometry.points ≠ left.points := by
  refine ⟨?edge, ?fillet, ?slot⟩
  case edge =>
    intro edges context feature hok index record op c hrecord hedge hop htype
    obtain ⟨layer, hop⟩ := compileOutline_ok hok hrecord hop
    unfold edgeOperation at hop
    rw [hedge] at hop
    dsimp only at hop
    split at hop
    · cases hop
    rename_i radius hr
    split at hop
    · cases hop
      cases htype
    · rename_i hfull
      cases hop
      rw [points_arc_eq_iff hr]
      apply or_iff_left
      intro hturn
      apply hfull
      rw [CurveParams.IsFull, IsClose, hturn]
      norm_num
  case fillet =>
    intro previous vertex following radius tolerance rebuilt layer op hrebuilt hop
    obtain ⟨g, hg, hop⟩ := bind_ok hop
    cases hop
    obtain ⟨hleft, hright⟩ := filletVertex_ok hrebuilt
    rw [arcGeometry_ok hg]
    rcases lt_or_ge 0 (turn previous vertex following) with hturn | hturn
    · exact iff_of_true (.inl (hleft hturn)) hturn
    · obtain ⟨hneg, hlarge⟩ := hright hturn
      refine iff_of_false ?_ (not_lt.mpr hturn)
      rintro (h | h) <;> linarith
  case slot =>
    intro parameters context feature hok
    obtain ⟨length, width, center, outline, right, left, layer, rightGeometry, leftGeometry, hlength, hwidth,
      houtline, harcs, hright, hleft, hops⟩ := compileSlot_ok hok
    obtain ⟨hr, hl⟩ := slotEndArcs_ok harcs
    refine ⟨length, width, center, outline, right, left, _, _, _, _, hlength, hwidth, houtline, harcs, hops,
      rfl, rfl, ?_, ?_⟩
    · change rightGeometry.points ≠ _
      rw [Ne, arcGeometry_ok hright, hr]
      norm_num
    · change leftGeometry.points ≠ _
      rw [Ne, arcGeometry_ok hleft, hl]
      norm_num

/-- A slot of 40 by 10 mm at the origin. -/
theorem compiled_arc_draws_curve_iff_slot :
    ∃ feature, compileSlot "slot" ⟨some 40, some 10, some ⟨0, 0⟩, none⟩ ⟨fun _ => .ok "OUTLINE", none⟩
        = .ok feature ∧
      ∃ topFlank rightArc bottomFlank leftArc right left outline,
        slotEndArcs outline 10 = .ok (right, left) ∧
        feature.operations = [topFlank, rightArc, bottomFlank, leftArc] ∧
        rightArc.geometry.points ≠ right.points ∧ leftArc.geometry.points ≠ left.points := by
  have hok : ∃ feature, compileSlot "slot" ⟨some 40, some 10, some ⟨0, 0⟩, none⟩ ⟨fun _ => .ok "OUTLINE", none⟩
      = .ok feature := compileSlot_isOk (by norm_num) (by norm_num) rfl
  obtain ⟨feature, hok⟩ := hok
  obtain ⟨length, width, center, outline, right, left, topFlank, rightArc, bottomFlank, leftArc, _, hwidth, _,
    harcs, hops, _, _, hright, hleft⟩ := (compiled_arc_draws_curve_iff _).2.2 _ _ _ hok
  cases hwidth
  exact ⟨feature, hok, topFlank, rightArc, bottomFlank, leftArc, right, left, outline, harcs, hops, hright, hleft⟩

/-- What a chain takes for an end is an edge of the drawing, as it is or reversed. -/
theorem findMatch_mem {coincidenceMm : ℝ} {endpoint : Point2D} {unused : List EdgeRecord} {index : Nat}
    {record : EdgeRecord} (h : findMatch coincidenceMm endpoint unused = some (index, record)) :
    ∃ candidate ∈ unused, record = candidate ∨ record = candidate.reverse := by
  induction unused generalizing index with
  | nil => cases h
  | cons candidate rest ih =>
      unfold findMatch at h
      split at h
      · cases h
        exact ⟨_, List.mem_cons_self, .inl rfl⟩
      split at h
      · cases h
        exact ⟨_, List.mem_cons_self, .inr rfl⟩
      obtain ⟨⟨i, r⟩, hrest, heq⟩ := Option.map_eq_some_iff.mp h
      cases heq
      obtain ⟨candidate, hmem, hor⟩ := ih hrest
      exact ⟨candidate, List.mem_cons_of_mem _ hmem, hor⟩

/-- An arc of a drawing is redrawn as it is exactly when its contour takes it in its own direction. -/
theorem arc_entity_redrawn {center : Point2D} {radius a b : ℝ} {c : CurveParams} {g g' : OperationGeometry}
    (h : normalizeArc center radius a (some b) none = .ok c) (hpart : ¬ c.IsFull) (hg : arcGeometry c = .ok g)
    (hg' : arcGeometry (reverseCurve c) = .ok g') :
    g.points = c.points ∧ g'.points ≠ (reverseCurve c).points := by
  have hpos := normalizeArc_angles h
  refine ⟨(arcGeometry_ok hg).mpr (.inl hpos), fun heq => ?_⟩
  have hsweep : (reverseCurve c).sweepDeg = -c.sweepDeg := rfl
  rcases (arcGeometry_ok hg').mp heq with hback | hback <;> rw [hsweep] at hback
  · linarith
  · apply hpart
    rw [CurveParams.IsFull, IsClose, neg_inj.mp hback]
    norm_num

/-- A quarter circle whose contour takes it backwards: the operation draws the other three quarters. -/
theorem reversed_arc_draws_rest :
    ∃ c op, normalizeArc ⟨0, 0⟩ 10 0 none (some 90) = .ok c ∧
      edgeOperation "outline" 0 (EdgeRecord.reverse ⟨.curve c, "A1"⟩) "OUTLINE" = .ok op ∧
      op.type = .createArc ∧ op.geometry.points ≠ (reverseCurve c).points := by
  obtain ⟨c, hc, hf⟩ := CurveFields.checked_arc ⟨0, 0⟩ 0 (by norm_num : (0 : ℝ) < 10)
    (by norm_num : (90 : ℝ) ≠ 0) (by norm_num)
  have hradius : (reverseCurve c).radiusMm = some 10 := by
    change c.radiusMm = _
    rw [hf]
  have hsweep : (reverseCurve c).sweepDeg = -90 := by
    change -c.sweepDeg = _
    rw [hf]
  have hfull : ¬ (reverseCurve c).IsFull := by
    rw [CurveParams.IsFull, IsClose, hsweep]
    norm_num
  have hop : ∃ op, edgeOperation "outline" 0 (EdgeRecord.reverse ⟨.curve c, "A1"⟩) "OUTLINE" = .ok op ∧
      op.type = .createArc ∧ op.geometry = .arc (reverseCurve c).center 10 (reverseCurve c).startAngleDeg
        (reverseCurve c).endAngleDeg := by
    simp only [EdgeRecord.reverse, edgeOperation, hradius, if_neg hfull]
    exact ⟨_, rfl, rfl, rfl⟩
  obtain ⟨op, hop, htype, hgeometry⟩ := hop
  refine ⟨c, op, hc, hop, htype, ?_⟩
  rw [hgeometry, Ne, points_arc_eq_iff hradius, hsweep]
  norm_num

end CadHarness.Geometry
