import CadHarness.Comprehension.GridTheorems
import CadHarness.Geometry.Extents
import CadHarness.Geometry.FilletTheorems

/-!
# Rings that come again

A ring is reported with the direction of its first hole and the mean of its radii. Its parameters generate its holes
again when each hole lies close to the place of its rank around the ring.
-/

namespace CadHarness.Comprehension
open CadHarness.Geometry CadHarness.Lib

/-! ## Points at an angle -/

section Angles

variable {r R c δ a : ℝ}

theorem cos_eq_half (δ : ℝ) : Real.cos δ = 1 - 2 * Real.sin (δ / 2) ^ 2 := by
  have h := Real.cos_two_mul' (δ / 2)
  rw [mul_div_cancel₀ δ two_ne_zero] at h
  rw [h, Real.cos_sq']
  ring

/-- Points at two radii that are close lie in nearly the same direction. -/
theorem direction_near (hr : 0 ≤ r) (hR : 0 < R) (hc : 0 ≤ c) (ha : 0 < a) (ha' : a ≤ Real.pi / 2)
    (hclose : (r - R) ^ 2 + 4 * r * R * Real.sin (δ / 2) ^ 2 ≤ c ^ 2) (hfar : c < R * Real.sin a) :
    0 < Real.cos δ ∧ |Real.sin δ| < Real.sin a := by
  have hsin : 0 < Real.sin a := Real.sin_pos_of_pos_of_lt_pi ha (by linarith [Real.pi_pos])
  have hsplit : (r - R) ^ 2 + 4 * r * R * Real.sin (δ / 2) ^ 2 =
      (r - R * Real.cos δ) ^ 2 + (R * Real.sin δ) ^ 2 := by
    have hone := Real.sin_sq_add_cos_sq δ
    have hhalf := cos_eq_half δ
    linear_combination 2 * r * R * hhalf - R ^ 2 * hone
  rw [hsplit] at hclose
  have hsq : c ^ 2 < (R * Real.sin a) ^ 2 := pow_lt_pow_left₀ hfar hc two_ne_zero
  constructor
  · by_contra hcos
    rw [not_lt] at hcos
    -- Behind the center the distance is the radius at least.
    have hbehind : (R * Real.cos δ) ^ 2 ≤ (r - R * Real.cos δ) ^ 2 := by nlinarith [mul_nonneg hr hR.le]
    have hone : (R * Real.cos δ) ^ 2 + (R * Real.sin δ) ^ 2 = R ^ 2 := by
      rw [mul_pow, mul_pow, ← mul_add, Real.cos_sq_add_sin_sq, mul_one]
    have hle : (R * Real.sin a) ^ 2 ≤ R ^ 2 := by
      rw [mul_pow]
      exact mul_le_of_le_one_right (sq_nonneg R) (Real.sin_sq_le_one a)
    linarith
  · rw [← abs_of_pos hsin, ← sq_lt_sq]
    have hlt : (R * Real.sin δ) ^ 2 < (R * Real.sin a) ^ 2 := by linarith [sq_nonneg (r - R * Real.cos δ)]
    rw [mul_pow, mul_pow] at hlt
    exact lt_of_mul_lt_mul_left hlt (sq_nonneg R)

/-- A small sine in front means a small angle, or nearly a full turn. -/
theorem angle_near (ha : 0 < a) (hcos : 0 < Real.cos δ) (hsin : |Real.sin δ| < Real.sin a) :
    |δ| < a ∨ 2 * Real.pi - a < |δ| := by
  have hpi := Real.pi_pos
  have hsmall {x : ℝ} (h1 : x ≤ Real.pi / 2) (h : Real.sin x < Real.sin a) : x < a := by
    by_contra hle
    exact absurd (Real.sin_le_sin_of_le_of_le_pi_div_two (by linarith) h1 (not_lt.mp hle)) (not_le.mpr h)
  have hcos' : 0 < Real.cos |δ| := by rwa [Real.cos_abs]
  have hsin' : |Real.sin (abs δ)| < Real.sin a := by
    rcases abs_choice δ with h | h
    · rwa [h]
    · rwa [h, Real.sin_neg, abs_neg]
  rcases le_or_gt |δ| (Real.pi / 2) with hright | hright
  · exact .inl (hsmall hright ((le_abs_self _).trans_lt hsin'))
  · right
    have hback : Real.pi + Real.pi / 2 < |δ| := by
      by_contra hle
      exact absurd (Real.cos_nonpos_of_pi_div_two_le_of_le hright.le (not_lt.mp hle)) (not_le.mpr hcos')
    have hturn : Real.sin (2 * Real.pi - |δ|) < Real.sin a := by
      rw [Real.sin_two_pi_sub]
      exact (neg_le_abs _).trans_lt hsin'
    linarith [hsmall (by linarith) hturn]

end Angles

/-! ## Rings -/

noncomputable section
open Classical

variable (tolerance : ToleranceProfile) (group : List CircleDatum)

def pitchRadius : ℝ := mean (radii group)

/-- The direction of the first hole. -/
def startDeg : ℝ := (group.head?.map (directionDeg group)).getD 0

/-- The turn from the first hole to a hole. -/
def turnDeg (hole : CircleDatum) : ℝ := modulo (directionDeg group hole - startDeg group) 360

/-- The angle by which a hole is away from its place on even steps. -/
def turnError (hole : CircleDatum) (k : Nat) : ℝ := radians (turnDeg group hole - k * (360 / group.length))

/-- The errors of the radius and of the angle of a hole, taken together, are within the coincidence tolerance. -/
def NearPlace (hole : CircleDatum) (k : Nat) : Prop :=
  ((middle group).distanceTo hole.center - pitchRadius group) ^ 2 +
      4 * (middle group).distanceTo hole.center * pitchRadius group * Real.sin (turnError group hole k / 2) ^ 2 ≤
    tolerance.coincidenceMm ^ 2

/-- Each hole is near the place of its rank around the ring. -/
def OnEvenRing : Prop :=
  0 < pitchRadius group ∧
    List.Forall₂ (NearPlace tolerance group) (sortBy (turnDeg group) group) (List.range group.length)

/-- The place with a number on even steps from the first hole. -/
def ringPoint (k : Nat) : Point2D :=
  let angle := radians (modulo (startDeg group) 360 + 360 / group.length * k)
  ⟨(middle group).x + pitchRadius group * Real.cos angle, (middle group).y + pitchRadius group * Real.sin angle⟩

theorem center_polar (hole : CircleDatum) :
    hole.center.x = (middle group).x + (middle group).distanceTo hole.center * Real.cos (radians (directionDeg group hole)) ∧
    hole.center.y = (middle group).y + (middle group).distanceTo hole.center * Real.sin (radians (directionDeg group hole)) := by
  have hdistance : (middle group).distanceTo hole.center =
      ‖(⟨hole.center.x - (middle group).x, hole.center.y - (middle group).y⟩ : ℂ)‖ := by
    rw [Point2D.distanceTo_comm, Point2D.distanceTo, Complex.norm_def, Complex.normSq_mk]
    congr 1
    ring
  rw [directionDeg, radians_degrees, atan2, hdistance, Complex.norm_mul_cos_arg, Complex.norm_mul_sin_arg]
  constructor <;> ring

theorem sq_distanceTo_ringPoint (hole : CircleDatum) (k : Nat) : hole.center.distanceTo (ringPoint group k) ^ 2 =
    ((middle group).distanceTo hole.center - pitchRadius group) ^ 2 +
      4 * (middle group).distanceTo hole.center * pitchRadius group * Real.sin (turnError group hole k / 2) ^ 2 := by
  obtain ⟨hx, hy⟩ := center_polar group hole
  set r := (middle group).distanceTo hole.center
  set φ := radians (directionDeg group hole) with hφ
  set α := radians (modulo (startDeg group) 360 + 360 / group.length * k) with hα
  have hturns : φ - α = turnError group hole k + ((⌊startDeg group / 360⌋ +
      ⌊(directionDeg group hole - startDeg group) / 360⌋ : ℤ) : ℝ) * (2 * Real.pi) := by
    rw [hφ, hα, turnError, turnDeg, radians_add, radians_sub, radians_modulo, radians_modulo, radians_sub,
      mul_comm (k : ℝ)]
    push_cast
    ring
  have hcos : Real.cos φ * Real.cos α + Real.sin φ * Real.sin α = 1 - 2 * Real.sin (turnError group hole k / 2) ^ 2 := by
    rw [← Real.cos_sub, hturns, Real.cos_add_int_mul_two_pi, ← cos_eq_half]
  rw [Point2D.distanceTo, Real.sq_sqrt (by positivity), hx, hy]
  simp only [ringPoint]
  have hr := Real.sin_sq_add_cos_sq φ
  have hR := Real.sin_sq_add_cos_sq α
  linear_combination r ^ 2 * hr + pitchRadius group ^ 2 * hR - 2 * r * pitchRadius group * hcos

variable {tolerance group}

theorem near_ringPoint_iff (hgap : 0 ≤ tolerance.coincidenceMm) {hole : CircleDatum} {k : Nat} :
    tolerance.IsCoincident (hole.center.distanceTo (ringPoint group k)) ↔ NearPlace tolerance group hole k := by
  rw [NearPlace, ← sq_distanceTo_ringPoint, sq_le_sq₀ (distanceTo_nonneg _ _) hgap]
  exact Iff.rfl

/-- An even ring comes again. -/
theorem OnEvenRing.matches (hgap : 0 ≤ tolerance.coincidenceMm) (h : OnEvenRing tolerance group) :
    Matches tolerance (group.map CircleDatum.center) ((List.range group.length).map (ringPoint group)) := by
  obtain ⟨chosen, hclose, hperm⟩ := List.perm_comp_forall₂ (sortBy_perm (turnDeg group) group).symm h.2
  exact matches_map.mpr ⟨chosen, hperm, hclose.imp fun _ _ hnear => (near_ringPoint_iff hgap).mpr hnear⟩

/-! ## Ranks around a ring -/

theorem turnDeg_mem (hole : CircleDatum) : 0 ≤ turnDeg group hole ∧ turnDeg group hole < 360 := modulo_mem (by norm_num)

/-- The holes lie further apart than the tolerance: half the chord between two places is more. -/
def IsSparse (tolerance : ToleranceProfile) (group : List CircleDatum) : Prop :=
  tolerance.coincidenceMm < pitchRadius group * Real.sin (Real.pi / group.length)

/-- In a sparse ring a hole near a place lies within half a step of it, unless it is the first place. -/
theorem NearPlace.within (hgap : 0 ≤ tolerance.coincidenceMm) (hpos : 0 < pitchRadius group) (hlength : 3 ≤ group.length)
    (hsparse : IsSparse tolerance group) {hole : CircleDatum} {k : Nat} (hk : k < group.length)
    (h : NearPlace tolerance group hole k) :
    |turnDeg group hole - k * (360 / group.length)| < 360 / group.length / 2 ∨ k = 0 := by
  have hpi := Real.pi_pos
  have hcount : (3 : ℝ) ≤ group.length := by exact_mod_cast hlength
  have hcount' : (0 : ℝ) < group.length := by linarith
  have hk' : (k : ℝ) + 1 ≤ group.length := by exact_mod_cast hk
  have hstep : (group.length : ℝ) * (360 / group.length) = 360 := mul_div_cancel₀ _ hcount'.ne'
  have hquarter : Real.pi / group.length ≤ Real.pi / 2 := div_le_div_of_nonneg_left hpi.le two_pos (by linarith)
  obtain ⟨hcos, hsin⟩ := direction_near (distanceTo_nonneg _ _) hpos hgap (div_pos hpi hcount') hquarter h hsparse
  have hradians (x : ℝ) : |radians x| = |x| * (Real.pi / 180) := by
    rw [radians, abs_mul, abs_of_pos (div_pos hpi (by norm_num))]
  have hhalf : Real.pi / group.length = 360 / group.length / 2 * (Real.pi / 180) := by
    field_simp
    norm_num
  obtain ⟨hturn, hturn'⟩ := @turnDeg_mem group hole
  cases angle_near (div_pos hpi hcount') hcos hsin with
  | inl hnear =>
      left
      rw [turnError, hradians, hhalf] at hnear
      exact lt_of_mul_lt_mul_right hnear (by positivity)
  | inr hwrap =>
      right
      have hwrap' : 360 - 360 / group.length / 2 < |turnDeg group hole - k * (360 / group.length)| := by
        have hfull : 2 * Real.pi - Real.pi / group.length = (360 - 360 / group.length / 2) * (Real.pi / 180) := by
          rw [sub_mul, ← hhalf]
          ring
        rw [turnError, hradians, hfull] at hwrap
        exact lt_of_mul_lt_mul_right hwrap (by positivity)
      have hpositive : 0 < 360 / (group.length : ℝ) := by positivity
      have hplaces : ((k : ℝ) + 1) * (360 / group.length) ≤ 360 :=
        (mul_le_mul_of_nonneg_right hk' hpositive.le).trans hstep.le
      rcases lt_abs.mp hwrap' with hover | hunder
      · have hzero : (k : ℝ) * (360 / group.length) < 1 * (360 / group.length) := by linarith
        have := lt_of_mul_lt_mul_right hzero hpositive.le
        exact Nat.lt_one_iff.mp (by exact_mod_cast this)
      · linarith

/-- The first hole is at its own place. -/
theorem turnDeg_first {first : CircleDatum} {rest : List CircleDatum} : turnDeg (first :: rest) first = 0 := by
  simp [turnDeg, startDeg, modulo]

/-- In a sparse ring all holes lie within half a step of the places that they match. -/
theorem within_of_forall₂ (hgap : 0 ≤ tolerance.coincidenceMm) (hpos : 0 < pitchRadius group)
    (hlength : 3 ≤ group.length) (hsparse : IsSparse tolerance group) {chosen : List Nat}
    (hperm : chosen.Perm (List.range group.length)) (h : List.Forall₂ (NearPlace tolerance group) group chosen) :
    List.Forall₂ (fun hole k => NearPlace tolerance group hole k ∧
      |turnDeg group hole - k * (360 / group.length)| < 360 / group.length / 2) group chosen := by
  have hlt : ∀ k ∈ chosen, k < group.length := fun k hk => List.mem_range.mp (hperm.mem_iff.mp hk)
  have hnodup : chosen.Nodup := hperm.nodup_iff.mpr List.nodup_range
  cases group with
  | nil => simp at hlength
  | cons first rest =>
      cases h with
      | @cons _ k₀ _ others hfirst hrest =>
          have hstep : 0 < 360 / ((first :: rest).length : ℝ) := by
            have : 0 < (first :: rest).length := by simp
            positivity
          have hzero : k₀ = 0 := by
            cases hfirst.within hgap hpos hlength hsparse (hlt k₀ List.mem_cons_self) with
            | inr hk => exact hk
            | inl hnear =>
                rw [turnDeg_first, zero_sub, abs_neg, abs_of_nonneg (by positivity)] at hnear
                have : (k₀ : ℝ) < 1 := by
                  refine lt_of_mul_lt_mul_right ?_ hstep.le
                  linarith
                exact Nat.lt_one_iff.mp (by exact_mod_cast this)
          subst hzero
          refine .cons ⟨hfirst, ?_⟩ ?_
          · rw [turnDeg_first, Nat.cast_zero, zero_mul, sub_zero, abs_zero]
            exact half_pos hstep
          · obtain ⟨hlen, hpairs⟩ := List.forall₂_iff_zip.mp hrest
            refine List.forall₂_iff_zip.mpr ⟨hlen, fun {hole k} hmem => ⟨hpairs hmem, ?_⟩⟩
            have hk := (List.of_mem_zip hmem).2
            cases (hpairs hmem).within hgap hpos hlength hsparse (hlt k (List.mem_cons_of_mem _ hk)) with
            | inl hnear => exact hnear
            | inr hzero => exact absurd (hzero ▸ hk) (List.nodup_cons.mp hnodup).1

/-- A sparse ring that comes again is even. -/
theorem onEvenRing_of_matches (hgap : 0 ≤ tolerance.coincidenceMm) (hpos : 0 < pitchRadius group)
    (hlength : 3 ≤ group.length) (hsparse : IsSparse tolerance group)
    (h : Matches tolerance (group.map CircleDatum.center) ((List.range group.length).map (ringPoint group))) :
    OnEvenRing tolerance group := by
  obtain ⟨chosen, hperm, hclose⟩ := matches_map.mp h
  have hnear := within_of_forall₂ hgap hpos hlength hsparse hperm
    (hclose.imp fun _ _ hcoincident => (near_ringPoint_iff hgap).mp hcoincident)
  obtain ⟨ordered, hordered, hranked⟩ := exists_forall₂_sortBy (turnDeg group) hnear.flip
  have hsorted : ordered.Pairwise (· ≤ ·) := by
    rw [List.pairwise_iff_getElem]
    intro i j hi hj hij
    have hlen := hranked.length_eq
    have hturns := List.pairwise_iff_getElem.mp (pairwise_sortBy (turnDeg group) group) i j (hlen ▸ hi) (hlen ▸ hj) hij
    have habove := (abs_lt.mp (hranked.get hi (hlen ▸ hi)).2).1
    have hbelow := (abs_lt.mp (hranked.get hj (hlen ▸ hj)).2).2
    rw [List.get_eq_getElem, List.get_eq_getElem] at habove hbelow
    have hstep : 0 < 360 / (group.length : ℝ) := by
      have : 0 < group.length := by omega
      positivity
    have hlt : (ordered[i] : ℝ) * (360 / group.length) < (ordered[j] + 1) * (360 / group.length) := by
      dsimp only at hturns habove hbelow
      linarith
    have := lt_of_mul_lt_mul_right hlt hstep.le
    exact Nat.lt_succ_iff.mp (by exact_mod_cast this)
  have heq : ordered = List.range group.length :=
    List.Perm.eq_of_pairwise' hsorted (List.pairwise_le_range) (hordered.trans hperm)
  rw [heq] at hranked
  exact ⟨hpos, hranked.flip.imp fun _ _ h => h.1⟩

/-! ## Rings from parameters -/

theorem boltCircle_places (hpos : 0 < pitchRadius group) (hlength : 1 ≤ group.length) :
    boltCircle (middle group) (2 * pitchRadius group) (group.length : ℤ) (modulo (startDeg group) 360) =
      .ok ((List.range group.length).map (ringPoint group)) := by
  rw [boltCircle, if_neg (by linarith), if_neg (by omega)]
  simp [ringPoint, List.map_eq_flatMap, List.flatMap_assoc]

theorem boltCircle_flat (hpos : ¬ 0 < pitchRadius group) {points : List Point2D} :
    boltCircle (middle group) (2 * pitchRadius group) (group.length : ℤ) (modulo (startDeg group) 360) ≠ .ok points := by
  rw [boltCircle, if_pos (by linarith)]
  intro h
  cases h

theorem generatedCenters_ring {refs : List String} {evidence : List (String × ℝ)} {diameter pcd x y start deviation : ℝ}
    {count : Nat} :
    (feature .boltCirclePattern refs [("hole_diameter_mm", diameter, .mm), ("pcd_mm", pcd, .mm),
      ("count", count, .count), ("center_x_mm", x, .mm), ("center_y_mm", y, .mm), ("start_angle_deg", start, .deg),
      ("max_center_deviation_mm", deviation, .mm)] evidence).generatedCenters =
        boltCircle ⟨x, y⟩ pcd (count : ℤ) start := by
  have hround : (feature .boltCirclePattern refs [("hole_diameter_mm", diameter, .mm), ("pcd_mm", pcd, .mm),
      ("count", count, .count), ("center_x_mm", x, .mm), ("center_y_mm", y, .mm), ("start_angle_deg", start, .deg),
      ("max_center_deviation_mm", deviation, .mm)] evidence).generatedCenters =
        boltCircle ⟨x, y⟩ pcd (round (count : ℝ)) start := rfl
  rw [hround, round_natCast]

/-- A ring that is reported has three holes at least, and its parameters are those of its places. -/
theorem boltPattern_some {made : RecognizedFeature} (h : boltPattern tolerance group = some made) :
    3 ≤ group.length ∧ 0 ≤ tolerance.coincidenceMm ∧ made.featureType = .boltCirclePattern ∧
      made.entityRefs = group.map CircleDatum.entityRef ∧ made.generatedCenters =
        boltCircle (middle group) (2 * pitchRadius group) (group.length : ℤ) (modulo (startDeg group) 360) := by
  unfold boltPattern at h
  split at h
  · cases h
  next hole rest =>
  dsimp only at h
  split at h
  · cases h
  next hlength =>
  split at h
  · cases h
  next hdeviation =>
  split at h
  · cases h
  obtain ⟨rfl⟩ := h
  refine ⟨not_lt.mp hlength, ?_, rfl, rfl, ?_⟩
  · have hmem := (maximumOf_mem (l := (radii (hole :: rest)).map fun radius => |radius - mean (radii (hole :: rest))|)
      (by simp [radii])).1
    obtain ⟨radius, -, hradius⟩ := List.mem_map.mp hmem
    rw [← hradius] at hdeviation
    exact (abs_nonneg _).trans (not_lt.mp hdeviation)
  · rw [generatedCenters_ring]
    rfl

end

end CadHarness.Comprehension
