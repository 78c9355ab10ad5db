import CadHarness.Geometry.Predicates
import Mathlib.Data.Set.Basic
import Mathlib.Tactic.FieldSimp
import Mathlib.Tactic.LinearCombination

/-!
# Crossings and simple polygons

The test for self-intersection asks for a crossing of two edges that are neither neighbours nor parallel. A polygon that
it passes is simple, but for edges that lie on one another.
-/

namespace CadHarness.Geometry

/-! ## Segments -/

/-- The points of an edge. -/
def edgePoints (edge : Point2D × Point2D) : Set Point2D :=
  {p | ∃ t, 0 ≤ t ∧ t ≤ 1 ∧
    p = ⟨edge.1.x + (edge.2.x - edge.1.x) * t, edge.1.y + (edge.2.y - edge.1.y) * t⟩}

noncomputable def direction (edge : Point2D × Point2D) : Vector2D := edge.1.vectorTo edge.2

/-- Two edges are parallel for the kernel. -/
def Parallel (a b : Point2D × Point2D) : Prop := |(direction a).cross (direction b)| < 1e-12

/-- The second edge runs back over the first. -/
def FoldsBack (a b : Point2D × Point2D) : Prop :=
  (direction a).cross (direction b) = 0 ∧ (direction a).dot (direction b) < 0

variable {a b : Point2D × Point2D}

theorem mem_edgePoints {p : Point2D} : p ∈ edgePoints a ↔ ∃ t, 0 ≤ t ∧ t ≤ 1 ∧
    p.x = a.1.x + (direction a).dx * t ∧ p.y = a.1.y + (direction a).dy * t := by
  simp only [edgePoints, Set.mem_ofPred_eq, Point2D.ext_iff]
  rfl

/-- The parameters of the common point of two lines that are not parallel, by Cramer's rule. -/
theorem common_point_iff {t u : ℝ} (h : (direction a).cross (direction b) ≠ 0) :
    (a.1.x + (direction a).dx * t = b.1.x + (direction b).dx * u ∧
        a.1.y + (direction a).dy * t = b.1.y + (direction b).dy * u) ↔
      t = (a.1.vectorTo b.1).cross (direction b) / (direction a).cross (direction b) ∧
        u = (a.1.vectorTo b.1).cross (direction a) / (direction a).cross (direction b) := by
  rw [eq_div_iff h, eq_div_iff h]
  simp only [Vector2D.cross, Point2D.vectorTo] at h ⊢
  constructor
  · rintro ⟨hx, hy⟩
    constructor
    · linear_combination (direction b).dy * hx - (direction b).dx * hy
    · linear_combination (direction a).dy * hx - (direction a).dx * hy
  · rintro ⟨ht, hu⟩
    constructor
    · refine mul_left_cancel₀ h ?_
      linear_combination (direction a).dx * ht - (direction b).dx * hu
    · refine mul_left_cancel₀ h ?_
      linear_combination (direction a).dy * ht - (direction b).dy * hu

theorem segmentIntersection_isSome_iff :
    (segmentIntersection a.1 a.2 b.1 b.2).isSome = true ↔ ¬ Parallel a b ∧ (edgePoints a ∩ edgePoints b).Nonempty := by
  unfold segmentIntersection
  dsimp only
  by_cases hparallel : Parallel a b
  · have hsmall : |(a.1.vectorTo a.2).cross (b.1.vectorTo b.2)| < 1e-12 := hparallel
    simp [hparallel, hsmall]
  have hlarge : ¬ |(a.1.vectorTo a.2).cross (b.1.vectorTo b.2)| < 1e-12 := hparallel
  have hcross : (direction a).cross (direction b) ≠ 0 := by
    intro hzero
    refine hlarge ?_
    rw [show (a.1.vectorTo a.2).cross (b.1.vectorTo b.2) = 0 from hzero, abs_zero]
    norm_num
  rw [if_neg hlarge]
  simp only [hparallel, not_false_eq_true, true_and, Option.isSome_ite]
  constructor
  · rintro ⟨ht0, ht1, hu0, hu1⟩
    obtain ⟨hx, hy⟩ := (common_point_iff hcross).mpr ⟨rfl, rfl⟩
    exact ⟨⟨_, _⟩, mem_edgePoints.mpr ⟨_, ht0, ht1, rfl, rfl⟩, mem_edgePoints.mpr ⟨_, hu0, hu1, hx, hy⟩⟩
  · rintro ⟨p, ha, hb⟩
    obtain ⟨t, ht0, ht1, hx, hy⟩ := mem_edgePoints.mp ha
    obtain ⟨u, hu0, hu1, hx', hy'⟩ := mem_edgePoints.mp hb
    obtain ⟨rfl, rfl⟩ := (common_point_iff hcross).mp ⟨hx ▸ hx', hy ▸ hy'⟩
    exact ⟨ht0, ht1, hu0, hu1⟩

/-- Two edges that follow one another share more than their vertex just when the second runs back over the first. -/
theorem inter_subset_iff (h : a.2 = b.1) : edgePoints a ∩ edgePoints b ⊆ {a.2} ↔ ¬ FoldsBack a b := by
  have hvertex : a.2.x = a.1.x + (direction a).dx ∧ a.2.y = a.1.y + (direction a).dy :=
    ⟨(add_sub_cancel _ _).symm, (add_sub_cancel _ _).symm⟩
  constructor
  · rintro hsubset ⟨hcross, hdot⟩
    set n := (direction a).dx ^ 2 + (direction a).dy ^ 2 with hn
    have hnonneg : 0 ≤ n := by positivity
    have hpos : 0 < n := by
      refine hnonneg.lt_of_ne fun hzero => hdot.ne ?_
      have hdx : (direction a).dx = 0 := by nlinarith [sq_nonneg (direction a).dy]
      have hdy : (direction a).dy = 0 := by nlinarith [sq_nonneg (direction a).dx]
      rw [Vector2D.dot, hdx, hdy, zero_mul, zero_mul, add_zero]
    simp only [Vector2D.cross, Vector2D.dot] at hcross hdot
    -- The second direction is the first one times a negative factor.
    obtain ⟨k, hk, hdx, hdy⟩ : ∃ k, 0 < k ∧ (direction b).dx = -(k * (direction a).dx) ∧
        (direction b).dy = -(k * (direction a).dy) := by
      refine ⟨-((direction a).dx * (direction b).dx + (direction a).dy * (direction b).dy) / n,
        div_pos (by linarith) hpos, ?_, ?_⟩
      · field_simp
        linear_combination (direction b).dx * hn - (direction a).dy * hcross
      · field_simp
        linear_combination (direction b).dy * hn + (direction a).dx * hcross
    have hs : 0 < min 1 k := lt_min one_pos hk
    have hmem := @hsubset ⟨a.2.x - (direction a).dx * min 1 k, a.2.y - (direction a).dy * min 1 k⟩
      ⟨mem_edgePoints.mpr ⟨1 - min 1 k, by linarith [min_le_left 1 k], by linarith,
          by linear_combination hvertex.1, by linear_combination hvertex.2⟩,
        mem_edgePoints.mpr ⟨min 1 k / k, by positivity, (div_le_one hk).mpr (min_le_right 1 k),
          by rw [← h, hdx]; field_simp; ring, by rw [← h, hdy]; field_simp; ring⟩⟩
    simp only [Set.mem_singleton_iff, Point2D.ext_iff, sub_eq_self, mul_eq_zero, hs.ne', or_false] at hmem
    rw [hn, hmem.1, hmem.2] at hpos
    norm_num at hpos
  · rintro hfold p ⟨ha, hb⟩
    obtain ⟨t, ht0, ht1, hx, hy⟩ := mem_edgePoints.mp ha
    obtain ⟨u, hu0, hu1, hx', hy'⟩ := mem_edgePoints.mp hb
    rw [← h] at hx' hy'
    have hdx : (direction a).dx * (1 - t) = -((direction b).dx * u) := by linear_combination -hvertex.1 + hx - hx'
    have hdy : (direction a).dy * (1 - t) = -((direction b).dy * u) := by linear_combination -hvertex.2 + hy - hy'
    by_contra hne
    have hmoved : 0 < (direction b).dx ^ 2 * u ^ 2 + (direction b).dy ^ 2 * u ^ 2 := by
      refine (by positivity : (0 : ℝ) ≤ _).lt_of_ne fun hzero => hne ?_
      have hx0 : (direction b).dx * u = 0 := by nlinarith [sq_nonneg ((direction b).dy * u)]
      have hy0 : (direction b).dy * u = 0 := by nlinarith [sq_nonneg ((direction b).dx * u)]
      exact Point2D.ext (by rw [hx', hx0, add_zero]) (by rw [hy', hy0, add_zero])
    have hu : 0 < u := hu0.lt_of_ne fun hzero => by simp [← hzero] at hmoved
    have ht : 0 < 1 - t := by
      refine (sub_nonneg.mpr ht1).lt_of_ne fun hzero => ?_
      rw [← hzero, mul_zero] at hdx hdy
      nlinarith
    refine hfold ⟨?_, ?_⟩
    · refine mul_left_cancel₀ (mul_pos hu ht).ne' ?_
      rw [Vector2D.cross]
      linear_combination (direction b).dy * u * hdx - (direction b).dx * u * hdy
    · refine neg_of_mul_neg_right (a := u * (1 - t)) ?_ (mul_pos hu ht).le
      have hdot : u * (1 - t) * (direction a).dot (direction b) =
          -((direction b).dx ^ 2 * u ^ 2 + (direction b).dy ^ 2 * u ^ 2) := by
        rw [Vector2D.dot]
        linear_combination (direction b).dx * u * hdx + (direction b).dy * u * hdy
      linarith

/-! ## Edges of a polyline -/

namespace Polyline2D

variable {polyline : Polyline2D}

/-- A segment ends where the next one starts. -/
theorem segments_consecutive {i : Nat} (ha : polyline.segments[i]? = some a) (hb : polyline.segments[i + 1]? = some b) :
    a.2 = b.1 := by
  unfold segments at ha hb
  split at ha
  · cases ha
  next first rest hvertices =>
  rw [hvertices] at hb
  dsimp only at hb
  rw [List.getElem?_zip_eq_some] at ha hb
  have hrest : rest[i]? = some b.1 := hb.1
  have hnext : (if polyline.closed then rest ++ [first] else rest)[i]? = some b.1 := by
    split
    · rw [List.getElem?_append_left (List.getElem?_eq_some_iff.mp hrest).1, hrest]
    · exact hrest
  exact Option.some.inj (ha.2.symm.trans hnext)

/-- The last segment of a closed polyline ends where the first one starts. -/
theorem segments_closing (hclosed : polyline.closed = true) (ha : polyline.segments[0]? = some a)
    (hb : polyline.segments[polyline.segments.length - 1]? = some b) : b.2 = a.1 := by
  unfold segments at ha hb
  split at ha
  · cases ha
  next first rest hvertices =>
  simp only [hvertices, hclosed, ↓reduceIte, List.length_zip, List.length_cons, List.length_append, List.length_nil,
    zero_add, min_self, add_tsub_cancel_right] at ha hb
  rw [List.getElem?_zip_eq_some] at ha hb
  rw [List.getElem?_concat_length] at hb
  exact (Option.some.inj hb.2).symm.trans (Option.some.inj ha.1)

variable (polyline)

/-- Neighbours by their place, as `polyline_self_intersects` takes them. -/
def Adjacent (i j : Nat) : Prop := j = i + 1 ∨ (i = 0 ∧ j = polyline.segments.length - 1 ∧ polyline.closed = true)

/-- Edges that are not neighbours share no point, and neighbours share no more than their vertex. -/
structure Simple : Prop where
  apart : ∀ i j a b, i < j → polyline.segments[i]? = some a → polyline.segments[j]? = some b →
    ¬ polyline.Adjacent i j → edgePoints a ∩ edgePoints b = ∅
  consecutive : ∀ i a b, polyline.segments[i]? = some a → polyline.segments[i + 1]? = some b →
    edgePoints a ∩ edgePoints b ⊆ {a.2}
  closing : ∀ a b, polyline.closed = true → polyline.segments[0]? = some a →
    polyline.segments[polyline.segments.length - 1]? = some b → 1 < polyline.segments.length →
    edgePoints a ∩ edgePoints b ⊆ {a.1}

/-- Two edges lie on one another, or nearly so: parallel ones share a point, or neighbours fold back. -/
inductive Overlaps : Prop
  | apart (i j : Nat) (a b : Point2D × Point2D) (hlt : i < j) (ha : polyline.segments[i]? = some a)
      (hb : polyline.segments[j]? = some b) (hadjacent : ¬ polyline.Adjacent i j) (hparallel : Parallel a b)
      (hshare : (edgePoints a ∩ edgePoints b).Nonempty)
  | consecutive (i : Nat) (a b : Point2D × Point2D) (ha : polyline.segments[i]? = some a)
      (hb : polyline.segments[i + 1]? = some b) (hfold : FoldsBack a b)
  | closing (a b : Point2D × Point2D) (hclosed : polyline.closed = true) (ha : polyline.segments[0]? = some a)
      (hb : polyline.segments[polyline.segments.length - 1]? = some b) (hlength : 1 < polyline.segments.length)
      (hfold : FoldsBack b a)

variable {polyline}

theorem selfIntersects_iff : PolylineSelfIntersects polyline ↔ ∃ i j a b, i < j ∧ polyline.segments[i]? = some a ∧
    polyline.segments[j]? = some b ∧ ¬ polyline.Adjacent i j ∧ ¬ Parallel a b ∧
    (edgePoints a ∩ edgePoints b).Nonempty := by
  simp only [PolylineSelfIntersects, Adjacent, segmentIntersection_isSome_iff]

/-- A polygon is simple just when no two of its edges cross and none lie on one another. -/
theorem simple_iff : polyline.Simple ↔ ¬ PolylineSelfIntersects polyline ∧ ¬ polyline.Overlaps := by
  rw [selfIntersects_iff]
  constructor
  · intro h
    refine ⟨?_, fun hoverlaps => ?_⟩
    · rintro ⟨i, j, a, b, hlt, ha, hb, hadjacent, -, hshare⟩
      exact hshare.ne_empty (h.apart i j a b hlt ha hb hadjacent)
    · cases hoverlaps with
      | apart i j a b hlt ha hb hadjacent hparallel hshare => exact hshare.ne_empty (h.apart i j a b hlt ha hb hadjacent)
      | consecutive i a b ha hb hfold =>
          exact (inter_subset_iff (segments_consecutive ha hb)).mp (h.consecutive i a b ha hb) hfold
      | closing a b hclosed ha hb hlength hfold =>
          have hvertex := segments_closing hclosed ha hb
          refine (inter_subset_iff hvertex).mp ?_ hfold
          rw [Set.inter_comm, hvertex]
          exact h.closing a b hclosed ha hb hlength
  · rintro ⟨hcross, hoverlaps⟩
    constructor
    · intro i j a b hlt ha hb hadjacent
      rw [← Set.not_nonempty_iff_eq_empty]
      intro hshare
      by_cases hparallel : Parallel a b
      · exact hoverlaps (.apart i j a b hlt ha hb hadjacent hparallel hshare)
      · exact hcross ⟨i, j, a, b, hlt, ha, hb, hadjacent, hparallel, hshare⟩
    · intro i a b ha hb
      exact (inter_subset_iff (segments_consecutive ha hb)).mpr fun hfold => hoverlaps (.consecutive i a b ha hb hfold)
    · intro a b hclosed ha hb hlength
      have hvertex := segments_closing hclosed ha hb
      rw [Set.inter_comm, ← hvertex]
      exact (inter_subset_iff hvertex).mpr fun hfold => hoverlaps (.closing a b hclosed ha hb hlength hfold)

end Polyline2D

/-! ## Main result -/

theorem pleat_two_le : 2 ≤ ([⟨0, 0⟩, ⟨3, 0⟩, ⟨1, 0⟩, ⟨5, 0⟩, ⟨2, 3⟩] : List Point2D).length := by
  decide

/-- A triangle whose base goes back and forth. -/
def pleat : Polyline2D := ⟨[⟨0, 0⟩, ⟨3, 0⟩, ⟨1, 0⟩, ⟨5, 0⟩, ⟨2, 3⟩], true, pleat_two_le⟩

theorem pleat_segments : pleat.segments = [(⟨0, 0⟩, ⟨3, 0⟩), (⟨3, 0⟩, ⟨1, 0⟩), (⟨1, 0⟩, ⟨5, 0⟩), (⟨5, 0⟩, ⟨2, 3⟩),
    (⟨2, 3⟩, ⟨0, 0⟩)] := rfl

theorem pleat_selfIntersects : ¬ PolylineSelfIntersects pleat := by
  rintro ⟨i, j, a, b, hlt, ha, hb, hadjacent, hcross⟩
  have hclosed : pleat.closed = true := rfl
  have hj := (List.getElem?_eq_some_iff.mp hb).1
  rw [pleat_segments] at ha hb hj hadjacent
  simp only [List.length_cons, List.length_nil] at hj
  interval_cases j <;> interval_cases i <;> simp [hclosed] at ha hb hadjacent <;> subst ha hb <;>
    norm_num [segmentIntersection, Point2D.vectorTo, Vector2D.cross] at hcross

end CadHarness.Geometry
