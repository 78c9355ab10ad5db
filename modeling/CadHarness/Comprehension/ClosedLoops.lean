import CadHarness.Comprehension.RasterTrace
import Mathlib.Data.List.Destutter
import Mathlib.Data.List.Rotate

/-!
# The points of a closed loop

A closed loop is written from its least point on, counter-clockwise. Where its points are distinct and its area is not
zero, the result depends on the loop only, not on the point and the direction in which it was traced.
-/

namespace CadHarness.Comprehension
open CadHarness.Geometry CadHarness.Lib

/-! ## Rotations -/

section
variable {α : Type} {l : List α}

/-- With distinct elements a rotation is known by its first. -/
theorem rotate_eq_of_head? {i j : Nat} (hnodup : l.Nodup) (hhead : (l.rotate i).head? = (l.rotate j).head?) :
    l.rotate i = l.rotate j := by
  cases l with
  | nil => rw [List.rotate_nil, List.rotate_nil]
  | cons a l =>
      have hpos : 0 < (a :: l).length := Nat.zero_lt_succ _
      have hi : i % (a :: l).length < (a :: l).length := Nat.mod_lt _ hpos
      have hj : j % (a :: l).length < (a :: l).length := Nat.mod_lt _ hpos
      rw [← List.rotate_mod _ i, ← List.rotate_mod _ j, List.head?_rotate hi, List.head?_rotate hj] at hhead
      rw [← List.rotate_mod _ i, ← List.rotate_mod _ j, (List.getElem?_inj hi hnodup).mp hhead]

theorem eq_of_isRotated_of_head? {l' : List α} (hnodup : l.Nodup) (hrotated : l ~r l') (hhead : l.head? = l'.head?) :
    l = l' := by
  obtain ⟨n, rfl⟩ := hrotated
  have heq : l.rotate 0 = l.rotate n := rotate_eq_of_head? hnodup (by rwa [List.rotate_zero])
  rwa [List.rotate_zero] at heq

end

/-! ## The least point first -/

noncomputable section
open Classical

theorem tupleLt_trichotomy (p q : Point2D) : TupleLt p q ∨ p = q ∨ TupleLt q p := by
  obtain ⟨px, py⟩ := p
  obtain ⟨qx, qy⟩ := q
  simp only [TupleLt, Point2D.mk.injEq]
  rcases lt_trichotomy px qx with h | rfl | h
  · exact .inl (.inl h)
  · rcases lt_trichotomy py qy with h | rfl | h
    · exact .inl (.inr ⟨rfl, h⟩)
    · exact .inr (.inl ⟨rfl, rfl⟩)
    · exact .inr (.inr (.inr ⟨rfl, h⟩))
  · exact .inr (.inr (.inl h))

theorem tupleLt_trans {p q r : Point2D} (hpq : TupleLt p q) (hqr : TupleLt q r) : TupleLt p r := by
  unfold TupleLt at *
  rcases hpq with hpq | ⟨hpq, hpq'⟩ <;> rcases hqr with hqr | ⟨hqr, hqr'⟩
  · exact .inl (hpq.trans hqr)
  · exact .inl (hqr ▸ hpq)
  · exact .inl (hpq ▸ hqr)
  · exact .inr ⟨hpq.trans hqr, hpq'.trans hqr'⟩

theorem tupleLt_irrefl (p : Point2D) : ¬ TupleLt p p := by simp [TupleLt]

/-- The points from the least one on. -/
def leastFirst (points : List Point2D) : List Point2D :=
  points.rotate (points.findIdx fun p => ∀ q ∈ points, ¬ TupleLt q p)

theorem exists_least {points : List Point2D} (hne : points ≠ []) : ∃ p ∈ points, ∀ q ∈ points, ¬ TupleLt q p := by
  induction points with
  | nil => exact absurd rfl hne
  | cons a points ih =>
      by_cases hempty : points = []
      · exact ⟨a, List.mem_cons_self, by simp [hempty, tupleLt_irrefl]⟩
      obtain ⟨p, hp, hleast⟩ := ih hempty
      by_cases hlt : TupleLt a p
      · refine ⟨a, List.mem_cons_self, fun q hq hqa => ?_⟩
        rcases List.mem_cons.mp hq with rfl | hq
        · exact tupleLt_irrefl _ hqa
        · exact hleast q hq (tupleLt_trans hqa hlt)
      · refine ⟨p, List.mem_cons_of_mem a hp, fun q hq => ?_⟩
        rcases List.mem_cons.mp hq with rfl | hq
        · exact hlt
        · exact hleast q hq

/-- The first of the points is the least of them. -/
theorem head?_leastFirst {points : List Point2D} (hne : points ≠ []) :
    ∃ p ∈ points, (leastFirst points).head? = some p ∧ ∀ q ∈ points, ¬ TupleLt q p := by
  obtain ⟨p, hp, hleast⟩ := exists_least hne
  have hlt : points.findIdx (fun p => ∀ q ∈ points, ¬ TupleLt q p) < points.length :=
    List.findIdx_lt_length_of_exists ⟨p, hp, decide_eq_true hleast⟩
  have hfound := List.findIdx_getElem (w := hlt)
  refine ⟨_, List.getElem_mem hlt, ?_, of_decide_eq_true hfound⟩
  rw [leastFirst, List.head?_rotate hlt, List.getElem?_eq_getElem hlt]

theorem leastFirst_isRotated (points : List Point2D) : leastFirst points ~r points := List.IsRotated.forall _ _

theorem leastFirst_congr {points points' : List Point2D} (hnodup : points.Nodup) (hrotated : points ~r points') :
    leastFirst points = leastFirst points' := by
  by_cases hne : points = []
  · subst hne
    rw [List.isRotated_nil_iff'.mp hrotated]
  have hne' : points' ≠ [] := fun h => hne (List.isRotated_nil_iff.mp (h ▸ hrotated))
  have hsame : leastFirst points ~r leastFirst points' :=
    (leastFirst_isRotated points).trans (hrotated.trans (leastFirst_isRotated points').symm)
  refine eq_of_isRotated_of_head? ((leastFirst_isRotated points).nodup_iff.mpr hnodup) hsame ?_
  obtain ⟨p, hp, hhead, hleast⟩ := head?_leastFirst hne
  obtain ⟨p', hp', hhead', hleast'⟩ := head?_leastFirst hne'
  rcases tupleLt_trichotomy p p' with h | rfl | h
  · exact absurd h (hleast' p (hrotated.mem_iff.mp hp))
  · rw [hhead, hhead']
  · exact absurd h (hleast p' (hrotated.mem_iff.mpr hp'))

/-! ## Signed areas -/

theorem signedArea_eq_zipWith (points : List Point2D) :
    signedArea points = (List.zipWith (fun p q => p.x * q.y - q.x * p.y) points (points.rotate 1)).sum := by
  have hrotate : points.tail ++ points.take 1 = points.rotate 1 := by
    cases points with
    | nil => rfl
    | cons p points => rw [List.rotate_cons_succ, List.rotate_zero, List.tail_cons, List.take_succ_cons, List.take_zero]
  rw [signedArea, hrotate, List.zip, List.map_zipWith]

theorem signedArea_rotate (points : List Point2D) (n : Nat) : signedArea (points.rotate n) = signedArea points := by
  have hswap : (points.rotate n).rotate 1 = (points.rotate 1).rotate n := by
    rw [List.rotate_rotate, List.rotate_rotate, Nat.add_comm]
  rw [signedArea_eq_zipWith, signedArea_eq_zipWith, hswap,
    ← List.zipWith_rotate_distrib _ _ _ _ (List.length_rotate points 1).symm, (List.rotate_perm _ n).sum_eq]

theorem signedArea_of_isRotated {points points' : List Point2D} (h : points ~r points') :
    signedArea points = signedArea points' := by
  obtain ⟨n, rfl⟩ := h
  exact (signedArea_rotate points n).symm

theorem signedArea_reverse (points : List Point2D) : signedArea points.reverse = -signedArea points := by
  have hrotated : points.reverse ~r (points.rotate 1).reverse := List.IsRotated.reverse ⟨1, rfl⟩
  have hback : (points.rotate 1).reverse.rotate 1 = points.reverse := by
    cases points with
    | nil => rfl
    | cons p points => simp
  have hneg : (fun q p : Point2D => q.x * p.y - p.x * q.y) = fun q p => -(p.x * q.y - q.x * p.y) := by
    funext q p
    ring
  rw [signedArea_of_isRotated hrotated, signedArea_eq_zipWith, hback,
    ← List.reverse_zipWith (List.length_rotate points 1), (List.reverse_perm _).sum_eq, hneg, List.zipWith_comm,
    signedArea_eq_zipWith, List.sum_neg, List.map_zipWith]

/-! ## The canonical points -/

/-- The points counter-clockwise. -/
def oriented (points : List Point2D) : List Point2D := if signedArea points ≥ 0 then points else points.reverse

theorem oriented_nonneg (points : List Point2D) : 0 ≤ signedArea (oriented points) := by
  unfold oriented
  split_ifs with h
  · exact h
  · rw [signedArea_reverse]
    linarith

theorem oriented_of_nonneg {points : List Point2D} (h : 0 ≤ signedArea points) : oriented points = points := if_pos h

theorem oriented_isRotated {points points' : List Point2D} (h : points ~r points') : oriented points ~r oriented points' := by
  unfold oriented
  rw [signedArea_of_isRotated h]
  split_ifs
  · exact h
  · exact h.reverse

theorem oriented_reverse {points : List Point2D} (h : signedArea points ≠ 0) : oriented points.reverse = oriented points := by
  unfold oriented
  rw [signedArea_reverse, List.reverse_reverse]
  rcases lt_or_gt_of_ne h with hneg | hpos
  · rw [if_pos (by linarith), if_neg (by linarith)]
  · rw [if_neg (by linarith), if_pos (by linarith)]

theorem oriented_nodup {points : List Point2D} (h : points.Nodup) : (oriented points).Nodup := by
  unfold oriented
  split_ifs
  · exact h
  · exact List.nodup_reverse.mpr h

/-- Fewer than three points have no area. -/
theorem signedArea_of_length_lt {points : List Point2D} (h : points.length < 3) : signedArea points = 0 := by
  rcases points with _ | ⟨p, _ | ⟨q, _ | ⟨r, points⟩⟩⟩
  · simp [signedArea]
  · simp [signedArea]
  · simp [signedArea]
  · simp only [List.length_cons] at h
    omega

/-- Distinct points are compact as they are. -/
theorem canonicalClosedPoints_eq {points : List Point2D} (hdistinct : points.Nodup) (harea : signedArea points ≠ 0) :
    canonicalClosedPoints points = leastFirst (oriented points) := by
  have hlength : ¬ points.length < 3 := fun h => harea (signedArea_of_length_lt h)
  have hchain : points.destutter (· ≠ ·) = points := (List.destutter_eq_self_iff _ _).mpr (List.Pairwise.isChain hdistinct)
  have hends : ¬ (points.length > 1 ∧ points.head? = points.getLast?) := by
    rintro ⟨hlong, hends⟩
    rw [List.head?_eq_getElem?, List.getLast?_eq_getElem?, List.getElem?_inj (by omega) hdistinct] at hends
    omega
  simp only [canonicalClosedPoints, hchain, if_neg hends, hdistinct.dedup, if_neg hlength]
  rfl

theorem leastFirst_oriented_congr {points points' : List Point2D} (hdistinct : points.Nodup) (h : points ~r points') :
    leastFirst (oriented points) = leastFirst (oriented points') :=
  leastFirst_congr (oriented_nodup hdistinct) (oriented_isRotated h)

end

end CadHarness.Comprehension
