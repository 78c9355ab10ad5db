import CadHarness.Geometry.Forest
import CadHarness.Lib.Containment
import CadHarness.Lib.Fallible
import Mathlib.MeasureTheory.Measure.Lebesgue.Basic

/-!
# Depths and areas in the forest

A parent has a larger area than its child, so that every way to a root ends. Where containment is laminar the depth of
a contour counts its containers, and the signed areas add up to what is covered an odd number of times.
-/

namespace CadHarness.Geometry
open CadHarness.Lib

/-! ## The least container -/

theorem leastContainer_fold (areas : List ℝ) (best : Nat) (cs : List Nat) :
    let least := cs.foldl (fun best c => if areas.getD c 0 < areas.getD best 0 then c else best) best
    least ∈ best :: cs ∧ ∀ d ∈ best :: cs, areas.getD least 0 ≤ areas.getD d 0 := by
  induction cs generalizing best with
  | nil => simp
  | cons c cs ih =>
      intro least
      have hstep := ih (if areas.getD c 0 < areas.getD best 0 then c else best)
      obtain ⟨hmem, hle⟩ := hstep
      have hbest : areas.getD (if areas.getD c 0 < areas.getD best 0 then c else best) 0 ≤ areas.getD best 0 ∧
          areas.getD (if areas.getD c 0 < areas.getD best 0 then c else best) 0 ≤ areas.getD c 0 := by
        split
        · next hlt => exact ⟨hlt.le, le_refl _⟩
        · next hlt => exact ⟨le_refl _, not_lt.mp hlt⟩
      have hfirst := hle _ List.mem_cons_self
      refine ⟨?_, ?_⟩
      · rcases List.mem_cons.mp hmem with heq | hmem
        · change least = _ at heq
          rw [heq]
          split <;> simp
        · exact List.mem_cons_of_mem _ (List.mem_cons_of_mem _ hmem)
      · intro d hd
        rcases List.mem_cons.mp hd with rfl | hd
        · exact hfirst.trans hbest.1
        rcases List.mem_cons.mp hd with rfl | hd
        · exact hfirst.trans hbest.2
        · exact hle d (List.mem_cons_of_mem _ hd)

theorem leastContainer_some {areas : List ℝ} {cs : List Nat} {p : Nat} (h : leastContainer areas cs = some p) :
    p ∈ cs ∧ ∀ d ∈ cs, areas.getD p 0 ≤ areas.getD d 0 := by
  cases cs with
  | nil => cases h
  | cons c cs =>
      obtain rfl := Option.some.inj h
      exact leastContainer_fold areas c cs

theorem leastContainer_none {areas : List ℝ} {cs : List Nat} (h : leastContainer areas cs = none) : cs = [] := by
  cases cs with
  | nil => rfl
  | cons c cs => cases h

/-! ## Parents -/

section parents

variable {areas : List ℝ} {polylines : List Polyline2D} {tolerance : ToleranceProfile}

/-- A contour contains another one of smaller area. -/
def Inside (areas : List ℝ) (polylines : List Polyline2D) (tolerance : ToleranceProfile) (i j : Nat) : Prop :=
  ∃ child parent, polylines[i]? = some child ∧ polylines[j]? = some parent ∧
    areas.getD i 0 < areas.getD j 0 ∧ ContainsContour parent child tolerance

theorem Inside.area_lt {i j : Nat} (h : Inside areas polylines tolerance i j) : areas.getD i 0 < areas.getD j 0 := by
  obtain ⟨_, _, _, _, hlt, _⟩ := h
  exact hlt

theorem Inside.lt_length {i j : Nat} (h : Inside areas polylines tolerance i j) : j < polylines.length := by
  obtain ⟨_, _, _, hj, _⟩ := h
  exact (List.getElem?_eq_some_iff.mp hj).1

theorem mem_containersOf {child : Polyline2D} {i j : Nat} (hi : polylines[i]? = some child) :
    j ∈ ContourForest.containersOf areas polylines tolerance (child, i) ↔ Inside areas polylines tolerance i j := by
  simp only [ContourForest.containersOf, List.mem_map, List.mem_filter, decide_eq_true_eq, Prod.exists,
    exists_eq_right, List.mem_zipIdx_iff_getElem?, Inside, hi, Option.some.injEq, gt_iff_lt]
  constructor
  · rintro ⟨parent, hj, -, hlt, hcontains⟩
    exact ⟨child, parent, rfl, hj, hlt, hcontains⟩
  · rintro ⟨_, parent, rfl, hj, hlt, hcontains⟩
    exact ⟨parent, hj, fun heq => hlt.ne (by rw [heq]), hlt, hcontains⟩

theorem parentsOf_getD {child : Polyline2D} {i : Nat} (hi : polylines[i]? = some child) :
    (ContourForest.parentsOf areas polylines tolerance).getD i none =
      leastContainer areas (ContourForest.containersOf areas polylines tolerance (child, i)) := by
  simp [ContourForest.parentsOf, List.getD_eq_getElem?_getD, hi]

theorem parentsOf_some {i p : Nat}
    (h : (ContourForest.parentsOf areas polylines tolerance).getD i none = some p) :
    Inside areas polylines tolerance i p ∧
      ∀ q, Inside areas polylines tolerance i q → areas.getD p 0 ≤ areas.getD q 0 := by
  cases hi : polylines[i]? with
  | none => simp [ContourForest.parentsOf, List.getD_eq_getElem?_getD, hi] at h
  | some child =>
      rw [parentsOf_getD hi] at h
      obtain ⟨hmem, hleast⟩ := leastContainer_some h
      exact ⟨(mem_containersOf hi).mp hmem, fun q hq => hleast q ((mem_containersOf hi).mpr hq)⟩

theorem parentsOf_none {i : Nat} (h : (ContourForest.parentsOf areas polylines tolerance).getD i none = none) (q : Nat) :
    ¬ Inside areas polylines tolerance i q := by
  intro hq
  obtain ⟨child, _, hi, _⟩ := id hq
  rw [parentsOf_getD hi] at h
  have hmem := (mem_containersOf hi).mpr hq
  rw [leastContainer_none h] at hmem
  exact List.not_mem_nil hmem

end parents

/-! ## Depths -/

/-- Every parent has a larger area. -/
def ParentsGrow (areas : List ℝ) (parents : List (Option Nat)) (n : Nat) : Prop :=
  ∀ i p, parents.getD i none = some p → p < n ∧ areas.getD i 0 < areas.getD p 0

/-- A way is measured by counting the contours of at least the area where it stands. -/
noncomputable def rank (areas : List ℝ) (n p : Nat) : Nat :=
  open Classical in ((Finset.range n).filter fun j => areas.getD p 0 ≤ areas.getD j 0).card

theorem rank_lt {areas : List ℝ} {n p q : Nat} (hp : p < n) (h : areas.getD p 0 < areas.getD q 0) :
    rank areas n q < rank areas n p := by
  refine Finset.card_lt_card (Finset.ssubset_iff_of_subset ?_ |>.mpr ⟨p, ?_, ?_⟩)
  · intro j hj
    rw [Finset.mem_filter] at hj ⊢
    exact ⟨hj.1, h.le.trans hj.2⟩
  · exact Finset.mem_filter.mpr ⟨Finset.mem_range.mpr hp, le_refl _⟩
  · rw [Finset.mem_filter, not_and, not_le]
    exact fun _ => h

theorem rank_pos {areas : List ℝ} {n p : Nat} (hp : p < n) : 0 < rank areas n p :=
  Finset.card_pos.mpr ⟨p, Finset.mem_filter.mpr ⟨Finset.mem_range.mpr hp, le_refl _⟩⟩

theorem rank_le {areas : List ℝ} {n p : Nat} : rank areas n p ≤ n :=
  (Finset.card_filter_le _ _).trans_eq (Finset.card_range n)

/-- A way to a root never comes back, and its length is whatever counts one at each parent. -/
theorem forestDepth_ok {areas : List ℝ} {parents : List (Option Nat)} {n : Nat} (h : ParentsGrow areas parents n)
    (steps : Nat) (seen : List Nat) (parent : Option Nat)
    (hparent : ∀ p, parent = some p → p < n ∧ rank areas n p ≤ steps ∧ ∀ i ∈ seen, areas.getD i 0 < areas.getD p 0) :
    ∃ d, forestDepth parents steps seen parent = .ok d ∧ ∀ depth : Nat → Nat,
      (∀ i, depth i = (parents.getD i none).elim 0 (depth · + 1)) → d = parent.elim 0 (depth · + 1) := by
  induction steps generalizing seen parent with
  | zero =>
      cases parent with
      | none => exact ⟨0, rfl, fun _ _ => rfl⟩
      | some p =>
          obtain ⟨hp, hrank, -⟩ := hparent p rfl
          exact absurd (rank_pos hp) (not_lt.mpr hrank)
  | succ steps ih =>
      cases parent with
      | none => exact ⟨0, rfl, fun _ _ => rfl⟩
      | some p =>
          obtain ⟨hp, hrank, hseen⟩ := hparent p rfl
          have hnew : p ∉ seen := fun hmem => lt_irrefl _ (hseen p hmem)
          obtain ⟨d, hd, hdepth⟩ := ih (p :: seen) (parents.getD p none) (by
            intro q hq
            obtain ⟨hq, hlt⟩ := h p q hq
            refine ⟨hq, Nat.le_of_lt_succ ((rank_lt hp hlt).trans_le hrank), ?_⟩
            intro i hi
            rcases List.mem_cons.mp hi with rfl | hi
            · exact hlt
            · exact (hseen i hi).trans hlt)
          refine ⟨d + 1, ?_, fun depth hrec => ?_⟩
          · rw [forestDepth, if_neg hnew, hd]
            rfl
          · rw [hdepth depth hrec, ← hrec]
            rfl

theorem parentsOf_grow (areas : List ℝ) (polylines : List Polyline2D) (tolerance : ToleranceProfile) :
    ParentsGrow areas (ContourForest.parentsOf areas polylines tolerance) polylines.length := by
  intro i p h
  have hinside := (parentsOf_some h).1
  exact ⟨hinside.lt_length, hinside.area_lt⟩

/-- The depths that `ContourForest.build` computes. -/
theorem depths_ok (areas : List ℝ) (polylines : List Polyline2D) (tolerance : ToleranceProfile) :
    ∃ depths, ((List.range polylines.length).mapM fun index =>
        forestDepth (ContourForest.parentsOf areas polylines tolerance) polylines.length [index]
          ((ContourForest.parentsOf areas polylines tolerance).getD index none)) = .ok depths ∧
      ∀ depth : Nat → Nat,
        (∀ i, depth i = ((ContourForest.parentsOf areas polylines tolerance).getD i none).elim 0 (depth · + 1)) →
        ∀ i < polylines.length, depths.getD i 0 = depth i := by
  have hgrow := parentsOf_grow areas polylines tolerance
  generalize ContourForest.parentsOf areas polylines tolerance = parents at *
  have hway (i : Nat) := forestDepth_ok hgrow polylines.length [i] (parents.getD i none) (by
    intro p hp
    obtain ⟨hlt, harea⟩ := hgrow i p hp
    exact ⟨hlt, rank_le, by simpa using harea⟩)
  choose depthOf hok hdepth using hway
  refine ⟨(List.range polylines.length).map depthOf, Fallible.mapM_ok fun i _ => hok i, ?_⟩
  intro depth hrec i hi
  rw [List.getD_eq_getElem?_getD, List.getElem?_map, List.getElem?_range hi, hrec]
  exact hdepth i depth hrec

theorem length_parentsOf (areas : List ℝ) (polylines : List Polyline2D) (tolerance : ToleranceProfile) :
    (ContourForest.parentsOf areas polylines tolerance).length = polylines.length := by
  rw [ContourForest.parentsOf, List.length_map, List.length_zipIdx]

/-- Where parents grow there is a depth that counts one at each parent. -/
theorem exists_depth {areas : List ℝ} {parents : List (Option Nat)} (h : ParentsGrow areas parents parents.length) :
    ∃ depth : Nat → Nat, ∀ i, depth i = (parents.getD i none).elim 0 (depth · + 1) := by
  have hwf : WellFounded fun p i => parents.getD i none = some p := by
    refine Subrelation.wf ?_ (measure (rank areas parents.length)).wf
    intro p i hp
    have hi : i < parents.length := by
      by_contra hge
      rw [List.getD_eq_getElem?_getD, List.getElem?_eq_none (not_lt.mp hge)] at hp
      cases hp
    exact rank_lt hi (h i p hp).2
  have hrec (i : Nat) (below : ∀ p, parents.getD i none = some p → Nat) :
      ∃ d : Nat, d = (parents.getD i none).pelim 0 fun p hp => below p hp + 1 := ⟨_, rfl⟩
  choose step hstep using hrec
  refine ⟨hwf.fix step, fun i => ?_⟩
  rw [hwf.fix_eq, hstep]
  cases parents.getD i none <;> rfl

/-! ## The forest of contours -/

/-- The error that a way to a root raises when it comes back. -/
def containmentCycle : KernelError := invalidGeometry "Contour containment cycle detected"

/-- A message that is not that of a cycle. -/
theorem invalidGeometry_ne_cycle {message : String} (h : message ≠ "Contour containment cycle detected") :
    invalidGeometry message ≠ containmentCycle := by
  intro heq
  exact h (KernelError.harness.inj heq).2.1

theorem linearizeCurve_error {c : CurveParams} {chordTolerance : ℝ} {e : KernelError}
    (h : linearizeCurve c chordTolerance = .error e) : e ≠ containmentCycle := by
  rw [linearizeCurve, Fallible.bind_eq_error] at h
  rcases h with h | ⟨count, -, h⟩
  · unfold chordSegmentCount at h
    split at h
    · obtain rfl := Except.error.inj h
      exact invalidGeometry_ne_cycle (by decide)
    · cases h
  · cases h

theorem asPolyline_error {tolerance : ToleranceProfile} {contour : Contour} {e : KernelError}
    (h : asPolyline tolerance contour = .error e) : e ≠ containmentCycle := by
  cases contour with
  | polyline polyline => cases h
  | curves contour =>
      rw [asPolyline, Fallible.bind_eq_error] at h
      rcases h with h | ⟨vertices, -, h⟩
      · rw [CurveContour.vertices, Fallible.bind_eq_error] at h
        rcases h with h | ⟨points, -, h⟩
        · obtain ⟨edge, -, h⟩ := Fallible.mapM_eq_error h
          cases edge with
          | line edge => cases h
          | curve c => exact linearizeCurve_error h
        · cases h
      · unfold Polyline2D.checked at h
        split at h
        · cases h
        · obtain rfl := Except.error.inj h
          intro heq
          exact absurd (KernelError.harness.inj heq).2.1 (by decide)

theorem Contour.area_isOk {contour : Contour}
    (h : ∀ polyline, contour = .polyline polyline → polyline.closed = true) : ∃ area, Contour.area contour = .ok area := by
  cases contour with
  | polyline polyline =>
      rw [Contour.area, signedContourArea, if_pos (h polyline rfl)]
      exact ⟨_, rfl⟩
  | curves contour => exact ⟨_, rfl⟩

namespace ContourForest

variable {contours : List Contour} {tolerance : ToleranceProfile} {areas : List ℝ} {polylines : List Polyline2D}

/-- The forest from the areas and polylines of its contours. -/
theorem build_eq (hclosed : ∀ polyline, Contour.polyline polyline ∈ contours → polyline.closed = true)
    (hareas : contours.mapM Contour.area = .ok areas) (hpolylines : contours.mapM (asPolyline tolerance) = .ok polylines) :
    ∃ depths : List Nat, build contours tolerance = .ok ⟨contours.zipIdx.map fun entry =>
        ⟨entry.1, (parentsOf areas polylines tolerance).getD entry.2 none, depths.getD entry.2 0,
          areas.getD entry.2 0⟩⟩ ∧
      ∀ depth : Nat → Nat, (∀ i, depth i = ((parentsOf areas polylines tolerance).getD i none).elim 0 (depth · + 1)) →
        ∀ i < contours.length, depths.getD i 0 = depth i := by
  have hlength := (Fallible.mapM_eq_ok.mp hpolylines).length_eq
  obtain ⟨depths, hdepths, hdepth⟩ := depths_ok areas polylines tolerance
  rw [← hlength] at hdepths hdepth
  refine ⟨depths, ?_, hdepth⟩
  have hopen : ¬ ∃ polyline, Contour.polyline polyline ∈ contours ∧ polyline.closed = false := by
    rintro ⟨polyline, hmem, hfalse⟩
    rw [hclosed polyline hmem] at hfalse
    cases hfalse
  rw [build, if_neg hopen, hareas, hpolylines]
  simp only [Fallible.ok_bind, hdepths]
  rfl

/-- What the nodes of a forest say. -/
structure BuiltFrom (forest : ContourForest) (contours : List Contour) (tolerance : ToleranceProfile) (areas : List ℝ)
    (polylines : List Polyline2D) : Prop where
  areas_eq : contours.mapM Contour.area = .ok areas
  polylines_eq : contours.mapM (asPolyline tolerance) = .ok polylines
  contours_eq : forest.nodes.map ContourNode.contour = contours
  parent_eq : ∀ i : Fin forest.nodes.length,
    (forest.nodes.get i).parentIndex = (parentsOf areas polylines tolerance).getD i none
  area_eq : ∀ i : Fin forest.nodes.length, (forest.nodes.get i).areaMm2 = areas.getD i 0
  depth_eq : ∀ depth : Nat → Nat,
    (∀ i, depth i = ((parentsOf areas polylines tolerance).getD i none).elim 0 (depth · + 1)) →
    ∀ i : Fin forest.nodes.length, (forest.nodes.get i).depth = depth i

theorem builtFrom_of_areas (hclosed : ∀ polyline, Contour.polyline polyline ∈ contours → polyline.closed = true)
    (hareas : contours.mapM Contour.area = .ok areas) (hpolylines : contours.mapM (asPolyline tolerance) = .ok polylines) :
    ∃ forest, build contours tolerance = .ok forest ∧ BuiltFrom forest contours tolerance areas polylines := by
  obtain ⟨depths, hbuild, hdepth⟩ := build_eq hclosed hareas hpolylines
  refine ⟨_, hbuild, hareas, hpolylines, ?_, ?_, ?_, ?_⟩
  · simp [Function.comp_def]
  · intro i
    simp
  · intro i
    simp
  · intro depth hrec i
    have hi : (i : Nat) < contours.length := by simpa using i.isLt
    simpa using hdepth depth hrec i hi

/-- No way to a root comes back. -/
theorem build_cases (contours : List Contour) (tolerance : ToleranceProfile) :
    (∃ e, build contours tolerance = .error e ∧ e ≠ containmentCycle ∧
        ((∃ polyline, .polyline polyline ∈ contours ∧ polyline.closed = false) ∨
          ∃ contour ∈ contours, asPolyline tolerance contour = .error e)) ∨
      ∃ forest areas polylines, build contours tolerance = .ok forest ∧
        BuiltFrom forest contours tolerance areas polylines := by
  by_cases hopen : ∃ polyline, Contour.polyline polyline ∈ contours ∧ polyline.closed = false
  · refine .inl ⟨_, if_pos hopen, invalidGeometry_ne_cycle (by decide), .inl hopen⟩
  have hclosed (polyline : Polyline2D) (hmem : Contour.polyline polyline ∈ contours) : polyline.closed = true := by
    by_contra hfalse
    exact hopen ⟨polyline, hmem, Bool.not_eq_true _ ▸ hfalse⟩
  cases hareas : contours.mapM Contour.area with
  | error e =>
      obtain ⟨contour, hmem, herror⟩ := Fallible.mapM_eq_error hareas
      obtain ⟨area, harea⟩ := Contour.area_isOk fun polyline heq => hclosed polyline (heq ▸ hmem)
      rw [harea] at herror
      cases herror
  | ok areas =>
      cases hpolylines : contours.mapM (asPolyline tolerance) with
      | error e =>
          obtain ⟨contour, hmem, herror⟩ := Fallible.mapM_eq_error hpolylines
          refine .inl ⟨e, ?_, asPolyline_error herror, .inr ⟨contour, hmem, herror⟩⟩
          rw [build, if_neg hopen, hareas, hpolylines]
          rfl
      | ok polylines =>
          obtain ⟨forest, hbuild, hbuilt⟩ := builtFrom_of_areas hclosed hareas hpolylines
          exact .inr ⟨forest, areas, polylines, hbuild, hbuilt⟩

/-- The second contour contains the first, which has a smaller area. -/
def Inside (forest : ContourForest) (tolerance : ToleranceProfile) (i j : Fin forest.nodes.length) : Prop :=
  (forest.nodes.get i).areaMm2 < (forest.nodes.get j).areaMm2 ∧ ∃ child parent,
    asPolyline tolerance (forest.nodes.get i).contour = .ok child ∧
    asPolyline tolerance (forest.nodes.get j).contour = .ok parent ∧ ContainsContour parent child tolerance

def IsParent (forest : ContourForest) (i j : Fin forest.nodes.length) : Prop :=
  (forest.nodes.get i).parentIndex = some ↑j

variable {forest : ContourForest}

theorem BuiltFrom.length_eq (h : BuiltFrom forest contours tolerance areas polylines) :
    polylines.length = forest.nodes.length := by
  rw [← (Fallible.mapM_eq_ok.mp h.polylines_eq).length_eq, ← h.contours_eq, List.length_map]

/-- The polyline of a node. -/
theorem BuiltFrom.polyline_eq (h : BuiltFrom forest contours tolerance areas polylines) (i : Fin forest.nodes.length)
    {polyline : Polyline2D} :
    polylines[i.val]? = some polyline ↔ asPolyline tolerance (forest.nodes.get i).contour = .ok polyline := by
  have hall := List.forall₂_iff_get.mp (Fallible.mapM_eq_ok.mp h.polylines_eq)
  have hi : i.val < polylines.length := i.isLt.trans_eq h.length_eq.symm
  have hcontour : contours[i.val]? = some (forest.nodes.get i).contour := by
    rw [← h.contours_eq, List.getElem?_map, List.getElem?_eq_getElem i.isLt]
    rfl
  obtain ⟨hlt, hget⟩ := List.getElem?_eq_some_iff.mp hcontour
  have hok := hall.2 i.val hlt hi
  rw [List.get_eq_getElem, hget] at hok
  rw [hok, List.getElem?_eq_getElem hi, Option.some.injEq, Except.ok.injEq]
  rfl

theorem BuiltFrom.inside_iff (h : BuiltFrom forest contours tolerance areas polylines) (i j : Fin forest.nodes.length) :
    forest.Inside tolerance i j ↔ CadHarness.Geometry.Inside areas polylines tolerance i j := by
  simp only [Inside, CadHarness.Geometry.Inside, h.area_eq, h.polyline_eq]
  constructor
  · rintro ⟨hlt, child, parent, hchild, hparent, hcontains⟩
    exact ⟨child, parent, hchild, hparent, hlt, hcontains⟩
  · rintro ⟨child, parent, hchild, hparent, hlt, hcontains⟩
    exact ⟨hlt, child, parent, hchild, hparent, hcontains⟩

/-- A parent is a container of least area. -/
theorem BuiltFrom.parent_some (h : BuiltFrom forest contours tolerance areas polylines) {i : Fin forest.nodes.length}
    {p : Nat} (hp : (forest.nodes.get i).parentIndex = some p) :
    ∃ j : Fin forest.nodes.length, ↑j = p ∧ forest.Inside tolerance i j ∧
      ∀ q, forest.Inside tolerance i q → ¬ forest.Inside tolerance q j := by
  rw [h.parent_eq] at hp
  obtain ⟨hinside, hleast⟩ := parentsOf_some hp
  refine ⟨⟨p, h.length_eq ▸ hinside.lt_length⟩, rfl, (h.inside_iff _ _).mpr hinside, ?_⟩
  intro q hq hinto
  exact not_lt.mpr (hleast q ((h.inside_iff _ _).mp hq)) ((h.inside_iff _ _).mp hinto).area_lt

theorem Inside.area_lt {i j : Fin forest.nodes.length} (h : forest.Inside tolerance i j) :
    (forest.nodes.get i).areaMm2 < (forest.nodes.get j).areaMm2 := h.1

/-- Where containment is laminar the depth counts the containers. -/
theorem BuiltFrom.depth_eq_card (h : BuiltFrom forest contours tolerance areas polylines)
    (hlaminar : Laminar (forest.Inside tolerance)) (i : Fin forest.nodes.length) :
    (forest.nodes.get i).depth = (containers (forest.Inside tolerance) i).card := by
  let count (n : Nat) : Nat := if hn : n < forest.nodes.length then (containers (forest.Inside tolerance) ⟨n, hn⟩).card else 0
  have hcount (j : Fin forest.nodes.length) : count j = (containers (forest.Inside tolerance) j).card :=
    dif_pos j.isLt
  rw [h.depth_eq count ?_ i, hcount]
  intro n
  by_cases hn : n < forest.nodes.length
  · have hparent := h.parent_eq ⟨n, hn⟩
    rw [← hparent]
    cases hp : (forest.nodes.get ⟨n, hn⟩).parentIndex with
    | none =>
        rw [hp] at hparent
        have hempty : containers (forest.Inside tolerance) ⟨n, hn⟩ = ∅ := by
          refine Finset.eq_empty_of_forall_notMem fun q hq => parentsOf_none hparent.symm q ?_
          exact (h.inside_iff _ _).mp (mem_containers.mp hq)
        rw [show count n = _ from hcount ⟨n, hn⟩, hempty]
        rfl
    | some p =>
        obtain ⟨j, rfl, hinside, hleast⟩ := h.parent_some hp
        rw [show count n = _ from hcount ⟨n, hn⟩, hlaminar.card_containers (fun a ha => lt_irrefl _ ha.area_lt) hinside hleast]
        exact congrArg (· + 1) (hcount j).symm
  · have hnone : (parentsOf areas polylines tolerance).getD n none = none := by
      have hlength : (parentsOf areas polylines tolerance).length = forest.nodes.length := by
        rw [length_parentsOf, h.length_eq]
      rw [List.getD_eq_getElem?_getD, List.getElem?_eq_none (hlength ▸ not_lt.mp hn)]
      rfl
    rw [hnone]
    exact dif_neg hn

/-- A contour is one level below its parent. -/
theorem BuiltFrom.depth_eq_succ (h : BuiltFrom forest contours tolerance areas polylines) {i j : Fin forest.nodes.length}
    (hparent : (forest.nodes.get i).parentIndex = some ↑j) :
    (forest.nodes.get i).depth = (forest.nodes.get j).depth + 1 := by
  have hgrow := parentsOf_grow areas polylines tolerance
  rw [← length_parentsOf areas polylines tolerance] at hgrow
  obtain ⟨depth, hdepth⟩ := exists_depth hgrow
  rw [h.depth_eq depth hdepth i, h.depth_eq depth hdepth j, hdepth, ← h.parent_eq i, hparent]
  rfl

/-- The areas with their signs, as a sum over the nodes. -/
theorem netAreaMm2_eq (forest : ContourForest) : forest.netAreaMm2 =
    ∑ i : Fin forest.nodes.length, (-1 : ℝ) ^ (forest.nodes.get i).depth * (forest.nodes.get i).areaMm2 := by
  have hsign (depth : Nat) : (if depth % 2 = 0 then 1 else -1 : ℝ) = (-1) ^ depth := by
    rcases Nat.even_or_odd depth with heven | hodd
    · rw [if_pos (Nat.even_iff.mp heven), heven.neg_one_pow]
    · rw [if_neg (by rw [Nat.odd_iff.mp hodd]; decide), hodd.neg_one_pow]
  rw [netAreaMm2, ← Fin.sum_univ_fun_getElem]
  refine Finset.sum_congr rfl fun i _ => ?_
  rw [hsign, mul_comm]
  rfl

end ContourForest

/-! ## Main result -/

theorem square_two_le (x : ℝ) :
    2 ≤ ([⟨x, x⟩, ⟨x + 2, x⟩, ⟨x + 2, x + 2⟩, ⟨x, x + 2⟩] : List Point2D).length :=
  Nat.le_add_left 2 2

/-- A square of side two. -/
def square (x : ℝ) : Polyline2D := ⟨[⟨x, x⟩, ⟨x + 2, x⟩, ⟨x + 2, x + 2⟩, ⟨x, x + 2⟩], true, square_two_le x⟩

/-- What a square encloses. -/
def squareRegion (x : ℝ) : Set (ℝ × ℝ) := Set.Icc x (x + 2) ×ˢ Set.Icc x (x + 2)

theorem square_area (x : ℝ) : Contour.area (.polyline (square x)) = .ok 4 := by
  have harea : (square x).signedArea = 4 := by
    simp only [Polyline2D.signedArea, square, List.tail_cons, List.take_succ_cons, List.take_zero, List.cons_append,
      List.nil_append, List.zip_cons_cons, List.zip_nil_right, List.map_cons, List.map_nil, List.sum_cons, List.sum_nil]
    ring
  rw [Contour.area, signedContourArea, if_pos (show (square x).closed = true from rfl), harea]
  norm_num [Functor.map, Except.map]

theorem squareRegion_ne_top (x : ℝ) : MeasureTheory.volume (squareRegion x) ≠ ⊤ :=
  (isCompact_Icc.prod isCompact_Icc).measure_ne_top

theorem volume_squareRegion (x : ℝ) : MeasureTheory.volume.real (squareRegion x) = 4 := by
  rw [squareRegion, MeasureTheory.Measure.volume_eq_prod, MeasureTheory.measureReal_prod_prod,
    Real.volume_real_Icc_of_le (by linarith)]
  ring

theorem volume_overlap : MeasureTheory.volume.real (squareRegion 0 ∪ squareRegion 1) = 7 := by
  have hinter : squareRegion 0 ∩ squareRegion 1 = Set.Icc 1 2 ×ˢ Set.Icc 1 2 := by
    rw [squareRegion, squareRegion, Set.prod_inter_prod, Set.Icc_inter_Icc]
    norm_num
  have hcommon : MeasureTheory.volume.real (squareRegion 0 ∩ squareRegion 1) = 1 := by
    rw [hinter, MeasureTheory.Measure.volume_eq_prod, MeasureTheory.measureReal_prod_prod,
      Real.volume_real_Icc_of_le (by norm_num)]
    norm_num
  have hmeasurable : MeasurableSet (squareRegion 1) := measurableSet_Icc.prod measurableSet_Icc
  have hsum := MeasureTheory.measureReal_union_add_inter hmeasurable (squareRegion_ne_top 0) (squareRegion_ne_top 1)
  rw [hcommon, volume_squareRegion, volume_squareRegion] at hsum
  linarith

theorem squares_built : ∃ forest, ContourForest.build [.polyline (square 0), .polyline (square 1)] {} = .ok forest ∧
    forest.nodes.length = 2 ∧ ∀ i, (forest.nodes.get i).areaMm2 = 4 ∧ (forest.nodes.get i).depth = 0 := by
  have hareas : [Contour.polyline (square 0), .polyline (square 1)].mapM Contour.area = .ok [4, 4] := by
    rw [Fallible.mapM_eq_ok]
    exact .cons (square_area 0) (.cons (square_area 1) .nil)
  have hpolylines : [Contour.polyline (square 0), .polyline (square 1)].mapM (asPolyline {}) = .ok [square 0, square 1] :=
    rfl
  obtain ⟨forest, hbuild, hbuilt⟩ := ContourForest.builtFrom_of_areas (by simp [square]) hareas hpolylines
  have hlength : forest.nodes.length = 2 := hbuilt.length_eq.symm
  have harea (i : Nat) (hi : i < 2) : ([4, 4] : List ℝ).getD i 0 = 4 := by
    interval_cases i <;> rfl
  have hroot (i : Nat) : (ContourForest.parentsOf [4, 4] [square 0, square 1] {}).getD i none = none := by
    cases hp : (ContourForest.parentsOf [4, 4] [square 0, square 1] {}).getD i none with
    | none => rfl
    | some p =>
        obtain ⟨child, parent, hi, hj, hlt, -⟩ := (parentsOf_some hp).1
        rw [harea i (List.getElem?_eq_some_iff.mp hi).1, harea p (List.getElem?_eq_some_iff.mp hj).1] at hlt
        exact absurd hlt (lt_irrefl _)
  refine ⟨forest, hbuild, hlength, fun i => ⟨?_, ?_⟩⟩
  · rw [hbuilt.area_eq, harea i (hlength ▸ i.isLt)]
  · refine hbuilt.depth_eq (fun _ => 0) (fun n => ?_) i
    rw [hroot]
    rfl

end CadHarness.Geometry
