import CadHarness.Comprehension.Recognizer
import CadHarness.Geometry.Extents

/-!
# Grids that come again

A grid is reported with the mean of its pitches, whatever they are. Its parameters generate its holes again exactly
when its columns and its rows are even.
-/

namespace CadHarness.Comprehension
open CadHarness.Geometry CadHarness.Lib

/-! ## One to one -/

/-- The points match the centers one to one, each within the coincidence tolerance. -/
def Matches (tolerance : ToleranceProfile) (centers points : List Point2D) : Prop :=
  ∃ ordered : List Point2D, ordered.Perm points ∧
    List.Forall₂ (fun p q => tolerance.IsCoincident (p.distanceTo q)) centers ordered

section Matching

variable {tolerance : ToleranceProfile} {ι κ : Type} {center : ι → Point2D} {point : κ → Point2D} {holes : List ι}
  {places : List κ}

theorem matches_map : Matches tolerance (holes.map center) (places.map point) ↔ ∃ chosen : List κ,
    chosen.Perm places ∧ List.Forall₂ (fun hole place => tolerance.IsCoincident ((center hole).distanceTo (point place)))
      holes chosen := by
  constructor
  · rintro ⟨ordered, hperm, hclose⟩
    have hplaces : List.Forall₂ (fun q place => q = point place) (places.map point) places :=
      List.forall₂_map_left_iff.mpr (List.forall₂_same.mpr fun _ _ => rfl)
    obtain ⟨chosen, hchosen, hperm'⟩ := List.perm_comp_forall₂ hperm hplaces
    refine ⟨chosen, hperm', ?_⟩
    have heq : ordered = chosen.map point := by
      rw [← List.forall₂_eq_eq_eq, List.forall₂_map_right_iff]
      exact hchosen
    rw [heq, List.forall₂_map_left_iff, List.forall₂_map_right_iff] at hclose
    exact hclose
  · rintro ⟨chosen, hperm, hclose⟩
    refine ⟨chosen.map point, hperm.map point, ?_⟩
    rw [List.forall₂_map_left_iff, List.forall₂_map_right_iff]
    exact hclose

end Matching

/-! ## Rows and columns -/

noncomputable section
open Classical

/-- The number of a level on even steps from the first group of values to the last. -/
def evenLevel (groups : List (List ℝ)) (i : Nat) : ℝ :=
  mean (groups.headD []) + i * ((mean (groups.getLastD []) - mean (groups.headD [])) / (groups.length - 1))

section Levels

variable {groups : List (List ℝ)} {levels : List ℝ} {gap : ℝ} {values : List ℝ}

theorem sum_steps (first : ℝ) (rest : List ℝ) :
    (((first :: rest).zip rest).map fun step => step.2 - step.1).sum = rest.getLastD first - first := by
  induction rest generalizing first with
  | nil => simp
  | cons second rest ih =>
      rw [List.zip_cons_cons, List.map_cons, List.sum_cons, ih second, List.getLastD_cons]
      ring

theorem evenLevel_eq (hne : groups ≠ []) (i : Nat) :
    (groups.map mean).headD 0 + i * meanPitch (groups.map mean) = evenLevel groups i := by
  cases groups with
  | nil => exact absurd rfl hne
  | cons first rest =>
      have hlast : (rest.map mean).getLastD (mean first) = mean ((first :: rest).getLastD []) := by
        rw [List.getLastD_map, List.getLastD_cons]
      rw [meanPitch, List.map_cons, List.tail_cons, sum_steps, hlast]
      simp [evenLevel]

theorem meanPitch_eq_mean (hlength : 2 ≤ levels.length) :
    meanPitch levels = mean ((levels.zip levels.tail).map fun step => step.2 - step.1) := by
  have hcount : ((levels.zip levels.tail).map fun step => step.2 - step.1).length = levels.length - 1 := by simp
  rw [meanPitch, mean, hcount, Nat.cast_sub (by omega), Nat.cast_one]

/-- The pitch is as wide as the gap between the levels at least. -/
theorem lt_meanPitch (hlength : 2 ≤ levels.length) (hapart : levels.Pairwise fun a b => a + gap < b) :
    gap < meanPitch levels := by
  rw [meanPitch_eq_mean hlength]
  apply lt_mean
  · rw [← List.length_pos_iff]
    simp
    omega
  · intro step hstep
    obtain ⟨⟨a, b⟩, hmem, rfl⟩ := List.mem_map.mp hstep
    obtain ⟨k, hk, hzip⟩ := List.mem_iff_getElem.mp hmem
    rw [List.getElem_zip, Prod.mk.injEq, List.getElem_tail] at hzip
    rw [List.length_zip, List.length_tail] at hk
    obtain ⟨rfl, rfl⟩ := hzip
    have := List.pairwise_iff_getElem.mp hapart k (k + 1) (by omega) (by omega) (by omega)
    dsimp only
    linarith

theorem levels_apart (hgap : 0 ≤ gap) : ((runs gap values).map mean).Pairwise fun a b => a + gap < b :=
  List.pairwise_map.mpr ((runs_apart hgap).imp Apart.mean_lt)

/-- Of two values in different runs, the lower one lies closer to the lower even level. -/
theorem evenLevel_mono (hgap : 0 ≤ gap) (hlength : 2 ≤ (runs gap values).length) {i j m m' : Nat} {run run' : List ℝ}
    {u v : ℝ} (hi : (runs gap values)[i]? = some run) (hu : u ∈ run) (hj : (runs gap values)[j]? = some run')
    (hv : v ∈ run') (hij : i < j) (hm : |u - evenLevel (runs gap values) m| ≤ gap)
    (hm' : |v - evenLevel (runs gap values) m'| ≤ gap) : m ≤ m' := by
  by_contra hlt
  rw [not_le] at hlt
  have hne : runs gap values ≠ [] := List.length_pos_iff.mp (by omega)
  have hpitch : gap < meanPitch ((runs gap values).map mean) :=
    lt_meanPitch (by rwa [List.length_map]) (levels_apart hgap)
  rw [← evenLevel_eq hne, abs_le] at hm hm'
  have hstep : ((m' : ℝ) + 1) * meanPitch ((runs gap values).map mean) ≤
      m * meanPitch ((runs gap values).map mean) := by
    have : (m' : ℝ) + 1 ≤ m := by exact_mod_cast hlt
    exact mul_le_mul_of_nonneg_right this (hgap.trans hpitch.le)
  have hapart := (apart_of_lt hgap hi hj hij).2.2 u hu v hv
  linarith

end Levels

/-! ## Grids -/

variable (tolerance : ToleranceProfile) (group : List CircleDatum)

def columns : List (List ℝ) := axisGroups tolerance (group.map fun item => item.center.x)

def rows : List (List ℝ) := axisGroups tolerance (group.map fun item => item.center.y)

/-- The hole lies in the column and in the row of these numbers. -/
def InCell (hole : CircleDatum) (cell : Nat × Nat) : Prop :=
  (∃ column, (columns tolerance group)[cell.1]? = some column ∧ hole.center.x ∈ column) ∧
    ∃ row, (rows tolerance group)[cell.2]? = some row ∧ hole.center.y ∈ row

def evenPoint (cell : Nat × Nat) : Point2D :=
  ⟨evenLevel (columns tolerance group) cell.1, evenLevel (rows tolerance group) cell.2⟩

/-- Each hole lies where its column and its row would be if they were even. -/
def OnEvenGrid : Prop := ∀ hole ∈ group, ∀ cell, InCell tolerance group hole cell →
  tolerance.IsCoincident (hole.center.distanceTo (evenPoint tolerance group cell))

/-- The cells of a grid, row by row. -/
def cells (countX countY : Nat) : List (Nat × Nat) :=
  (List.range countY).flatMap fun iy => (List.range countX).map fun ix => (ix, iy)

theorem mem_cells {countX countY : Nat} {cell : Nat × Nat} : cell ∈ cells countX countY ↔
    cell.1 < countX ∧ cell.2 < countY := by
  obtain ⟨ix, iy⟩ := cell
  simp [cells, and_comm]

theorem length_cells (countX countY : Nat) : (cells countX countY).length = countX * countY := by
  simp [cells, List.length_flatMap, Nat.mul_comm]

theorem nodup_cells (countX countY : Nat) : (cells countX countY).Nodup := by
  rw [cells, List.nodup_flatMap]
  refine ⟨fun iy _ => List.Nodup.map (fun a b h => (Prod.mk.inj h).1) List.nodup_range, ?_⟩
  refine List.nodup_range.imp fun {iy iy'} hne => ?_
  rw [Function.onFun, List.disjoint_left]
  intro cell hcell hcell'
  obtain ⟨ix, -, rfl⟩ := List.mem_map.mp hcell
  obtain ⟨ix', -, heq⟩ := List.mem_map.mp hcell'
  exact hne (Prod.mk.inj heq).2.symm

variable {tolerance group}

theorem InCell.unique (hgap : 0 ≤ tolerance.coincidenceMm) {hole : CircleDatum} {cell cell' : Nat × Nat}
    (h : InCell tolerance group hole cell) (h' : InCell tolerance group hole cell') : cell = cell' := by
  obtain ⟨⟨column, hcolumn, hx⟩, row, hrow, hy⟩ := h
  obtain ⟨⟨column', hcolumn', hx'⟩, row', hrow', hy'⟩ := h'
  exact Prod.ext (run_unique hgap hcolumn hcolumn' hx hx') (run_unique hgap hrow hrow' hy hy')

theorem exists_inCell {hole : CircleDatum} (hhole : hole ∈ group) : ∃ cell, InCell tolerance group hole cell := by
  obtain ⟨i, column, hcolumn, hx⟩ := exists_run tolerance.coincidenceMm
    (List.mem_map_of_mem (f := fun item : CircleDatum => item.center.x) hhole)
  obtain ⟨j, row, hrow, hy⟩ := exists_run tolerance.coincidenceMm
    (List.mem_map_of_mem (f := fun item : CircleDatum => item.center.y) hhole)
  exact ⟨(i, j), ⟨column, hcolumn, hx⟩, row, hrow, hy⟩

/-- What `_rectangular_pattern` checks. -/
structure IsGrid (tolerance : ToleranceProfile) (group : List CircleDatum) : Prop where
  two_columns : 2 ≤ (columns tolerance group).length
  two_rows : 2 ≤ (rows tolerance group).length
  size : (columns tolerance group).length * (rows tolerance group).length = group.length
  filled : ∀ x ∈ (columns tolerance group).map mean, ∀ y ∈ (rows tolerance group).map mean,
    ∃ hole ∈ group, tolerance.IsCoincident (hole.center.distanceTo ⟨x, y⟩)

theorem distanceTo_nonneg (p q : Point2D) : 0 ≤ p.distanceTo q := Real.sqrt_nonneg _

namespace IsGrid

theorem coincidence_nonneg (h : IsGrid tolerance group) : 0 ≤ tolerance.coincidenceMm := by
  obtain ⟨column, hcolumn⟩ := List.exists_mem_of_ne_nil (columns tolerance group)
    (List.length_pos_iff.mp (by have := h.two_columns; omega))
  obtain ⟨row, hrow⟩ := List.exists_mem_of_ne_nil (rows tolerance group)
    (List.length_pos_iff.mp (by have := h.two_rows; omega))
  obtain ⟨hole, -, hclose⟩ := h.filled _ (List.mem_map_of_mem hcolumn) _ (List.mem_map_of_mem hrow)
  exact (distanceTo_nonneg _ _).trans hclose

/-- Each cell has a hole: what is close to a column and a row belongs to them. -/
theorem exists_hole (h : IsGrid tolerance group) {cell : Nat × Nat}
    (hcell : cell ∈ cells (columns tolerance group).length (rows tolerance group).length) :
    ∃ hole ∈ group, InCell tolerance group hole cell := by
  obtain ⟨hi, hj⟩ := mem_cells.mp hcell
  have hcolumn := List.getElem?_eq_getElem hi
  have hrow := List.getElem?_eq_getElem hj
  obtain ⟨hole, hmem, hclose⟩ := h.filled _ (List.mem_map_of_mem (List.getElem_mem hi)) _
    (List.mem_map_of_mem (List.getElem_mem hj))
  have hx := (Point2D.abs_x_sub_le hole.center _).trans hclose
  have hy := (Point2D.abs_y_sub_le hole.center _).trans hclose
  refine ⟨hole, hmem, ⟨_, hcolumn, ?_⟩, _, hrow, ?_⟩
  · exact mem_run_of_near h.coincidence_nonneg
      (List.mem_map_of_mem (f := fun item : CircleDatum => item.center.x) hmem) hcolumn hx
  · exact mem_run_of_near h.coincidence_nonneg
      (List.mem_map_of_mem (f := fun item : CircleDatum => item.center.y) hmem) hrow hy

/-- There is one hole in each cell. -/
theorem cells_perm (h : IsGrid tolerance group) {cell : CircleDatum → Nat × Nat}
    (hcell : ∀ hole ∈ group, InCell tolerance group hole (cell hole)) :
    (group.map cell).Perm (cells (columns tolerance group).length (rows tolerance group).length) := by
  have hsubset : cells (columns tolerance group).length (rows tolerance group).length ⊆ group.map cell := by
    intro c hc
    obtain ⟨hole, hmem, hin⟩ := h.exists_hole hc
    exact List.mem_map.mpr ⟨hole, hmem, (hcell hole hmem).unique h.coincidence_nonneg hin⟩
  refine ((List.subperm_of_subset (nodup_cells _ _) hsubset).perm_of_length_le ?_).symm
  rw [List.length_map, length_cells, h.size]

/-- A grid comes again exactly when it is even. -/
theorem matches_iff (h : IsGrid tolerance group) : Matches tolerance (group.map CircleDatum.center)
      ((cells (columns tolerance group).length (rows tolerance group).length).map (evenPoint tolerance group)) ↔
    OnEvenGrid tolerance group := by
  have hgap := h.coincidence_nonneg
  have hsome : ∀ hole : CircleDatum, ∃ cell, hole ∈ group → InCell tolerance group hole cell := by
    intro hole
    by_cases hhole : hole ∈ group
    · obtain ⟨cell, hcell⟩ := exists_inCell hhole
      exact ⟨cell, fun _ => hcell⟩
    · exact ⟨(0, 0), fun hmem => absurd hmem hhole⟩
  choose cell hcell using hsome
  have hperm := h.cells_perm hcell
  rw [matches_map]
  constructor
  · rintro ⟨chosen, hchosen, hclose⟩
    have hvalues (axis : Nat × Nat → Nat) :
        (group.map fun hole => axis (cell hole)).Perm (chosen.map axis) := by
      have := (hperm.trans hchosen.symm).map axis
      rwa [List.map_map] at this
    have hcolumns := forall₂_same_ranks hclose (hvalues Prod.fst) fun a ha b hb p q hp hq hlt => by
      obtain ⟨⟨column, hcolumn, hx⟩, -⟩ := hcell a ha
      obtain ⟨⟨column', hcolumn', hx'⟩, -⟩ := hcell b hb
      exact evenLevel_mono hgap h.two_columns hcolumn hx hcolumn' hx' hlt
        ((Point2D.abs_x_sub_le _ _).trans hp) ((Point2D.abs_x_sub_le _ _).trans hq)
    have hrows := forall₂_same_ranks hclose (hvalues Prod.snd) fun a ha b hb p q hp hq hlt => by
      obtain ⟨-, row, hrow, hy⟩ := hcell a ha
      obtain ⟨-, row', hrow', hy'⟩ := hcell b hb
      exact evenLevel_mono hgap h.two_rows hrow hy hrow' hy' hlt
        ((Point2D.abs_y_sub_le _ _).trans hp) ((Point2D.abs_y_sub_le _ _).trans hq)
    intro hole hhole c hc
    obtain ⟨k, hk, rfl⟩ := List.mem_iff_getElem.mp hhole
    have hk' : k < chosen.length := hclose.length_eq ▸ hk
    obtain ⟨hnear, hcolumn⟩ := hcolumns.get hk hk'
    obtain ⟨-, hrow⟩ := hrows.get hk hk'
    have heq : c = chosen.get ⟨k, hk'⟩ := by
      rw [hc.unique hgap (hcell _ hhole)]
      exact Prod.ext hcolumn hrow
    rw [heq]
    exact hnear
  · intro heven
    refine ⟨group.map cell, hperm, ?_⟩
    rw [List.forall₂_map_right_iff, List.forall₂_same]
    exact fun hole hhole => heven hole hhole _ (hcell hole hhole)

end IsGrid

/-! ## Holes from parameters -/

/-- The centers that the parameters of a feature generate, with the counts rounded. -/
def RecognizedFeature.generatedCenters (feature : RecognizedFeature) : Except KernelError (List Point2D) := do
  match feature.featureType with
  | .circularHole => return [⟨← feature.value "center_x_mm", ← feature.value "center_y_mm"⟩]
  | .rectangularHolePattern =>
      rectangularGrid ⟨← feature.value "origin_x_mm", ← feature.value "origin_y_mm"⟩
        (round (← feature.value "count_x")) (round (← feature.value "count_y"))
        (← feature.value "pitch_x_mm") (← feature.value "pitch_y_mm")
  | .boltCirclePattern =>
      boltCircle ⟨← feature.value "center_x_mm", ← feature.value "center_y_mm"⟩ (← feature.value "pcd_mm")
        (round (← feature.value "count")) (← feature.value "start_angle_deg")

theorem rectangularGrid_cells {origin : Point2D} {countX countY : Nat} {pitchX pitchY : ℝ} (hx : 1 ≤ countX)
    (hy : 1 ≤ countY) (hpitchX : 0 < pitchX) (hpitchY : 0 < pitchY) :
    rectangularGrid origin (countX : ℤ) (countY : ℤ) pitchX pitchY = .ok ((cells countX countY).map fun cell =>
      ⟨origin.x + cell.1 * pitchX, origin.y + cell.2 * pitchY⟩) := by
  rw [rectangularGrid, if_neg (by omega), if_neg (by simp [hpitchX, hpitchY]), cells, List.map_flatMap]
  simp [List.flatMap_assoc, List.map_eq_flatMap]

theorem generatedCenters_grid {refs : List String} {evidence : List (String × ℝ)} {diameter pitchX pitchY x y : ℝ}
    {countX countY : Nat} :
    (feature .rectangularHolePattern refs [("hole_diameter_mm", diameter, .mm), ("count_x", countX, .count),
      ("count_y", countY, .count), ("pitch_x_mm", pitchX, .mm), ("pitch_y_mm", pitchY, .mm), ("origin_x_mm", x, .mm),
      ("origin_y_mm", y, .mm)] evidence).generatedCenters =
        rectangularGrid ⟨x, y⟩ (countX : ℤ) (countY : ℤ) pitchX pitchY := by
  have hround : (feature .rectangularHolePattern refs [("hole_diameter_mm", diameter, .mm), ("count_x", countX, .count),
      ("count_y", countY, .count), ("pitch_x_mm", pitchX, .mm), ("pitch_y_mm", pitchY, .mm), ("origin_x_mm", x, .mm),
      ("origin_y_mm", y, .mm)] evidence).generatedCenters =
        rectangularGrid ⟨x, y⟩ (round (countX : ℝ)) (round (countY : ℝ)) pitchX pitchY := rfl
  rw [hround, round_natCast, round_natCast]

/-- The pitches of a grid are positive, and its parameters generate the points on even levels. -/
theorem IsGrid.generated (h : IsGrid tolerance group) :
    rectangularGrid
        ⟨((columns tolerance group).map mean).headD 0, ((rows tolerance group).map mean).headD 0⟩
        (((columns tolerance group).map mean).length : ℤ) (((rows tolerance group).map mean).length : ℤ)
        (meanPitch ((columns tolerance group).map mean)) (meanPitch ((rows tolerance group).map mean)) =
      .ok ((cells (columns tolerance group).length (rows tolerance group).length).map (evenPoint tolerance group)) := by
  have hgap := h.coincidence_nonneg
  have hcolumns : 0 < meanPitch ((columns tolerance group).map mean) :=
    hgap.trans_lt (lt_meanPitch (by rw [List.length_map]; exact h.two_columns) (levels_apart hgap))
  have hrows : 0 < meanPitch ((rows tolerance group).map mean) :=
    hgap.trans_lt (lt_meanPitch (by rw [List.length_map]; exact h.two_rows) (levels_apart hgap))
  rw [List.length_map, List.length_map, rectangularGrid_cells (one_le_two.trans h.two_columns)
    (one_le_two.trans h.two_rows) hcolumns hrows]
  congr 2
  funext cell
  have hx := List.length_pos_iff.mp (zero_lt_two.trans_le h.two_columns)
  have hy := List.length_pos_iff.mp (zero_lt_two.trans_le h.two_rows)
  rw [evenPoint, evenLevel_eq hx, evenLevel_eq hy]

/-- A grid that is reported was found, and the holes of its parameters lie on even levels. -/
theorem rectangularPattern_some {made : RecognizedFeature} (h : rectangularPattern tolerance group = some made) :
    IsGrid tolerance group ∧ made.featureType = .rectangularHolePattern ∧
      made.entityRefs = group.map CircleDatum.entityRef ∧ made.generatedCenters =
        .ok ((cells (columns tolerance group).length (rows tolerance group).length).map (evenPoint tolerance group)) := by
  unfold rectangularPattern at h
  split at h
  · cases h
  next hole rest =>
  dsimp only at h
  split at h
  · cases h
  split at h
  · cases h
  next hcounts =>
  split at h
  · cases h
  next hfilled =>
  rw [not_or, not_or, not_lt, not_lt, not_not] at hcounts
  rw [not_not] at hfilled
  obtain ⟨hx, hy, hsize⟩ := hcounts
  have hgrid : IsGrid tolerance (hole :: rest) := by
    rw [axisLevels, List.length_map] at hx hy
    rw [axisLevels, axisLevels, List.length_map, List.length_map] at hsize
    exact ⟨hx, hy, hsize, hfilled⟩
  obtain ⟨rfl⟩ := h
  refine ⟨hgrid, rfl, rfl, ?_⟩
  rw [generatedCenters_grid]
  exact hgrid.generated

end

end CadHarness.Comprehension
