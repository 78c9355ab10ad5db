import CadHarness.Geometry.ContainmentTheorems
import CadHarness.Geometry.FilletTheorems
import CadHarness.Geometry.ForestTheorems
import CadHarness.Geometry.PolylineTheorems
import CadHarness.Geometry.TracingTheorems
import CadHarness.Lib.Containment
import CadHarness.Lib.Fallible
import CadHarness.Takeoff.NetArea
import CadHarness.Validation.HoleTheorems
import Mathlib.LinearAlgebra.Complex.FiniteDimensional
import Mathlib.MeasureTheory.Measure.Lebesgue.EqHaar
import Mathlib.MeasureTheory.Measure.Lebesgue.Complex

/-!
# When net areas are those of the openings

Only circles are tested for overlap. The net area of a part is that of its outline without its openings, and with what
lies in these, unless contours of another shape overlap below the same parent.
-/

namespace CadHarness.Takeoff
open CadHarness.Geometry CadHarness.Lib MeasureTheory
open CadHarness.Validation (orderedPairs forall_orderedPairs)

noncomputable section
open Classical

/-! ## Ways up the forest -/

section forest

variable {forest : ContourForest} {contours : List Contour} {tolerance : ToleranceProfile} {areas : List ℝ}
  {polylines : List Polyline2D} {i p root : Nat}

/-- The second contour is the parent of the first. -/
def Below (forest : ContourForest) (i p : Nat) : Prop := parentOf forest i = some p

theorem parentOf_eq (h : forest.BuiltFrom contours tolerance areas polylines) (i : Nat) :
    parentOf forest i = (ContourForest.parentsOf areas polylines tolerance).getD i none := by
  rcases Nat.lt_or_ge i forest.nodes.length with hi | hi
  · rw [parentOf, List.getElem?_eq_getElem hi, Option.bind_some]
    exact h.parent_eq ⟨i, hi⟩
  · rw [parentOf, List.getElem?_eq_none hi, List.getD_eq_getElem?_getD, List.getElem?_eq_none]
    · rfl
    · rwa [length_parentsOf, h.length_eq]

theorem Below.lt_length (h : Below forest i p) : i < forest.nodes.length := by
  by_contra hge
  rw [Below, parentOf, List.getElem?_eq_none (not_lt.mp hge)] at h
  cases h

theorem Below.grow (h : forest.BuiltFrom contours tolerance areas polylines) (hp : Below forest i p) :
    p < forest.nodes.length ∧ areas.getD i 0 < areas.getD p 0 := by
  rw [Below, parentOf_eq h] at hp
  exact h.length_eq ▸ parentsOf_grow areas polylines tolerance i p hp

/-- A way up that is long enough comes to the root if there is one. -/
theorem reaches_iff (h : forest.BuiltFrom contours tolerance areas polylines) {fuel : Nat} (hi : i < forest.nodes.length)
    (hfuel : rank areas forest.nodes.length i ≤ fuel) :
    reaches forest root fuel (some i) ↔ Relation.ReflTransGen (Below forest) i root := by
  induction fuel generalizing i with
  | zero => exact absurd (rank_pos hi) (not_lt.mpr hfuel)
  | succ fuel ih =>
      rw [reaches, Relation.ReflTransGen.cases_head_iff]
      refine or_congr_right ?_
      cases hparent : parentOf forest i with
      | none =>
          have hnone : ¬ reaches forest root fuel none := by cases fuel <;> exact not_false
          refine iff_of_false hnone ?_
          rintro ⟨p, hp, -⟩
          rw [Below, hparent] at hp
          cases hp
      | some p =>
          obtain ⟨hp, hlt⟩ := Below.grow h hparent
          rw [ih hp (Nat.le_of_lt_succ ((rank_lt hi hlt).trans_le hfuel))]
          constructor
          · exact fun hway => ⟨p, hparent, hway⟩
          · rintro ⟨q, hq, hway⟩
            rw [Below, hparent] at hq
            exact Option.some.inj hq ▸ hway

theorem mem_descendants (h : forest.BuiltFrom contours tolerance areas polylines) :
    i ∈ descendants forest root ↔ i < forest.nodes.length ∧ Relation.ReflTransGen (Below forest) i root := by
  rw [descendants, List.mem_filter, List.mem_range, decide_eq_true_eq]
  exact and_congr_right fun hi => reaches_iff h hi rank_le

theorem descendants_sorted (forest : ContourForest) (root : Nat) : (descendants forest root).Pairwise (· < ·) :=
  List.Pairwise.filter _ List.pairwise_lt_range

/-- What is below a root is the root, or has its parent below the root. -/
theorem descendants_up (h : forest.BuiltFrom contours tolerance areas polylines) (hi : i ∈ descendants forest root)
    (hne : i ≠ root) : ∃ p ∈ descendants forest root, Below forest i p := by
  obtain ⟨-, hway⟩ := (mem_descendants h).mp hi
  rcases Relation.ReflTransGen.cases_head hway with heq | ⟨p, hp, hway⟩
  · exact absurd heq hne
  · exact ⟨p, (mem_descendants h).mpr ⟨(Below.grow h hp).1, hway⟩, hp⟩

theorem descendants_of_below (h : forest.BuiltFrom contours tolerance areas polylines) (hp : Below forest i p)
    (hmem : p ∈ descendants forest root) : i ∈ descendants forest root :=
  (mem_descendants h).mpr ⟨hp.lt_length, .head hp ((mem_descendants h).mp hmem).2⟩

theorem root_mem_descendants (h : forest.BuiltFrom contours tolerance areas polylines) (hroot : root < forest.nodes.length) :
    root ∈ descendants forest root :=
  (mem_descendants h).mpr ⟨hroot, .refl⟩

/-- A contour without a parent is below no other. -/
theorem eq_of_descendants (h : forest.BuiltFrom contours tolerance areas polylines) (htop : parentOf forest i = none)
    (hi : i ∈ descendants forest root) : i = root := by
  by_contra hne
  obtain ⟨p, -, hp⟩ := descendants_up h hi hne
  rw [Below, htop] at hp
  cases hp

/-! ## Signs -/

theorem areaSign_self (forest : ContourForest) (root : Nat) : areaSign forest root root = 1 := by
  rw [areaSign, sub_self]
  exact if_pos rfl

theorem areaSign_below (h : forest.BuiltFrom contours tolerance areas polylines) (hp : Below forest i p) :
    areaSign forest root i = -areaSign forest root p := by
  have hi := hp.lt_length
  have hlt := (Below.grow h hp).1
  have hparent : (forest.nodes.get ⟨i, hi⟩).parentIndex = some p := by
    rwa [Below, parentOf, List.getElem?_eq_getElem hi, Option.bind_some] at hp
  have hdepth := h.depth_eq_succ (j := ⟨p, hlt⟩) hparent
  simp only [areaSign, List.getElem?_eq_getElem hi, List.getElem?_eq_getElem hlt, Option.elim_some]
  rw [List.get_eq_getElem, List.get_eq_getElem] at hdepth
  rw [hdepth]
  by_cases heven : ((forest.nodes[p].depth : ℤ) - (forest.nodes[root]?.elim 0 ContourNode.depth : Nat)) % 2 = 0
  · rw [if_pos heven, if_neg (by push_cast; omega)]
  · rw [if_neg heven, if_pos (by push_cast; omega), neg_neg]

end forest

/-! ## Overlapping pairs -/

section pairs

theorem mem_orderedPairs {α : Type} {l : List α} {x y : α} :
    (x, y) ∈ (orderedPairs l).map (fun pair => (pair.1.1, pair.2.1)) ↔ [x, y].Sublist l := by
  have hpairs := @forall_orderedPairs α l fun a b => (a, b) ≠ (x, y)
  rw [List.pairwise_iff_forall_sublist] at hpairs
  constructor
  · intro hmem
    obtain ⟨pair, hpair, heq⟩ := List.mem_map.mp hmem
    by_contra hnot
    exact hpairs.mpr (fun {a b} hsub heq => hnot (by cases heq; exact hsub)) pair hpair heq
  · intro hsub
    by_contra hnot
    refine hpairs.mp (fun pair hpair heq => hnot ?_) hsub rfl
    exact List.mem_map.mpr ⟨pair, hpair, heq⟩

/-- In a list that is sorted by a key, an earlier entry has a smaller key. -/
theorem pair_sublist_iff {α : Type} {key : α → Nat} {l : List α} (h : l.Pairwise (key · < key ·)) {x y : α} :
    [x, y].Sublist l ↔ x ∈ l ∧ y ∈ l ∧ key x < key y := by
  constructor
  · intro hsub
    refine ⟨hsub.subset (by simp), hsub.subset (by simp), ?_⟩
    exact List.pairwise_iff_forall_sublist.mp h hsub
  · rintro ⟨hx, hy, hlt⟩
    induction l with
    | nil => cases hx
    | cons z l ih =>
        obtain ⟨hz, h⟩ := List.pairwise_cons.mp h
        rcases List.mem_cons.mp hx with rfl | hrest
        · refine List.Sublist.cons_cons x (List.singleton_sublist.mpr ?_)
          exact (List.mem_cons.mp hy).resolve_left fun heq => hlt.ne (by rw [heq])
        · rcases List.mem_cons.mp hy with rfl | hy
          · exact absurd (hz x hrest) hlt.not_gt
          · exact (ih h hrest hy).cons z

variable {forest : ContourForest} {analysis : ContourAnalysis} {entities : List Drawing.EntityRecord}
  {indices : List Nat}

/-- The circle that the record of a contour holds. -/
def circleAt (analysis : ContourAnalysis) (entities : List Drawing.EntityRecord) (i : Nat) : Option (Point2D × ℝ) :=
  analysis.contours[i]?.bind (circleOf entities)

theorem mem_circlesAmong {x : Nat × Point2D × ℝ} :
    x ∈ circlesAmong analysis entities indices ↔ x.1 ∈ indices ∧ circleAt analysis entities x.1 = some x.2 := by
  obtain ⟨i, circle⟩ := x
  simp only [circlesAmong, List.mem_filterMap, Option.map_eq_some_iff, Prod.mk.injEq, circleAt]
  constructor
  · rintro ⟨i, hi, circle, hcircle, rfl, rfl⟩
    exact ⟨hi, hcircle⟩
  · rintro ⟨hi, hcircle⟩
    exact ⟨i, hi, circle, hcircle, rfl, rfl⟩

theorem circlesAmong_sorted (h : indices.Pairwise (· < ·)) :
    (circlesAmong analysis entities indices).Pairwise fun x y => x.1 < y.1 := by
  rw [circlesAmong, List.pairwise_filterMap]
  refine h.imp fun {i j} hlt x hx y hy => ?_
  obtain ⟨circle, -, rfl⟩ := Option.map_eq_some_iff.mp hx
  obtain ⟨circle', -, rfl⟩ := Option.map_eq_some_iff.mp hy
  exact hlt

theorem mem_overlappingPairs (h : indices.Pairwise (· < ·)) {x y : Nat × Point2D × ℝ} :
    (x, y) ∈ overlappingPairs forest analysis entities indices ↔
      x.1 ∈ indices ∧ y.1 ∈ indices ∧ x.1 < y.1 ∧ circleAt analysis entities x.1 = some x.2 ∧
        circleAt analysis entities y.1 = some y.2 ∧ parentOf forest x.1 = parentOf forest y.1 ∧
          CirclesOverlap x.2.1 (2 * x.2.2) y.2.1 (2 * y.2.2) 0 := by
  rw [overlappingPairs, List.mem_filter, mem_orderedPairs, pair_sublist_iff (circlesAmong_sorted h), mem_circlesAmong,
    mem_circlesAmong, decide_eq_true_eq]
  constructor
  · rintro ⟨⟨⟨hx, hcx⟩, ⟨hy, hcy⟩, hlt⟩, hparent, hover⟩
    exact ⟨hx, hy, hlt, hcx, hcy, hparent, hover⟩
  · rintro ⟨hx, hy, hlt, hcx, hcy, hparent, hover⟩
    exact ⟨⟨⟨hx, hcx⟩, ⟨hy, hcy⟩, hlt⟩, hparent, hover⟩

/-- What is excluded for an overlap. -/
theorem mem_excluded {i : Nat} : i ∈ (overlappingHoles forest analysis entities indices).1 ↔
    ∃ x y, (x, y) ∈ overlappingPairs forest analysis entities indices ∧ (i = x.1 ∨ i = y.1) := by
  simp [overlappingHoles]

end pairs

/-! ## Lines of parts -/

section lines

variable {casefold : String → String} {tolerance : ToleranceProfile}
  {outside : ContourAnalysis → Nat → List Nat → Except KernelError (List Validation.Finding)}
  {entities : List Drawing.EntityRecord} {line : PartLine}

/-- A line is of a root among the contours of entities of the drawing. -/
structure PartLine.Drawn (tolerance : ToleranceProfile) (entities : List Drawing.EntityRecord) (line : PartLine) : Prop where
  analyzed : ∃ boundary : List Drawing.EntityRecord, (∀ entity ∈ boundary, entity ∈ entities) ∧
    analyzeDrawing tolerance (boundaryRecords boundary) = .ok (line.analysis, line.forest)
  root_lt : line.rootIndex < line.forest.nodes.length
  root_top : parentOf line.forest line.rootIndex = none
  valid_eq : line.validIndices = Takeoff.validIndices line.forest line.analysis entities line.rootIndex
  net_eq : line.netAreaMm2 = netArea line.forest line.rootIndex line.validIndices
  reported : ∀ pair ∈ overlappingPairs line.forest line.analysis entities (descendants line.forest line.rootIndex),
    overlapFinding line.analysis pair ∈ line.findings

theorem partBoundaryModel_subset {part : PartInput} {index : Nat} {boundary : List Drawing.EntityRecord}
    (h : partBoundaryModel casefold entities part index = .ok boundary) : ∀ entity ∈ boundary, entity ∈ entities := by
  rw [partBoundaryModel] at h
  cases houtline : entityOf entities part.outlineEntityRef with
  | none =>
      rw [houtline] at h
      cases h
  | some outline =>
      simp only [houtline] at h
      split_ifs at h
      split at h
      · cases h
      · obtain rfl := Except.ok.inj h
        exact fun entity hentity => (List.mem_filter.mp hentity).1

theorem resolveRoot_ok {forest : ContourForest} {analysis : ContourAnalysis} {part : PartInput} {index root : Nat}
    (h : resolveRoot forest analysis part index = .ok root) :
    root < forest.nodes.length ∧ parentOf forest root = none := by
  rw [resolveRoot] at h
  split at h
  · next found heq =>
      obtain rfl := Except.ok.inj h
      have hmem : found ∈ [found] := List.mem_singleton_self found
      rw [← heq] at hmem
      obtain ⟨⟨⟨contour, node⟩, i⟩, hentry, rfl⟩ := List.mem_map.mp hmem
      obtain ⟨hentry, hkept⟩ := List.mem_filter.mp hentry
      have hget := List.mem_zipIdx_iff_getElem?.mp hentry
      rw [List.getElem?_zip_eq_some] at hget
      obtain ⟨hi, -⟩ := List.getElem?_eq_some_iff.mp hget.2
      refine ⟨hi, ?_⟩
      rw [parentOf, hget.2]
      exact (of_decide_eq_true hkept).1
  · cases h

theorem partLine_drawn {usedRoots : List (Finset String)} {part : PartInput} {index : Nat}
    (h : partLine casefold tolerance outside entities usedRoots part index = .ok line) : line.Drawn tolerance entities := by
  obtain ⟨boundary, hboundary, h⟩ := Fallible.bind_eq_ok.mp h
  obtain ⟨⟨analysis, forest⟩, hanalyzed, h⟩ := Fallible.bind_eq_ok.mp h
  obtain ⟨root, hroot, h⟩ := Fallible.bind_eq_ok.mp h
  dsimp only at hanalyzed hroot h
  split_ifs at h with hused hunresolved
  obtain ⟨found, -, h⟩ := Fallible.bind_eq_ok.mp h
  obtain rfl := Except.ok.inj h
  obtain ⟨hlt, htop⟩ := resolveRoot_ok hroot
  refine ⟨⟨boundary, partBoundaryModel_subset hboundary, hanalyzed⟩, hlt, htop, rfl, rfl, ?_⟩
  intro pair hpair
  exact List.mem_append_right _ (List.mem_map.mpr ⟨pair, hpair, rfl⟩)

theorem partLines_drawn {usedRoots : List (Finset String)} {parts : List (PartInput × Nat)} {lines : List PartLine}
    (h : partLines casefold tolerance outside entities usedRoots parts = .ok lines) :
    ∀ line ∈ lines, line.Drawn tolerance entities := by
  induction parts generalizing usedRoots lines with
  | nil =>
      obtain rfl := Except.ok.inj h
      simp
  | cons part rest ih =>
      obtain ⟨line, hline, h⟩ := Fallible.bind_eq_ok.mp h
      obtain ⟨lines, hrest, h⟩ := Fallible.bind_eq_ok.mp h
      obtain rfl := Except.ok.inj h
      intro line' hline'
      rcases List.mem_cons.mp hline' with rfl | hline'
      · exact partLine_drawn hline
      · exact ih hrest line' hline'

theorem analyzeDrawing_ok {records : List Geometry.EntityRecord} {analysis : ContourAnalysis} {forest : ContourForest}
    (h : analyzeDrawing tolerance records = .ok (analysis, forest)) : analyzeContours tolerance records = .ok analysis ∧
      ∃ areas polylines,
        forest.BuiltFrom (analysis.contours.map fun item => .curves item.contour) tolerance areas polylines := by
  obtain ⟨analysis', hanalysis, h⟩ := Fallible.bind_eq_ok.mp h
  obtain ⟨forest', hforest, h⟩ := Fallible.bind_eq_ok.mp h
  obtain ⟨rfl, rfl⟩ := Prod.mk.inj (Except.ok.inj h)
  refine ⟨hanalysis, ?_⟩
  rcases ContourForest.build_cases _ tolerance with ⟨e, he, -⟩ | ⟨built, areas, polylines, hok, hbuilt⟩
  · rw [hforest] at he
    cases he
  · rw [hforest] at hok
    exact ⟨areas, polylines, Except.ok.inj hok ▸ hbuilt⟩

/-! ## What is counted -/

variable (entities) in
theorem mem_validIndices {i : Nat} (h : line.Drawn tolerance entities) : i ∈ line.validIndices ↔
    i ∈ descendants line.forest line.rootIndex ∧
      ∀ e ∈ (overlappingHoles line.forest line.analysis entities (descendants line.forest line.rootIndex)).1,
        i ≠ e ∧ i ∉ descendants line.forest e := by
  rw [h.valid_eq, validIndices, List.mem_filter, decide_eq_true_eq, List.mem_append, List.mem_flatMap, not_or, not_exists]
  refine and_congr_right fun _ => ⟨?_, ?_⟩
  · rintro ⟨hnot, hbelow⟩ e he
    exact ⟨fun heq => hnot (heq ▸ he), fun hmem => hbelow e ⟨he, hmem⟩⟩
  · intro hall
    exact ⟨fun he => (hall i he).1 rfl, fun e hmem => (hall e hmem.1).2 hmem.2⟩

end lines

/-! ## Circles and their records -/

section circles

variable {tolerance : ToleranceProfile} {entities : List Drawing.EntityRecord} {analysis : ContourAnalysis}
  {contour : AssembledContour} {i : Nat}

theorem modelEdges_circle_mem {records : List Geometry.EntityRecord} {edges circles : List EdgeRecord}
    (h : modelEdges records = .ok (edges, circles)) {record : EdgeRecord} (hrecord : record ∈ circles) :
    ∃ center radius c, ⟨record.entityRef, .circle center radius⟩ ∈ records ∧ normalizeCircle center radius = .ok c ∧
      record.edge = .curve c := by
  obtain ⟨found, hfound, heq⟩ := Fallible.bind_eq_ok.mp h
  obtain ⟨-, rfl⟩ := Prod.mk.inj (Except.ok.inj heq)
  obtain ⟨⟨own, flag⟩, hmem, hrecord⟩ := List.mem_flatMap.mp hrecord
  obtain ⟨hmem, rfl⟩ := List.mem_filter.mp hmem
  obtain ⟨⟨ref, geometry⟩, hin, hentity⟩ := Fallible.mem_of_forall₂ (Fallible.mapM_eq_ok.mp hfound) hmem
  cases geometry with
  | line start endPoint => simp [entityEdges] at hentity
  | arc center radius a b =>
      obtain ⟨c, -, heq⟩ := Fallible.bind_eq_ok.mp hentity
      simp at heq
  | circle center radius =>
      obtain ⟨c, hc, heq⟩ := Fallible.bind_eq_ok.mp hentity
      obtain ⟨rfl, -⟩ := Prod.mk.inj (Except.ok.inj heq)
      obtain rfl := List.mem_singleton.mp hrecord
      exact ⟨center, radius, c, hin, hc, rfl⟩
  | polyline vertices closed =>
      obtain ⟨edges, -, heq⟩ := Fallible.bind_eq_ok.mp hentity
      simp at heq

/-- A contour that is a circle is that of a record. -/
theorem circle_recorded {records : List Geometry.EntityRecord} (h : analyzeContours tolerance records = .ok analysis)
    (hi : analysis.contours[i]? = some contour) (hcircle : contour.isCircle = true) :
    ∃ ref center radius c, ⟨ref, .circle center radius⟩ ∈ records ∧ normalizeCircle center radius = .ok c ∧
      contour.entityRefs = [ref] ∧ contour.contour.edges = [.curve c] := by
  obtain ⟨⟨edges, circles⟩, hmodel, h⟩ := Fallible.bind_eq_ok.mp h
  obtain rfl := Except.ok.inj h
  rcases List.mem_append.mp (List.mem_of_getElem? hi) with hmem | hmem
  · obtain ⟨record, hrecord, rfl⟩ := List.mem_map.mp hmem
    obtain ⟨center, radius, c, hin, hc, hedge⟩ := modelEdges_circle_mem hmodel hrecord
    exact ⟨record.entityRef, center, radius, c, hin, hc, rfl, congrArg ([·]) hedge⟩
  · obtain ⟨chain, -, rfl⟩ := List.mem_map.mp hmem
    cases hcircle

theorem entityOf_mem (hdistinct : (entities.map Drawing.EntityRecord.entityRef).Nodup) {entity : Drawing.EntityRecord}
    (h : entity ∈ entities) : entityOf entities entity.entityRef = some entity := by
  cases hfound : entityOf entities entity.entityRef with
  | none =>
      rw [entityOf, List.find?_eq_none] at hfound
      exact absurd (decide_eq_true rfl) (hfound entity (List.mem_reverse.mpr h))
  | some found =>
      rw [entityOf] at hfound
      have hmem := List.mem_reverse.mp (List.mem_of_find?_eq_some hfound)
      have href : found.entityRef = entity.entityRef := by simpa using List.find?_some hfound
      rw [List.inj_on_of_nodup_map hdistinct hmem h href]

theorem boundaryGeometry_circle {shape : Shape} {center : Point2D} {radius : ℝ}
    (h : boundaryGeometry shape = some (.circle center radius)) :
    ∃ drawn, shape = .circle drawn radius ∧ point drawn = center := by
  cases shape <;> simp only [boundaryGeometry, Option.some.injEq, reduceCtorEq, EntityGeometry.circle.injEq] at h
  obtain ⟨rfl, rfl⟩ := h
  exact ⟨_, rfl, rfl⟩

/-- Where references are distinct, the record of a circle is the one that is drawn. -/
theorem circleAt_eq {boundary : List Drawing.EntityRecord} (hboundary : ∀ entity ∈ boundary, entity ∈ entities)
    (hdistinct : (entities.map Drawing.EntityRecord.entityRef).Nodup)
    (h : analyzeContours tolerance (boundaryRecords boundary) = .ok analysis) (hi : analysis.contours[i]? = some contour)
    (hcircle : contour.isCircle = true) :
    ∃ center radius c, circleAt analysis entities i = some (center, radius) ∧ contour.contour.edges = [.curve c] ∧
      c.center = center ∧ c.radiusMm = some radius := by
  obtain ⟨ref, center, radius, c, hin, hc, hrefs, hedges⟩ := circle_recorded h hi hcircle
  obtain ⟨entity, hentity, hgeometry⟩ := List.mem_filterMap.mp hin
  obtain ⟨geometry, hgeometry, heq⟩ := Option.map_eq_some_iff.mp hgeometry
  obtain ⟨rfl, rfl⟩ := Geometry.EntityRecord.mk.inj heq
  obtain ⟨drawn, hshape, rfl⟩ := boundaryGeometry_circle hgeometry
  have hfields := CurveFields.checked_ok hc
  refine ⟨point drawn, radius, c, ?_, hedges, by rw [hfields], by rw [hfields]⟩
  rw [circleAt, hi, Option.bind_some, circleOf, hcircle, hrefs]
  simp only [entityOf_mem hdistinct (hboundary entity hentity), Option.bind_some, hshape]

/-- Discs that share more than a null set are nearer than their radii. -/
theorem circlesOverlap_of_discs {p q : Point2D} {r s : ℝ}
    (h : ¬ AEDisjoint volume (Metric.closedBall p.toComplex r) (Metric.closedBall q.toComplex s)) :
    CirclesOverlap p (2 * r) q (2 * s) 0 := by
  rw [CirclesOverlap, Point2D.distanceTo_eq_dist, add_zero, ← mul_add, mul_div_cancel_left₀ _ two_ne_zero]
  by_contra hfar
  refine h (measure_mono_null ?_ (Measure.addHaar_sphere volume p.toComplex r))
  rintro z ⟨hp, hq⟩
  rw [Metric.mem_closedBall] at hp hq
  have htriangle := dist_triangle_left p.toComplex q.toComplex z
  exact le_antisymm hp (by linarith)

end circles

/-! ## Main result -/

section

variable {tolerance : ToleranceProfile} {entities : List Drawing.EntityRecord} {line : PartLine} {region : Nat → Set ℂ}

/-- What the contours of a part enclose: a set of the area of each, which is a disc for a circle. -/
structure Encloses (line : PartLine) (region : Nat → Set ℂ) : Prop where
  measurable : ∀ i < line.forest.nodes.length, MeasurableSet (region i)
  finite : ∀ i < line.forest.nodes.length, volume (region i) ≠ ⊤
  area : ∀ i : Fin line.forest.nodes.length, volume.real (region i) = (line.forest.nodes.get i).areaMm2
  round : ∀ i contour c radius, line.analysis.contours[i]? = some contour → contour.isCircle = true →
    contour.contour.edges = [.curve c] → c.radiusMm = some radius →
    region i = Metric.closedBall c.center.toComplex radius

/-- Two contours below the root, with the same parent, overlap. -/
structure SiblingsOverlap (line : PartLine) (region : Nat → Set ℂ) (i j : Nat) : Prop where
  first : i ∈ descendants line.forest line.rootIndex
  second : j ∈ descendants line.forest line.rootIndex
  lt : i < j
  parent : parentOf line.forest i = parentOf line.forest j
  overlap : ¬ AEDisjoint volume (region i) (region j)

/-- Two contours are circles, and their records overlap. -/
def CirclesRecorded (entities : List Drawing.EntityRecord) (line : PartLine) (i j : Nat) : Prop :=
  ∃ a b, circleAt line.analysis entities i = some a ∧ circleAt line.analysis entities j = some b ∧
    CirclesOverlap a.1 (2 * a.2) b.1 (2 * b.2) 0

def IsCircleAt (line : PartLine) (i : Nat) : Prop :=
  ∃ contour, line.analysis.contours[i]? = some contour ∧ contour.isCircle = true

/-- No region is subtracted twice: the contours that count are apart where they have the same parent, those that
overlap are excluded and reported, and the net area is that of the outline, less that of the union of what lies at the
first level, more that of the union of what lies in each of these, and so on. -/
structure SubtractsOnce (entities : List Drawing.EntityRecord) (line : PartLine) (region : Nat → Set ℂ) : Prop where
  apart : ∀ i ∈ line.validIndices, ∀ j ∈ line.validIndices, i ≠ j → parentOf line.forest i = parentOf line.forest j →
    AEDisjoint volume (region i) (region j)
  excluded : ∀ i j, SiblingsOverlap line region i j → i ∉ line.validIndices ∧ j ∉ line.validIndices ∧
    ∃ a b, ((i, a), (j, b)) ∈ overlappingPairs line.forest line.analysis entities (descendants line.forest line.rootIndex) ∧
      overlapFinding line.analysis ((i, a), (j, b)) ∈ line.findings
  net : line.netAreaMm2 = volume.real (region line.rootIndex) -
    ∑ p ∈ line.validIndices.toFinset, areaSign line.forest line.rootIndex p *
      volume.real (⋃ i ∈ below (parentOf line.forest) line.validIndices.toFinset p, region i)

variable (h : line.Drawn tolerance entities)
include h

theorem PartLine.Drawn.built : ∃ contours areas polylines, line.forest.BuiltFrom contours tolerance areas polylines := by
  obtain ⟨boundary, -, hanalyzed⟩ := h.analyzed
  obtain ⟨-, areas, polylines, hbuilt⟩ := analyzeDrawing_ok hanalyzed
  exact ⟨_, areas, polylines, hbuilt⟩

theorem PartLine.Drawn.valid_lt {i : Nat} (hi : i ∈ line.validIndices) : i < line.forest.nodes.length := by
  obtain ⟨_, _, _, hbuilt⟩ := h.built
  exact ((mem_descendants hbuilt).mp ((mem_validIndices entities h).mp hi).1).1

/-- The root is not excluded. -/
theorem PartLine.Drawn.root_valid : line.rootIndex ∈ line.validIndices := by
  obtain ⟨_, _, _, hbuilt⟩ := h.built
  rw [mem_validIndices entities h]
  refine ⟨root_mem_descendants hbuilt h.root_lt, fun e he => ?_⟩
  have hne : line.rootIndex ≠ e := by
    rintro rfl
    obtain ⟨x, y, hpair, hroot⟩ := mem_excluded.mp he
    obtain ⟨hx, hy, hlt, -, -, hparent, -⟩ := (mem_overlappingPairs (descendants_sorted _ _)).mp hpair
    -- The root has no parent, so that the other would have none either.
    rcases hroot with hroot | hroot
    · rw [← hroot, h.root_top] at hparent
      exact hlt.ne (hroot ▸ (eq_of_descendants hbuilt hparent.symm hy).symm)
    · rw [← hroot, h.root_top] at hparent
      exact hlt.ne (hroot ▸ eq_of_descendants hbuilt hparent hx)
  exact ⟨hne, fun hmem => hne (by
    obtain ⟨-, hway⟩ := (mem_descendants hbuilt).mp hmem
    rcases Relation.ReflTransGen.cases_head hway with heq | ⟨p, hp, -⟩
    · exact heq
    · rw [Below, h.root_top] at hp
      cases hp)⟩

/-- The parent of what counts does too. -/
theorem PartLine.Drawn.valid_up {i : Nat} (hi : i ∈ line.validIndices) (hne : i ≠ line.rootIndex) :
    ∃ p ∈ line.validIndices, parentOf line.forest i = some p := by
  obtain ⟨_, _, _, hbuilt⟩ := h.built
  obtain ⟨hmem, hkept⟩ := (mem_validIndices entities h).mp hi
  obtain ⟨p, hp, hparent⟩ := descendants_up hbuilt hmem hne
  refine ⟨p, (mem_validIndices entities h).mpr ⟨hp, fun e he => ?_⟩, hparent⟩
  obtain ⟨-, hnot⟩ := hkept e he
  have hbelow : p ∉ descendants line.forest e := fun hmem => hnot (descendants_of_below hbuilt hparent hmem)
  refine ⟨?_, hbelow⟩
  rintro rfl
  exact hbelow (root_mem_descendants hbuilt (Below.grow hbuilt hparent).1)

/-- Where what counts is apart the net area is that of the outline and the unions. -/
theorem PartLine.Drawn.net_of_apart (hregion : Encloses line region)
    (hapart : ∀ i ∈ line.validIndices, ∀ j ∈ line.validIndices, i ≠ j →
      parentOf line.forest i = parentOf line.forest j → AEDisjoint volume (region i) (region j)) :
    line.netAreaMm2 = volume.real (region line.rootIndex) -
      ∑ p ∈ line.validIndices.toFinset, areaSign line.forest line.rootIndex p *
        volume.real (⋃ i ∈ below (parentOf line.forest) line.validIndices.toFinset p, region i) := by
  obtain ⟨_, _, _, hbuilt⟩ := h.built
  have hnodup : line.validIndices.Nodup := by
    rw [h.valid_eq]
    exact ((descendants_sorted _ _).filter _).imp fun hlt => hlt.ne
  have hsum : line.netAreaMm2 = ∑ i ∈ line.validIndices.toFinset,
      volume.real (region i) * areaSign line.forest line.rootIndex i := by
    rw [h.net_eq, netArea, List.sum_toFinset _ hnodup]
    refine congrArg List.sum (List.map_congr_left fun i hi => ?_)
    have hlt := h.valid_lt hi
    rw [hregion.area ⟨i, hlt⟩, List.getElem?_eq_getElem hlt]
    rfl
  rw [hsum, sum_sign_below (List.mem_toFinset.mpr h.root_valid) h.root_top, areaSign_self, mul_one]
  · intro i hi hne
    obtain ⟨p, hp, hparent⟩ := h.valid_up (List.mem_toFinset.mp hi) hne
    exact ⟨p, List.mem_toFinset.mpr hp, hparent⟩
  · exact fun i p hparent => areaSign_below hbuilt hparent
  · exact fun i hi => hregion.measurable i (h.valid_lt (List.mem_toFinset.mp hi))
  · exact fun i hi => hregion.finite i (h.valid_lt (List.mem_toFinset.mp hi))
  · exact fun i hi j hj => hapart i (List.mem_toFinset.mp hi) j (List.mem_toFinset.mp hj)

/-- What overlaps as recorded circles is excluded. -/
theorem PartLine.Drawn.excluded_of_recorded {i j : Nat} (hover : SiblingsOverlap line region i j)
    (hrecorded : CirclesRecorded entities line i j) : i ∉ line.validIndices ∧ j ∉ line.validIndices ∧
      ∃ a b, ((i, a), (j, b)) ∈ overlappingPairs line.forest line.analysis entities
          (descendants line.forest line.rootIndex) ∧
        overlapFinding line.analysis ((i, a), (j, b)) ∈ line.findings := by
  obtain ⟨a, b, ha, hb, hcircles⟩ := hrecorded
  have hpair : ((i, a), (j, b)) ∈ overlappingPairs line.forest line.analysis entities
      (descendants line.forest line.rootIndex) :=
    (mem_overlappingPairs (descendants_sorted _ _)).mpr
      ⟨hover.first, hover.second, hover.lt, ha, hb, hover.parent, hcircles⟩
  refine ⟨fun hi => ?_, fun hj => ?_, a, b, hpair, h.reported _ hpair⟩
  · exact (((mem_validIndices entities h).mp hi).2 i (mem_excluded.mpr ⟨_, _, hpair, .inl rfl⟩)).1 rfl
  · exact (((mem_validIndices entities h).mp hj).2 j (mem_excluded.mpr ⟨_, _, hpair, .inr rfl⟩)).1 rfl

theorem PartLine.Drawn.subtractsOnce_iff (hregion : Encloses line region) : SubtractsOnce entities line region ↔
    ∀ i j, SiblingsOverlap line region i j → CirclesRecorded entities line i j := by
  constructor
  · intro hexact i j hover
    obtain ⟨-, -, a, b, hpair, -⟩ := hexact.excluded i j hover
    obtain ⟨-, -, -, ha, hb, -, hcircles⟩ := (mem_overlappingPairs (descendants_sorted _ _)).mp hpair
    exact ⟨a, b, ha, hb, hcircles⟩
  · intro hall
    have hapart : ∀ i ∈ line.validIndices, ∀ j ∈ line.validIndices, i < j →
        parentOf line.forest i = parentOf line.forest j → AEDisjoint volume (region i) (region j) := by
      intro i hi j hj hlt hparent
      by_contra hnot
      have hover : SiblingsOverlap line region i j :=
        ⟨((mem_validIndices entities h).mp hi).1, ((mem_validIndices entities h).mp hj).1, hlt, hparent, hnot⟩
      exact (h.excluded_of_recorded hover (hall i j hover)).1 hi
    have hall' : ∀ i ∈ line.validIndices, ∀ j ∈ line.validIndices, i ≠ j →
        parentOf line.forest i = parentOf line.forest j → AEDisjoint volume (region i) (region j) := by
      intro i hi j hj hne hparent
      rcases lt_or_gt_of_ne hne with hlt | hgt
      · exact hapart i hi j hj hlt hparent
      · exact (hapart j hj i hi hgt hparent.symm).symm
    exact ⟨hall', fun i j hover => h.excluded_of_recorded hover (hall i j hover), h.net_of_apart hregion hall'⟩

/-- Where references are distinct, circles that overlap are recorded as such. -/
theorem PartLine.Drawn.recorded_iff (hregion : Encloses line region)
    (hdistinct : (entities.map Drawing.EntityRecord.entityRef).Nodup) {i j : Nat} (hover : SiblingsOverlap line region i j) :
    CirclesRecorded entities line i j ↔ IsCircleAt line i ∧ IsCircleAt line j := by
  obtain ⟨boundary, hboundary, hanalyzed⟩ := h.analyzed
  obtain ⟨hanalysis, -⟩ := analyzeDrawing_ok hanalyzed
  have hround {k : Nat} {circle : Point2D × ℝ} (hk : circleAt line.analysis entities k = some circle) :
      IsCircleAt line k := by
    obtain ⟨contour, hcontour, hcircle⟩ := Option.bind_eq_some_iff.mp hk
    refine ⟨contour, hcontour, ?_⟩
    unfold circleOf at hcircle
    split at hcircle
    · next hflag _ => exact hflag
    · cases hcircle
  constructor
  · rintro ⟨a, b, ha, hb, -⟩
    exact ⟨hround ha, hround hb⟩
  · rintro ⟨⟨first, hfirst, hfirstround⟩, ⟨second, hsecond, hsecondround⟩⟩
    obtain ⟨center, radius, c, hat, hedges, rfl, hradius⟩ :=
      circleAt_eq hboundary hdistinct hanalysis hfirst hfirstround
    obtain ⟨center', radius', c', hat', hedges', rfl, hradius'⟩ :=
      circleAt_eq hboundary hdistinct hanalysis hsecond hsecondround
    refine ⟨_, _, hat, hat', circlesOverlap_of_discs ?_⟩
    have hoverlap := hover.overlap
    rwa [hregion.round i first c radius hfirst hfirstround hedges hradius,
      hregion.round j second c' radius' hsecond hsecondround hedges' hradius'] at hoverlap

end

/-- A box, drawn as a closed polyline. -/
structure Box where
  left : ℝ
  bottom : ℝ
  right : ℝ
  top : ℝ
  wide : left + 1 ≤ right
  high : bottom + 1 ≤ top

namespace Box

variable (box : Box) (ref : String) (after : List EdgeRecord)

def vertices : List Geometry.PolylineVertex :=
  [⟨⟨box.left, box.bottom⟩, 0⟩, ⟨⟨box.right, box.bottom⟩, 0⟩, ⟨⟨box.right, box.top⟩, 0⟩, ⟨⟨box.left, box.top⟩, 0⟩]

def sides : List EdgeRecord :=
  [⟨.line ⟨⟨box.left, box.bottom⟩, ⟨box.right, box.bottom⟩⟩, ref⟩, ⟨.line ⟨⟨box.right, box.bottom⟩, ⟨box.right, box.top⟩⟩, ref⟩,
    ⟨.line ⟨⟨box.right, box.top⟩, ⟨box.left, box.top⟩⟩, ref⟩, ⟨.line ⟨⟨box.left, box.top⟩, ⟨box.left, box.bottom⟩⟩, ref⟩]

theorem sides_ne : box.sides ref ≠ [] := List.cons_ne_nil _ _

def chain : Chain := ⟨box.sides ref, box.sides_ne ref⟩

def corners : List Point2D := box.vertices.map Geometry.PolylineVertex.pointMm

theorem corners_two_le : 2 ≤ box.corners.length := by simp [corners, vertices]

def polygon : Polyline2D := ⟨box.corners, true, box.corners_two_le⟩

def region : Set ℂ := {z | z.re ∈ Set.Icc box.left box.right ∧ z.im ∈ Set.Icc box.bottom box.top}

theorem entityEdges_eq : entityEdges ⟨ref, .polyline box.vertices true⟩ = .ok (box.sides ref, false) := by
  have hstraight (v w : Point2D) : segmentEdge ⟨v, 0⟩ ⟨w, 0⟩ = .ok (.line ⟨v, w⟩) :=
    if_pos (by rw [abs_zero]; norm_num)
  simp only [entityEdges, vertices, segments, if_pos, List.zip_cons_cons, List.cons_append, List.nil_append,
    List.zip_nil_right, List.mapM_cons, List.mapM_nil, hstraight]
  rfl

theorem vertices_apart : box.vertices.Pairwise fun v w =>
    ¬ ToleranceProfile.IsCoincident {} (v.pointMm.distanceTo w.pointMm) := by
  have hx {p q : Point2D} (h : 1 ≤ |p.x - q.x|) : ¬ ToleranceProfile.IsCoincident {} (p.distanceTo q) := by
    intro hle
    have := (h.trans (Point2D.abs_x_sub_le p q)).trans hle
    norm_num at this
  have hy {p q : Point2D} (h : 1 ≤ |p.y - q.y|) : ¬ ToleranceProfile.IsCoincident {} (p.distanceTo q) := by
    intro hle
    have := (h.trans (Point2D.abs_y_sub_le p q)).trans hle
    norm_num at this
  have hwide := box.wide
  have hhigh := box.high
  have hleft : 1 ≤ |box.left - box.right| := le_abs.mpr (.inr (by linarith))
  have hright : 1 ≤ |box.right - box.left| := le_abs.mpr (.inl (by linarith))
  have hup : 1 ≤ |box.bottom - box.top| := le_abs.mpr (.inr (by linarith))
  simp only [vertices, List.pairwise_cons, List.mem_cons, List.not_mem_nil, or_false, forall_eq_or_imp, forall_eq,
    List.Pairwise.nil, and_true, false_implies, implies_true]
  exact ⟨⟨hx hleft, hx hleft, hy hup⟩, ⟨hy hup, hx hright⟩, hx hright⟩

/-- A box is a contour whatever follows it. -/
theorem traceChains_eq : traceChains {} (box.sides ref ++ after) =
    (box.chain ref :: (traceChains {} after).1, (traceChains {} after).2) := by
  have hspans : List.Forall₂ Spans (segments box.vertices true) (box.sides ref) := by
    refine .cons ⟨rfl, rfl⟩ (.cons ⟨rfl, rfl⟩ (.cons ⟨rfl, rfl⟩ (.cons ⟨rfl, rfl⟩ .nil)))
  obtain ⟨hedges, hrest, hclosed⟩ := @traceChain_polyline {} (box.sides ref).tail (by norm_num) box.vertices
    ⟨.line ⟨⟨box.left, box.bottom⟩, ⟨box.right, box.bottom⟩⟩, ref⟩ after (by simp [vertices]) box.vertices_apart hspans
  have htraced : traceChain {} ⟨.line ⟨⟨box.left, box.bottom⟩, ⟨box.right, box.bottom⟩⟩, ref⟩
      ((box.sides ref).tail ++ after) = (box.chain ref, after) := by
    refine Prod.ext ?_ hrest
    exact (Chain.mk.injEq _ _ _ _).mpr hedges
  rw [htraced] at hclosed
  rw [show box.sides ref ++ after = ⟨.line ⟨⟨box.left, box.bottom⟩, ⟨box.right, box.bottom⟩⟩, ref⟩ ::
    ((box.sides ref).tail ++ after) from rfl, traceChains, htraced]
  simp only [if_pos hclosed]

theorem area_eq : Geometry.Contour.area (.curves (box.chain ref).assembled.contour) =
    .ok ((box.right - box.left) * (box.top - box.bottom)) := by
  have hsum : (box.chain ref).assembled.contour.signedArea = (box.right - box.left) * (box.top - box.bottom) := by
    simp only [CurveContour.signedArea, Chain.assembled, chain, sides, ContourEdge.signedArea, Geometry.crossProduct,
      List.map_cons, List.map_nil, List.sum_cons, List.sum_nil]
    ring
  have hwide := box.wide
  have hhigh := box.high
  rw [Geometry.Contour.area, signedContourArea, hsum]
  exact congrArg Except.ok (abs_of_nonneg (mul_nonneg (by linarith) (by linarith)))

theorem polygon_eq : Geometry.asPolyline {} (.curves (box.chain ref).assembled.contour) = .ok box.polygon := by
  have hmap : (box.chain ref).assembled.contour.edges.mapM
      (ContourEdge.points (ToleranceProfile.arcChordToleranceMm {})) = .ok [[⟨box.left, box.bottom⟩, ⟨box.right, box.bottom⟩],
        [⟨box.right, box.bottom⟩, ⟨box.right, box.top⟩], [⟨box.right, box.top⟩, ⟨box.left, box.top⟩],
        [⟨box.left, box.top⟩, ⟨box.left, box.bottom⟩]] := rfl
  have hvertices : (box.chain ref).assembled.contour.vertices (ToleranceProfile.arcChordToleranceMm {}) =
      .ok box.corners := by
    rw [CurveContour.vertices, hmap, Fallible.ok_bind]
    simp [Geometry.joinPoints, Geometry.dropClosing, corners, vertices]
    norm_num
  rw [Geometry.asPolyline, hvertices]
  rfl

/-- A box contains those that lie within it. -/
theorem contains_of_within {inner : Box} (hleft : box.left < inner.left) (hbottom : box.bottom < inner.bottom)
    (hright : inner.right < box.right) (htop : inner.top < box.top) : ContainsContour box.polygon inner.polygon {} := by
  have hinside {p : Point2D} (hx : box.left < p.x ∧ p.x < box.right) (hy : box.bottom < p.y ∧ p.y < box.top) :
      ContainsPoint box.polygon p {} := by
    rw [containsPoint_iff]
    refine .inr ?_
    rw [parity, show box.polygon.segments = [(⟨box.left, box.bottom⟩, ⟨box.right, box.bottom⟩),
      (⟨box.right, box.bottom⟩, ⟨box.right, box.top⟩), (⟨box.right, box.top⟩, ⟨box.left, box.top⟩),
      (⟨box.left, box.top⟩, ⟨box.left, box.bottom⟩)] from rfl]
    simp [RayCrosses, hx.1.le, hx.2, hy.1.le, hy.2]
  have hwide := inner.wide
  have hhigh := inner.high
  have hvertex : ∀ p ∈ inner.polygon.vertices, (inner.left ≤ p.x ∧ p.x ≤ inner.right) ∧
      inner.bottom ≤ p.y ∧ p.y ≤ inner.top := by
    intro p hp
    simp only [polygon, corners, vertices, List.map_cons, List.map_nil, List.mem_cons, List.not_mem_nil, or_false] at hp
    rcases hp with rfl | rfl | rfl | rfl <;> simp only [le_refl, true_and, and_true] <;> constructor <;> linarith
  rw [containsContour_iff rfl rfl]
  intro p hp
  rcases List.mem_append.mp hp with hp | hmiddle
  · obtain ⟨hx, hy⟩ := hvertex p hp
    exact hinside ⟨by linarith, by linarith⟩ ⟨by linarith, by linarith⟩
  · obtain ⟨s, hs, rfl⟩ := List.mem_map.mp hmiddle
    obtain ⟨hstart, hend⟩ := Polyline2D.endpoints_mem hs
    have hstart := hvertex _ hstart
    have hend := hvertex _ hend
    refine hinside ⟨?_, ?_⟩ ⟨?_, ?_⟩ <;> dsimp only <;> linarith

theorem region_eq : box.region = Set.preimage Complex.measurableEquivRealProd
    (Set.Icc box.left box.right ×ˢ Set.Icc box.bottom box.top) := rfl

theorem region_measurable : MeasurableSet box.region :=
  Complex.measurableEquivRealProd.measurable (measurableSet_Icc.prod measurableSet_Icc)

theorem volume_region : volume box.region = ENNReal.ofReal ((box.right - box.left) * (box.top - box.bottom)) := by
  have hwide := box.wide
  rw [region_eq, Complex.volume_preserving_equiv_real_prod.measure_preimage
    (measurableSet_Icc.prod measurableSet_Icc).nullMeasurableSet, Measure.volume_eq_prod, Measure.prod_prod,
    Real.volume_Icc, Real.volume_Icc, ENNReal.ofReal_mul (by linarith)]

end Box

theorem plate_wide : (0 : ℝ) + 1 ≤ 40 := by norm_num

theorem plate_high : (0 : ℝ) + 1 ≤ 20 := by norm_num

theorem slot_wide (x : ℝ) : x + 1 ≤ x + 4 := by linarith

/-- A plate of forty by twenty. -/
def plate : Box := ⟨0, 0, 40, 20, plate_wide, plate_high⟩

/-- A square opening of side four in the plate. -/
def slot (x : ℝ) : Box := ⟨x, 4, x + 4, 4 + 4, slot_wide x, slot_wide 4⟩

def boxRecord (box : Box) (ref : String) : Drawing.EntityRecord :=
  .mk ref "LWPOLYLINE" "CUT" true "model"
    (.polyline (box.vertices.map fun vertex => ⟨(vertex.pointMm.x, vertex.pointMm.y), vertex.bulge⟩) true)
    ⟨box.left, box.bottom, box.right, box.top⟩ false

/-- Two openings that have half of each in common. -/
def slottedPlate : List Drawing.EntityRecord :=
  [boxRecord plate "P", boxRecord (slot 4) "S1", boxRecord (slot 6) "S2"]

def slottedContours : List AssembledContour :=
  [(plate.chain "P").assembled, ((slot 4).chain "S1").assembled, ((slot 6).chain "S2").assembled]

theorem slottedPlate_boundary :
    partBoundaryModel id slottedPlate ⟨"P", []⟩ 0 = .ok slottedPlate := by
  have hfound : entityOf slottedPlate "P" = some (boxRecord plate "P") :=
    @entityOf_mem slottedPlate (by decide) (boxRecord plate "P") List.mem_cons_self
  simp only [partBoundaryModel, hfound]
  simp [slottedPlate, boxRecord, Drawing.EntityRecord.visible, Drawing.EntityRecord.space, Drawing.EntityRecord.layer]

theorem slottedPlate_analysis :
    analyzeContours {} (boundaryRecords slottedPlate) = .ok ⟨slottedContours, []⟩ := by
  have hrecords : boundaryRecords slottedPlate = [⟨"P", .polyline plate.vertices true⟩,
    ⟨"S1", .polyline (slot 4).vertices true⟩, ⟨"S2", .polyline (slot 6).vertices true⟩] := rfl
  have hedges : modelEdges (boundaryRecords slottedPlate) =
      .ok (plate.sides "P" ++ ((slot 4).sides "S1" ++ ((slot 6).sides "S2" ++ [])), []) := by
    simp only [hrecords, modelEdges, List.mapM_cons, List.mapM_nil, Box.entityEdges_eq]
    rfl
  rw [analyzeContours, hedges, Fallible.ok_bind]
  dsimp only
  simp only [Box.traceChains_eq, traceChains]
  rfl

/-- The parents in the plate: the outline for each opening. -/
theorem slottedPlate_parents (i : Nat) :
    (ContourForest.parentsOf [800, 16, 16] [plate.polygon, (slot 4).polygon, (slot 6).polygon] {}).getD i none =
      if i = 1 ∨ i = 2 then some 0 else none := by
  have hlarger {p : Nat} (h : Inside [800, 16, 16] [plate.polygon, (slot 4).polygon, (slot 6).polygon] {} i p) :
      p = 0 ∧ (i = 1 ∨ i = 2) := by
    have hlt := h.area_lt
    obtain ⟨child, parent, hi, hp, -⟩ := h
    have hi := (List.getElem?_eq_some_iff.mp hi).1
    have hp := (List.getElem?_eq_some_iff.mp hp).1
    simp only [List.length_cons, List.length_nil] at hi hp
    interval_cases i <;> interval_cases p <;> first | exact ⟨rfl, by omega⟩ | norm_num at hlt
  have hinside (x : ℝ) (hx : x = 4 ∨ x = 6) : ContainsContour plate.polygon (slot x).polygon {} := by
    refine plate.contains_of_within ?_ ?_ ?_ ?_ <;> rcases hx with rfl | rfl <;> simp only [plate, slot] <;> norm_num
  cases hparent : (ContourForest.parentsOf [800, 16, 16]
      [plate.polygon, (slot 4).polygon, (slot 6).polygon] {}).getD i none with
  | some p =>
      obtain ⟨rfl, hi⟩ := hlarger (parentsOf_some hparent).1
      rw [if_pos hi]
  | none =>
      rw [if_neg]
      rintro (rfl | rfl)
      · exact parentsOf_none hparent 0 ⟨_, _, rfl, rfl, by norm_num, hinside 4 (.inl rfl)⟩
      · exact parentsOf_none hparent 0 ⟨_, _, rfl, rfl, by norm_num, hinside 6 (.inr rfl)⟩

theorem slottedPlate_forest : ∃ n₀ n₁ n₂ : ContourNode,
    ContourForest.build (slottedContours.map fun item => .curves item.contour) {} = .ok ⟨[n₀, n₁, n₂]⟩ ∧
      (n₀.parentIndex = none ∧ n₁.parentIndex = some 0 ∧ n₂.parentIndex = some 0) ∧
      (n₀.depth = 0 ∧ n₁.depth = 1 ∧ n₂.depth = 1) ∧ n₀.areaMm2 = 800 ∧ n₁.areaMm2 = 16 ∧ n₂.areaMm2 = 16 := by
  have hareas : (slottedContours.map fun item => Geometry.Contour.curves item.contour).mapM Geometry.Contour.area =
      .ok [800, 16, 16] := by
    have h800 : (plate.right - plate.left) * (plate.top - plate.bottom) = 800 := by norm_num [plate]
    have h16 (x : ℝ) : ((slot x).right - (slot x).left) * ((slot x).top - (slot x).bottom) = 16 := by
      simp only [slot]
      ring
    rw [Fallible.mapM_eq_ok, ← h800]
    refine .cons (plate.area_eq "P") (.cons ?_ (.cons ?_ .nil))
    · rw [← h16 4]
      exact (slot 4).area_eq "S1"
    · rw [← h16 6]
      exact (slot 6).area_eq "S2"
  have hpolylines : (slottedContours.map fun item => Geometry.Contour.curves item.contour).mapM (Geometry.asPolyline {}) =
      .ok [plate.polygon, (slot 4).polygon, (slot 6).polygon] := by
    rw [Fallible.mapM_eq_ok]
    exact .cons (plate.polygon_eq "P") (.cons ((slot 4).polygon_eq "S1") (.cons ((slot 6).polygon_eq "S2") .nil))
  obtain ⟨depths, hbuild, hdepth⟩ := ContourForest.build_eq (by simp) hareas hpolylines
  have hdepth := hdepth (fun i => if i = 1 ∨ i = 2 then 1 else 0) (by
    intro i
    rw [slottedPlate_parents]
    by_cases hi : i = 1 ∨ i = 2 <;> simp [hi])
  refine ⟨_, _, _, hbuild, ⟨slottedPlate_parents 0, slottedPlate_parents 1, slottedPlate_parents 2⟩,
    ⟨hdepth 0 (by decide), hdepth 1 (by decide), hdepth 2 (by decide)⟩, rfl, rfl, rfl⟩

/-- The line of the plate: nothing is excluded, and what the openings have in common is subtracted twice. -/
theorem slottedPlate_line : ∃ line : PartLine,
    takeoffLines id {} (fun _ _ _ => .ok []) slottedPlate [⟨"P", []⟩] = .ok [line] ∧
      line.validIndices = [0, 1, 2] ∧ line.netAreaMm2 = 768 ∧ line.rootIndex = 0 ∧
      line.analysis.contours = slottedContours ∧
      line.forest.nodes.map ContourNode.parentIndex = [none, some 0, some 0] ∧
      line.forest.nodes.map ContourNode.areaMm2 = [800, 16, 16] := by
  obtain ⟨n₀, n₁, n₂, hbuild, ⟨hp₀, hp₁, hp₂⟩, ⟨hd₀, hd₁, hd₂⟩, ha₀, ha₁, ha₂⟩ := slottedPlate_forest
  have hanalyzed : analyzeDrawing {} (boundaryRecords slottedPlate) = .ok (⟨slottedContours, []⟩, ⟨[n₀, n₁, n₂]⟩) := by
    rw [analyzeDrawing, slottedPlate_analysis, Fallible.ok_bind, hbuild]
    rfl
  have hroot : resolveRoot ⟨[n₀, n₁, n₂]⟩ ⟨slottedContours, []⟩ ⟨"P", []⟩ 0 = .ok 0 := by
    simp [resolveRoot, slottedContours, hp₀, hp₁, hp₂, Chain.assembled, uniqueRefs, Box.chain, Box.sides]
  have hdescendants : descendants ⟨[n₀, n₁, n₂]⟩ 0 = [0, 1, 2] := by
    simp [descendants, List.range_succ, reaches, parentOf, hp₁, hp₂]
  have hcircles : circlesAmong ⟨slottedContours, []⟩ slottedPlate [0, 1, 2] = [] := by
    simp [circlesAmong, slottedContours, circleOf, Chain.assembled]
  have hpairs : overlappingHoles ⟨[n₀, n₁, n₂]⟩ ⟨slottedContours, []⟩ slottedPlate [0, 1, 2] = ([], []) := by
    rw [overlappingHoles, overlappingPairs, hcircles]
    rfl
  have hvalid : validIndices ⟨[n₀, n₁, n₂]⟩ ⟨slottedContours, []⟩ slottedPlate 0 = [0, 1, 2] := by
    rw [validIndices, hdescendants, hpairs]
    rfl
  have hnet : netArea ⟨[n₀, n₁, n₂]⟩ 0 [0, 1, 2] = 768 := by
    simp only [netArea, areaSign, List.map_cons, List.map_nil, List.sum_cons, List.sum_nil, List.getElem?_cons_zero,
      List.getElem?_cons_succ, Option.elim_some, ha₀, ha₁, ha₂, hd₀, hd₁, hd₂]
    norm_num
  refine ⟨⟨⟨slottedContours, []⟩, ⟨[n₀, n₁, n₂]⟩, 0, [0, 1, 2], 768, []⟩, ?_, rfl, rfl, rfl, rfl, by simp [hp₀, hp₁, hp₂],
    by simp [ha₀, ha₁, ha₂]⟩
  simp only [takeoffLines, List.zipIdx_cons, List.zipIdx_nil, partLines, partLine, slottedPlate_boundary, hanalyzed,
    hroot, hdescendants, hvalid, hpairs, hnet, Fallible.ok_bind]
  rfl

/-- What the contours of the plate enclose. -/
def slottedRegion : Nat → Set ℂ
  | 0 => plate.region
  | 1 => (slot 4).region
  | _ => (slot 6).region

theorem slottedRegion_encloses {line : PartLine} (hcontours : line.analysis.contours = slottedContours)
    (hareas : line.forest.nodes.map ContourNode.areaMm2 = [800, 16, 16]) : Encloses line slottedRegion := by
  have hlength : line.forest.nodes.length = 3 := by
    rw [← List.length_map ContourNode.areaMm2, hareas]
    rfl
  have hbox (i : Nat) : ∃ box : Box, slottedRegion i = box.region ∧
      (i < 3 → ([800, 16, 16] : List ℝ)[i]? = some ((box.right - box.left) * (box.top - box.bottom))) := by
    have h800 : (plate.right - plate.left) * (plate.top - plate.bottom) = 800 := by norm_num [plate]
    have h16 (x : ℝ) : ((slot x).right - (slot x).left) * ((slot x).top - (slot x).bottom) = 16 := by
      simp only [slot]
      ring
    cases i with
    | zero => exact ⟨plate, rfl, fun _ => by simp [h800]⟩
    | succ i =>
        cases i with
        | zero => exact ⟨slot 4, rfl, fun _ => by simp [h16]⟩
        | succ i =>
            refine ⟨slot 6, rfl, fun hi => ?_⟩
            obtain rfl : i = 0 := by omega
            simp [h16]
  refine ⟨fun i _ => ?_, fun i _ => ?_, fun i => ?_, ?_⟩
  · obtain ⟨box, hregion, -⟩ := hbox i
    rw [hregion]
    exact box.region_measurable
  · obtain ⟨box, hregion, -⟩ := hbox i
    rw [hregion, box.volume_region]
    exact ENNReal.ofReal_ne_top
  · obtain ⟨box, hregion, harea⟩ := hbox i
    have hi : i.val < line.forest.nodes.length := i.isLt
    have harea := harea (hlength ▸ hi)
    rw [← hareas, List.getElem?_map, List.getElem?_eq_getElem hi, Option.map_some, Option.some.injEq] at harea
    rw [hregion, Measure.real, box.volume_region, ENNReal.toReal_ofReal]
    · exact harea.symm
    · exact mul_nonneg (by linarith [box.wide]) (by linarith [box.high])
  · intro i contour c radius hi hcircle
    rw [hcontours] at hi
    have hmem := List.mem_of_getElem? hi
    simp only [slottedContours, List.mem_cons, List.not_mem_nil, or_false] at hmem
    rcases hmem with rfl | rfl | rfl <;> cases hcircle

end

end CadHarness.Takeoff
