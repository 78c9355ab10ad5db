import CadHarness.Annotation.DimensionRules
import CadHarness.Geometry.Extents
import CadHarness.Validation.Lemmas.SingleHoles

/-!
# Holes of validated plans

What the rules before a commit say about the holes of a plan, and what they leave open.
-/

namespace CadHarness.Validation
open CadHarness.Annotation CadHarness.Catalog CadHarness.Geometry CadHarness.Plan
open CadHarness.Lib

noncomputable section
open Classical

/-! ## The holes of a plan -/

/-- The circles of a pattern, each with its center and its diameter. -/
def patternCircles (operation : Plan.Operation) : Except KernelError (List (Point2D × ℝ)) := do
  let centers ← geometryPoints operation.geometry "centers_mm"
  let diameter ← numberAt operation.geometry "diameter_mm"
  return centers.map fun center => (center, diameter)

def singleCircle (operation : Plan.Operation) : Except KernelError (Point2D × ℝ) := do
  return (← pointAt operation "center_mm", ← numberAt operation.geometry "diameter_mm")

/-- The circles that an operation draws. -/
def drawnCircles (operation : Plan.Operation) : List (Point2D × ℝ) :=
  match operation.type with
  | .createCircles => (patternCircles operation).toOption.getD []
  | .createCircle => (singleCircle operation).toOption.toList
  | _ => []

/-- The circles of a hole pattern, and the single circles and closed contours on the layer of the holes. -/
def IsHole (profile : CompanyProfile) (operation : Plan.Operation) : Prop :=
  match operation.type with
  | .createCircles => True
  | .createCircle => ∃ layer, profile.layerFor "hole" = .ok layer ∧ IsHoleGeometry layer operation
  | _ => profile.layerFor "hole" = .ok operation.layer

/-- What an operation encloses: the discs of its circles, or the interior of its contour. -/
def enclosedRegions (tolerance : ToleranceProfile) (operation : Plan.Operation) : List (Set Point2D) :=
  if operation.type = .createClosedPolyline then
    (closedPolyline operation).toOption.toList.map (·.interior tolerance)
  else (drawnCircles operation).map fun circle => disc circle.1 circle.2

/-- The holes of one operation. -/
def holesOf (context : RuleContext) (operation : Plan.Operation) : List (Set Point2D) :=
  if IsHole context.profile operation then enclosedRegions context.tolerance operation else []

/-- The holes that a plan draws. -/
def RuleContext.holes (context : RuleContext) : List (Set Point2D) := context.plan.operations.flatMap (holesOf context)

/-- The least ligament of the profile, as the rule about the spacing of holes reads it. -/
def RuleContext.ligament (context : RuleContext) : ℝ := context.profile.minimumHoleLigamentMm.getD 0

variable {context : RuleContext} {operation : Plan.Operation}

/-! ## Spacing -/

theorem forall_orderedPairs {α : Type} {l : List α} {R : α → α → Prop} :
    (∀ pair ∈ orderedPairs l, R pair.1.1 pair.2.1) ↔ l.Pairwise R := by
  rw [List.pairwise_iff_getElem]
  simp only [orderedPairs, List.mem_flatMap, List.mem_map, List.mem_filter, List.mem_zipIdx_iff_getElem?,
    decide_eq_true_eq]
  constructor
  · intro h i j hi hj hij
    exact h ((l[i], i), (l[j], j)) ⟨(l[i], i), by simp, (l[j], j), ⟨by simp, hij⟩, rfl⟩
  · intro h pair hpair
    obtain ⟨⟨a, i⟩, hi, ⟨b, j⟩, ⟨hj, hij⟩, rfl⟩ := hpair
    obtain ⟨hi', ha⟩ := List.getElem?_eq_some_iff.mp hi
    obtain ⟨hj', hb⟩ := List.getElem?_eq_some_iff.mp hj
    have hR := h i j hi' hj' hij
    rwa [show l[i] = a from ha, show l[j] = b from hb] at hR

theorem clean_ligament {tolerance : ToleranceProfile} {ligament diameter : ℝ} {pair : (Point2D × Nat) × (Point2D × Nat)} :
    (∀ finding ∈ ligamentFindings tolerance ligament diameter pair, ¬ finding.Stops) ↔
      diameter + ligament ≤ pair.1.1.distanceTo pair.2.1 := by
  have hoverlap : CirclesOverlap pair.1.1 diameter pair.2.1 diameter ligament ↔
      pair.1.1.distanceTo pair.2.1 < diameter + ligament := by
    rw [CirclesOverlap, add_self_div_two]
  rw [ligamentFindings, ← not_lt, ← hoverlap]
  by_cases h : CirclesOverlap pair.1.1 diameter pair.2.1 diameter ligament
  · by_cases hblocking : pair.1.1.distanceTo pair.2.1 < diameter <;> simp [h, hblocking, Finding.Stops]
  · simp [h]

/-- The rule about spacing passes where the holes of the operation keep the ligament. -/
theorem clean_spacing : Clean (spacingFindings context operation) ↔
    ∃ centers diameter, geometryPoints operation.geometry "centers_mm" = .ok centers ∧
      numberAt operation.geometry "diameter_mm" = .ok diameter ∧
      centers.Pairwise fun first second => diameter + context.ligament ≤ first.distanceTo second := by
  have hpairs (centers : List Point2D) (diameter : ℝ) :
      (∀ finding ∈ ((orderedPairs centers).flatMap (ligamentFindings context.tolerance context.ligament diameter)).map
        (Finding.about operation), ¬ finding.Stops) ↔
      centers.Pairwise fun first second => diameter + context.ligament ≤ first.distanceTo second := by
    rw [← forall_orderedPairs, List.forall_mem_map]
    simp only [Finding.about_stops, List.forall_mem_flatMap, clean_ligament]
  constructor
  · rintro ⟨findings, hrun, hclean⟩
    simp only [spacingFindings, Fallible.bind_eq_ok, Fallible.pure_eq_ok] at hrun
    obtain ⟨centers, hcenters, diameter, hdiameter, rfl⟩ := hrun
    exact ⟨centers, diameter, hcenters, hdiameter, (hpairs centers diameter).mp hclean⟩
  · rintro ⟨centers, diameter, hcenters, hdiameter, h⟩
    refine ⟨_, ?_, (hpairs centers diameter).mpr h⟩
    rw [spacingFindings, hcenters, hdiameter]
    rfl

theorem length_toList_le_one {α : Type} (o : Option α) : o.toList.length ≤ 1 := by
  cases o <;> simp

/-- Only a pattern draws several holes with one operation. -/
theorem length_holesOf_le_one (h : operation.type ≠ .createCircles) : (holesOf context operation).length ≤ 1 := by
  rw [holesOf]
  split
  · rw [enclosedRegions]
    split
    · rw [List.length_map]
      exact length_toList_le_one _
    · rw [List.length_map, drawnCircles]
      split
      · contradiction
      · exact length_toList_le_one _
      · simp
  · simp

theorem pairwise_disjoint_of_type_ne (h : operation.type ≠ .createCircles) :
    (holesOf context operation).Pairwise Disjoint := by
  have hlength : (holesOf context operation).length ≤ 1 := length_holesOf_le_one h
  match holesOf context operation, hlength with
  | [], _ => exact .nil
  | [_], _ => exact List.pairwise_singleton _ _

/-- The holes of one operation that the rules have passed do not overlap. -/
theorem pairwise_disjoint_holesOf (hpasses : PassesPreCommit context) (hligament : 0 ≤ context.ligament)
    (hoperation : operation ∈ context.plan.operations) : (holesOf context operation).Pairwise Disjoint := by
  by_cases htype : operation.type = .createCircles
  · have hclean := passesPreCommit_iff.mp hpasses holeSpacingRule (by simp [preCommitRules])
    obtain ⟨centers, diameter, hcenters, hdiameter, hpairwise⟩ :=
      clean_spacing.mp (clean_forOperations.mp hclean operation hoperation htype)
    have hcircles : patternCircles operation = .ok (centers.map fun center => (center, diameter)) := by
      rw [patternCircles, hcenters, hdiameter]
      rfl
    have hholes : holesOf context operation = centers.map fun center => disc center diameter := by
      simp [holesOf, IsHole, enclosedRegions, drawnCircles, htype, hcircles, Except.toOption]
    rw [hholes, List.pairwise_map]
    apply hpairwise.imp
    intro first second hdistance
    apply disjoint_disc
    rw [add_self_div_two]
    linarith
  · exact pairwise_disjoint_of_type_ne htype

/-- Holes of different operations do not overlap. -/
def SeparateOperationsClear (context : RuleContext) : Prop :=
  context.plan.operations.Pairwise fun first second =>
    ∀ hole ∈ holesOf context first, ∀ other ∈ holesOf context second, Disjoint hole other

/-- A ligament that the profile sets below zero lets the holes of a pattern overlap. -/
def PatternsClear (context : RuleContext) : Prop :=
  context.ligament < 0 → ∀ operation ∈ context.plan.operations, operation.type = .createCircles →
    (holesOf context operation).Pairwise Disjoint

/-- The holes of a plan that the rules have passed do not overlap where those of different operations do not. -/
theorem validated_holes_disjoint_iff (context : RuleContext) (hpasses : PassesPreCommit context) :
    context.holes.Pairwise Disjoint ↔ SeparateOperationsClear context ∧ PatternsClear context := by
  rw [RuleContext.holes, List.pairwise_flatMap, and_comm]
  apply and_congr_right
  intro _
  constructor
  · intro h _ operation hoperation _
    exact h operation hoperation
  · intro h operation hoperation
    by_cases hligament : 0 ≤ context.ligament
    · exact pairwise_disjoint_holesOf hpasses hligament hoperation
    · by_cases htype : operation.type = .createCircles
      · exact h (not_le.mp hligament) operation hoperation htype
      · exact pairwise_disjoint_of_type_ne htype

/-! ### Two holes -/

/-- A profile that maps the purpose of holes alone. -/
def holeProfile : CompanyProfile where
  profileId := "holes"
  version := "1"
  layers := ["HOLE"]
  layerMap := [("hole", "HOLE")]

theorem layerFor_holeProfile : holeProfile.layerFor "hole" = .ok "HOLE" := by
  simp [CompanyProfile.layerFor, holeProfile]

def holeService : PlanCompilerService where
  profile := holeProfile
  tolerance := {}

/-- The hole of a pattern of one hole. -/
theorem holesOf_hole (hole : SingleHole) (layer : String) :
    holesOf context (hole.operation layer) = [disc hole.center hole.diameterMm] := by
  have htype : (hole.operation layer).type = .createCircles := rfl
  have hcircles : patternCircles (hole.operation layer) = .ok [(hole.center, hole.diameterMm)] := by
    rw [patternCircles, geometryPoints_hole, numberAt_hole]
    rfl
  simp [holesOf, IsHole, enclosedRegions, drawnCircles, htype, hcircles, Except.toOption]

/-- Two holes of ten millimetres with thirty between their centers. -/
def apartHoles : List SingleHole := [⟨"first", 10, ⟨0, 0⟩⟩, ⟨"second", 10, ⟨100, 0⟩⟩]

theorem validated_holes_disjoint_apart :
    (holesContext holeProfile {} { documentId := "drawing" } "job" "revision" "HOLE" apartHoles).holes.Pairwise Disjoint := by
  apply (validated_holes_disjoint_iff _ (passesPreCommit_holes (by simp [holeProfile]) (by decide))).mpr
  constructor
  · simp only [SeparateOperationsClear, holesContext, holesPlan, apartHoles, List.map_cons, List.map_nil,
      List.pairwise_pair, holesOf_hole, List.forall_mem_singleton]
    apply disjoint_disc
    rw [Point2D.distanceTo]
    exact Real.le_sqrt_of_sq_le (by norm_num)
  · intro hligament
    simp [RuleContext.ligament, holesContext, holeProfile] at hligament

/-- Two patterns of one hole, with the same center. -/
def coincidentHoles : List SingleHole := [⟨"first", 10, ⟨0, 0⟩⟩, ⟨"second", 10, ⟨0, 0⟩⟩]

def coincidentSpec : DrawingSpec where
  documentId := "drawing"
  features := coincidentHoles.map SingleHole.feature

theorem coincidentSpec_isHoles : coincidentSpec.IsHoles coincidentHoles :=
  ⟨rfl, rfl, rfl, rfl, by simp [hasNonDimensionAnnotations, coincidentSpec]⟩

theorem validated_holes_overlap : ∃ plan, holeService.compile coincidentSpec "job" "revision" = .ok { plan := some plan } ∧
    PassesPreCommit ⟨holeService.profile, holeService.tolerance, plan⟩ ∧
    ¬ (RuleContext.holes ⟨holeService.profile, holeService.tolerance, plan⟩).Pairwise Disjoint := by
  refine ⟨_, PlanCompilerService.compile_holes coincidentSpec_isHoles rfl layerFor_holeProfile "job" "revision",
    passesPreCommit_holes (by simp [holeService, holeProfile]) (by decide), ?_⟩
  simp only [RuleContext.holes, holesPlan, coincidentHoles, List.map_cons, List.map_nil, List.flatMap_cons, holesOf_hole,
    List.flatMap_nil, List.append_nil, List.singleton_append, List.pairwise_pair]
  exact not_disjoint_disc_self (by norm_num)

end

end CadHarness.Validation
