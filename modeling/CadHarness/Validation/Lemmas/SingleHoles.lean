import CadHarness.Lib.Fallible
import CadHarness.Plan.Lemmas.SingleHoles
import CadHarness.Validation.PlanRules

/-!
# Plans of single holes pass

No rule before a commit looks at two holes of different operations, or at a hole without a parent: a plan of single
holes passes wherever they are.
-/

/-!
## Rules that have passed

A stage that ends without a stopping finding has run each of its rules, and none of them has found one.
-/

namespace CadHarness.Validation
open CadHarness.Geometry CadHarness.Plan
open CadHarness.Lib

variable {context : RuleContext} {rule : Rule} {findings : List Finding}

/-- A computation of findings that ends, with none that stops. -/
def Clean (computation : Except KernelError (List Finding)) : Prop :=
  ∃ findings, computation = .ok findings ∧ ∀ finding ∈ findings, ¬ finding.Stops

@[simp] theorem Clean.ok_nil : Clean (.ok []) := ⟨[], rfl, by simp⟩

@[simp] theorem Finding.about_stops {operation : Plan.Operation} {finding : Finding} :
    (finding.about operation).Stops ↔ finding.Stops := Iff.rfl

@[simp] theorem Finding.expecting_stops {expectation : Plan.ValidationExpectation} {id : Option String}
    {finding : Finding} : (finding.expecting expectation id).Stops ↔ finding.Stops := Iff.rfl

theorem clean_ok : Clean (.ok findings) ↔ ∀ finding ∈ findings, ¬ finding.Stops :=
  ⟨fun ⟨_, h, hclean⟩ => by cases h; exact hclean, fun h => ⟨_, rfl, h⟩⟩

/-- Findings that are collected from several computations are clean where all of them are. -/
theorem clean_collect {α : Type} {l : List α} {f : α → Except KernelError (List Finding)} :
    Clean (do return (← l.mapM f).flatten) ↔ ∀ a ∈ l, Clean (f a) := by
  constructor
  · rintro ⟨findings, hrun, hclean⟩ a ha
    simp only [Fallible.bind_eq_ok, Fallible.pure_eq_ok] at hrun
    obtain ⟨found, hfound, rfl⟩ := hrun
    obtain ⟨fs, hfs, hrun⟩ := Fallible.exists_of_mem_mapM hfound ha
    exact ⟨fs, hrun, fun finding h => hclean finding (List.mem_flatten_of_mem hfs h)⟩
  · intro h
    induction l with
    | nil => exact Clean.ok_nil
    | cons a l ih =>
        obtain ⟨fs, hfs, hclean⟩ := h a List.mem_cons_self
        obtain ⟨gs, hgs, hrest⟩ := ih fun b hb => h b (List.mem_cons_of_mem _ hb)
        simp only [Fallible.bind_eq_ok, Fallible.pure_eq_ok] at hgs
        obtain ⟨found, hfound, rfl⟩ := hgs
        refine ⟨fs ++ found.flatten, ?_, ?_⟩
        · rw [List.mapM_cons, hfs, hfound]
          rfl
        · intro finding hfinding
          exact (List.mem_append.mp hfinding).elim (hclean finding) (hrest finding)

theorem clean_runRules {Context : Type} {rules : List (Context → Except KernelError (List Finding))} {c : Context} :
    Clean (runRules rules c) ↔ ∀ rule ∈ rules, Clean (rule c) := clean_collect

theorem passesPreCommit_iff : PassesPreCommit context ↔ ∀ rule ∈ preCommitRules, Clean (rule context) := clean_runRules

theorem clean_forOperations {operations : List Plan.Operation} {type : Domain.OperationType}
    {evaluate : Plan.Operation → Except KernelError (List Finding)} :
    Clean (forOperations operations type evaluate) ↔
      ∀ operation ∈ operations, operation.type = type → Clean (evaluate operation) := by
  rw [forOperations, clean_collect]
  simp only [List.mem_filter, decide_eq_true_eq, and_imp]

theorem clean_forExpectations {ruleId : String}
    {evaluate : Plan.ValidationExpectation → Except KernelError (List Finding)} :
    Clean (forExpectations context ruleId evaluate) ↔
      ∀ expectation ∈ context.plan.validationExpectations, expectation.ruleId = ruleId → Clean (evaluate expectation) := by
  rw [forExpectations, clean_collect]
  simp only [List.mem_filter, decide_eq_true_eq, and_imp]

end CadHarness.Validation

namespace CadHarness.Validation
open CadHarness.Catalog CadHarness.Geometry CadHarness.Plan
open CadHarness.Lib

noncomputable section
open Classical

variable {profile : CompanyProfile} {tolerance : ToleranceProfile} {spec : DrawingSpec}
  {jobId expectedRevision layer : String} {holes : List SingleHole}

def holesContext (profile : CompanyProfile) (tolerance : ToleranceProfile) (spec : DrawingSpec)
    (jobId expectedRevision layer : String) (holes : List SingleHole) : RuleContext :=
  ⟨profile, tolerance, holesPlan profile spec jobId expectedRevision layer holes⟩

theorem mem_holesPlan {operation : Plan.Operation}
    (h : operation ∈ (holesPlan profile spec jobId expectedRevision layer holes).operations) :
    ∃ hole ∈ holes, operation = hole.operation layer := by
  obtain ⟨hole, hhole, rfl⟩ := List.mem_map.mp h
  exact ⟨hole, hhole, rfl⟩

theorem forall_holesPlan {p : Plan.Operation → Prop} (h : ∀ hole ∈ holes, p (hole.operation layer)) :
    ∀ operation ∈ (holesPlan profile spec jobId expectedRevision layer holes).operations, p operation := by
  intro operation hoperation
  obtain ⟨hole, hhole, rfl⟩ := mem_holesPlan hoperation
  exact h hole hhole

theorem geometryPoints_hole (hole : SingleHole) :
    geometryPoints (hole.operation layer).geometry "centers_mm" = .ok [hole.center] := by
  simp [geometryPoints, SingleHole.operation, circlesOperation, points, pointItems, pointItem,
    Point2D.asTuple, pair, real, float, Number.toReal, pure, Except.pure]

theorem numberAt_hole (hole : SingleHole) :
    numberAt (hole.operation layer).geometry "diameter_mm" = .ok hole.diameterMm := by
  simp [numberAt, SingleHole.operation, circlesOperation, Assoc.lookup_cons, real, float, Number.toReal]

/-- No expectation of such a plan names a parent. -/
theorem parentOf_holesContext (featureId : String) :
    (holesContext profile tolerance spec jobId expectedRevision layer holes).parentOf featureId = none := by
  rw [RuleContext.parentOf, List.findSome?_eq_none_iff]
  intro expectation hexpectation
  obtain ⟨hole, -, rfl⟩ := List.mem_map.mp hexpectation
  simp [SingleHole.expectation, Assoc.lookup_cons, asText]

theorem clean_holePlacement_holes :
    Clean (holePlacementRule (holesContext profile tolerance spec jobId expectedRevision layer holes)) := by
  apply clean_forOperations.mpr
  apply forall_holesPlan
  intro hole _ _
  rw [placementFindings, geometryPoints_hole, numberAt_hole]
  simp only [Fallible.ok_bind, RuleContext.parentOutline, SingleHole.operation, parentOf_holesContext]
  apply clean_ok.mpr
  simp [Finding.Stops, Finding.about]

theorem clean_holeSpacing_holes :
    Clean (holeSpacingRule (holesContext profile tolerance spec jobId expectedRevision layer holes)) := by
  apply clean_forOperations.mpr
  apply forall_holesPlan
  intro hole _ _
  rw [spacingFindings, geometryPoints_hole, numberAt_hole]
  apply clean_ok.mpr
  simp [orderedPairs]

theorem clean_patternIntegrity_holes :
    Clean (patternIntegrityRule (holesContext profile tolerance spec jobId expectedRevision layer holes)) := by
  apply clean_collect.mpr
  intro expectation hexpectation
  obtain ⟨hole, -, rfl⟩ := List.mem_map.mp hexpectation
  rw [patternFindings]
  split
  · exact Clean.ok_nil
  · rename_i operation hoperation
    obtain ⟨found, -, rfl⟩ := mem_holesPlan (List.mem_filter.mp (List.mem_of_getLast? hoperation)).1
    rw [if_neg (by simp [SingleHole.operation, circlesOperation]), geometryPoints_hole]
    apply clean_ok.mpr
    simp [SingleHole.expectation, asInteger, count, patternCountFindings]

/-- The rules about the expectations of other features have nothing to look at. -/
theorem clean_forExpectations_holes {ruleId : String} (h : ruleId ≠ "GEO-HOLE-PATTERN-GRID")
    (evaluate : Plan.ValidationExpectation → Except KernelError (List Finding)) :
    Clean (forExpectations (holesContext profile tolerance spec jobId expectedRevision layer holes) ruleId evaluate) := by
  apply clean_forExpectations.mpr
  intro expectation hexpectation hrule
  obtain ⟨hole, -, rfl⟩ := List.mem_map.mp hexpectation
  exact absurd hrule.symm h

theorem filter_closedPolyline_holes :
    (holesPlan profile spec jobId expectedRevision layer holes).operations.filter (·.type = .createClosedPolyline) = [] := by
  rw [List.filter_eq_nil_iff]
  apply forall_holesPlan
  intro hole _
  simp [SingleHole.operation, circlesOperation]

theorem clean_noUndeclaredContourIntersection_holes :
    Clean (noUndeclaredContourIntersectionRule
      (holesContext profile tolerance spec jobId expectedRevision layer holes)) := by
  rw [noUndeclaredContourIntersectionRule, holesContext]
  simp only [filter_closedPolyline_holes]
  exact Clean.ok_nil

theorem clean_layerDeclared_holes (hlayer : layer ∈ profile.layers) (hzero : layer ≠ "0") :
    Clean (layerDeclaredRule (holesContext profile tolerance spec jobId expectedRevision layer holes)) := by
  apply clean_ok.mpr
  rw [List.forall_mem_flatMap]
  apply forall_holesPlan
  intro hole _
  simp [layerFindings, SingleHole.operation, circlesOperation, holesContext, hlayer, hzero]

theorem clean_noUndeclaredLayer_holes (hlayer : layer ∈ profile.layers) :
    Clean (noUndeclaredLayerRule (holesContext profile tolerance spec jobId expectedRevision layer holes)) := by
  apply clean_ok.mpr
  rw [List.forall_mem_map]
  intro operation hoperation
  obtain ⟨hoperation, hundeclared⟩ := List.mem_filter.mp hoperation
  obtain ⟨hole, -, rfl⟩ := mem_holesPlan hoperation
  exact absurd hlayer (of_decide_eq_true hundeclared)

theorem clean_profileProvenance_holes :
    Clean (profileProvenanceRule (holesContext profile tolerance spec jobId expectedRevision layer holes)) := by
  apply clean_ok.mpr
  by_cases h : profile.companyApproved <;> simp [holesContext, holesPlan, h, Finding.Stops]

/-- Where no operation has an entry of some kind, a rule has collected nothing. -/
theorem mapM_none_holes {α : Type} {f : Plan.Operation → Except KernelError (Option α)}
    (h : ∀ hole ∈ holes, f (hole.operation layer) = .ok none) :
    ((holesPlan profile spec jobId expectedRevision layer holes).operations.mapM f) = .ok (holes.map fun _ => none) := by
  rw [holesPlan, List.mapM_map]
  exact Fallible.mapM_ok h

theorem clean_annotationOverlap_holes :
    Clean (annotationOverlapRule (holesContext profile tolerance spec jobId expectedRevision layer holes)) := by
  have hboxes : ((holesPlan profile spec jobId expectedRevision layer holes).operations.mapM textBoxOf) =
      .ok (holes.map fun _ => none) :=
    mapM_none_holes fun hole _ => by simp [textBoxOf, SingleHole.operation, circlesOperation, Assoc.lookup_cons]
  simp only [annotationOverlapRule, holesContext, hboxes, Fallible.ok_bind, List.filterMap_map]
  apply clean_ok.mpr
  simp [orderedPairs]

theorem clean_annotationProfile_holes :
    Clean (annotationProfileRule (holesContext profile tolerance spec jobId expectedRevision layer holes)) := by
  apply clean_collect.mpr
  apply forall_holesPlan
  intro hole _
  rw [annotationProfileFindings, if_pos]
  · exact Clean.ok_nil
  · simp [Plan.get, SingleHole.operation, circlesOperation, Assoc.lookup_cons]

theorem clean_gdtDatumExists_holes :
    Clean (gdtDatumExistsRule (holesContext profile tolerance spec jobId expectedRevision layer holes)) := by
  have hframes : ((holesPlan profile spec jobId expectedRevision layer holes).operations.mapM frameReferences) =
      .ok (holes.map fun _ => none) :=
    mapM_none_holes fun hole _ => by
      simp [frameReferences, Plan.get, SingleHole.operation, circlesOperation, Assoc.lookup_cons]
  simp only [gdtDatumExistsRule, holesContext, hframes, Fallible.ok_bind, List.filterMap_map]
  apply clean_ok.mpr
  simp

theorem clean_viewProjectionAlignment_holes :
    Clean (viewProjectionAlignmentRule (holesContext profile tolerance spec jobId expectedRevision layer holes)) := by
  have hviews : ((holesPlan profile spec jobId expectedRevision layer holes).operations.mapM viewOf) =
      .ok (holes.map fun _ => none) :=
    mapM_none_holes fun hole _ => by simp [viewOf, SingleHole.operation, circlesOperation, Assoc.lookup_cons]
  simp only [viewProjectionAlignmentRule, holesContext, hviews, Fallible.ok_bind, List.filterMap_map]
  have hnone : (holes.filterMap (id ∘ fun _ => (none : Option (String × ℝ × ℝ)))) = [] := by simp
  rw [hnone]
  exact Clean.ok_nil

/-- The rules pass single holes at any places. -/
theorem passesPreCommit_holes (hlayer : layer ∈ profile.layers) (hzero : layer ≠ "0") :
    PassesPreCommit (holesContext profile tolerance spec jobId expectedRevision layer holes) := by
  rw [passesPreCommit_iff]
  simp only [preCommitRules, List.forall_mem_cons]
  refine ⟨?_, clean_holePlacement_holes, clean_holeSpacing_holes, clean_patternIntegrity_holes,
    clean_forExpectations_holes (by decide) _, clean_forExpectations_holes (by decide) _,
    clean_forExpectations_holes (by decide) _, clean_forExpectations_holes (by decide) _,
    clean_noUndeclaredContourIntersection_holes, clean_forExpectations_holes (by decide) _, ?_,
    clean_layerDeclared_holes hlayer hzero, clean_profileProvenance_holes, ?_, clean_annotationOverlap_holes,
    clean_annotationProfile_holes, clean_gdtDatumExists_holes, clean_noUndeclaredLayer_holes hlayer,
    clean_viewProjectionAlignment_holes, by simp⟩
  · rw [closedOutlineRule, forOperations, holesContext, filter_closedPolyline_holes]
    exact Clean.ok_nil
  · exact Clean.ok_nil
  · rw [generalToleranceDeclaredRule]
    split
    · exact Clean.ok_nil
    · exact clean_ok.mpr (by simp [Finding.Stops])

end

end CadHarness.Validation
