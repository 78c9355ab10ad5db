import CadHarness.Annotation.Lemmas.Measurement

/-!
# What annotations say about drawn geometry

The extents are measured from polylines and circles only, and a single circle is measured with half of its diameter in
the place of the diameter: the annotations are true where this makes no difference.
-/

namespace CadHarness.Annotation
open CadHarness.Catalog CadHarness.Plan
open CadHarness.Geometry (BoundingBox Circle2D KernelError Point2D ToleranceProfile)
open CadHarness.Lib

noncomputable section
open Classical

variable {plan : GeometryPlan} {box : BoundingBox} {holeLayer : String} {tolerance : ToleranceProfile}

/-! ## Drafts -/

variable {draft : Draft} {style : TextStyle} {dimstyle layer suffix featureId : String} {value : ℝ}
  {start endPoint anchor : ℝ × ℝ} {kind text : String} {extra : Dict} {index : Nat} {group : HoleGroup}

theorem append_ne {first rest other : String} (hne : first ≠ "") (h : first.toList.head? ≠ other.toList.head?) :
    first ++ rest ≠ other := by
  intro heq
  apply h
  rw [← heq, String.toList_append, List.head?_append]
  cases hl : first.toList with
  | nil => exact absurd (String.toList_eq_nil_iff.mp hl) hne
  | cons c cs => rfl

/-- The dimension that only measures where a hole is says nothing about the drawing. -/
theorem truthful_dimensionDraft (hwidth : suffix ≠ "overall-width") (hheight : suffix ≠ "overall-height")
    (hcallout : kind ≠ "hole_callout") (hrow : kind ≠ "hole_table_row") :
    (dimensionDraft style dimstyle layer suffix featureId value start endPoint anchor kind).Truthful plan where
  width h := absurd h hwidth
  height h := absurd h hheight
  diameter h := by cases h
  callout h := by simp [dimensionDraft, Assoc.lookup_cons, hcallout] at h
  row h := by simp [dimensionDraft, Assoc.lookup_cons, hrow] at h

theorem truthful_textDraft (hwidth : suffix ≠ "overall-width") (hheight : suffix ≠ "overall-height")
    (hcallout : kind ≠ "hole_callout") (hrow : kind ≠ "hole_table_row") :
    (textDraft style layer suffix featureId text anchor kind extra).Truthful plan where
  width h := absurd h hwidth
  height h := absurd h hheight
  diameter h := by cases h
  callout h := by simp [textDraft, Assoc.lookup_cons, hcallout] at h
  row h := by simp [textDraft, Assoc.lookup_cons, hrow] at h

theorem truthful_overallDrafts : (∀ draft ∈ overallDrafts style dimstyle layer box, draft.Truthful plan) ↔
    box.width = plan.extent Point2D.x ∧ box.height = plan.extent Point2D.y := by
  simp only [overallDrafts, List.forall_mem_cons, List.not_mem_nil, IsEmpty.forall_iff, implies_true, and_true]
  apply and_congr
  · constructor
    · intro h
      simpa [dimensionDraft, Assoc.lookup_cons, real] using h.width rfl
    · intro h
      exact
        { width := fun _ => by simp [dimensionDraft, Assoc.lookup_cons, h]
          height := fun h => by simp [dimensionDraft] at h
          diameter := fun h => by cases h
          callout := fun h => by simp [dimensionDraft, Assoc.lookup_cons] at h
          row := fun h => by simp [dimensionDraft, Assoc.lookup_cons] at h }
  · constructor
    · intro h
      simpa [dimensionDraft, Assoc.lookup_cons, real] using h.height rfl
    · intro h
      exact
        { width := fun h => by simp [dimensionDraft] at h
          height := fun _ => by simp [dimensionDraft, Assoc.lookup_cons, h]
          diameter := fun h => by cases h
          callout := fun h => by simp [dimensionDraft, Assoc.lookup_cons] at h
          row := fun h => by simp [dimensionDraft, Assoc.lookup_cons] at h }

/-- The callout or the dimension of a group is true if its first hole is drawn as measured. -/
theorem truthful_groupDraft {threshold : ℤ} : (groupDraft style dimstyle layer threshold index group).Truthful plan ↔
    (group.first.center, group.diameterMm) ∈ plan.drawnCircles := by
  rw [groupDraft]
  split
  · constructor
    · intro h
      obtain ⟨circle, hcircle, hanchor, hdiameter⟩ := h.callout (by simp [textDraft, Assoc.lookup_cons])
      have hcenter : group.first.center = circle.1 := by
        have := Option.some.inj hanchor
        exact Point2D.ext (congrArg Prod.fst this) (congrArg Prod.snd this)
      have hsize : group.diameterMm = circle.2 := by simpa [textDraft, Assoc.lookup_cons, real] using hdiameter
      rwa [hcenter, hsize]
    · intro h
      exact
        { width := fun h => absurd h (append_ne (by decide) (by decide))
          height := fun h => absurd h (append_ne (by decide) (by decide))
          diameter := fun h => by cases h
          callout := fun _ => ⟨_, h, rfl, by simp [textDraft, Assoc.lookup_cons]⟩
          row := fun h => by simp [textDraft, Assoc.lookup_cons] at h }
  · constructor
    · intro h
      obtain ⟨circle, hcircle, hcenter, hdiameter⟩ := h.diameter rfl
      have hcenter : group.first.center = circle.1 := by
        simpa [diameterDraft, Assoc.lookup_cons, Point2D.asTuple, pair, real, Point2D.ext_iff] using hcenter
      have hsize : group.diameterMm = circle.2 := by simpa [diameterDraft, Assoc.lookup_cons, real] using hdiameter
      rwa [hcenter, hsize]
    · intro h
      exact
        { width := fun h => absurd h (append_ne (by decide) (by decide))
          height := fun h => absurd h (append_ne (by decide) (by decide))
          diameter := fun _ => ⟨_, h, by simp [diameterDraft], by
            simp [diameterDraft, Assoc.lookup_cons]⟩
          callout := fun h => by simp [diameterDraft, Assoc.lookup_cons] at h
          row := fun h => by simp [diameterDraft, Assoc.lookup_cons] at h }

theorem truthful_tableRowDraft (h : (group.first.center, group.diameterMm) ∈ plan.drawnCircles) :
    (tableRowDraft style layer box index group).Truthful plan where
  width h := absurd h (append_ne (by decide) (by decide))
  height h := absurd h (append_ne (by decide) (by decide))
  diameter h := by cases h
  callout h := by simp [tableRowDraft, textDraft, Assoc.lookup_cons] at h
  row _ := ⟨_, h, by simp [tableRowDraft, textDraft, Assoc.lookup_cons]⟩

theorem truthful_locationDrafts {datum : Point2D} :
    ∀ draft ∈ locationDrafts style dimstyle layer datum index group, draft.Truthful plan := by
  simp only [locationDrafts, List.forall_mem_flatMap, List.forall_mem_cons, List.not_mem_nil, IsEmpty.forall_iff,
    implies_true, and_true, toString, String.append_assoc]
  exact fun _ _ =>
    ⟨truthful_dimensionDraft (append_ne (by decide) (by decide)) (append_ne (by decide) (by decide)) (by decide) (by decide),
      truthful_dimensionDraft (append_ne (by decide) (by decide)) (append_ne (by decide) (by decide)) (by decide)
        (by decide)⟩

theorem forall_mem_zipIdx {α : Type} {l : List α} {p : α → Prop} : (∀ a ∈ l.zipIdx, p a.1) ↔ ∀ a ∈ l, p a := by
  rw [← List.forall_mem_map (f := Prod.fst) (P := p), List.zipIdx_map_fst]

theorem truthful_groupDrafts {threshold : ℤ} {datum : Option Point2D} {groups : List HoleGroup} :
    (∀ draft ∈ (groupDrafts style dimstyle layer threshold datum groups).1, draft.Truthful plan) ↔
      ∀ group ∈ groups, (group.first.center, group.diameterMm) ∈ plan.drawnCircles := by
  cases datum with
  | none =>
      simp only [groupDrafts, List.forall_mem_map, truthful_groupDraft]
      exact forall_mem_zipIdx (p := fun group : HoleGroup => (group.first.center, group.diameterMm) ∈ plan.drawnCircles)
  | some datum =>
      have hlocations (group : HoleGroup × Nat) :
          ∀ draft ∈ locationDrafts style dimstyle layer datum group.2 group.1, draft.Truthful plan :=
        truthful_locationDrafts
      simp only [groupDrafts, List.forall_mem_flatMap, List.forall_mem_cons, truthful_groupDraft,
        iff_true_intro (hlocations _), and_true]
      exact forall_mem_zipIdx (p := fun group : HoleGroup => (group.first.center, group.diameterMm) ∈ plan.drawnCircles)

theorem truthful_centerDrafts {profile : CompanyProfile} {measured : GeometryMeasurements} {drafts : List Draft}
    (h : centerDrafts profile tolerance measured = .ok drafts) : ∀ draft ∈ drafts, draft.Truthful plan := by
  simp only [centerDrafts, Fallible.bind_eq_ok, Fallible.pure_eq_ok] at h
  obtain ⟨centerLayer, -, lineLayer, -, rfl⟩ := h
  simp only [List.forall_mem_append, List.forall_mem_map]
  constructor
  · intro hole _
    exact
      { width := fun h => absurd h (append_ne (by decide) (by decide))
        height := fun h => absurd h (append_ne (by decide) (by decide))
        diameter := fun h => by cases h
        callout := fun h => by simp [centermarkDraft, Assoc.lookup_cons] at h
        row := fun h => by simp [centermarkDraft, Assoc.lookup_cons] at h }
  · intro pair _
    exact
      { width := fun h => absurd h (append_ne (by decide) (by decide))
        height := fun h => absurd h (append_ne (by decide) (by decide))
        diameter := fun h => by cases h
        callout := fun h => by simp [centerlineDraft, Assoc.lookup_cons] at h
        row := fun h => by simp [centerlineDraft, Assoc.lookup_cons] at h }

theorem truthful_tableDrafts {profile : CompanyProfile} {measured : GeometryMeasurements} {drafts : List Draft}
    (h : tableDrafts profile style measured = .ok drafts)
    (hgroups : ∀ group ∈ measured.holeGroups, (group.first.center, group.diameterMm) ∈ plan.drawnCircles) :
    ∀ draft ∈ drafts, draft.Truthful plan := by
  rw [tableDrafts] at h
  split at h
  · intro draft hdraft
    obtain ⟨group, hgroup, hrun⟩ := Fallible.mem_of_forall₂ (Fallible.mapM_eq_ok.mp h) hdraft
    simp only [Fallible.bind_eq_ok, Fallible.pure_eq_ok] at hrun
    obtain ⟨layer, -, rfl⟩ := hrun
    exact truthful_tableRowDraft (forall_mem_zipIdx.mpr hgroups group hgroup)
  · cases h
    simp

theorem truthful_titleBlockDrafts {profile : CompanyProfile} {spec : DrawingSpec} {drafts : List Draft}
    {missing : List MissingInput} (h : titleBlockDrafts profile spec style = .ok (drafts, missing)) :
    ∀ draft ∈ drafts, draft.Truthful plan := by
  rw [titleBlockDrafts] at h
  split at h
  · cases h
    simp
  · simp only [Fallible.bind_eq_ok, Fallible.pure_eq_ok, Prod.mk.injEq] at h
    obtain ⟨found, hfound, rfl, -⟩ := h
    intro draft hdraft
    obtain ⟨value, -, hrun⟩ := Fallible.mem_of_forall₂ (Fallible.mapM_eq_ok.mp hfound) hdraft
    simp only [Fallible.bind_eq_ok, Fallible.pure_eq_ok] at hrun
    obtain ⟨layer, -, rfl⟩ := hrun
    exact truthful_textDraft (append_ne (by decide) (by decide)) (append_ne (by decide) (by decide)) (by decide)
      (by decide)

theorem truthful_gdtDrafts {profile : CompanyProfile} {spec : DrawingSpec} {drafts : List Draft}
    (h : gdtDrafts profile spec style = .ok drafts) : ∀ draft ∈ drafts, draft.Truthful plan := by
  simp only [gdtDrafts, Fallible.bind_eq_ok, Fallible.pure_eq_ok] at h
  obtain ⟨layer, -, rfl⟩ := h
  simp only [List.forall_mem_append, List.forall_mem_map]
  constructor
  · exact fun _ _ => truthful_textDraft (append_ne (by decide) (by decide)) (append_ne (by decide) (by decide))
      (by decide) (by decide)
  · exact fun _ _ => truthful_textDraft (append_ne (by decide) (by decide)) (append_ne (by decide) (by decide))
      (by decide) (by decide)

/-! ## The engine -/

theorem measureGeometry_ok {measured : GeometryMeasurements}
    (h : measureGeometry plan.operations holeLayer tolerance = .ok measured) :
    measured.box.Tight plan.measured ∧
    measured.holeGroups.map HoleGroup.first = leaders tolerance [] (plan.holes holeLayer) ∧
    ∃ found, plan.operations.mapM (holesOf holeLayer) = .ok found := by
  simp only [measureGeometry, Fallible.bind_eq_ok, Fallible.pure_eq_ok] at h
  obtain ⟨measurable, hmeasurable, box, hbox, found, hfound, rfl⟩ := h
  refine ⟨?_, ?_, found, hfound⟩
  · rw [measured_eq hmeasurable]
    exact tight_entitySetBoundingBox hbox
  · rw [map_first_foldl, holes_eq hfound, List.map_nil]

theorem truthful_measuredDrafts {profile : CompanyProfile} {datum : Option Point2D} {drafts : List Draft}
    {missing : List MissingInput}
    (h : measuredDrafts profile tolerance plan.operations datum style = .ok (drafts, missing))
    (hlayer : profile.layerFor "hole" = .ok holeLayer) :
    (∀ draft ∈ drafts, draft.Truthful plan) ↔ FaithfullyMeasured plan holeLayer tolerance := by
  simp only [measuredDrafts, hlayer, Fallible.ok_bind, Fallible.bind_eq_ok, Fallible.pure_eq_ok, Prod.mk.injEq,
    Prod.exists] at h
  obtain ⟨dimstyle, -, measured, hmeasured, dimensions, _, hdimensions, centers, hcenters, table, htable, rfl, -⟩ := h
  simp only [dimensionDrafts, Fallible.bind_eq_ok, Fallible.pure_eq_ok, Prod.mk.injEq] at hdimensions
  obtain ⟨layer, -, threshold, -, rfl, -⟩ := hdimensions
  obtain ⟨hbox, hfirst, found, hfound⟩ := measureGeometry_ok hmeasured
  have hgroups : (∀ group ∈ measured.holeGroups, (group.first.center, group.diameterMm) ∈ plan.drawnCircles) ↔
      ∀ hole ∈ leaders tolerance [] (plan.holes holeLayer), (hole.center, hole.diameterMm) ∈ plan.drawnCircles := by
    rw [← hfirst, List.forall_mem_map]
    rfl
  simp only [List.forall_mem_append, truthful_overallDrafts, truthful_groupDrafts, width_eq_iff hbox, height_eq_iff hbox]
  constructor
  · rintro ⟨⟨⟨⟨hx, hy⟩, hdrawn⟩, -⟩, -⟩
    exact
      { between := fun p hp => ⟨(hx p hp).1, (hx p hp).2, (hy p hp).1, (hy p hp).2⟩
        single := (leaders_drawn_iff hfound).mp (hgroups.mp hdrawn) }
  · intro h
    have hdrawn := hgroups.mpr ((leaders_drawn_iff hfound).mpr h.single)
    exact ⟨⟨⟨⟨fun p hp => ⟨(h.between p hp).left, (h.between p hp).right⟩,
      fun p hp => ⟨(h.between p hp).below, (h.between p hp).above⟩⟩, hdrawn⟩, truthful_centerDrafts hcenters⟩,
      truthful_tableDrafts htable hdrawn⟩

/-- The annotations say what the plan draws where there are no dimensions or nothing is drawn, and otherwise where what
the engine measures is what the plan draws. -/
theorem annotations_truthful_iff (plan : GeometryPlan) (profile : CompanyProfile) (tolerance : ToleranceProfile)
    (spec : DrawingSpec) (datum : Option Point2D) (drafted : Drafted)
    (h : draftAnnotations profile tolerance plan.operations spec datum = .ok drafted) :
    (∀ draft ∈ drafted.drafts, draft.Truthful plan) ↔
      spec.annotations.dimensions = .none ∨ plan.operations = [] ∨
        ∀ holeLayer, profile.layerFor "hole" = .ok holeLayer → FaithfullyMeasured plan holeLayer tolerance := by
  unfold draftAnnotations at h
  by_cases hnone : spec.annotations.dimensions = .none ∧ !hasNonDimensionAnnotations spec.annotations
  · rw [if_pos hnone] at h
    cases h
    simp [hnone.1]
  rw [if_neg hnone] at h
  by_cases hdimensions : spec.annotations.dimensions ≠ .none ∧ plan.operations ≠ []
  · simp only [hdimensions, not_false_eq_true, and_self, if_true, ne_eq, Fallible.bind_eq_ok, Fallible.pure_eq_ok,
      Prod.exists] at h
    obtain ⟨name, -, heightMm, -, measured, _, hmeasured, titleBlock, _, htitleBlock, gdt, hgdt, rfl⟩ := h
    obtain ⟨holeLayer, hlayer⟩ : ∃ holeLayer, profile.layerFor "hole" = .ok holeLayer := by
      simp only [measuredDrafts, Fallible.bind_eq_ok] at hmeasured
      obtain ⟨_, _, holeLayer, hlayer, _⟩ := hmeasured
      exact ⟨holeLayer, hlayer⟩
    simp only [List.forall_mem_append, iff_true_intro (truthful_titleBlockDrafts htitleBlock),
      iff_true_intro (truthful_gdtDrafts hgdt), and_true, truthful_measuredDrafts hmeasured hlayer, hdimensions.1,
      hdimensions.2, false_or]
    constructor
    · intro hfaithful other hother
      rwa [← Except.ok.inj (hlayer.symm.trans hother)]
    · exact fun hfaithful => hfaithful holeLayer hlayer
  · simp only [hdimensions, if_false, Fallible.bind_eq_ok, Fallible.pure_eq_ok, Prod.exists, Prod.mk.injEq] at h
    obtain ⟨name, -, heightMm, -, measured, _, ⟨rfl, -⟩, titleBlock, _, htitleBlock, gdt, hgdt, rfl⟩ := h
    simp only [List.nil_append, List.forall_mem_append, iff_true_intro (truthful_titleBlockDrafts htitleBlock),
      iff_true_intro (truthful_gdtDrafts hgdt), true_and, true_iff]
    by_contra hcontra
    simp only [not_or] at hcontra
    exact hdimensions ⟨hcontra.1, hcontra.2.1⟩

/-! ## A bore and a pattern -/

def annotationProfile : CompanyProfile where
  profileId := "annotated"
  version := "1"
  dimensionStyle := some "ISO"
  textStyle := some "Standard"
  layers := ["HOLE", "DIM", "CENTER", "TEXT"]
  layerMap := [("hole", "HOLE"), ("dimension", "DIM"), ("centermark", "CENTER"), ("centerline", "CENTER"),
    ("text", "TEXT")]
  annotationRules := { holeCalloutMinCount := some 2, textHeightMm := some 10 }

def dimensionedSpec : DrawingSpec where
  documentId := "drawing"
  annotations := { dimensions := .autoRequired }

/-- With this profile the engine annotates whatever it can measure. -/
theorem draftAnnotations_dimensioned {operations : List Plan.Operation} {tolerance : ToleranceProfile}
    {measured : GeometryMeasurements} (hne : operations ≠ [])
    (h : measureGeometry operations "HOLE" tolerance = .ok measured) (datum : Option Point2D) :
    ∃ drafts missing,
      measuredDrafts annotationProfile tolerance operations datum ⟨"Standard", 10⟩ = .ok (drafts, missing) ∧
      draftAnnotations annotationProfile tolerance operations dimensionedSpec datum = .ok ⟨10, drafts, missing⟩ := by
  have hmeasured : ∃ drafts missing,
      measuredDrafts annotationProfile tolerance operations datum ⟨"Standard", 10⟩ = .ok (drafts, missing) := by
    simp [requiredText, required, annotationProfile, measuredDrafts, CompanyProfile.layerFor, h, dimensionDrafts,
      centerDrafts, tableDrafts, Assoc.lookup_cons, Option.filter, bind, Except.bind, pure, Except.pure]
  obtain ⟨drafts, missing, hmeasured⟩ := hmeasured
  refine ⟨drafts, missing, hmeasured, ?_⟩
  have hstyle : requiredText "text_style" annotationProfile.textStyle = .ok "Standard" := by
    simp [requiredText, required, annotationProfile, Option.filter]
  have hgdt : gdtDrafts annotationProfile dimensionedSpec ⟨"Standard", 10⟩ = .ok [] := by
    simp [gdtDrafts, CompanyProfile.layerFor, annotationProfile, dimensionedSpec, Assoc.lookup_cons, pure, Except.pure]
  have htitleBlock : titleBlockDrafts annotationProfile dimensionedSpec ⟨"Standard", 10⟩ = .ok ([], []) := rfl
  unfold draftAnnotations
  rw [if_neg (by simp [dimensionedSpec]), hstyle]
  simp only [Fallible.ok_bind, required, annotationProfile]
  rw [if_pos ⟨by simp [dimensionedSpec], hne⟩]
  simp only [annotationProfile] at hmeasured hgdt htitleBlock
  simp [hmeasured, hgdt, htitleBlock, pure, Except.pure]

def boreOperation : Plan.Operation where
  operationId := operationId "flange" "bore"
  featureId := "flange"
  type := .createCircle
  layer := "HOLE"
  geometry := [("center_mm", pair 0 0), ("diameter_mm", real 10)]

theorem shapeOf_bore : shapeOf boreOperation = .ok (.circle ⟨0, 0⟩ 10) := by
  simp [shapeOf, boreOperation, entry, drawnDiameter, pair, pointItem, float, real, Number.toReal, Assoc.lookup_cons,
    bind, Except.bind, pure, Except.pure]

def borePlan : GeometryPlan where
  operations := [boreOperation]
  drawable := by simp [shapeOf_bore]

def halfBore : Circle2D := ⟨⟨0, 0⟩, 10 / 2, by norm_num⟩

theorem entities_bore : entities boreOperation = .ok [.circle halfBore] := by
  simp [entities, circleOf, boreOperation, entry, pair, pointItem, float, real, Number.toReal, Circle2D.checked, halfBore,
    Assoc.lookup_cons, bind, Except.bind, pure, Except.pure]

theorem isHoleGeometry_bore : IsHoleGeometry "HOLE" boreOperation := .inr ⟨rfl, by decide, .inl rfl⟩

theorem holesOf_bore : holesOf "HOLE" boreOperation = .ok [singleHole boreOperation ⟨0, 0⟩ 10] := by
  rw [holesOf, if_pos isHoleGeometry_bore, entities_bore]
  simp [holesOfEntities, halfBore, singleHole, Circle2D.radiusMm]

theorem drawnCircles_bore : borePlan.drawnCircles = [(⟨0, 0⟩, 10)] := by
  simp [GeometryPlan.drawnCircles, GeometryPlan.shapes, borePlan, shapeOf_bore, Except.toOption, Shape.drawnCircles]

/-- The bore of ten millimetres is annotated as one of five. -/
theorem annotations_bore : ∃ drafted,
    draftAnnotations annotationProfile {} borePlan.operations dimensionedSpec none = .ok drafted ∧
    ¬ ∀ draft ∈ drafted.drafts, draft.Truthful borePlan := by
  obtain ⟨measured, hmeasured⟩ : ∃ measured, measureGeometry borePlan.operations "HOLE" {} = .ok measured := by
    simp [measureGeometry, borePlan, entities_bore, holesOf_bore, entitySetBoundingBox, bind, Except.bind, pure,
      Except.pure]
  obtain ⟨drafts, missing, hrun, hdrafted⟩ := draftAnnotations_dimensioned (by simp [borePlan]) hmeasured none
  refine ⟨_, hdrafted, ?_⟩
  intro htruthful
  have hlayer : annotationProfile.layerFor "hole" = .ok "HOLE" := by
    simp [CompanyProfile.layerFor, annotationProfile]
  have hfaithful := (truthful_measuredDrafts hrun hlayer).mp htruthful
  have hholes : borePlan.holes "HOLE" = [singleHole boreOperation ⟨0, 0⟩ 10] := by
    simp [GeometryPlan.holes, borePlan, holesOf_bore, Except.toOption, sortBy]
  have hdrawn : ((⟨0, 0⟩, 10 / 2) : Point2D × ℝ) ∈ borePlan.drawnCircles := by
    apply hfaithful.single boreOperation (by simp [borePlan]) ⟨0, 0⟩ 10 shapeOf_bore isHoleGeometry_bore
    rw [hholes]
    simp [leaders, singleHole]
  rw [drawnCircles_bore] at hdrawn
  norm_num at hdrawn

def patternOperation : Plan.Operation := circlesOperation "pattern" "holes" "HOLE" [⟨0, 0⟩] (count 1) 10

def patternCircle : Circle2D := ⟨⟨0, 0⟩, 10, by norm_num⟩

theorem circlesOf_pattern : circlesOf patternOperation.geometry = .ok [patternCircle] := by
  simp [circlesOf, patternOperation, circlesOperation, entry, listEntry, points, Point2D.asTuple, pair, pointItem, float,
    real, Number.toReal, Circle2D.checked, patternCircle, Assoc.lookup_cons, bind, Except.bind, pure, Except.pure]

theorem shapeOf_pattern : shapeOf patternOperation = .ok (.circles [patternCircle]) := by
  have htype : patternOperation.type = .createCircles := rfl
  rw [shapeOf, htype]
  simp only [circlesOf_pattern]
  rfl

def patternPlan : GeometryPlan where
  operations := [patternOperation]
  drawable := by simp [shapeOf_pattern]

theorem faithfullyMeasured_pattern : FaithfullyMeasured patternPlan "HOLE" {} where
  between p hp := by
    have hshapes : patternPlan.shapes = [.circles [patternCircle]] := by
      simp [GeometryPlan.shapes, patternPlan, shapeOf_pattern, Except.toOption]
    have hp : p ∈ patternPlan.measured := by
      rw [GeometryPlan.drawn, hshapes] at hp
      rwa [GeometryPlan.measured, hshapes]
    exact ⟨⟨p, hp, le_rfl⟩, ⟨p, hp, le_rfl⟩, ⟨p, hp, le_rfl⟩, ⟨p, hp, le_rfl⟩⟩
  single operation hoperation center diameterMm hshape := by
    obtain rfl : operation = patternOperation := by simpa [patternPlan] using hoperation
    rw [shapeOf_pattern] at hshape
    cases hshape

/-- A pattern of one hole is annotated as it is drawn. -/
theorem annotations_pattern : ∃ drafted,
    draftAnnotations annotationProfile {} patternPlan.operations dimensionedSpec none = .ok drafted ∧
    ∀ draft ∈ drafted.drafts, draft.Truthful patternPlan := by
  have hentities : entities patternOperation = .ok [.circle patternCircle] := by
    have htype : patternOperation.type = .createCircles := rfl
    rw [entities, htype]
    simp only [circlesOf_pattern]
    rfl
  obtain ⟨measured, hmeasured⟩ : ∃ measured, measureGeometry patternPlan.operations "HOLE" {} = .ok measured := by
    have hhole : IsHoleGeometry "HOLE" patternOperation := .inl rfl
    simp [measureGeometry, patternPlan, hentities, holesOf, hhole, entitySetBoundingBox, bind, Except.bind, pure,
      Except.pure]
  obtain ⟨drafts, missing, -, hdrafted⟩ := draftAnnotations_dimensioned (by simp [patternPlan]) hmeasured none
  refine ⟨_, hdrafted, (annotations_truthful_iff patternPlan annotationProfile {} dimensionedSpec none _ hdrafted).mpr ?_⟩
  refine .inr (.inr fun holeLayer hlayer => ?_)
  have hhole : annotationProfile.layerFor "hole" = .ok "HOLE" := by
    simp [CompanyProfile.layerFor, annotationProfile]
  rw [← Except.ok.inj (hhole.symm.trans hlayer)]
  exact faithfullyMeasured_pattern

end

end CadHarness.Annotation
