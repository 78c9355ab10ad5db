import CadHarness.Annotation.Theorems
import CadHarness.Validation.Engine

/-!
# Overlapping annotations

A text that no position suits is drawn where it overlaps least, with a warning, but does not occupy its place: a later
text may lie over it without one.
-/

namespace CadHarness.Annotation
open CadHarness.Catalog CadHarness.Plan
open CadHarness.Geometry (KernelError ToleranceProfile)
open CadHarness.Lib
open CadHarness.Validation (Evidence Finding)

noncomputable section
open Classical

/-! ## Findings -/

/-- The warning of `place_text`. -/
def placementFinding (rules : PlacementRules) (base : TextBox) (occupied : List TextBox) (featureId operationId : String) :
    Option Finding :=
  match rules.offsets.find? fun offset =>
      ∀ prior ∈ occupied, overlapRatio (base.translated offset) prior ≤ rules.maximumOverlapRatio with
  | some _ => none
  | none => some
      { ruleId := "ANNOTATION_OVERLAP"
        severity := .warning
        message := "No deterministic annotation position satisfies the overlap limit"
        featureId := some featureId
        operationId := some operationId
        expected := .value (.obj [("maximum_overlap_ratio", real rules.maximumOverlapRatio)])
        actual := .value (.obj [("overlap_ratio",
          real (worstOverlap occupied (base.translated (chooseOffset rules base occupied).1)))])
        tolerance := some rules.maximumOverlapRatio
        suggestedFix := some "Increase view spacing or edit annotation placement before release" }

def Draft.finding (rules : PlacementRules) (heightMm : ℝ) (occupied : List TextBox) (draft : Draft) : Option Finding :=
  match draft.label with
  | none => none
  | some label => placementFinding rules (textBox label.text label.anchor heightMm) occupied draft.featureId
      (annotationId draft.suffix)

/-- The warnings of the drafts, in the order in which their texts are placed. -/
def placementFindings (rules : PlacementRules) (heightMm : ℝ) : List Draft → List TextBox → List Finding
  | [], _ => []
  | draft :: drafts, occupied => (draft.finding rules heightMm occupied).toList ++
      placementFindings rules heightMm drafts (draft.placement rules heightMm occupied).2

/-- `annotate(...).findings` -/
def annotationFindings (profile : CompanyProfile) (tolerance : ToleranceProfile) (operations : List Plan.Operation)
    (spec : DrawingSpec) (datum : Option Geometry.Point2D) : Except KernelError (List Finding) := do
  let drafted ← draftAnnotations profile tolerance operations spec datum
  return placementFindings (placementRules profile) drafted.textHeightMm drafted.drafts []

/-! ## Texts of a plan -/

/-- `TextBox(*(float(value) for value in raw))` of a list of four -/
def TextBox.ofValue : Value → Option TextBox
  | .arr [minX, minY, maxX, maxY] => do
      return ⟨← asNumber minX, ← asNumber minY, ← asNumber maxX, ← asNumber maxY⟩
  | _ => none

/-- The id of an operation that draws a text, with the box of it. -/
def emittedText (operation : Plan.Operation) : Option (String × TextBox) :=
  ((operation.geometry.lookup "text_bbox_mm").bind TextBox.ofValue).map fun box => (operation.operationId, box)

/-- A text that lies over an earlier one by more than the limit has a warning. -/
def OverlapsReported (limit : ℝ) (operations : List Plan.Operation) (findings : List Finding) : Prop :=
  (operations.filterMap emittedText).Pairwise fun earlier later =>
    limit < overlapRatio later.2 earlier.2 →
      ∃ finding ∈ findings, finding.ruleId = "ANNOTATION_OVERLAP" ∧ finding.operationId = some later.1

/-- A text that is about to be placed, beside the boxes that are occupied. -/
structure Placing where
  operationId : String
  base : TextBox
  occupied : List TextBox

namespace Placing

variable (placing : Placing) (rules : PlacementRules)

/-- One of the positions keeps the text off the occupied boxes. -/
def Suited : Prop := ∃ offset ∈ rules.offsets,
  ∀ prior ∈ placing.occupied, overlapRatio (placing.base.translated offset) prior ≤ rules.maximumOverlapRatio

def box : TextBox := placing.base.translated (chooseOffset rules placing.base placing.occupied).1

end Placing

/-- The texts of the drafts, each when its turn has come. -/
def placings (rules : PlacementRules) (heightMm : ℝ) : List Draft → List TextBox → List Placing
  | [], _ => []
  | draft :: drafts, occupied => (draft.label.map fun label =>
      ⟨annotationId draft.suffix, textBox label.text label.anchor heightMm, occupied⟩).toList ++
      placings rules heightMm drafts (draft.placement rules heightMm occupied).2

/-- A text that is suited by a position does not come to lie over an earlier one that no position suited, unless
a text of the same operation has a warning. -/
def ClearOfUnsuited (rules : PlacementRules) (texts : List Placing) : Prop :=
  texts.Pairwise fun earlier later => ¬ earlier.Suited rules → later.Suited rules →
    rules.maximumOverlapRatio < overlapRatio (later.box rules) (earlier.box rules) →
      ∃ other ∈ texts, ¬ other.Suited rules ∧ other.operationId = later.operationId

/-! ## One text -/

variable {rules : PlacementRules} {base : TextBox} {occupied : List TextBox} {placing : Placing}
  {heightMm : ℝ} {drafts : List Draft} {draft : Draft}

theorem fits_of_suited (h : placing.Suited rules) :
    ∀ prior ∈ placing.occupied, overlapRatio (placing.box rules) prior ≤ rules.maximumOverlapRatio := by
  obtain ⟨offset, hoffset, hfits⟩ := h
  rw [Placing.box, chooseOffset]
  cases hfind : rules.offsets.find? fun offset => ∀ prior ∈ placing.occupied,
      overlapRatio (placing.base.translated offset) prior ≤ rules.maximumOverlapRatio with
  | some found => simpa using List.find?_some hfind
  | none => exact absurd hfits (by simpa using List.find?_eq_none.mp hfind offset hoffset)

theorem occupied_of_suited (h : placing.Suited rules) :
    (chooseOffset rules placing.base placing.occupied).2 = placing.occupied ++ [placing.box rules] := by
  obtain ⟨offset, hoffset, hfits⟩ := h
  rw [Placing.box, chooseOffset]
  cases hfind : rules.offsets.find? fun offset => ∀ prior ∈ placing.occupied,
      overlapRatio (placing.base.translated offset) prior ≤ rules.maximumOverlapRatio with
  | some found => rfl
  | none => exact absurd hfits (by simpa using List.find?_eq_none.mp hfind offset hoffset)

/-- Only a text that no position suits has a warning, which names its operation. -/
theorem placementFinding_eq_none (featureId operationId : String) :
    placementFinding rules placing.base placing.occupied featureId operationId = none ↔ placing.Suited rules := by
  rw [placementFinding]
  cases hfind : rules.offsets.find? fun offset => ∀ prior ∈ placing.occupied,
      overlapRatio (placing.base.translated offset) prior ≤ rules.maximumOverlapRatio with
  | some found =>
      have hfits := List.find?_some hfind
      simp only [decide_eq_true_eq] at hfits
      exact iff_of_true rfl ⟨found, List.mem_of_find?_eq_some hfind, hfits⟩
  | none =>
      rw [List.find?_eq_none] at hfind
      simp only [decide_eq_true_eq] at hfind
      refine iff_of_false (by simp) ?_
      rintro ⟨offset, hoffset, hfits⟩
      exact hfind offset hoffset hfits

theorem placementFinding_names {featureId operationId : String} {finding : Finding}
    (h : placementFinding rules base occupied featureId operationId = some finding) :
    finding.ruleId = "ANNOTATION_OVERLAP" ∧ finding.operationId = some operationId := by
  rw [placementFinding] at h
  split at h
  · cases h
  · cases h
    exact ⟨rfl, rfl⟩

/-! ## A run -/

theorem placement_snd : (draft.placement rules heightMm occupied).2 = match draft.label with
    | none => occupied
    | some label => (chooseOffset rules (textBox label.text label.anchor heightMm) occupied).2 := by
  unfold Draft.placement
  cases draft.label with
  | none => rfl
  | some label => rfl

theorem subset_placement : occupied ⊆ (draft.placement rules heightMm occupied).2 := by
  rw [placement_snd]
  cases draft.label with
  | none => exact List.Subset.refl occupied
  | some label =>
      simp only [chooseOffset]
      split
      · exact List.subset_append_left occupied _
      · exact List.Subset.refl occupied

theorem subset_occupied (h : placing ∈ placings rules heightMm drafts occupied) : occupied ⊆ placing.occupied := by
  induction drafts generalizing occupied with
  | nil => simp [placings] at h
  | cons draft drafts ih =>
      rw [placings, List.mem_append] at h
      cases h with
      | inl h =>
          cases hlabel : draft.label with
          | none => simp [hlabel] at h
          | some label =>
              simp only [hlabel, Option.map_some, Option.toList_some, List.mem_singleton] at h
              rw [h]
              exact List.Subset.refl occupied
      | inr h => exact List.Subset.trans subset_placement (ih h)

/-- The boxes of the texts that a position suited are occupied when a later text is placed. -/
theorem suited_occupied : (placings rules heightMm drafts occupied).Pairwise fun earlier later =>
    earlier.Suited rules → earlier.box rules ∈ later.occupied := by
  induction drafts generalizing occupied with
  | nil => exact List.Pairwise.nil
  | cons draft drafts ih =>
      rw [placings]
      cases hlabel : draft.label with
      | none => simpa using ih
      | some label =>
          simp only [Option.map_some, Option.toList_some, List.singleton_append, List.pairwise_cons]
          refine ⟨?_, ih⟩
          intro later hlater hsuited
          apply subset_occupied hlater
          rw [placement_snd, hlabel]
          simp only
          rw [occupied_of_suited hsuited]
          simp

/-- The operations with a warning are those of the texts that no position suited. -/
theorem reported_iff {operationId : String} :
    (∃ finding ∈ placementFindings rules heightMm drafts occupied,
      finding.ruleId = "ANNOTATION_OVERLAP" ∧ finding.operationId = some operationId) ↔
    ∃ other ∈ placings rules heightMm drafts occupied, ¬ other.Suited rules ∧ other.operationId = operationId := by
  induction drafts generalizing occupied with
  | nil => simp [placementFindings, placings]
  | cons draft drafts ih =>
      simp only [placementFindings, placings, List.mem_append, or_and_right, exists_or, ih]
      apply or_congr_left
      cases hlabel : draft.label with
      | none => simp [Draft.finding, hlabel]
      | some label =>
          have hnone := @placementFinding_eq_none rules
            ⟨annotationId draft.suffix, textBox label.text label.anchor heightMm, occupied⟩ draft.featureId
            (annotationId draft.suffix)
          simp only [Draft.finding, hlabel, Option.map_some, Option.toList_some, List.mem_singleton,
            exists_eq_left, Option.mem_toList]
          cases hfinding : placementFinding rules (textBox label.text label.anchor heightMm) occupied draft.featureId
              (annotationId draft.suffix) with
          | none => simp [hnone.mp hfinding]
          | some finding =>
              have hunsuited := mt hnone.mpr (by simp [hfinding])
              obtain ⟨hrule, hoperation⟩ := placementFinding_names hfinding
              simp [hunsuited, hrule, hoperation]

/-! ## Emitted texts -/

/-- What is drafted leaves the box of the text to its placement. -/
structure Draft.Boxless (draft : Draft) : Prop where
  geometry : draft.geometry.lookup "text_bbox_mm" = none
  key : ∀ label, draft.label = some label → label.key ≠ "text_bbox_mm"

theorem ofValue_asList (box : TextBox) : TextBox.ofValue box.asList = some box := rfl

theorem emittedTexts_placeDrafts (h : ∀ draft ∈ drafts, draft.Boxless) :
    (placeDrafts rules heightMm drafts occupied).filterMap emittedText =
      (placings rules heightMm drafts occupied).map fun placing => (placing.operationId, placing.box rules) := by
  induction drafts generalizing occupied with
  | nil => rfl
  | cons draft drafts ih =>
      rw [List.forall_mem_cons] at h
      obtain ⟨hdraft, hdrafts⟩ := h
      simp only [placeDrafts, placings, List.filterMap_cons, List.map_append, ih hdrafts]
      cases hlabel : draft.label with
      | none =>
          have hemitted : emittedText (draft.operation (draft.placement rules heightMm occupied).1) = none := by
            simp [emittedText, Draft.operation, Draft.placement, hlabel, hdraft.geometry]
          rw [hemitted]
          simp
      | some label =>
          have hkey := hdraft.key label hlabel
          have hemitted : emittedText (draft.operation (draft.placement rules heightMm occupied).1) =
              some (annotationId draft.suffix, (textBox label.text label.anchor heightMm).translated
                (chooseOffset rules (textBox label.text label.anchor heightMm) occupied).1) := by
            simp [emittedText, Draft.operation, Draft.placement, hlabel, List.lookup_append, hdraft.geometry,
              Assoc.lookup_cons, Ne.symm hkey, ofValue_asList]
          rw [hemitted]
          simp [Placing.box]

/-! ## The drafts of the engine -/

variable {style : TextStyle} {dimstyle layer suffix featureId text kind : String} {value : ℝ}
  {start endPoint anchor : ℝ × ℝ} {extra : Dict} {index : Nat} {group : HoleGroup} {profile : CompanyProfile}
  {tolerance : ToleranceProfile} {spec : DrawingSpec} {measured : GeometryMeasurements} {missing : List MissingInput}

theorem boxless_dimensionDraft :
    (dimensionDraft style dimstyle layer suffix featureId value start endPoint anchor kind).Boxless where
  geometry := by simp [dimensionDraft, Assoc.lookup_cons]
  key label h := by cases h; simp

theorem boxless_textDraft (h : extra.lookup "text_bbox_mm" = none) :
    (textDraft style layer suffix featureId text anchor kind extra).Boxless where
  geometry := by simp [textDraft, Assoc.lookup_cons, h]
  key label h := by cases h; simp

theorem boxless_groupDraft {threshold : ℤ} : (groupDraft style dimstyle layer threshold index group).Boxless := by
  rw [groupDraft]
  split
  · exact boxless_textDraft (by simp [Assoc.lookup_cons])
  · exact
      { geometry := by simp [diameterDraft, Assoc.lookup_cons]
        key := by
          intro label h
          cases h
          simp }

theorem boxless_locationDrafts {datum : Geometry.Point2D} :
    ∀ draft ∈ locationDrafts style dimstyle layer datum index group, draft.Boxless := by
  simp only [locationDrafts, List.forall_mem_flatMap, List.forall_mem_cons, List.not_mem_nil, IsEmpty.forall_iff,
    implies_true, and_true]
  exact fun _ _ => ⟨boxless_dimensionDraft, boxless_dimensionDraft⟩

theorem boxless_groupDrafts {threshold : ℤ} {datum : Option Geometry.Point2D} {groups : List HoleGroup} :
    ∀ draft ∈ (groupDrafts style dimstyle layer threshold datum groups).1, draft.Boxless := by
  cases datum with
  | none =>
      simp only [groupDrafts, List.forall_mem_map]
      exact fun _ _ => boxless_groupDraft
  | some datum =>
      simp only [groupDrafts, List.forall_mem_flatMap, List.forall_mem_cons]
      exact fun _ _ => ⟨boxless_groupDraft, boxless_locationDrafts⟩

theorem boxless_centerDrafts (h : centerDrafts profile tolerance measured = .ok drafts) :
    ∀ draft ∈ drafts, draft.Boxless := by
  simp only [centerDrafts, Fallible.bind_eq_ok, Fallible.pure_eq_ok] at h
  obtain ⟨centerLayer, -, lineLayer, -, rfl⟩ := h
  simp only [List.forall_mem_append, List.forall_mem_map]
  constructor
  · intro hole _
    exact ⟨by simp [centermarkDraft, Assoc.lookup_cons], fun label h => by cases h⟩
  · intro pair _
    exact ⟨by simp [centerlineDraft, Assoc.lookup_cons], fun label h => by cases h⟩

theorem boxless_tableDrafts (h : tableDrafts profile style measured = .ok drafts) : ∀ draft ∈ drafts, draft.Boxless := by
  rw [tableDrafts] at h
  split at h
  · intro draft hdraft
    obtain ⟨group, hgroup, hrun⟩ := Fallible.mem_of_forall₂ (Fallible.mapM_eq_ok.mp h) hdraft
    simp only [Fallible.bind_eq_ok, Fallible.pure_eq_ok] at hrun
    obtain ⟨layer, -, rfl⟩ := hrun
    exact boxless_textDraft (by simp [Assoc.lookup_cons])
  · cases h
    simp

theorem boxless_titleBlockDrafts (h : titleBlockDrafts profile spec style = .ok (drafts, missing)) :
    ∀ draft ∈ drafts, draft.Boxless := by
  rw [titleBlockDrafts] at h
  split at h
  · cases h
    simp
  · simp only [Fallible.bind_eq_ok, Fallible.pure_eq_ok, Prod.mk.injEq] at h
    obtain ⟨found, hfound, rfl, -⟩ := h
    intro draft hdraft
    obtain ⟨value, -, hrun⟩ := Fallible.mem_of_forall₂ (Fallible.mapM_eq_ok.mp hfound) hdraft
    simp only [Fallible.bind_eq_ok, Fallible.pure_eq_ok] at hrun
    obtain ⟨layer, -, rfl⟩ := hrun
    exact boxless_textDraft (by simp [Assoc.lookup_cons])

theorem boxless_gdtDrafts (h : gdtDrafts profile spec style = .ok drafts) : ∀ draft ∈ drafts, draft.Boxless := by
  simp only [gdtDrafts, Fallible.bind_eq_ok, Fallible.pure_eq_ok] at h
  obtain ⟨layer, -, rfl⟩ := h
  simp only [List.forall_mem_append, List.forall_mem_map]
  constructor
  · exact fun _ _ => boxless_textDraft (by simp [Assoc.lookup_cons])
  · exact fun _ _ => boxless_textDraft (by simp [Assoc.lookup_cons])

theorem boxless_measuredDrafts {operations : List Plan.Operation} {datum : Option Geometry.Point2D}
    (h : measuredDrafts profile tolerance operations datum style = .ok (drafts, missing)) :
    ∀ draft ∈ drafts, draft.Boxless := by
  simp only [measuredDrafts, Fallible.bind_eq_ok, Fallible.pure_eq_ok, Prod.mk.injEq, Prod.exists] at h
  obtain ⟨dimstyle, -, holeLayer, -, measured, -, dimensions, _, hdimensions, centers, hcenters, table, htable, rfl, -⟩ := h
  simp only [dimensionDrafts, Fallible.bind_eq_ok, Fallible.pure_eq_ok, Prod.mk.injEq] at hdimensions
  obtain ⟨layer, -, threshold, -, rfl, -⟩ := hdimensions
  simp only [overallDrafts, List.forall_mem_append, List.forall_mem_cons, List.not_mem_nil, IsEmpty.forall_iff,
    implies_true, and_true]
  exact ⟨⟨⟨⟨boxless_dimensionDraft, boxless_dimensionDraft⟩, boxless_groupDrafts⟩, boxless_centerDrafts hcenters⟩,
    boxless_tableDrafts htable⟩

theorem boxless_draftAnnotations {operations : List Plan.Operation} {datum : Option Geometry.Point2D} {drafted : Drafted}
    (h : draftAnnotations profile tolerance operations spec datum = .ok drafted) :
    ∀ draft ∈ drafted.drafts, draft.Boxless := by
  unfold draftAnnotations at h
  by_cases hnone : spec.annotations.dimensions = .none ∧ !hasNonDimensionAnnotations spec.annotations
  · rw [if_pos hnone] at h
    cases h
    simp
  rw [if_neg hnone] at h
  by_cases hdimensions : spec.annotations.dimensions ≠ .none ∧ operations ≠ []
  · simp only [hdimensions, not_false_eq_true, and_self, if_true, ne_eq, Fallible.bind_eq_ok, Fallible.pure_eq_ok,
      Prod.exists] at h
    obtain ⟨name, -, heightMm, -, measured, _, hmeasured, titleBlock, _, htitleBlock, gdt, hgdt, rfl⟩ := h
    simp only [List.forall_mem_append]
    exact ⟨⟨boxless_measuredDrafts hmeasured, boxless_titleBlockDrafts htitleBlock⟩, boxless_gdtDrafts hgdt⟩
  · simp only [hdimensions, if_false, Fallible.bind_eq_ok, Fallible.pure_eq_ok, Prod.exists, Prod.mk.injEq] at h
    obtain ⟨name, -, heightMm, -, measured, _, ⟨rfl, -⟩, titleBlock, _, htitleBlock, gdt, hgdt, rfl⟩ := h
    simp only [List.nil_append, List.forall_mem_append]
    exact ⟨boxless_titleBlockDrafts htitleBlock, boxless_gdtDrafts hgdt⟩

/-! ## Warnings and overlaps -/

theorem overlapsReported_placeDrafts (h : ∀ draft ∈ drafts, draft.Boxless) :
    OverlapsReported rules.maximumOverlapRatio (placeDrafts rules heightMm drafts [])
        (placementFindings rules heightMm drafts []) ↔
      ClearOfUnsuited rules (placings rules heightMm drafts []) := by
  have hoccupied := List.pairwise_iff_getElem.mp
    (@suited_occupied rules [] heightMm drafts)
  rw [OverlapsReported, ClearOfUnsuited, emittedTexts_placeDrafts h, List.pairwise_map]
  simp only [reported_iff, List.pairwise_iff_getElem]
  refine forall₅_congr ?_
  intro i j hi hj hij
  constructor
  · exact fun h _ _ => h
  · intro h hover
    by_cases hlater : (placings rules heightMm drafts [])[j].Suited rules
    · apply h _ hlater hover
      intro hearlier
      exact absurd hover (not_lt.mpr (fits_of_suited hlater _ (hoccupied i j hi hj hij hearlier)))
    · exact ⟨_, List.getElem_mem hj, hlater, rfl⟩

/-- Every overlap of an annotation plan has its warning where no text that a position suits comes to lie over one that
no position suited. -/
theorem overlaps_reported_iff (profile : CompanyProfile) (tolerance : ToleranceProfile) (operations : List Plan.Operation)
    (spec : DrawingSpec) (datum : Option Geometry.Point2D) (drafted : Drafted) (result : Result) (findings : List Finding)
    (hdrafted : draftAnnotations profile tolerance operations spec datum = .ok drafted)
    (hresult : annotate profile tolerance operations spec datum = .ok result)
    (hfindings : annotationFindings profile tolerance operations spec datum = .ok findings) :
    OverlapsReported (placementRules profile).maximumOverlapRatio result.operations findings ↔
      ClearOfUnsuited (placementRules profile)
        (placings (placementRules profile) drafted.textHeightMm drafted.drafts []) := by
  simp only [annotate, hdrafted, Fallible.ok_bind, Fallible.pure_eq_ok] at hresult
  simp only [annotationFindings, hdrafted, Fallible.ok_bind, Fallible.pure_eq_ok] at hfindings
  subst hresult hfindings
  exact overlapsReported_placeDrafts (boxless_draftAnnotations hdrafted)

/-! ## Three symbols side by side -/

/-- Texts of ten millimetres that stay where they are anchored. -/
def crowdedProfile : CompanyProfile :=
  { annotationProfile with annotationRules := { textHeightMm := some 10, placementOffsetsMm := [(0, 0)] } }

def symbolAt (identifier : String) (x : ℝ) : DatumFeatureSymbol := ⟨identifier, "plate", (x, 0)⟩

/-- The second symbol lies over the first, the third over the second. -/
def crowdedSymbols : List DatumFeatureSymbol := [symbolAt "A" 0, symbolAt "B" 9, symbolAt "C" 18]

def crowdedSpec : DrawingSpec where
  documentId := "drawing"
  annotations := { datumSymbols := crowdedSymbols }

def crowdedDrafts : List Draft := crowdedSymbols.map (datumSymbolDraft ⟨"Standard", 10⟩ "TEXT")

theorem draftAnnotations_crowded :
    draftAnnotations crowdedProfile {} [] crowdedSpec none = .ok ⟨10, crowdedDrafts, []⟩ := by
  have hstyle : requiredText "text_style" crowdedProfile.textStyle = .ok "Standard" := by
    simp [requiredText, required, crowdedProfile, annotationProfile, Option.filter]
  have hgdt : gdtDrafts crowdedProfile crowdedSpec ⟨"Standard", 10⟩ = .ok crowdedDrafts := by
    simp [gdtDrafts, CompanyProfile.layerFor, crowdedProfile, annotationProfile, crowdedSpec, crowdedDrafts,
      Assoc.lookup_cons, pure, Except.pure, bind, Except.bind]
  have htitleBlock : titleBlockDrafts crowdedProfile crowdedSpec ⟨"Standard", 10⟩ = .ok ([], []) := rfl
  have hheight : required "annotation_rules.text_height_mm" crowdedProfile.annotationRules.textHeightMm = .ok 10 := rfl
  unfold draftAnnotations
  rw [if_neg (by simp [crowdedSpec, hasNonDimensionAnnotations, crowdedSymbols]), hstyle, Fallible.ok_bind, hheight,
    Fallible.ok_bind]
  simp [hgdt, htitleBlock, pure, Except.pure]

def crowdedRules : PlacementRules where
  offsets := [(0, 0)]

theorem placementRules_crowded : placementRules crowdedProfile = crowdedRules := by
  simp [placementRules, crowdedProfile, crowdedRules]

/-- The box of a symbol of ten millimetres. -/
def symbolBox (x : ℝ) : TextBox := ⟨x, 0, x + 18, 10⟩

theorem textBox_symbol (identifier : String) (h : identifier.length = 1) (x : ℝ) :
    textBox s!"[{identifier}]" (x, 0) 10 = symbolBox x := by
  have hlength : (s!"[{identifier}]").length = 3 := by
    simp only [toString, String.length_append, h]
    rfl
  rw [textBox, hlength, symbolBox]
  norm_num

theorem overlapRatio_symbols {x y : ℝ} (hxy : y ≤ x) (hyx : x ≤ y + 18) :
    overlapRatio (symbolBox x) (symbolBox y) = (y + 18 - x) / 18 := by
  have hwidth : max 0 (min (x + 18) (y + 18) - max x y) = y + 18 - x := by
    rw [min_eq_right (by linarith), max_eq_left hxy, max_eq_right (by linarith)]
  have harea (z : ℝ) : (symbolBox z).area = 180 := by
    simp only [TextBox.area, symbolBox]
    norm_num
  have hheight : max 0 (min (10 : ℝ) 10 - max 0 0) = 10 := by norm_num
  simp only [overlapRatio, harea]
  simp only [symbolBox, hwidth, hheight]
  norm_num
  ring

theorem translated_zero (box : TextBox) : box.translated (0, 0) = box := by
  simp [TextBox.translated]

theorem chooseOffset_crowded (base : TextBox) (occupied : List TextBox) :
    chooseOffset crowdedRules base occupied = ((0, 0),
      if ∀ prior ∈ occupied, overlapRatio base prior ≤ maximumOverlapRatio then occupied ++ [base] else occupied) := by
  rw [chooseOffset]
  split_ifs with h
  · have hfind : crowdedRules.offsets.find? (fun offset => decide (∀ prior ∈ occupied,
        overlapRatio (base.translated offset) prior ≤ crowdedRules.maximumOverlapRatio)) = some (0, 0) := by
      rw [crowdedRules, List.find?_cons_of_pos]
      simpa [translated_zero] using h
    rw [hfind]
    simp [translated_zero]
  · simp [crowdedRules, translated_zero, h]

theorem placings_crowded : placings crowdedRules 10 crowdedDrafts [] =
    [⟨annotationId "gdt-datum-A", symbolBox 0, []⟩, ⟨annotationId "gdt-datum-B", symbolBox 9, [symbolBox 0]⟩,
      ⟨annotationId "gdt-datum-C", symbolBox 18, [symbolBox 0]⟩] := by
  have hover : ¬ overlapRatio (symbolBox 9) (symbolBox 0) ≤ maximumOverlapRatio := by
    rw [overlapRatio_symbols (by norm_num) (by norm_num), maximumOverlapRatio]
    norm_num
  have hlabel (identifier : String) (x : ℝ) :
      (datumSymbolDraft ⟨"Standard", 10⟩ "TEXT" (symbolAt identifier x)).label =
        some ⟨s!"[{identifier}]", (x, 0), "position_mm"⟩ := rfl
  simp only [crowdedDrafts, crowdedSymbols, List.map_cons, List.map_nil, placings, placement_snd, hlabel,
    Option.map_some, Option.toList_some, textBox_symbol "A" rfl, textBox_symbol "B" rfl, textBox_symbol "C" rfl,
    chooseOffset_crowded]
  simp [hover]
  exact ⟨rfl, rfl, rfl⟩

theorem suited_crowded {id : String} {x : ℝ} {occupied : List TextBox} :
    (⟨id, symbolBox x, occupied⟩ : Placing).Suited crowdedRules ↔
      ∀ prior ∈ occupied, overlapRatio (symbolBox x) prior ≤ maximumOverlapRatio := by
  simp [Placing.Suited, crowdedRules, translated_zero]

theorem box_crowded {id : String} {x : ℝ} {occupied : List TextBox} :
    (⟨id, symbolBox x, occupied⟩ : Placing).box crowdedRules = symbolBox x := by
  rw [Placing.box, chooseOffset_crowded]
  exact translated_zero _

/-- The third symbol lies over half of the second without a warning. -/
theorem annotations_crowded : ∃ result findings,
    annotate crowdedProfile {} [] crowdedSpec none = .ok result ∧
    annotationFindings crowdedProfile {} [] crowdedSpec none = .ok findings ∧
    ¬ OverlapsReported (placementRules crowdedProfile).maximumOverlapRatio result.operations findings := by
  refine ⟨_, _, by simp only [annotate, draftAnnotations_crowded, Fallible.ok_bind]; rfl, by
    simp only [annotationFindings, draftAnnotations_crowded, Fallible.ok_bind]; rfl, ?_⟩
  rw [overlapsReported_placeDrafts (boxless_draftAnnotations draftAnnotations_crowded), placementRules_crowded,
    placings_crowded, ClearOfUnsuited]
  intro hclear
  have hhalf : maximumOverlapRatio < overlapRatio (symbolBox 9) (symbolBox 0) := by
    rw [overlapRatio_symbols (by norm_num) (by norm_num), maximumOverlapRatio]
    norm_num
  have hover : maximumOverlapRatio < overlapRatio (symbolBox 18) (symbolBox 9) := by
    rw [overlapRatio_symbols (by norm_num) (by norm_num), maximumOverlapRatio]
    norm_num
  have hclear' : overlapRatio (symbolBox 18) (symbolBox 0) ≤ maximumOverlapRatio := by
    rw [overlapRatio_symbols (by norm_num) (by norm_num), maximumOverlapRatio]
    norm_num
  simp only [List.pairwise_cons, List.forall_mem_cons, suited_crowded, box_crowded, List.not_mem_nil,
    IsEmpty.forall_iff, implies_true, and_true] at hclear
  obtain ⟨other, hother, hunsuited, hid⟩ := hclear.2.1 (not_le.mpr hhalf) hclear' hover
  simp only [List.mem_cons, List.not_mem_nil, or_false] at hother
  rcases hother with rfl | rfl | rfl
  · exact absurd hid (by decide)
  · exact absurd hid (by decide)
  · exact hunsuited (suited_crowded.mpr (by simpa using hclear'))

theorem overlaps_reported_iff_crowded : ∃ (drafted : Drafted) (result : Result) (findings : List Finding),
    draftAnnotations crowdedProfile {} [] crowdedSpec none = .ok drafted ∧
    (OverlapsReported (placementRules crowdedProfile).maximumOverlapRatio result.operations findings ↔
      ClearOfUnsuited (placementRules crowdedProfile)
        (placings (placementRules crowdedProfile) drafted.textHeightMm drafted.drafts [])) :=
  ⟨_, _, _, draftAnnotations_crowded,
    overlaps_reported_iff crowdedProfile {} [] crowdedSpec none _ _ _ draftAnnotations_crowded
      (by simp only [annotate, draftAnnotations_crowded, Fallible.ok_bind]; rfl)
      (by simp only [annotationFindings, draftAnnotations_crowded, Fallible.ok_bind]; rfl)⟩

end

end CadHarness.Annotation
