import CadHarness.Annotation.DimensionRules
import CadHarness.Geometry.Predicates
import Mathlib.Data.List.MinMax

/-!
# The annotation engine

`cad_harness.annotation.engine` and `cad_harness.annotation.title_block`. What the engine draws is first drafted in
its order; the texts are then placed in that order, each beside the ones before it.
-/

/-!
## Placing texts

`cad_harness.annotation.placement`. The warning for a text that no position suits is in
`CadHarness.Annotation.OverlapTheorems`: a plan does not carry it.
-/

namespace CadHarness.Annotation
open CadHarness.Geometry CadHarness.Plan

noncomputable section
open Classical

def maximumOverlapRatio : ℝ := 0.10

def defaultOffsetsMm : List (ℝ × ℝ) := [(0, 0), (0, 5), (5, 0), (-5, 0), (0, -5), (10, 5), (-10, 5)]

structure TextBox where
  minX : ℝ
  minY : ℝ
  maxX : ℝ
  maxY : ℝ

namespace TextBox

variable (box : TextBox)

def area : ℝ := max 0 (box.maxX - box.minX) * max 0 (box.maxY - box.minY)

def translated (d : ℝ × ℝ) : TextBox := ⟨box.minX + d.1, box.minY + d.2, box.maxX + d.1, box.maxY + d.2⟩

def asList : Value := .arr [real box.minX, real box.minY, real box.maxX, real box.maxY]

end TextBox

/-- `text_box`: the width follows from the number of characters -/
def textBox (text : String) (anchor : ℝ × ℝ) (textHeightMm : ℝ) : TextBox :=
  ⟨anchor.1, anchor.2, anchor.1 + max 1 text.length * textHeightMm * 0.6, anchor.2 + textHeightMm⟩

def overlapRatio (first second : TextBox) : ℝ :=
  let width := max 0 (min first.maxX second.maxX - max first.minX second.minX)
  let height := max 0 (min first.maxY second.maxY - max first.minY second.minY)
  let smaller := min first.area second.area
  if smaller ≤ 0 then 0 else width * height / smaller

def worstOverlap (occupied : List TextBox) (box : TextBox) : ℝ := maximumOf (occupied.map (overlapRatio box))

structure PlacementRules where
  offsets : List (ℝ × ℝ) := defaultOffsetsMm
  maximumOverlapRatio : ℝ := maximumOverlapRatio

/-- `place_text`: the offset of the first candidate that overlaps little enough, which is then occupied, or of the
one that overlaps least -/
def chooseOffset (rules : PlacementRules) (base : TextBox) (occupied : List TextBox) : (ℝ × ℝ) × List TextBox :=
  match rules.offsets.find? fun offset =>
      ∀ prior ∈ occupied, overlapRatio (base.translated offset) prior ≤ rules.maximumOverlapRatio with
  | some offset => (offset, occupied ++ [base.translated offset])
  | none => ((rules.offsets.argmin fun offset => worstOverlap occupied (base.translated offset)).getD (0, 0), occupied)

end

end CadHarness.Annotation

namespace CadHarness.Annotation
open CadHarness.Catalog CadHarness.Geometry CadHarness.Plan
open CadHarness.Lib
open CadHarness.Lib (FloatText.short)

/-! ## Drafts -/

/-- A text that is placed near its anchor, and the key of its position. -/
structure Label where
  text : String
  anchor : ℝ × ℝ
  key : String

structure Draft where
  suffix : String
  featureId : String
  type : Domain.OperationType
  layer : String
  label : Option Label := none
  geometry : Dict
  expected : Dict

/-- The id of an annotation. -/
def annotationId (suffix : String) : String := s!"op:annotation:{suffix}"

/-- The styles that every text of a plan has. -/
structure TextStyle where
  name : String
  heightMm : ℝ

structure Result where
  operations : List Plan.Operation := []
  expectations : List Plan.ValidationExpectation := []
  missingInputs : List MissingInput := []

noncomputable section
open Classical

namespace Draft

variable (draft : Draft)

def IsDimension : Prop := draft.type = .createLinearDimension ∨ draft.type = .createDiameterDimension

/-- A dimension is expected to say what it measures. -/
def expectations : List Plan.ValidationExpectation :=
  if draft.IsDimension then
    [{ ruleId := "DIMENSION_TEXT_MATCHES_GEOMETRY", featureId := some draft.featureId
       operationId := some (annotationId draft.suffix), expected := draft.expected }]
  else []

/-- The entries that say where a text is placed, and the places that are occupied then. -/
def placement (rules : PlacementRules) (heightMm : ℝ) (occupied : List TextBox) : Dict × List TextBox :=
  match draft.label with
  | none => ([], occupied)
  | some label =>
      let base := textBox label.text label.anchor heightMm
      let (offset, occupied) := chooseOffset rules base occupied
      ([(label.key, pair (label.anchor.1 + offset.1) (label.anchor.2 + offset.2)),
        ("text_bbox_mm", (base.translated offset).asList)], occupied)

def operation (placed : Dict) : Plan.Operation where
  operationId := annotationId draft.suffix
  featureId := draft.featureId
  type := draft.type
  layer := draft.layer
  geometry := draft.geometry ++ placed
  expected := draft.expected

end Draft

/-- The drafts with their texts placed. -/
def placeDrafts (rules : PlacementRules) (heightMm : ℝ) : List Draft → List TextBox → List Plan.Operation
  | [], _ => []
  | draft :: drafts, occupied =>
      let (placed, occupied) := draft.placement rules heightMm occupied
      draft.operation placed :: placeDrafts rules heightMm drafts occupied

/-- `_dimension_operation` -/
def dimensionDraft (style : TextStyle) (dimstyle layer suffix featureId : String) (value : ℝ)
    (start endPoint anchor : ℝ × ℝ) (annotationKind : String := "linear_dimension") : Draft where
  suffix
  featureId
  type := .createLinearDimension
  layer
  label := some ⟨FloatText.short value, anchor, "text_position_mm"⟩
  geometry := [("start_mm", pair start.1 start.2), ("end_mm", pair endPoint.1 endPoint.2),
    ("measurement_mm", real value), ("text_value", .str (FloatText.short value)), ("dimstyle", .str dimstyle),
    ("textstyle", .str style.name), ("text_height_mm", real style.heightMm), ("annotation_kind", .str annotationKind)]
  expected := [("measurement_mm", real value), ("text_value_mm", real value)]

/-- `_diameter_operation` -/
def diameterDraft (style : TextStyle) (dimstyle layer : String) (index : Nat) (hole : Hole) (diameter : ℝ) : Draft where
  suffix := s!"hole-diameter-{index}"
  featureId := hole.featureId
  type := .createDiameterDimension
  layer
  label := some ⟨s!"Ø{FloatText.short diameter}", (hole.center.x, hole.center.y), "text_position_mm"⟩
  geometry := [("center_mm", hole.center.asTuple), ("measurement_mm", real diameter),
    ("text_value", .str s!"Ø{FloatText.short diameter}"), ("dimstyle", .str dimstyle), ("textstyle", .str style.name),
    ("text_height_mm", real style.heightMm), ("annotation_kind", .str "hole_diameter")]
  expected := [("measurement_mm", real diameter), ("text_value_mm", real diameter)]

/-- `_text_operation` -/
def textDraft (style : TextStyle) (layer suffix featureId text : String) (anchor : ℝ × ℝ) (annotationKind : String)
    (extra : Dict) : Draft where
  suffix
  featureId
  type := .createText
  layer
  label := some ⟨text, anchor, "position_mm"⟩
  geometry := [("text", .str text), ("textstyle", .str style.name), ("text_height_mm", real style.heightMm),
    ("annotation_kind", .str annotationKind)] ++ extra
  expected := [("text", .str text)]

/-! ## Dimensions -/

def overallDrafts (style : TextStyle) (dimstyle layer : String) (box : BoundingBox) : List Draft :=
  [dimensionDraft style dimstyle layer "overall-width" "annotation:overall" box.width (box.minX, box.minY)
      (box.maxX, box.minY) (box.minX, box.minY - 8),
    dimensionDraft style dimstyle layer "overall-height" "annotation:overall" box.height (box.minX, box.minY)
      (box.minX, box.maxY) (box.minX - 8, box.minY)]

/-- The callout of a group with enough holes, or the dimension of its first hole. -/
def groupDraft (style : TextStyle) (dimstyle layer : String) (threshold : ℤ) (index : Nat) (group : HoleGroup) : Draft :=
  if threshold ≤ group.holes.length then
    textDraft style layer s!"hole-callout-{index}" group.first.featureId
      s!"{group.holes.length} × Ø{FloatText.short group.diameterMm}" (group.first.center.x, group.first.center.y)
      "hole_callout" [("diameter_mm", real group.diameterMm), ("count", count group.holes.length)]
  else diameterDraft style dimstyle layer index group.first group.diameterMm

/-- Where the holes of a group are. -/
def locationDrafts (style : TextStyle) (dimstyle layer : String) (datum : Point2D) (index : Nat) (group : HoleGroup) :
    List Draft :=
  group.holes.zipIdx.flatMap fun hole =>
    let center := hole.1.center
    [dimensionDraft style dimstyle layer s!"hole-{index}-{hole.2}-x" hole.1.featureId |center.x - datum.x|
        (datum.x, datum.y) (center.x, datum.y) (center.x, center.y) "hole_location_x",
      dimensionDraft style dimstyle layer s!"hole-{index}-{hole.2}-y" hole.1.featureId |center.y - datum.y|
        (datum.x, datum.y) (datum.x, center.y) (center.x, center.y) "hole_location_y"]

def missingDatum : MissingInput :=
  ⟨"drawing.datum", "A datum is required for hole location dimensions", ["point_mm", "resolved named datum"]⟩

/-- The drafts of the groups, and an input that is missing for each where there is no datum. -/
def groupDrafts (style : TextStyle) (dimstyle layer : String) (threshold : ℤ) (datum : Option Point2D)
    (groups : List HoleGroup) : List Draft × List MissingInput :=
  match datum with
  | none => (groups.zipIdx.map fun g => groupDraft style dimstyle layer threshold g.2 g.1, groups.map fun _ => missingDatum)
  | some datum =>
      (groups.zipIdx.flatMap fun g => groupDraft style dimstyle layer threshold g.2 g.1 ::
        locationDrafts style dimstyle layer datum g.2 g.1, [])

def required {α : Type} (key : String) (value : Option α) : Except KernelError α :=
  match value with
  | some value => .ok value
  | none => .error (.harness .standardProfileNotFound
      s!"Standard profile is missing required annotation configuration '{key}'"
      (some "Add the missing annotation configuration to the selected profile")
      [("missing_config_key", .value (.str key))])

/-- A text of the profile that is not empty. -/
def requiredText (key : String) (value : Option String) : Except KernelError String :=
  required key (value.filter (· ≠ ""))

/-- `_dimensions` -/
def dimensionDrafts (profile : CompanyProfile) (style : TextStyle) (dimstyle : String) (datum : Option Point2D)
    (measured : GeometryMeasurements) : Except KernelError (List Draft × List MissingInput) := do
  let layer ← profile.layerFor "dimension"
  let threshold ← required "annotation_rules.hole_callout_min_count" profile.annotationRules.holeCalloutMinCount
  let (drafts, missing) := groupDrafts style dimstyle layer threshold datum measured.holeGroups
  return (overallDrafts style dimstyle layer measured.box ++ drafts, missing)

/-! ## Centers and the hole table -/

def centermarkDraft (layer : String) (index : Nat) (hole : Hole) : Draft where
  suffix := s!"centermark-{index}"
  featureId := hole.featureId
  type := .createCentermark
  layer
  geometry := [("center_mm", hole.center.asTuple)]
  expected := [("center_mm", hole.center.asTuple)]

def centerlineDraft (layer : String) (index : Nat) (first second : Hole) : Draft where
  suffix := s!"centerline-{index}"
  featureId := s!"annotation:centerline:{first.featureId}"
  type := .createCenterline
  layer
  geometry := [("start_mm", first.center.asTuple), ("end_mm", second.center.asTuple)]
  expected := [("coaxial", .bool true)]

/-- `_centers` -/
def centerDrafts (profile : CompanyProfile) (tolerance : ToleranceProfile) (measured : GeometryMeasurements) :
    Except KernelError (List Draft) := do
  let centerLayer ← profile.layerFor "centermark"
  let lineLayer ← profile.layerFor "centerline"
  let holes := measured.holeGroups.flatMap HoleGroup.holes
  return (holes.zipIdx.map fun hole => centermarkDraft centerLayer hole.2 hole.1) ++
    (alignedHolePairs tolerance holes).zipIdx.map fun pair => centerlineDraft lineLayer pair.2 pair.1.1 pair.1.2

/-- `chr(ord("A") + index)` -/
def symbolOf (index : Nat) : String := (Char.ofNat ('A'.toNat + index)).toString

def tableRowDraft (style : TextStyle) (layer : String) (box : BoundingBox) (index : Nat) (group : HoleGroup) : Draft :=
  textDraft style layer s!"hole-table-{index}" "annotation:hole-table"
    s!"{symbolOf index} | {group.holes.length} | Ø{FloatText.short group.diameterMm}"
    (box.maxX + 15, box.maxY - index * style.heightMm * 1.5) "hole_table_row"
    [("symbol", .str (symbolOf index)), ("count", count group.holes.length), ("diameter_mm", real group.diameterMm)]

/-- `_hole_table` -/
def tableDrafts (profile : CompanyProfile) (style : TextStyle) (measured : GeometryMeasurements) :
    Except KernelError (List Draft) :=
  if profile.annotationRules.holeTable.getD false then
    measured.holeGroups.zipIdx.mapM fun group => do
      return tableRowDraft style (← profile.layerFor "text") measured.box group.2 group.1
  else .ok []

/-! ## The title block -/

/-- A value of the title block, with where it comes from. -/
structure TitleBlockValue where
  value : String
  source : String
  sourceVersion : String

/-- A text without the white space around it, if there is more. -/
def nonBlank (text : Option String) : Option String := (text.map Python.strip).filter (· ≠ "")

/-- The value of a field: the specification's, or the profile's. -/
def titleBlockValue (spec : DrawingSpec) (profile : CompanyProfile) (field : TitleBlockField) : Option TitleBlockValue :=
  match nonBlank (spec.annotations.titleBlockValues.lookup field.name), nonBlank field.value with
  | some value, _ => some ⟨value, "drawing-spec", spec.schemaVersion⟩
  | none, some value => some ⟨value, profile.profileId, profile.version⟩
  | none, none => none

def missingField (field : TitleBlockField) : MissingInput :=
  ⟨s!"annotations.title_block_values.{field.name}",
    s!"Required title-block field '{field.name}' has no non-blank value", ["non-empty string"]⟩

/-- `resolve_title_block` -/
def resolveTitleBlock (spec : DrawingSpec) (profile : CompanyProfile) :
    List (String × TitleBlockValue) × List MissingInput :=
  (profile.titleBlockFields.foldl (fun values field =>
      match titleBlockValue spec profile field with
      | some value => Assoc.set values field.name value
      | none => values) [],
    (profile.titleBlockFields.filter fun field =>
      (titleBlockValue spec profile field).isNone && field.required).map missingField)

def titleBlockDraft (style : TextStyle) (layer : String) (index : Nat) (name : String) (value : TitleBlockValue) : Draft :=
  textDraft style layer s!"title-block-{name}" "annotation:title-block" s!"{name}: {value.value}"
    (0, -30 - index * style.heightMm * 1.5) "title_block_field"
    [("field_name", .str name), ("source", .str value.source), ("source_version", .str value.sourceVersion)]

/-- `_title_block` -/
def titleBlockDrafts (profile : CompanyProfile) (spec : DrawingSpec) (style : TextStyle) :
    Except KernelError (List Draft × List MissingInput) :=
  match spec.annotations.titleBlock with
  | none => .ok ([], [])
  | some _ => do
      let (values, missing) := resolveTitleBlock spec profile
      let drafts ← values.zipIdx.mapM fun v => do
        return titleBlockDraft style (← profile.layerFor "text") v.2 v.1.1 v.1.2
      return (drafts, missing)

/-! ## Datums and feature control frames -/

def datumSymbolDraft (style : TextStyle) (layer : String) (symbol : DatumFeatureSymbol) : Draft :=
  textDraft style layer s!"gdt-datum-{symbol.identifier}" symbol.featureId s!"[{symbol.identifier}]" symbol.positionMm
    "gdt_datum_symbol" [("datum_identifier", .str symbol.identifier)]

def controlFrameDraft (style : TextStyle) (layer : String) (frame : FeatureControlFrame) : Draft :=
  textDraft style layer s!"gdt-frame-{frame.frameId}" frame.featureId
    (" | ".intercalate (frame.characteristic :: frame.toleranceText :: frame.datumReferences)) frame.positionMm
    "gdt_feature_control_frame"
    [("frame_id", .str frame.frameId), ("datum_references", strings frame.datumReferences),
      ("certifies_tolerance_chain", .bool false)]

/-- `_gdt` -/
def gdtDrafts (profile : CompanyProfile) (spec : DrawingSpec) (style : TextStyle) : Except KernelError (List Draft) := do
  let layer ← profile.layerFor "text"
  return spec.annotations.datumSymbols.map (datumSymbolDraft style layer) ++
    spec.annotations.featureControlFrames.map (controlFrameDraft style layer)

/-! ## The engine -/

/-- `_has_non_dimension_annotations` -/
def hasNonDimensionAnnotations (annotations : Annotations) : Bool :=
  (annotations.titleBlock.getD "" ≠ "") || !annotations.datumSymbols.isEmpty || !annotations.featureControlFrames.isEmpty

def placementRules (profile : CompanyProfile) : PlacementRules where
  offsets := if profile.annotationRules.placementOffsetsMm.isEmpty then defaultOffsetsMm
    else profile.annotationRules.placementOffsetsMm
  maximumOverlapRatio := profile.annotationRules.maximumTextOverlapRatio.getD maximumOverlapRatio

/-- The drafts of the dimensions, the centers and the hole table. -/
def measuredDrafts (profile : CompanyProfile) (tolerance : ToleranceProfile) (operations : List Plan.Operation)
    (datum : Option Point2D) (style : TextStyle) : Except KernelError (List Draft × List MissingInput) := do
  let dimstyle ← requiredText "dimension_style" profile.dimensionStyle
  let measured ← measureGeometry operations (← profile.layerFor "hole") tolerance
  let (dimensions, missing) ← dimensionDrafts profile style dimstyle datum measured
  let centers ← centerDrafts profile tolerance measured
  let table ← tableDrafts profile style measured
  return (dimensions ++ centers ++ table, missing)

/-- What the engine draws, before the texts are placed. -/
structure Drafted where
  textHeightMm : ℝ := 0
  drafts : List Draft := []
  missingInputs : List MissingInput := []

def draftAnnotations (profile : CompanyProfile) (tolerance : ToleranceProfile) (operations : List Plan.Operation)
    (spec : DrawingSpec) (datum : Option Point2D) : Except KernelError Drafted :=
  if spec.annotations.dimensions = .none ∧ !hasNonDimensionAnnotations spec.annotations then .ok {}
  else do
    let name ← requiredText "text_style" profile.textStyle
    let heightMm ← required "annotation_rules.text_height_mm" profile.annotationRules.textHeightMm
    let style : TextStyle := ⟨name, heightMm⟩
    let (measured, missing) ←
      if spec.annotations.dimensions ≠ .none ∧ operations ≠ [] then
        measuredDrafts profile tolerance operations datum style
      else pure ([], [])
    let (titleBlock, missingFields) ← titleBlockDrafts profile spec style
    let gdt ← gdtDrafts profile spec style
    return ⟨heightMm, measured ++ titleBlock ++ gdt, missing ++ missingFields⟩

/-- `annotate` -/
def annotate (profile : CompanyProfile) (tolerance : ToleranceProfile) (operations : List Plan.Operation)
    (spec : DrawingSpec) (datum : Option Point2D) : Except KernelError Result := do
  let drafted ← draftAnnotations profile tolerance operations spec datum
  return {
    operations := placeDrafts (placementRules profile) drafted.textHeightMm drafted.drafts []
    expectations := drafted.drafts.flatMap Draft.expectations
    missingInputs := drafted.missingInputs }

end

end CadHarness.Annotation
