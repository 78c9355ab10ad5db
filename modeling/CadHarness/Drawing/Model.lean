import Mathlib.Data.Real.Basic

/-!
# The semantic model of a drawing

`cad_harness.domain.models.drawing_model`. Lengths are in millimetres, angles in degrees, numbers are exact.
-/

namespace CadHarness.Drawing

abbrev Point := ℝ × ℝ

/-- `(min_x, min_y, max_x, max_y)` -/
structure BoundingBox where
  minX : ℝ
  minY : ℝ
  maxX : ℝ
  maxY : ℝ

/-! ## Scope -/

inductive ScopeKind where
  | modelSpace
  | selection
  | layer
  | layout
  deriving DecidableEq

/-- A region of a drawing. Its selector is there. -/
structure ReadScope where
  kind : ScopeKind := .modelSpace
  layerName : Option String := none
  layoutName : Option String := none
  entityRefs : List String := []
  layer_given : kind = .layer → layerName.getD "" ≠ "" := by decide
  layout_given : kind = .layout → layoutName.getD "" ≠ "" := by decide
  selection_given : kind = .selection → entityRefs ≠ [] := by decide

/-! ## Geometry -/

structure PolylineVertex where
  pointMm : Point
  bulge : ℝ := 0

structure BlockReferenceGeometry (Record : Type) where
  blockName : String
  insertionMm : Point
  scale : ℝ × ℝ
  rotationDeg : ℝ
  nonUniformScale : Bool := false
  nestedDepthRead : Nat := 0
  childEntities : List Record := []
  childrenBeyondDepth : Nat := 0

inductive EntityGeometry (Record : Type) where
  | point (positionMm : Point)
  | line (startMm endMm : Point)
  | arc (centerMm : Point) (radiusMm startAngleDeg endAngleDeg : ℝ)
  | circle (centerMm : Point) (radiusMm : ℝ)
  | ellipse (centerMm : Point) (majorAxisMm minorAxisMm rotationDeg : ℝ)
  | polyline (vertices : List PolylineVertex) (closed : Bool)
  | text (insertionMm : Point) (heightMm : ℝ) (textStyle content : String)
  | dimension (dimensionType dimensionStyle : String) (measurementMm : Option ℝ) (textOverride : Option String)
  | hatch (patternName : String) (areaMm2 : Option ℝ)
  | blockReference (geometry : BlockReferenceGeometry Record)

inductive EntityRecord where
  | mk (entityRef entityType layer : String) (visible : Bool) (space : String)
      (geometry : EntityGeometry EntityRecord) (boundingBoxMm : BoundingBox) (nonUniformScale : Bool)

namespace EntityRecord

def entityRef : EntityRecord → String
  | mk entityRef _ _ _ _ _ _ _ => entityRef

def entityType : EntityRecord → String
  | mk _ entityType _ _ _ _ _ _ => entityType

def layer : EntityRecord → String
  | mk _ _ layer _ _ _ _ _ => layer

def visible : EntityRecord → Bool
  | mk _ _ _ visible _ _ _ _ => visible

def space : EntityRecord → String
  | mk _ _ _ _ space _ _ _ => space

def geometry : EntityRecord → EntityGeometry EntityRecord
  | mk _ _ _ _ _ geometry _ _ => geometry

def boundingBoxMm : EntityRecord → BoundingBox
  | mk _ _ _ _ _ _ boundingBoxMm _ => boundingBoxMm

/-- `record.model_copy(update={"non_uniform_scale": True})` if the flag is set -/
def scaledNonUniformly (flag : Bool) : EntityRecord → EntityRecord
  | mk entityRef entityType layer visible space geometry boundingBoxMm nonUniformScale =>
      mk entityRef entityType layer visible space geometry boundingBoxMm (flag || nonUniformScale)

/-- The records inside a block reference. -/
def children (record : EntityRecord) : List EntityRecord :=
  match record.geometry with
  | .blockReference b => b.childEntities
  | _ => []

/-- The record at a position: the place among the children on each level. -/
def at? (record : EntityRecord) : List Nat → Option EntityRecord
  | [] => some record
  | i :: path => record.children[i]? >>= fun child => child.at? path

@[simp] theorem entityType_scaledNonUniformly (flag : Bool) (record : EntityRecord) :
    (record.scaledNonUniformly flag).entityType = record.entityType := by
  cases record; rfl

@[simp] theorem children_scaledNonUniformly (flag : Bool) (record : EntityRecord) :
    (record.scaledNonUniformly flag).children = record.children := by
  cases record; rfl

end EntityRecord

/-! ## Coverage -/

structure UnsupportedEntityCount where
  entityType : String
  count : Nat

structure LayerInfo where
  name : String
  colorIndex : Option Int := none
  linetype : Option String := none
  lineweight : Option Int := none
  frozen : Bool := false
  off : Bool := false
  locked : Bool := false

/-- What a read returns. It says where unsupported entities were seen. -/
structure DrawingModel where
  documentId : String
  revision : String
  displayName : String
  sourceUnitCode : String
  toMmFactor : Option ℝ
  geometryNormalized : Bool
  scope : ReadScope
  entities : List EntityRecord := []
  layers : List LayerInfo := []
  dimensionStyles : List String := []
  textStyles : List String := []
  unsupported : List UnsupportedEntityCount := []
  coverageComplete : Bool := true
  arcChordToleranceMm : ℝ
  normalized_given : toMmFactor = none → geometryNormalized = false
  factor_pos : ∀ factor, toMmFactor = some factor → 0 < factor
  coverage : coverageComplete = true → unsupported = []
  chord_pos : 0 < arcChordToleranceMm

end CadHarness.Drawing
