import CadHarness.Inspection.Snapshot

/-!
# Validation of what the host enumerates

`CopyAndValidate` and the reads that order what they have validated. A tree of entities has no cycles, so the
check for one is left out.
-/

namespace CadHarness.Inspection
open CadHarness.Lib CadHarness.Canonical

def maximumWholeDocumentObservationEntities : Nat := 200000

def maximumNestedEntityDepth : Nat := 32

/-! ## Identifiers and numbers -/

def slash : UInt16 := 47

def backslash : UInt16 := 92

def isWhiteSpace (u : UInt16) : Bool := DotNet.isWhiteSpace (Text.scalar u)

def isControl (u : UInt16) : Bool := DotNet.isControl (Text.scalar u)

def invalidReason (value : Text) : Option String :=
  if 256 < value.length then some "length"
  else if slash ∈ value then some "slash"
  else if backslash ∈ value then some "backslash"
  else if value.any isControl then some "control"
  else none

def validateIdentifier (value : Text) (parameterName : String) : Except Exception Unit :=
  if value.all isWhiteSpace then
    throw (.argument "Inspection identifiers cannot be blank." s!"{parameterName}.blank")
  else match invalidReason value with
    | some reason =>
        throw (.argument "Inspection identifiers must be bounded and cannot contain paths or control characters."
          s!"{parameterName}.{reason}")
    | none => pure ()

def validateOptionalIdentifier (value : Option Text) (parameterName : String) : Except Exception Unit :=
  match value with
  | some value => validateIdentifier value parameterName
  | none => pure ()

def validateFinite (value : RawDouble) (parameterName : String) : Except Exception Unit :=
  if value.isFinite then pure () else throw (.argumentOutOfRange parameterName "Geometry values must be finite.")

def validateOptionalFinite (value : Option RawDouble) (parameterName : String) : Except Exception Unit :=
  match value with
  | some value => validateFinite value parameterName
  | none => pure ()

/-! ## Geometry -/

def InspectionPoint.validate (source : InspectionPoint) : Except Exception Unit := do
  validateFinite source.x "X"
  validateFinite source.y "Y"
  validateFinite source.z "Z"

def InspectionBounds.validate (source : InspectionBounds) : Except Exception Unit := do
  source.minimum.validate
  source.maximum.validate
  if source.maximum.x.lt source.minimum.x || source.maximum.y.lt source.minimum.y ||
      source.maximum.z.lt source.minimum.z then
    throw (.argument "Geometry bounds must be ordered minimum-to-maximum." "source")

def validateReferences (references : Option (List StableEntityReference)) (parameterName : String) :
    Except Exception Unit :=
  match references with
  | some references =>
      if (references.map (·.handle)).Nodup then pure ()
      else throw (.argument "Observed entity references must be non-null and unique." parameterName)
  | none => pure ()

def validateBulges (bulges : Option (List RawDouble)) (points : List InspectionPoint) :
    Except Exception Unit :=
  match bulges with
  | some bulges => do
      if bulges.length ≠ points.length then
        throw (.argument "Polyline bulges must have one value per observed vertex." "source")
      bulges.forM (fun bulge => validateFinite bulge "Bulges")
  | none => pure ()

/-- The checks of a geometry that come before its child entities. -/
def InspectionGeometry.validate (source : InspectionGeometry) : Except Exception Unit := do
  source.points.forM InspectionPoint.validate
  validateOptionalFinite source.radius "Radius"
  validateOptionalFinite source.startAngleRadians "StartAngleRadians"
  validateOptionalFinite source.endAngleRadians "EndAngleRadians"
  validateOptionalFinite source.majorAxis "MajorAxis"
  validateOptionalFinite source.minorAxis "MinorAxis"
  validateOptionalFinite source.rotationRadians "RotationRadians"
  validateOptionalFinite source.textHeight "TextHeight"
  validateOptionalFinite source.measurement "Measurement"
  validateOptionalFinite source.observedArea "ObservedArea"
  validateOptionalFinite source.scaleX "ScaleX"
  validateOptionalFinite source.scaleY "ScaleY"
  if source.radius.any RawDouble.isNonpositive then
    throw (.argumentOutOfRange "source" "A geometry radius must be positive.")
  if source.majorAxis.any RawDouble.isNonpositive || source.minorAxis.any RawDouble.isNonpositive ||
      source.textHeight.any RawDouble.isNonpositive || source.scaleX.any RawDouble.isZero ||
      source.scaleY.any RawDouble.isZero || source.observedArea.any (fun area => area.lt .zero) ||
      source.nestedDepthRead < 0 || source.childrenBeyondDepth < 0 then
    throw (.argumentOutOfRange "source" "Observed geometry dimensions and counts are invalid.")
  validateOptionalIdentifier source.textStyle "TextStyle"
  validateOptionalIdentifier source.dimensionType "DimensionType"
  validateOptionalIdentifier source.dimensionStyle "DimensionStyle"
  validateOptionalIdentifier source.patternName "PatternName"
  validateOptionalIdentifier source.blockName "BlockName"
  if let some bounds := source.bounds then bounds.validate
  validateBulges source.bulges source.points
  if let some insertion := source.insertion then insertion.validate
  validateReferences source.measuredEntityRefs "MeasuredEntityRefs"
  validateReferences source.boundaryEntityRefs "BoundaryEntityRefs"

/-- Whether a geometry holds what its kind needs. -/
def InspectionGeometry.hasShape (source : InspectionGeometry) : Bool :=
  match source.kind with
  | .point => source.points.length = 1
  | .line => source.points.length = 2
  | .circle => source.points.length = 1 && source.radius.isSome
  | .arc => source.points.length = 1 && source.radius.isSome && source.startAngleRadians.isSome &&
      source.endAngleRadians.isSome
  | .ellipse => source.points.length = 1 && source.majorAxis.isSome && source.minorAxis.isSome &&
      source.rotationRadians.isSome
  | .polyline => 2 ≤ source.points.length && source.bulges.all (fun bulges => bulges.length = source.points.length)
  | .text => 1 ≤ source.points.length && source.textHeight.isSome && source.textStyle.isSome
  | .dimension => source.dimensionType.isSome && source.dimensionStyle.isSome
  | .hatch => source.patternName.isSome
  | .blockReference => source.blockName.isSome && source.insertion.isSome && source.scaleX.isSome &&
      source.scaleY.isSome
  | .other => true

def validateGeometryShape (source : InspectionGeometry) : Except Exception Unit :=
  if source.hasShape then pure ()
  else throw (.argument "Geometry does not contain the observations required for its kind." "source")

/-! ## Entities -/

def InspectionAttributes.validate (source : InspectionAttributes) : Except Exception Unit := do
  validateIdentifier source.entityType "EntityType"
  validateIdentifier source.layer "Layer"
  validateOptionalIdentifier source.style "Style"
  validateOptionalIdentifier source.linetype "Linetype"
  validateIdentifier source.space "Space"

mutual
/-- `CopyAndValidate`. Of a geometry only the child entities come out in another order. -/
def InspectionEntity.copyAndValidate (depth : Nat) : InspectionEntity → Except Exception InspectionEntity
  | .mk attributes geometry childEntities => do
      if maximumNestedEntityDepth < depth then
        throw (.invalidOperation "Nested inspection entities exceed the safe depth limit.")
      attributes.validate
      geometry.validate
      let childEntities ← copyAndValidateChildEntities (depth + 1) childEntities
      validateGeometryShape geometry
      return .mk attributes geometry childEntities

def copyAndValidateChildEntities (depth : Nat) :
    Option (List InspectionEntity) → Except Exception (Option (List InspectionEntity))
  | none => return none
  | some sources => do
      let children ← copyAndValidateEntities depth sources
      if ¬ (children.map (·.handle)).Nodup then
        throw (.invalidOperation "Nested inspection entities contain a duplicate stable entity handle.")
      return some (sortBy (fun child => ordinal child.handle) children)

def copyAndValidateEntities (depth : Nat) :
    List InspectionEntity → Except Exception (List InspectionEntity)
  | [] => return []
  | source :: sources => do
      let entity ← source.copyAndValidate depth
      return entity :: (← copyAndValidateEntities depth sources)
end

def InspectionLayer.copyAndValidate (source : InspectionLayer) : Except Exception InspectionLayer := do
  validateIdentifier source.name "layer.Name"
  validateOptionalIdentifier source.linetype "Linetype"
  return source

def InspectionStyle.copyAndValidate (source : InspectionStyle) : Except Exception InspectionStyle := do
  validateIdentifier source.name "style.Name"
  validateOptionalFinite source.scale "Scale"
  return source

/-! ## Reads of the document -/

/-- What the host shows of one bound document. -/
structure BoundInspectionDocument where
  documentId : Text
  sourceUnitCode : Text
  readEntities : List InspectionEntity
  readLayers : List InspectionLayer
  readStyles : List InspectionStyle

def observationLimitExceeded : Exception :=
  .invalidOperation s!"The document exceeds the hard observation limit of {maximumWholeDocumentObservationEntities} entities."

def duplicateHandle : Exception :=
  .invalidOperation "The bound document returned a duplicate stable entity handle."

/-- The loop of `ReadAndOrderEntities`. The set of handles is that of the entities read so far. -/
def readEntitiesLoop (entities : List InspectionEntity) :
    List InspectionEntity → Except Exception (List InspectionEntity)
  | [] => return entities
  | source :: sources => do
      if entities.length = maximumWholeDocumentObservationEntities then throw observationLimitExceeded
      let entity ← source.copyAndValidate 0
      if entity.handle ∈ entities.map (·.handle) then throw duplicateHandle
      readEntitiesLoop (entities ++ [entity]) sources

def readAndOrderEntities (document : BoundInspectionDocument) : Except Exception (List InspectionEntity) := do
  let entities ← readEntitiesLoop [] document.readEntities
  return sortBy (fun entity => ordinal entity.handle) entities

/-- The loop of `ReadAndOrderLayers` and of `ReadAndOrderStyles`: no two values have one key. -/
def readDistinct {α κ : Type} [DecidableEq κ] (validate : α → Except Exception α) (key : α → κ)
    (duplicate : Exception) (read : List α) : List α → Except Exception (List α)
  | [] => return read
  | source :: sources => do
      let value ← validate source
      if key value ∈ read.map key then throw duplicate
      readDistinct validate key duplicate (read ++ [value]) sources

def readAndOrderLayers (document : BoundInspectionDocument) : Except Exception (List InspectionLayer) := do
  let layers ← readDistinct InspectionLayer.copyAndValidate (·.name)
    (.invalidOperation "The bound document returned a duplicate layer name.") [] document.readLayers
  return sortBy (fun layer => ordinal layer.name) layers

def readAndOrderStyles (document : BoundInspectionDocument) : Except Exception (List InspectionStyle) := do
  let styles ← readDistinct InspectionStyle.copyAndValidate (fun style => (style.kind, style.name))
    (.invalidOperation "The bound document returned a duplicate style identity.") [] document.readStyles
  return sortBy InspectionStyle.key styles

end CadHarness.Inspection
