import CadHarness.Inspection.Validation
import CadHarness.Lib.Digest

/-!
# The revision of a document

`ComputeRevision`, the accumulator of the entities, and the two inspections that report the revision. What
they use of .NET is a parameter.
-/

namespace CadHarness.Inspection
open CadHarness.Lib CadHarness.Canonical

/-- A SHA-256 digest, as four 64-bit words. -/
abbrev Digest := Fin 4 → UInt64

/-- What the service uses of .NET: `SHA256.HashData`, the choice of a notation for a `double`, and
`string.ToLowerInvariant`. -/
structure Runtime where
  sha256 : List UInt8 → Digest
  band : Band
  toLowerInvariant : Text → Text

/-! ## Canonical text -/

/-- What `Append` is given. -/
inductive Value where
  | null
  | bool (b : Bool)
  | double (x : RawDouble)
  | int (i : Int)
  | string (t : Text)

def InspectionGeometryKind.name : InspectionGeometryKind → String
  | .point => "Point"
  | .line => "Line"
  | .circle => "Circle"
  | .arc => "Arc"
  | .ellipse => "Ellipse"
  | .polyline => "Polyline"
  | .text => "Text"
  | .dimension => "Dimension"
  | .hatch => "Hatch"
  | .blockReference => "BlockReference"
  | .other => "Other"

def InspectionStyleKind.name : InspectionStyleKind → String
  | .text => "Text"
  | .dimension => "Dimension"
  | .multileader => "Multileader"
  | .table => "Table"
  | .other => "Other"

def nullText : Text := .ofString "<null>"

namespace Value

def label (s : String) : Value := .string (.ofString s)

def count {α : Type} (l : List α) : Value := .int l.length

def geometryKind (kind : InspectionGeometryKind) : Value := label kind.name

def styleKind (kind : InspectionStyleKind) : Value := label kind.name

/-- A nullable value. -/
def optional {α : Type} (f : α → Value) : Option α → Value
  | none => .null
  | some a => f a

variable (band : Band)

def text : Value → Text
  | .null => nullText
  | .bool b => .ofString (if b then "true" else "false")
  | .double (.finite x) => .encode (toStringR band x.1)
  | .double (.infinity neg) => .ofString (if neg then "-Infinity" else "Infinity")
  | .double .nan => .ofString "NaN"
  | .int i => .encode (integerText i).text
  | .string t => t

end Value

variable (band : Band)

/-- What `Append` adds to the builder. -/
def append (values : List Value) : Text := Text.frames (values.map (Value.text band))

/-- A loop that appends a label and the values of each element. -/
def appendEach {α : Type} (label : String) (values : α → List Value) (l : List α) : Text :=
  (l.map (fun a => append band (.label label :: values a))).flatten

/-- A label, and the values of what may be null. -/
def appendOptional {α : Type} (label : String) (values : α → List Value) : Option α → Text
  | some a => append band (.label label :: values a)
  | none => append band [.label label, .null]

def InspectionPoint.values (point : InspectionPoint) : List Value :=
  [.double point.x, .double point.y, .double point.z]

def InspectionLayer.values (layer : InspectionLayer) : List Value :=
  [.string layer.name, .bool layer.isOff, .bool layer.isFrozen, .bool layer.isLocked,
    .optional .int layer.colorIndex, .optional .string layer.linetype]

def InspectionStyle.values (style : InspectionStyle) : List Value :=
  [.string style.name, .styleKind style.kind, .bool style.annotative, .optional .double style.scale]

def appendReferences (label : String) (references : Option (List StableEntityReference)) : Text :=
  append band [.label label, .count (references.getD [])] ++
  appendEach band label (fun reference => [.string reference.handle]) (references.getD [])

def appendAttributes (depth : Nat) (entity : InspectionAttributes) : Text :=
  append band [.label "entity", .int depth, .string entity.entityRef.handle, .string entity.entityType,
    .string entity.layer, .optional .string entity.style, .optional .int entity.colorIndex,
    .optional .string entity.linetype, .optional .string entity.content, .bool entity.visible,
    .string entity.space]

def appendGeometry (geometry : InspectionGeometry) : Text :=
  append band [.label "geometry", .geometryKind geometry.kind, .optional .double geometry.radius,
    .optional .double geometry.startAngleRadians, .optional .double geometry.endAngleRadians,
    .bool geometry.closed, .optional .double geometry.majorAxis, .optional .double geometry.minorAxis,
    .optional .double geometry.rotationRadians, .optional .double geometry.textHeight,
    .optional .string geometry.textStyle, .optional .string geometry.dimensionType,
    .optional .string geometry.dimensionStyle, .optional .double geometry.measurement,
    .optional .string geometry.textOverride, .optional .string geometry.patternName,
    .optional .double geometry.observedArea, .optional .string geometry.blockName,
    .optional .double geometry.scaleX, .optional .double geometry.scaleY, .bool geometry.nonUniformScale,
    .int geometry.nestedDepthRead, .int geometry.childrenBeyondDepth, .count geometry.points] ++
  appendEach band "point" InspectionPoint.values geometry.points ++
  append band [.label "bulges", .count (geometry.bulges.getD [])] ++
  appendEach band "bulge" (fun bulge => [.double bulge]) (geometry.bulges.getD []) ++
  appendOptional band "insertion" InspectionPoint.values geometry.insertion ++
  appendReferences band "measured" geometry.measuredEntityRefs ++
  appendReferences band "boundary" geometry.boundaryEntityRefs ++
  appendOptional band "bounds" (fun bounds => bounds.minimum.values ++ bounds.maximum.values) geometry.bounds

def appendMetadata (metadata : Option CadHarnessMetadata) : Text :=
  append band [.label "metadata", .optional (fun metadata => .string metadata.featureId.text) metadata,
    .optional (fun metadata => .string metadata.operationId.text) metadata]

/-- The text of an entity, from the handles and texts of its child entities. -/
def appendEntity (depth : Nat) (attributes : InspectionAttributes) (geometry : InspectionGeometry)
    (children : List (Text × Text)) : Text :=
  appendAttributes band depth attributes ++ appendGeometry band geometry ++
  appendMetadata band attributes.harnessMetadata ++ append band [.label "children", .count children] ++
  ((sortBy (fun child => ordinal child.1) children).map Prod.snd).flatten

mutual
/-- `AppendEntityCanonical`. The text of each child is made first, then the texts are put in the order of the
handles. -/
def appendEntityCanonical (depth : Nat) : InspectionEntity → Except Exception Text
  | .mk attributes geometry childEntities => do
      if maximumNestedEntityDepth < depth then
        throw (.invalidOperation "Nested inspection entities exceed the safe depth limit.")
      let children ← appendChildEntities (depth + 1) childEntities
      return appendEntity band depth attributes geometry children

def appendChildEntities (depth : Nat) : Option (List InspectionEntity) → Except Exception (List (Text × Text))
  | none => return []
  | some children => appendChildren depth children

/-- Each child's handle and text. -/
def appendChildren (depth : Nat) : List InspectionEntity → Except Exception (List (Text × Text))
  | [] => return []
  | child :: children => do
      let text ← appendEntityCanonical depth child
      return (child.handle, text) :: (← appendChildren depth children)
end

/-! ## The accumulator -/

/-- `word.ToString("x16")` for each word. -/
def Digest.hex (digest : Digest) : Text :=
  .encode ((List.finRange 4).map (fun i => Hex.digits 16 (digest i).toNat)).flatten

structure EntityRevisionAccumulator where
  words : Digest
  count : Nat

namespace EntityRevisionAccumulator

variable (rt : Runtime)

def new : EntityRevisionAccumulator := ⟨fun _ => 0, 0⟩

def add (accumulator : EntityRevisionAccumulator) (entity : InspectionEntity) :
    Except Exception EntityRevisionAccumulator := do
  let canonical ← appendEntityCanonical rt.band 0 entity
  let digest := rt.sha256 canonical.utf8
  return ⟨fun index => accumulator.words index + digest index, accumulator.count + 1⟩

end EntityRevisionAccumulator

/-- The text that is hashed for the revision. -/
def revisionCanonical (documentId sourceUnitCode : Text) (entities : EntityRevisionAccumulator)
    (layers : List InspectionLayer) (styles : List InspectionStyle) : Text :=
  append band [.label "document", .string documentId, .label "source_unit_code", .string sourceUnitCode,
    .label "layers", .count layers] ++
  appendEach band "layer" InspectionLayer.values layers ++ append band [.label "styles", .count styles] ++
  appendEach band "style" InspectionStyle.values styles ++
  append band [.label "entities", .int entities.count, .label "entity_accumulator", .string entities.words.hex]

variable (rt : Runtime)

def computeRevision (documentId sourceUnitCode : Text) (entities : EntityRevisionAccumulator)
    (layers : List InspectionLayer) (styles : List InspectionStyle) : Text :=
  let digest := rt.sha256 (revisionCanonical rt.band documentId sourceUnitCode entities layers styles).utf8
  .ofString "sha256:" ++ digest.hex

/-! ## The service -/

structure DocumentInspectionSnapshot where
  documentId : Text
  revision : Text
  sourceUnitCode : Text
  entities : List InspectionEntity
  layers : List InspectionLayer
  styles : List InspectionStyle

def trim (t : Text) : Text := ((t.dropWhile isWhiteSpace).reverse.dropWhile isWhiteSpace).reverse

def normalizeSourceUnitCode (value : Text) : Except Exception Text := do
  validateIdentifier value "SourceUnitCode"
  return rt.toLowerInvariant (trim value)

structure BridgeInspectionService where
  document : BoundInspectionDocument
  documentId : Text
  sourceUnitCode : Text

namespace BridgeInspectionService

/-- The constructor. -/
def new (document : BoundInspectionDocument) : Except Exception BridgeInspectionService := do
  validateIdentifier document.documentId "DocumentId"
  let sourceUnitCode ← normalizeSourceUnitCode rt document.sourceUnitCode
  return { document, documentId := document.documentId, sourceUnitCode }

def inspectDocument (service : BridgeInspectionService) : Except Exception DocumentInspectionSnapshot := do
  let entities ← readAndOrderEntities service.document
  let layers ← readAndOrderLayers service.document
  let styles ← readAndOrderStyles service.document
  let revisionEntities ← entities.foldlM (EntityRevisionAccumulator.add rt) .new
  let revision := computeRevision rt service.documentId service.sourceUnitCode revisionEntities layers styles
  return { documentId := service.documentId, revision, sourceUnitCode := service.sourceUnitCode, entities,
           layers, styles }

/-- The variables of the loop of `InspectDocumentBounded`. -/
structure BoundedRead where
  entities : List InspectionEntity
  handles : List Text
  revisionEntities : EntityRevisionAccumulator
  observedEntityCount : Nat

/-- One turn of the loop. `includeEntity` may depend on the number of the call, and may throw. -/
def readBounded (maxEntities : Int) (includeEntity : Nat → InspectionEntity → Except Exception Bool)
    (read : BoundedRead) (source : InspectionEntity) : Except Exception BoundedRead := do
  let observedEntityCount := read.observedEntityCount + 1
  if maximumWholeDocumentObservationEntities < observedEntityCount then throw observationLimitExceeded
  let entity ← source.copyAndValidate 0
  if entity.handle ∈ read.handles then throw duplicateHandle
  let revisionEntities ← read.revisionEntities.add rt entity
  let handles := entity.handle :: read.handles
  if ← includeEntity observedEntityCount entity then
    if read.entities.length = maxEntities then
      throw (.invalidOperation
        "The requested scope exceeds max_entities; partial inspection results are forbidden.")
    return { entities := read.entities ++ [entity], handles, revisionEntities, observedEntityCount }
  else
    return { entities := read.entities, handles, revisionEntities, observedEntityCount }

def inspectDocumentBounded (service : BridgeInspectionService) (maxEntities : Int)
    (includeEntity : Nat → InspectionEntity → Except Exception Bool) :
    Except Exception DocumentInspectionSnapshot := do
  if maxEntities ≤ 0 then
    throw (.argumentOutOfRange "maxEntities" "maxEntities must be a non-negative and non-zero value.")
  let layers ← readAndOrderLayers service.document
  let styles ← readAndOrderStyles service.document
  let read ← service.document.readEntities.foldlM (readBounded rt maxEntities includeEntity) ⟨[], [], .new, 0⟩
  let entities := sortBy (fun entity => ordinal entity.handle) read.entities
  let revision :=
    computeRevision rt service.documentId service.sourceUnitCode read.revisionEntities layers styles
  return { documentId := service.documentId, revision, sourceUnitCode := service.sourceUnitCode, entities,
           layers, styles }

end BridgeInspectionService

/-- An inspection of a whole document, or one that keeps the entities a predicate accepts. -/
inductive Call where
  | whole
  | bounded (maxEntities : Int) (includeEntity : Nat → InspectionEntity → Except Exception Bool)

/-- The inspection by a service that is new. -/
def Call.run (document : BoundInspectionDocument) :
    Call → Except Exception DocumentInspectionSnapshot
  | .whole => do (← BridgeInspectionService.new rt document).inspectDocument rt
  | .bounded maxEntities includeEntity => do
      (← BridgeInspectionService.new rt document).inspectDocumentBounded rt maxEntities includeEntity

end CadHarness.Inspection
