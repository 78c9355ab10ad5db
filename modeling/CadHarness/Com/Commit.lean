import CadHarness.Catalog.Base
import CadHarness.Com.Adapter

/-!
# Drawing a plan through COM

`ComAutoCADAdapter.commit`: the operations of a plan, one after the other, each by the handler of its type.
-/

namespace CadHarness.Com
open CadHarness.Lib CadHarness.Drawing CadHarness.Plan CadHarness.Catalog
open CadHarness.Domain (Exc OperationType EntityMappingRecord raised)
open CadHarness.Geometry (KernelError radians degrees)

noncomputable section

/-! ## Geometry of an operation -/

/-- What a conversion of Python raises. -/
def ofKernelError : KernelError → Exc
  | .typeError => .typeError ""
  | .valueError => .valueError ""
  | .assertionError => .assertionError
  | .indexError => .other "IndexError"
  | .keyError => .other "KeyError"
  | .harness code message requiredAction _ => .harness { code, message, requiredAction, details := [] }

def python {α : Type} : Except KernelError α → ComM α
  | .ok a => pure a
  | .error e => raise (ofKernelError e)

/-- The elements of a list, or the characters of a string. -/
def elements : Value → Except KernelError (List Value)
  | .arr items => .ok items
  | .str text => .ok (text.toList.map (fun c => .str (String.ofList [c])))
  | _ => .error .typeError

/-- `value[index]` -/
def index (value : Value) (i : Nat) : Except KernelError Value := do
  match (← elements value)[i]? with
  | some item => return item
  | none => throw .indexError

/-- `(float(value[0]), float(value[1]))` -/
def indexedPoint (value : Value) : Except KernelError Point := do
  return (← float (← index value 0), ← float (← index value 1))

/-- The floats of `value[:2]` -/
def leadingFloats (value : Value) : Except KernelError (List ℝ) := do
  ((← elements value).take 2).mapM float

/-- `_variant_point3d(*map(float, value[:2]))` -/
def leadingPoint (value : Value) : Except KernelError Point := do
  match ← leadingFloats value with
  | [x, y] => return (x, y)
  | _ => throw .typeError

/-- `str(value)` of a string -/
def text : Value → Except KernelError String
  | .str s => .ok s
  | _ => .error .typeError

/-- The item of a geometry, converted. -/
def field {α : Type} (operation : Operation) (key : String) (convert : Value → Except KernelError α) : ComM α :=
  python (do convert (← entry operation.geometry key))

/-! ## Handlers -/

def invokeModelSpace (document : ComObject) (member : String) (arguments : List Variant) : ComM ComObject := do
  let modelSpace ← com (.getObject document "ModelSpace")
  com (.create modelSpace member arguments)

/-- The end of most handlers: `entity.Layer = operation.layer`. -/
def onLayer (operation : Operation) (entity : ComObject) : ComM (List ComObject) := do
  com (.put entity "Layer" (.text operation.layer))
  return [entity]

def createLine (document : ComObject) (operation : Operation) : ComM (List ComObject) := do
  let start ← field operation "start_mm" leadingPoint
  let finish ← field operation "end_mm" leadingPoint
  let entity ← invokeModelSpace document "AddLine" [variantPoint3d start, variantPoint3d finish]
  onLayer operation entity

def createPolyline (document : ComObject) (operation : Operation) : ComM (List ComObject) := do
  let flat ← field operation "vertices_mm" (fun vertices => do
    return (← (← elements vertices).mapM leadingFloats).flatten)
  let entity ← invokeModelSpace document "AddLightWeightPolyline" [.doubles flat]
  onLayer operation entity

def createClosedPolyline (document : ComObject) (operation : Operation) : ComM (List ComObject) := do
  let entities ← createPolyline document operation
  match entities with
  | [] => raise (.other "IndexError")
  | entity :: _ => com (.put entity "Closed" (.bool true))
  return entities

def createCircle (document : ComObject) (operation : Operation) : ComM (List ComObject) := do
  let center ← field operation "center_mm" indexedPoint
  let diameter ← field operation "diameter_mm" float
  let entity ← invokeModelSpace document "AddCircle" [variantPoint3d center, .number (diameter / 2)]
  onLayer operation entity

/-- The circles around the centers that are left. -/
def addCircles (document : ComObject) (operation : Operation) (radius : ℝ) : List Value → ComM (List ComObject)
  | [] => return []
  | center :: centers => do
      let point ← python (indexedPoint center)
      let entity ← invokeModelSpace document "AddCircle" [variantPoint3d point, .number radius]
      com (.put entity "Layer" (.text operation.layer))
      let entities ← addCircles document operation radius centers
      return entity :: entities

def createCircles (document : ComObject) (operation : Operation) : ComM (List ComObject) := do
  let diameter ← field operation "diameter_mm" float
  let centers ← field operation "centers_mm" elements
  addCircles document operation (diameter / 2) centers

def createArc (document : ComObject) (operation : Operation) : ComM (List ComObject) := do
  let center ← field operation "center_mm" indexedPoint
  let radius ← field operation "radius_mm" float
  let startAngle ← field operation "start_angle_deg" float
  let endAngle ← field operation "end_angle_deg" float
  let entity ← invokeModelSpace document "AddArc"
    [variantPoint3d center, .number radius, .number (radians startAngle), .number (radians endAngle)]
  onLayer operation entity

def createText (document : ComObject) (operation : Operation) : ComM (List ComObject) := do
  let point ← field operation "insertion_point_mm" indexedPoint
  let content ← field operation "text" text
  let height ← field operation "height_mm" float
  let entity ← invokeModelSpace document "AddText" [.text content, variantPoint3d point, .number height]
  onLayer operation entity

def createCenterline (document : ComObject) (operation : Operation) : ComM (List ComObject) :=
  createLine document operation

def createCentermark (document : ComObject) (operation : Operation) : ComM (List ComObject) := do
  let center ← field operation "center_mm" indexedPoint
  let entity ← invokeModelSpace document "AddPoint" [variantPoint3d center]
  onLayer operation entity

/-- A dimension: the named points of its geometry, then its other arguments. -/
def createDimension (member : String) (points : List String) (rest : Operation → ComM (List Variant))
    (document : ComObject) (operation : Operation) : ComM (List ComObject) := do
  let points ← points.mapM (fun key => field operation key indexedPoint)
  let rest ← rest operation
  let entity ← invokeModelSpace document member (points.map variantPoint3d ++ rest)
  onLayer operation entity

def createLinearDimension : ComObject → Operation → ComM (List ComObject) :=
  createDimension "AddDimRotated" ["extension_line_1_mm", "extension_line_2_mm", "dimension_line_point_mm"]
    (fun operation => do return [.number (radians (← field operation "rotation_deg" float))])

def createAlignedDimension : ComObject → Operation → ComM (List ComObject) :=
  createDimension "AddDimAligned" ["extension_line_1_mm", "extension_line_2_mm", "dimension_line_point_mm"]
    (fun _ => return [])

def createAngularDimension : ComObject → Operation → ComM (List ComObject) :=
  createDimension "AddDimAngular" ["vertex_mm", "first_end_point_mm", "second_end_point_mm", "text_point_mm"]
    (fun _ => return [])

/-- The length of the leader is the last argument. -/
def leaderLength (operation : Operation) : ComM (List Variant) := do
  return [.number (← field operation "leader_length_mm" float)]

def createDiameterDimension : ComObject → Operation → ComM (List ComObject) :=
  createDimension "AddDimDiametric" ["chord_point_mm", "far_chord_point_mm"] leaderLength

def createRadiusDimension : ComObject → Operation → ComM (List ComObject) :=
  createDimension "AddDimRadial" ["center_mm", "chord_point_mm"] leaderLength

/-- `text.removeprefix("acad:handle:")` -/
def removeHandlePrefix (s : String) : String :=
  if "acad:handle:".isPrefixOf s then (s.drop 12).toString else s

def createHatch (document : ComObject) (operation : Operation) : ComM (List ComObject) := do
  let patternType ← field operation "pattern_type" int
  let patternName ← field operation "pattern_name" text
  let associative ← field operation "associative" (fun v => .ok (truth v))
  let entity ← invokeModelSpace document "AddHatch" [.integer patternType, .text patternName, .bool associative]
  let handles ← field operation "boundary_refs" (fun v => do
    return (← (← elements v).mapM text).map removeHandlePrefix)
  let boundary ← handles.mapM (fun handle => com (.handleToObject handle))
  com (.call entity "AppendOuterLoop" [.objects boundary])
  com (.put entity "Layer" (.text operation.layer))
  com (.call entity "Evaluate" [])
  return [entity]

/-- `_COM_HANDLE_REF.fullmatch` -/
def isHandleRef (s : String) : Bool :=
  let digits := s.toList.drop 12
  "acad:handle:".isPrefixOf s && 1 ≤ digits.length && digits.length ≤ 16 &&
    digits.all (fun c => ('0' ≤ c && c ≤ '9') || ('A' ≤ c && c ≤ 'F'))

/-- `_resolve_mapped_entity` -/
def resolveMappedEntity (documentId : String) (operation : Operation) : ComM ComObject := do
  let mappings ← com (.entityMappingsFor documentId)
  match operation.targetEntityRef with
  | some entityRef =>
      let mapped := mappings.any (fun mapping => mapping.entityRef = entityRef)
      let trusted := "remediation:".isPrefixOf operation.featureId && isHandleRef entityRef
      if !mapped && !trusted then
        raise (comCallFailed "The operation references an entity that is not mapped or audit-bound"
          (some "Re-inspect and audit the drawing, then recreate the approved remediation plan")
          [("reason", .str "entity_reference_not_found"), ("entity_ref", .str entityRef),
            ("document_id", .str documentId)])
      match ← attempt (com (.handleToObject (removeHandlePrefix entityRef))) with
      | .ok entity => return entity
      | .error _ =>
          raise (comCallFailed "The mapped entity reference no longer resolves in AutoCAD"
            (some "Reconcile entity mappings against the current drawing")
            [("reason", .str "entity_reference_stale"), ("entity_ref", .str entityRef)])
  | none =>
      raise (comCallFailed "The operation references an entity that is not mapped or audit-bound"
        (some "Re-inspect and audit the drawing, then recreate the approved remediation plan")
        [("reason", .str "entity_reference_not_found"), ("entity_ref", .null),
          ("document_id", .str documentId)])

/-- Set the properties, in the order of the dictionary. -/
def setProperties (entity : ComObject) : List (String × Value) → ComM Unit
  | [] => return
  | (name, value) :: rest => do
      com (.put entity name (.value value))
      setProperties entity rest

def updateEntity (documentId : String) (operation : Operation) : ComM (List ComObject) := do
  let entity ← resolveMappedEntity documentId operation
  com (.put entity "Layer" (.text operation.layer))
  let properties ← field operation "properties" (fun v => match v with
    | .obj members => .ok members
    | _ => .error .typeError)
  setProperties entity properties
  com (.call entity "Update" [])
  return [entity]

/-! ## Results -/

/-- What a handler returns: a proxy, or what was read of an entity before it was deleted. -/
inductive Drawn where
  | live (entity : ComObject)
  | deleted (handle objectName : String)

def deleteEntity (documentId : String) (operation : Operation) : ComM (List Drawn) := do
  let entity ← resolveMappedEntity documentId operation
  let handle ← com (.getText entity "Handle")
  let objectName ← comEntityType entity
  com (.call entity "Delete" [])
  return [.deleted handle objectName]

def pointValue (p : Point) : Value := pair p.1 p.2

def measureLine (entity : ComObject) : ComM Dict := do
  let start ← com (.getPoint entity "StartPoint")
  let finish ← com (.getPoint entity "EndPoint")
  let length ← com (.getNumber entity "Length")
  return [("start_mm", pointValue start), ("end_mm", pointValue finish), ("length_mm", real length)]

/-- Every other number, from the first. -/
def evens : List ℝ → List ℝ
  | x :: _ :: rest => x :: evens rest
  | l => l

/-- `max(xs) - min(xs)` -/
def spread : List ℝ → Except KernelError ℝ
  | [] => .error .valueError
  | x :: xs => .ok (xs.foldl max x - xs.foldl min x)

def measurePolyline (entity : ComObject) : ComM Dict := do
  let coordinates ← com (.getNumbers entity "Coordinates")
  let area := (← suppress (com (.getNumber entity "Area"))).getD 0
  let closed ← com (.getBool entity "Closed")
  let width ← python (spread (evens coordinates))
  let height ← python (spread (evens (coordinates.drop 1)))
  let length ← com (.getNumber entity "Length")
  return [("closed", .bool closed), ("vertex_count", count (coordinates.length / 2)), ("width_mm", real width),
    ("height_mm", real height), ("area_mm2", real area), ("perimeter_mm", real length)]

def measureCircle (entity : ComObject) : ComM Dict := do
  let layer ← com (.getText entity "Layer")
  let center ← com (.getPoint entity "Center")
  let diameter ← com (.getNumber entity "Diameter")
  let radius ← com (.getNumber entity "Radius")
  let area ← com (.getNumber entity "Area")
  let circumference ← com (.getNumber entity "Circumference")
  return [("layer", .str layer), ("center_mm", pointValue center), ("diameter_mm", real diameter),
    ("radius_mm", real radius), ("area_mm2", real area), ("circumference_mm", real circumference)]

def measureArc (entity : ComObject) : ComM Dict := do
  let center ← com (.getPoint entity "Center")
  let radius ← com (.getNumber entity "Radius")
  let length ← com (.getNumber entity "ArcLength")
  let startAngle ← com (.getNumber entity "StartAngle")
  let endAngle ← com (.getNumber entity "EndAngle")
  return [("center_mm", pointValue center), ("radius_mm", real radius), ("length_mm", real length),
    ("start_angle_deg", real (degrees startAngle)), ("end_angle_deg", real (degrees endAngle))]

def measureText (entity : ComObject) : ComM Dict := do
  let content ← com (.getText entity "TextString")
  let point ← com (.getPoint entity "InsertionPoint")
  let height ← com (.getNumber entity "Height")
  return [("text", .str content), ("insertion_point_mm", pointValue point), ("height_mm", real height)]

def measurePoint (entity : ComObject) : ComM Dict := do
  return [("center_mm", pointValue (← com (.getPoint entity "Coordinates")))]

def measureDimension (entity : ComObject) : ComM Dict := do
  let measurement ← com (.getNumber entity "Measurement")
  match ← suppress (com (.getPoint entity "TextPosition")) with
  | some position => return [("measurement_mm", real measurement), ("text_position_mm", pointValue position)]
  | none => return [("measurement_mm", real measurement)]

def measureHatch (entity : ComObject) : ComM Dict := do
  let area ← com (.getNumber entity "Area")
  let patternName ← com (.getText entity "PatternName")
  return [("area_mm2", real area), ("pattern_name", .str patternName)]

def measureGeneric (entity : ComObject) : ComM Dict := do
  return [("layer", .str (← com (.getText entity "Layer")))]

/-- The measurements of the entities of an operation. -/
def measure (type : OperationType) (entity : ComObject) : ComM Dict :=
  match type with
  | .createLine | .createCenterline => measureLine entity
  | .createPolyline | .createClosedPolyline => measurePolyline entity
  | .createCircle | .createCircles => measureCircle entity
  | .createArc => measureArc entity
  | .createText => measureText entity
  | .createCentermark => measurePoint entity
  | .createLinearDimension | .createAlignedDimension | .createAngularDimension | .createDiameterDimension
  | .createRadiusDimension => measureDimension entity
  | .createHatch => measureHatch entity
  | .updateEntity => measureGeneric entity
  | .deleteEntity => return [("deleted", .bool true)]

structure EntityResult where
  operationId : String
  featureId : String
  entityRef : String
  entityType : String
  measurements : Dict

/-- `_result_from_entity` -/
def resultFromEntity (operation : Operation) (total : Nat) : Drawn → ComM EntityResult
  | .live entity => do
      let measured ← measure operation.type entity
      let measurements := if operation.type = .createCircles then measured ++ [("count", count total)] else measured
      let handle ← com (.getText entity "Handle")
      let objectName ← com (.getText entity "ObjectName")
      return { operationId := operation.operationId, featureId := operation.featureId,
               entityRef := "acad:handle:" ++ handle, entityType := objectName, measurements }
  | .deleted handle objectName =>
      return { operationId := operation.operationId, featureId := operation.featureId,
               entityRef := "acad:handle:" ++ handle, entityType := objectName,
               measurements := [("deleted", .bool true)] }

/-- The handler of an operation, as `OPERATION_DISPATCH` names it. -/
def handle (document : ComObject) (documentId : String) (operation : Operation) : ComM (List Drawn) :=
  match operation.type with
  | .createLine => List.map .live <$> createLine document operation
  | .createPolyline => List.map .live <$> createPolyline document operation
  | .createClosedPolyline => List.map .live <$> createClosedPolyline document operation
  | .createCircle => List.map .live <$> createCircle document operation
  | .createCircles => List.map .live <$> createCircles document operation
  | .createArc => List.map .live <$> createArc document operation
  | .createText => List.map .live <$> createText document operation
  | .createCenterline => List.map .live <$> createCenterline document operation
  | .createCentermark => List.map .live <$> createCentermark document operation
  | .createLinearDimension => List.map .live <$> createLinearDimension document operation
  | .createAlignedDimension => List.map .live <$> createAlignedDimension document operation
  | .createAngularDimension => List.map .live <$> createAngularDimension document operation
  | .createDiameterDimension => List.map .live <$> createDiameterDimension document operation
  | .createRadiusDimension => List.map .live <$> createRadiusDimension document operation
  | .createHatch => List.map .live <$> createHatch document operation
  | .updateEntity => List.map .live <$> updateEntity documentId operation
  | .deleteEntity => deleteEntity documentId operation

/-- `_execute` -/
def execute (document : ComObject) (documentId : String) (operation : Operation) : ComM (List EntityResult) := do
  let entities ← handle document documentId operation
  entities.mapM (resultFromEntity operation entities.length)

/-- The operations, one after the other. -/
def executeAll (document : ComObject) (documentId : String) : List Operation → ComM (List EntityResult)
  | [] => return []
  | operation :: operations => do
      let results ← execute document documentId operation
      let rest ← executeAll document documentId operations
      return results ++ rest

/-! ## The commit -/

structure CommitRequest where
  plan : OperationPlan
  planHash : Option String
  expectedRevision : String

structure CommitResult where
  jobId : String
  planHash : String
  entityResults : List EntityResult
  previousRevision : String
  newRevision : String
  undoGroup : String

/-- The document that a commit draws in. -/
structure Opened where
  document : ComObject
  documentId : String
  previousRevision : String

variable (texts : Texts) (fuel : Nat) (computeHash : OperationPlan → Except Exc String)

/-- The gates of a commit, and the start of its undo group. -/
def openDocument (request : CommitRequest) : ComM Opened := do
  let document ← requireDocument
  let documentId ← documentId texts document
  let previousRevision ← computeRevision texts fuel document documentId
  if previousRevision ≠ request.expectedRevision then
    raise (raised .staleDocumentRevision "Document changed since the plan was approved"
      "Re-inspect, regenerate preview, validate and approve again"
      [("expected_revision", .str request.expectedRevision), ("actual_revision", .str previousRevision)])
  com .startUndoMark
  return ⟨document, documentId, previousRevision⟩

/-- `plan.plan_hash or plan.compute_hash()` -/
def planHashOf (request : CommitRequest) : Except Exc String :=
  match request.planHash with
  | some planHash => if planHash = "" then computeHash request.plan else .ok planHash
  | none => computeHash request.plan

/-- What follows when every operation is drawn: the end of the undo group, and the receipt. -/
def conclude (request : CommitRequest) (opened : Opened) (results : List EntityResult) : ComM CommitResult := do
  com .endUndoMark
  let planHash ← ofExcept (planHashOf computeHash request)
  let newRevision ← computeRevision texts fuel opened.document opened.documentId
  return { jobId := request.plan.jobId, planHash, entityResults := results,
           previousRevision := opened.previousRevision, newRevision,
           undoGroup := "cad-harness-" ++ request.plan.jobId }

/-- The error of a commit that failed while it drew. -/
def failedPartWay : Exc :=
  raised .unknownCommitState "Commit failed part-way through the plan"
    "Reconcile the job against the checkpoint before retrying" []

def commit (request : CommitRequest) : ComM CommitResult := do
  let opened ← openDocument texts fuel request
  match ← attempt (executeAll opened.document opened.documentId request.plan.operations) with
  | .ok results => conclude texts fuel computeHash request opened results
  | .error _ =>
      let _ ← suppress (com .endUndoMark)
      raise failedPartWay

end

end CadHarness.Com
