import CadHarness.Domain.Plan
import CadHarness.Domain.Records
import CadHarness.Lib.Assoc
import CadHarness.Lib.PythonText
import CadHarness.Lib.JsonText
import CadHarness.Lib.SortBy
import Mathlib.Data.Nat.Digits.Defs

/-!
# The adapter in memory

`cad_harness.adapters.fake`: commits are staged on a copy of the entities, and a checkpoint is a copy of them.
The values of a plan in memory may hold numbers that JSON cannot write. What `_measure` calculates in floating
point is a parameter, as are SHA-256 and the hash of a plan.
-/

namespace CadHarness.Fake
open CadHarness.Lib CadHarness.Canonical
open CadHarness.Domain (OperationType CommitStatus Exc raised)

/-! ## Values -/

/-- A number of Python. -/
inductive PyNumber where
  | int (i : Int)
  | float (x : Double)
  | infinity (neg : Bool)
  | nan

abbrev PyValue := Json PyNumber

/-- A dictionary with strings as its keys. -/
abbrev Dict := List (String × PyValue)

/-- A number that JSON can write. -/
def finite? : PyNumber → Option Number
  | .int i => some (.int i)
  | .float x => some (.double x)
  | .infinity _ | .nan => none

/-- An integer of at most as many digits as `str` writes. -/
def short? : PyNumber → Option PyNumber
  | .int i => if i.natAbs < 10 ^ 4300 then some (.int i) else none
  | n => some n

/-- A float of a rational number. -/
def nearest (neg : Bool) (v : ℚ) : PyNumber :=
  if h : (Binary64.nearest neg v).IsFinite then .float ⟨_, h⟩ else .infinity neg

/-- The words that `float` reads. -/
def floatWord (cs : List Char) : Option PyNumber :=
  let (sign, word) := FloatText.sign cs
  if word = "inf".toList ∨ word = "infinity".toList then some (.infinity (decide (sign < 0)))
  else if word = "nan".toList then some .nan
  else none

/-- `float(value)` -/
def toFloat : PyValue → Except Exc PyNumber
  | .num (.int i) =>
      match nearest (decide (i < 0)) i.natAbs with
      | .float x => .ok (.float x)
      | _ => .error (.other "OverflowError")
  | .num n => .ok n
  | .bool b => .ok (nearest false (if b then 1 else 0))
  | .str text =>
      match FloatText.parse text with
      | some (sign, whole, fraction, e) =>
          .ok (nearest (decide (sign < 0))
            (FloatText.natural (whole ++ fraction) * 10 ^ (e - fraction.length)))
      | none =>
          match floatWord ((Python.stripChars text.toList).map Char.toLower) with
          | some n => .ok n
          | none => .error (.valueError ("could not convert string to float: '" ++ text ++ "'"))
  | _ => .error (.typeError "float() argument must be a string or a real number")

/-- `{**first, **second}` -/
def merge (first second : Dict) : Dict := second.foldl (fun l e => Assoc.set l e.1 e.2) first

/-! ## Plans -/

structure Operation where
  operationId : String
  featureId : String
  type : OperationType
  layer : String
  geometry : Dict := []
  expected : Dict := []
  targetEntityRef : Option String := none

structure OperationPlan where
  planId : String
  jobId : String
  documentId : String
  expectedRevision : String
  profileRef : String
  operations : List Operation := []
  planHash : Option String := none

structure CommitRequest where
  plan : OperationPlan
  idempotencyKey : String
  expectedRevision : String
  createCheckpoint : Bool := true

structure RollbackRequest where
  jobId : String
  documentId : String
  checkpointId : String
  currentRevision : String

structure EntityResult where
  operationId : String
  featureId : String
  entityRef : String
  entityType : String
  measurements : Dict

structure CommitResult where
  jobId : String
  planHash : String
  status : CommitStatus
  entityResults : List EntityResult
  previousRevision : String
  newRevision : String
  checkpointId : Option String
  undoGroup : String

structure RollbackResult where
  jobId : String
  restoredRevision : String
  checkpointId : String
  method : String

/-! ## The document -/

structure FakeEntity where
  entityRef : String
  entityType : String
  layer : String
  featureId : String
  operationId : String
  geometry : Dict
  measurements : Dict

/-- The entities, each under its reference. -/
abbrev Entities := List (String × FakeEntity)

structure FakeDocument where
  documentId : String
  entities : Entities := []
  writeCounter : Nat := 0
  snapshots : List (String × Entities) := []

structure FakeAutoCADAdapter where
  document : FakeDocument
  entityCounter : Nat := 0
  /-- `idempotency_key` to the result of its commit -/
  executions : List (String × CommitResult) := []

structure Primitives where
  sha256 : String → String
  /-- `plan.compute_hash()` -/
  computeHash : OperationPlan → Except Exc String
  /-- `_measure` of a polyline, a line, a circle or an arc -/
  measureShape : Operation → Except Exc Dict
  /-- `math.pi * (diameter / 2.0) ** 2` -/
  circleArea : PyNumber → Except Exc PyNumber

variable (p : Primitives)

/-- `sha256_of(geometry)` -/
def geometryHash (geometry : Dict) : Except Exc String :=
  match Json.traverse finite? (.obj geometry) with
  | none => .error (.valueError "Non-finite float cannot be canonicalized")
  | some value =>
      match Json.traverse short? (.obj geometry) with
      | none => .error (.valueError "Exceeds the limit (4300 digits) for integer string conversion")
      | some _ => .ok (Domain.sha256Of p.sha256 value)

/-- What the revision says of an entity. -/
def fingerprint (e : FakeEntity) : Except Exc (List String) := do
  let hash ← geometryHash p e.geometry
  return [e.entityRef, e.entityType, e.layer, hash]

def currentRevision (d : FakeDocument) : Except Exc String := do
  let prints ← (d.entities.map Prod.snd).mapM (fingerprint p)
  let prints := sortBy (List.map codePoints) prints
  return Domain.sha256Of p.sha256 (.obj [("document_id", .str d.documentId),
    ("parts", .arr [Domain.natural d.writeCounter, .arr (prints.map Domain.strings)])])

/-! ## Operations -/

/-- An adapter as it stages a commit. -/
structure Staging where
  entities : Entities
  counter : Nat
  results : List EntityResult := []

def hexDigit (n : Nat) : Char := if n < 10 then Char.ofNat (48 + n) else Char.ofNat (55 + n)

/-- `f"{n:X}"` of a positive number -/
def upperHex (n : Nat) : String := .ofList ((Nat.digits 16 n).reverse.map hexDigit)

/-- `_next_ref`, as the counter stands after it -/
def handle (counter : Nat) : String := "fake:handle:" ++ upperHex counter

/-- `ENTITY_TYPE_BY_OPERATION` -/
def entityTypeFor : OperationType → String
  | .createLine | .createCenterline => "AcDbLine"
  | .createPolyline | .createClosedPolyline => "AcDbPolyline"
  | .createCircle | .createCircles => "AcDbCircle"
  | .createArc => "AcDbArc"
  | .createText => "AcDbText"
  | .createCentermark => "AcDbPoint"
  | .createLinearDimension => "AcDbRotatedDimension"
  | .createAlignedDimension => "AcDbAlignedDimension"
  | .createDiameterDimension => "AcDbDiametricDimension"
  | .createRadiusDimension => "AcDbRadialDimension"
  | .createAngularDimension => "AcDb2LineAngularDimension"
  | .createHatch => "AcDbHatch"
  | .updateEntity | .deleteEntity => "AcDbEntity"

/-- `_measure` -/
def measure (o : Operation) : Except Exc Dict :=
  match o.type with
  | .createPolyline | .createClosedPolyline | .createLine | .createCircle | .createArc => p.measureShape o
  | _ => .ok o.geometry

/-- The items that a loop over a value goes through. -/
def iterate : PyValue → Except Exc (List PyValue)
  | .arr xs => .ok xs
  | .str s => .ok (s.toList.map (fun c => .str (String.singleton c)))
  | .obj ms => .ok (ms.map (fun m => .str m.1))
  | _ => .error (.typeError "object is not iterable")

/-- An entity that an operation creates, and what is reported of it. -/
def create (o : Operation) (counter : Nat) (geometry measurements reported : Dict) : FakeEntity × EntityResult :=
  ({ entityRef := handle counter, entityType := entityTypeFor o.type, layer := o.layer,
     featureId := o.featureId, operationId := o.operationId, geometry, measurements },
    { operationId := o.operationId, featureId := o.featureId, entityRef := handle counter,
      entityType := entityTypeFor o.type, measurements := reported })

/-- The circles of an operation, with the counter behind them. -/
def buildCircles (o : Operation) (diameter : PyNumber) (count : Nat) :
    List PyValue → Nat → Except Exc (List (FakeEntity × EntityResult) × Nat)
  | [], counter => .ok ([], counter)
  | center :: centers, counter => do
      let area ← p.circleArea diameter
      let (built, last) ← buildCircles o diameter count centers (counter + 1)
      let circle := create o (counter + 1) [("center_mm", center), ("diameter_mm", .num diameter)]
        [("diameter_mm", .num diameter)]
        [("count", .num (.int count)), ("diameter_mm", .num diameter), ("center_mm", center),
          ("area_mm2", .num area)]
      return (circle :: built, last)

/-- `_build_entities` -/
def buildEntities (o : Operation) (counter : Nat) : Except Exc (List (FakeEntity × EntityResult) × Nat) := do
  if o.type = .createCircles then
    let diameter ← toFloat ((o.geometry.lookup "diameter_mm").getD (.num (nearest false 0)))
    let centers ← iterate ((o.geometry.lookup "centers_mm").getD (.arr []))
    buildCircles p o diameter centers.length centers counter
  else
    let measurements ← measure p o
    return ([create o (counter + 1) o.geometry measurements measurements], counter + 1)

/-- `_target_entity` -/
def targetEntity (documentId : String) (o : Operation) (entities : Entities) : Except Exc FakeEntity :=
  match (o.targetEntityRef.filter (fun ref => decide (ref ≠ ""))).bind (fun ref => entities.lookup ref) with
  | some entity => .ok entity
  | none =>
      .error (raised .comCallFailed "The operation references an entity that is not present in the fake document"
        "Re-inspect the drawing and recreate the remediation plan"
        [("reason", .str "entity_reference_not_found"), ("entity_ref", Domain.optional o.targetEntityRef),
          ("document_id", .str documentId)])

/-- The entity with the layer and the properties of an update. -/
def updated (o : Operation) (properties : Dict) (entity : FakeEntity) : FakeEntity :=
  let existing := match entity.geometry.lookup "properties" with
    | some (.obj existing) => existing
    | _ => []
  { entity with
    layer := o.layer
    geometry := Assoc.set entity.geometry "properties" (.obj (merge existing properties)) }

def resultOf (o : Operation) (entity : FakeEntity) (measurements : Dict) : EntityResult :=
  ⟨o.operationId, o.featureId, entity.entityRef, entity.entityType, measurements⟩

/-- `_execute_operation`, and what the commit does with its result -/
def execute (documentId : String) (s : Staging) (o : Operation) : Except Exc Staging :=
  match o.type with
  | .updateEntity => do
      let entity ← targetEntity documentId o s.entities
      match (o.geometry.lookup "properties").getD (.obj []) with
      | .obj properties =>
          let entity := updated o properties entity
          return { s with entities := Assoc.set s.entities entity.entityRef entity
                          results := s.results ++ [resultOf o entity [("layer", .str entity.layer)]] }
      | _ =>
          throw (raised .comCallFailed "Update properties must be an object"
            "Recreate the remediation plan with valid properties" [("operation_id", .str o.operationId)])
  | .deleteEntity => do
      let entity ← targetEntity documentId o s.entities
      return { s with entities := Assoc.remove s.entities entity.entityRef
                      results := s.results ++ [resultOf o entity [("deleted", .bool true)]] }
  | _ => do
      let (built, counter) ← buildEntities p o s.counter
      return { entities := built.foldl (fun l e => Assoc.set l e.1.entityRef e.1) s.entities
               counter
               results := s.results ++ built.map Prod.snd }

def stage (documentId : String) (operations : List Operation) (s : Staging) : Except Exc Staging :=
  operations.foldlM (execute p documentId) s

/-! ## Commit and rollback -/

/-- An entity of the document as its staged copy. -/
def applyEntity (entities : Entities) (e : String × FakeEntity) : Entities :=
  match entities.lookup e.1 with
  | none => Assoc.set entities e.1 e.2
  | some existing => Assoc.set entities e.1 { e.2 with entityRef := existing.entityRef }

/-- `_apply_entities` -/
def applyEntities (entities working : Entities) : Entities :=
  working.foldl applyEntity (entities.filter (fun e => (working.lookup e.1).isSome))

/-- `plan.plan_hash or plan.compute_hash()` -/
def planHash (plan : OperationPlan) : Except Exc String :=
  match plan.planHash with
  | some hash => if hash = "" then p.computeHash plan else .ok hash
  | none => p.computeHash plan

/-- The document with a copy of its entities, if a checkpoint is asked for. -/
def checkpointed (d : FakeDocument) : Option String → FakeDocument
  | some checkpointId => { d with snapshots := Assoc.set d.snapshots checkpointId d.entities }
  | none => d

/-- `if checkpoint_id: self.document.snapshots.pop(checkpoint_id, None)` -/
def withdrawn (d : FakeDocument) : Option String → FakeDocument
  | some checkpointId =>
      if checkpointId = "" then d else { d with snapshots := Assoc.remove d.snapshots checkpointId }
  | none => d

/-- The document with the staged entities. -/
def written (d : FakeDocument) (working : Entities) : FakeDocument :=
  { d with entities := applyEntities d.entities working, writeCounter := d.writeCounter + 1 }

def stale (message action : String) (details : List (String × Domain.Value)) : Exc :=
  raised .staleDocumentRevision message action details

/-- `commit`. A new checkpoint is named `newId`. -/
def commit (request : CommitRequest) (newId : String) (a : FakeAutoCADAdapter) :
    Except Exc CommitResult × FakeAutoCADAdapter :=
  match a.executions.lookup request.idempotencyKey with
  | some previous => (.ok previous, a)
  | none =>
      match currentRevision p a.document with
      | .error e => (.error e, a)
      | .ok current =>
          if current ≠ request.expectedRevision then
            (.error (stale "Document changed since the plan was approved"
              "Re-inspect, regenerate preview, validate and approve again"
              [("expected_revision", .str request.expectedRevision), ("actual_revision", .str current)]), a)
          else
            let checkpointId := if request.createCheckpoint then some newId else none
            let document := checkpointed a.document checkpointId
            match stage p document.documentId request.plan.operations ⟨document.entities, a.entityCounter, []⟩ with
            | .error e => (.error e, { a with document := withdrawn document checkpointId })
            | .ok staged =>
                let a := { a with document := written document staged.entities, entityCounter := staged.counter }
                match planHash p request.plan with
                | .error e => (.error e, a)
                | .ok planHash =>
                    match currentRevision p a.document with
                    | .error e => (.error e, a)
                    | .ok newRevision =>
                        let result : CommitResult :=
                          { jobId := request.plan.jobId, planHash, status := .committed, entityResults := staged.results,
                            previousRevision := current, newRevision, checkpointId,
                            undoGroup := s!"fake-undo-{a.document.writeCounter}" }
                        (.ok result, { a with executions := Assoc.set a.executions request.idempotencyKey result })

def rollback (request : RollbackRequest) (a : FakeAutoCADAdapter) :
    Except Exc RollbackResult × FakeAutoCADAdapter :=
  let refused := stale "Document changed after rollback approval"
    "Review and approve rollback for the current revision"
    [("approved_revision", .str request.currentRevision)]
  if request.documentId ≠ a.document.documentId then (.error refused, a)
  else
    match currentRevision p a.document with
    | .error e => (.error e, a)
    | .ok current =>
        if current ≠ request.currentRevision then (.error refused, a)
        else
          match if request.checkpointId = "" then none else a.document.snapshots.lookup request.checkpointId with
          | none =>
              (.error (raised .rollbackNotAvailable "No checkpoint available for this job"
                "Restore the document manually or re-plan from a fresh inspection"
                [("checkpoint_id", .str request.checkpointId)]), a)
          | some entities =>
              let a := { a with document :=
                { a.document with entities, writeCounter := a.document.writeCounter + 1 } }
              match currentRevision p a.document with
              | .error e => (.error e, a)
              | .ok restoredRevision => (.ok ⟨request.jobId, restoredRevision, request.checkpointId, "checkpoint_restore"⟩, a)

end CadHarness.Fake
