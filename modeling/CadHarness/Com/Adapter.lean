import CadHarness.Domain.Records
import CadHarness.Drawing.Model
import CadHarness.Lib.PythonText
import CadHarness.Lib.SortBy
import CadHarness.Lib.Trace
import CadHarness.Plan.Model

/-!
# Reading a document through COM

`cad_harness.adapters.autocad_com`: the identity, the revision and the inspection of the active document. SHA-256
and the case of letters are parameters.
-/

/-!
## ActiveX

What the COM adapter asks of AutoCAD. Each operation is a property that is read or set, a method that is
called, or a step of an enumerator, together with the conversion of what it returns; it may raise, or never
come back. A proxy is released without effect on the drawing, so that its release is left out.
-/

namespace CadHarness.Com
open CadHarness.Lib CadHarness.Domain CadHarness.Drawing

/-- A proxy of an ActiveX object. -/
inductive ComObject where
  | activeDocument
  | spaceObject
  | collectionObject (name : String)
  | itemObject (collection : String) (index : Nat)
  | entityObject (number : Nat)
  deriving DecidableEq

/-- An argument of a method, or the value of a property. -/
inductive Variant where
  | number (x : ℝ)
  | integer (n : Int)
  | bool (b : Bool)
  | text (s : String)
  | doubles (xs : List ℝ)
  | objects (objects : List ComObject)
  | value (v : Plan.Value)

/-- `_variant_point3d` -/
def variantPoint3d (p : Point) : Variant := .doubles [p.1, p.2, 0]

inductive ComOp where
  /-- `bool(app.GetAcadState().IsQuiescent)` -/
  | isQuiescent
  | getText (target : ComObject) (member : String)
  | getInteger (target : ComObject) (member : String)
  | getBool (target : ComObject) (member : String)
  | getNumber (target : ComObject) (member : String)
  /-- the first two coordinates of a point -/
  | getPoint (target : ComObject) (member : String)
  | getNumbers (target : ComObject) (member : String)
  | getObject (target : ComObject) (member : String)
  /-- `int(document.GetVariable(name))` -/
  | getVariable (name : String)
  /-- the element of a collection after the one that came before -/
  | next (collection : ComObject) (previous : Option ComObject)
  /-- a method that returns a number, and changes nothing -/
  | query (target : ComObject) (member : String) (arguments : List Variant)
  /-- `document.HandleToObject(handle)` -/
  | handleToObject (handle : String)
  | startUndoMark
  | endUndoMark
  | put (target : ComObject) (member : String) (value : Variant)
  /-- a method that returns a new object -/
  | create (target : ComObject) (member : String) (arguments : List Variant)
  /-- a method that changes the drawing, and returns nothing -/
  | call (target : ComObject) (member : String) (arguments : List Variant)
  /-- `job_store.entity_mappings_for(document_id)`, or no mappings without a store -/
  | entityMappingsFor (documentId : String)
  /-- `deadline.checkpoint()` -/
  | checkpoint

namespace ComOp

@[reducible] def Answer : ComOp → Type
  | isQuiescent | getBool _ _ => Bool
  | getText _ _ => String
  | getInteger _ _ | getVariable _ => Int
  | getNumber _ _ | query _ _ _ => ℝ
  | getPoint _ _ => Point
  | getNumbers _ _ => List ℝ
  | getObject _ _ | handleToObject _ | create _ _ _ => ComObject
  | next _ _ => Option ComObject
  | startUndoMark | endUndoMark | put _ _ _ | call _ _ _ | checkpoint => Unit
  | entityMappingsFor _ => List EntityMappingRecord

/-- Whether the operation changes the drawing. -/
def writes : ComOp → Bool
  | put _ _ _ | create _ _ _ | call _ _ _ => true
  | _ => false

end ComOp

/-- Why an operation does not return. -/
inductive Stop where
  | raised (e : Exc)
  | endless

@[reducible] def comSig : Sig := ⟨ComOp, fun o => Except Stop o.Answer⟩

/-- A method of the adapter. -/
abbrev ComM := ExceptT Stop (Prog comSig)

def com (o : ComOp) : ComM o.Answer := ExceptT.mk (Prog.perform (S := comSig) o)

def raise {α : Type} (e : Exc) : ComM α := throw (.raised e)

/-- `try: … except Exception as exc: …` -/
def attempt {α : Type} (m : ComM α) : ComM (Except Exc α) :=
  ExceptT.mk (m.run >>= fun r => match r with
    | .ok a => .ret (.ok (.ok a))
    | .error (.raised e) => .ret (.ok (.error e))
    | .error .endless => .ret (.error .endless))

def ofExcept {α : Type} : Except Exc α → ComM α
  | .ok a => pure a
  | .error e => raise e

/-- `with contextlib.suppress(Exception): …` -/
def suppress {α : Type} (m : ComM α) : ComM (Option α) := do
  match ← attempt m with
  | .ok a => return some a
  | .error _ => return none

/-- A `ComCallFailedError`. -/
def comCallFailed (message : String) (requiredAction : Option String := none)
    (details : List (String × Value) := []) : Exc :=
  .harness { code := .comCallFailed, message, requiredAction, details }

/-- What ActiveX raises. -/
def comError : Exc := .other "com_error"

/-- The elements of a collection from the one after `previous`, as they are enumerated, with what the body makes
of each. An enumeration that has not ended after `fuel` elements does not end. -/
def forEach {α : Type} (collection : ComObject) (body : ComObject → ComM α) :
    Nat → Option ComObject → ComM (List α)
  | 0, _ => throw .endless
  | fuel + 1, previous => do
      match ← com (.next collection previous) with
      | none => return []
      | some object =>
          let a ← body object
          let rest ← forEach collection body fuel (some object)
          return a :: rest

end CadHarness.Com

namespace CadHarness.Com
open CadHarness.Lib CadHarness.Domain CadHarness.Drawing

structure Texts where
  sha256 : String → String
  lower : String → String
  upper : String → String

variable (texts : Texts) (fuel : Nat)

/-- `_INSUNITS_TO_UNIT` -/
def insunitsToUnit : List (Int × String) := [(1, "inch"), (4, "mm"), (5, "cm"), (6, "m")]

/-- `_INSUNITS_TO_MM` -/
def insunitsToMm : List (Int × String × ℚ) :=
  [(1, "inch", 254 / 10), (2, "foot", 3048 / 10), (4, "mm", 1), (5, "cm", 10), (6, "m", 1000),
    (7, "km", 1000000), (8, "microinch", 254 / 10000000), (9, "mil", 254 / 10000), (10, "yard", 9144 / 10),
    (11, "angstrom", 1 / 10000000), (12, "nm", 1 / 1000000), (13, "micron", 1 / 1000), (14, "dm", 100)]

/-- `_assert_quiescent` -/
def assertQuiescent : ComM Unit := do
  match ← suppress (com .isQuiescent) with
  | none => return
  | some quiescent =>
      if !quiescent then
        raise (raised .autocadBusy "AutoCAD is busy with another command"
          "Finish the active AutoCAD command, then retry" [])

/-- `_require_document`, of an adapter that is connected. -/
def requireDocument : ComM ComObject := do
  assertQuiescent
  return .activeDocument

/-- `_document_id` -/
def documentId (document : ComObject) : ComM String := do
  let found ← suppress (do
    let fullName ← com (.getText document "FullName")
    if fullName ≠ "" then return fullName else com (.getText document "Name"))
  let fullName := found.getD "unsaved-document"
  let digest := texts.sha256 (Canonical.canonicalJson (.str (texts.lower (Python.strip fullName))))
  return "doc_" ++ texts.upper (String.ofList (digest.toList.take 26))

/-- `_com_entity_type` -/
def comEntityType (entity : ComObject) : ComM String := do
  let objectName := ((← suppress (com (.getText entity "ObjectName"))).map Python.strip).getD ""
  if objectName ≠ "" then return objectName
  let entityName := ((← suppress (com (.getText entity "EntityName"))).map Python.strip).getD ""
  if entityName ≠ "" then return entityName
  return "AcDbUnknownEntity"

/-- `revision_from(document_id, [count, sorted(handles)])` -/
def revisionFrom (documentId : String) (count : Int) (handles : List String) : String :=
  sha256Of texts.sha256 (.obj [("document_id", .str documentId),
    ("parts", .arr [.num (.int count), strings (sortBy codePoints handles)])])

/-- The body of `_compute_revision`: the number of entities, and their handles. -/
def readRevision (document : ComObject) (documentId : String) : ComM String := do
  let modelSpace ← com (.getObject document "ModelSpace")
  let count ← com (.getInteger modelSpace "Count")
  let handles ← forEach modelSpace (fun entity => com (.getText entity "Handle")) fuel none
  return revisionFrom texts documentId count handles

/-- `_compute_revision` -/
def computeRevision (document : ComObject) (documentId : String) : ComM String := do
  match ← attempt (readRevision texts fuel document documentId) with
  | .ok revision => return revision
  | .error _ => raise (comCallFailed "Could not compute a document revision")

/-- What `inspect_document` returns. -/
structure DocumentSnapshot where
  documentId : String
  revision : String
  pathHash : String
  displayName : String
  units : String
  activeSpace : String
  layers : List LayerInfo
  dimensionStyles : List String
  textStyles : List String
  entityCount : Int
  readOnly : Bool

def inspectLayer (layer : ComObject) : ComM LayerInfo := do
  let name ← com (.getText layer "Name")
  let colorIndex ← com (.getInteger layer "Color")
  let linetype ← com (.getText layer "Linetype")
  let lineweight ← com (.getInteger layer "Lineweight")
  let frozen ← com (.getBool layer "Freeze")
  let layerOn ← com (.getBool layer "LayerOn")
  let locked ← com (.getBool layer "Lock")
  return { name, colorIndex := some colorIndex, linetype := some linetype, lineweight := some lineweight, frozen,
           off := !layerOn, locked }

/-- The names in a collection of styles. -/
def styleNames (document : ComObject) (member : String) : ComM (List String) := do
  let styles ← com (.getObject document member)
  forEach styles (fun style => com (.getText style "Name")) fuel none

/-- The body of `inspect_document`, with the layers and the styles. -/
def inspectConnected (document : ComObject) : ComM DocumentSnapshot := do
  let layerCollection ← com (.getObject document "Layers")
  let layers ← forEach layerCollection inspectLayer fuel none
  let dimensionStyles ← styleNames fuel document "DimStyles"
  let textStyles ← styleNames fuel document "TextStyles"
  let insunits ← com (.getVariable "INSUNITS")
  let modelSpace ← com (.getObject document "ModelSpace")
  let entityCount ← com (.getInteger modelSpace "Count")
  let documentId ← documentId texts document
  let revision ← computeRevision texts fuel document documentId
  let hashedName ← com (.getText document "Name")
  let displayName ← com (.getText document "Name")
  let activeSpace ← com (.getInteger document "ActiveSpace")
  let readOnly ← com (.getBool document "ReadOnly")
  return { documentId, revision, displayName, dimensionStyles, textStyles, layers, entityCount, readOnly,
           pathHash := sha256Of texts.sha256 (.str (texts.lower (Python.strip hashedName))),
           units := (insunitsToUnit.lookup insunits).getD "mm",
           activeSpace := if activeSpace = 1 then "model" else "paper" }

/-- `inspect_document` -/
def inspectDocument : ComM DocumentSnapshot := do
  let document ← requireDocument
  match ← attempt (inspectConnected texts fuel document) with
  | .ok snapshot => return snapshot
  | .error e =>
      if e.code? = some .comCallFailed then raise e
      else raise (comCallFailed "Document inspection failed")

end CadHarness.Com
