import CadHarness.Com.Adapter
import CadHarness.Drawing.DxfReader
import Mathlib.Analysis.SpecialFunctions.Trigonometric.Basic

/-!
# Reading the model space through COM

`ComAutoCADAdapter.inspect_semantic_drawing`: the lines, circles, arcs and straight polylines of model space, in
millimetres, between two readings of the revision.
-/

namespace CadHarness.Com
open CadHarness.Lib CadHarness.Domain CadHarness.Drawing
open CadHarness.Geometry (radians degrees modulo IsClose)

noncomputable section

/-! ## One entity -/

/-- `_COM_SEMANTIC_ENTITY_TYPES` -/
def semanticEntityTypes : List String := ["AcDbLine", "AcDbPolyline", "AcDbCircle", "AcDbArc"]

/-- `_scaled_point` -/
def scaledPoint (p : Point) (scale : ℝ) : Point := (p.1 * scale, p.2 * scale)

/-- `_point_bounds`, of a point and those after it -/
def pointBounds (p : Point) (ps : List Point) : BoundingBox where
  minX := (ps.map Prod.fst).foldl min p.1
  minY := (ps.map Prod.snd).foldl min p.2
  maxX := (ps.map Prod.fst).foldl max p.1
  maxY := (ps.map Prod.snd).foldl max p.2

def circleBounds (center : Point) (radius : ℝ) : BoundingBox where
  minX := center.1 - radius
  minY := center.2 - radius
  maxX := center.1 + radius
  maxY := center.2 + radius

/-- `_arc_bounds` -/
def arcBounds (center : Point) (radius startAngleDeg endAngleDeg : ℝ) : BoundingBox :=
  let tau := 2 * Real.pi
  let start := modulo (radians startAngleDeg) tau
  let finish := modulo (radians endAngleDeg) tau
  let sweep := modulo (finish - start) tau
  let quadrants := [0, Real.pi / 2, Real.pi, 3 * (Real.pi / 2)].filter
    (fun angle => decide (modulo (angle - start) tau ≤ sweep + ((1 / 10 ^ 12 : ℚ) : ℝ)))
  let point (angle : ℝ) : Point := (center.1 + radius * Real.cos angle, center.2 + radius * Real.sin angle)
  pointBounds (point start) ((finish :: quadrants).map point)

open Classical in
/-- The vertices from the one at `index`, unless one of them bulges. -/
def readVertices (entity : ComObject) : Nat → List Point → ComM (Option (List PolylineVertex))
  | _, [] => return some []
  | index, point :: points => do
      let bulge ← com (.query entity "GetBulge" [.integer index])
      if ¬ IsClose bulge 0 ((1 / 10 ^ 12 : ℚ) : ℝ) then return none
      match ← readVertices entity (index + 1) points with
      | some vertices => return some ({ pointMm := point, bulge } :: vertices)
      | none => return none

/-- The coordinates two by two, scaled. -/
def scaledPairs (scale : ℝ) : List ℝ → List Point
  | x :: y :: rest => (x * scale, y * scale) :: scaledPairs scale rest
  | _ => []

/-- The geometry of an entity and its bounds, if all of it can be read. -/
def semanticGeometry (entity : ComObject) (entityType : String) (scale : ℝ) :
    ComM (Option (EntityGeometry EntityRecord × BoundingBox)) := do
  if entityType = "AcDbLine" then
    let start := scaledPoint (← com (.getPoint entity "StartPoint")) scale
    let finish := scaledPoint (← com (.getPoint entity "EndPoint")) scale
    return some (.line start finish, pointBounds start [finish])
  else if entityType = "AcDbCircle" then
    let center := scaledPoint (← com (.getPoint entity "Center")) scale
    let radius := (← com (.getNumber entity "Radius")) * scale
    return some (.circle center radius, circleBounds center radius)
  else if entityType = "AcDbArc" then
    let center := scaledPoint (← com (.getPoint entity "Center")) scale
    let radius := (← com (.getNumber entity "Radius")) * scale
    let startAngle := degrees (← com (.getNumber entity "StartAngle"))
    let endAngle := degrees (← com (.getNumber entity "EndAngle"))
    return some (.arc center radius startAngle endAngle, arcBounds center radius startAngle endAngle)
  else
    let coordinates ← com (.getNumbers entity "Coordinates")
    if coordinates.length < 4 ∨ coordinates.length % 2 ≠ 0 then return none
    match scaledPairs scale coordinates with
    | [] => return none
    | point :: points =>
        match ← readVertices entity 0 (point :: points) with
        | none => return none
        | some vertices =>
            let closed ← com (.getBool entity "Closed")
            return some (.polyline vertices closed, pointBounds point points)

variable (texts : Texts) (fuel : Nat)

/-- `_semantic_entity_record` -/
def semanticEntityRecord (entity : ComObject) (entityType : String) (scale : ℝ) : ComM (Option EntityRecord) := do
  match ← semanticGeometry entity entityType scale with
  | none => return none
  | some (geometry, bounds) =>
      let handle ← com (.getText entity "Handle")
      let layer ← com (.getText entity "Layer")
      let visible ← com (.getBool entity "Visible")
      return some (.mk ("acad:handle:" ++ texts.upper (Python.strip handle)) entityType layer visible "model"
        geometry bounds false)

/-- What the loop makes of an entity: its record, or the name under which it is counted. -/
inductive Observed where
  | record (record : EntityRecord)
  | unsupported (name : String)

def Observed.record? : Observed → Option EntityRecord
  | record r => some r
  | unsupported _ => none

/-- `unsupported[...] += 1` -/
def Observed.count (counts : Counter) : Observed → Counter
  | record _ => counts
  | unsupported name => counts.add name

/-- `if deadline is not None: deadline.checkpoint()` -/
def checkpoint (deadline : Bool) : ComM Unit :=
  if deadline then com .checkpoint else return

/-- The body of the loop. -/
def observeEntity (deadline : Bool) (scale : ℝ) (entity : ComObject) : ComM Observed := do
  checkpoint deadline
  let entityType ← comEntityType entity
  if entityType ∉ semanticEntityTypes then
    return .unsupported entityType
  match ← semanticEntityRecord texts entity entityType scale with
  | none => return .unsupported (entityType ++ ":unsupported_geometry")
  | some record => return .record record

/-! ## The model space -/

structure SemanticReadRequest where
  sourceRef : String
  scope : Option ReadScope
  maxEntities : Int
  /-- Whether the read has a deadline. -/
  deadline : Bool

/-- `_INSUNITS_TO_MM.get(unit_code, ("unknown", None))` -/
def unitsOf (unitCode : Int) : String × Option ℚ :=
  match insunitsToMm.lookup unitCode with
  | some (name, factor) => (name, some factor)
  | none => ("unknown", none)

/-- The entities of model space, as far as they are supported. -/
def readModelSpace (request : SemanticReadRequest) (document : ComObject) (scale : ℝ) : ComM (List Observed) := do
  let modelSpace ← com (.getObject document "ModelSpace")
  let observedCount ← com (.getInteger modelSpace "Count")
  if observedCount > request.maxEntities then
    raise (raised .readScopeTooLarge "COM model space exceeds the approved semantic-read budget"
      "Narrow the read scope or increase the configured limit"
      [("entity_count", .num (.int observedCount)), ("limit", .num (.int request.maxEntities))])
  forEach modelSpace (observeEntity texts request.deadline scale) fuel none

/-- What the adapter cannot read. -/
def scopeUnsupported : Exc :=
  raised .adapterCapabilityMissing "COM semantic reading currently supports model space only"
    "Read model space or use the .NET bridge for another scope"
    [("adapter_type", .str "com"), ("missing_capability", .str "semantic_scoped_geometry_read")]

theorem insunitsToMm_pos : ∀ e ∈ insunitsToMm, 0 < e.2.2 := by
  simp only [insunitsToMm]
  decide +kernel

theorem unitsOf_pos {unitCode : Int} {factor : ℚ} (h : (unitsOf unitCode).2 = some factor) : 0 < factor := by
  unfold unitsOf at h
  cases hlookup : insunitsToMm.lookup unitCode with
  | none => simp [hlookup] at h
  | some e =>
      simp only [hlookup, Option.some.injEq] at h
      exact h ▸ insunitsToMm_pos _ (Assoc.mem_of_lookup hlookup)

theorem semanticChord_pos : (0 : ℝ) < ((1 / 100 : ℚ) : ℝ) := by
  norm_num

theorem semanticFactor_pos {unitCode : Int} {factor : ℝ}
    (h : (unitsOf unitCode).2.map (fun q : ℚ => (q : ℝ)) = some factor) : 0 < factor := by
  obtain ⟨q, hq, rfl⟩ := Option.map_eq_some_iff.mp h
  exact_mod_cast unitsOf_pos hq

theorem semanticNormalized {unitCode : Int} (h : (unitsOf unitCode).2.map (fun q : ℚ => (q : ℝ)) = none) :
    (unitsOf unitCode).2.isSome = false := by
  rw [Option.map_eq_none_iff.mp h]
  rfl

/-- The model of what was observed, under the snapshot after it. -/
def modelOf (scope : ReadScope) (documentId : String) (unitCode : Int) (after : DocumentSnapshot)
    (observed : List Observed) : DrawingModel where
  documentId
  revision := after.revision
  displayName := after.displayName
  sourceUnitCode := (unitsOf unitCode).1
  toMmFactor := (unitsOf unitCode).2.map (fun q : ℚ => (q : ℝ))
  geometryNormalized := (unitsOf unitCode).2.isSome
  scope
  entities := observed.filterMap Observed.record?
  layers := after.layers
  dimensionStyles := after.dimensionStyles
  textStyles := after.textStyles
  unsupported := unsupportedRecords (observed.foldl Observed.count [])
  coverageComplete := (unsupportedRecords (observed.foldl Observed.count [])).isEmpty
  arcChordToleranceMm := ((1 / 100 : ℚ) : ℝ)
  normalized_given := semanticNormalized
  factor_pos := fun _ => semanticFactor_pos
  coverage := List.isEmpty_iff.mp
  chord_pos := semanticChord_pos

/-- The scale of the drawing: one where its unit is not known. -/
def scaleOf (unitCode : Int) : ℝ := (((unitsOf unitCode).2.getD 1 : ℚ) : ℝ)

/-- `inspect_semantic_drawing` -/
def inspectSemanticDrawing (request : SemanticReadRequest) : ComM DrawingModel := do
  match request.scope with
  | none => raise scopeUnsupported
  | some scope =>
      if scope.kind ≠ .modelSpace then raise scopeUnsupported
      let document ← requireDocument
      let documentId ← documentId texts document
      if documentId ≠ request.sourceRef then
        raise (comCallFailed "COM semantic read targeted a different active document"
          (some "Activate the requested drawing and retry") [("requested_document_id", .str request.sourceRef)])
      checkpoint request.deadline
      let before ← inspectDocument texts fuel
      let unitCode ← com (.getVariable "INSUNITS")
      match ← attempt (readModelSpace texts fuel request document (scaleOf unitCode)) with
      | .error e =>
          if e.code? = some .adapterCapabilityMissing ∨ e.code? = some .readScopeTooLarge then raise e
          else raise (comCallFailed "COM semantic model-space inspection failed"
            (some "Finish the active AutoCAD command and retry the read"))
      | .ok observed =>
          checkpoint request.deadline
          let after ← inspectDocument texts fuel
          if before.revision ≠ after.revision then
            raise (comCallFailed "The active drawing changed during COM semantic inspection"
              (some "Freeze drawing edits and read the drawing again"))
          return modelOf scope documentId unitCode after observed

end

end CadHarness.Com
