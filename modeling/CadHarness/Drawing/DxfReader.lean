import CadHarness.Drawing.Model
import CadHarness.Geometry.Curves
import CadHarness.Geometry.Patterns
import CadHarness.Lib.Assoc
import CadHarness.Lib.Tally
import Mathlib.Data.List.Sort
import Mathlib.Data.String.Basic

/-!
# The DXF reader

`cad_harness.adapters.dxf_drawing_reader.DxfDrawingReader.read`, from the opened document on. What `ezdxf` does
is part of the document: how it looks up layouts and blocks, what `virtual_entities` yields for a block
reference and which extents it computes.
-/

namespace CadHarness.Drawing
open CadHarness.Geometry (ToleranceProfile degrees atan2)
open CadHarness.Lib

/-! ## Documents -/

def supportedTypes : List String :=
  ["LINE", "POLYLINE", "LWPOLYLINE", "CIRCLE", "ARC", "ELLIPSE", "TEXT", "MTEXT", "DIMENSION", "HATCH", "INSERT"]

def unsupportedNames : List (String × String) :=
  [("SPLINE", "spline"), ("3DSOLID", "3d_solid"), ("REGION", "region"), ("SURFACE", "surface"),
    ("PLANESURFACE", "surface"), ("EXTRUDEDSURFACE", "surface"), ("LOFTEDSURFACE", "surface"),
    ("REVOLVEDSURFACE", "surface"), ("SWEPTSURFACE", "surface"), ("OLE2FRAME", "ole"), ("ACAD_PROXY_ENTITY", "proxy")]

structure Insert where
  name : String
  insert : Point
  xscale : ℝ := 1
  yscale : ℝ := 1
  rotation : ℝ := 0

/-- The attributes that the reader takes from an entity of each type. -/
inductive DxfData where
  | line (start endPoint : Point)
  | polyline (vertices : List (Point × ℝ)) (isClosed : Bool)
  | lwpolyline (points : List (Point × ℝ)) (closed : Bool)
  | circle (center : Point) (radius : ℝ)
  | arc (center : Point) (radius startAngle endAngle : ℝ)
  | ellipse (center majorAxis : Point) (ratio : ℝ)
  | text (insert : Point) (height : ℝ) (style text : String)
  | mtext (insert : Point) (charHeight : ℝ) (style plainText : String)
  | dimension (measurement : Option ℝ) (dimtype : Nat) (dimstyle text : String)
  | hatch (patternName : String) (area : Option ℝ)
  | insert (i : Insert)
  | other (dxftype : String) (h : dxftype ∉ supportedTypes)

def DxfData.dxftype : DxfData → String
  | line .. => "LINE"
  | polyline .. => "POLYLINE"
  | lwpolyline .. => "LWPOLYLINE"
  | circle .. => "CIRCLE"
  | arc .. => "ARC"
  | ellipse .. => "ELLIPSE"
  | text .. => "TEXT"
  | mtext .. => "MTEXT"
  | dimension .. => "DIMENSION"
  | hatch .. => "HATCH"
  | insert _ => "INSERT"
  | other dxftype _ => dxftype

structure DxfEntity where
  /-- `str(entity.dxf.get("handle", ""))` -/
  handle : String
  layer : String := "0"
  data : DxfData

namespace DxfEntity

def dxftype (entity : DxfEntity) : String := entity.data.dxftype

/-- The block reference that the entity is. -/
def insert? (entity : DxfEntity) : Option Insert :=
  match entity.data with
  | .insert i => some i
  | _ => none

end DxfEntity

structure BlockLayout where
  flags : Nat := 0
  entities : List DxfEntity

/-- What `document.blocks.get` does: a block, `None`, or a `KeyError`. -/
inductive BlockLookup where
  | found (block : BlockLayout)
  | none
  | keyError

structure Layout where
  name : String
  entities : List DxfEntity

structure DxfLayer where
  name : String
  color : Int := 7
  linetype : String := "Continuous"
  lineweight : Int := -3
  frozen : Bool := false
  off : Bool := false
  locked : Bool := false

/-- What the reader or `ezdxf` raises. -/
inductive Raised where
  | valueError (message : String)
  | typeError
  | attributeError
  | dxfError
  | validationError

/-- An opened document, with what `ezdxf` makes of it. The block table is finite. -/
structure Document where
  insunits : Int := 0
  layouts : List Layout
  modelspace : Layout
  layout : String → Option Layout
  blocks : String → BlockLookup
  blockNames : List String
  found_mem : ∀ name block, blocks name = .found block → name ∈ blockNames
  virtualEntities : DxfEntity → Except Raised (List DxfEntity)
  extents : DxfEntity → Option BoundingBox
  layers : List DxfLayer := []
  layerNamed : String → Option DxfLayer
  dimstyles : List String := []
  styles : List String := []

structure DrawingReadRequest where
  scope : Option ReadScope
  maxBlockNestingDepth : Nat
  depth_pos : 1 ≤ maxBlockNestingDepth
  depth_le : maxBlockNestingDepth ≤ 10

/-- Reading counts the unsupported entities that it meets. -/
abbrev ReadM := StateT Counter (Except Raised)

/-! ## Support -/

def entityNames : List (String × String) :=
  [("LINE", "AcDbLine"), ("POLYLINE", "AcDb2dPolyline"), ("LWPOLYLINE", "AcDbPolyline"), ("CIRCLE", "AcDbCircle"),
    ("ARC", "AcDbArc"), ("ELLIPSE", "AcDbEllipse"), ("TEXT", "AcDbText"), ("MTEXT", "AcDbMText"),
    ("DIMENSION", "AcDbDimension"), ("HATCH", "AcDbHatch"), ("INSERT", "AcDbBlockReference")]

/-- `_unsupported_name`. A block that is not there has no flags. -/
def unsupportedName (document : Document) (entity : DxfEntity) : Option String :=
  match entity.data with
  | .insert i =>
      match document.blocks i.name with
      | .keyError => some "xref"
      | .none => none
      | .found block => if block.flags.testBit 2 then some "xref" else none
  | data => unsupportedNames.lookup data.dxftype

/-- An entity that the reader extracts. -/
def Supported (document : Document) (entity : DxfEntity) : Prop :=
  unsupportedName document entity = none ∧ entity.dxftype ∈ supportedTypes

instance (document : Document) (entity : DxfEntity) : Decidable (Supported document entity) :=
  inferInstanceAs (Decidable (_ ∧ _))

/-- The name under which an entity that is not supported is counted. -/
def countedName (document : Document) (entity : DxfEntity) : String :=
  (unsupportedName document entity).getD entity.dxftype.toLower

theorem length_unvisited_lt {names visiting : List String} {name : String} (hmem : name ∈ names)
    (hname : name ∉ visiting) :
    (names.filter (· ∉ name :: visiting)).length < (names.filter (· ∉ visiting)).length := by
  have hfilter : names.filter (· ∉ name :: visiting) = (names.filter (· ∉ visiting)).filter (· ≠ name) := by
    rw [List.filter_filter]
    refine List.filter_congr fun other _ => ?_
    simp [List.mem_cons, not_or]
  rw [hfilter, List.length_filter_lt_length_iff_exists]
  exact ⟨name, List.mem_filter.mpr ⟨hmem, by simpa using hname⟩, by simp⟩

/-- `_count_block_descendants` -/
def countBlockDescendants (document : Document) (blockName : String) (visiting : List String) :
    Except Raised Nat :=
  if _hname : blockName ∈ visiting then .ok 0
  else
    match _hblock : document.blocks blockName with
    | .keyError => .ok 0
    | .none => .error .typeError
    | .found block => do
        let counts ← block.entities.mapM fun child =>
          match child.insert? with
          | some i => (1 + ·) <$> countBlockDescendants document i.name (blockName :: visiting)
          | none => .ok 1
        return counts.sum
termination_by (document.blockNames.filter (· ∉ visiting)).length
decreasing_by exact length_unvisited_lt (document.found_mem _ _ _hblock) _hname

noncomputable section
open Classical

/-! ## Entities -/

def scaled (scale : ℝ) (p : Point) : Point := (p.1 * scale, p.2 * scale)

def polylineGeometry (vertices : List (Point × ℝ)) (closed : Bool) (scale : ℝ) : EntityGeometry EntityRecord :=
  .polyline (vertices.map fun (p, bulge) => ⟨scaled scale p, bulge⟩) closed

def dimensionGeometry (measurement : Option ℝ) (dimtype : Nat) (dimstyle override : String) (scale : ℝ) :
    EntityGeometry EntityRecord :=
  .dimension (toString (dimtype &&& 15)) dimstyle (measurement.map (· * scale))
    (if override = "" ∨ override = "<>" then none else some override)

/-- `_geometry`, where a block reference is read by `blockGeometry`. -/
def geometryOf (scale : ℝ) (blockGeometry : Insert → ReadM (BlockReferenceGeometry EntityRecord)) :
    DxfData → ReadM (EntityGeometry EntityRecord)
  | .line start endPoint => return .line (scaled scale start) (scaled scale endPoint)
  | .circle center radius => return .circle (scaled scale center) (radius * scale)
  | .arc center radius startAngle endAngle => return .arc (scaled scale center) (radius * scale) startAngle endAngle
  | .ellipse center major ratio =>
      let majorLength := √(major.1 ^ 2 + major.2 ^ 2) * scale
      return .ellipse (scaled scale center) majorLength (majorLength * ratio) (degrees (atan2 major.2 major.1))
  | .polyline vertices isClosed => return polylineGeometry vertices isClosed scale
  | .lwpolyline points closed => return polylineGeometry points closed scale
  | .text insert height style text => return .text (scaled scale insert) (height * scale) style text
  | .mtext insert charHeight style plainText => return .text (scaled scale insert) (charHeight * scale) style plainText
  | .dimension measurement dimtype dimstyle text => return dimensionGeometry measurement dimtype dimstyle text scale
  | .hatch patternName area => return .hatch patternName (area.map (· * scale * scale))
  | .insert i => .blockReference <$> blockGeometry i
  | .other .. => throw .attributeError

/-- `_points_box` -/
def pointsBox : List Point → BoundingBox
  | [] => ⟨0, 0, 0, 0⟩
  | p :: points => points.foldl
      (fun box q => ⟨min box.minX q.1, min box.minY q.2, max box.maxX q.1, max box.maxY q.2⟩) ⟨p.1, p.2, p.1, p.2⟩

def aroundBox (center : Point) (radius : ℝ) : BoundingBox :=
  ⟨center.1 - radius, center.2 - radius, center.1 + radius, center.2 + radius⟩

/-- `_bounding_box` -/
def boundingBoxOf (document : Document) (entity : DxfEntity) (geometry : EntityGeometry EntityRecord)
    (scale : ℝ) : BoundingBox :=
  match document.extents entity with
  | some box => ⟨box.minX * scale, box.minY * scale, box.maxX * scale, box.maxY * scale⟩
  | none =>
      match geometry with
      | .line start endPoint => pointsBox [start, endPoint]
      | .circle center radius => aroundBox center radius
      | .arc center radius _ _ => aroundBox center radius
      | .ellipse center major _ _ => aroundBox center major
      | .polyline vertices _ => pointsBox (vertices.map (·.pointMm))
      | .text insertion _ _ _ => ⟨insertion.1, insertion.2, insertion.1, insertion.2⟩
      | .blockReference b =>
          match b.childEntities.map (·.boundingBoxMm) with
          | [] => ⟨b.insertionMm.1, b.insertionMm.2, b.insertionMm.1, b.insertionMm.2⟩
          | box :: boxes => boxes.foldl (fun box c =>
              ⟨min box.minX c.minX, min box.minY c.minY, max box.maxX c.maxX, max box.maxY c.maxY⟩) box
      | .point _ | .dimension .. | .hatch .. => ⟨0, 0, 0, 0⟩

/-- `_is_visible` -/
def isVisible (document : Document) (layerName : String) : Bool :=
  match document.layerNamed layerName with
  | none => true
  | some layer => !(layer.off || layer.frozen)

/-- `unsupported[...] += 1` -/
def countUnsupported (document : Document) (entity : DxfEntity) : ReadM Unit :=
  modify (·.add (countedName document entity))

/-- `_entity_record`, where a block reference is read by `blockGeometry`. -/
def entityRecordWith (document : Document) (space : String) (scale : ℝ)
    (blockGeometry : DxfEntity → String → Insert → ReadM (BlockReferenceGeometry EntityRecord))
    (entity : DxfEntity) (refPrefix : String) : ReadM (Option EntityRecord) :=
  if Supported document entity then do
    let entityRef := if entity.handle = "" then refPrefix else entity.handle
    let geometry ← geometryOf scale (blockGeometry entity entityRef) entity.data
    return some (.mk entityRef ((entityNames.lookup entity.dxftype).getD "") entity.layer
      (isVisible document entity.layer) space geometry (boundingBoxOf document entity geometry scale) false)
  else do
    countUnsupported document entity
    return none

/-! ## Blocks -/

/-- What `_block_geometry` returns, given the children that it has read. -/
def blockReference (tolerance : ToleranceProfile) (scale : ℝ) (i : Insert) (children : List EntityRecord)
    (depthRead beyond : Nat) : BlockReferenceGeometry EntityRecord where
  blockName := i.name
  insertionMm := scaled scale i.insert
  scale := (i.xscale, i.yscale)
  rotationDeg := i.rotation
  nonUniformScale := decide (¬ tolerance.LengthClose |i.xscale| |i.yscale|)
  nestedDepthRead := depthRead
  childEntities := children
  childrenBeyondDepth := beyond

/-- `_block_geometry` beyond the limit: the children are only counted. -/
def cutBlockGeometry (document : Document) (tolerance : ToleranceProfile) (scale : ℝ) (maxDepth : Nat)
    (i : Insert) : ReadM (BlockReferenceGeometry EntityRecord) := do
  let beyond ← (countBlockDescendants document i.name [] : Except Raised Nat)
  return blockReference tolerance scale i [] maxDepth beyond

/-- The block references among some records. -/
def childBlocks (children : List EntityRecord) : List (BlockReferenceGeometry EntityRecord) :=
  children.filterMap fun child =>
    match child.geometry with
    | .blockReference b => some b
    | _ => none

/-- `_block_geometry` up to the limit. -/
def expandedBlockGeometry (document : Document) (tolerance : ToleranceProfile) (scale : ℝ) (depth : Nat)
    (readChild : DxfEntity → String → ReadM (Option EntityRecord)) (entity : DxfEntity) (entityRef : String)
    (i : Insert) : ReadM (BlockReferenceGeometry EntityRecord) := do
  let virtual ← (document.virtualEntities entity : Except Raised (List DxfEntity))
  let records ← virtual.zipIdx.mapM fun e => readChild e.1 s!"{entityRef}/{e.1.dxftype}:{e.2}"
  let nonUniform := decide (¬ tolerance.LengthClose |i.xscale| |i.yscale|)
  let children := (records.filterMap id).map (·.scaledNonUniformly nonUniform)
  let blocks := childBlocks children
  return blockReference tolerance scale i children
    (match blocks.map (·.nestedDepthRead) with
      | [] => depth
      | d :: ds => ds.foldl max d)
    (blocks.map (·.childrenBeyondDepth)).sum

/-- `_entity_record` at the depth `maxDepth + 1 - remaining`. -/
def entityRecord (document : Document) (tolerance : ToleranceProfile) (space : String) (scale : ℝ) (maxDepth : Nat) :
    Nat → DxfEntity → String → ReadM (Option EntityRecord)
  | 0 => entityRecordWith document space scale fun _ _ => cutBlockGeometry document tolerance scale maxDepth
  | remaining + 1 => entityRecordWith document space scale
      (expandedBlockGeometry document tolerance scale (maxDepth - remaining)
        (entityRecord document tolerance space scale maxDepth remaining))

/-! ## Reading -/

/-- `_entities_in_scope`, with the space of each entity -/
def entitiesInScope (document : Document) (scope : ReadScope) : Except Raised (List (DxfEntity × String)) := do
  let layouts ← match scope.kind with
    | .modelSpace | .layer => pure [document.modelspace]
    | .layout =>
        match document.layout (scope.layoutName.getD "") with
        | some layout => pure [layout]
        | none => throw .dxfError
    | .selection => pure document.layouts
  return layouts.flatMap fun layout =>
    let space := if layout.name.toLower = "model" then "model" else s!"paper:{layout.name}"
    (layout.entities.filter fun entity =>
      (scope.kind ≠ .layer ∨ some entity.layer = scope.layerName) ∧
        (scope.kind ≠ .selection ∨ entity.handle ∈ scope.entityRefs)).map (·, space)

def unitFactors : List (Int × String × ℝ) :=
  [(1, "inch", 25.4), (2, "foot", 304.8), (4, "mm", 1), (5, "cm", 10), (6, "m", 1000), (7, "km", 1000000),
    (8, "microinch", 0.0000254), (9, "mil", 0.0254), (10, "yard", 914.4), (11, "angstrom", 0.0000001),
    (12, "nm", 0.000001), (13, "micron", 0.001), (14, "dm", 100)]

/-- `_units` -/
def unitsOf (document : Document) : String × Option ℝ :=
  match unitFactors.lookup document.insunits with
  | some (name, factor) => (name, some factor)
  | none => ("unknown", none)

theorem unitFactors_pos : ∀ e ∈ unitFactors, 0 < e.2.2 := by
  simp only [unitFactors, List.forall_mem_cons]
  norm_num

theorem unitsOf_pos (document : Document) {factor : ℝ} (h : (unitsOf document).2 = some factor) : 0 < factor := by
  unfold unitsOf at h
  cases hlookup : unitFactors.lookup document.insunits with
  | none => simp [hlookup] at h
  | some e =>
      simp only [hlookup, Option.some.injEq] at h
      exact h ▸ unitFactors_pos _ (Assoc.mem_of_lookup hlookup)

/-- `_unsupported_records` -/
def unsupportedRecords (counts : Counter) : List UnsupportedEntityCount :=
  (counts.insertionSort fun a b => a.1 ≤ b.1).map fun (entityType, count) => ⟨entityType, count⟩

/-- The loop of `_read` over the entities in scope. -/
def readEntities (document : Document) (tolerance : ToleranceProfile) (scale : ℝ) (maxDepth : Nat)
    (entities : List (DxfEntity × String)) : ReadM (List EntityRecord) := do
  let records ← entities.zipIdx.mapM fun e =>
    if Supported document e.1.1 then
      entityRecord document tolerance e.1.2 scale maxDepth maxDepth e.1.1 s!"root:{e.2}"
    else do
      countUnsupported document e.1.1
      return none
  return records.filterMap id

def layerInfo (layer : DxfLayer) : LayerInfo where
  name := layer.name
  colorIndex := some |layer.color|
  linetype := some layer.linetype
  lineweight := some layer.lineweight
  frozen := layer.frozen
  off := layer.off
  locked := layer.locked

/-- `_read`. The identifier and the revision of the file and its name are given. -/
def read (documentId revision displayName : String) (tolerance : ToleranceProfile) (document : Document)
    (request : DrawingReadRequest) : Except Raised DrawingModel :=
  match request.scope with
  | none => .error (.valueError "Detailed reads require an explicit scope; use summarize otherwise")
  | some scope => do
      let units := unitsOf document
      let entities ← entitiesInScope document scope
      let (records, unsupported) ←
        (readEntities document tolerance (units.2.getD 1) request.maxBlockNestingDepth entities).run []
      let unsupported := unsupportedRecords unsupported
      if hchord : 0 < tolerance.arcChordToleranceMm then
        return {
          documentId, revision, displayName
          sourceUnitCode := units.1
          toMmFactor := units.2
          geometryNormalized := units.2.isSome
          scope
          entities := records
          layers := document.layers.map layerInfo
          dimensionStyles := document.dimstyles
          textStyles := document.styles
          unsupported
          coverageComplete := unsupported.isEmpty
          arcChordToleranceMm := tolerance.arcChordToleranceMm
          normalized_given := Option.isSome_eq_false_iff.mpr ∘ Option.isNone_iff_eq_none.mpr
          factor_pos := fun _ => unitsOf_pos document
          coverage := List.isEmpty_iff.mp
          chord_pos := hchord }
      else throw .validationError

end

end CadHarness.Drawing

/-!
## Summaries of DXF drawings

`DxfDrawingReader.summarize` without a deadline, from the opened document on. Unsupported entities of blocks are counted
on the definitions of the blocks, with a cache for each block and each number of levels that remain.
-/

namespace CadHarness.Drawing
open CadHarness.Lib

/-- Counts only. -/
structure DrawingSummary where
  documentId : String
  revision : String
  countsByEntityType : Counter
  countsByLayer : Counter
  countsBySpace : Counter
  unsupported : List UnsupportedEntityCount := []
  coverageComplete : Bool := true
  coverage : coverageComplete = true → unsupported = []

/-- `block_unsupported_cache`, for the name of a block and the remaining depth, the newest entry first -/
abbrev BlockCache := List ((String × Nat) × Counter)

/-- The loop of `_block_unsupported_descendants` at one child, where `descend` counts in another block. -/
def countChild (document : Document) (remaining : Nat) (descend : String → StateT BlockCache (Except Raised) Counter)
    (counts : Counter) (child : DxfEntity) : StateT BlockCache (Except Raised) Counter :=
  if ¬ Supported document child then return counts.add (countedName document child)
  else
    match child.insert? with
    | some i => if 1 < remaining then counts.update <$> descend i.name else return counts
    | none => return counts

/-- `_block_unsupported_descendants` at a remaining depth -/
def blockUnsupportedDescendants (document : Document) :
    Nat → String → List (String × Nat) → StateT BlockCache (Except Raised) Counter
  | 0, _, _ => return []
  | remaining + 1, blockName, visiting => do
      let key := (blockName, remaining + 1)
      let cache ← get
      match cache.lookup key with
      | some counts => return counts
      | none =>
          if key ∈ visiting then return []
          else
            match document.blocks blockName with
            | .keyError => return []
            | .none => throw .typeError
            | .found block => do
                let counts ← block.entities.foldlM
                  (countChild document (remaining + 1) fun name =>
                    blockUnsupportedDescendants document remaining name (key :: visiting)) []
                modify ((key, counts) :: ·)
                return counts

/-- The counters that a summary keeps. -/
structure Tally where
  byType : Counter := []
  byLayer : Counter := []
  bySpace : Counter := []
  unsupported : Counter := []
  cache : BlockCache := []

/-- `unsupported_name or _ENTITY_NAMES.get(raw_type, raw_type.lower())` -/
def summaryType (document : Document) (entity : DxfEntity) : String :=
  (unsupportedName document entity).getD ((entityNames.lookup entity.dxftype).getD entity.dxftype.toLower)

/-- The loop of `_summarize` at one entity. -/
def summarizeEntity (document : Document) (maxDepth : Nat) (e : DxfEntity × String) :
    StateT Tally (Except Raised) Unit := do
  modify fun t => { t with
    byType := t.byType.add (summaryType document e.1)
    byLayer := t.byLayer.add e.1.layer
    bySpace := t.bySpace.add e.2 }
  if ¬ Supported document e.1 then
    modify fun t => { t with unsupported := t.unsupported.add (countedName document e.1) }
  else
    match e.1.insert? with
    | some i => do
        let t ← get
        let (counts, cache) ← (blockUnsupportedDescendants document maxDepth i.name []).run t.cache
        set { t with unsupported := t.unsupported.update counts, cache }
    | none => return

/-- `_entities_in_scope`, where no scope is the whole document. -/
def scopedEntities (document : Document) : Option ReadScope → Except Raised (List (DxfEntity × String))
  | some scope => entitiesInScope document scope
  | none => return document.layouts.flatMap fun layout =>
      let space := if layout.name.toLower = "model" then "model" else s!"paper:{layout.name}"
      layout.entities.map (·, space)

theorem unsupportedRecords_of_isEmpty {counts : Counter} (h : counts.isEmpty = true) :
    unsupportedRecords counts = [] := by
  rw [List.isEmpty_iff.mp h]
  rfl

/-- `_summarize`. The identifier and the revision of the file are given. -/
def summarize (documentId revision : String) (document : Document) (request : DrawingReadRequest) :
    Except Raised DrawingSummary := do
  let entities ← scopedEntities document request.scope
  let (_, t) ← (entities.mapM (summarizeEntity document request.maxBlockNestingDepth)).run {}
  return {
    documentId, revision
    countsByEntityType := t.byType
    countsByLayer := t.byLayer
    countsBySpace := t.bySpace
    unsupported := unsupportedRecords t.unsupported
    coverageComplete := t.unsupported.isEmpty
    coverage := unsupportedRecords_of_isEmpty }

end CadHarness.Drawing
