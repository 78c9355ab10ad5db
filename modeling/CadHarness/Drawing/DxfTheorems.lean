import CadHarness.Drawing.DxfReader
import CadHarness.Lib.Fallible

/-!
# What complete coverage says

A model without unsupported entities describes every entity in scope down to the nesting limit, position by
position. The entities below the limit are counted in the block references at the limit.
-/

namespace CadHarness.Drawing
open CadHarness.Geometry (ToleranceProfile)
open CadHarness.Lib

/-! ## Positions -/

/-- The entities inside an entity: what `ezdxf` yields for a block reference. -/
def Document.childrenOf (document : Document) (entity : DxfEntity) : List DxfEntity :=
  match entity.insert?, document.virtualEntities entity with
  | some _, .ok children => children
  | _, _ => []

/-- The entity at a position: the place among the children on each level. -/
def Document.at? (document : Document) (entity : DxfEntity) : List Nat → Option DxfEntity
  | [] => some entity
  | i :: path => (document.childrenOf entity)[i]? >>= fun child => document.at? child path

/-! ## Descriptions -/

/-- The geometry of an entity with some contents, if it is a block reference. -/
def Shows (tolerance : ToleranceProfile) (scale : ℝ) (data : DxfData) (geometry : EntityGeometry EntityRecord) :
    Prop :=
  ∃ children depthRead beyond,
    geometryOf scale (fun i => pure (blockReference tolerance scale i children depthRead beyond)) data = pure geometry

structure Describes (document : Document) (tolerance : ToleranceProfile) (space : String) (scale : ℝ)
    (entity : DxfEntity) (record : EntityRecord) : Prop where
  entityType : entityNames.lookup entity.dxftype = some record.entityType
  layer : record.layer = entity.layer
  visible : record.visible = isVisible document entity.layer
  space : record.space = space
  geometry : Shows tolerance scale entity.data record.geometry

/-- The record of a block reference has the number of the entities inside. -/
def CountsDescendants (document : Document) (entity : DxfEntity) (record : EntityRecord) : Prop :=
  ∀ i, entity.data = .insert i → ∃ b, record.geometry = .blockReference b ∧
    countBlockDescendants document i.name [] = .ok b.childrenBeyondDepth

/-- The record describes the entity and what is inside, `remaining` levels deep. -/
def Extracted (document : Document) (tolerance : ToleranceProfile) (space : String) (scale : ℝ) (remaining : Nat)
    (entity : DxfEntity) (record : EntityRecord) : Prop :=
  ∀ path inner, document.at? entity path = some inner → path.length ≤ remaining →
    ∃ r, record.at? path = some r ∧ Describes document tolerance space scale inner r ∧
      (path.length = remaining → CountsDescendants document inner r)

section
variable {document : Document} {tolerance : ToleranceProfile} {space : String} {scale : ℝ} {entity : DxfEntity}
  {record : EntityRecord}

theorem Describes.scaledNonUniformly (flag : Bool) (h : Describes document tolerance space scale entity record) :
    Describes document tolerance space scale entity (record.scaledNonUniformly flag) := by
  cases record
  exact ⟨h.entityType, h.layer, h.visible, h.space, h.geometry⟩

theorem Extracted.scaledNonUniformly {remaining : Nat} (flag : Bool)
    (h : Extracted document tolerance space scale remaining entity record) :
    Extracted document tolerance space scale remaining entity (record.scaledNonUniformly flag) := by
  intro path inner hat hlength
  obtain ⟨r, hr, hdescribes, hcounts⟩ := h path inner hat hlength
  cases path with
  | nil =>
      obtain rfl : record = r := by simpa [EntityRecord.at?] using hr
      refine ⟨_, rfl, hdescribes.scaledNonUniformly flag, ?_⟩
      cases record
      exact hcounts
  | cons i path =>
      refine ⟨r, ?_, hdescribes, hcounts⟩
      simpa only [EntityRecord.at?, EntityRecord.children_scaledNonUniformly] using hr

end

/-! ## Readings that count nothing -/

/-- If nothing is counted at the end, nothing was counted before and the result has the property. -/
def Uncounted {α : Type} (m : ReadM α) (P : α → Prop) : Prop :=
  ∀ counts result, m.run counts = .ok (result, []) → counts = [] ∧ P result

namespace Uncounted
variable {α β : Type} {P : α → Prop} {Q : β → Prop}

theorem pure {a : α} (h : P a) : Uncounted (pure a) P := by
  intro counts result hrun
  simp only [StateT.run_pure, Fallible.pure_eq_ok, Prod.mk.injEq] at hrun
  exact ⟨hrun.2, hrun.1 ▸ h⟩

theorem bind {m : ReadM α} {f : α → ReadM β} (hm : Uncounted m P) (hf : ∀ a, Uncounted (f a) fun b => P a → Q b) :
    Uncounted (m >>= f) Q := by
  intro counts result hrun
  simp only [StateT.run_bind, Fallible.bind_eq_ok, Prod.exists] at hrun
  obtain ⟨a, between, ha, hresult⟩ := hrun
  obtain ⟨rfl, hQ⟩ := hf a _ _ hresult
  obtain ⟨rfl, hP⟩ := hm _ _ ha
  exact ⟨rfl, hQ hP⟩

theorem mono {R : α → Prop} {m : ReadM α} (hm : Uncounted m P) (h : ∀ a, P a → R a) : Uncounted m R :=
  fun counts result hrun => (hm counts result hrun).imp_right (h result)

theorem map {m : ReadM α} {f : α → β} (hm : Uncounted m P) (h : ∀ a, P a → Q (f a)) : Uncounted (f <$> m) Q := by
  rw [map_eq_pure_bind]
  exact hm.bind fun a => Uncounted.pure (h a)

theorem throw (e : Raised) : Uncounted (throw e) P := by
  intro counts result hrun
  cases hrun

/-- A step that does not touch the counts. -/
theorem lift (x : Except Raised α) : Uncounted (x : ReadM α) fun a => x = .ok a := by
  intro counts result hrun
  cases x with
  | error e => cases hrun
  | ok a =>
      cases hrun
      exact ⟨rfl, rfl⟩

theorem count (document : Document) (entity : DxfEntity) {P : Unit → Prop} :
    Uncounted (countUnsupported document entity) P := by
  intro counts result hrun
  simp [countUnsupported, modify, modifyGet, MonadStateOf.modifyGet, StateT.modifyGet, StateT.run, Pure.pure,
    Except.pure] at hrun

theorem mapM {f : α → ReadM β} {R : α → β → Prop} (l : List α) (h : ∀ a ∈ l, Uncounted (f a) (R a)) :
    Uncounted (l.mapM f) (List.Forall₂ R l) := by
  induction l with
  | nil => exact Uncounted.pure List.Forall₂.nil
  | cons a l ih =>
      rw [List.mapM_cons]
      refine (h a List.mem_cons_self).bind fun b => ?_
      refine (ih fun c hc => h c (List.mem_cons_of_mem _ hc)).bind fun bs => ?_
      exact Uncounted.pure fun hbs hb => List.Forall₂.cons hb hbs

end Uncounted

/-! ## Results that are there -/

theorem forall₂_filterMap_id {α β : Type} {R : α → β → Prop} {l : List α} {l' : List (Option β)}
    (h : List.Forall₂ (fun a b => ∃ c, b = some c ∧ R a c) l l') : List.Forall₂ R l (l'.filterMap id) := by
  induction h with
  | nil => exact List.Forall₂.nil
  | cons hab _ ih =>
      obtain ⟨c, rfl, hR⟩ := hab
      exact List.Forall₂.cons hR ih

theorem exists_getElem?_of_forall₂ {α β : Type} {R : α → β → Prop} {l : List α} {l' : List β}
    (h : List.Forall₂ R l l') {i : Nat} {a : α} (ha : l[i]? = some a) : ∃ b, l'[i]? = some b ∧ R a b := by
  induction h generalizing i with
  | nil => simp at ha
  | @cons a' b' _ _ hab _ ih =>
      cases i with
      | zero =>
          obtain rfl : a' = a := by simpa using ha
          exact ⟨b', rfl, hab⟩
      | succ i => exact ih ha

theorem forall₂_zipIdx {α β : Type} {R : α → β → Prop} {l : List α} {l' : List β}
    (h : List.Forall₂ (fun a b => R a.1 b) l.zipIdx l') : List.Forall₂ R l l' := by
  have hmap := (List.forall₂_map_left_iff (R := R) (f := Prod.fst) (l := l.zipIdx)).mpr h
  rwa [List.zipIdx_map_fst] at hmap

/-! ## Entities -/

section
variable {document : Document} {tolerance : ToleranceProfile} {space : String} {scale : ℝ}

theorem entityNames_lookup {dxftype : String} (h : dxftype ∈ supportedTypes) :
    entityNames.lookup dxftype = some ((entityNames.lookup dxftype).getD "") := by
  have hsome : ∀ t ∈ supportedTypes, (entityNames.lookup t).isSome = true := by decide
  rw [← Option.some_get (hsome _ h), Option.getD_some]

theorem geometryOf_uncounted {data : DxfData}
    {blockGeometry : Insert → ReadM (BlockReferenceGeometry EntityRecord)}
    {B : Insert → BlockReferenceGeometry EntityRecord → Prop}
    (hblock : ∀ i, data = .insert i → Uncounted (blockGeometry i) (B i))
    (hB : ∀ i b, B i b → ∃ children depthRead beyond,
      b = blockReference tolerance scale i children depthRead beyond) :
    Uncounted (geometryOf scale blockGeometry data) fun geometry =>
      Shows tolerance scale data geometry ∧ ∀ i, data = .insert i → ∃ b, B i b ∧ geometry = .blockReference b := by
  cases data with
  | insert i =>
      refine (hblock i rfl).map fun b hb => ?_
      obtain ⟨children, depthRead, beyond, rfl⟩ := hB i b hb
      refine ⟨⟨children, depthRead, beyond, rfl⟩, fun i' hi => ?_⟩
      cases hi
      exact ⟨_, hb, rfl⟩
  | other => exact Uncounted.throw _
  | _ => exact Uncounted.pure ⟨⟨[], 0, 0, rfl⟩, fun i hi => by cases hi⟩

/-- A reading of the block reference that gives it contents with the property. -/
theorem entityRecordWith_uncounted {entity : DxfEntity} {refPrefix : String}
    {blockGeometry : DxfEntity → String → Insert → ReadM (BlockReferenceGeometry EntityRecord)}
    {B : Insert → BlockReferenceGeometry EntityRecord → Prop}
    (hblock : ∀ entityRef i, entity.data = .insert i → Uncounted (blockGeometry entity entityRef i) (B i))
    (hB : ∀ i b, B i b → ∃ children depthRead beyond,
      b = blockReference tolerance scale i children depthRead beyond) :
    Uncounted (entityRecordWith document space scale blockGeometry entity refPrefix) fun result =>
      ∃ record, result = some record ∧ Describes document tolerance space scale entity record ∧
        ∀ i, entity.data = .insert i → ∃ b, B i b ∧ record.geometry = .blockReference b := by
  unfold entityRecordWith
  split
  · next hsupported =>
      refine (geometryOf_uncounted (hblock _) hB).bind fun geometry => Uncounted.pure fun h => ?_
      exact ⟨_, rfl, ⟨entityNames_lookup hsupported.2, rfl, rfl, rfl, h.1⟩, h.2⟩
  · exact (Uncounted.count document entity (P := fun _ => False)).bind fun _ => Uncounted.pure False.elim

theorem cutBlockGeometry_uncounted {maxDepth : Nat} (i : Insert) :
    Uncounted (cutBlockGeometry document tolerance scale maxDepth i) fun b => ∃ beyond,
      countBlockDescendants document i.name [] = .ok beyond ∧
        b = blockReference tolerance scale i [] maxDepth beyond :=
  (Uncounted.lift _).bind fun beyond => Uncounted.pure fun h => ⟨beyond, h, rfl⟩

theorem expandedBlockGeometry_uncounted {depth : Nat} {entity : DxfEntity} {entityRef : String} {i : Insert}
    {readChild : DxfEntity → String → ReadM (Option EntityRecord)} {R : DxfEntity → EntityRecord → Prop}
    (hentity : entity.data = .insert i)
    (hread : ∀ child refPrefix, Uncounted (readChild child refPrefix) fun result => ∃ r, result = some r ∧ R child r)
    (hflag : ∀ child r flag, R child r → R child (r.scaledNonUniformly flag)) :
    Uncounted (expandedBlockGeometry document tolerance scale depth readChild entity entityRef i) fun b =>
      ∃ children depthRead beyond, List.Forall₂ R (document.childrenOf entity) children ∧
        b = blockReference tolerance scale i children depthRead beyond := by
  refine (Uncounted.lift _).bind fun yielded => ?_
  refine Uncounted.bind (Uncounted.mapM (R := fun e result => ∃ r, result = some r ∧ R e.1 r) _
    fun e _ => hread e.1 _) fun records => Uncounted.pure fun hrecords hyielded => ?_
  refine ⟨_, _, _, ?_, rfl⟩
  have hchildren : document.childrenOf entity = yielded := by
    simp [Document.childrenOf, DxfEntity.insert?, hentity, hyielded]
  rw [hchildren, List.forall₂_map_right_iff]
  exact (forall₂_filterMap_id (forall₂_zipIdx hrecords)).imp fun child r => hflag child r _

theorem entityRecord_uncounted {maxDepth : Nat} (remaining : Nat) (entity : DxfEntity) (refPrefix : String) :
    Uncounted (entityRecord document tolerance space scale maxDepth remaining entity refPrefix) fun result =>
      ∃ record, result = some record ∧ Extracted document tolerance space scale remaining entity record := by
  induction remaining generalizing entity refPrefix with
  | zero =>
      refine (entityRecordWith_uncounted (fun _ i _ => cutBlockGeometry_uncounted i)
        fun i b ⟨beyond, _, hb⟩ => ⟨_, _, _, hb⟩).mono fun result ⟨record, hresult, hdescribes, hblock⟩ => ?_
      refine ⟨record, hresult, fun path inner hat hlength => ?_⟩
      obtain rfl := List.eq_nil_of_length_eq_zero (Nat.le_zero.mp hlength)
      obtain rfl : entity = inner := by simpa [Document.at?] using hat
      refine ⟨record, rfl, hdescribes, fun _ i hi => ?_⟩
      obtain ⟨b, ⟨beyond, hbeyond, rfl⟩, hb⟩ := hblock i hi
      exact ⟨_, hb, hbeyond⟩
  | succ remaining ih =>
      refine (entityRecordWith_uncounted (fun _ i hi => expandedBlockGeometry_uncounted hi ih
        fun _ _ flag h => h.scaledNonUniformly flag)
        fun i b ⟨_, _, _, _, hb⟩ => ⟨_, _, _, hb⟩).mono fun result ⟨record, hresult, hdescribes, hblock⟩ => ?_
      refine ⟨record, hresult, fun path inner hat hlength => ?_⟩
      cases path with
      | nil =>
          obtain rfl : entity = inner := by simpa [Document.at?] using hat
          exact ⟨record, rfl, hdescribes, fun h => absurd h (by simp)⟩
      | cons j path =>
          simp only [Document.at?, Option.bind_eq_bind, Option.bind_eq_some_iff] at hat
          obtain ⟨child, hchild, hat⟩ := hat
          have hinsert : ∃ i, entity.data = .insert i := by
            cases hdata : entity.data with
            | insert i => exact ⟨i, rfl⟩
            | _ => simp [Document.childrenOf, DxfEntity.insert?, hdata] at hchild
          obtain ⟨i, hi⟩ := hinsert
          obtain ⟨b, ⟨children, _, _, hchildren, rfl⟩, hb⟩ := hblock i hi
          obtain ⟨r, hr, hextracted⟩ := exists_getElem?_of_forall₂ hchildren hchild
          obtain ⟨r', hr', hinner⟩ := hextracted path inner hat (by simpa using hlength)
          refine ⟨r', ?_, by simpa using hinner⟩
          have hmem : record.children[j]? = some r := by simpa [EntityRecord.children, hb, blockReference] using hr
          simp [EntityRecord.at?, hmem, hr']

theorem readEntities_uncounted {maxDepth : Nat} (entities : List (DxfEntity × String)) :
    Uncounted (readEntities document tolerance scale maxDepth entities) fun records =>
      List.Forall₂ (fun e r => Extracted document tolerance e.2 scale maxDepth e.1 r) entities records := by
  refine Uncounted.bind (Uncounted.mapM (R := fun e result => ∃ r, result = some r ∧
    Extracted document tolerance e.1.2 scale maxDepth e.1.1 r) _ fun e _ => ?_)
    fun records => Uncounted.pure fun h => forall₂_filterMap_id (forall₂_zipIdx h)
  split
  · exact entityRecord_uncounted maxDepth _ _
  · exact (Uncounted.count document e.1.1 (P := fun _ => False)).bind fun _ => Uncounted.pure False.elim

end

/-! ## Coverage -/

theorem unsupportedRecords_eq_nil {counts : Counter} (h : unsupportedRecords counts = []) : counts = [] := by
  have hlength := congrArg List.length h
  simpa [unsupportedRecords, List.length_insertionSort] using hlength

theorem ReadM.run_bind_of_run {α β : Type} {m : ReadM α} {f : α → ReadM β} {counts counts' : Counter} {a : α}
    (h : m.run counts = .ok (a, counts')) : (m >>= f).run counts = (f a).run counts' := by
  rw [StateT.run_bind, h]
  rfl

/-- A supported block reference whose contents are read without counting. -/
theorem entityRecordWith_insert {document : Document} {space refPrefix : String} {scale : ℝ} {entity : DxfEntity}
    {blockGeometry : DxfEntity → String → Insert → ReadM (BlockReferenceGeometry EntityRecord)} {i : Insert}
    {B : BlockReferenceGeometry EntityRecord → Prop} (hdata : entity.data = .insert i)
    (hsupported : Supported document entity)
    (hb : ∀ entityRef, ∃ b, (blockGeometry entity entityRef i).run [] = .ok (b, []) ∧ B b) :
    ∃ record b, (entityRecordWith document space scale blockGeometry entity refPrefix).run [] = .ok (some record, []) ∧
      record.entityType = "AcDbBlockReference" ∧ record.geometry = .blockReference b ∧ B b := by
  obtain ⟨b, hrun, hB⟩ := hb (if entity.handle = "" then refPrefix else entity.handle)
  have hgeometry : (geometryOf scale (blockGeometry entity (if entity.handle = "" then refPrefix else entity.handle))
      entity.data).run [] = .ok (.blockReference b, []) := by
    rw [hdata, geometryOf, StateT.run_map, hrun]
    rfl
  rw [entityRecordWith, if_pos hsupported]
  simp only [StateT.run_bind, hgeometry]
  refine ⟨_, b, rfl, ?_, rfl, hB⟩
  simp [EntityRecord.entityType, DxfEntity.dxftype, hdata, DxfData.dxftype, entityNames, Assoc.lookup_cons]

/-- A block of one entity. -/
theorem expandedBlockGeometry_singleton {document : Document} {tolerance : ToleranceProfile} {scale : ℝ} {depth : Nat}
    {readChild : DxfEntity → String → ReadM (Option EntityRecord)} {entity child : DxfEntity} {entityRef : String}
    {i : Insert} {record : EntityRecord} (hvirtual : document.virtualEntities entity = .ok [child])
    (hread : (readChild child s!"{entityRef}/{child.dxftype}:{0}").run [] = .ok (some record, [])) :
    ∃ b flag, (expandedBlockGeometry document tolerance scale depth readChild entity entityRef i).run [] = .ok (b, []) ∧
      b.childEntities = [record.scaledNonUniformly flag] := by
  have hmap : ([child].zipIdx.mapM fun e => readChild e.1 s!"{entityRef}/{e.1.dxftype}:{e.2}").run [] =
      .ok ([some record], []) := by
    rw [List.zipIdx_singleton, List.mapM_cons, ReadM.run_bind_of_run hread]
    rfl
  rw [expandedBlockGeometry, hvirtual, ReadM.run_bind_of_run rfl, ReadM.run_bind_of_run hmap]
  exact ⟨_, _, rfl, rfl⟩

theorem exists_read (documentId revision displayName : String) {tolerance : ToleranceProfile} {document : Document}
    {request : DrawingReadRequest} {scope : ReadScope} {entities : List (DxfEntity × String)}
    {records : List EntityRecord} {counts : Counter} (hscope : request.scope = some scope)
    (hentities : entitiesInScope document scope = .ok entities)
    (hread : (readEntities document tolerance ((unitsOf document).2.getD 1) request.maxBlockNestingDepth entities).run
      [] = .ok (records, counts)) (hchord : 0 < tolerance.arcChordToleranceMm) :
    ∃ model, read documentId revision displayName tolerance document request = .ok model ∧ model.scope = scope ∧
      model.entities = records ∧ model.unsupported = unsupportedRecords counts ∧
      model.coverageComplete = (unsupportedRecords counts).isEmpty := by
  rw [read, hscope]
  simp only [hentities, hread, bind, Except.bind, dif_pos hchord]
  exact ⟨_, rfl, rfl, rfl, rfl, rfl⟩

/-! ## A circle in a block in a block -/

noncomputable section

def outerReference : DxfEntity where
  handle := "1A"
  data := .insert { name := "OUTER", insert := (0, 0) }

def innerReference : DxfEntity where
  handle := "2B"
  data := .insert { name := "INNER", insert := (0, 0) }

def innerCircle : DxfEntity where
  handle := "3C"
  data := .circle (0, 0) 1

/-- A circle in a block in a block. -/
def nestedDocument : Document where
  layouts := [{ name := "Model", entities := [outerReference] }]
  modelspace := { name := "Model", entities := [outerReference] }
  layout := fun _ => none
  blocks := fun name =>
    if name = "OUTER" then .found { entities := [innerReference] }
    else if name = "INNER" then .found { entities := [innerCircle] }
    else .none
  blockNames := ["OUTER", "INNER"]
  found_mem := by
    intro name block h
    split_ifs at h <;> simp [*]
  virtualEntities := fun entity =>
    match entity.insert? with
    | some i => .ok (if i.name = "OUTER" then [innerReference] else [innerCircle])
    | none => .error .attributeError
  extents := fun _ => none
  layerNamed := fun _ => none

def shallowRequest : DrawingReadRequest where
  scope := some {}
  maxBlockNestingDepth := 1
  depth_pos := Nat.le_refl 1
  depth_le := by decide
end

theorem supported_outerReference : Supported nestedDocument outerReference := by
  simp [Supported, unsupportedName, nestedDocument, outerReference, DxfEntity.dxftype, DxfData.dxftype, supportedTypes]

theorem supported_innerReference : Supported nestedDocument innerReference := by
  simp [Supported, unsupportedName, nestedDocument, innerReference, DxfEntity.dxftype, DxfData.dxftype, supportedTypes]

theorem countBlockDescendants_inner : countBlockDescendants nestedDocument "INNER" [] = .ok 1 := by
  rw [countBlockDescendants]
  simp [nestedDocument, innerCircle, DxfEntity.insert?, pure, Except.pure, bind, Except.bind]

theorem entityRecord_inner (space refPrefix : String) : ∃ record b,
    (entityRecord nestedDocument {} space 1 1 0 innerReference refPrefix).run [] = .ok (some record, []) ∧
      record.entityType = "AcDbBlockReference" ∧ record.geometry = .blockReference b ∧ b.childEntities = [] := by
  refine entityRecordWith_insert rfl supported_innerReference fun entityRef =>
    ⟨blockReference {} 1 { name := "INNER", insert := (0, 0) } [] 1 1, ?_, rfl⟩
  rw [cutBlockGeometry, countBlockDescendants_inner]
  rfl

theorem entityRecord_outer (space refPrefix : String) : ∃ record b,
    (entityRecord nestedDocument {} space 1 1 1 outerReference refPrefix).run [] = .ok (some record, []) ∧
      record.entityType = "AcDbBlockReference" ∧ record.geometry = .blockReference b ∧
      ∃ inner : EntityRecord, b.childEntities = [inner] ∧ inner.entityType = "AcDbBlockReference" ∧
        inner.children = [] := by
  refine entityRecordWith_insert rfl supported_outerReference fun entityRef => ?_
  obtain ⟨inner, b, hrun, htype, hgeometry, hchildren⟩ :=
    entityRecord_inner space s!"{entityRef}/{innerReference.dxftype}:{0}"
  have hvirtual : nestedDocument.virtualEntities outerReference = .ok [innerReference] := by
    simp [nestedDocument, outerReference, DxfEntity.insert?]
  obtain ⟨b', flag, hrun', hchildren'⟩ := expandedBlockGeometry_singleton hvirtual hrun
  refine ⟨b', hrun', _, hchildren', ?_, ?_⟩
  · simpa using htype
  · rw [EntityRecord.children_scaledNonUniformly, EntityRecord.children, hgeometry]
    exact hchildren

/-- The model of the document up to the limit of one level. -/
theorem exists_shallow_read : ∃ model space record inner, read "" "" "" {} nestedDocument shallowRequest = .ok model ∧
    entitiesInScope nestedDocument model.scope = .ok [(outerReference, space)] ∧ model.coverageComplete = true ∧
    model.unsupported = [] ∧ model.entities = [record] ∧ record.entityType = "AcDbBlockReference" ∧
    record.children = [inner] ∧ inner.entityType = "AcDbBlockReference" ∧ inner.children = [] := by
  obtain ⟨space, hscope⟩ : ∃ space, entitiesInScope nestedDocument {} = .ok [(outerReference, space)] := ⟨_, rfl⟩
  obtain ⟨record, b, hrun, htype, hgeometry, inner, hb, hinnerType, hinnerChildren⟩ := entityRecord_outer space "root:0"
  have hunits : (unitsOf nestedDocument).2.getD 1 = 1 := by
    simp [unitsOf, nestedDocument, unitFactors, Assoc.lookup_cons]
  have hread : (readEntities nestedDocument {} ((unitsOf nestedDocument).2.getD 1) 1
      [(outerReference, space)]).run [] = .ok ([record], []) := by
    rw [hunits, readEntities, List.zipIdx_singleton, List.mapM_cons]
    simp only [if_pos supported_outerReference]
    rw [ReadM.run_bind_of_run (ReadM.run_bind_of_run hrun)]
    rfl
  have hchord : (0 : ℝ) < ({} : ToleranceProfile).arcChordToleranceMm := by norm_num
  have hshallow : shallowRequest.scope = some {} := rfl
  obtain ⟨model, hmodel, hmodelScope, hentities, hunsupported, hcoverage⟩ :=
    exists_read "" "" "" hshallow hscope hread hchord
  refine ⟨model, space, record, inner, hmodel, ?_, hcoverage, hunsupported, hentities, htype, ?_, hinnerType,
    hinnerChildren⟩
  · rw [hmodelScope, hscope]
  · rw [EntityRecord.children, hgeometry]
    exact hb

end CadHarness.Drawing
