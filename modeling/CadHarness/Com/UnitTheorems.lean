import CadHarness.Com.Drawn
import CadHarness.Com.Lemmas.SemanticRuns

/-!
# Units of what is drawn and read

The handlers draw millimetres as units of the drawing, and the reader takes the units of the drawing for what
they are. Only in a drawing in millimetres is an entity read as it was meant.
-/

namespace CadHarness.Com
open CadHarness.Lib CadHarness.Drawing Prog

noncomputable section

variable {world : World comSig} {tr : List ComEvent} {entity : ComObject}

/-! ## Reading an entity that was drawn -/

/-- The program reads its way to a result. -/
def ReadsTo {α : Type} (world : World comSig) (m : ComM α) (tr : List ComEvent) (a : α) : Prop :=
  ∃ tr', ReadsOn tr tr' ∧ exec world m tr = (tr', .ok a)

namespace ReadsTo

variable {α β : Type} {m : ComM α} {f : α → ComM β} {a : α} {b : β}

theorem pure (a : α) : ReadsTo world (pure a) tr a := ⟨tr, ReadsOn.refl tr, rfl⟩

theorem com {o : ComOp} {a : o.Answer} (ho : o.writes = false) (h : world tr o = .ok a) :
    ReadsTo world (com o) tr a :=
  ⟨_, ReadsOn.call ho, exec_com_eq_ok.mpr ⟨h, rfl⟩⟩

/-- After the first part, the trace has more reading calls in it. -/
theorem bind_exists {P : β → Prop} (hm : ReadsTo world m tr a)
    (hf : ∀ tr', ReadsOn tr tr' → ∃ b, ReadsTo world (f a) tr' b ∧ P b) :
    ∃ b, ReadsTo world (m >>= f) tr b ∧ P b := by
  obtain ⟨tr₁, hreads, hm⟩ := hm
  obtain ⟨b, ⟨tr₂, hreads', hf⟩, hb⟩ := hf tr₁ hreads
  refine ⟨b, ⟨tr₂, hreads.trans hreads', ?_⟩, hb⟩
  rw [exec_bind_of hm, hf]

theorem bind (hm : ReadsTo world m tr a) (hf : ∀ tr', ReadsOn tr tr' → ReadsTo world (f a) tr' b) :
    ReadsTo world (m >>= f) tr b := by
  obtain ⟨_, h, rfl⟩ := hm.bind_exists (fun tr' hreads => ⟨b, hf tr' hreads, rfl⟩)
  exact h

theorem suppress {m : ComM α} (h : ReadsTo world m tr a) : ReadsTo world (suppress m) tr (some a) := by
  obtain ⟨tr', hreads, h⟩ := h
  refine ⟨tr', hreads, ?_⟩
  unfold Com.suppress
  rw [exec_bind, exec_attempt, h]
  rfl

end ReadsTo

theorem degrees_radians_add (a : ℝ) (turns : ℤ) :
    Geometry.degrees (Geometry.radians a + turns * (2 * Real.pi)) = a + turns * 360 := by
  unfold Geometry.degrees Geometry.radians
  have hpi := Real.pi_ne_zero
  field_simp
  ring

theorem scaledPairs_flatMap (k : ℝ) (points : List Point) :
    scaledPairs k (points.flatMap (fun p => [p.1, p.2])) = points.map (fun p => scaledPoint p k) := by
  induction points with
  | nil => rfl
  | cons p points ih =>
      rw [List.flatMap_cons, List.map_cons, ← ih]
      rfl

theorem length_flatMap_pairs (points : List Point) :
    (points.flatMap (fun p => [p.1, p.2])).length = 2 * points.length := by
  induction points with
  | nil => rfl
  | cons p points ih => simp [ih]; omega

theorem createdTypes_plain : ∀ e ∈ createdTypes, Python.strip e.2 = e.2 ∧ e.2 ≠ "" := by
  decide

/-- The type under which AutoCAD lists a geometry. -/
def typeName : EntityGeometry EntityRecord → String
  | .line _ _ => "AcDbLine"
  | .circle _ _ => "AcDbCircle"
  | .arc _ _ _ _ => "AcDbArc"
  | _ => "AcDbPolyline"

theorem typeName_semantic (g : EntityGeometry EntityRecord) : typeName g ∈ semanticEntityTypes := by
  cases g <;> simp [typeName, semanticEntityTypes]

section

variable (hworld : Documented world)
include hworld

theorem comEntityType_reads {member : String} {arguments : List Variant} {name : String}
    (h : DrawnBy tr entity member arguments) (hname : createdTypes.lookup member = some name) :
    ReadsTo world (comEntityType entity) tr name := by
  obtain ⟨hstrip, hne⟩ := createdTypes_plain _ (Assoc.mem_of_lookup hname)
  apply ((ReadsTo.com rfl (hworld.objectName h hname)).suppress).bind
  intro tr hreads
  simp only [Option.map_some, Option.getD_some, hstrip, hne, ne_eq, not_false_eq_true, if_true]
  exact ReadsTo.pure name

theorem Stands.typeName_reads {g : EntityGeometry EntityRecord} (h : Stands tr entity g) :
    ReadsTo world (comEntityType entity) tr (typeName g) := by
  cases h with
  | line h => exact comEntityType_reads hworld h rfl
  | circle h => exact comEntityType_reads hworld h rfl
  | arc h => exact comEntityType_reads hworld h rfl
  | polyline h => exact comEntityType_reads hworld h rfl

theorem readVertices_reads {flat : List ℝ} (h : DrawnBy tr entity "AddLightWeightPolyline" [.doubles flat])
    (index : Nat) (points : List Point) :
    ReadsTo world (readVertices entity index points) tr (some (points.map (fun p => { pointMm := p }))) := by
  induction points generalizing index tr with
  | nil => exact ReadsTo.pure _
  | cons p points ih =>
      unfold readVertices
      apply (ReadsTo.com rfl (hworld.bulge index h)).bind
      intro tr hreads
      have hclose : Geometry.IsClose 0 0 ((1 / 10 ^ 12 : ℚ) : ℝ) := by
        unfold Geometry.IsClose
        norm_num
      simp only [hclose, not_true_eq_false, if_false]
      apply (ih (h.reads hreads) (index + 1)).bind
      intro tr' hreads'
      exact ReadsTo.pure _

/-- The geometry of an entity is read with its lengths scaled. -/
theorem Stands.geometry_reads {g : EntityGeometry EntityRecord} (h : Stands tr entity g) (k : ℝ) :
    ∃ read, ReadsTo world (semanticGeometry entity (typeName g) k) tr read ∧
      ∃ geometry bounds, read = some (geometry, bounds) ∧ SameGeometry geometry (scaledGeometry k g) := by
  unfold semanticGeometry
  cases h with
  | @line p q h =>
      simp only [typeName, reduceIte]
      apply (ReadsTo.com rfl (hworld.startPoint h)).bind_exists
      intro tr hreads
      apply (ReadsTo.com rfl (hworld.endPoint (h.reads hreads))).bind_exists
      intro tr' hreads'
      exact ⟨_, ReadsTo.pure _, _, _, rfl, .line⟩
  | @circle c r h =>
      simp only [typeName, String.reduceEq, reduceIte]
      apply (ReadsTo.com rfl (hworld.circleCenter h)).bind_exists
      intro tr hreads
      apply (ReadsTo.com rfl (hworld.circleRadius (h.reads hreads))).bind_exists
      intro tr' hreads'
      exact ⟨_, ReadsTo.pure _, _, _, rfl, .circle⟩
  | @arc c r a b h =>
      simp only [typeName, String.reduceEq, reduceIte]
      apply (ReadsTo.com rfl (hworld.arcCenter h)).bind_exists
      intro tr hreads
      have h := h.reads hreads
      apply (ReadsTo.com rfl (hworld.arcRadius h)).bind_exists
      intro tr hreads
      have h := h.reads hreads
      obtain ⟨m, hm⟩ := hworld.startAngle h
      apply (ReadsTo.com rfl hm).bind_exists
      intro tr hreads
      obtain ⟨n, hn⟩ := hworld.endAngle (h.reads hreads)
      apply (ReadsTo.com rfl hn).bind_exists
      intro tr hreads
      refine ⟨_, ReadsTo.pure _, _, _, rfl, ?_⟩
      rw [degrees_radians_add, degrees_radians_add]
      exact .arc m n
  | @polyline points closed h hclosed hlength =>
      simp only [typeName, String.reduceEq, reduceIte]
      apply (ReadsTo.com rfl (hworld.coordinates h)).bind_exists
      intro tr hreads
      have h := h.reads hreads
      have hclosed := hclosed.reads hreads
      have hsame : SameGeometry
          (.polyline ((points.map (fun p => scaledPoint p k)).map (fun p => { pointMm := p })) closed)
          (scaledGeometry k (.polyline (points.map (fun p => { pointMm := p })) closed)) := by
        simp only [scaledGeometry, List.map_map, Function.comp_def]
        exact .polyline
      rw [length_flatMap_pairs, scaledPairs_flatMap, if_neg (by omega)]
      cases points with
      | nil => simp at hlength
      | cons p points =>
          apply (readVertices_reads hworld h 0 ((p :: points).map (fun p => scaledPoint p k))).bind_exists
          intro tr hreads
          have hclosed := hclosed.reads hreads
          apply (ReadsTo.com rfl (hworld.closed (h.reads hreads) hclosed)).bind_exists
          intro tr hreads
          exact ⟨_, ReadsTo.pure _, _, _, rfl, hsame⟩

theorem Stands.record_reads {g : EntityGeometry EntityRecord} (h : Stands tr entity g) (texts : Texts) (k : ℝ) :
    ∃ read, ReadsTo world (semanticEntityRecord texts entity (typeName g) k) tr read ∧
      ∃ record, read = some record ∧ SameGeometry record.geometry (scaledGeometry k g) := by
  obtain ⟨_, hread, geometry, bounds, rfl, hsame⟩ := h.geometry_reads hworld k
  obtain ⟨member, arguments, hdrawn⟩ := h.drawnBy
  apply hread.bind_exists
  intro tr hreads
  have hdrawn := hdrawn.reads hreads
  obtain ⟨handle, hhandle⟩ := hworld.handle hdrawn
  apply (ReadsTo.com rfl hhandle).bind_exists
  intro tr hreads
  have hdrawn := hdrawn.reads hreads
  obtain ⟨layer, hlayer⟩ := hworld.layer hdrawn
  apply (ReadsTo.com rfl hlayer).bind_exists
  intro tr hreads
  obtain ⟨visible, hvisible⟩ := hworld.visible (hdrawn.reads hreads)
  apply (ReadsTo.com rfl hvisible).bind_exists
  intro tr hreads
  exact ⟨_, ReadsTo.pure _, _, rfl, hsame⟩

/-- An entity that stands is observed with its lengths scaled. -/
theorem Stands.observed {g : EntityGeometry EntityRecord} (h : Stands tr entity g) (texts : Texts) (k : ℝ) :
    ∃ read, ReadsTo world (observeEntity texts false k entity) tr read ∧
      ∃ record, read = .record record ∧ SameGeometry record.geometry (scaledGeometry k g) := by
  apply (ReadsTo.pure ()).bind_exists
  intro tr hreads
  have h := h.reads hreads
  apply (h.typeName_reads hworld).bind_exists
  intro tr hreads
  rw [if_neg (not_not_intro (typeName_semantic g))]
  obtain ⟨_, hread, record, rfl, hsame⟩ := (h.reads hreads).record_reads hworld texts k
  apply hread.bind_exists
  intro tr hreads
  exact ⟨_, ReadsTo.pure _, record, rfl, hsame⟩

end

/-! ## The round trip -/

/-- The lengths and coordinates of a geometry. -/
def lengths : EntityGeometry EntityRecord → List ℝ
  | .line p q => [p.1, p.2, q.1, q.2]
  | .circle c r | .arc c r _ _ => [c.1, c.2, r]
  | .polyline vertices _ => vertices.flatMap (fun v => [v.pointMm.1, v.pointMm.2])
  | _ => []

theorem SameGeometry.lengths_eq {g g' : EntityGeometry EntityRecord} (h : SameGeometry g g') :
    lengths g = lengths g' := by
  cases h <;> rfl

theorem lengths_scaled (k : ℝ) (g : EntityGeometry EntityRecord) :
    lengths (scaledGeometry k g) = (lengths g).map (· * k) := by
  cases g with
  | polyline vertices closed =>
      simp only [lengths, scaledGeometry, List.flatMap_map, List.map_flatMap]
      rfl
  | _ => rfl

theorem scaledGeometry_one (g : EntityGeometry EntityRecord) : scaledGeometry 1 g = g := by
  cases g <;> simp [scaledGeometry, scaledPoint]

/-- Where there is no length, scaling has no effect. -/
theorem scaledGeometry_of_zero {g : EntityGeometry EntityRecord} (h : ∀ l ∈ lengths g, l = 0) (k : ℝ) :
    scaledGeometry k g = g := by
  cases g with
  | polyline vertices closed =>
      have hvertex : ∀ v ∈ vertices, { v with pointMm := scaledPoint v.pointMm k } = v := by
        intro v hv
        have hx : v.pointMm.1 = 0 := h _ (List.mem_flatMap.mpr ⟨v, hv, by simp⟩)
        have hy : v.pointMm.2 = 0 := h _ (List.mem_flatMap.mpr ⟨v, hv, by simp⟩)
        have hpoint : scaledPoint v.pointMm k = v.pointMm := by
          ext <;> simp [scaledPoint, hx, hy]
        rw [hpoint]
      rw [scaledGeometry, List.map_congr_left hvertex, List.map_id']
  | line p q =>
      simp only [lengths, List.mem_cons, List.not_mem_nil, or_false, forall_eq_or_imp, forall_eq] at h
      simp [scaledGeometry, scaledPoint, Prod.ext_iff, h]
  | circle c r =>
      simp only [lengths, List.mem_cons, List.not_mem_nil, or_false, forall_eq_or_imp, forall_eq] at h
      simp [scaledGeometry, scaledPoint, Prod.ext_iff, h]
  | arc c r a b =>
      simp only [lengths, List.mem_cons, List.not_mem_nil, or_false, forall_eq_or_imp, forall_eq] at h
      simp [scaledGeometry, scaledPoint, Prod.ext_iff, h]
  | _ => rfl

/-- Lengths that stay when they are scaled. -/
theorem map_scale_eq_self_iff (k : ℝ) (l : List ℝ) : l.map (· * k) = l ↔ k = 1 ∨ ∀ x ∈ l, x = 0 := by
  induction l with
  | nil => simp
  | cons x l ih =>
      rw [List.map_cons, List.cons.injEq, ih, List.forall_mem_cons]
      by_cases hk : k = 1
      · simp [hk]
      · simp [hk, mul_right_eq_self₀]

/-- However the entity is read later on, it is read as a record of this geometry. -/
def ReadsBack (texts : Texts) (world : World comSig) (tr : List ComEvent) (scale : ℝ) (entity : ComObject)
    (g : EntityGeometry EntityRecord) : Prop :=
  ∀ tr' deadline observed, ReadsOn tr tr' →
    (exec world (observeEntity texts deadline scale entity) tr').2 = .ok observed →
    ∃ record, observed = .record record ∧ SameGeometry record.geometry g

/-- With a deadline an entity is observed as it is without one, if it is in time. -/
theorem observeEntity_deadline {texts : Texts} {deadline : Bool} {scale : ℝ} {observed : Observed}
    (h : (exec world (observeEntity texts deadline scale entity) tr).2 = .ok observed) :
    ∃ tr', ReadsOn tr tr' ∧ (exec world (observeEntity texts false scale entity) tr').2 = .ok observed := by
  cases deadline with
  | false => exact ⟨tr, ReadsOn.refl tr, h⟩
  | true =>
      obtain ⟨tr', hrun⟩ : ∃ tr', exec world (observeEntity texts true scale entity) tr = (tr', .ok observed) :=
        ⟨_, Prod.ext rfl h⟩
      obtain ⟨tr₁, _, hcheck, hrest⟩ := exec_bind_eq_ok.mp hrun
      obtain ⟨-, rfl⟩ := exec_com_eq_ok.mp hcheck
      exact ⟨_, ReadsOn.call rfl, congrArg Prod.snd hrest⟩

/-- What is observed of an entity that stands is its geometry with the lengths scaled. -/
theorem Stands.observed_eq (hworld : Documented world) {texts : Texts} {g : EntityGeometry EntityRecord}
    (h : Stands tr entity g) {k : ℝ} {deadline : Bool} {observed : Observed}
    (hrun : (exec world (observeEntity texts deadline k entity) tr).2 = .ok observed) :
    ∃ record, observed = .record record ∧ SameGeometry record.geometry (scaledGeometry k g) := by
  obtain ⟨tr', hreads, hrun⟩ := observeEntity_deadline hrun
  obtain ⟨_, ⟨tr'', -, hrecord⟩, record, rfl, hsame⟩ := (h.reads hreads).observed hworld texts k
  rw [hrecord] at hrun
  cases hrun
  exact ⟨record, rfl, hsame⟩

/-- An entity that stands reads back just when scaling leaves its geometry as it is. -/
theorem readsBack_iff (hworld : Documented world) (texts : Texts) {g : EntityGeometry EntityRecord}
    (h : Stands tr entity g) (k : ℝ) :
    ReadsBack texts world tr k entity g ↔ k = 1 ∨ ∀ l ∈ lengths g, l = 0 := by
  constructor
  · intro hback
    obtain ⟨_, ⟨tr', -, hrun⟩, record, rfl, hsame⟩ := h.observed hworld texts k
    obtain ⟨_, ⟨⟩, hg⟩ := hback tr false (.record record) (ReadsOn.refl tr) (by rw [hrun])
    rw [← map_scale_eq_self_iff, ← lengths_scaled, ← hsame.lengths_eq, hg.lengths_eq]
  · intro hscale tr' deadline observed hreads hobserved
    have hg : scaledGeometry k g = g := by
      rcases hscale with rfl | hzero
      · exact scaledGeometry_one g
      · exact scaledGeometry_of_zero hzero k
    have hread := (h.reads hreads).observed_eq hworld hobserved
    rwa [hg] at hread

theorem scaleOf_eq_one_iff {code : Int} {factor : ℚ} (h : (unitsOf code).2 = some factor) :
    scaleOf code = 1 ↔ code = 4 := by
  have htable : ∀ e ∈ insunitsToMm, e.2.2 = 1 ↔ e.1 = 4 := by
    decide +kernel
  unfold scaleOf
  unfold unitsOf at h ⊢
  cases hlookup : insunitsToMm.lookup code with
  | none => simp [hlookup] at h
  | some e =>
      have he := htable _ (Assoc.mem_of_lookup hlookup)
      dsimp only at he ⊢
      rw [Option.getD_some, ← he]
      norm_cast

/-- What an operation draws in a drawing of a known unit is read back as it was meant, just in millimetres or
where there is no length at all. -/
theorem drawn_reads_back_iff (hworld : Documented world) (texts : Texts) {code : Int} {factor : ℚ}
    (hcode : (unitsOf code).2 = some factor) {operation : Plan.Operation}
    {shapes : List (EntityGeometry EntityRecord)} (hshapes : operationGeometry operation = .ok shapes)
    {document : ComObject} {documentId : String} {tr' : List ComEvent} {drawn : List Drawn}
    (hdraw : exec world (handle document documentId operation) tr = (tr', .ok drawn)) :
    List.Forall₂ (fun d g => ∃ entity, d = .live entity ∧ ReadsBack texts world tr' (scaleOf code) entity g)
      drawn shapes ↔ code = 4 ∨ ∀ g ∈ shapes, ∀ l ∈ lengths g, l = 0 := by
  rw [← scaleOf_eq_one_iff hcode]
  have hstands := handle_draws hworld hshapes hdraw
  clear hshapes hdraw
  induction hstands with
  | nil => simp
  | @cons d g drawn shapes hd hrest ih =>
      obtain ⟨entity, rfl, hg⟩ := hd
      have hhead : (∃ entity', Drawn.live entity = .live entity' ∧
          ReadsBack texts world tr' (scaleOf code) entity' g) ↔
            scaleOf code = 1 ∨ ∀ l ∈ lengths g, l = 0 := by
        rw [← readsBack_iff hworld texts hg]
        simp
      rw [List.forall₂_cons, List.forall_mem_cons, or_and_left]
      exact and_congr hhead ih

/-- A line from the origin along the x axis. -/
def lineOperation : Plan.Operation where
  operationId := "op_1"
  featureId := "feature_1"
  type := .createLine
  layer := "OUTLINE"
  geometry := [("start_mm", .arr [.num (.int 0), .num (.int 0)]), ("end_mm", .arr [.num (.int 10), .num (.int 0)])]

def lineShapes : List (EntityGeometry EntityRecord) :=
  [.line (((0 : Int) : ℝ), ((0 : Int) : ℝ)) (((10 : Int) : ℝ), ((0 : Int) : ℝ))]

theorem lineOperation_geometry : operationGeometry lineOperation = .ok lineShapes := rfl

/-- The calls that draw the line. -/
def lineCalls : List ComEvent := (exec plainDocument (handle .activeDocument "doc_" lineOperation) []).1

theorem lineOperation_draws : exec plainDocument (handle .activeDocument "doc_" lineOperation) [] =
    (lineCalls, .ok [Drawn.live (.entityObject 0)]) := rfl

theorem drawn_reads_back_iff_line :
    List.Forall₂ (fun d g => ∃ entity, d = Drawn.live entity ∧
        ReadsBack plainTexts plainDocument lineCalls (scaleOf 1) entity g)
      [Drawn.live (.entityObject 0)] lineShapes ↔ (1 : Int) = 4 ∨ ∀ g ∈ lineShapes, ∀ l ∈ lengths g, l = 0 :=
  drawn_reads_back_iff plainDocument_documented plainTexts rfl lineOperation_geometry lineOperation_draws

/-- In a drawing in inches the line is drawn ten inches long. -/
theorem line_reads_longer : ¬ ∀ (world : World comSig) (texts : Texts) (tr tr' : List ComEvent) (code : Int)
    (factor : ℚ) (operation : Plan.Operation) (shapes : List (EntityGeometry EntityRecord)) (document : ComObject)
    (documentId : String) (drawn : List Drawn), Documented world → (unitsOf code).2 = some factor →
      operationGeometry operation = .ok shapes →
      exec world (handle document documentId operation) tr = (tr', .ok drawn) →
      List.Forall₂ (fun d g => ∃ entity, d = Drawn.live entity ∧
        ReadsBack texts world tr' (scaleOf code) entity g) drawn shapes := by
  intro h
  have hline := h plainDocument plainTexts [] lineCalls 1 (254 / 10) lineOperation lineShapes .activeDocument "doc_"
    [.live (.entityObject 0)] plainDocument_documented rfl lineOperation_geometry lineOperation_draws
  have hstands := handle_draws plainDocument_documented lineOperation_geometry lineOperation_draws
  obtain ⟨⟨_, ⟨⟩, hg⟩, -⟩ := List.forall₂_cons.mp hstands
  obtain ⟨⟨_, ⟨⟩, hback⟩, -⟩ := List.forall₂_cons.mp hline
  rcases (readsBack_iff plainDocument_documented plainTexts hg (scaleOf 1)).mp hback with hscale | hzero
  · have hcode := (@scaleOf_eq_one_iff 1 (254 / 10) rfl).mp hscale
    exact absurd hcode (by decide)
  · have hten : (((10 : Int) : ℝ)) = 0 := hzero _ (by simp [lengths])
    norm_num at hten

/-! ## The records of a model -/

/-- A model holds what stands in the drawing, scaled by the unit that it names. -/
theorem inspectSemanticDrawing_scales (hworld : Documented world) {texts : Texts} {fuel : Nat}
    {request : SemanticReadRequest} {tr' : List ComEvent} {model : DrawingModel}
    (h : exec world (inspectSemanticDrawing texts fuel request) tr = (tr', .ok model)) :
    ∃ code : Int, model.toMmFactor = (unitsOf code).2.map (fun q : ℚ => (q : ℝ)) ∧
      ∀ record ∈ model.entities, ∃ entity, ∀ g, Stands tr entity g →
        SameGeometry record.geometry (scaledGeometry (scaleOf code) g) := by
  obtain ⟨run⟩ := inspectSemanticDrawing_eq_ok texts fuel h
  refine ⟨run.unitCode, congrArg DrawingModel.toMmFactor run.model_eq, ?_⟩
  intro record hrecord
  obtain ⟨tr₁, entity, hreads, hobserved⟩ := run.mem_entities texts fuel hrecord
  refine ⟨entity, ?_⟩
  intro g hg
  obtain ⟨_, ⟨⟩, hsame⟩ := (hg.reads hreads).observed_eq hworld hobserved
  exact hsame

end

end CadHarness.Com
