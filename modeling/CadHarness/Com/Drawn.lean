import CadHarness.Com.Lemmas.Calls
import CadHarness.Com.SemanticRead
import CadHarness.Lib.Fallible

/-!
# What is drawn, as it is read

What ActiveX documents of the entities that its methods create: the properties of such an entity are the
arguments it was made from, until it is changed.
-/

namespace CadHarness.Com
open CadHarness.Lib CadHarness.Drawing Prog


noncomputable section

/-- A call that may leave another geometry in an entity. -/
inductive Alters (entity : ComObject) : ComEvent → Prop
  | put {member value r} (hlayer : member ≠ "Layer") (hclosed : member ≠ "Closed") :
      Alters entity ⟨.put entity member value, r⟩
  | call {member arguments r} : Alters entity ⟨.call entity member arguments, r⟩
  | create {space member arguments} : Alters entity ⟨.create space member arguments, .ok entity⟩

/-- The entity was created by a method, and has its geometry since. -/
def DrawnBy (tr : List ComEvent) (entity : ComObject) (member : String) (arguments : List Variant) : Prop :=
  ∃ before space after, tr = before ++ ⟨.create space member arguments, .ok entity⟩ :: after ∧
    ∀ e ∈ after, ¬ Alters entity e

/-- `Closed` was set last to this. -/
def ClosedSince (tr : List ComEvent) (entity : ComObject) (closed : Bool) : Prop :=
  ∃ before after, tr = before ++ ⟨.put entity "Closed" (.bool closed), .ok ()⟩ :: after ∧
    ∀ e ∈ after, ∀ value, e.op ≠ .put entity "Closed" value

/-- The type of what a method creates. -/
def createdTypes : List (String × String) :=
  [("AddLine", "AcDbLine"), ("AddCircle", "AcDbCircle"), ("AddArc", "AcDbArc"),
    ("AddLightWeightPolyline", "AcDbPolyline")]

/-- The document answers as documented for the entities that are drawn in it. Angles are kept up to full turns. -/
structure Documented (world : World comSig) : Prop where
  fresh : ∀ {tr space member arguments entity}, world tr (.create space member arguments) = .ok entity →
    ∀ {space' member' arguments'}, ⟨.create space' member' arguments', .ok entity⟩ ∉ tr
  objectName : ∀ {tr entity member arguments name}, DrawnBy tr entity member arguments →
    createdTypes.lookup member = some name → world tr (.getText entity "ObjectName") = .ok name
  handle : ∀ {tr entity member arguments}, DrawnBy tr entity member arguments →
    ∃ handle, world tr (.getText entity "Handle") = .ok handle
  layer : ∀ {tr entity member arguments}, DrawnBy tr entity member arguments →
    ∃ layer, world tr (.getText entity "Layer") = .ok layer
  visible : ∀ {tr entity member arguments}, DrawnBy tr entity member arguments →
    ∃ visible, world tr (.getBool entity "Visible") = .ok visible
  startPoint : ∀ {tr entity p q}, DrawnBy tr entity "AddLine" [variantPoint3d p, variantPoint3d q] →
    world tr (.getPoint entity "StartPoint") = .ok p
  endPoint : ∀ {tr entity p q}, DrawnBy tr entity "AddLine" [variantPoint3d p, variantPoint3d q] →
    world tr (.getPoint entity "EndPoint") = .ok q
  circleCenter : ∀ {tr entity c r}, DrawnBy tr entity "AddCircle" [variantPoint3d c, .number r] →
    world tr (.getPoint entity "Center") = .ok c
  circleRadius : ∀ {tr entity c r}, DrawnBy tr entity "AddCircle" [variantPoint3d c, .number r] →
    world tr (.getNumber entity "Radius") = .ok r
  arcCenter : ∀ {tr entity c r a b},
    DrawnBy tr entity "AddArc" [variantPoint3d c, .number r, .number a, .number b] →
    world tr (.getPoint entity "Center") = .ok c
  arcRadius : ∀ {tr entity c r a b},
    DrawnBy tr entity "AddArc" [variantPoint3d c, .number r, .number a, .number b] →
    world tr (.getNumber entity "Radius") = .ok r
  startAngle : ∀ {tr entity c r a b},
    DrawnBy tr entity "AddArc" [variantPoint3d c, .number r, .number a, .number b] →
    ∃ turns : ℤ, world tr (.getNumber entity "StartAngle") = .ok (a + turns * (2 * Real.pi))
  endAngle : ∀ {tr entity c r a b},
    DrawnBy tr entity "AddArc" [variantPoint3d c, .number r, .number a, .number b] →
    ∃ turns : ℤ, world tr (.getNumber entity "EndAngle") = .ok (b + turns * (2 * Real.pi))
  coordinates : ∀ {tr entity flat}, DrawnBy tr entity "AddLightWeightPolyline" [.doubles flat] →
    world tr (.getNumbers entity "Coordinates") = .ok flat
  bulge : ∀ {tr entity flat} (index : Nat), DrawnBy tr entity "AddLightWeightPolyline" [.doubles flat] →
    world tr (.query entity "GetBulge" [.integer index]) = .ok 0
  closed : ∀ {tr entity flat closed}, DrawnBy tr entity "AddLightWeightPolyline" [.doubles flat] →
    ClosedSince tr entity closed → world tr (.getBool entity "Closed") = .ok closed

variable {tr : List ComEvent} {entity : ComObject} {member : String} {arguments : List Variant}

theorem DrawnBy.append (h : DrawnBy tr entity member arguments) {es : List ComEvent}
    (hes : ∀ e ∈ es, ¬ Alters entity e) : DrawnBy (tr ++ es) entity member arguments := by
  obtain ⟨before, space, after, rfl, hafter⟩ := h
  refine ⟨before, space, after ++ es, by simp, ?_⟩
  intro e he
  rcases List.mem_append.mp he with he | he
  · exact hafter e he
  · exact hes e he

theorem ClosedSince.append {closed : Bool} (h : ClosedSince tr entity closed) {es : List ComEvent}
    (hes : ∀ e ∈ es, ∀ value, e.op ≠ .put entity "Closed" value) : ClosedSince (tr ++ es) entity closed := by
  obtain ⟨before, after, rfl, hafter⟩ := h
  refine ⟨before, after ++ es, by simp, ?_⟩
  intro e he
  rcases List.mem_append.mp he with he | he
  · exact hafter e he
  · exact hes e he

/-- What reads does not alter. -/
theorem not_alters_of_reads {e : ComEvent} (h : e.op.writes = false) : ¬ Alters entity e := by
  intro halters
  cases halters <;> cases h

theorem not_put_of_reads {e : ComEvent} (h : e.op.writes = false) (value : Variant) :
    e.op ≠ .put entity "Closed" value := by
  intro hop
  rw [hop] at h
  cases h

theorem DrawnBy.reads {tr' : List ComEvent} (h : DrawnBy tr entity member arguments) (hreads : ReadsOn tr tr') :
    DrawnBy tr' entity member arguments := by
  obtain ⟨es, rfl, hes⟩ := hreads
  exact h.append (fun e he => not_alters_of_reads (hes e he))

theorem ClosedSince.reads {tr' : List ComEvent} {closed : Bool} (h : ClosedSince tr entity closed)
    (hreads : ReadsOn tr tr') : ClosedSince tr' entity closed := by
  obtain ⟨es, rfl, hes⟩ := hreads
  exact h.append (fun e he => not_put_of_reads (hes e he))

/-! ## The geometry of an operation -/

/-- The geometry of an operation in millimetres, an entity after the other. A polyline has two vertices at
least. -/
def operationGeometry (operation : Plan.Operation) :
    Except Geometry.KernelError (List (EntityGeometry EntityRecord)) :=
  match operation.type with
  | .createLine => do
      let start ← leadingPoint (← Catalog.entry operation.geometry "start_mm")
      let finish ← leadingPoint (← Catalog.entry operation.geometry "end_mm")
      return [.line start finish]
  | .createClosedPolyline => do
      let vertices ← elements (← Catalog.entry operation.geometry "vertices_mm")
      let points ← vertices.mapM leadingPoint
      if points.length < 2 then throw .valueError
      return [.polyline (points.map (fun p => { pointMm := p })) true]
  | .createCircle => do
      let center ← indexedPoint (← Catalog.entry operation.geometry "center_mm")
      let diameter ← Catalog.float (← Catalog.entry operation.geometry "diameter_mm")
      return [.circle center (diameter / 2)]
  | .createCircles => do
      let diameter ← Catalog.float (← Catalog.entry operation.geometry "diameter_mm")
      let centers ← elements (← Catalog.entry operation.geometry "centers_mm")
      return (← centers.mapM indexedPoint).map (fun center => .circle center (diameter / 2))
  | .createArc => do
      let center ← indexedPoint (← Catalog.entry operation.geometry "center_mm")
      let radius ← Catalog.float (← Catalog.entry operation.geometry "radius_mm")
      let startAngle ← Catalog.float (← Catalog.entry operation.geometry "start_angle_deg")
      let endAngle ← Catalog.float (← Catalog.entry operation.geometry "end_angle_deg")
      return [.arc center radius startAngle endAngle]
  | _ => throw .typeError

/-- The same geometry, with angles up to full turns. -/
inductive SameGeometry : EntityGeometry EntityRecord → EntityGeometry EntityRecord → Prop
  | line {p q} : SameGeometry (.line p q) (.line p q)
  | circle {c r} : SameGeometry (.circle c r) (.circle c r)
  | arc {c r a b} (m n : ℤ) : SameGeometry (.arc c r (a + m * 360) (b + n * 360)) (.arc c r a b)
  | polyline {vertices closed} : SameGeometry (.polyline vertices closed) (.polyline vertices closed)

/-- The geometry with its lengths scaled. -/
def scaledGeometry (k : ℝ) : EntityGeometry EntityRecord → EntityGeometry EntityRecord
  | .line p q => .line (scaledPoint p k) (scaledPoint q k)
  | .circle c r => .circle (scaledPoint c k) (r * k)
  | .arc c r a b => .arc (scaledPoint c k) (r * k) a b
  | .polyline vertices closed => .polyline (vertices.map (fun v => { v with pointMm := scaledPoint v.pointMm k })) closed
  | g => g

/-! ## What the handlers draw -/

/-- An entity of the drawing, with its geometry in the units of the drawing. -/
inductive Stands (tr : List ComEvent) (entity : ComObject) : EntityGeometry EntityRecord → Prop
  | line {p q} (h : DrawnBy tr entity "AddLine" [variantPoint3d p, variantPoint3d q]) :
      Stands tr entity (.line p q)
  | circle {c r} (h : DrawnBy tr entity "AddCircle" [variantPoint3d c, .number r]) :
      Stands tr entity (.circle c r)
  | arc {c r a b} (h : DrawnBy tr entity "AddArc"
      [variantPoint3d c, .number r, .number (Geometry.radians a), .number (Geometry.radians b)]) :
      Stands tr entity (.arc c r a b)
  | polyline {points : List Point} {closed}
      (h : DrawnBy tr entity "AddLightWeightPolyline" [.doubles (points.flatMap (fun p => [p.1, p.2]))])
      (hclosed : ClosedSince tr entity closed) (hlength : 2 ≤ points.length) :
      Stands tr entity (.polyline (points.map (fun p => { pointMm := p })) closed)

theorem Stands.append {g : EntityGeometry EntityRecord} (h : Stands tr entity g) {es : List ComEvent}
    (hes : ∀ e ∈ es, ¬ Alters entity e) (hclosed : ∀ e ∈ es, ∀ value, e.op ≠ .put entity "Closed" value) :
    Stands (tr ++ es) entity g := by
  cases h with
  | line h => exact .line (h.append hes)
  | circle h => exact .circle (h.append hes)
  | arc h => exact .arc (h.append hes)
  | polyline h hsince hlength => exact .polyline (h.append hes) (hsince.append hclosed) hlength

theorem Stands.reads {g : EntityGeometry EntityRecord} {tr' : List ComEvent} (h : Stands tr entity g)
    (hreads : ReadsOn tr tr') : Stands tr' entity g := by
  obtain ⟨es, rfl, hes⟩ := hreads
  apply h.append
  · intro e he
    exact not_alters_of_reads (hes e he)
  · intro e he
    exact not_put_of_reads (hes e he)

theorem Stands.drawnBy {g : EntityGeometry EntityRecord} (h : Stands tr entity g) :
    ∃ member arguments, DrawnBy tr entity member arguments := by
  cases h with
  | line h => exact ⟨_, _, h⟩
  | circle h => exact ⟨_, _, h⟩
  | arc h => exact ⟨_, _, h⟩
  | polyline h => exact ⟨_, _, h⟩

/-- What stands was created by a call of the trace. -/
theorem Stands.created {g : EntityGeometry EntityRecord} (h : Stands tr entity g) :
    ∃ space member arguments, ⟨.create space member arguments, .ok entity⟩ ∈ tr := by
  obtain ⟨member, arguments, before, space, after, rfl, -⟩ := h.drawnBy
  exact ⟨space, member, arguments, by simp⟩

variable {world : World comSig}

theorem exec_field_bind {α β : Type} {operation : Plan.Operation} {key : String}
    {convert : Plan.Value → Except Geometry.KernelError α} {f : α → ComM β} {value : Plan.Value} {a : α}
    (hentry : Catalog.entry operation.geometry key = .ok value) (hconvert : convert value = .ok a) :
    exec world (field operation key convert >>= f) tr = exec world (f a) tr := by
  have h : (Catalog.entry operation.geometry key >>= convert) = .ok a := by
    rw [hentry]
    exact hconvert
  unfold field
  rw [h]
  rfl

/-- The calls that make an entity in model space and put it on its layer. -/
theorem invoke_onLayer_trace {document : ComObject} {operation : Plan.Operation} {tr' : List ComEvent}
    {entities : List ComObject}
    (h : exec world (invokeModelSpace document member arguments >>= onLayer operation) tr = (tr', .ok entities)) :
    ∃ space entity, entities = [entity] ∧
      world (tr ++ [⟨.getObject document "ModelSpace", .ok space⟩]) (.create space member arguments) = .ok entity ∧
      tr' = tr ++ [⟨.getObject document "ModelSpace", .ok space⟩, ⟨.create space member arguments, .ok entity⟩,
        ⟨.put entity "Layer" (.text operation.layer), .ok ()⟩] := by
  obtain ⟨_, entity, hinvoke, hlayer⟩ := exec_bind_eq_ok.mp h
  obtain ⟨_, space, hspace, hcreate⟩ := exec_bind_eq_ok.mp hinvoke
  obtain ⟨_, _, hput, hreturn⟩ := exec_bind_eq_ok.mp hlayer
  obtain ⟨-, rfl⟩ := exec_com_eq_ok.mp hspace
  obtain ⟨hentity, rfl⟩ := exec_com_eq_ok.mp hcreate
  obtain ⟨-, rfl⟩ := exec_com_eq_ok.mp hput
  cases hreturn
  exact ⟨space, entity, rfl, hentity, by simp⟩

theorem not_alters_layer {other : ComObject} {layer : Variant} {r : Except Stop Unit} :
    ¬ Alters entity ⟨.put other "Layer" layer, r⟩ := by
  intro halters
  cases halters with
  | put hlayer => exact hlayer rfl

/-- It stands as it was made. -/
theorem invoke_onLayer {document : ComObject} {operation : Plan.Operation} {tr' : List ComEvent}
    {entities : List ComObject}
    (h : exec world (invokeModelSpace document member arguments >>= onLayer operation) tr = (tr', .ok entities)) :
    ∃ entity, entities = [entity] ∧ DrawnBy tr' entity member arguments := by
  obtain ⟨space, entity, rfl, -, rfl⟩ := invoke_onLayer_trace h
  refine ⟨entity, rfl, tr ++ [⟨.getObject document "ModelSpace", .ok space⟩], space,
    [⟨.put entity "Layer" (.text operation.layer), .ok ()⟩], by simp, ?_⟩
  intro e he
  rw [List.mem_singleton.mp he]
  exact not_alters_layer

section

variable {document : ComObject} {operation : Plan.Operation} {tr' : List ComEvent} {entities : List ComObject}
  {shapes : List (EntityGeometry EntityRecord)}

theorem createLine_draws (htype : operation.type = .createLine)
    (hshapes : operationGeometry operation = .ok shapes)
    (h : exec world (createLine document operation) tr = (tr', .ok entities)) :
    List.Forall₂ (Stands tr') entities shapes := by
  simp only [operationGeometry, htype, Fallible.bind_eq_ok, Fallible.pure_eq_ok] at hshapes
  obtain ⟨_, hstart, p, hp, _, hend, q, hq, rfl⟩ := hshapes
  unfold createLine at h
  rw [exec_field_bind hstart hp, exec_field_bind hend hq] at h
  obtain ⟨entity, rfl, hdrawn⟩ := invoke_onLayer h
  exact .cons (.line hdrawn) .nil

theorem createCircle_draws (htype : operation.type = .createCircle)
    (hshapes : operationGeometry operation = .ok shapes)
    (h : exec world (createCircle document operation) tr = (tr', .ok entities)) :
    List.Forall₂ (Stands tr') entities shapes := by
  simp only [operationGeometry, htype, Fallible.bind_eq_ok, Fallible.pure_eq_ok] at hshapes
  obtain ⟨_, hcenter, c, hc, _, hdiameter, d, hd, rfl⟩ := hshapes
  unfold createCircle at h
  rw [exec_field_bind hcenter hc, exec_field_bind hdiameter hd] at h
  obtain ⟨entity, rfl, hdrawn⟩ := invoke_onLayer h
  exact .cons (.circle hdrawn) .nil

theorem createArc_draws (htype : operation.type = .createArc)
    (hshapes : operationGeometry operation = .ok shapes)
    (h : exec world (createArc document operation) tr = (tr', .ok entities)) :
    List.Forall₂ (Stands tr') entities shapes := by
  simp only [operationGeometry, htype, Fallible.bind_eq_ok, Fallible.pure_eq_ok] at hshapes
  obtain ⟨_, hcenter, c, hc, _, hradius, r, hr, _, hstart, a, ha, _, hend, b, hb, rfl⟩ := hshapes
  unfold createArc at h
  rw [exec_field_bind hcenter hc, exec_field_bind hradius hr, exec_field_bind hstart ha,
    exec_field_bind hend hb] at h
  obtain ⟨entity, rfl, hdrawn⟩ := invoke_onLayer h
  exact .cons (.arc hdrawn) .nil

/-- The first two floats of a vertex are the coordinates of its point. -/
theorem leadingFloats_of_leadingPoint {value : Plan.Value} {p : Point} (h : leadingPoint value = .ok p) :
    leadingFloats value = .ok [p.1, p.2] := by
  unfold leadingPoint at h
  obtain ⟨xs, hxs, hp⟩ := Fallible.bind_eq_ok.mp h
  rw [hxs]
  match xs with
  | [x, y] =>
      cases hp
      rfl
  | [] => cases hp
  | [_] => cases hp
  | _ :: _ :: _ :: _ => cases hp

theorem leadingFloats_flatten {vertices : List Plan.Value} {points : List Point}
    (h : vertices.mapM leadingPoint = .ok points) :
    (do return (← vertices.mapM leadingFloats).flatten : Except Geometry.KernelError (List ℝ)) =
      .ok (points.flatMap (fun p => [p.1, p.2])) := by
  have hpoints := Fallible.mapM_eq_ok.mp h
  have hfloats : vertices.mapM leadingFloats = .ok (points.map (fun p => [p.1, p.2])) := by
    rw [Fallible.mapM_eq_ok, List.forall₂_map_right_iff]
    apply hpoints.imp
    intro value p hp
    exact leadingFloats_of_leadingPoint hp
  rw [hfloats]
  rfl

theorem createClosedPolyline_draws (htype : operation.type = .createClosedPolyline)
    (hshapes : operationGeometry operation = .ok shapes)
    (h : exec world (createClosedPolyline document operation) tr = (tr', .ok entities)) :
    List.Forall₂ (Stands tr') entities shapes := by
  simp only [operationGeometry, htype, Fallible.bind_eq_ok] at hshapes
  obtain ⟨value, hvalue, vertices, hvertices, points, hpoints, hshapes⟩ := hshapes
  obtain ⟨hlength, hshapes⟩ := Fallible.guard_eq_ok.mp hshapes
  cases hshapes
  have hflat : (do return (← (← elements value).mapM leadingFloats).flatten : Except _ (List ℝ)) =
      .ok (points.flatMap (fun p => [p.1, p.2])) := by
    rw [hvertices]
    exact leadingFloats_flatten hpoints
  unfold createClosedPolyline createPolyline at h
  obtain ⟨tr₁, entities₁, hdraw, hclose⟩ := exec_bind_eq_ok.mp h
  rw [exec_field_bind hvalue hflat] at hdraw
  obtain ⟨entity, rfl, hdrawn⟩ := invoke_onLayer hdraw
  obtain ⟨_, _, hput, hreturn⟩ := exec_bind_eq_ok.mp hclose
  obtain ⟨-, rfl⟩ := exec_com_eq_ok.mp hput
  cases hreturn
  refine .cons (.polyline (hdrawn.append ?_) ?_ (by omega)) .nil
  · intro e he
    rw [List.mem_singleton.mp he]
    intro halters
    cases halters with
    | put hlayer hclosed => exact hclosed rfl
  · exact ⟨tr₁, [], rfl, by simp⟩

/-- What stands is still there when another entity is made. -/
theorem Stands.invoke_onLayer (hworld : Documented world) {g : EntityGeometry EntityRecord} {entity : ComObject}
    (h : Stands tr entity g)
    (hdraw : exec world (invokeModelSpace document member arguments >>= onLayer operation) tr =
      (tr', .ok entities)) : Stands tr' entity g := by
  obtain ⟨space, other, rfl, hother, rfl⟩ := invoke_onLayer_trace hdraw
  obtain ⟨space', member', arguments', hcreated⟩ := h.created
  have hne : other ≠ entity := by
    rintro rfl
    exact hworld.fresh hother (List.mem_append_left _ hcreated)
  apply h.append
  · intro e he halters
    simp only [List.mem_cons, List.not_mem_nil, or_false] at he
    rcases he with rfl | rfl | rfl
    · cases halters
    · cases halters with
      | create => exact hne rfl
    · exact not_alters_layer halters
  · intro e he value hop
    simp only [List.mem_cons, List.not_mem_nil, or_false] at he
    rcases he with rfl | rfl | rfl
    · cases hop
    · cases hop
    · simp at hop

theorem addCircles_draws (hworld : Documented world) {radius : ℝ} {centers : List Plan.Value}
    {points : List Point} (hpoints : List.Forall₂ (fun center point => indexedPoint center = .ok point) centers points)
    (h : exec world (addCircles document operation radius centers) tr = (tr', .ok entities)) :
    List.Forall₂ (Stands tr') entities (points.map (fun center => .circle center radius)) ∧
      ∀ entity g, Stands tr entity g → Stands tr' entity g := by
  induction hpoints generalizing tr entities with
  | nil =>
      cases h
      exact ⟨.nil, fun _ _ hstands => hstands⟩
  | @cons center point centers points hcenter hpoints ih =>
      obtain ⟨tr₀, _, hpoint, h⟩ := exec_bind_eq_ok.mp h
      rw [hcenter] at hpoint
      cases hpoint
      obtain ⟨tr₁, entity, hinvoke, h⟩ := exec_bind_eq_ok.mp h
      obtain ⟨tr₂, _, hput, h⟩ := exec_bind_eq_ok.mp h
      obtain ⟨tr₃, rest, hrest, hreturn⟩ := exec_bind_eq_ok.mp h
      cases hreturn
      have hdraw : exec world (invokeModelSpace document "AddCircle" [variantPoint3d point, .number radius] >>=
          onLayer operation) tr = (tr₂, .ok [entity]) := by
        refine exec_bind_eq_ok.mpr ⟨tr₁, entity, hinvoke, ?_⟩
        exact exec_bind_eq_ok.mpr ⟨tr₂, _, hput, rfl⟩
      obtain ⟨hstands, hkept⟩ := ih hrest
      constructor
      · obtain ⟨_, ⟨⟩, hdrawn⟩ := invoke_onLayer hdraw
        exact .cons (hkept entity _ (.circle hdrawn)) hstands
      · intro other g hother
        exact hkept other g (hother.invoke_onLayer hworld hdraw)

theorem createCircles_draws (hworld : Documented world) (htype : operation.type = .createCircles)
    (hshapes : operationGeometry operation = .ok shapes)
    (h : exec world (createCircles document operation) tr = (tr', .ok entities)) :
    List.Forall₂ (Stands tr') entities shapes := by
  simp only [operationGeometry, htype, Fallible.bind_eq_ok, Fallible.pure_eq_ok] at hshapes
  obtain ⟨_, hdiameter, d, hd, _, hcenters, centers, hc, points, hpoints, rfl⟩ := hshapes
  unfold createCircles at h
  rw [exec_field_bind hdiameter hd, exec_field_bind hcenters hc] at h
  exact (addCircles_draws hworld (Fallible.mapM_eq_ok.mp hpoints) h).1

/-- Each of the five operations draws its geometry, in the units of the drawing. -/
theorem handle_draws (hworld : Documented world) {documentId : String} {drawn : List Drawn}
    (hshapes : operationGeometry operation = .ok shapes)
    (h : exec world (handle document documentId operation) tr = (tr', .ok drawn)) :
    List.Forall₂ (fun d g => ∃ entity, d = .live entity ∧ Stands tr' entity g) drawn shapes := by
  have hlive {entities : List ComObject} (hstands : List.Forall₂ (Stands tr') entities shapes) :
      List.Forall₂ (fun d g => ∃ entity, d = .live entity ∧ Stands tr' entity g) (entities.map Drawn.live) shapes := by
    rw [List.forall₂_map_left_iff]
    apply hstands.imp
    intro entity g hg
    exact ⟨entity, rfl, hg⟩
  unfold handle at h
  cases htype : operation.type with
  | createLine =>
      simp only [htype] at h
      obtain ⟨entities, hdraw, rfl⟩ := exec_map_eq_ok.mp h
      exact hlive (createLine_draws htype hshapes hdraw)
  | createClosedPolyline =>
      simp only [htype] at h
      obtain ⟨entities, hdraw, rfl⟩ := exec_map_eq_ok.mp h
      exact hlive (createClosedPolyline_draws htype hshapes hdraw)
  | createCircle =>
      simp only [htype] at h
      obtain ⟨entities, hdraw, rfl⟩ := exec_map_eq_ok.mp h
      exact hlive (createCircle_draws htype hshapes hdraw)
  | createCircles =>
      simp only [htype] at h
      obtain ⟨entities, hdraw, rfl⟩ := exec_map_eq_ok.mp h
      exact hlive (createCircles_draws hworld htype hshapes hdraw)
  | createArc =>
      simp only [htype] at h
      obtain ⟨entities, hdraw, rfl⟩ := exec_map_eq_ok.mp h
      exact hlive (createArc_draws htype hshapes hdraw)
  | _ => simp [operationGeometry, htype] at hshapes

end

/-! ## A document that nobody edits -/

/-- The entities that calls have created, with the methods and the arguments. -/
def creations (tr : List ComEvent) : List (ComObject × String × List Variant) :=
  tr.filterMap (fun e => match e with
    | ⟨.create _ member arguments, .ok entity⟩ => some (entity, member, arguments)
    | _ => none)

def closings (tr : List ComEvent) : List (ComObject × Bool) :=
  tr.filterMap (fun e => match e with
    | ⟨.put entity "Closed" (.bool closed), .ok ()⟩ => some (entity, closed)
    | _ => none)

/-- What an entity was made from. -/
def creationOf (tr : List ComEvent) (entity : ComObject) : Option (String × List Variant) :=
  (creations tr).reverse.lookup entity

def argumentOf (tr : List ComEvent) (entity : ComObject) (i : Nat) : Option Variant :=
  creationOf tr entity >>= fun c => c.2[i]?

def pointOf : Option Variant → Except Stop Point
  | some (.doubles (x :: y :: _)) => .ok (x, y)
  | _ => .error (.raised comError)

def numberOf : Option Variant → Except Stop ℝ
  | some (.number x) => .ok x
  | _ => .error (.raised comError)

def numbersOf : Option Variant → Except Stop (List ℝ)
  | some (.doubles xs) => .ok xs
  | _ => .error (.raised comError)

def objectNumber : ComObject → Nat
  | .entityObject n => n
  | _ => 0

/-- A number above those of the entities so far. -/
def nextNumber (tr : List ComEvent) : Nat :=
  (creations tr).foldr (fun c n => max n (objectNumber c.1 + 1)) 0

/-- A document in which entities are made and read, and nothing else happens. -/
def plainDocument : World comSig := fun tr o =>
  match o with
  | .create _ _ _ => .ok (.entityObject (nextNumber tr))
  | .getText entity member =>
      if member = "ObjectName" then
        match creationOf tr entity with
        | some (method, _) => .ok ((createdTypes.lookup method).getD "AcDbEntity")
        | none => .error (.raised comError)
      else .ok ""
  | .getPoint entity member => pointOf (argumentOf tr entity (if member = "EndPoint" then 1 else 0))
  | .getNumber entity member =>
      numberOf (argumentOf tr entity (if member = "StartAngle" then 2 else if member = "EndAngle" then 3 else 1))
  | .getNumbers entity _ => numbersOf (argumentOf tr entity 0)
  | .getBool entity member =>
      if member = "Closed" then .ok (((closings tr).reverse.lookup entity).getD false) else .ok true
  | .getInteger _ _ => .ok 0
  | .isQuiescent => .ok true
  | .getVariable _ => .ok 1
  | .query _ _ _ => .ok 0
  | .getObject _ _ | .handleToObject _ => .ok .spaceObject
  | .next _ _ => .ok none
  | .startUndoMark | .endUndoMark | .put _ _ _ | .call _ _ _ | .checkpoint => .ok ()
  | .entityMappingsFor _ => .ok []

/-- The last entry for a key is found first in the reversed list. -/
theorem lookup_reverse_last {α : Type} {before after : List (ComObject × α)} {entity : ComObject} {a : α}
    (h : ∀ c ∈ after, c.1 ≠ entity) : (before ++ (entity, a) :: after).reverse.lookup entity = some a := by
  have hnone : after.reverse.lookup entity = none := by
    rw [List.lookup_eq_none_iff]
    intro c hc
    simpa using (h c (List.mem_reverse.mp hc)).symm
  simp [List.lookup_append, hnone]

theorem creationOf_drawnBy {tr : List ComEvent} {entity : ComObject} {member : String} {arguments : List Variant}
    (h : DrawnBy tr entity member arguments) : creationOf tr entity = some (member, arguments) := by
  obtain ⟨before, space, after, rfl, hafter⟩ := h
  unfold creationOf creations
  rw [List.filterMap_append, List.filterMap_cons]
  apply lookup_reverse_last
  rintro ⟨other, c⟩ hc rfl
  obtain ⟨e, he, hmade⟩ := List.mem_filterMap.mp hc
  apply hafter e he
  split at hmade
  · cases hmade
    exact .create
  · cases hmade

theorem closings_closedSince {tr : List ComEvent} {entity : ComObject} {closed : Bool}
    (h : ClosedSince tr entity closed) : (closings tr).reverse.lookup entity = some closed := by
  obtain ⟨before, after, rfl, hafter⟩ := h
  unfold closings
  rw [List.filterMap_append, List.filterMap_cons]
  apply lookup_reverse_last
  rintro ⟨other, c⟩ hc rfl
  obtain ⟨e, he, hput⟩ := List.mem_filterMap.mp hc
  split at hput
  · cases hput
    exact hafter _ he _ rfl
  · cases hput

theorem objectNumber_lt_nextNumber {tr : List ComEvent} {c : ComObject × String × List Variant}
    (hc : c ∈ creations tr) : objectNumber c.1 < nextNumber tr := by
  unfold nextNumber
  generalize creations tr = l at hc ⊢
  induction l with
  | nil => cases hc
  | cons d l ih =>
      rw [List.foldr_cons]
      rcases List.mem_cons.mp hc with rfl | hc
      · omega
      · have := ih hc
        omega

theorem plainDocument_documented : Documented plainDocument where
  fresh := by
    intro tr space member arguments entity h space' member' arguments' hmem
    cases h
    have hc : (.entityObject (nextNumber tr), member', arguments') ∈ creations tr :=
      List.mem_filterMap.mpr ⟨_, hmem, rfl⟩
    exact absurd (objectNumber_lt_nextNumber hc) (Nat.lt_irrefl _)
  objectName := by
    intro tr entity member arguments name h hname
    simp [plainDocument, creationOf_drawnBy h, hname]
  handle h := ⟨_, rfl⟩
  layer h := ⟨_, rfl⟩
  visible h := ⟨_, rfl⟩
  startPoint h := by simp [plainDocument, argumentOf, creationOf_drawnBy h, variantPoint3d, pointOf]
  endPoint h := by simp [plainDocument, argumentOf, creationOf_drawnBy h, variantPoint3d, pointOf]
  circleCenter h := by simp [plainDocument, argumentOf, creationOf_drawnBy h, variantPoint3d, pointOf]
  circleRadius h := by simp [plainDocument, argumentOf, creationOf_drawnBy h, numberOf]
  arcCenter h := by simp [plainDocument, argumentOf, creationOf_drawnBy h, variantPoint3d, pointOf]
  arcRadius h := by simp [plainDocument, argumentOf, creationOf_drawnBy h, numberOf]
  startAngle h := ⟨0, by simp [plainDocument, argumentOf, creationOf_drawnBy h, numberOf]⟩
  endAngle h := ⟨0, by simp [plainDocument, argumentOf, creationOf_drawnBy h, numberOf]⟩
  coordinates h := by simp [plainDocument, argumentOf, creationOf_drawnBy h, numbersOf]
  bulge index h := rfl
  closed h hclosed := by simp [plainDocument, closings_closedSince hclosed]

end

end CadHarness.Com
