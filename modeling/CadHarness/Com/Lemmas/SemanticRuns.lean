import CadHarness.Com.Lemmas.Calls
import CadHarness.Com.SemanticRead

/-!
# Runs of a semantic read

The parts of a semantic read that returns a model, one after the other, and where its records come from.
-/

namespace CadHarness.Com
open CadHarness.Lib CadHarness.Domain CadHarness.Drawing Prog

noncomputable section

variable {world : World comSig} {tr tr' : List ComEvent} (texts : Texts) (fuel : Nat)

/-! ## The calls of the parts -/

theorem inspectLayer_reads (layer : ComObject) : OnlyReads (inspectLayer layer) := by
  apply (OnlyReads.com rfl).bind
  intro name
  apply (OnlyReads.com rfl).bind
  intro color
  apply (OnlyReads.com rfl).bind
  intro linetype
  apply (OnlyReads.com rfl).bind
  intro lineweight
  apply (OnlyReads.com rfl).bind
  intro frozen
  apply (OnlyReads.com rfl).bind
  intro layerOn
  apply (OnlyReads.com rfl).bind
  intro locked
  exact OnlyReads.pure _

theorem styleNames_reads (document : ComObject) (member : String) : OnlyReads (styleNames fuel document member) := by
  apply (OnlyReads.com rfl).bind
  intro styles
  apply OnlyReads.forEach
  intro style
  exact OnlyReads.com rfl

theorem inspectConnected_reads (document : ComObject) : OnlyReads (inspectConnected texts fuel document) := by
  apply (OnlyReads.com rfl).bind
  intro layerCollection
  apply (OnlyReads.forEach inspectLayer_reads fuel none).bind
  intro layers
  apply (styleNames_reads fuel document "DimStyles").bind
  intro dimensionStyles
  apply (styleNames_reads fuel document "TextStyles").bind
  intro textStyles
  apply (OnlyReads.com rfl).bind
  intro insunits
  apply (OnlyReads.com rfl).bind
  intro modelSpace
  apply (OnlyReads.com rfl).bind
  intro entityCount
  apply (documentId_reads texts document).bind
  intro id
  apply (computeRevision_reads texts fuel document id).bind
  intro revision
  apply (OnlyReads.com rfl).bind
  intro hashedName
  apply (OnlyReads.com rfl).bind
  intro displayName
  apply (OnlyReads.com rfl).bind
  intro activeSpace
  apply (OnlyReads.com rfl).bind
  intro readOnly
  exact OnlyReads.pure _

theorem inspectDocument_reads : OnlyReads (inspectDocument texts fuel) := by
  apply requireDocument_reads.bind
  intro document
  apply (inspectConnected_reads texts fuel document).attempt.bind
  intro outcome
  cases outcome with
  | ok snapshot => exact OnlyReads.pure _
  | error e => exact (OnlyReads.raise _).ite (OnlyReads.raise _)

/-- The object that is read, where it may be the entity; the check of the deadline is nobody's. -/
def subject (entity : ComObject) : ComOp → Option ComObject
  | .getText target _ | .getBool target _ | .getNumber target _ | .getPoint target _ | .getNumbers target _
  | .query target _ _ => some target
  | .checkpoint => some entity
  | _ => none

/-- A call about an entity, or the check of the deadline. -/
def AsksOf (entity : ComObject) (o : ComOp) : Prop := subject entity o = some entity

theorem AsksOf.reads {entity : ComObject} {o : ComOp} (h : AsksOf entity o) : o.writes = false := by
  cases o with
  | put target member value => cases h
  | create target member arguments => cases h
  | call target member arguments => cases h
  | _ => rfl

/-- A program that only asks about an entity. -/
def Asks (entity : ComObject) {α : Type} (m : ComM α) : Prop := PerformsOnly (AsksOf entity) m

namespace Asks

variable {α β : Type} {entity : ComObject}

theorem pure (a : α) : Asks entity (pure a) := performsOnly_pure

theorem com {o : ComOp} (h : subject entity o = some entity) : Asks entity (com o) := performsOnly_com h

theorem bind {m : ComM α} {f : α → ComM β} (hm : Asks entity m) (hf : ∀ a, Asks entity (f a)) :
    Asks entity (m >>= f) :=
  PerformsOnly.bind hm hf

theorem ite {p : Prop} [Decidable p] {m n : ComM α} (hm : Asks entity m) (hn : Asks entity n) :
    Asks entity (if p then m else n) :=
  PerformsOnly.ite hm hn

theorem suppress {m : ComM α} (hm : Asks entity m) : Asks entity (suppress m) := performsOnly_suppress hm

theorem reads {m : ComM α} (hm : Asks entity m) : OnlyReads m := hm.mono (fun _ => AsksOf.reads)

end Asks

open Classical in
theorem readVertices_asks (entity : ComObject) (index : Nat) (points : List Point) :
    Asks entity (readVertices entity index points) := by
  induction points generalizing index with
  | nil => exact Asks.pure _
  | cons p points ih =>
      apply (Asks.com rfl).bind
      intro bulge
      apply Asks.ite
      · exact Asks.pure _
      · apply (ih (index + 1)).bind
        intro vertices
        cases vertices with
        | none => exact Asks.pure _
        | some vertices => exact Asks.pure _

theorem semanticGeometry_asks (entity : ComObject) (entityType : String) (scale : ℝ) :
    Asks entity (semanticGeometry entity entityType scale) := by
  apply Asks.ite
  · apply (Asks.com rfl).bind
    intro start
    apply (Asks.com rfl).bind
    intro finish
    exact Asks.pure _
  apply Asks.ite
  · apply (Asks.com rfl).bind
    intro center
    apply (Asks.com rfl).bind
    intro radius
    exact Asks.pure _
  apply Asks.ite
  · apply (Asks.com rfl).bind
    intro center
    apply (Asks.com rfl).bind
    intro radius
    apply (Asks.com rfl).bind
    intro startAngle
    apply (Asks.com rfl).bind
    intro endAngle
    exact Asks.pure _
  · apply (Asks.com rfl).bind
    intro coordinates
    apply (Asks.pure _).ite
    cases scaledPairs scale coordinates with
    | nil => exact Asks.pure _
    | cons p points =>
        apply (readVertices_asks entity 0 (p :: points)).bind
        intro vertices
        cases vertices with
        | none => exact Asks.pure _
        | some vertices => exact (Asks.com rfl).bind (fun closed => Asks.pure _)

theorem checkpoint_reads (deadline : Bool) : OnlyReads (checkpoint deadline) := by
  cases deadline with
  | false => exact OnlyReads.pure ()
  | true => exact OnlyReads.com rfl

theorem comEntityType_asks (entity : ComObject) : Asks entity (comEntityType entity) := by
  apply (Asks.com rfl).suppress.bind
  intro objectName
  apply (Asks.pure _).ite
  apply (Asks.com rfl).suppress.bind
  intro entityName
  exact (Asks.pure _).ite (Asks.pure _)

theorem semanticEntityRecord_asks (entity : ComObject) (entityType : String) (scale : ℝ) :
    Asks entity (semanticEntityRecord texts entity entityType scale) := by
  apply (semanticGeometry_asks entity entityType scale).bind
  intro read
  cases read with
  | none => exact Asks.pure _
  | some read =>
      obtain ⟨geometry, bounds⟩ := read
      apply (Asks.com rfl).bind
      intro handle
      apply (Asks.com rfl).bind
      intro layer
      apply (Asks.com rfl).bind
      intro visible
      exact Asks.pure _

theorem observeEntity_asks (deadline : Bool) (scale : ℝ) (entity : ComObject) :
    Asks entity (observeEntity texts deadline scale entity) := by
  apply Asks.bind
  · cases deadline with
    | false => exact Asks.pure _
    | true => exact Asks.com rfl
  intro u
  apply (comEntityType_asks entity).bind
  intro entityType
  apply (Asks.pure _).ite
  apply (semanticEntityRecord_asks texts entity entityType scale).bind
  intro read
  cases read with
  | none => exact Asks.pure _
  | some record => exact Asks.pure _

theorem observeEntity_reads (deadline : Bool) (scale : ℝ) (entity : ComObject) :
    OnlyReads (observeEntity texts deadline scale entity) :=
  (observeEntity_asks texts deadline scale entity).reads

/-! ## The run -/

/-- The elements of an enumeration are results of its body, of calls further on. -/
theorem exec_forEach_mem {α : Type} {collection : ComObject} {body : ComObject → ComM α}
    (hbody : ∀ object, OnlyReads (body object)) {fuel : Nat} {previous : Option ComObject} {results : List α}
    (h : exec world (forEach collection body fuel previous) tr = (tr', .ok results)) :
    ∀ a ∈ results, ∃ tr₁ object, ReadsOn tr tr₁ ∧ (exec world (body object) tr₁).2 = .ok a := by
  induction fuel generalizing tr previous results with
  | zero => cases h
  | succ fuel ih =>
      obtain ⟨tr₁, next, hnext, h⟩ := exec_bind_eq_ok.mp h
      obtain ⟨-, rfl⟩ := exec_com_eq_ok.mp hnext
      cases next with
      | none =>
          cases h
          simp
      | some object =>
          obtain ⟨tr₂, a, ha, h⟩ := exec_bind_eq_ok.mp h
          obtain ⟨tr₃, rest, hrest, hreturn⟩ := exec_bind_eq_ok.mp h
          cases hreturn
          intro b hb
          rcases List.mem_cons.mp hb with rfl | hb
          · exact ⟨_, object, ReadsOn.call rfl, by rw [ha]⟩
          · obtain ⟨tr₄, other, hreads, hrun⟩ := ih hrest b hb
            exact ⟨tr₄, other, ((ReadsOn.call rfl).trans ((hbody object).readsOn ha)).trans hreads, hrun⟩

/-- A semantic read that returned, part by part. -/
structure SemanticRun (world : World comSig) (request : SemanticReadRequest) (tr tr' : List ComEvent)
    (model : DrawingModel) where
  scope : ReadScope
  id : String
  before : DocumentSnapshot
  after : DocumentSnapshot
  unitCode : Int
  observed : List Observed
  /-- the trace after the document was found, after its identity and at the first inspection -/
  connected : List ComEvent
  identified : List ComEvent
  opened : List ComEvent
  /-- the trace after the first inspection, after the model space and at the second inspection -/
  inspected : List ComEvent
  read : List ComEvent
  again : List ComEvent
  scope_eq : request.scope = some scope
  kind_eq : scope.kind = .modelSpace
  connected_run : exec world requireDocument tr = (connected, .ok .activeDocument)
  id_run : exec world (documentId texts .activeDocument) connected = (identified, .ok id)
  id_eq : id = request.sourceRef
  opened_run : exec world (checkpoint request.deadline) identified = (opened, .ok ())
  before_run : exec world (inspectDocument texts fuel) opened = (inspected, .ok before)
  unit_run : world inspected (.getVariable "INSUNITS") = .ok unitCode
  read_run : exec world (readModelSpace texts fuel request .activeDocument (scaleOf unitCode))
    (inspected ++ [⟨.getVariable "INSUNITS", .ok unitCode⟩]) = (read, .ok observed)
  again_run : exec world (checkpoint request.deadline) read = (again, .ok ())
  after_run : exec world (inspectDocument texts fuel) again = (tr', .ok after)
  same_revision : before.revision = after.revision
  model_eq : model = modelOf scope id unitCode after observed

theorem requireDocument_eq_ok {document : ComObject} (h : exec world requireDocument tr = (tr', .ok document)) :
    document = .activeDocument := by
  obtain ⟨_, _, -, hreturn⟩ := exec_bind_eq_ok.mp h
  cases hreturn
  rfl

theorem inspectSemanticDrawing_eq_ok {request : SemanticReadRequest} {model : DrawingModel}
    (h : exec world (inspectSemanticDrawing texts fuel request) tr = (tr', .ok model)) :
    Nonempty (SemanticRun texts fuel world request tr tr' model) := by
  unfold inspectSemanticDrawing at h
  cases hscope : request.scope with
  | none =>
      rw [hscope] at h
      cases h
  | some scope =>
      rw [hscope] at h
      dsimp only at h
      split at h
      · cases h
      obtain ⟨tr₁, document, hdocument, h⟩ := exec_bind_eq_ok.mp h
      obtain rfl := requireDocument_eq_ok hdocument
      obtain ⟨tr₂, id, hid, h⟩ := exec_bind_eq_ok.mp h
      split at h
      · cases h
      obtain ⟨tr₃, u, hcheck, h⟩ := exec_bind_eq_ok.mp h
      obtain ⟨tr₄, before, hbefore, h⟩ := exec_bind_eq_ok.mp h
      obtain ⟨tr₅, unitCode, hunit, h⟩ := exec_bind_eq_ok.mp h
      obtain ⟨hcode, rfl⟩ := exec_com_eq_ok.mp hunit
      obtain ⟨tr₆, outcome, hread, h⟩ := exec_bind_eq_ok.mp h
      cases outcome with
      | error e =>
          dsimp only at h
          split at h <;> cases h
      | ok observed =>
          obtain ⟨tr₇, u', hagain, h⟩ := exec_bind_eq_ok.mp h
          obtain ⟨tr₈, after, hafter, h⟩ := exec_bind_eq_ok.mp h
          split at h
          · cases h
          cases h
          exact ⟨{ scope, id, before, after, unitCode, observed, connected := tr₁, identified := tr₂, opened := tr₃,
                   inspected := tr₄, read := tr₆, again := tr₇, scope_eq := hscope, kind_eq := by_contra ‹_›,
                   connected_run := hdocument, id_run := hid, id_eq := by_contra ‹_›, opened_run := hcheck,
                   before_run := hbefore, unit_run := hcode, read_run := exec_attempt_eq_ok.mp hread,
                   again_run := hagain, after_run := hafter, same_revision := by_contra ‹_›, model_eq := rfl }⟩

theorem SemanticRun.opened_reads {request : SemanticReadRequest} {model : DrawingModel}
    (run : SemanticRun texts fuel world request tr tr' model) : ReadsOn tr run.opened :=
  (requireDocument_reads.readsOn run.connected_run).trans
    (((documentId_reads texts .activeDocument).readsOn run.id_run).trans
      ((checkpoint_reads request.deadline).readsOn run.opened_run))

/-- The enumeration of the model space. -/
theorem readModelSpace_eq_ok {request : SemanticReadRequest} {scale : ℝ} {observed : List Observed}
    (h : exec world (readModelSpace texts fuel request .activeDocument scale) tr = (tr', .ok observed)) :
    ∃ modelSpace tr₁, ReadsOn tr tr₁ ∧
      exec world (forEach modelSpace (observeEntity texts request.deadline scale) fuel none) tr₁ =
        (tr', .ok observed) := by
  obtain ⟨tr₁, modelSpace, hspace, h⟩ := exec_bind_eq_ok.mp h
  obtain ⟨-, rfl⟩ := exec_com_eq_ok.mp hspace
  obtain ⟨tr₂, observedCount, hcount, h⟩ := exec_bind_eq_ok.mp h
  obtain ⟨-, rfl⟩ := exec_com_eq_ok.mp hcount
  split at h
  · cases h
  · exact ⟨modelSpace, _, (ReadsOn.call rfl).trans (ReadsOn.call rfl), h⟩

/-- Every record of a model was observed, in the units of the drawing. -/
theorem SemanticRun.mem_entities {request : SemanticReadRequest} {model : DrawingModel}
    (run : SemanticRun texts fuel world request tr tr' model) {record : EntityRecord}
    (hrecord : record ∈ model.entities) :
    ∃ tr₁ entity, ReadsOn tr tr₁ ∧
      (exec world (observeEntity texts request.deadline (scaleOf run.unitCode) entity) tr₁).2 =
        .ok (.record record) := by
  rw [run.model_eq] at hrecord
  obtain ⟨observed, hobserved, hrecord⟩ := List.mem_filterMap.mp hrecord
  obtain ⟨modelSpace, tr₁, hreads, hforEach⟩ := readModelSpace_eq_ok texts fuel run.read_run
  obtain ⟨tr₂, entity, hreads', hrun⟩ := exec_forEach_mem (observeEntity_reads texts _ _) hforEach _ hobserved
  cases observed with
  | unsupported name => cases hrecord
  | record r =>
      cases hrecord
      refine ⟨tr₂, entity, ?_, hrun⟩
      have hinspected := (run.opened_reads texts fuel).trans ((inspectDocument_reads texts fuel).readsOn run.before_run)
      exact ((hinspected.trans (ReadsOn.call rfl)).trans hreads).trans hreads'

end

end CadHarness.Com
