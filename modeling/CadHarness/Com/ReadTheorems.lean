import CadHarness.Com.Lemmas.FrozenReads

/-!
# Semantic reads among edits

A semantic read that returns a model returns that of one state, when the entities that it reads are left alone
and no entity comes and goes meanwhile. The revisions before and after it tell only which entities there are.
-/

namespace CadHarness.Com
open CadHarness.Lib CadHarness.Domain CadHarness.Drawing Prog

noncomputable section

/-- A call for a property of an entity, other than its handle. -/
def ReadsProperty (n : Nat) (o : ComOp) : Prop :=
  AsksOf (.entityObject n) o ∧ o ≠ .checkpoint ∧ o ≠ .getText (.entityObject n) "Handle"

namespace Session

variable {session : Session} {texts : Texts} {fuel : Nat} {tr tr' : List ComEvent} {t : Nat}

/-- What the user leaves alone during the calls: between a time and each call for a property of an entity, the
entity, and at all times the entities that have come since the first call. -/
structure CalmAbout (session : Session) (tr : List ComEvent) (t : Nat) : Prop where
  unchanged : ∀ {i k n e}, tr[i]? = some e → ReadsProperty n e.op → (i ≤ k ∧ k < t) ∨ (t ≤ k ∧ k < i) →
    ∀ state, .change n state ∉ session.edits k
  kept : ∀ {k n}, k < tr.length → session.start.issued ≤ n → .delete n ∉ session.edits k

/-! ## Which entities there are -/

/-- Between two readings of one revision the entities are those that were read. -/
theorem RevisionRun.present_iff {id id' revision : String} {first last first' last' : Nat}
    (run : RevisionRun texts session fuel id revision first last)
    (run' : RevisionRun texts session fuel id' revision first' last') (hsha : Function.Injective texts.sha256)
    (hhandle : Function.Injective session.handleText)
    (hkept : ∀ {k n}, k < last' → session.start.issued ≤ n → .delete n ∉ session.edits k) {s : Nat}
    (hs : run.ended ≤ s) (hs' : s ≤ run'.started) (n : Nat) : session.roster.present s n ↔ n ∈ run.numbers := by
  have hnumbers := (run.eq_of_revision_eq hsha hhandle run').2
  have hscan := run'.scan
  rw [← hnumbers] at hscan
  apply Roster.present_iff_of_scans run.scan hscan _ hs hs'
  intro u m hu hu' habsent hpresent
  have hnew : session.start.issued ≤ m := by
    rcases session.isSome_of_le hu hpresent with h | h
    · exact absurd h habsent
    · exact (session.issued_le (Nat.zero_le _)).trans h
  apply session.present_of_kept (hu'.trans run'.scan.le) hpresent
  intro k hk hk'
  exact hkept (hk'.trans run'.ended_lt) hnew

theorem members_eq {ns : List Nat} {s : Nat} (hns : ns.Pairwise (· < ·))
    (h : ∀ n, session.roster.present s n ↔ n ∈ ns) : (session.stateAt s).members = ns := by
  apply (session.stateAt s).members_sorted.eq_of_mem_iff hns
  intro n
  rw [session.mem_members_stateAt, h]

/-! ## What the entities answer -/

theorem reply_congr {d d' : ModelSpace} {n : Nat} {o : ComOp} (h : d.entities n = d'.entities n)
    (ho : AsksOf (.entityObject n) o) : session.reply d o = session.reply d' o := by
  cases o with
  | checkpoint => rfl
  | getText target member | getBool target member | getNumber target member | getPoint target member
  | getNumbers target member | query target member arguments =>
      obtain rfl : target = .entityObject n := Option.some.inj ho
      simp only [reply, ofEntity, h]
  | _ => cases ho

theorem reply_handle_congr {d d' : ModelSpace} {n : Nat} (h : (d.entities n).isSome = true)
    (h' : (d'.entities n).isSome = true) : session.reply d (.getText (.entityObject n) "Handle") =
      session.reply d' (.getText (.entityObject n) "Handle") := by
  obtain ⟨state, hstate⟩ := Option.isSome_iff_exists.mp h
  obtain ⟨state', hstate'⟩ := Option.isSome_iff_exists.mp h'
  rw [reply, reply, ofEntity_of_eq_some hstate, ofEntity_of_eq_some hstate', if_pos rfl, if_pos rfl]

/-- An entity that was left alone was observed as it is at the time `s`. -/
theorem eval_observeEntity {n s : Nat} {deadline : Bool} {scale : ℝ} {observed : Observed}
    {tr₁ tr₂ : List ComEvent}
    (h : exec session.world (observeEntity texts deadline scale (.entityObject n)) tr₁ = (tr₂, .ok observed))
    (hpresent : ∀ i, tr₁.length ≤ i → i ≤ tr₂.length → session.roster.present i n)
    (hs : session.roster.present s n)
    (hunchanged : ∀ {i k e}, tr₁.length ≤ i → tr₂[i]? = some e → ReadsProperty n e.op →
      (i ≤ k ∧ k < s) ∨ (s ≤ k ∧ k < i) → ∀ state, .change n state ∉ session.edits k) :
    eval (session.reply (session.stateAt s)) (observeEntity texts deadline scale (.entityObject n)) =
      .ok observed := by
  obtain ⟨es, hes, hcalls⟩ := (observeEntity_asks texts deadline scale (.entityObject n)).exec_trace session.world tr₁
  replace hes : tr₂ = tr₁ ++ es := by
    rw [h] at hes
    exact hes
  have hanswers : ∀ e ∈ es, e.answer = session.reply (session.stateAt s) e.op := by
    intro e he
    obtain ⟨before, after, rfl⟩ := List.append_of_mem he
    obtain ⟨hask, hanswer⟩ := hcalls before e after rfl
    have hlength : (tr₁ ++ before).length ≤ tr₂.length := by
      rw [hes]
      simp
    have hthere := hpresent (tr₁ ++ before).length (by simp) hlength
    rw [hanswer]
    by_cases hcheck : e.op = .checkpoint
    · rw [hcheck]
      rfl
    by_cases hhandle : e.op = .getText (.entityObject n) "Handle"
    · rw [hhandle]
      exact reply_handle_congr hthere hs
    · apply reply_congr _ hask
      have hcall : tr₂[(tr₁ ++ before).length]? = some e := by
        rw [hes, ← List.append_assoc]
        simp
      have hreads : ReadsProperty n e.op := ⟨hask, hcheck, hhandle⟩
      have hstarted : tr₁.length ≤ (tr₁ ++ before).length := by simp
      rcases Nat.le_total (tr₁ ++ before).length s with hle | hle
      · exact (session.entities_eq hle hthere hs
          (fun k hk hk' => hunchanged hstarted hcall hreads (.inl ⟨hk, hk'⟩))).symm
      · exact session.entities_eq hle hs hthere
          (fun k hk hk' => hunchanged hstarted hcall hreads (.inr ⟨hk, hk'⟩))
  have htrace : (exec session.world (observeEntity texts deadline scale (.entityObject n)) tr₁).1 = tr₁ ++ es := by
    rw [h, hes]
  rw [← exec_eq_eval session.world htrace hanswers, h]

/-! ## The read -/

/-- The enumeration of the model space, of the state at a time. -/
theorem eval_readModelSpace {request : SemanticReadRequest} {scale : ℝ} {observed : List Observed} {s : Nat}
    {members : List Nat} (h : exec session.world (readModelSpace texts fuel request .activeDocument scale) tr =
      (tr', .ok observed)) (hmembers : ∀ i, tr.length ≤ i → i < tr'.length → (session.stateAt i).members = members)
    (hs : (session.stateAt s).members = members)
    (hunchanged : ∀ {i k n e}, tr.length ≤ i → tr'[i]? = some e → ReadsProperty n e.op →
      (i ≤ k ∧ k < s) ∨ (s ≤ k ∧ k < i) → ∀ state, .change n state ∉ session.edits k) : members.length < fuel ∧
    eval (session.reply (session.stateAt s)) (readModelSpace texts fuel request .activeDocument scale) =
      .ok observed := by
  obtain ⟨_, space, hcall, h⟩ := exec_bind_eq_ok.mp h
  obtain ⟨hspace, rfl⟩ := exec_com_eq_ok.mp hcall
  obtain rfl : ComObject.spaceObject = space := Except.ok.inj hspace
  obtain ⟨_, count, hcall', h⟩ := exec_bind_eq_ok.mp h
  obtain ⟨hcount, rfl⟩ := exec_com_eq_ok.mp hcall'
  split at h
  · cases h
  rename_i hbudget
  obtain ⟨ns, t', ht', hlength, hscan, hbodies⟩ := session.exec_forEach_scan h
  rw [List.length_append, List.length_append] at hscan hbodies
  dsimp only [List.length_singleton] at hscan hbodies
  have hsorted : members.Pairwise (· < ·) := hs ▸ (session.stateAt s).members_sorted
  have hpresent : ∀ i, tr.length ≤ i → i ≤ t' → ∀ n, session.roster.present i n ↔ n ∈ members := by
    intro i hi hi' n
    rw [← session.mem_members_stateAt, hmembers i hi (by omega)]
  have hle := hscan.le
  obtain rfl : ns = members :=
    hscan.eq_of_present_iff hsorted (fun i hi hi' => hpresent i (by omega) hi')
  refine ⟨hlength, ?_⟩
  have hobserved : List.Forall₂ (fun n a => eval (session.reply (session.stateAt s))
      (observeEntity texts request.deadline scale (.entityObject n)) = .ok a) (session.stateAt s).members observed := by
    rw [hs]
    apply ((List.forall₂_and_left ns observed).mpr ⟨fun n hn => hn, hbodies⟩).imp
    rintro n a ⟨hn, tr₁, tr₂, h₁, h₂, ⟨more, rfl⟩, hrun⟩
    apply eval_observeEntity hrun
    · intro i hi hi'
      exact (hpresent i (by omega) (by omega) n).mpr hn
    · rw [← session.mem_members_stateAt, hs]
      exact hn
    · intro i k e hi he
      apply hunchanged (by omega)
      rw [List.getElem?_append_left (List.getElem?_eq_some_iff.mp he).1, he]
  have hcounted : ((session.stateAt s).members.length : Int) = count := by
    rw [hs, ← hmembers (tr.length + 1) (by omega) (by omega)]
    simpa [world, reply] using hcount
  have hspace' : eval (session.reply (session.stateAt s)) (com (.getObject .activeDocument "ModelSpace")) =
    .ok .spaceObject := rfl
  have hcount' : eval (session.reply (session.stateAt s)) (com (.getInteger .spaceObject "Count")) = .ok count :=
    congrArg Except.ok hcounted
  rw [readModelSpace, eval_bind_of hspace', eval_bind_of hcount', if_neg hbudget]
  exact eval_forEach hobserved (by rw [hs]; exact hlength)

/-- A time of a state with the entities that are there between the two revisions. -/
theorem CalmAbout.unchanged_of_window {session : Session} {tr : List ComEvent} {t first last : Nat}
    (h : session.CalmAbout tr t) (hwindow : first ≤ last) {i k n : Nat} {e : ComEvent} (hi : first ≤ i)
    (hi' : i ≤ last) (he : tr[i]? = some e) (hreads : ReadsProperty n e.op)
    (hk : (i ≤ k ∧ k < max first (min t last)) ∨ (max first (min t last) ≤ k ∧ k < i)) (state : EntityState) :
    .change n state ∉ session.edits k := by
  apply h.unchanged he hreads
  omega

/-- What a read returned is what it would return of a state of that revision, if the enumeration is. -/
theorem eval_inspectSemanticDrawing {request : SemanticReadRequest} {model : DrawingModel}
    (run : SemanticRun texts fuel session.world request tr tr' model) {id : String} {d : ModelSpace}
    (hid : eval (session.reply session.start) (documentId texts .activeDocument) = .ok id)
    (hrevision : session.revisionOf texts id d = run.after.revision) (hfuel : d.members.length < fuel)
    (hspace : eval (session.reply d) (readModelSpace texts fuel request .activeDocument (scaleOf run.unitCode)) =
      .ok run.observed) :
    eval (session.reply d) (inspectSemanticDrawing texts fuel request) = .ok model := by
  obtain ⟨id₁, hid₁, -, hbefore⟩ := inspectDocument_eq_ok run.before_run
  obtain ⟨id₂, hid₂, -, hafter⟩ := inspectDocument_eq_ok run.after_run
  obtain rfl : id = id₁ := Except.ok.inj (hid.symm.trans hid₁)
  obtain rfl : id = id₂ := Except.ok.inj (hid.symm.trans hid₂)
  have hbefore := hbefore d hfuel (hrevision.trans run.same_revision.symm)
  have hafter := hafter d hfuel hrevision
  have hunit : eval (session.reply d) (com (.getVariable "INSUNITS")) = .ok run.unitCode := run.unit_run
  have hread : eval (session.reply d)
      (attempt (readModelSpace texts fuel request .activeDocument (scaleOf run.unitCode))) =
        .ok (.ok run.observed) := by
    rw [eval_attempt, hspace]
  unfold inspectSemanticDrawing
  rw [run.scope_eq]
  dsimp only
  rw [if_neg (not_not.mpr run.kind_eq), eval_bind_of (session.requireDocument_steady.eval_eq run.connected_run d),
    eval_bind_of ((session.documentId_steady texts).eval_eq run.id_run d), if_neg (not_not.mpr run.id_eq),
    eval_bind_of ((session.checkpoint_steady request.deadline).eval_eq run.opened_run d), eval_bind_of hbefore,
    eval_bind_of hunit, eval_bind_of hread]
  dsimp only
  rw [eval_bind_of ((session.checkpoint_steady request.deadline).eval_eq run.again_run d), eval_bind_of hafter,
    if_neg (not_not.mpr run.same_revision)]
  exact congrArg Except.ok run.model_eq.symm

/-- A semantic read returns what it would return of one state of the drawing, where the user leaves alone what it
reads. -/
theorem inspectSemanticDrawing_consistent (hsha : Function.Injective texts.sha256)
    (hhandle : Function.Injective session.handleText) {request : SemanticReadRequest} {model : DrawingModel}
    (h : exec session.world (inspectSemanticDrawing texts fuel request) [] = (tr', .ok model))
    (hcalm : session.CalmAbout tr' t) : ∃ s, s ≤ tr'.length ∧
      eval (session.reply (session.stateAt s)) (inspectSemanticDrawing texts fuel request) = .ok model ∧
      model.revision = session.revisionOf texts model.documentId (session.stateAt s) := by
  obtain ⟨run⟩ := inspectSemanticDrawing_eq_ok texts fuel h
  obtain ⟨id, hid, hfirst, -⟩ := inspectDocument_eq_ok run.before_run
  obtain ⟨id', hid', ⟨after⟩, -⟩ := inspectDocument_eq_ok run.after_run
  obtain rfl : id = id' := Except.ok.inj (hid.symm.trans hid')
  rw [run.same_revision] at hfirst
  obtain ⟨before⟩ := hfirst
  have hread := (exec_isPrefix run.read_run).length_le
  rw [List.length_append, List.length_singleton] at hread
  have hagain := (exec_isPrefix run.again_run).length_le
  have hstart := before.ended_lt
  have hcounted := after.le_counted
  have hstarted := after.counted_le
  have hlast := after.scan.le
  have hend := after.ended_lt
  have hwindow : before.ended ≤ after.counted := by omega
  -- between the two readings of the revision the entities are those that it counts
  have hmembers : ∀ i, before.ended ≤ i → i ≤ after.counted → (session.stateAt i).members = before.numbers := by
    intro i hi hi'
    exact members_eq before.scan.sorted (before.present_iff after hsha hhandle hcalm.kept hi (hi'.trans hstarted))
  obtain ⟨s, hs⟩ : ∃ s, s = max before.ended (min t after.counted) := ⟨_, rfl⟩
  have hmem := hmembers s (by omega) (by omega)
  have hunchanged : ∀ {i k n e}, (run.inspected ++ [(⟨.getVariable "INSUNITS", .ok run.unitCode⟩ : ComEvent)]).length ≤ i →
      run.read[i]? = some e → ReadsProperty n e.op → (i ≤ k ∧ k < s) ∨ (s ≤ k ∧ k < i) →
        ∀ state, .change n state ∉ session.edits k := by
    intro i k n e hi he hreads hk
    rw [List.length_append] at hi
    have hlt : i < run.read.length := (List.getElem?_eq_some_iff.mp he).1
    obtain ⟨more, hmore⟩ := (exec_isPrefix run.again_run).trans (exec_isPrefix run.after_run)
    have hcall : tr'[i]? = some e := by
      rw [← hmore, List.getElem?_append_left hlt, he]
    rw [hs] at hk
    exact hcalm.unchanged_of_window hwindow (by omega) (by omega) hcall hreads hk
  obtain ⟨hfuel, hspace⟩ := eval_readModelSpace run.read_run
    (fun i hi hi' => hmembers i (by rw [List.length_append] at hi; omega) (by omega)) hmem hunchanged
  have hrevision := calc
    session.revisionOf texts id (session.stateAt s)
      = revisionFrom texts id before.numbers.length (before.numbers.map session.handleText) := by
        rw [revisionOf, hmem]
    _ = revisionFrom texts id (session.stateAt after.counted).members.length
          (after.numbers.map session.handleText) := by
        rw [hmembers after.counted hwindow (Nat.le_refl _), (before.eq_of_revision_eq hsha hhandle after).2]
    _ = run.after.revision := after.revision_eq.symm
  have hmodel : model.revision = run.after.revision := congrArg DrawingModel.revision run.model_eq
  have hdocument : model.documentId = id := by
    have hfound := (session.documentId_steady texts).eval_eq run.id_run session.start
    exact (congrArg DrawingModel.documentId run.model_eq).trans (Except.ok.inj (hfound.symm.trans hid))
  refine ⟨s, by omega, eval_inspectSemanticDrawing run hid hrevision (hmem ▸ hfuel) hspace, ?_⟩
  rw [hmodel, hdocument, hrevision]

/-! ## Two lines -/

/-- A horizontal line. -/
def lineAt (y : ℝ) : EntityState where
  text member := if member = "ObjectName" then .ok "AcDbLine" else .ok "0"
  bool _ := .ok true
  number _ := .error (.raised comError)
  point member := if member = "StartPoint" then .ok (0, y) else .ok (10, y)
  numbers _ := .error (.raised comError)
  query _ _ := .error (.raised comError)

theorem linesAt_bounded (y : ℝ) (n : Nat) (h : 2 ≤ n) : (if n < 2 then some (lineAt y) else none) = none :=
  if_neg (Nat.not_lt.mpr h)

/-- Two lines at one height. -/
def linesAt (y : ℝ) : ModelSpace where
  entities n := if n < 2 then some (lineAt y) else none
  issued := 2
  bounded := linesAt_bounded y

/-- What the rest of a document answers. -/
def quietRest : (o : ComOp) → Except Stop o.Answer
  | .isQuiescent => .ok true
  | .getText .activeDocument _ => .ok "Drawing1.dwg"
  | .getVariable _ => .ok 4
  | .getInteger _ _ => .ok 1
  | .getBool _ _ => .ok false
  | .getObject .activeDocument member => .ok (.collectionObject member)
  | .next (.collectionObject _) _ => .ok none
  | _ => .error (.raised comError)

theorem quietRest_collections {member : String} {object : ComObject}
    (h : quietRest (.getObject .activeDocument member) = .ok object) : ∃ name, object = .collectionObject name :=
  ⟨member, (Except.ok.inj h).symm⟩

theorem quietRest_items {name : String} {previous : Option ComObject} {object : ComObject}
    (h : quietRest (.next (.collectionObject name) previous) = .ok (some object)) :
    ∃ index, object = .itemObject name index := by
  cases h

/-- Two lines, and a user who edits them. -/
def twoLines (edits : Nat → List Edit) : Session where
  start := linesAt 0
  edits
  handleText n := String.ofList (List.replicate n 'A')
  rest := quietRest
  collections := quietRest_collections
  items := quietRest_items

/-- Texts that are told apart as they are. -/
def exactTexts : Texts where
  sha256 := id
  lower := id
  upper := id

def modelSpaceScope : ReadScope where
  kind := .modelSpace
  layer_given h := ScopeKind.noConfusion h
  layout_given h := ScopeKind.noConfusion h
  selection_given h := ScopeKind.noConfusion h

def readRequest : SemanticReadRequest where
  sourceRef := "doc_" ++ exactTexts.upper (String.ofList ((exactTexts.sha256 (Canonical.canonicalJson
    (.str (exactTexts.lower (Python.strip "Drawing1.dwg"))))).toList.take 26))
  scope := some modelSpaceScope
  maxEntities := 10
  deadline := false

/-- The record of the line with a number, at a height. -/
def lineRecord (n : Nat) (y : ℝ) : EntityRecord :=
  .mk ("acad:handle:" ++ exactTexts.upper (Python.strip (String.ofList (List.replicate n 'A')))) "AcDbLine" "0" true "model"
    (.line (scaledPoint (0, y) (scaleOf 4)) (scaledPoint (10, y) (scaleOf 4)))
    (pointBounds (scaledPoint (0, y) (scaleOf 4)) [scaledPoint (10, y) (scaleOf 4)]) false

/-- What an inspection of the two lines returns. -/
def linesSnapshot : DocumentSnapshot where
  documentId := readRequest.sourceRef
  revision := (twoLines (fun _ => [])).revisionOf exactTexts readRequest.sourceRef (linesAt 0)
  pathHash := sha256Of exactTexts.sha256 (.str (exactTexts.lower (Python.strip "Drawing1.dwg")))
  displayName := "Drawing1.dwg"
  units := "mm"
  activeSpace := "model"
  layers := []
  dimensionStyles := []
  textStyles := []
  entityCount := 2
  readOnly := false

/-- The model of two lines at these heights. -/
def readModel (y z : ℝ) : DrawingModel :=
  modelOf modelSpaceScope readRequest.sourceRef 4 linesSnapshot [.record (lineRecord 0 y), .record (lineRecord 1 z)]

/-- What is read of two lines that stay at one height. -/
theorem eval_readRequest (edits : Nat → List Edit) (y : ℝ) :
    eval ((twoLines edits).reply (linesAt y)) (inspectSemanticDrawing exactTexts 3 readRequest) =
      .ok (readModel y y) := by
  have hscope : readRequest.scope = some modelSpaceScope := rfl
  have hdocument : eval ((twoLines edits).reply (linesAt y)) requireDocument = .ok .activeDocument := rfl
  have hid : eval ((twoLines edits).reply (linesAt y)) (documentId exactTexts .activeDocument) =
    .ok readRequest.sourceRef := rfl
  have hcheck : eval ((twoLines edits).reply (linesAt y)) (checkpoint readRequest.deadline) = .ok () := rfl
  have hinspect : eval ((twoLines edits).reply (linesAt y)) (inspectDocument exactTexts 3) = .ok linesSnapshot := rfl
  have hunit : eval ((twoLines edits).reply (linesAt y)) (com (.getVariable "INSUNITS")) = .ok 4 := rfl
  have hread : eval ((twoLines edits).reply (linesAt y))
      (attempt (readModelSpace exactTexts 3 readRequest .activeDocument (scaleOf 4))) =
        .ok (.ok [.record (lineRecord 0 y), .record (lineRecord 1 y)]) := rfl
  unfold inspectSemanticDrawing
  rw [hscope]
  dsimp only
  rw [if_neg (by simp [modelSpaceScope]), eval_bind_of hdocument, eval_bind_of hid, if_neg (not_not.mpr rfl),
    eval_bind_of hcheck, eval_bind_of hinspect, eval_bind_of hunit, eval_bind_of hread]
  dsimp only
  rw [eval_bind_of hcheck, eval_bind_of hinspect, if_neg (not_not.mpr rfl)]
  rfl

section

variable (edits : Nat → List Edit)

/-- The traces of a read of the two lines: when the document is known, at the model space and after it. -/
def identified : List ComEvent :=
  (exec (twoLines edits).world (documentId exactTexts .activeDocument)
    (exec (twoLines edits).world requireDocument []).1).1

def inspected : List ComEvent :=
  (exec (twoLines edits).world (inspectDocument exactTexts 3) (identified edits)).1 ++
    [⟨.getVariable "INSUNITS", .ok 4⟩]

def enumerated : List ComEvent :=
  (exec (twoLines edits).world (attempt (readModelSpace exactTexts 3 readRequest .activeDocument (scaleOf 4)))
    (inspected edits)).1

end

/-- What is read of the two lines during a session, if both inspections find them. -/
theorem exec_readRequest {edits : Nat → List Edit} {y z : ℝ}
    (hbefore : (exec (twoLines edits).world (inspectDocument exactTexts 3) (identified edits)).2 = .ok linesSnapshot)
    (hread : (exec (twoLines edits).world
      (attempt (readModelSpace exactTexts 3 readRequest .activeDocument (scaleOf 4))) (inspected edits)).2 =
        .ok (.ok [.record (lineRecord 0 y), .record (lineRecord 1 z)]))
    (hafter : (exec (twoLines edits).world (inspectDocument exactTexts 3) (enumerated edits)).2 = .ok linesSnapshot) :
    (exec (twoLines edits).world (inspectSemanticDrawing exactTexts 3 readRequest) []).2 = .ok (readModel y z) := by
  have hscope : readRequest.scope = some modelSpaceScope := rfl
  have hdocument : exec (twoLines edits).world requireDocument [] =
    ((exec (twoLines edits).world requireDocument []).1, .ok .activeDocument) := rfl
  have hid : exec (twoLines edits).world (documentId exactTexts .activeDocument)
    (exec (twoLines edits).world requireDocument []).1 = (identified edits, .ok readRequest.sourceRef) := rfl
  have hcheck (tr : List ComEvent) :
    exec (twoLines edits).world (checkpoint readRequest.deadline) tr = (tr, .ok ()) := rfl
  have hunit (tr : List ComEvent) : exec (twoLines edits).world (com (.getVariable "INSUNITS")) tr =
    (tr ++ [⟨.getVariable "INSUNITS", .ok 4⟩], .ok 4) := rfl
  have hread' : exec (twoLines edits).world
      (attempt (readModelSpace exactTexts 3 readRequest .activeDocument (scaleOf 4))) (inspected edits) =
        (enumerated edits, .ok (.ok [.record (lineRecord 0 y), .record (lineRecord 1 z)])) :=
    Prod.ext (by rw [enumerated]) hread
  unfold inspectSemanticDrawing
  rw [hscope]
  dsimp only
  rw [if_neg (by simp [modelSpaceScope]), exec_bind_of hdocument, exec_bind_of hid, if_neg (not_not.mpr rfl),
    exec_bind_of (hcheck _), exec_bind_of (Prod.ext rfl hbefore), exec_bind_of (hunit _), ← inspected,
    exec_bind_of hread']
  dsimp only
  rw [exec_bind_of (hcheck _), exec_bind_of (Prod.ext rfl hafter), if_neg (not_not.mpr rfl)]
  rfl

theorem still_read : (exec (twoLines (fun _ => [])).world (inspectSemanticDrawing exactTexts 3 readRequest) []).2 =
    .ok (readModel 0 0) :=
  exec_readRequest rfl rfl rfl

/-- Both lines are moved after the first was read. -/
def moves (k : Nat) : List Edit := if k = 33 then [.change 0 (lineAt 1), .change 1 (lineAt 1)] else []

theorem moves_read : (exec (twoLines moves).world (inspectSemanticDrawing exactTexts 3 readRequest) []).2 =
    .ok (readModel 0 1) :=
  exec_readRequest rfl rfl rfl

theorem handleText_injective : Function.Injective (fun n : Nat => String.ofList (List.replicate n 'A')) := by
  intro m n h
  have hlength := congrArg List.length (String.ofList_injective h)
  simpa using hlength

theorem exec_eq_of_snd {α : Type} {world : World comSig} {m : ComM α} {tr : List ComEvent} {r : Except Stop α}
    (h : (exec world m tr).2 = r) : exec world m tr = ((exec world m tr).1, r) := by
  rw [← h]

theorem still_calm (tr : List ComEvent) (t : Nat) : (twoLines (fun _ => [])).CalmAbout tr t where
  unchanged _ _ _ _ := List.not_mem_nil
  kept _ _ := List.not_mem_nil

/-- A read of two lines that nobody edits. -/
theorem inspectSemanticDrawing_consistent_still :
    ∃ s, s ≤ (exec (twoLines (fun _ => [])).world (inspectSemanticDrawing exactTexts 3 readRequest) []).1.length ∧
      eval ((twoLines (fun _ => [])).reply ((twoLines (fun _ => [])).stateAt s))
        (inspectSemanticDrawing exactTexts 3 readRequest) = .ok (readModel 0 0) ∧
      (readModel 0 0).revision = (twoLines (fun _ => [])).revisionOf exactTexts (readModel 0 0).documentId
        ((twoLines (fun _ => [])).stateAt s) :=
  inspectSemanticDrawing_consistent (t := 0) (fun _ _ h => h) handleText_injective (exec_eq_of_snd still_read)
    (still_calm _ 0)

theorem readModel_entities (y z : ℝ) : (readModel y z).entities = [lineRecord 0 y, lineRecord 1 z] := rfl

theorem lineRecord_inj {n : Nat} {y z : ℝ} (h : lineRecord n y = lineRecord n z) : y = z := by
  have hscale : scaleOf 4 = ((1 : ℚ) : ℝ) := rfl
  have hgeometry : EntityGeometry.line (scaledPoint (0, y) (scaleOf 4)) (scaledPoint (10, y) (scaleOf 4)) =
    .line (scaledPoint (0, z) (scaleOf 4)) (scaledPoint (10, z) (scaleOf 4)) := congrArg EntityRecord.geometry h
  have hpoint := (EntityGeometry.line.inj hgeometry).1
  simpa [scaledPoint, hscale] using hpoint

theorem moves_of_ne {k : Nat} (h : k ≠ 33) : moves k = [] := if_neg h

theorem moves_apply (y : ℝ) : (moves 33).foldl (fun d e => e.apply d) (linesAt y) = linesAt 1 := by
  have hmoves : moves 33 = [.change 0 (lineAt 1), .change 1 (lineAt 1)] := rfl
  rw [hmoves]
  ext n
  · simp only [List.foldl_cons, List.foldl_nil, Edit.entities_change, linesAt]
    rcases n with _ | _ | n <;> simp
  · rfl

theorem moves_stateAt (s : Nat) : ∃ y, (twoLines moves).stateAt s = linesAt y := by
  induction s with
  | zero => exact ⟨0, rfl⟩
  | succ s ih =>
      obtain ⟨y, hy⟩ := ih
      by_cases hs : s = 33
      · subst hs
        refine ⟨1, ?_⟩
        rw [stateAt, hy]
        exact moves_apply y
      · refine ⟨y, ?_⟩
        have hedits : (twoLines moves).edits s = [] := moves_of_ne hs
        rw [stateAt, hedits, hy]
        rfl

/-- Two lines are read at two heights, though they were moved together. -/
theorem read_mixes : ¬ ∀ (session : Session) (texts : Texts) (fuel : Nat) (request : SemanticReadRequest)
    (tr' : List ComEvent) (model : DrawingModel), Function.Injective texts.sha256 →
      Function.Injective session.handleText →
      exec session.world (inspectSemanticDrawing texts fuel request) [] = (tr', .ok model) →
      ∃ s, s ≤ tr'.length ∧
        eval (session.reply (session.stateAt s)) (inspectSemanticDrawing texts fuel request) = .ok model ∧
        model.revision = session.revisionOf texts model.documentId (session.stateAt s) := by
  intro h
  obtain ⟨s, -, hs, -⟩ := h (twoLines moves) exactTexts 3 readRequest _ (readModel 0 1) (fun _ _ h => h)
    handleText_injective (exec_eq_of_snd moves_read)
  obtain ⟨y, hy⟩ := moves_stateAt s
  rw [hy, eval_readRequest] at hs
  have hentities := congrArg DrawingModel.entities (Except.ok.inj hs)
  rw [readModel_entities, readModel_entities] at hentities
  obtain ⟨hfirst, hrest⟩ := List.cons.inj hentities
  have hsecond := (List.cons.inj hrest).1
  have hzero := lineRecord_inj hfirst
  have hone := lineRecord_inj hsecond
  rw [hzero] at hone
  norm_num at hone

end Session

end

end CadHarness.Com
