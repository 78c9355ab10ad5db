import CadHarness.Canonical.Normal
import CadHarness.Com.Lemmas.Sessions

/-!
# Reads of one state

What an enumeration, a revision and an inspection return of one state of the model space, and what a reading of
the revision during a session says of the states in between.
-/

/-!
## What a session does not touch

The parts of a read that return the same of every state of the model space, and what a read returns of one
state.
-/

namespace CadHarness.Com
open CadHarness.Lib CadHarness.Domain CadHarness.Drawing Prog

noncomputable section

/-! ## Evaluation -/

section

variable {α : Type} {answers : (o : comSig.Op) → comSig.Res o}

theorem eval_com (o : ComOp) : eval answers (com o) = answers o := rfl

theorem eval_attempt (m : ComM α) :
    eval answers (attempt m) = match eval answers m with
      | .ok a => .ok (.ok a)
      | .error (.raised e) => .ok (.error e)
      | .error .endless => .error .endless := by
  unfold eval attempt
  rw [ExceptT.run_mk, answerWith_bind]
  generalize answerWith answers m.run = r
  rcases r with (_ | _) | _ <;> rfl

end

namespace Session

variable (session : Session) {α β : Type}

/-- The program ends as it would of any state of the model space. -/
def Steady (m : ComM α) : Prop := ∀ tr d, (exec session.world m tr).2 = eval (session.reply d) m

variable {session}

namespace Steady

theorem pure (a : α) : session.Steady (pure a) := fun _ _ => rfl

theorem raise (e : Exc) : session.Steady (raise e : ComM α) := fun _ _ => rfl

theorem com {o : ComOp} (h : ∀ d d', session.reply d o = session.reply d' o) : session.Steady (com o) :=
  fun _ _ => h _ _

theorem bind {m : ComM α} {f : α → ComM β} (hm : session.Steady m)
    (hf : ∀ a, eval (session.reply session.start) m = .ok a → session.Steady (f a)) : session.Steady (m >>= f) := by
  intro tr d
  have hstart := (hm tr session.start).symm.trans (hm tr d)
  rw [exec_bind, eval_bind, ← hstart]
  have hrun := hm tr session.start
  rcases hexec : exec session.world m tr with ⟨tr₁, e | a⟩
  · rw [hexec] at hrun
    rw [← hrun]
  · rw [hexec] at hrun
    rw [← hrun]
    exact hf a hrun.symm tr₁ d

theorem ite {p : Prop} [Decidable p] {m n : ComM α} (hm : session.Steady m) (hn : session.Steady n) :
    session.Steady (if p then m else n) := by
  split
  · exact hm
  · exact hn

theorem attempt {m : ComM α} (hm : session.Steady m) : session.Steady (attempt m) := by
  intro tr d
  rw [exec_attempt, eval_attempt, ← hm tr d]
  rcases exec session.world m tr with ⟨tr₁, (e | _) | a⟩ <;> rfl

theorem suppress {m : ComM α} (hm : session.Steady m) : session.Steady (suppress m) := by
  apply hm.attempt.bind
  intro r hr
  cases r with
  | ok a => exact pure _
  | error e => exact pure _

/-- An enumeration of a collection other than the model space. -/
theorem forEach {name : String} {body : ComObject → ComM α}
    (hbody : ∀ index, session.Steady (body (.itemObject name index))) (fuel : Nat) (previous : Option ComObject) :
    session.Steady (forEach (.collectionObject name) body fuel previous) := by
  induction fuel generalizing previous with
  | zero => exact fun _ _ => rfl
  | succ fuel ih =>
      apply (com (fun _ _ => rfl)).bind
      intro next hnext
      cases next with
      | none => exact pure []
      | some object =>
          obtain ⟨index, rfl⟩ := session.items hnext
          apply (hbody index).bind
          intro a ha
          apply (ih _).bind
          intro rest hrest
          exact pure _

/-- A part that returned returns the same of any state. -/
theorem eval_eq {m : ComM α} (hm : session.Steady m) {tr tr' : List ComEvent} {a : α}
    (h : exec session.world m tr = (tr', .ok a)) (d : ModelSpace) : eval (session.reply d) m = .ok a := by
  rw [← hm tr d, h]

end Steady

/-- A collection of the document other than the model space, and what is read of it. -/
theorem collection_steady {member : String} {f : ComObject → ComM α}
    (h : ∀ d, session.reply d (.getObject .activeDocument member) = session.rest (.getObject .activeDocument member))
    (hf : ∀ name, session.Steady (f (.collectionObject name))) :
    session.Steady (com (.getObject .activeDocument member) >>= f) := by
  apply (Steady.com (fun d d' => (h d).trans (h d').symm)).bind
  intro object hobject
  obtain ⟨name, rfl⟩ := session.collections ((h session.start).symm.trans hobject)
  exact hf name

section

variable (session) (texts : Texts) (fuel : Nat)

theorem requireDocument_steady : session.Steady requireDocument := by
  apply Steady.bind
  · apply (Steady.com (fun _ _ => rfl)).suppress.bind
    intro quiescent hquiescent
    cases quiescent with
    | none => exact Steady.pure ()
    | some quiescent => exact (Steady.raise _).ite (Steady.pure ())
  · intro u hu
    exact Steady.pure _

theorem documentId_steady : session.Steady (documentId texts .activeDocument) := by
  apply Steady.bind
  · apply Steady.suppress
    apply (Steady.com (fun _ _ => rfl)).bind
    intro fullName hfullName
    exact (Steady.pure _).ite (Steady.com (fun _ _ => rfl))
  · intro found hfound
    exact Steady.pure _

theorem checkpoint_steady (deadline : Bool) : session.Steady (checkpoint deadline) := by
  cases deadline with
  | false => exact Steady.pure ()
  | true => exact Steady.com (fun _ _ => rfl)

theorem inspectLayer_steady (name : String) (index : Nat) :
    session.Steady (inspectLayer (.itemObject name index)) := by
  apply (Steady.com (fun _ _ => rfl)).bind
  intro layerName hlayerName
  apply (Steady.com (fun _ _ => rfl)).bind
  intro color hcolor
  apply (Steady.com (fun _ _ => rfl)).bind
  intro linetype hlinetype
  apply (Steady.com (fun _ _ => rfl)).bind
  intro lineweight hlineweight
  apply (Steady.com (fun _ _ => rfl)).bind
  intro frozen hfrozen
  apply (Steady.com (fun _ _ => rfl)).bind
  intro layerOn hlayerOn
  apply (Steady.com (fun _ _ => rfl)).bind
  intro locked hlocked
  exact Steady.pure _

theorem layers_steady : session.Steady (do
    let layerCollection ← com (.getObject .activeDocument "Layers")
    forEach layerCollection inspectLayer fuel none) :=
  collection_steady (fun _ => rfl) (fun name => Steady.forEach (session.inspectLayer_steady name) fuel none)

theorem styleNames_steady {member : String}
    (h : ∀ d, session.reply d (.getObject .activeDocument member) = session.rest (.getObject .activeDocument member)) :
    session.Steady (styleNames fuel .activeDocument member) :=
  collection_steady h (fun _ => Steady.forEach (fun _ => Steady.com (fun _ _ => rfl)) fuel none)

end

end Session

end

end CadHarness.Com

namespace CadHarness.Com
open CadHarness.Lib CadHarness.Domain CadHarness.Drawing Prog

noncomputable section

namespace Session

variable {session : Session} {d : ModelSpace} {fuel : Nat} {tr tr' : List ComEvent} {id revision : String}

/-! ## Enumerations -/

theorem filter_members_succ {d : ModelSpace} {bound n : Nat} {ns : List Nat}
    (h : d.members.filter (fun m => bound ≤ m) = n :: ns) : d.members.filter (fun m => n + 1 ≤ m) = ns := by
  have hbound : bound ≤ n := by
    have hmem : n ∈ d.members.filter (fun m => bound ≤ m) := by rw [h]; exact List.mem_cons_self
    simpa using (List.mem_filter.mp hmem).2
  have hsorted := d.members_sorted.filter (fun m => decide (bound ≤ m))
  rw [h, List.pairwise_cons] at hsorted
  have hlater : ∀ m ∈ ns, n + 1 ≤ m := hsorted.1
  calc d.members.filter (fun m => n + 1 ≤ m)
      = (d.members.filter (fun m => bound ≤ m)).filter (fun m => n + 1 ≤ m) := by
        rw [List.filter_filter]
        apply List.filter_congr
        intro m hm
        simp only [← Bool.decide_and, decide_eq_decide]
        omega
    _ = ns := by
        rw [h, List.filter_cons_of_neg (by simp)]
        exact List.filter_eq_self.mpr (by simpa using hlater)

theorem eval_forEach_from {α : Type} {body : ComObject → ComM α} {ns : List Nat} {results : List α}
    (hbody : List.Forall₂ (fun n a => eval (session.reply d) (body (.entityObject n)) = .ok a) ns results)
    {previous : Option ComObject} (hns : d.members.filter (fun m => boundAfter previous ≤ m) = ns)
    (hfuel : ns.length < fuel) : eval (session.reply d) (forEach .spaceObject body fuel previous) = .ok results := by
  induction hbody generalizing previous fuel with
  | nil =>
      obtain ⟨fuel, rfl⟩ := Nat.exists_eq_succ_of_ne_zero (Nat.ne_of_gt hfuel)
      have hfirst : d.firstFrom (boundAfter previous) = none := by
        rw [ModelSpace.firstFrom, ← List.head?_filter, hns, List.head?_nil]
      have hnext : eval (session.reply d) (com (.next .spaceObject previous)) = .ok none := by
        rw [eval_com, reply, hfirst, Option.map_none]
      rw [forEach, eval_bind_of hnext]
      rfl
  | @cons n a ns results ha hrest ih =>
      obtain ⟨fuel, rfl⟩ := Nat.exists_eq_succ_of_ne_zero (Nat.ne_of_gt (Nat.zero_lt_of_lt hfuel))
      have hfirst : d.firstFrom (boundAfter previous) = some n := by
        rw [ModelSpace.firstFrom, ← List.head?_filter, hns, List.head?_cons]
      have hnext : eval (session.reply d) (com (.next .spaceObject previous)) = .ok (some (.entityObject n)) := by
        rw [eval_com, reply, hfirst, Option.map_some]
      have hlater : eval (session.reply d) (forEach .spaceObject body fuel (some (.entityObject n))) = .ok results :=
        ih (filter_members_succ hns) (Nat.lt_of_succ_lt_succ hfuel)
      rw [forEach, eval_bind_of hnext]
      dsimp only
      rw [eval_bind_of ha, eval_bind_of hlater]
      rfl

/-- An enumeration of the model space returns what its body makes of the entities. -/
theorem eval_forEach {α : Type} {body : ComObject → ComM α} {results : List α}
    (hbody : List.Forall₂ (fun n a => eval (session.reply d) (body (.entityObject n)) = .ok a) d.members results)
    (hfuel : d.members.length < fuel) : eval (session.reply d) (forEach .spaceObject body fuel none) = .ok results :=
  eval_forEach_from hbody (List.filter_eq_self.mpr (by simp [boundAfter])) hfuel

/-! ## Revisions -/

variable (session) (texts : Texts)

/-- The revision of a state of the model space. -/
def revisionOf (id : String) (d : ModelSpace) : String :=
  revisionFrom texts id d.members.length (d.members.map session.handleText)

variable {session}

theorem eval_computeRevision (hfuel : d.members.length < fuel) (id : String) :
    eval (session.reply d) (computeRevision texts fuel .activeDocument id) = .ok (session.revisionOf texts id d) := by
  have hhandles : eval (session.reply d) (forEach .spaceObject (fun entity => com (.getText entity "Handle")) fuel
      none) = .ok (d.members.map session.handleText) := by
    apply eval_forEach _ hfuel
    rw [List.forall₂_map_right_iff, List.forall₂_same]
    intro n hn
    obtain ⟨state, hstate⟩ := Option.isSome_iff_exists.mp (ModelSpace.mem_members.mp hn)
    rw [eval_com, reply, ofEntity_of_eq_some hstate, if_pos rfl]
  have hrevision : eval (session.reply d) (readRevision texts fuel .activeDocument id) =
      .ok (session.revisionOf texts id d) := by
    have hspace : eval (session.reply d) (com (.getObject .activeDocument "ModelSpace")) = .ok .spaceObject := rfl
    have hcount : eval (session.reply d) (com (.getInteger .spaceObject "Count")) = .ok (d.members.length : Int) := rfl
    rw [readRevision, eval_bind_of hspace, eval_bind_of hcount, eval_bind_of hhandles]
    rfl
  have hattempt : eval (session.reply d) (attempt (readRevision texts fuel .activeDocument id)) =
      .ok (.ok (session.revisionOf texts id d)) := by
    rw [eval_attempt, hrevision]
  rw [computeRevision, eval_bind_of hattempt]
  rfl

/-- A reading of the revision, from a call on until before another: the number of entities, then their handles. -/
structure RevisionRun (session : Session) (fuel : Nat) (id revision : String) (first last : Nat) where
  counted : Nat
  started : Nat
  ended : Nat
  numbers : List Nat
  le_counted : first ≤ counted
  counted_le : counted ≤ started
  scan : Roster.Scan session.roster 0 started numbers ended
  ended_lt : ended < last
  length_lt : numbers.length < fuel
  revision_eq : revision =
    revisionFrom texts id (session.stateAt counted).members.length (numbers.map session.handleText)

namespace RevisionRun

variable {texts} {id' revision' : String} {first last first' last' : Nat}

def widen (run : RevisionRun texts session fuel id revision first last) (hfirst : first' ≤ first)
    (hlast : last ≤ last') : RevisionRun texts session fuel id revision first' last' where
  counted := run.counted
  started := run.started
  ended := run.ended
  numbers := run.numbers
  le_counted := hfirst.trans run.le_counted
  counted_le := run.counted_le
  scan := run.scan
  ended_lt := run.ended_lt.trans_le hlast
  length_lt := run.length_lt
  revision_eq := run.revision_eq

/-- Equal revisions count and number the same entities. -/
theorem eq_of_revision_eq (hsha : Function.Injective texts.sha256) (hhandle : Function.Injective session.handleText)
    (run : RevisionRun texts session fuel id revision first last)
    (run' : RevisionRun texts session fuel id' revision first' last') :
    (session.stateAt run.counted).members.length = (session.stateAt run'.counted).members.length ∧
      run.numbers = run'.numbers := by
  have hobj := (Canonical.sha256Of_eq_iff hsha).mp (run.revision_eq.symm.trans run'.revision_eq)
  rw [Canonical.normalize_obj_eq_iff (by simp) (by simp)] at hobj
  have hparts : (session.stateAt run.counted).members.length = (session.stateAt run'.counted).members.length ∧
      (sortBy codePoints (run.numbers.map session.handleText)).map (@Json.str Canonical.Number) =
        (sortBy codePoints (run'.numbers.map session.handleText)).map Json.str := by
    simpa [Assoc.lookup_cons, Canonical.normalize, Canonical.normalizeItems, Canonical.normalizeNumber, strings]
      using hobj "parts"
  obtain ⟨hcount, hsorted⟩ := hparts
  refine ⟨hcount, ?_⟩
  have hperm := perm_of_sortBy_eq ((List.map_injective_iff.mpr (fun _ _ => Json.str.inj)) hsorted)
  exact ((List.map_perm_map_iff hhandle).mp hperm).eq_of_pairwise (fun a b _ _ hab hba => absurd hba hab.asymm)
    run.scan.sorted run'.scan.sorted

end RevisionRun

variable {texts}

theorem reply_handle {n : Nat} {handle : String}
    (h : session.reply d (.getText (.entityObject n) "Handle") = .ok handle) : handle = session.handleText n := by
  cases hn : d.entities n with
  | none =>
      rw [reply, ofEntity, hn] at h
      cases h
  | some state =>
      rw [reply, ofEntity_of_eq_some hn, if_pos rfl] at h
      exact (Except.ok.inj h).symm

theorem readRevision_eq_ok (h : exec session.world (readRevision texts fuel .activeDocument id) tr =
    (tr', .ok revision)) : Nonempty (RevisionRun texts session fuel id revision tr.length tr'.length) := by
  obtain ⟨_, space, hcall, h⟩ := exec_bind_eq_ok.mp h
  obtain ⟨hspace, rfl⟩ := exec_com_eq_ok.mp hcall
  obtain rfl : ComObject.spaceObject = space := Except.ok.inj hspace
  obtain ⟨_, count, hcall', h⟩ := exec_bind_eq_ok.mp h
  obtain ⟨hcount, rfl⟩ := exec_com_eq_ok.mp hcall'
  obtain ⟨tr₁, handles, hhandles, hreturn⟩ := exec_bind_eq_ok.mp h
  cases hreturn
  obtain ⟨ns, t', ht', hlength, hscan, hbodies⟩ := session.exec_forEach_scan hhandles
  have hmap : ns.map session.handleText = handles := by
    rw [← List.forall₂_eq_eq_eq, List.forall₂_map_left_iff]
    apply hbodies.imp
    rintro n handle ⟨tr₂, tr₃, -, -, -, hrun⟩
    exact (reply_handle (exec_com_eq_ok.mp hrun).1).symm
  have hcounted : ((session.stateAt (tr.length + 1)).members.length : Int) = count := by
    simpa [world, reply] using hcount
  rw [List.length_append, List.length_append] at hscan
  exact ⟨{ counted := tr.length + 1, started := tr.length + 1 + 1, ended := t', numbers := ns,
           le_counted := Nat.le_succ _, counted_le := Nat.le_succ _, scan := hscan,
           ended_lt := by omega, length_lt := hlength, revision_eq := by rw [hmap, hcounted] }⟩

theorem computeRevision_eq_ok (h : exec session.world (computeRevision texts fuel .activeDocument id) tr =
    (tr', .ok revision)) : Nonempty (RevisionRun texts session fuel id revision tr.length tr'.length) := by
  obtain ⟨tr₁, outcome, houtcome, h⟩ := exec_bind_eq_ok.mp h
  cases outcome with
  | error e => cases h
  | ok found =>
      cases h
      exact readRevision_eq_ok (exec_attempt_eq_ok.mp houtcome)

/-! ## Inspections -/

/-- An inspection during a session: the revision that it read, and what it would return of a state of that
revision. -/
theorem inspectConnected_eq_ok {snapshot : DocumentSnapshot}
    (h : exec session.world (inspectConnected texts fuel .activeDocument) tr = (tr', .ok snapshot)) :
    ∃ id, eval (session.reply session.start) (documentId texts .activeDocument) = .ok id ∧
      Nonempty (RevisionRun texts session fuel id snapshot.revision tr.length tr'.length) ∧
      ∀ d, d.members.length < fuel → session.revisionOf texts id d = snapshot.revision →
        eval (session.reply d) (inspectConnected texts fuel .activeDocument) =
          .ok { snapshot with entityCount := d.members.length } := by
  obtain ⟨tr₁, layerCollection, hlayerCollection, h⟩ := exec_bind_eq_ok.mp h
  obtain ⟨tr₂, layers, hlayers, h⟩ := exec_bind_eq_ok.mp h
  obtain ⟨tr₃, dimensionStyles, hdimensionStyles, h⟩ := exec_bind_eq_ok.mp h
  obtain ⟨tr₄, textStyles, htextStyles, h⟩ := exec_bind_eq_ok.mp h
  obtain ⟨tr₅, insunits, hinsunits, h⟩ := exec_bind_eq_ok.mp h
  obtain ⟨tr₆, space, hspace, h⟩ := exec_bind_eq_ok.mp h
  obtain ⟨tr₇, count, hcount, h⟩ := exec_bind_eq_ok.mp h
  obtain ⟨tr₈, id, hid, h⟩ := exec_bind_eq_ok.mp h
  obtain ⟨tr₉, revision, hrevision, h⟩ := exec_bind_eq_ok.mp h
  obtain ⟨tr₁₀, hashedName, hhashedName, h⟩ := exec_bind_eq_ok.mp h
  obtain ⟨tr₁₁, displayName, hdisplayName, h⟩ := exec_bind_eq_ok.mp h
  obtain ⟨tr₁₂, activeSpace, hactiveSpace, h⟩ := exec_bind_eq_ok.mp h
  obtain ⟨tr₁₃, readOnly, hreadOnly, h⟩ := exec_bind_eq_ok.mp h
  cases h
  obtain ⟨name, rfl⟩ := session.collections (exec_com_eq_ok.mp hlayerCollection).1
  refine ⟨id, (session.documentId_steady texts).eval_eq hid _, ?_, ?_⟩
  · obtain ⟨run⟩ := computeRevision_eq_ok hrevision
    have hfirst := ((exec_isPrefix hlayerCollection).trans ((exec_isPrefix hlayers).trans
      ((exec_isPrefix hdimensionStyles).trans ((exec_isPrefix htextStyles).trans ((exec_isPrefix hinsunits).trans
        ((exec_isPrefix hspace).trans ((exec_isPrefix hcount).trans (exec_isPrefix hid)))))))).length_le
    have hlast := ((exec_isPrefix hhashedName).trans ((exec_isPrefix hdisplayName).trans
      ((exec_isPrefix hactiveSpace).trans (exec_isPrefix hreadOnly)))).length_le
    exact ⟨run.widen hfirst hlast⟩
  · intro d hfuel hsame
    have hspace' : eval (session.reply d) (com (.getObject .activeDocument "ModelSpace")) = .ok .spaceObject := rfl
    have hcount' : eval (session.reply d) (com (.getInteger .spaceObject "Count")) =
      .ok (d.members.length : Int) := rfl
    have hrevision' : eval (session.reply d) (computeRevision texts fuel .activeDocument id) = .ok revision := by
      rw [eval_computeRevision texts hfuel id, hsame]
    obtain rfl : ComObject.spaceObject = space := Except.ok.inj (exec_com_eq_ok.mp hspace).1
    rw [inspectConnected, eval_bind_of ((Steady.com (fun _ _ => rfl)).eval_eq hlayerCollection d),
      eval_bind_of ((Steady.forEach (session.inspectLayer_steady name) fuel none).eval_eq hlayers d),
      eval_bind_of ((session.styleNames_steady fuel (fun _ => rfl)).eval_eq hdimensionStyles d),
      eval_bind_of ((session.styleNames_steady fuel (fun _ => rfl)).eval_eq htextStyles d),
      eval_bind_of ((Steady.com (fun _ _ => rfl)).eval_eq hinsunits d), eval_bind_of hspace', eval_bind_of hcount',
      eval_bind_of ((session.documentId_steady texts).eval_eq hid d), eval_bind_of hrevision',
      eval_bind_of ((Steady.com (fun _ _ => rfl)).eval_eq hhashedName d),
      eval_bind_of ((Steady.com (fun _ _ => rfl)).eval_eq hdisplayName d),
      eval_bind_of ((Steady.com (fun _ _ => rfl)).eval_eq hactiveSpace d),
      eval_bind_of ((Steady.com (fun _ _ => rfl)).eval_eq hreadOnly d)]
    rfl

theorem inspectDocument_eq_ok {snapshot : DocumentSnapshot}
    (h : exec session.world (inspectDocument texts fuel) tr = (tr', .ok snapshot)) :
    ∃ id, eval (session.reply session.start) (documentId texts .activeDocument) = .ok id ∧
      Nonempty (RevisionRun texts session fuel id snapshot.revision tr.length tr'.length) ∧
      ∀ d, d.members.length < fuel → session.revisionOf texts id d = snapshot.revision →
        eval (session.reply d) (inspectDocument texts fuel) =
          .ok { snapshot with entityCount := d.members.length } := by
  obtain ⟨tr₁, document, hdocument, h⟩ := exec_bind_eq_ok.mp h
  obtain rfl := requireDocument_eq_ok hdocument
  obtain ⟨tr₂, outcome, houtcome, h⟩ := exec_bind_eq_ok.mp h
  cases outcome with
  | error e =>
      dsimp only at h
      split at h <;> cases h
  | ok found =>
      cases h
      obtain ⟨id, hid, ⟨run⟩, heval⟩ := inspectConnected_eq_ok (exec_attempt_eq_ok.mp houtcome)
      refine ⟨id, hid, ⟨run.widen (exec_isPrefix hdocument).length_le (Nat.le_refl _)⟩, ?_⟩
      intro d hfuel hsame
      have hattempt : eval (session.reply d) (attempt (inspectConnected texts fuel .activeDocument)) =
          .ok (.ok { snapshot with entityCount := d.members.length }) := by
        rw [eval_attempt, heval d hfuel hsame]
      rw [inspectDocument, eval_bind_of (session.requireDocument_steady.eval_eq hdocument d), eval_bind_of hattempt]
      rfl

end Session

end

end CadHarness.Com
