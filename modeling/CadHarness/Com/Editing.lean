import CadHarness.Com.SemanticRead

/-!
# A drawing under edit

A document whose user creates, changes and deletes entities between the calls of a reader. Handles are never
used again.
-/

namespace CadHarness.Com
open CadHarness.Lib CadHarness.Domain CadHarness.Drawing Prog

noncomputable section

/-- What an entity answers for its properties, but for its handle. -/
structure EntityState where
  text : String → Except Stop String
  bool : String → Except Stop Bool
  number : String → Except Stop ℝ
  point : String → Except Stop Point
  numbers : String → Except Stop (List ℝ)
  query : String → List Variant → Except Stop ℝ

/-- The entities of model space, under the numbers of their handles. -/
@[ext] structure ModelSpace where
  entities : Nat → Option EntityState
  issued : Nat
  bounded : ∀ n, issued ≤ n → entities n = none

namespace ModelSpace

/-- The numbers of the entities, in the order of their creation. -/
def members (d : ModelSpace) : List Nat := (List.range d.issued).filter (fun n => (d.entities n).isSome)

/-- The first entity from a number on. -/
def firstFrom (d : ModelSpace) (bound : Nat) : Option Nat := d.members.find? (fun n => bound ≤ n)

end ModelSpace

/-- What a user does to an entity: move it, reshape it or put it on another layer is to change it. -/
inductive Edit where
  | create (state : EntityState)
  | change (n : Nat) (state : EntityState)
  | delete (n : Nat)

namespace Edit

theorem bounded_create (d : ModelSpace) (state : EntityState) (n : Nat) (h : d.issued + 1 ≤ n) :
    Function.update d.entities d.issued (some state) n = none := by
  rw [Function.update_of_ne (by omega)]
  exact d.bounded n (by omega)

theorem bounded_change (d : ModelSpace) (m : Nat) (state : EntityState) (n : Nat) (h : d.issued ≤ n) :
    Function.update d.entities m ((d.entities m).map (fun _ => state)) n = none := by
  by_cases hn : n = m
  · subst hn
    simp [d.bounded n h]
  · rw [Function.update_of_ne hn]
    exact d.bounded n h

theorem bounded_delete (d : ModelSpace) (m n : Nat) (h : d.issued ≤ n) :
    Function.update d.entities m none n = none := by
  by_cases hn : n = m
  · rw [hn, Function.update_self]
  · rw [Function.update_of_ne hn]
    exact d.bounded n h

def apply (e : Edit) (d : ModelSpace) : ModelSpace :=
  match e with
  | create state => ⟨Function.update d.entities d.issued (some state), d.issued + 1, bounded_create d state⟩
  | change n state =>
      ⟨Function.update d.entities n ((d.entities n).map (fun _ => state)), d.issued, bounded_change d n state⟩
  | delete n => ⟨Function.update d.entities n none, d.issued, bounded_delete d n⟩

@[simp] theorem entities_create (d : ModelSpace) (state : EntityState) (n : Nat) :
    ((create state).apply d).entities n = if n = d.issued then some state else d.entities n :=
  Function.update_apply _ _ _ _

@[simp] theorem entities_change (d : ModelSpace) (m : Nat) (state : EntityState) (n : Nat) :
    ((change m state).apply d).entities n = if n = m then (d.entities m).map (fun _ => state) else d.entities n :=
  Function.update_apply _ _ _ _

@[simp] theorem entities_delete (d : ModelSpace) (m n : Nat) :
    ((delete m).apply d).entities n = if n = m then none else d.entities n :=
  Function.update_apply _ _ _ _

end Edit

/-- A user who edits between the calls, and everything else about the document, which stays as it is. -/
structure Session where
  start : ModelSpace
  /-- the edits after each call -/
  edits : Nat → List Edit
  handleText : Nat → String
  rest : (o : ComOp) → Except Stop o.Answer
  /-- the other collections, and their items -/
  collections : ∀ {member object}, rest (.getObject .activeDocument member) = .ok object →
    ∃ name, object = .collectionObject name
  items : ∀ {name previous object}, rest (.next (.collectionObject name) previous) = .ok (some object) →
    ∃ index, object = .itemObject name index

namespace Session

variable (session : Session)

/-- The model space at a call. -/
def stateAt : Nat → ModelSpace
  | 0 => session.start
  | t + 1 => (session.edits t).foldl (fun d e => e.apply d) (stateAt t)

/-- What an entity of the model space answers, if it is there. -/
def ofEntity {α : Type} (d : ModelSpace) (n : Nat) (f : EntityState → Except Stop α) : Except Stop α :=
  match d.entities n with
  | some state => f state
  | none => .error (.raised comError)

theorem ofEntity_of_eq_some {α : Type} {d : ModelSpace} {n : Nat} {state : EntityState}
    (h : d.entities n = some state) (f : EntityState → Except Stop α) : ofEntity d n f = f state := by
  rw [ofEntity, h]

/-- The bound of an enumeration that has come to this object. -/
def boundAfter : Option ComObject → Nat
  | some (.entityObject n) => n + 1
  | _ => 0

/-- What the document answers while the model space is in this state. -/
def reply (d : ModelSpace) : (o : ComOp) → Except Stop o.Answer
  | .getObject .activeDocument "ModelSpace" => .ok .spaceObject
  | .getInteger .spaceObject "Count" => .ok d.members.length
  | .next .spaceObject previous => .ok ((d.firstFrom (boundAfter previous)).map .entityObject)
  | .getText (.entityObject n) member =>
      ofEntity d n (fun state => if member = "Handle" then .ok (session.handleText n) else state.text member)
  | .getBool (.entityObject n) member => ofEntity d n (fun state => state.bool member)
  | .getNumber (.entityObject n) member => ofEntity d n (fun state => state.number member)
  | .getPoint (.entityObject n) member => ofEntity d n (fun state => state.point member)
  | .getNumbers (.entityObject n) member => ofEntity d n (fun state => state.numbers member)
  | .query (.entityObject n) member arguments => ofEntity d n (fun state => state.query member arguments)
  | o => session.rest o

/-- The document in which the user edits: each call is answered from the state of its time. -/
def world : World comSig := fun tr o => session.reply (session.stateAt tr.length) o

end Session

end

end CadHarness.Com
