import Mathlib.Data.List.Basic

/-!
# JSON values

The values of a JSON document, over a type `ν` of numbers: a decoded document carries the numbers of
its language, a document to be written carries the text of each number. An object keeps its members
in the order in which they stand.
-/

namespace CadHarness.Lib

/-- A JSON value whose numbers are of type `ν`. -/
inductive Json (ν : Type) where
  | null
  | bool (b : Bool)
  | num (n : ν)
  | str (s : String)
  | arr (xs : List (Json ν))
  | obj (ms : List (String × Json ν))
  deriving Inhabited

namespace Json

variable {ν μ : Type}

/-! ## Equality -/

mutual
/-- Equality of JSON values is decidable. -/
def decEq [DecidableEq ν] : (a b : Json ν) → Decidable (a = b)
  | .null, .null => isTrue rfl
  | .bool a, .bool b => decidable_of_iff (a = b) (by simp)
  | .num a, .num b => decidable_of_iff (a = b) (by simp)
  | .str a, .str b => decidable_of_iff (a = b) (by simp)
  | .arr xs, .arr ys =>
      match decEqList xs ys with
      | isTrue h => isTrue (by rw [h])
      | isFalse h => isFalse (by simpa using h)
  | .obj ms, .obj ns =>
      match decEqMembers ms ns with
      | isTrue h => isTrue (by rw [h])
      | isFalse h => isFalse (by simpa using h)
  | .null, .bool _ | .null, .num _ | .null, .str _ | .null, .arr _ | .null, .obj _ => isFalse nofun
  | .bool _, .null | .bool _, .num _ | .bool _, .str _ | .bool _, .arr _ | .bool _, .obj _ =>
      isFalse nofun
  | .num _, .null | .num _, .bool _ | .num _, .str _ | .num _, .arr _ | .num _, .obj _ =>
      isFalse nofun
  | .str _, .null | .str _, .bool _ | .str _, .num _ | .str _, .arr _ | .str _, .obj _ =>
      isFalse nofun
  | .arr _, .null | .arr _, .bool _ | .arr _, .num _ | .arr _, .str _ | .arr _, .obj _ =>
      isFalse nofun
  | .obj _, .null | .obj _, .bool _ | .obj _, .num _ | .obj _, .str _ | .obj _, .arr _ =>
      isFalse nofun

def decEqList [DecidableEq ν] : (xs ys : List (Json ν)) → Decidable (xs = ys)
  | [], [] => isTrue rfl
  | [], _ :: _ | _ :: _, [] => isFalse nofun
  | x :: xs, y :: ys =>
      match decEq x y, decEqList xs ys with
      | isTrue h, isTrue h' => isTrue (by rw [h, h'])
      | isFalse h, _ => isFalse (fun he => h (List.cons.inj he).1)
      | _, isFalse h => isFalse (fun he => h (List.cons.inj he).2)

def decEqMembers [DecidableEq ν] : (ms ns : List (String × Json ν)) → Decidable (ms = ns)
  | [], [] => isTrue rfl
  | [], _ :: _ | _ :: _, [] => isFalse nofun
  | (k, x) :: ms, (l, y) :: ns =>
      match decEq x y, decEqMembers ms ns with
      | isTrue h, isTrue h' => decidable_of_iff (k = l) (by simp [h, h'])
      | isFalse h, _ => isFalse (fun he => h (Prod.mk.inj (List.cons.inj he).1).2)
      | _, isFalse h => isFalse (fun he => h (List.cons.inj he).2)
end

instance [DecidableEq ν] : DecidableEq (Json ν) := decEq

/-! ## Shape -/

def isObject : Json ν → Bool
  | .obj _ => true
  | _ => false

/-- The value of the first member of that name. -/
def get? : Json ν → String → Option (Json ν)
  | .obj ms, k => ms.lookup k
  | _, _ => none

mutual
/-- No object has two members of one name. -/
def DistinctKeys : Json ν → Prop
  | .null | .bool _ | .num _ | .str _ => True
  | .arr xs => DistinctKeysItems xs
  | .obj ms => (ms.map Prod.fst).Nodup ∧ DistinctKeysMembers ms

def DistinctKeysItems : List (Json ν) → Prop
  | [] => True
  | x :: xs => x.DistinctKeys ∧ DistinctKeysItems xs

def DistinctKeysMembers : List (String × Json ν) → Prop
  | [] => True
  | (_, x) :: ms => x.DistinctKeys ∧ DistinctKeysMembers ms
end

end Json

end CadHarness.Lib
