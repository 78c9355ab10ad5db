import CadHarness.Geometry.Predicates
import CadHarness.Lib.KeyOrder
import CadHarness.Lib.Matching
import CadHarness.Lib.SortBy

/-!
# Comparison of golden evidence

`cad_harness.golden_comparison`: what a drawing or a report means is compared, not its bytes. The data are those that
`_to_data` returns. `casefold` is a parameter.
-/

namespace CadHarness.Golden
open CadHarness.Geometry CadHarness.Lib

/-- An integer or a float. -/
inductive Number where
  | int (n : ℤ)
  | float (x : ℝ)
  | inf (negative : Bool)
  | nan

inductive Data where
  | null
  | bool (b : Bool)
  | num (n : Number)
  | str (s : String)
  | list (xs : List Data)
  | mapping (ms : List (String × Data))

structure GoldenComparisonConfig where
  tolerance : ToleranceProfile := {}
  ignoredFields : List String :=
    ["created_at", "generated_at", "timestamp", "updated_at", "entity_ref", "entity_refs", "handle", "handles"]

structure GoldenMismatch where
  path : String
  expected : Data
  actual : Data
  reason : String

def ORDER_INSENSITIVE_COLLECTIONS : List String := ["entities", "parts", "hole_groups", "excluded_contours", "findings"]

def EXACT_NUMERIC_FIELDS : List String :=
  ["count", "entity_count", "pierce_count", "quantity", "blocking_count", "error_count", "warning_count", "info_count"]

/-- How a value that is expected compares with an actual one at a path. -/
abbrev Comparer := Data → String → List GoldenMismatch

variable (casefold : String → String) (config : GoldenComparisonConfig)

def isIgnoredField (key : String) : Bool :=
  let lowered := casefold key
  config.ignoredFields.contains lowered || lowered.endsWith "_at" || lowered.endsWith "_timestamp" ||
    lowered.endsWith "_handle" || lowered.endsWith "_handles" || lowered.endsWith "_entity_ref" ||
    lowered.endsWith "_entity_refs"

/-- The part of a path after its last dot, up to an index. -/
def pathLeaf (path : String) : String :=
  casefold (String.ofList ((path.toList.reverse.takeWhile (· ≠ '.')).reverse.takeWhile (· ≠ '[')))

/-! ## Atoms -/

noncomputable section
open Classical

namespace Number

/-- `==` -/
def Eq : Number → Number → Prop
  | .int m, .int n => m = n
  | .int m, .float x | .float x, .int m => (m : ℝ) = x
  | .float x, .float y => x = y
  | .inf a, .inf b => a = b
  | _, _ => False

def isIntegral : Number → Bool
  | .int _ => true
  | _ => false

/-- The value of a finite number. -/
def real? : Number → Option ℝ
  | .int n => some n
  | .float x => some x
  | _ => none

end Number

def NumbersClose (expected actual : Number) (path : String) : Prop :=
  let leaf := pathLeaf casefold path
  if leaf ∈ EXACT_NUMERIC_FIELDS ∨ (expected.isIntegral ∧ actual.isIntegral) then expected.Eq actual
  else
    match expected.real?, actual.real? with
    | some x, some y =>
        if "angle".toList <:+: leaf.toList ∨ leaf.endsWith "_deg" then config.tolerance.AngleCloseDeg x y
        else if "area".toList <:+: leaf.toList ∨ leaf.endsWith "_mm2" then config.tolerance.AreaClose x y
        else config.tolerance.LengthClose x y
    | _, _ => expected.Eq actual

/-- `==` where one of the values is no collection and no number. A boolean is a number to it. -/
def AtomEq : Data → Data → Prop
  | .null, .null => True
  | .bool a, .bool b => a = b
  | .bool b, .num n | .num n, .bool b => n.Eq (.int (if b then 1 else 0))
  | .str s, .str t => s = t
  | _, _ => False

def compareAtoms : Data → Comparer
  | .num x, .num y, path =>
      if NumbersClose casefold config x y path then []
      else [⟨path, .num x, .num y, "numeric value outside tolerance"⟩]
  | expected, actual, path => if AtomEq expected actual then [] else [⟨path, expected, actual, "value differs"⟩]

/-! ## Collections -/

def isStr : Data → Bool
  | .str _ => true
  | _ => false

def referencesOnly : Data → Data → Bool
  | .list xs, .list ys => xs.all isStr && ys.all isStr
  | _, _ => false

/-- What a field of two mappings gives. A field that is expected comes with its comparer. -/
def compareField (path key : String) : Option (Data × Comparer) → Option Data → List GoldenMismatch
  | none, none => []
  | none, some actual => [⟨path ++ "." ++ key, .str "<missing>", actual, "unexpected field"⟩]
  | some (expected, _), none => [⟨path ++ "." ++ key, expected, .str "<missing>", "missing field"⟩]
  | some (expected, compareExpected), some actual =>
      if pathLeaf casefold path = "evidence" ∧ referencesOnly expected actual then []
      else compareExpected actual (path ++ "." ++ key)

/-- The fields that are compared. -/
def fields {α : Type} (ms : List (String × α)) : List (String × α) := ms.filter fun m => !isIgnoredField casefold config m.1

def compareMappings (expected : List (String × Data × Comparer)) (actual : List (String × Data)) (path : String) :
    List GoldenMismatch :=
  let expectedFields := fields casefold config expected
  let actualFields := fields casefold config actual
  (sortBy codePoints (expectedFields.map Prod.fst ++ actualFields.map Prod.fst).dedup).flatMap fun key =>
    compareField casefold path key (expectedFields.lookup key) (actualFields.lookup key)

def sizeDiffers (expected : List (Data × Comparer)) (actual : List Data) (path : String) : GoldenMismatch :=
  ⟨path, .num (.int expected.length), .num (.int actual.length), "collection size differs"⟩

def compareOrdered (expected : List (Data × Comparer)) (actual : List Data) (path : String) : List GoldenMismatch :=
  (if expected.length ≠ actual.length then [sizeDiffers expected actual path] else []) ++
    (expected.zip actual).zipIdx.flatMap fun item =>
      item.1.1.2 item.1.2 (path ++ "[" ++ toString item.2 ++ "]")

/-- The actual items with which an expected one compares without mismatch. -/
def edges (expected : List (Data × Comparer)) (actual : List Data) (path : String) (left : Nat) : List Nat :=
  match expected[left]? with
  | some item => (actual.zipIdx.filter fun other => (item.2 other.1 (path ++ "[*]")).isEmpty).map Prod.snd
  | none => []

def compareUnordered (expected : List (Data × Comparer)) (actual : List Data) (path : String) : List GoldenMismatch :=
  if expected.length ≠ actual.length then [sizeDiffers expected actual path]
  else
    let state := Matching.matchAll (edges expected actual path) expected.length actual.length
    if state.unmatched = [] then []
    else
      let unmatchedActual := (List.range actual.length).filter fun right => state.owners right = none
      let mismatches := (state.unmatched.zip unmatchedActual).flatMap fun pair =>
        match expected[pair.1]?, actual[pair.2]? with
        | some item, some other => item.2 other (path ++ "[semantic:" ++ toString pair.1 ++ "]")
        | _, _ => []
      if mismatches = [] then
        [⟨path, .list (state.unmatched.filterMap fun left => expected[left]?.map Prod.fst),
          .list (unmatchedActual.filterMap fun right => actual[right]?), "semantic collection members differ"⟩]
      else mismatches

mutual
def compare : Data → Comparer
  | .mapping ms, .mapping ns, path => compareMappings casefold config (memberComparers ms) ns path
  | .list xs, .list ys, path =>
      if pathLeaf casefold path ∈ ORDER_INSENSITIVE_COLLECTIONS then compareUnordered (comparers xs) ys path
      else compareOrdered (comparers xs) ys path
  | expected, actual, path => compareAtoms casefold config expected actual path

def comparers : List Data → List (Data × Comparer)
  | [] => []
  | x :: xs => (x, compare x) :: comparers xs

def memberComparers : List (String × Data) → List (String × Data × Comparer)
  | [] => []
  | (k, x) :: ms => (k, x, compare x) :: memberComparers ms
end

def extractEntities : Data → Except String (List Data)
  | .mapping ms =>
      match ms.lookup "entities" with
      | some (.list xs) => .ok xs
      | _ => .error "Semantic entity payload must contain an 'entities' sequence"
  | .list xs => .ok xs
  | _ => .error "Semantic entity payload must be a sequence or an entities mapping"

def compareSemanticEntities (expected actual : Data) : Except String (List GoldenMismatch) := do
  let expectedEntities ← extractEntities expected
  let actualEntities ← extractEntities actual
  return compare casefold config (.mapping [("entities", .list expectedEntities)])
    (.mapping [("entities", .list actualEntities)]) "$"

def compareTakeoffReports (expected actual : Data) : List GoldenMismatch := compare casefold config expected actual "$"

end

end CadHarness.Golden
