import CadHarness.Lib.Numerals
import Mathlib.Algebra.Order.Floor.Ring
import Mathlib.Data.List.DropRight
import Mathlib.Data.Real.Archimedean

/-!
# Text of Python

`str.strip` and `str.rstrip`.
-/

namespace CadHarness.Lib.Python

/-- `str.isspace` of one character -/
def isSpace (c : Char) : Bool :=
  (0x09 ≤ c.toNat && c.toNat ≤ 0x0D) || (0x1C ≤ c.toNat && c.toNat ≤ 0x20) || c.toNat = 0x85 || c.toNat = 0xA0 ||
  c.toNat = 0x1680 || (0x2000 ≤ c.toNat && c.toNat ≤ 0x200A) || c.toNat = 0x2028 || c.toNat = 0x2029 ||
  c.toNat = 0x202F || c.toNat = 0x205F || c.toNat = 0x3000

def stripChars (cs : List Char) : List Char := (cs.dropWhile isSpace).rdropWhile isSpace

def strip (text : String) : String := String.ofList (stripChars text.toList)

end CadHarness.Lib.Python

/-!
## Numbers as text

`float(text)` of Python for the numerals of finite numbers in ASCII digits: white space around, a sign, digits
with single underscores between them, a point and an exponent. And the text of a number with six decimals.
-/

namespace CadHarness.Lib.FloatText

/-- The digits that follow a digit, and the rest. -/
def digitsAfter : List Char → List Char × List Char
  | '_' :: c :: cs =>
      if c.isDigit then
        let (digits, rest) := digitsAfter cs
        (c :: digits, rest)
      else ([], '_' :: c :: cs)
  | c :: cs =>
      if c.isDigit then
        let (digits, rest) := digitsAfter cs
        (c :: digits, rest)
      else ([], c :: cs)
  | [] => ([], [])

def digitPart : List Char → List Char × List Char
  | c :: cs =>
      if c.isDigit then
        let (digits, rest) := digitsAfter cs
        (c :: digits, rest)
      else ([], c :: cs)
  | [] => ([], [])

def natural (digits : List Char) : Nat :=
  digits.foldl (fun n c => 10 * n + (c.toNat - '0'.toNat)) 0

/-- A sign, if there is one. -/
def sign : List Char → Int × List Char
  | '-' :: cs => (-1, cs)
  | '+' :: cs => (1, cs)
  | cs => (1, cs)

def exponent : List Char → Option Int
  | [] => some 0
  | c :: cs =>
      if c = 'e' ∨ c = 'E' then
        let (s, cs) := sign cs
        match digitPart cs with
        | ([], _) | (_, _ :: _) => none
        | (digits, []) => some (s * natural digits)
      else none

/-- The sign, the digits before and after the point, and the exponent. -/
def parse (text : String) : Option (Int × List Char × List Char × Int) :=
  let (s, cs) := sign (Python.stripChars text.toList)
  let (whole, cs) := digitPart cs
  let (fraction, cs) := match cs with
    | '.' :: cs => digitPart cs
    | cs => ([], cs)
  if whole = [] ∧ fraction = [] then none
  else (exponent cs).map fun e => (s, whole, fraction, e)

noncomputable def read (text : String) : Option ℝ :=
  (parse text).map fun (s, whole, fraction, e) =>
    s * natural (whole ++ fraction) * 10 ^ (e - fraction.length)

example : parse " -1_0.25e3\n" = some (-1, ['1', '0'], ['2', '5'], 3) := by decide +kernel

/-! ## Writing -/

/-- The nearest integer, the even one of two. -/
noncomputable def nearestEven (x : ℝ) : Int :=
  open Classical in
  if Int.fract x < 1 / 2 ∨ (Int.fract x = 1 / 2 ∧ Even ⌊x⌋) then ⌊x⌋ else ⌊x⌋ + 1

/-- `f"{value:.2f}"`, with that many decimals -/
noncomputable def fixed (decimals : Nat) (x : ℝ) : String :=
  open Classical in
  let n := (nearestEven (|x| * 10 ^ decimals)).toNat
  String.ofList ((if x < 0 then ['-'] else []) ++ Nat.toDigits 10 (n / 10 ^ decimals) ++
    '.' :: List.leftpad decimals '0' (Nat.toDigits 10 (n % 10 ^ decimals)))

/-- The number that `fixed` writes. -/
noncomputable def rounded (decimals : Nat) (x : ℝ) : ℝ :=
  open Classical in
  (if x < 0 then -1 else 1) * (nearestEven (|x| * 10 ^ decimals)).toNat / 10 ^ decimals

/-- `f"{value:.6f}"` of a number of millionths, its sign apart -/
def sixDecimals (millionths : Nat) : List Char :=
  Nat.toDigits 10 (millionths / 1000000) ++ '.' :: List.leftpad 6 '0' (Nat.toDigits 10 (millionths % 1000000))

/-- `f"{value:.6f}".rstrip("0").rstrip(".")` -/
noncomputable def short (x : ℝ) : String :=
  open Classical in
  let digits := sixDecimals (nearestEven (|x| * 1000000)).toNat
  String.ofList ((if x < 0 then ['-'] else []) ++ (digits.rdropWhile (· = '0')).rdropWhile (· = '.'))

end CadHarness.Lib.FloatText
