import CadHarness.Lib.JsonText
import CadHarness.Lib.KeyOrder
import CadHarness.Lib.Binary64

/-!
# Canonical JSON in the harness

`cad_harness.domain.canonical`: the bytes that the harness hashes for an operation plan.
-/

namespace CadHarness.Canonical
open CadHarness.Lib

/-! ## Numbers

The numbers of an operation plan in JSON mode, and how the two languages write them. -/

/-- A finite double. -/
abbrev Double := { x : Binary64 // x.IsFinite }

/-- A number of a plan in JSON mode. -/
inductive Number where
  | int (i : Int)
  | double (x : Double)

/-- The decimal exponents that are written in fixed notation. -/
structure Band where
  low : Int
  high : Int

def Band.Fixed (b : Band) (e : Int) : Prop := b.low ≤ e ∧ e < b.high

instance (b : Band) (e : Int) : Decidable (b.Fixed e) := inferInstanceAs (Decidable (_ ∧ _))

/-- The sign of a number, if it is negative. -/
def sign (neg : Bool) : List Char := if neg then ['-'] else []

/-- The notations of a decimal: fixed with a point, or scientific. -/
def decimalText (b : Band) (d : Decimal) : List Char :=
  if b.Fixed d.leading then (if '.' ∈ d.fixed then d.fixed else d.fixed ++ ['.', '0'])
  else d.mantissa ++ 'e' :: Decimal.exponent d.leading

/-- Exponents below -4 and from 16 on are written out. -/
def pythonBand : Band := ⟨-4, 16⟩

/-! ## Text of a number is a number -/

theorem isNumberChar_of_isDigit {c : Char} (h : c.isDigit) : isNumberChar c := by
  simp [isNumberChar, h]

theorem isNumberChar_sign {neg : Bool} : ∀ c ∈ sign neg, isNumberChar c := by
  intro c hc
  cases neg with
  | false => cases hc
  | true => rw [List.mem_singleton.mp hc]; decide

theorem isNumberChar_fixed {d : Decimal} {c : Char} (h : c ∈ d.fixed) : isNumberChar c := by
  unfold Decimal.fixed at h
  split_ifs at h
  · exact isNumberChar_of_isDigit (Decimal.isDigit_of_mem_integral c h)
  · simp only [List.mem_append, List.mem_cons] at h
    rcases h with h | rfl | h
    · exact isNumberChar_of_isDigit (Decimal.isDigit_of_mem_digits (List.mem_of_mem_take h))
    · decide
    · exact isNumberChar_of_isDigit (Decimal.isDigit_of_mem_digits (List.mem_of_mem_drop h))
  · simp only [List.mem_append, List.mem_cons] at h
    rcases h with rfl | rfl | h | h
    · decide
    · decide
    · exact isNumberChar_of_isDigit (Decimal.isDigit_of_mem_zeros h)
    · exact isNumberChar_of_isDigit (Decimal.isDigit_of_mem_digits h)

theorem isNumberChar_mantissa {d : Decimal} {c : Char} (h : c ∈ d.mantissa) : isNumberChar c := by
  unfold Decimal.mantissa at h
  split_ifs at h
  · exact isNumberChar_of_isDigit (Decimal.isDigit_of_mem_digits h)
  · simp only [List.mem_append, List.mem_cons] at h
    rcases h with h | rfl | h
    · exact isNumberChar_of_isDigit (Decimal.isDigit_of_mem_digits (List.mem_of_mem_take h))
    · decide
    · exact isNumberChar_of_isDigit (Decimal.isDigit_of_mem_digits (List.mem_of_mem_drop h))

theorem isNumberChar_exponent {e : Int} {c : Char} (h : c ∈ Decimal.exponent e) : isNumberChar c := by
  unfold Decimal.exponent Decimal.twoDigits List.leftpad at h
  rcases List.mem_cons.mp h with rfl | h
  · split_ifs <;> decide
  · rcases List.mem_append.mp h with h | h
    · exact isNumberChar_of_isDigit (Decimal.isDigit_of_mem_zeros h)
    · exact isNumberChar_of_isDigit (Nat.isDigit_of_mem_toDigits (by decide) (by decide) h)

theorem isNumberChar_decimalText {b : Band} {d : Decimal} {c : Char} (h : c ∈ decimalText b d) :
    isNumberChar c := by
  unfold decimalText at h
  split_ifs at h
  · exact isNumberChar_fixed h
  · rcases List.mem_append.mp h with h | h
    · exact isNumberChar_fixed h
    · simp only [List.mem_cons, List.not_mem_nil, or_false] at h
      rcases h with rfl | rfl <;> decide
  · rcases List.mem_append.mp h with h | h
    · exact isNumberChar_mantissa h
    · rcases List.mem_cons.mp h with rfl | h
      · decide
      · exact isNumberChar_exponent h

theorem decimalText_ne_nil (b : Band) (d : Decimal) : decimalText b d ≠ [] := by
  unfold decimalText
  split_ifs with _ h
  · exact List.ne_nil_of_mem h
  · simp
  · simp

/-- Text of a number, with its sign. -/
def signed (neg : Bool) (s : List Char) (hne : s ≠ []) (hs : ∀ c ∈ s, isNumberChar c) : NumberText where
  text := sign neg ++ s
  nonempty := by simp [hne]
  chars c hc := by
    rcases List.mem_append.mp hc with hc | hc
    · exact isNumberChar_sign c hc
    · exact hs c hc

/-- `int.__repr__`, and `long.ToString` in the invariant culture. -/
def integerText (i : Int) : NumberText :=
  signed (i < 0) (Nat.toDigits 10 i.natAbs) Nat.toDigits_ne_nil
    (fun _ h => isNumberChar_of_isDigit (Nat.isDigit_of_mem_toDigits (by decide) (by decide) h))

/-- `float.__repr__` -/
def floatRepr (x : Binary64) : NumberText :=
  signed x.neg (decimalText pythonBand x.shortest) (decimalText_ne_nil _ _)
    (fun _ => isNumberChar_decimalText)

/-! ## Plans -/

/-- An operation plan in JSON mode. A `dict` has no key twice. -/
structure OperationPlan where
  json : Json Number
  distinct : json.DistinctKeys

def floatPrecision : Nat := 9

def volatileFields : List String :=
  ["plan_hash", "created_at", "updated_at", "request_id", "trace_id", "audit_event_id"]

def planIdentityFields : List String := ["plan_id", "job_id"]

/-! ## Floats -/

/-- `round(value, FLOAT_PRECISION)`: the float nearest to the value rounded in decimal. -/
def round (x : Binary64) : Binary64 :=
  .nearest x.neg (rint (x.mag * 10 ^ floatPrecision) / 10 ^ floatPrecision)

theorem mag_lt_of_exp_neg {x : Binary64} (h : x.exp < 0) : x.mag < 2 ^ 53 := by
  have hmant : (x.mant : ℚ) < 2 ^ 53 := by exact_mod_cast x.mant_lt
  have hpow : (2 : ℚ) ^ x.exp ≤ 1 := zpow_le_one_of_nonpos₀ (by norm_num) h.le
  calc x.mag ≤ x.mant * 1 := mul_le_mul_of_nonneg_left hpow (Nat.cast_nonneg _)
    _ < 2 ^ 53 := by rw [mul_one]; exact hmant

/-- An integer is rounded to itself. -/
theorem round_of_exp_nonneg {x : Binary64} (h : 0 ≤ x.exp) : round x = x := by
  have hmag : x.mag = (x.mant * 2 ^ x.exp.toNat : Nat) := by
    obtain ⟨n, hn⟩ := Int.eq_ofNat_of_zero_le h
    rw [Binary64.mag, hn, zpow_natCast, Int.toNat_natCast]
    push_cast
    rfl
  have hscaled : x.mag * 10 ^ floatPrecision =
      ((x.mant * 2 ^ x.exp.toNat * 10 ^ floatPrecision : Nat) : ℚ) := by
    rw [hmag]
    push_cast
    rfl
  rw [round, hscaled, rint_natCast, Int.cast_natCast, ← hscaled,
    mul_div_cancel_right₀ _ (by norm_num [floatPrecision]), Binary64.nearest_mag]

theorem round_isFinite {x : Binary64} (h : x.IsFinite) : (round x).IsFinite := by
  by_cases hexp : 0 ≤ x.exp
  · rwa [round_of_exp_nonneg hexp]
  · have hmag : x.mag < 2 ^ 53 := mag_lt_of_exp_neg (by omega)
    have hrint : rint (x.mag * 10 ^ floatPrecision) ≤ (2 ^ 53 * 10 ^ floatPrecision : Int) := by
      apply rint_le
      push_cast
      exact mul_le_mul_of_nonneg_right hmag.le (by positivity)
    have hrint' : (rint (x.mag * 10 ^ floatPrecision) : ℚ) ≤ 2 ^ 53 * 10 ^ floatPrecision := by
      exact_mod_cast hrint
    apply Binary64.nearest_isFinite
    rw [div_lt_iff₀ (by positivity)]
    calc (rint (x.mag * 10 ^ floatPrecision) : ℚ) ≤ 2 ^ 53 * 10 ^ floatPrecision := hrint'
      _ < 2 ^ 1000 * 10 ^ floatPrecision :=
        mul_lt_mul_of_pos_right (pow_lt_pow_right₀ (by norm_num) (by norm_num)) (by positivity)

/-- `0.0 if rounded == 0 else rounded` -/
def normalizeFloat (x : Double) : Double :=
  if (round x).mant = 0 then ⟨.zero false, by decide⟩ else ⟨round x, round_isFinite x.2⟩

/-! ## Values -/

section
variable {ν : Type}

mutual
/-- Drop the fields at every depth. -/
def stripVolatile (fields : List String) : Json ν → Json ν
  | .null => .null
  | .bool b => .bool b
  | .num n => .num n
  | .str s => .str s
  | .arr xs => .arr (stripVolatileItems fields xs)
  | .obj ms => .obj (stripVolatileMembers fields ms)

def stripVolatileItems (fields : List String) : List (Json ν) → List (Json ν)
  | [] => []
  | x :: xs => stripVolatile fields x :: stripVolatileItems fields xs

def stripVolatileMembers (fields : List String) : List (String × Json ν) → List (String × Json ν)
  | [] => []
  | (k, x) :: ms =>
      if k ∈ fields then stripVolatileMembers fields ms
      else (k, stripVolatile fields x) :: stripVolatileMembers fields ms
end

end

def normalizeNumber : Number → Number
  | .int i => .int i
  | .double x => .double (normalizeFloat x)

mutual
/-- Round the floats, and sort the members of every object. -/
def normalize : Json Number → Json Number
  | .null => .null
  | .bool b => .bool b
  | .num n => .num (normalizeNumber n)
  | .str s => .str s
  | .arr xs => .arr (normalizeItems xs)
  | .obj ms => .obj (sortOn codePoints (normalizeMembers ms))

def normalizeItems : List (Json Number) → List (Json Number)
  | [] => []
  | x :: xs => normalize x :: normalizeItems xs

def normalizeMembers : List (String × Json Number) → List (String × Json Number)
  | [] => []
  | (k, x) :: ms => (k, normalize x) :: normalizeMembers ms
end

def numberRepr : Number → NumberText
  | .int i => integerText i
  | .double x => floatRepr x

mutual
/-- What `json.dumps` writes, with `sort_keys`. -/
def dumps : Json Number → Json NumberText
  | .null => .null
  | .bool b => .bool b
  | .num n => .num (numberRepr n)
  | .str s => .str s
  | .arr xs => .arr (dumpsItems xs)
  | .obj ms => .obj (sortOn codePoints (dumpsMembers ms))

def dumpsItems : List (Json Number) → List (Json NumberText)
  | [] => []
  | x :: xs => dumps x :: dumpsItems xs

def dumpsMembers : List (String × Json Number) → List (String × Json NumberText)
  | [] => []
  | (k, x) :: ms => (k, dumps x) :: dumpsMembers ms
end

def canonicalJson (value : Json Number) : String := .ofList (dumps (normalize value)).render

/-- What `compute_plan_hash` hashes. -/
def planHashInput (plan : OperationPlan) : ByteArray :=
  (canonicalJson (stripVolatile (volatileFields ++ planIdentityFields) plan.json)).toUTF8

end CadHarness.Canonical
