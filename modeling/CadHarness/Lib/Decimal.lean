import Mathlib.Algebra.Order.Field.Power
import Mathlib.Data.List.TakeWhile
import Mathlib.Data.Rat.Floor
import Mathlib.Tactic.FieldSimp
import Mathlib.Tactic.Ring

/-!
# Decimal text

Decimal numbers, written in fixed or scientific notation, and what such text reads as. Reading does not
depend on the notation chosen, so text of two notations is the same only if the numbers are.
-/

namespace CadHarness.Lib

/-- The number `coeff * 10 ^ exp`. -/
structure Decimal where
  coeff : Nat
  exp : Int
  deriving DecidableEq

namespace Decimal

def value (d : Decimal) : ℚ := d.coeff * 10 ^ d.exp

def digits (d : Decimal) : List Char := Nat.toDigits 10 d.coeff

/-- The exponent of the leading digit. -/
def leading (d : Decimal) : Int := d.exp + d.digits.length - 1

/-- Drop zeros at the end of the coefficient, at most `fuel` of them. -/
def strip (d : Decimal) : Nat → Decimal
  | 0 => d
  | fuel + 1 => if d.coeff ≠ 0 ∧ d.coeff % 10 = 0 then strip ⟨d.coeff / 10, d.exp + 1⟩ fuel else d

@[simp] theorem strip_value (d : Decimal) (fuel : Nat) : (d.strip fuel).value = d.value := by
  induction fuel generalizing d with
  | zero => rfl
  | succ fuel ih =>
      unfold strip
      split_ifs with h
      · have hcoeff : (d.coeff : ℚ) = 10 * (d.coeff / 10 : Nat) := by
          exact_mod_cast (Nat.mul_div_cancel' (Nat.dvd_of_mod_eq_zero h.2)).symm
        rw [ih, value, value, hcoeff, zpow_add₀ (by norm_num)]
        ring
      · rfl

theorem strip_coeff_ne_zero {d : Decimal} (h : d.coeff ≠ 0) (fuel : Nat) : (d.strip fuel).coeff ≠ 0 := by
  induction fuel generalizing d with
  | zero => exact h
  | succ fuel ih =>
      unfold strip
      split_ifs with h'
      · exact ih (d := ⟨d.coeff / 10, d.exp + 1⟩) (by simp only; omega)
      · exact h

/-! ## Writing -/

/-- Fixed notation, without a point when the number is an integer. -/
def fixed (d : Decimal) : List Char :=
  if 0 ≤ d.exp then d.digits ++ List.replicate d.exp.toNat '0'
  else if 0 ≤ d.leading then
    d.digits.take (d.leading + 1).toNat ++ '.' :: d.digits.drop (d.leading + 1).toNat
  else '0' :: '.' :: (List.replicate (-d.leading - 1).toNat '0' ++ d.digits)

/-- The digits with a point after the first, if there are more. -/
def mantissa (d : Decimal) : List Char :=
  if d.digits.length = 1 then d.digits else d.digits.take 1 ++ '.' :: d.digits.drop 1

/-- A number of at least two digits. -/
def twoDigits (n : Nat) : List Char := List.leftpad 2 '0' (Nat.toDigits 10 n)

/-- A signed exponent. -/
def exponent (e : Int) : List Char := (if 0 ≤ e then '+' else '-') :: twoDigits e.natAbs

/-! ## Reading -/

/-- The value of digits with at most one point among them. -/
def readFixed (s : List Char) : ℚ :=
  Nat.ofDigitChars 10 (s.filter Char.isDigit) 0 / 10 ^ ((s.dropWhile (· != '.')).length - 1)

/-- The value of an integer. -/
def readInt : List Char → Int
  | '-' :: s => -(Nat.ofDigitChars 10 s 0 : Int)
  | '+' :: s => Nat.ofDigitChars 10 s 0
  | s => Nat.ofDigitChars 10 s 0

/-- The value of a number in fixed or scientific notation. -/
def read (s : List Char) : ℚ :=
  readFixed (s.takeWhile (· != 'e')) * 10 ^ readInt ((s.dropWhile (· != 'e')).drop 1)

theorem isDigit_of_mem_digits {d : Decimal} {c : Char} (h : c ∈ d.digits) : c.isDigit :=
  Nat.isDigit_of_mem_toDigits (by decide) (by decide) h

theorem digits_ne_nil (d : Decimal) : d.digits ≠ [] := Nat.toDigits_ne_nil

theorem digits_length_pos (d : Decimal) : 0 < d.digits.length := Nat.length_toDigits_pos

theorem filter_isDigit {s : List Char} (h : ∀ c ∈ s, c.isDigit) : s.filter Char.isDigit = s :=
  List.filter_eq_self.mpr h

theorem dropWhile_point {s t : List Char} (h : ∀ c ∈ s, c.isDigit) :
    (s ++ '.' :: t).dropWhile (· != '.') = '.' :: t := by
  rw [List.dropWhile_append_of_pos]
  · simp
  · intro c hc
    have hdigit := h c hc
    have hne : c ≠ '.' := by
      rintro rfl
      exact absurd hdigit (by decide)
    simpa using hne

theorem dropWhile_digits {s : List Char} (h : ∀ c ∈ s, c.isDigit) : s.dropWhile (· != '.') = [] := by
  rw [List.dropWhile_eq_nil_iff]
  intro c hc
  have hdigit := h c hc
  have hne : c ≠ '.' := by
    rintro rfl
    exact absurd hdigit (by decide)
  simpa using hne

/-- Digits on both sides of a point. -/
theorem readFixed_point {s t : List Char} (hs : ∀ c ∈ s, c.isDigit) (ht : ∀ c ∈ t, c.isDigit) :
    readFixed (s ++ '.' :: t) = Nat.ofDigitChars 10 (s ++ t) 0 / 10 ^ t.length := by
  have hfilter : (s ++ '.' :: t).filter Char.isDigit = s ++ t := by
    rw [List.filter_append, List.filter_cons_of_neg (by decide), filter_isDigit hs, filter_isDigit ht]
  rw [readFixed, hfilter, dropWhile_point hs]
  rfl

theorem readFixed_digits {s : List Char} (hs : ∀ c ∈ s, c.isDigit) :
    readFixed s = Nat.ofDigitChars 10 s 0 := by
  rw [readFixed, filter_isDigit hs, dropWhile_digits hs]
  simp

theorem ofDigitChars_digits (d : Decimal) : Nat.ofDigitChars 10 d.digits 0 = d.coeff :=
  Nat.ofDigitChars_ten_toDigits

theorem isDigit_of_mem_zeros {n : Nat} {c : Char} (h : c ∈ List.replicate n '0') : c.isDigit := by
  rw [List.eq_of_mem_replicate h]
  decide

theorem value_of_nonneg {d : Decimal} (h : 0 ≤ d.exp) : d.value = (d.coeff * 10 ^ d.exp.toNat : Nat) := by
  obtain ⟨n, hn⟩ := Int.eq_ofNat_of_zero_le h
  rw [value, hn, zpow_natCast, Int.toNat_natCast]
  push_cast
  rfl

theorem value_of_neg {d : Decimal} (h : d.exp < 0) : d.value = d.coeff / 10 ^ (-d.exp).toNat := by
  obtain ⟨n, hn⟩ := Int.eq_ofNat_of_zero_le (Int.neg_nonneg.mpr h.le)
  rw [value, hn, Int.toNat_natCast, show d.exp = -(n : Int) by omega, zpow_neg, zpow_natCast]
  rfl

theorem isDigit_of_mem_integral {d : Decimal} {n : Nat} :
    ∀ c ∈ d.digits ++ List.replicate n '0', c.isDigit := by
  intro c hc
  rcases List.mem_append.mp hc with hc | hc
  · exact isDigit_of_mem_digits hc
  · exact isDigit_of_mem_zeros hc

theorem ofDigitChars_integral (d : Decimal) (n : Nat) :
    Nat.ofDigitChars 10 (d.digits ++ List.replicate n '0') 0 = d.coeff * 10 ^ n := by
  rw [Nat.ofDigitChars_append, ofDigitChars_digits, Nat.ofDigitChars_replicate_zero, Nat.mul_comm]

/-- Fixed notation reads as the number. -/
theorem readFixed_fixed (d : Decimal) : readFixed d.fixed = d.value := by
  unfold fixed
  split_ifs with hexp hlead
  · rw [readFixed_digits isDigit_of_mem_integral, ofDigitChars_integral, value_of_nonneg hexp]
  · have htake : ∀ c ∈ d.digits.take (d.leading + 1).toNat, c.isDigit :=
      fun c hc => isDigit_of_mem_digits (List.mem_of_mem_take hc)
    have hdrop : ∀ c ∈ d.digits.drop (d.leading + 1).toNat, c.isDigit :=
      fun c hc => isDigit_of_mem_digits (List.mem_of_mem_drop hc)
    have hlen : (d.digits.drop (d.leading + 1).toNat).length = (-d.exp).toNat := by
      rw [List.length_drop]
      unfold leading at hlead ⊢
      omega
    rw [readFixed_point htake hdrop, List.take_append_drop, ofDigitChars_digits, hlen,
      value_of_neg (by omega)]
  · have hzeros : ∀ c ∈ List.replicate (-d.leading - 1).toNat '0' ++ d.digits, c.isDigit := by
      intro c hc
      rcases List.mem_append.mp hc with hc | hc
      · exact isDigit_of_mem_zeros hc
      · exact isDigit_of_mem_digits hc
    have hlen : (List.replicate (-d.leading - 1).toNat '0' ++ d.digits).length = (-d.exp).toNat := by
      have := d.digits_length_pos
      rw [List.length_append, List.length_replicate]
      unfold leading at hlead ⊢
      omega
    have hread := readFixed_point (s := ['0']) (fun _ => isDigit_of_mem_zeros (n := 1)) hzeros
    rw [hlen, ← List.append_assoc, Nat.ofDigitChars_append, ← List.replicate_one, List.replicate_append_replicate,
      Nat.ofDigitChars_replicate_zero, Nat.mul_zero, ofDigitChars_digits, ← value_of_neg (by omega)] at hread
    exact hread

/-- A zero after the point of an integer does not change it. -/
theorem readFixed_fixed_point {d : Decimal} (h : 0 ≤ d.exp) : readFixed (d.fixed ++ ['.', '0']) = d.value := by
  have hzero : ∀ c ∈ ['0'], c.isDigit := fun _ => isDigit_of_mem_zeros (n := 1)
  rw [fixed, if_pos h, readFixed_point isDigit_of_mem_integral hzero, Nat.ofDigitChars_append,
    ofDigitChars_integral, value_of_nonneg h]
  simp [Nat.ofDigitChars_cons]

theorem readFixed_mantissa (d : Decimal) :
    readFixed d.mantissa = d.coeff / 10 ^ (d.digits.length - 1) := by
  unfold mantissa
  split_ifs with h
  · rw [readFixed_digits (fun c => isDigit_of_mem_digits), ofDigitChars_digits, h]
    simp
  · rw [readFixed_point (fun c hc => isDigit_of_mem_digits (List.mem_of_mem_take hc))
      (fun c hc => isDigit_of_mem_digits (List.mem_of_mem_drop hc)), List.take_append_drop,
      ofDigitChars_digits, List.length_drop]

theorem ofDigitChars_twoDigits (n : Nat) : Nat.ofDigitChars 10 (twoDigits n) 0 = n := by
  rw [twoDigits, List.leftpad, Nat.ofDigitChars_append, Nat.ofDigitChars_replicate_zero, Nat.mul_zero,
    Nat.ofDigitChars_ten_toDigits]

@[simp] theorem readInt_exponent (e : Int) : readInt (exponent e) = e := by
  unfold exponent
  split_ifs with h
  · simp only [readInt, ofDigitChars_twoDigits]
    omega
  · simp only [readInt, ofDigitChars_twoDigits]
    omega

/-! ## The letter of the exponent -/

theorem ne_e_of_isDigit {c : Char} (h : c.isDigit) : c ≠ 'e' := by
  rintro rfl
  exact absurd h (by decide)

theorem ne_e_of_mem_fixed {d : Decimal} {c : Char} (h : c ∈ d.fixed) : c ≠ 'e' := by
  unfold fixed at h
  split_ifs at h
  · exact ne_e_of_isDigit (isDigit_of_mem_integral c h)
  · simp only [List.mem_append, List.mem_cons] at h
    rcases h with h | rfl | h
    · exact ne_e_of_isDigit (isDigit_of_mem_digits (List.mem_of_mem_take h))
    · decide
    · exact ne_e_of_isDigit (isDigit_of_mem_digits (List.mem_of_mem_drop h))
  · simp only [List.mem_append, List.mem_cons] at h
    rcases h with rfl | rfl | h | h
    · decide
    · decide
    · exact ne_e_of_isDigit (isDigit_of_mem_zeros h)
    · exact ne_e_of_isDigit (isDigit_of_mem_digits h)

theorem ne_e_of_mem_mantissa {d : Decimal} {c : Char} (h : c ∈ d.mantissa) : c ≠ 'e' := by
  unfold mantissa at h
  split_ifs at h
  · exact ne_e_of_isDigit (isDigit_of_mem_digits h)
  · simp only [List.mem_append, List.mem_cons] at h
    rcases h with h | rfl | h
    · exact ne_e_of_isDigit (isDigit_of_mem_digits (List.mem_of_mem_take h))
    · decide
    · exact ne_e_of_isDigit (isDigit_of_mem_digits (List.mem_of_mem_drop h))

theorem takeWhile_no_e {s : List Char} (h : ∀ c ∈ s, c ≠ 'e') : s.takeWhile (· != 'e') = s := by
  rw [List.takeWhile_eq_self_iff]
  simpa using h

theorem dropWhile_no_e {s : List Char} (h : ∀ c ∈ s, c ≠ 'e') : s.dropWhile (· != 'e') = [] := by
  rw [List.dropWhile_eq_nil_iff]
  simpa using h

theorem takeWhile_e {s t : List Char} (h : ∀ c ∈ s, c ≠ 'e') :
    (s ++ 'e' :: t).takeWhile (· != 'e') = s := by
  rw [List.takeWhile_append_of_pos (by simpa using h)]
  simp

theorem dropWhile_e {s t : List Char} (h : ∀ c ∈ s, c ≠ 'e') :
    (s ++ 'e' :: t).dropWhile (· != 'e') = 'e' :: t := by
  rw [List.dropWhile_append_of_pos (by simpa using h)]
  simp

theorem read_of_no_e {s : List Char} (h : ∀ c ∈ s, c ≠ 'e') : read s = readFixed s := by
  simp [read, takeWhile_no_e h, dropWhile_no_e h, readInt]

/-- Scientific notation reads as the number. -/
theorem read_scientific (d : Decimal) : read (d.mantissa ++ 'e' :: exponent d.leading) = d.value := by
  have hpos := d.digits_length_pos
  rw [read, takeWhile_e (fun c => ne_e_of_mem_mantissa), dropWhile_e (fun c => ne_e_of_mem_mantissa),
    readFixed_mantissa, List.drop_one, List.tail_cons, readInt_exponent]
  have hlead : d.leading = d.exp + ((d.digits.length - 1 : Nat) : Int) := by unfold leading; omega
  rw [hlead, zpow_add₀ (by norm_num), zpow_natCast, value]
  field_simp

end Decimal

end CadHarness.Lib
