import CadHarness.Lib.Decimal
import Mathlib.Algebra.Order.Field.Power
import Mathlib.Algebra.Order.Floor.Ring
import Mathlib.Data.Int.Log
import Mathlib.Data.Rat.Floor
import Mathlib.Tactic.Linarith
import Mathlib.Tactic.Positivity
import Mathlib.Tactic.Ring

/-!
# Binary floating point

The finite numbers of IEEE 754 binary64, their exact values, and rounding to the nearest, ties to even.
An arithmetic operation is the exact one, rounded. The exponent has no upper end here; `IsFinite` says
which numbers the format has.
-/

namespace CadHarness.Lib

/-! ## Rounding to an integer -/

/-- The integer nearest to `v`, and the even one of two that are as near. -/
def rint (v : ℚ) : Int :=
  if Int.fract v < 1 / 2 then ⌊v⌋
  else if 1 / 2 < Int.fract v then ⌊v⌋ + 1
  else if ⌊v⌋ % 2 = 0 then ⌊v⌋ else ⌊v⌋ + 1

theorem rint_eq_or (v : ℚ) : rint v = ⌊v⌋ ∨ (rint v = ⌊v⌋ + 1 ∧ 0 < Int.fract v) := by
  unfold rint
  split_ifs with h₁ h₂ h₃
  · exact .inl rfl
  · exact .inr ⟨rfl, by linarith⟩
  · exact .inl rfl
  · exact .inr ⟨rfl, by linarith⟩

@[simp] theorem rint_intCast (n : Int) : rint (n : ℚ) = n := by
  rcases rint_eq_or (n : ℚ) with h | ⟨_, h⟩
  · rw [h, Int.floor_intCast]
  · rw [Int.fract_intCast] at h
    exact absurd h (lt_irrefl 0)

@[simp] theorem rint_natCast (n : Nat) : rint (n : ℚ) = n := by
  have h := rint_intCast (n : Int)
  rwa [Int.cast_natCast] at h

theorem le_rint {n : Int} {v : ℚ} (h : (n : ℚ) ≤ v) : n ≤ rint v := by
  have hn : n ≤ ⌊v⌋ := Int.le_floor.mpr h
  rcases rint_eq_or v with h' | ⟨h', _⟩
  · omega
  · omega

theorem rint_le {n : Int} {v : ℚ} (h : v ≤ n) : rint v ≤ n := by
  have hn : ⌊v⌋ ≤ n := by
    have := Int.floor_le_floor h
    rwa [Int.floor_intCast] at this
  rcases rint_eq_or v with h' | ⟨h', hf⟩
  · omega
  · have hlt : (⌊v⌋ : ℚ) < n := by
      have := Int.self_sub_floor v
      linarith
    have : ⌊v⌋ < n := by exact_mod_cast hlt
    omega

/-! ## Numbers -/

/-- The number `± mant * 2 ^ exp`. The leading bit of `mant` is set, unless the exponent is the least one. -/
structure Binary64 where
  neg : Bool
  mant : Nat
  exp : Int
  mant_lt : mant < 2 ^ 53
  exp_le : -1074 ≤ exp
  leading : 2 ^ 52 ≤ mant ∨ exp = -1074
  deriving DecidableEq

namespace Binary64

/-- The magnitude of the number. -/
def mag (x : Binary64) : ℚ := x.mant * 2 ^ x.exp

/-- Whether the format has the number. -/
def IsFinite (x : Binary64) : Prop := x.exp ≤ 971

instance (x : Binary64) : Decidable x.IsFinite := inferInstanceAs (Decidable (_ ≤ _))

def zero (neg : Bool) : Binary64 := ⟨neg, 0, -1074, by decide, by decide, .inr rfl⟩

theorem zero_isFinite : (zero false).IsFinite := by decide

@[ext] theorem ext {x y : Binary64} (hneg : x.neg = y.neg) (hmant : x.mant = y.mant)
    (hexp : x.exp = y.exp) : x = y := by
  cases x; cases y; simp_all

theorem mag_nonneg (x : Binary64) : 0 ≤ x.mag := by
  unfold mag; positivity

theorem mag_eq_zero {x : Binary64} : x.mag = 0 ↔ x.mant = 0 := by
  have h : (2 : ℚ) ^ x.exp ≠ 0 := zpow_ne_zero _ two_ne_zero
  simp [mag, h]

theorem mag_pos {x : Binary64} (h : x.mant ≠ 0) : 0 < x.mag :=
  lt_of_le_of_ne x.mag_nonneg (fun h' => h (mag_eq_zero.mp h'.symm))

theorem eq_zero_of_mant {x : Binary64} (h : x.mant = 0) : x = zero x.neg := by
  have hexp : x.exp = -1074 := by
    rcases x.leading with h' | h'
    · omega
    · exact h'
  exact ext rfl h hexp

/-! ## Rounding -/

/-- The exponent of the last bit of a number of magnitude `v`. -/
def ulpExp (v : ℚ) : Int := max (-1074) (Int.log 2 v - 52)

/-- The magnitude `v` in units of the last bit, rounded. -/
def units (v : ℚ) : Nat := (rint (v / 2 ^ ulpExp v)).toNat

theorem units_lt {v : ℚ} : v / 2 ^ ulpExp v < 2 ^ 53 := by
  have h : v < (2 : ℚ) ^ (Int.log 2 v + 1) := Int.lt_zpow_succ_log_self (by decide) v
  have hle : (2 : ℚ) ^ (Int.log 2 v + 1) ≤ 2 ^ (ulpExp v + 53) :=
    zpow_le_zpow_right₀ (by norm_num) (by unfold ulpExp; omega)
  rw [div_lt_iff₀ (by positivity), ← zpow_natCast, ← zpow_add₀ (by norm_num)]
  calc v < 2 ^ (ulpExp v + 53) := lt_of_lt_of_le h hle
    _ = 2 ^ (((53 : Nat) : Int) + ulpExp v) := by rw [add_comm]; rfl

theorem units_le (v : ℚ) : units v ≤ 2 ^ 53 := by
  have h : rint (v / 2 ^ ulpExp v) ≤ (2 ^ 53 : Int) := rint_le (by exact_mod_cast units_lt.le)
  unfold units
  omega

theorem units_leading {v : ℚ} (hv : 0 < v) : 2 ^ 52 ≤ units v ∨ ulpExp v = -1074 := by
  by_cases hexp : ulpExp v = -1074
  · exact .inr hexp
  · have hlog : ulpExp v = Int.log 2 v - 52 := by unfold ulpExp at hexp ⊢; omega
    have h : (2 : ℚ) ^ Int.log 2 v ≤ v := Int.zpow_log_le_self (by decide) hv
    have hle : ((2 ^ 52 : Int) : ℚ) ≤ v / 2 ^ ulpExp v := by
      rw [le_div_iff₀ (by positivity), hlog]
      calc ((2 ^ 52 : Int) : ℚ) * 2 ^ (Int.log 2 v - 52)
          = (2 : ℚ) ^ (((52 : Nat) : Int) + (Int.log 2 v - 52)) := by
            rw [zpow_add₀ (by norm_num), zpow_natCast]; norm_num
        _ = 2 ^ Int.log 2 v := by congr 1; omega
        _ ≤ v := h
    have := le_rint hle
    unfold units
    omega

/-- The number nearest to magnitude `v`, ties to even. -/
def nearest (neg : Bool) (v : ℚ) : Binary64 :=
  if hv : 0 < v then
    if h : units v < 2 ^ 53 then
      ⟨neg, units v, ulpExp v, h, le_max_left _ _, units_leading hv⟩
    else
      ⟨neg, 2 ^ 52, ulpExp v + 1, by decide, by unfold ulpExp; omega, .inl (Nat.le_refl _)⟩
  else zero neg

@[simp] theorem nearest_neg (neg : Bool) (v : ℚ) : (nearest neg v).neg = neg := by
  unfold nearest
  split_ifs <;> rfl

theorem log_mag {x : Binary64} (h : x.mant ≠ 0) : Int.log 2 x.mag = Nat.log 2 x.mant + x.exp := by
  have hpos : 0 < x.mag := mag_pos h
  have hlow : (2 : ℚ) ^ Nat.log 2 x.mant ≤ x.mant := by exact_mod_cast Nat.pow_log_le_self 2 h
  have hhigh : (x.mant : ℚ) < 2 ^ (Nat.log 2 x.mant + 1) := by
    exact_mod_cast Nat.lt_pow_succ_log_self (by decide) x.mant
  have hexp : (0 : ℚ) < 2 ^ x.exp := by positivity
  apply le_antisymm
  · rw [← Int.lt_add_one_iff, ← Int.lt_zpow_iff_log_lt (by decide) hpos]
    calc x.mag < 2 ^ (Nat.log 2 x.mant + 1) * 2 ^ x.exp := mul_lt_mul_of_pos_right hhigh hexp
      _ = 2 ^ ((Nat.log 2 x.mant : Int) + x.exp + 1) := by
        rw [← zpow_natCast, ← zpow_add₀ (by norm_num)]; congr 1; push_cast; ring
  · rw [← Int.zpow_le_iff_le_log (by decide) hpos]
    calc (2 : ℚ) ^ ((Nat.log 2 x.mant : Int) + x.exp)
        = 2 ^ Nat.log 2 x.mant * 2 ^ x.exp := by rw [zpow_add₀ (by norm_num), zpow_natCast]
      _ ≤ x.mag := mul_le_mul_of_nonneg_right hlow hexp.le

theorem ulpExp_mag {x : Binary64} (h : x.mant ≠ 0) : ulpExp x.mag = x.exp := by
  have hlt : Nat.log 2 x.mant < 53 := Nat.log_lt_of_lt_pow h x.mant_lt
  have hle := x.exp_le
  unfold ulpExp
  rw [log_mag h]
  rcases x.leading with hl | hl
  · have : 52 ≤ Nat.log 2 x.mant := (Nat.le_log_iff_pow_le (by decide) h).mpr hl
    omega
  · omega

/-- A number is the nearest one to its own value. -/
@[simp] theorem nearest_mag (x : Binary64) : nearest x.neg x.mag = x := by
  by_cases h : x.mant = 0
  · rw [nearest, dif_neg (by simp [mag, h])]
    exact (eq_zero_of_mant h).symm
  · have hunits : units x.mag = x.mant := by
      unfold units
      rw [ulpExp_mag h, mag, mul_div_assoc, div_self (zpow_ne_zero _ two_ne_zero), mul_one,
        rint_natCast, Int.toNat_natCast]
    have hlt : units x.mag < 2 ^ 53 := hunits ▸ x.mant_lt
    rw [nearest, dif_pos (mag_pos h), dif_pos hlt]
    exact ext rfl hunits (ulpExp_mag h)

/-- Rounding does not pass a power of two. -/
theorem nearest_mag_le {neg : Bool} {v : ℚ} {n : Int} (hn : -1000 ≤ n) (h : v < 2 ^ n) :
    (nearest neg v).mag ≤ 2 ^ n := by
  unfold nearest
  split_ifs with hv hlt
  · have hlog : Int.log 2 v < n := (Int.lt_zpow_iff_log_lt (by decide) hv).mp h
    have hunits : (units v : ℚ) ≤ 2 ^ 53 := by exact_mod_cast hlt.le
    calc (units v : ℚ) * 2 ^ ulpExp v ≤ 2 ^ 53 * 2 ^ ulpExp v :=
          mul_le_mul_of_nonneg_right hunits (by positivity)
      _ = 2 ^ (((53 : Nat) : Int) + ulpExp v) := by rw [zpow_add₀ (by norm_num), zpow_natCast]
      _ ≤ 2 ^ n := zpow_le_zpow_right₀ (by norm_num) (by unfold ulpExp; omega)
  · have hlog : Int.log 2 v < n := (Int.lt_zpow_iff_log_lt (by decide) hv).mp h
    calc (((2 ^ 52 : Nat) : ℚ)) * 2 ^ (ulpExp v + 1) = 2 ^ (((52 : Nat) : Int) + (ulpExp v + 1)) := by
          rw [zpow_add₀ (by norm_num) ((52 : Nat) : Int), zpow_natCast]; push_cast; rfl
      _ ≤ 2 ^ n := zpow_le_zpow_right₀ (by norm_num) (by unfold ulpExp; omega)
  · simp only [mag, zero, Nat.cast_zero, zero_mul]
    positivity

theorem nearest_isFinite {neg : Bool} {v : ℚ} (h : v < 2 ^ 1000) : (nearest neg v).IsFinite := by
  unfold nearest
  split_ifs with hv hlt
  · have hlog : Int.log 2 v < 1000 := (Int.lt_zpow_iff_log_lt (by decide) hv).mp (by exact_mod_cast h)
    simp only [IsFinite, ulpExp]
    omega
  · have hlog : Int.log 2 v < 1000 := (Int.lt_zpow_iff_log_lt (by decide) hv).mp (by exact_mod_cast h)
    simp only [IsFinite, ulpExp]
    omega
  · exact (by decide : (-1074 : Int) ≤ 971)

end Binary64

end CadHarness.Lib

/-!
## Shortest decimals

The shortest decimal that rounds to a given binary64 number, and of several the nearest one.
-/

namespace CadHarness.Lib.Binary64

/-- The decimals of `n` significant digits next to `v`, the nearer one first. -/
def around (v : ℚ) (n : Nat) : List Decimal :=
  let exp := Int.log 10 v - n + 1
  let near := rint (v / 10 ^ exp)
  let low := ⌊v / 10 ^ exp⌋
  [⟨near.toNat, exp⟩, ⟨(if near = low then low + 1 else low).toNat, exp⟩]

/-- The number itself in decimal. -/
def toDecimal (x : Binary64) : Decimal :=
  if 0 ≤ x.exp then ⟨x.mant * 2 ^ x.exp.toNat, 0⟩ else ⟨x.mant * 5 ^ (-x.exp).toNat, x.exp⟩

/-- The shortest decimal that rounds to `x`. Seventeen digits are enough, so that the exact decimal is
only there to make this total. -/
def shortest (x : Binary64) : Decimal :=
  let candidates := (List.range 17).flatMap (fun n => around x.mag (n + 1))
  let d := (candidates.find? (fun d => nearest x.neg d.value = x)).getD x.toDecimal
  d.strip d.coeff.log2

theorem toDecimal_value (x : Binary64) : x.toDecimal.value = x.mag := by
  unfold toDecimal mag
  split_ifs with h
  · obtain ⟨n, hn⟩ := Int.eq_ofNat_of_zero_le h
    rw [Decimal.value, hn, Int.toNat_natCast, zpow_natCast, zpow_zero]
    push_cast
    ring
  · obtain ⟨n, hn⟩ := Int.eq_ofNat_of_zero_le (show 0 ≤ -x.exp by omega)
    rw [Decimal.value, hn, Int.toNat_natCast, show x.exp = -(n : Int) by omega, zpow_neg, zpow_neg,
      zpow_natCast, zpow_natCast, show (10 : ℚ) = 5 * 2 by norm_num, mul_pow]
    push_cast
    field_simp

/-- The shortest decimal of a number reads back as that number. -/
@[simp] theorem nearest_shortest (x : Binary64) : nearest x.neg x.shortest.value = x := by
  unfold shortest
  dsimp only
  rw [Decimal.strip_value]
  cases h : ((List.range 17).flatMap (fun n => around x.mag (n + 1))).find?
      (fun d => nearest x.neg d.value = x) with
  | none => rw [Option.getD_none, toDecimal_value, nearest_mag]
  | some d => simpa using List.find?_some h

theorem shortest_coeff_ne_zero {x : Binary64} (h : x.mant ≠ 0) : x.shortest.coeff ≠ 0 := by
  intro hcoeff
  have hx := nearest_shortest x
  rw [Decimal.value, hcoeff] at hx
  rw [← hx] at h
  simp [nearest, zero] at h

/-- Numbers of one sign and one shortest value are the same. -/
theorem eq_of_shortest {x y : Binary64} (hneg : x.neg = y.neg)
    (h : x.shortest.value = y.shortest.value) : x = y := by
  rw [← nearest_shortest x, h, hneg, nearest_shortest]

end CadHarness.Lib.Binary64
