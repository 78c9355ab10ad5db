import CadHarness.Canonical.Harness

/-!
# Canonical JSON in the bridge

`BridgeAuthorization.ComputePlanHash`: the bytes that the bridge hashes for an operation plan. How .NET
chooses between the two notations of a number is a parameter; an exception is `none`.
-/

namespace CadHarness.Canonical
open CadHarness.Lib

def excludedPlanFields : List String :=
  ["plan_hash", "created_at", "updated_at", "request_id", "trace_id", "audit_event_id", "plan_id", "job_id"]

/-! ## Numbers -/

/-- The exponents that the "R" format writes in fixed notation. -/
def dotNetBand : Band := ⟨-5, 15⟩

/-- `Math.Round(value, 9, MidpointRounding.ToEven)`: the value is scaled, rounded to an integer and scaled
back, each time to the nearest double. From 1e16 on it is left as it is. -/
def mathRound (x : Binary64) : Binary64 :=
  if x.mag < 10 ^ 16 then
    let scaled : Binary64 := .nearest x.neg (x.mag * 10 ^ 9)
    let rounded : Binary64 := .nearest x.neg (rint scaled.mag)
    .nearest x.neg (rounded.mag / 10 ^ 9)
  else x

/-- No step of the rounding overflows. -/
theorem mathRound_isFinite {x : Binary64} (h : x.IsFinite) : (mathRound x).IsFinite := by
  unfold mathRound
  split_ifs with hlt
  · have hscaled : (Binary64.nearest x.neg (x.mag * 10 ^ 9)).mag ≤ 2 ^ (84 : Int) :=
      Binary64.nearest_mag_le (by decide) (by norm_num; linarith)
    have hrint : rint (Binary64.nearest x.neg (x.mag * 10 ^ 9)).mag ≤ (2 ^ 84 : Int) :=
      rint_le (by exact_mod_cast hscaled)
    have hrint' : (rint (Binary64.nearest x.neg (x.mag * 10 ^ 9)).mag : ℚ) < 2 ^ (85 : Int) := by
      calc (rint (Binary64.nearest x.neg (x.mag * 10 ^ 9)).mag : ℚ) ≤ 2 ^ 84 := by exact_mod_cast hrint
        _ < 2 ^ (85 : Int) := by norm_num
    have hrounded : (Binary64.nearest x.neg
        (rint (Binary64.nearest x.neg (x.mag * 10 ^ 9)).mag)).mag ≤ 2 ^ (85 : Int) :=
      Binary64.nearest_mag_le (by decide) hrint'
    apply Binary64.nearest_isFinite
    rw [div_lt_iff₀ (by positivity)]
    calc _ ≤ (2 : ℚ) ^ (85 : Int) := hrounded
      _ < 2 ^ 1000 := by rw [← zpow_natCast]; exact zpow_lt_zpow_right₀ (by norm_num) (by decide)
      _ ≤ 2 ^ 1000 * 10 ^ 9 := le_mul_of_one_le_right (by positivity) (by norm_num)
  · exact h

/-- `double.ToString("R", CultureInfo.InvariantCulture)` -/
def toStringR (net : Band) (x : Binary64) : List Char :=
  let d := x.shortest
  sign x.neg ++ if net.Fixed d.leading then d.fixed else d.mantissa ++ 'E' :: Decimal.exponent d.leading

/-- The end of `CanonicalNumber`: a point in fixed notation, and an exponent of sign and two digits. -/
def withPoint (text : List Char) : List Char :=
  if 'e' ∈ text then
    let mantissa := text.takeWhile (· != 'e')
    let exponent := Decimal.readInt ((text.dropWhile (· != 'e')).drop 1)
    mantissa ++ 'e' :: Decimal.exponent exponent
  else if '.' ∈ text then text else text ++ ['.', '0']

def canonicalDouble (net : Band) (number : Binary64) : List Char :=
  let rounded := mathRound number
  if rounded.mant = 0 then ['0', '.', '0']
  else withPoint ((toStringR net rounded).map (fun c => if c = 'E' then 'e' else c))

/-! ## Text of a double is a number -/

theorem map_E {s : List Char} (h : ∀ c ∈ s, isNumberChar c) :
    s.map (fun c => if c = 'E' then 'e' else c) = s := by
  conv_rhs => rw [← List.map_id s]
  apply List.map_congr_left
  intro c hc
  have hne : c ≠ 'E' := by
    rintro rfl
    exact absurd (h _ hc) (by decide)
  exact if_neg hne

theorem ne_e_of_mem_sign {neg : Bool} {c : Char} (h : c ∈ sign neg) : c ≠ 'e' := by
  cases neg with
  | false => cases h
  | true => rw [List.mem_singleton.mp h]; decide

theorem point_mem_sign {neg : Bool} : '.' ∉ sign neg := by cases neg <;> decide

theorem withPoint_of_no_e {s : List Char} (h : ∀ c ∈ s, c ≠ 'e') :
    withPoint s = if '.' ∈ s then s else s ++ ['.', '0'] :=
  if_neg (fun he => h _ he rfl)

theorem withPoint_of_e {s : List Char} (h : ∀ c ∈ s, c ≠ 'e') (e : Int) :
    withPoint (s ++ 'e' :: Decimal.exponent e) = s ++ 'e' :: Decimal.exponent e := by
  unfold withPoint
  rw [if_pos (by simp)]
  simp only [Decimal.takeWhile_e h, Decimal.dropWhile_e h, List.drop_one, List.tail_cons,
    Decimal.readInt_exponent]

/-- Rewriting the text of the "R" format gives the decimal in the harness's own notation. -/
theorem withPoint_toStringR (net : Band) (x : Binary64) :
    withPoint ((toStringR net x).map (fun c => if c = 'E' then 'e' else c)) =
      sign x.neg ++ decimalText net x.shortest := by
  simp only [toStringR, decimalText]
  generalize x.neg = neg
  generalize x.shortest = d
  split_ifs with hfixed hpoint
  · have hno : ∀ c ∈ sign neg ++ d.fixed, c ≠ 'e' := by
      intro c hc
      rcases List.mem_append.mp hc with hc | hc
      · exact ne_e_of_mem_sign hc
      · exact Decimal.ne_e_of_mem_fixed hc
    rw [List.map_append, map_E isNumberChar_sign, map_E (fun _ => isNumberChar_fixed),
      withPoint_of_no_e hno, if_pos (List.mem_append_right _ hpoint)]
  · have hno : ∀ c ∈ sign neg ++ d.fixed, c ≠ 'e' := by
      intro c hc
      rcases List.mem_append.mp hc with hc | hc
      · exact ne_e_of_mem_sign hc
      · exact Decimal.ne_e_of_mem_fixed hc
    have hpoint' : '.' ∉ sign neg ++ d.fixed := by simp [hpoint, point_mem_sign]
    rw [List.map_append, map_E isNumberChar_sign, map_E (fun _ => isNumberChar_fixed),
      withPoint_of_no_e hno, if_neg hpoint', List.append_assoc]
  · have hno : ∀ c ∈ sign neg ++ d.mantissa, c ≠ 'e' := by
      intro c hc
      rcases List.mem_append.mp hc with hc | hc
      · exact ne_e_of_mem_sign hc
      · exact Decimal.ne_e_of_mem_mantissa hc
    rw [List.map_append, List.map_append, List.map_cons, map_E isNumberChar_sign,
      map_E (fun _ => isNumberChar_mantissa), map_E (fun _ => isNumberChar_exponent), if_pos rfl,
      ← List.append_assoc, withPoint_of_e hno]

theorem canonicalDouble_eq {net : Band} {x : Binary64} (h : (mathRound x).mant ≠ 0) :
    canonicalDouble net x = sign (mathRound x).neg ++ decimalText net (mathRound x).shortest := by
  simp only [canonicalDouble, if_neg h, withPoint_toStringR]

theorem canonicalDouble_ne_nil (net : Band) (x : Binary64) : canonicalDouble net x ≠ [] := by
  by_cases h : (mathRound x).mant = 0
  · simp [canonicalDouble, h]
  · rw [canonicalDouble_eq h]
    simp [decimalText_ne_nil]

theorem isNumberChar_canonicalDouble {net : Band} {x : Binary64} {c : Char}
    (h : c ∈ canonicalDouble net x) : isNumberChar c := by
  by_cases hzero : (mathRound x).mant = 0
  · simp only [canonicalDouble, hzero, if_true, List.mem_cons, List.not_mem_nil, or_false] at h
    rcases h with rfl | rfl | rfl <;> decide
  · rw [canonicalDouble_eq hzero] at h
    rcases List.mem_append.mp h with h | h
    · exact isNumberChar_sign c h
    · exact isNumberChar_decimalText h

def doubleText (net : Band) (number : Binary64) : NumberText where
  text := canonicalDouble net number
  nonempty := canonicalDouble_ne_nil net number
  chars _ := isNumberChar_canonicalDouble

/-- `CanonicalNumber`. The text of a float is never that of an integer, and an integer that no `long` holds
is read as a double. -/
def canonicalNumber (net : Band) : Number → Option NumberText
  | .int i =>
      if -2 ^ 63 ≤ i ∧ i < 2 ^ 63 then some (integerText i)
      else
        let number : Binary64 := .nearest (i < 0) i.natAbs
        if number.IsFinite then some (doubleText net number) else none
  | .double x => some (doubleText net x)

/-! ## Values -/

mutual
/-- `WriteCanonical` -/
def writeCanonical (net : Band) : Json Number → Option (Json NumberText)
  | .obj ms => (writeMembers net ms).map (fun ms => .obj (sortOn utf16 ms))
  | .arr xs => (writeItems net xs).map .arr
  | .str s => some (.str s)
  | .num n => (canonicalNumber net n).map .num
  | .bool b => some (.bool b)
  | .null => some .null

def writeItems (net : Band) : List (Json Number) → Option (List (Json NumberText))
  | [] => some []
  | x :: xs => do return (← writeCanonical net x) :: (← writeItems net xs)

/-- The members that are not excluded. -/
def writeMembers (net : Band) : List (String × Json Number) → Option (List (String × Json NumberText))
  | [] => some []
  | (k, x) :: ms =>
      if k ∈ excludedPlanFields then writeMembers net ms
      else do return (k, ← writeCanonical net x) :: (← writeMembers net ms)
end

/-- What `ComputePlanHash` hashes. -/
def computePlanHashInput (net : Band) (plan : OperationPlan) : Option ByteArray :=
  (writeCanonical net plan.json).map (fun value => (String.ofList value.render).toUTF8)

end CadHarness.Canonical

/-!
## Plans that both sides write alike

The condition on a plan under which the harness and the bridge hash the same bytes. It looks at each
number, and at the keys of each object, that is not excluded.
-/

namespace CadHarness.Canonical
open CadHarness.Lib

/-- Whether `x` times 1e9, rounded to a double, to an integer and divided by 1e9 again, comes to the double
nearest to `x` in nine decimals. Numbers from 1e16 on are integers. -/
def RoundsAlike (x : Binary64) : Prop :=
  10 ^ 16 ≤ x.mag ∨
    Binary64.nearest x.neg ((Binary64.nearest x.neg (rint (.nearest x.neg (x.mag * 10 ^ 9) : Binary64).mag)).mag
      / 10 ^ 9) = .nearest x.neg (rint (x.mag * 10 ^ 9) / 10 ^ 9)

/-- Whether the two notations are the same for a number that is not zero. -/
def SameNotation (net : Band) (x : Binary64) : Prop :=
  x.mant = 0 ∨ (net.Fixed x.shortest.leading ↔ pythonBand.Fixed x.shortest.leading)

instance (net : Band) (x : Binary64) : Decidable (SameNotation net x) :=
  inferInstanceAs (Decidable (_ ∨ _))

/-- An integer that a `long` holds, or a float that is rounded alike and has one notation in nine
decimals. -/
def Number.Agrees (net : Band) : Number → Prop
  | .int i => -2 ^ 63 ≤ i ∧ i < 2 ^ 63
  | .double x => RoundsAlike x ∧ SameNotation net (.nearest x.1.neg (rint (x.1.mag * 10 ^ 9) / 10 ^ 9))

/-- The keys that are not excluded. -/
def keptKeys {ν : Type} (ms : List (String × Json ν)) : List String :=
  (ms.map Prod.fst).filter (fun k => decide (k ∉ excludedPlanFields))

mutual
def Agrees (net : Band) : Json Number → Prop
  | .null | .bool _ | .str _ => True
  | .num n => n.Agrees net
  | .arr xs => AgreesItems net xs
  | .obj ms => (∀ k ∈ keptKeys ms, ∀ l ∈ keptKeys ms, ¬ Discordant k l) ∧ AgreesMembers net ms

def AgreesItems (net : Band) : List (Json Number) → Prop
  | [] => True
  | x :: xs => Agrees net x ∧ AgreesItems net xs

def AgreesMembers (net : Band) : List (String × Json Number) → Prop
  | [] => True
  | (k, x) :: ms => (k ∉ excludedPlanFields → Agrees net x) ∧ AgreesMembers net ms
end

end CadHarness.Canonical
