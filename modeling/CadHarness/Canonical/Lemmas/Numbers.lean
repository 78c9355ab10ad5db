import CadHarness.Canonical.BridgeAuthorization

/-!
# Numbers in both canonical forms

The text of a decimal reads as its value in either notation, so that the two sides write the same text
only for the same number in the same notation.
-/

namespace CadHarness.Canonical
open CadHarness.Lib

theorem readFixed_pointed (d : Decimal) :
    Decimal.readFixed (if '.' ∈ d.fixed then d.fixed else d.fixed ++ ['.', '0']) = d.value := by
  split_ifs with h
  · exact Decimal.readFixed_fixed d
  · have hexp : 0 ≤ d.exp := by
      by_contra hneg
      apply h
      unfold Decimal.fixed
      rw [if_neg hneg]
      split_ifs <;> simp
    exact Decimal.readFixed_fixed_point hexp

theorem ne_e_of_mem_pointed {d : Decimal} {c : Char}
    (h : c ∈ if '.' ∈ d.fixed then d.fixed else d.fixed ++ ['.', '0']) : c ≠ 'e' := by
  split_ifs at h
  · exact Decimal.ne_e_of_mem_fixed h
  · rcases List.mem_append.mp h with h | h
    · exact Decimal.ne_e_of_mem_fixed h
    · simp only [List.mem_cons, List.not_mem_nil, or_false] at h
      rcases h with rfl | rfl <;> decide

/-- The text of a decimal reads as the decimal. -/
@[simp] theorem read_decimalText (b : Band) (d : Decimal) : Decimal.read (decimalText b d) = d.value := by
  by_cases h : b.Fixed d.leading
  · rw [decimalText, if_pos h, Decimal.read_of_no_e (fun _ => ne_e_of_mem_pointed), readFixed_pointed]
  · rw [decimalText, if_neg h, Decimal.read_scientific]

theorem e_mem_decimalText {b : Band} {d : Decimal} : 'e' ∈ decimalText b d ↔ ¬ b.Fixed d.leading := by
  by_cases h : b.Fixed d.leading
  · rw [decimalText, if_pos h]
    exact iff_of_false (fun he => ne_e_of_mem_pointed he rfl) (fun h' => h' h)
  · rw [decimalText, if_neg h]
    exact iff_of_true (by simp) h

theorem point_or_e_mem_decimalText (b : Band) (d : Decimal) :
    '.' ∈ decimalText b d ∨ 'e' ∈ decimalText b d := by
  unfold decimalText
  split_ifs with _ h
  · exact .inl h
  · exact .inl (by simp)
  · exact .inr (by simp)

/-- Text of a decimal begins with a digit. -/
theorem decimalText_cons (b : Band) (d : Decimal) :
    ∃ c s, decimalText b d = c :: s ∧ c.isDigit := by
  obtain ⟨c, cs, hdigits⟩ := List.exists_cons_of_ne_nil d.digits_ne_nil
  have hc : c.isDigit := Decimal.isDigit_of_mem_digits (hdigits ▸ List.mem_cons_self)
  have hfixed : ∃ c s, d.fixed = c :: s ∧ c.isDigit := by
    unfold Decimal.fixed
    split_ifs with _ hlead
    · exact ⟨c, _, by rw [hdigits, List.cons_append], hc⟩
    · obtain ⟨n, hn⟩ : ∃ n, (d.leading + 1).toNat = n + 1 := ⟨d.leading.toNat, by omega⟩
      exact ⟨c, _, by rw [hdigits, hn, List.take_succ_cons, List.cons_append], hc⟩
    · exact ⟨'0', _, rfl, rfl⟩
  obtain ⟨c', s, hs, hc'⟩ := hfixed
  unfold decimalText
  split_ifs
  · exact ⟨c', s, hs, hc'⟩
  · exact ⟨c', _, by rw [hs, List.cons_append], hc'⟩
  · unfold Decimal.mantissa
    split_ifs
    · exact ⟨c, _, by rw [hdigits, List.cons_append], hc⟩
    · exact ⟨c, _, by rw [hdigits, List.take_succ_cons, List.cons_append, List.cons_append], hc⟩

/-- A sign ends where a digit stands. -/
theorem sign_append_inj {neg neg' : Bool} {s s' : List Char} (hs : ∃ c t, s = c :: t ∧ c.isDigit)
    (hs' : ∃ c t, s' = c :: t ∧ c.isDigit) (h : sign neg ++ s = sign neg' ++ s') : neg = neg' ∧ s = s' := by
  obtain ⟨c, t, rfl, hc⟩ := hs
  obtain ⟨c', t', rfl, hc'⟩ := hs'
  cases neg with
  | false =>
      cases neg' with
      | false => exact ⟨rfl, h⟩
      | true =>
          obtain rfl := (List.cons.inj h).1
          exact absurd hc (by decide)
  | true =>
      cases neg' with
      | false =>
          obtain rfl := (List.cons.inj h).1
          exact absurd hc' (by decide)
      | true => exact ⟨rfl, (List.cons.inj h).2⟩

/-- Two numbers are written alike just when they are the same number in the same notation. -/
theorem text_eq_iff {b b' : Band} {x y : Binary64} :
    sign x.neg ++ decimalText b x.shortest = sign y.neg ++ decimalText b' y.shortest ↔
      x = y ∧ (b.Fixed x.shortest.leading ↔ b'.Fixed x.shortest.leading) := by
  constructor
  · intro h
    obtain ⟨hneg, htext⟩ := sign_append_inj (decimalText_cons _ _) (decimalText_cons _ _) h
    have hvalue : x.shortest.value = y.shortest.value := by
      rw [← read_decimalText b, htext, read_decimalText]
    obtain rfl := Binary64.eq_of_shortest hneg hvalue
    have he : ('e' ∈ decimalText b x.shortest) ↔ ('e' ∈ decimalText b' x.shortest) := by rw [htext]
    rw [e_mem_decimalText, e_mem_decimalText, not_iff_not] at he
    exact ⟨rfl, he⟩
  · rintro ⟨rfl, h⟩
    simp only [decimalText, h]

/-- The text of the "R" format determines the number. -/
theorem toStringR_injective (net : Band) : Function.Injective (toStringR net) := by
  intro x y h
  have htext : sign x.neg ++ decimalText net x.shortest = sign y.neg ++ decimalText net y.shortest := by
    rw [← withPoint_toStringR, ← withPoint_toStringR, h]
  exact (text_eq_iff.mp htext).1

/-! ## The numbers of both sides -/

theorem mathRound_neg (x : Binary64) : (mathRound x).neg = x.neg := by
  unfold mathRound
  split_ifs
  · simp
  · rfl

theorem round_neg (x : Binary64) : (round x).neg = x.neg := Binary64.nearest_neg _ _

theorem mathRound_eq_round_iff (x : Binary64) : mathRound x = round x ↔ RoundsAlike x := by
  unfold mathRound RoundsAlike
  split_ifs with h
  · rw [or_iff_right (not_le.mpr h)]
    exact Iff.rfl
  · have hexp : 0 ≤ x.exp := by
      by_contra hneg
      have := mag_lt_of_exp_neg (not_le.mp hneg)
      linarith
    exact iff_of_true (round_of_exp_nonneg hexp).symm (.inl (not_lt.mp h))

theorem eq_zero_iff {x y : Binary64} (hneg : x.neg = y.neg) (hx : x.mant = 0) : x = y ↔ y.mant = 0 := by
  constructor
  · rintro rfl; exact hx
  · intro hy
    rw [Binary64.eq_zero_of_mant hx, Binary64.eq_zero_of_mant hy, hneg]

theorem shortest_zero : (Binary64.zero false).shortest = ⟨0, 0⟩ := by decide +kernel

theorem repr_zero : decimalText pythonBand (Binary64.zero false).shortest = ['0', '.', '0'] := by
  rw [shortest_zero]
  decide +kernel

theorem canonicalDouble_eq_repr_iff (net : Band) (x : Double) :
    canonicalDouble net x = (floatRepr (normalizeFloat x)).text ↔ (Number.double x).Agrees net := by
  have hneg : (mathRound x).neg = (round x).neg := by rw [mathRound_neg, round_neg]
  have hagrees : (Number.double x).Agrees net ↔ mathRound x = round x ∧ SameNotation net (round x) := by
    rw [mathRound_eq_round_iff]
    exact Iff.rfl
  rw [hagrees]
  simp only [floatRepr, signed, SameNotation]
  by_cases hr : (round x).mant = 0
  · have hnorm : (normalizeFloat x).1 = .zero false := by simp [normalizeFloat, hr]
    rw [hnorm, repr_zero, eq_comm (a := mathRound x.1), eq_zero_iff hneg.symm hr]
    simp only [hr, true_or, and_true]
    constructor
    · intro h
      by_contra hm
      rw [canonicalDouble_eq hm, ← repr_zero, text_eq_iff] at h
      rw [h.1] at hm
      exact hm rfl
    · intro hm
      simp [canonicalDouble, hm, Binary64.zero, sign]
  · have hnorm : (normalizeFloat x).1 = round x := by simp [normalizeFloat, hr]
    rw [hnorm]
    simp only [hr, false_or]
    by_cases hm : (mathRound x).mant = 0
    · refine iff_of_false (fun h => hr ?_) (fun h => hr (h.1 ▸ hm))
      have hzero : canonicalDouble net x = sign (Binary64.zero false).neg ++
          decimalText pythonBand (Binary64.zero false).shortest := by
        rw [repr_zero]
        simp [canonicalDouble, hm, Binary64.zero, sign]
      rw [hzero, text_eq_iff] at h
      rw [← h.1]
      rfl
    · rw [canonicalDouble_eq hm, text_eq_iff]
      exact and_congr_right (fun h => by rw [h])

theorem isDigit_or_minus_of_mem_integerText {i : Int} {c : Char} (h : c ∈ (integerText i).text) :
    c.isDigit ∨ c = '-' := by
  rcases List.mem_append.mp h with h | h
  · by_cases hi : i < 0
    · simp only [sign, hi, decide_true, if_true, List.mem_singleton] at h
      exact .inr h
    · simp [sign, hi] at h
  · exact .inl (Nat.isDigit_of_mem_toDigits (by decide) (by decide) h)

theorem doubleText_ne_integerText (net : Band) (x : Binary64) (i : Int) :
    doubleText net x ≠ integerText i := by
  intro h
  have htext : (doubleText net x).text = (integerText i).text := by rw [h]
  have hmem : '.' ∈ (doubleText net x).text ∨ 'e' ∈ (doubleText net x).text := by
    by_cases hm : (mathRound x).mant = 0
    · simp [doubleText, canonicalDouble, hm]
    · simp only [doubleText, canonicalDouble_eq hm, List.mem_append]
      rcases point_or_e_mem_decimalText net (mathRound x).shortest with h | h
      · exact .inl (.inr h)
      · exact .inr (.inr h)
  rw [htext] at hmem
  rcases hmem with h | h
  · exact absurd (isDigit_or_minus_of_mem_integerText h) (by decide)
  · exact absurd (isDigit_or_minus_of_mem_integerText h) (by decide)

/-- Both sides write a number alike just when it agrees. -/
theorem canonicalNumber_eq_iff (net : Band) (n : Number) :
    canonicalNumber net n = some (numberRepr (normalizeNumber n)) ↔ n.Agrees net := by
  cases n with
  | int i =>
      simp only [canonicalNumber, Number.Agrees]
      split_ifs with h hfinite
      · exact iff_of_true rfl h
      · exact iff_of_false (fun he => doubleText_ne_integerText _ _ _ (Option.some.inj he)) h
      · exact iff_of_false not_false h
  | double x =>
      rw [← canonicalDouble_eq_repr_iff]
      constructor
      · intro h
        exact congrArg NumberText.text (Option.some.inj h)
      · intro h
        exact congrArg some (NumberText.ext h)

end CadHarness.Canonical
