import CadHarness.Canonical.Theorems

/-!
# What the canonical form keeps

Two values have one canonical form when they differ in nothing but excluded members, the order of
members, and floats that are rounded to the same float.
-/

namespace CadHarness.Canonical
open CadHarness.Lib

/-- The same value, but for excluded members at any depth and the normalization of floats. -/
inductive SameValue : Json Number → Json Number → Prop
  | null : SameValue .null .null
  | bool (b : Bool) : SameValue (.bool b) (.bool b)
  | num {m n : Number} : normalizeNumber m = normalizeNumber n → SameValue (.num m) (.num n)
  | str (s : String) : SameValue (.str s) (.str s)
  | nil : SameValue (.arr []) (.arr [])
  | cons {x y : Json Number} {xs ys : List (Json Number)} :
      SameValue x y → SameValue (.arr xs) (.arr ys) → SameValue (.arr (x :: xs)) (.arr (y :: ys))
  | obj {ms ns : List (String × Json Number)} :
      (∀ k ∉ excludedPlanFields, (ms.lookup k).isSome = (ns.lookup k).isSome) →
      (∀ k x y, k ∉ excludedPlanFields → ms.lookup k = some x → ns.lookup k = some y → SameValue x y) →
      SameValue (.obj ms) (.obj ns)

/-! ## Numbers -/

theorem toDigits_cons (n : Nat) : ∃ c s, Nat.toDigits 10 n = c :: s ∧ c.isDigit := by
  obtain ⟨c, s, hs⟩ := List.exists_cons_of_ne_nil (Nat.toDigits_ne_nil (n := n) (b := 10))
  have hc : c ∈ Nat.toDigits 10 n := hs ▸ List.mem_cons_self
  exact ⟨c, s, hs, Nat.isDigit_of_mem_toDigits (by decide) (by decide) hc⟩

theorem integerText_inj {i j : Int} (h : (integerText i).text = (integerText j).text) : i = j := by
  obtain ⟨hneg, hdigits⟩ := sign_append_inj (toDigits_cons _) (toDigits_cons _) h
  have habs : i.natAbs = j.natAbs := by
    rw [← Nat.ofDigitChars_ten_toDigits (n := i.natAbs), hdigits, Nat.ofDigitChars_ten_toDigits]
  rw [decide_eq_decide] at hneg
  omega

theorem floatRepr_inj {x y : Binary64} (h : (floatRepr x).text = (floatRepr y).text) : x = y :=
  (text_eq_iff.mp h).1

theorem floatRepr_ne_integerText (x : Binary64) (i : Int) : (floatRepr x).text ≠ (integerText i).text := by
  intro h
  have hmem : '.' ∈ (floatRepr x).text ∨ 'e' ∈ (floatRepr x).text := by
    rcases point_or_e_mem_decimalText pythonBand x.shortest with hp | he
    · exact .inl (List.mem_append_right _ hp)
    · exact .inr (List.mem_append_right _ he)
  rw [h] at hmem
  rcases hmem with hmem | hmem
  · exact absurd (isDigit_or_minus_of_mem_integerText hmem) (by decide)
  · exact absurd (isDigit_or_minus_of_mem_integerText hmem) (by decide)

theorem numberRepr_inj {m n : Number} (h : numberRepr m = numberRepr n) : m = n := by
  have htext : (numberRepr m).text = (numberRepr n).text := by rw [h]
  cases m with
  | int i =>
      cases n with
      | int j => rw [integerText_inj htext]
      | double y => exact absurd htext.symm (floatRepr_ne_integerText y.1 i)
  | double x =>
      cases n with
      | int j => exact absurd htext (floatRepr_ne_integerText x.1 j)
      | double y => rw [Subtype.ext (floatRepr_inj htext)]

/-! ## Values -/

theorem lookup_canonicalMembers (ms : List (String × Json Number)) (k : String) :
    (canonicalMembers ms).lookup k =
      if k ∈ excludedPlanFields then none else (ms.lookup k).map canonicalValue := by
  induction ms with
  | nil => simp
  | cons m ms ih =>
      obtain ⟨l, x⟩ := m
      by_cases hl : l ∈ excludedPlanFields
      · rw [canonicalMembers_cons_of_mem hl, ih]
        by_cases hk : k ∈ excludedPlanFields
        · rw [if_pos hk, if_pos hk]
        · have hkl : (k == l) = false := beq_eq_false_iff_ne.mpr (fun h => hk (h ▸ hl))
          rw [if_neg hk, if_neg hk, List.lookup_cons, hkl]
      · rw [canonicalMembers_cons_of_not_mem hl, List.lookup_cons, List.lookup_cons, ih]
        by_cases hkl : k = l
        · subst hkl
          simp [hl]
        · have hbeq : (k == l) = false := beq_eq_false_iff_ne.mpr hkl
          simp [hbeq]

theorem canonicalMembers_nodup {ms : List (String × Json Number)} (h : (ms.map Prod.fst).Nodup) :
    ((canonicalMembers ms).map Prod.fst).Nodup := by
  rw [canonicalMembers_keys]
  exact h.filter _

theorem distinctKeys_of_lookup {ms : List (String × Json Number)} (h : Json.DistinctKeysMembers ms)
    {k : String} {x : Json Number} (hx : ms.lookup k = some x) : x.DistinctKeys := by
  induction ms with
  | nil => cases hx
  | cons m ms ih =>
      obtain ⟨l, y⟩ := m
      rw [List.lookup_cons] at hx
      split at hx
      · exact Option.some.inj hx ▸ h.1
      · exact ih h.2 hx

/-- Objects have one canonical form when their members that count do. -/
theorem canonicalValue_obj_eq_iff {ms ns : List (String × Json Number)} (hms : (ms.map Prod.fst).Nodup)
    (hns : (ns.map Prod.fst).Nodup) :
    canonicalValue (.obj ms) = canonicalValue (.obj ns) ↔
      ∀ k ∉ excludedPlanFields, (ms.lookup k).map canonicalValue = (ns.lookup k).map canonicalValue := by
  rw [canonicalValue_obj, canonicalValue_obj, Json.obj.injEq,
    sortOn_eq_iff_lookup codePoints_injective (canonicalMembers_nodup hms) (canonicalMembers_nodup hns)]
  constructor
  · intro h k hk
    have hlookup := h k
    rwa [lookup_canonicalMembers, lookup_canonicalMembers, if_neg hk, if_neg hk] at hlookup
  · intro h k
    rw [lookup_canonicalMembers, lookup_canonicalMembers]
    split_ifs with hk
    · rfl
    · exact h k hk

/-- Values that are the same have one canonical form. -/
theorem SameValue.canonicalValue_eq {x y : Json Number} (h : SameValue x y) (hx : x.DistinctKeys)
    (hy : y.DistinctKeys) : canonicalValue x = canonicalValue y := by
  induction h with
  | null => rfl
  | bool b => rfl
  | num h => exact congrArg (fun n => Json.num (numberRepr n)) h
  | str s => rfl
  | nil => rfl
  | cons _ _ ihx ihxs =>
      have hhead := ihx hx.1 hy.1
      have htail := Json.arr.inj (ihxs hx.2 hy.2)
      exact congrArg Json.arr (congrArg₂ List.cons hhead htail)
  | @obj ms ns hkeys _ ih =>
      rw [canonicalValue_obj_eq_iff hx.1 hy.1]
      intro k hk
      have hsome := hkeys k hk
      cases hm : ms.lookup k with
      | none =>
          have hn : ns.lookup k = none := by simpa [hm] using hsome
          rw [hn]
      | some x =>
          rw [hm] at hsome
          obtain ⟨y, hn⟩ := Option.isSome_iff_exists.mp hsome.symm
          rw [hn]
          exact congrArg some (ih k x y hk hm hn (distinctKeys_of_lookup hx.2 hm) (distinctKeys_of_lookup hy.2 hn))

mutual
/-- Values of one canonical form are the same. -/
theorem sameValue_of_canonicalValue : (x y : Json Number) → x.DistinctKeys → y.DistinctKeys →
    canonicalValue x = canonicalValue y → SameValue x y
  | .null, y, _, _, h => by
      cases y with
      | null => exact .null
      | _ => cases h
  | .bool b, y, _, _, h => by
      cases y with
      | bool c => cases h; exact .bool _
      | _ => cases h
  | .num m, y, _, _, h => by
      cases y with
      | num n => exact .num (numberRepr_inj (Json.num.inj h))
      | _ => cases h
  | .str s, y, _, _, h => by
      cases y with
      | str t => cases h; exact .str _
      | _ => cases h
  | .arr xs, y, hx, hy, h => by
      cases y with
      | arr ys => exact sameValue_of_canonicalItems xs ys hx hy (Json.arr.inj h)
      | _ => cases h
  | .obj ms, y, hx, hy, h => by
      cases y with
      | obj ns =>
          have hlookup := (canonicalValue_obj_eq_iff hx.1 hy.1).mp h
          apply SameValue.obj
          · intro k hk
            simpa using congrArg Option.isSome (hlookup k hk)
          · intro k x y hk hm hn
            have hxy := hlookup k hk
            rw [hm, hn] at hxy
            exact sameValue_of_member ms hx.2 hm y (distinctKeys_of_lookup hy.2 hn) (Option.some.inj hxy)
      | _ => cases h

theorem sameValue_of_canonicalItems : (xs ys : List (Json Number)) → Json.DistinctKeysItems xs →
    Json.DistinctKeysItems ys → canonicalItems xs = canonicalItems ys → SameValue (.arr xs) (.arr ys)
  | [], [], _, _, _ => .nil
  | [], _ :: _, _, _, h => by cases h
  | _ :: _, [], _, _, h => by cases h
  | x :: xs, y :: ys, hx, hy, h => by
      rw [canonicalItems_cons, canonicalItems_cons, List.cons.injEq] at h
      exact .cons (sameValue_of_canonicalValue x y hx.1 hy.1 h.1)
        (sameValue_of_canonicalItems xs ys hx.2 hy.2 h.2)

theorem sameValue_of_member : (ms : List (String × Json Number)) → Json.DistinctKeysMembers ms →
    {k : String} → {x : Json Number} → ms.lookup k = some x → (y : Json Number) → y.DistinctKeys →
    canonicalValue x = canonicalValue y → SameValue x y
  | [], _, _, _, hx, _, _, _ => by cases hx
  | (l, z) :: ms, hms, k, x, hx, y, hy, h => by
      rw [List.lookup_cons] at hx
      split at hx
      · obtain rfl := Option.some.inj hx
        exact sameValue_of_canonicalValue z y hms.1 hy h
      · exact sameValue_of_member ms hms.2 hx y hy h
end

/-- The canonical form keeps a value up to `SameValue`, and nothing more. -/
theorem canonicalValue_eq_iff {x y : Json Number} (hx : x.DistinctKeys) (hy : y.DistinctKeys) :
    canonicalValue x = canonicalValue y ↔ SameValue x y :=
  ⟨sameValue_of_canonicalValue x y hx hy, fun h => h.canonicalValue_eq hx hy⟩

end CadHarness.Canonical
