import CadHarness.Golden.Comparison
import Mathlib.Data.Fintype.EquivFin

/-!
# Pairings of golden collections

A collection without order compares without mismatch exactly when its items can be paired. The order of such collections
does not matter, at any depth.
-/

namespace CadHarness.Golden
open CadHarness.Geometry CadHarness.Lib

/-! ## Pairings -/

section Pairings
variable {α β : Type} {R : α → β → Prop}

/-- A bijection between the items of two lists that pairs related ones. -/
def Pairing (R : α → β → Prop) (xs : List α) (ys : List β) : Prop :=
  ∃ σ : Fin xs.length ≃ Fin ys.length, ∀ i, R (xs.get i) (ys.get (σ i))

/-- A one-to-one map between the places of lists of one length is a bijection. -/
theorem exists_equiv {n m : Nat} (hlength : n = m) {f : Nat → Nat} (hbound : ∀ i < n, f i < m)
    (hinjective : ∀ i < n, ∀ j < n, f i = f j → i = j) : ∃ σ : Fin n ≃ Fin m, ∀ i, (σ i : Nat) = f i := by
  have hbijective : Function.Bijective fun i : Fin n => (⟨f i, hbound i i.isLt⟩ : Fin m) := by
    rw [Fintype.bijective_iff_injective_and_card, Fintype.card_fin, Fintype.card_fin]
    refine ⟨fun i j h => ?_, hlength⟩
    exact Fin.ext (hinjective i i.isLt j j.isLt (Fin.mk.inj h))
  exact ⟨Equiv.ofBijective _ hbijective, fun i => rfl⟩

theorem exists_places_of_perm {xs ys : List α} (h : xs.Perm ys) :
    ∃ f : Nat → Nat, (∀ i < xs.length, f i < ys.length ∧ ys[f i]? = xs[i]?) ∧
      ∀ i < xs.length, ∀ j < xs.length, f i = f j → i = j := by
  induction h with
  | nil => exact ⟨id, fun i hi => absurd hi (Nat.not_lt_zero i), fun i hi => absurd hi (Nat.not_lt_zero i)⟩
  | cons a _ ih =>
      obtain ⟨f, hf, hinjective⟩ := ih
      refine ⟨fun i => i.casesOn 0 fun i => f i + 1, fun i hi => ?_, fun i hi j hj heq => ?_⟩
      · cases i with
        | zero => exact ⟨Nat.zero_lt_succ _, rfl⟩
        | succ i =>
            obtain ⟨hlt, hget⟩ := hf i (Nat.lt_of_succ_lt_succ hi)
            exact ⟨Nat.succ_lt_succ hlt, by rw [List.getElem?_cons_succ, List.getElem?_cons_succ]; exact hget⟩
      · cases i with
        | zero =>
            cases j with
            | zero => rfl
            | succ j => exact absurd heq (Nat.succ_ne_zero _).symm
        | succ i =>
            cases j with
            | zero => exact absurd heq (Nat.succ_ne_zero _)
            | succ j =>
                exact congrArg Nat.succ (hinjective i (Nat.lt_of_succ_lt_succ hi) j (Nat.lt_of_succ_lt_succ hj)
                  (Nat.succ.inj heq))
  | swap a b l =>
      refine ⟨fun i => if i = 0 then 1 else if i = 1 then 0 else i, fun i hi => ?_, fun i _ j _ heq => ?_⟩
      · rcases i with _ | _ | i
        · exact ⟨by simp, rfl⟩
        · exact ⟨by simp, rfl⟩
        · exact ⟨by simpa using hi, by simp⟩
      · dsimp only at heq
        split_ifs at heq <;> omega
  | trans _ _ ih ih' =>
      obtain ⟨f, hf, hinjective⟩ := ih
      obtain ⟨g, hg, hinjective'⟩ := ih'
      refine ⟨fun i => g (f i), fun i hi => ?_, fun i hi j hj heq => ?_⟩
      · exact ⟨(hg _ (hf i hi).1).1, (hg _ (hf i hi).1).2.trans (hf i hi).2⟩
      · exact hinjective i hi j hj (hinjective' _ (hf i hi).1 _ (hf j hj).1 heq)

theorem exists_equiv_of_perm {xs ys : List α} (h : xs.Perm ys) :
    ∃ σ : Fin xs.length ≃ Fin ys.length, ∀ i, ys.get (σ i) = xs.get i := by
  obtain ⟨f, hf, hinjective⟩ := exists_places_of_perm h
  obtain ⟨σ, hσ⟩ := exists_equiv h.length_eq (fun i hi => (hf i hi).1) hinjective
  refine ⟨σ, fun i => Option.some.inj ?_⟩
  have hget := (hf i i.isLt).2
  rw [← hσ i, List.getElem?_eq_getElem (σ i).isLt, List.getElem?_eq_getElem i.isLt] at hget
  exact hget

/-- The order of the items on either side does not matter. -/
theorem pairing_perm {xs xs' : List α} {ys ys' : List β} (hx : xs.Perm xs') (hy : ys.Perm ys') :
    Pairing R xs ys → Pairing R xs' ys' := by
  rintro ⟨σ, hσ⟩
  obtain ⟨τ, hτ⟩ := exists_equiv_of_perm hx.symm
  obtain ⟨ρ, hρ⟩ := exists_equiv_of_perm hy
  refine ⟨(τ.trans σ).trans ρ, fun i => ?_⟩
  have h := hσ (τ i)
  rw [hτ i, ← hρ] at h
  exact h

/-- Expected items may be replaced by ones that pair with as much. -/
theorem pairing_left {xs xs' : List α} {ys : List β} (h : List.Forall₂ (fun x x' => ∀ y, R x y → R x' y) xs xs') :
    Pairing R xs ys → Pairing R xs' ys := by
  rintro ⟨σ, hσ⟩
  refine ⟨(finCongr h.length_eq.symm).trans σ, fun i => ?_⟩
  exact h.get ((finCongr h.length_eq.symm) i).isLt i.isLt _ (hσ _)

theorem pairing_right {xs : List α} {ys ys' : List β} (h : List.Forall₂ (fun y y' => ∀ x, R x y → R x y') ys ys') :
    Pairing R xs ys → Pairing R xs ys' := by
  rintro ⟨σ, hσ⟩
  refine ⟨σ.trans (finCongr h.length_eq), fun i => ?_⟩
  exact h.get (σ i).isLt ((finCongr h.length_eq) (σ i)).isLt _ (hσ i)

end Pairings

/-! ## Collections without order -/

noncomputable section
open Classical

variable {casefold : String → String} {config : GoldenComparisonConfig} {path : String}

theorem mem_edges {expected : List (Data × Comparer)} {actual : List Data} {left right : Nat} :
    right ∈ edges expected actual path left ↔ ∃ item other, expected[left]? = some item ∧ actual[right]? = some other ∧
      item.2 other (path ++ "[*]") = [] := by
  unfold edges
  cases hitem : expected[left]? with
  | none => simp
  | some item =>
      simp only [List.mem_map, List.mem_filter, List.isEmpty_iff]
      constructor
      · rintro ⟨⟨other, index⟩, ⟨hmem, hclose⟩, rfl⟩
        exact ⟨item, other, rfl, List.mem_zipIdx_iff_getElem?.mp hmem, hclose⟩
      · rintro ⟨item', other, heq, hother, hclose⟩
        obtain rfl := Option.some.inj heq
        exact ⟨(other, right), ⟨List.mem_zipIdx_iff_getElem?.mpr hother, hclose⟩, rfl⟩

/-- A matching of all expected items is a pairing, where there are as many actual ones. -/
theorem exists_covers_iff {expected : List (Data × Comparer)} {actual : List Data}
    (hlength : expected.length = actual.length) :
    (∃ f, Matching.Covers (edges expected actual path) expected.length f) ↔
      Pairing (fun item other => item.2 other (path ++ "[*]") = []) expected actual := by
  constructor
  · rintro ⟨f, hedge, hinjective⟩
    have hplace (i : Nat) (hi : i < expected.length) : ∃ other, actual[f i]? = some other ∧
        expected[i].2 other (path ++ "[*]") = [] := by
      obtain ⟨item, other, hitem, hother, hclose⟩ := mem_edges.mp (hedge i hi)
      rw [List.getElem?_eq_getElem hi, Option.some.injEq] at hitem
      exact ⟨other, hother, hitem ▸ hclose⟩
    have hbound (i : Nat) (hi : i < expected.length) : f i < actual.length := by
      obtain ⟨other, hother, -⟩ := hplace i hi
      exact (List.getElem?_eq_some_iff.mp hother).1
    obtain ⟨σ, hσ⟩ := exists_equiv hlength hbound hinjective
    refine ⟨σ, fun i => ?_⟩
    obtain ⟨other, hother, hclose⟩ := hplace i i.isLt
    rw [← hσ i, List.getElem?_eq_getElem (σ i).isLt, Option.some.injEq] at hother
    subst hother
    exact hclose
  · rintro ⟨σ, hσ⟩
    refine ⟨fun i => if hi : i < expected.length then σ ⟨i, hi⟩ else 0, fun i hi => ?_, fun i hi j hj heq => ?_⟩
    · dsimp only
      rw [dif_pos hi, mem_edges]
      exact ⟨_, _, List.getElem?_eq_getElem hi, List.getElem?_eq_getElem (σ ⟨i, hi⟩).isLt, hσ ⟨i, hi⟩⟩
    · dsimp only at heq
      rw [dif_pos hi, dif_pos hj] at heq
      exact Fin.mk.inj (σ.injective (Fin.ext heq))

/-- A collection without order gives no mismatch exactly when its items can be paired. -/
theorem compareUnordered_eq_nil_iff {expected : List (Data × Comparer)} {actual : List Data} :
    compareUnordered expected actual path = [] ↔
      Pairing (fun item other => item.2 other (path ++ "[*]") = []) expected actual := by
  unfold compareUnordered
  by_cases hlength : expected.length = actual.length
  · have hedges (left : Nat) : ∀ right ∈ edges expected actual path left, right < actual.length := by
      intro right hright
      obtain ⟨-, other, -, hother, -⟩ := mem_edges.mp hright
      exact (List.getElem?_eq_some_iff.mp hother).1
    rw [if_neg (not_not.mpr hlength), ← exists_covers_iff hlength, ← Matching.matchAll_unmatched_iff hedges]
    dsimp only
    split_ifs with hmatched hmismatches
    · exact iff_of_true rfl hmatched
    · exact iff_of_false (by simp) hmatched
    · exact iff_of_false hmismatches hmatched
  · rw [if_pos hlength]
    refine iff_of_false (List.cons_ne_nil _ _) ?_
    rintro ⟨σ, -⟩
    have hcard := Fintype.card_congr σ
    rw [Fintype.card_fin, Fintype.card_fin] at hcard
    exact hlength hcard

attribute [local simp] compare comparers memberComparers compareAtoms AtomEq

theorem comparers_eq_map (xs : List Data) :
    comparers casefold config xs = xs.map fun x => (x, compare casefold config x) := by
  induction xs with
  | nil => rfl
  | cons x xs ih => simp [ih]

theorem memberComparers_eq_map (ms : List (String × Data)) :
    memberComparers casefold config ms = ms.map fun m => (m.1, m.2, compare casefold config m.2) := by
  induction ms with
  | nil => rfl
  | cons m ms ih => simp [ih]

/-! ## What compares without mismatch -/

theorem pairing_map_iff {xs ys : List Data} {p : String} :
    Pairing (fun (item : Data × Comparer) other => item.2 other p = []) (xs.map fun x => (x, compare casefold config x)) ys ↔
      Pairing (fun x y => compare casefold config x y p = []) xs ys := by
  have hlength : (xs.map fun x => (x, compare casefold config x)).length = xs.length := List.length_map _
  constructor
  · rintro ⟨σ, hσ⟩
    refine ⟨(finCongr hlength.symm).trans σ, fun i => ?_⟩
    have h := hσ ((finCongr hlength.symm) i)
    rwa [List.get_eq_getElem, List.getElem_map] at h
  · rintro ⟨σ, hσ⟩
    refine ⟨(finCongr hlength).trans σ, fun i => ?_⟩
    rw [List.get_eq_getElem, List.getElem_map]
    exact hσ ((finCongr hlength) i)

theorem compare_unordered_iff {xs ys : List Data} (h : pathLeaf casefold path ∈ ORDER_INSENSITIVE_COLLECTIONS) :
    compare casefold config (.list xs) (.list ys) path = [] ↔
      Pairing (fun x y => compare casefold config x y (path ++ "[*]") = []) xs ys := by
  rw [compare, if_pos h, compareUnordered_eq_nil_iff, comparers_eq_map, pairing_map_iff]

theorem compare_ordered_iff {xs ys : List Data} (h : pathLeaf casefold path ∉ ORDER_INSENSITIVE_COLLECTIONS) :
    compare casefold config (.list xs) (.list ys) path = [] ↔ xs.length = ys.length ∧
      ∀ (i : Nat) (x y : Data), xs[i]? = some x → ys[i]? = some y →
        compare casefold config x y (path ++ "[" ++ toString i ++ "]") = [] := by
  rw [compare, if_neg h, comparers_eq_map, compareOrdered, List.append_eq_nil_iff, List.flatMap_eq_nil_iff]
  refine and_congr ?_ ⟨fun hitems i x y hx hy => ?_, fun hitems item hitem => ?_⟩
  · rw [List.length_map]
    by_cases hlength : xs.length = ys.length
    · simp [hlength]
    · simp [hlength]
  · refine hitems (((x, compare casefold config x), y), i) ?_
    rw [List.mem_zipIdx_iff_getElem?, List.getElem?_zip_eq_some, List.getElem?_map, hx]
    exact ⟨rfl, hy⟩
  · obtain ⟨⟨item, y⟩, i⟩ := item
    rw [List.mem_zipIdx_iff_getElem?, List.getElem?_zip_eq_some, List.getElem?_map, Option.map_eq_some_iff] at hitem
    obtain ⟨⟨x, hx, rfl⟩, hy⟩ := hitem
    exact hitems i x y hx hy

theorem fields_map {α β : Type} (f : α → β) (ms : List (String × α)) :
    fields casefold config (ms.map fun m => (m.1, f m.2)) = (fields casefold config ms).map fun m => (m.1, f m.2) := by
  rw [fields, fields, List.filter_map]
  rfl

theorem lookup_map {α β : Type} (f : α → β) (ms : List (String × α)) (key : String) :
    (ms.map fun m => (m.1, f m.2)).lookup key = (ms.lookup key).map f := by
  induction ms with
  | nil => rfl
  | cons m ms ih =>
      obtain ⟨k, v⟩ := m
      by_cases h : key = k
      · subst h
        simp
      · have hne : (key == k) = false := beq_false_of_ne h
        rw [List.map_cons, List.lookup_cons, List.lookup_cons, hne]
        exact ih

/-- Two mappings compare without mismatch if each of their fields does. -/
theorem compare_mapping_iff {ms ns : List (String × Data)} :
    compare casefold config (.mapping ms) (.mapping ns) path = [] ↔
      ∀ key, compareField casefold path key
        (((fields casefold config ms).lookup key).map fun v => (v, compare casefold config v))
        ((fields casefold config ns).lookup key) = [] := by
  rw [compare, memberComparers_eq_map, compareMappings]
  rw [fields_map (fun v => (v, compare casefold config v)), List.flatMap_eq_nil_iff]
  simp only [lookup_map (fun v => (v, compare casefold config v)), mem_sortBy, List.mem_dedup, List.mem_append]
  refine ⟨fun h key => ?_, fun h key _ => h key⟩
  by_cases hkey : key ∈ ((fields casefold config ms).map fun m => (m.1, m.2, compare casefold config m.2)).map Prod.fst ∨
      key ∈ (fields casefold config ns).map Prod.fst
  · exact h key hkey
  · rw [List.map_map, not_or] at hkey
    have hnone {α : Type} {l : List (String × α)} (hl : key ∉ l.map Prod.fst) : l.lookup key = none :=
      List.lookup_eq_none_iff.mpr fun m hm => bne_iff_ne.mpr fun heq => hl (heq ▸ List.mem_map_of_mem hm)
    rw [hnone hkey.1, hnone hkey.2]
    rfl

theorem compare_list_ne_nil {xs : List Data} {actual : Data} (h : ∀ ys, actual ≠ .list ys) :
    compare casefold config (.list xs) actual path ≠ [] := by
  cases actual with
  | list ys => exact absurd rfl (h ys)
  | _ => simp

theorem compare_mapping_ne_nil {ms : List (String × Data)} {actual : Data} (h : ∀ ns, actual ≠ .mapping ns) :
    compare casefold config (.mapping ms) actual path ≠ [] := by
  cases actual with
  | mapping ns => exact absurd rfl (h ns)
  | _ => simp

theorem ne_nil_compare_list {ys : List Data} {expected : Data} (h : ∀ xs, expected ≠ .list xs) :
    compare casefold config expected (.list ys) path ≠ [] := by
  cases expected with
  | list xs => exact absurd rfl (h xs)
  | _ => simp

theorem ne_nil_compare_mapping {ns : List (String × Data)} {expected : Data} (h : ∀ ms, expected ≠ .mapping ms) :
    compare casefold config expected (.mapping ns) path ≠ [] := by
  cases expected with
  | mapping ms => exact absurd rfl (h ms)
  | _ => simp

/-! ## Reordering -/

/-- The same data but for the order of one collection without order, at some depth below a path. -/
inductive Reordered (casefold : String → String) : String → Data → Data → Prop
  | perm {path : String} {xs ys : List Data} : pathLeaf casefold path ∈ ORDER_INSENSITIVE_COLLECTIONS → xs.Perm ys →
      Reordered casefold path (.list xs) (.list ys)
  | unordered {path : String} {x y : Data} (before after : List Data) :
      pathLeaf casefold path ∈ ORDER_INSENSITIVE_COLLECTIONS → Reordered casefold (path ++ "[*]") x y →
      Reordered casefold path (.list (before ++ x :: after)) (.list (before ++ y :: after))
  | ordered {path : String} {x y : Data} (before after : List Data) :
      pathLeaf casefold path ∉ ORDER_INSENSITIVE_COLLECTIONS →
      Reordered casefold (path ++ "[" ++ toString before.length ++ "]") x y →
      Reordered casefold path (.list (before ++ x :: after)) (.list (before ++ y :: after))
  | member {path key : String} {v w : Data} (before after : List (String × Data)) :
      Reordered casefold (path ++ "." ++ key) v w →
      Reordered casefold path (.mapping (before ++ (key, v) :: after)) (.mapping (before ++ (key, w) :: after))

theorem Reordered.symm {x y : Data} (h : Reordered casefold path x y) : Reordered casefold path y x := by
  induction h with
  | perm hleaf hperm => exact .perm hleaf hperm.symm
  | unordered before after hleaf _ ih => exact .unordered before after hleaf ih
  | ordered before after hleaf _ ih => exact .ordered before after hleaf ih
  | member before after _ ih => exact .member before after ih

theorem Reordered.isStr_eq_false {x y : Data} (h : Reordered casefold path x y) : isStr x = false ∧ isStr y = false := by
  cases h with
  | perm _ _ => exact ⟨rfl, rfl⟩
  | unordered _ _ _ _ => exact ⟨rfl, rfl⟩
  | ordered _ _ _ _ => exact ⟨rfl, rfl⟩
  | member _ _ _ => exact ⟨rfl, rfl⟩

def strList : Data → Bool
  | .list xs => xs.all isStr
  | _ => false

theorem referencesOnly_eq (x y : Data) : referencesOnly x y = (strList x && strList y) := by
  cases x <;> cases y <;> simp [referencesOnly, strList]

theorem Reordered.strList_eq {x y : Data} (h : Reordered casefold path x y) : strList x = strList y := by
  cases h with
  | perm _ hperm => exact hperm.all_eq
  | unordered before after _ h => simp [strList, h.isStr_eq_false]
  | ordered before after _ h => simp [strList, h.isStr_eq_false]
  | member _ _ _ => rfl

/-- The fields of reordered mappings are the same but for one, which is reordered. -/
theorem lookup_fields_member (casefold : String → String) (config : GoldenComparisonConfig) (key : String) (v w : Data)
    (before after : List (String × Data)) (k : String) :
    (fields casefold config (before ++ (key, v) :: after)).lookup k =
        (fields casefold config (before ++ (key, w) :: after)).lookup k ∨
      (k = key ∧ (fields casefold config (before ++ (key, v) :: after)).lookup k = some v ∧
        (fields casefold config (before ++ (key, w) :: after)).lookup k = some w) := by
  by_cases hignored : isIgnoredField casefold config key
  · left
    simp [fields, hignored]
  · have hfields (u : Data) : fields casefold config (before ++ (key, u) :: after) =
        fields casefold config before ++ (key, u) :: fields casefold config after := by
      simp [fields, hignored]
    rw [hfields, hfields, List.lookup_append, List.lookup_append]
    cases hbefore : (fields casefold config before).lookup k with
    | some u => exact .inl rfl
    | none =>
        by_cases hk : k = key
        · subst hk
          right
          simp
        · left
          have hne : (k == key) = false := beq_false_of_ne hk
          simp [List.lookup_cons, hne]

theorem forall₂_replace {R : Data → Data → Prop} (hrefl : ∀ z, R z z) (before after : List Data) {x y : Data} (h : R x y) :
    List.Forall₂ R (before ++ x :: after) (before ++ y :: after) :=
  List.rel_append (List.forall₂_same.mpr fun z _ => hrefl z) (.cons h (List.forall₂_same.mpr fun z _ => hrefl z))

theorem getElem?_replace (before after : List Data) (x y : Data) (i : Nat) :
    (before ++ x :: after)[i]? = (before ++ y :: after)[i]? ∨
      (i = before.length ∧ (before ++ x :: after)[i]? = some x ∧ (before ++ y :: after)[i]? = some y) := by
  rcases lt_trichotomy i before.length with h | rfl | h
  · left
    rw [List.getElem?_append_left h, List.getElem?_append_left h]
  · right
    simp
  · left
    rw [List.getElem?_append_right h.le, List.getElem?_append_right h.le]
    obtain ⟨k, hk⟩ : ∃ k, i - before.length = k + 1 := ⟨i - before.length - 1, by omega⟩
    rw [hk, List.getElem?_cons_succ, List.getElem?_cons_succ]

/-- The order of a collection without order does not matter in what is expected. -/
theorem Reordered.compare_left {x y : Data} (h : Reordered casefold path x y) :
    ∀ actual, compare casefold config x actual path = [] → compare casefold config y actual path = [] := by
  induction h with
  | perm hleaf hperm =>
      intro actual hnil
      cases actual with
      | list ys =>
          rw [compare_unordered_iff hleaf] at hnil ⊢
          exact pairing_perm hperm (.refl _) hnil
      | _ => exact absurd hnil (compare_list_ne_nil fun _ h => nomatch h)
  | unordered before after hleaf _ ih =>
      intro actual hnil
      cases actual with
      | list ys =>
          rw [compare_unordered_iff hleaf] at hnil ⊢
          exact pairing_left (forall₂_replace (fun _ _ h => h) before after ih) hnil
      | _ => exact absurd hnil (compare_list_ne_nil fun _ h => nomatch h)
  | @ordered path x y before after hleaf _ ih =>
      intro actual hnil
      cases actual with
      | list ys =>
          rw [compare_ordered_iff hleaf] at hnil ⊢
          refine ⟨by simpa using hnil.1, fun i z other hz hother => ?_⟩
          rcases getElem?_replace before after x y i with hsame | ⟨rfl, hx, hy⟩
          · exact hnil.2 i z other (hsame.trans hz) hother
          · obtain rfl := Option.some.inj (hy.symm.trans hz)
            exact ih other (hnil.2 _ x other hx hother)
      | _ => exact absurd hnil (compare_list_ne_nil fun _ h => nomatch h)
  | @member path key v w before after hreordered ih =>
      intro actual hnil
      cases actual with
      | mapping ns =>
          rw [compare_mapping_iff] at hnil ⊢
          intro k
          have hk := hnil k
          rcases lookup_fields_member casefold config key v w before after k with hsame | ⟨rfl, hv, hw⟩
          · rwa [← hsame]
          · rw [hv] at hk
            rw [hw]
            cases hactual : (fields casefold config ns).lookup k with
            | none => rw [hactual] at hk; cases hk
            | some other =>
                rw [hactual] at hk
                simp only [Option.map_some, compareField, referencesOnly_eq, hreordered.strList_eq] at hk ⊢
                split_ifs at hk ⊢ with hskip
                · rfl
                · exact ih other hk
      | _ => exact absurd hnil (compare_mapping_ne_nil fun _ h => nomatch h)

/-- The order of a collection without order does not matter in what is there. -/
theorem Reordered.compare_right {x y : Data} (h : Reordered casefold path x y) :
    ∀ expected, compare casefold config expected x path = [] → compare casefold config expected y path = [] := by
  induction h with
  | perm hleaf hperm =>
      intro expected hnil
      cases expected with
      | list xs =>
          rw [compare_unordered_iff hleaf] at hnil ⊢
          exact pairing_perm (.refl _) hperm hnil
      | _ => exact absurd hnil (ne_nil_compare_list fun _ h => nomatch h)
  | unordered before after hleaf _ ih =>
      intro expected hnil
      cases expected with
      | list xs =>
          rw [compare_unordered_iff hleaf] at hnil ⊢
          exact pairing_right (forall₂_replace (fun _ _ h => h) before after ih) hnil
      | _ => exact absurd hnil (ne_nil_compare_list fun _ h => nomatch h)
  | @ordered path x y before after hleaf _ ih =>
      intro expected hnil
      cases expected with
      | list xs =>
          rw [compare_ordered_iff hleaf] at hnil ⊢
          refine ⟨by simpa using hnil.1, fun i z other hz hother => ?_⟩
          rcases getElem?_replace before after x y i with hsame | ⟨rfl, hx, hy⟩
          · exact hnil.2 i z other hz (hsame.trans hother)
          · obtain rfl := Option.some.inj (hy.symm.trans hother)
            exact ih z (hnil.2 _ z x hz hx)
      | _ => exact absurd hnil (ne_nil_compare_list fun _ h => nomatch h)
  | @member path key v w before after hreordered ih =>
      intro expected hnil
      cases expected with
      | mapping ms =>
          rw [compare_mapping_iff] at hnil ⊢
          intro k
          have hk := hnil k
          rcases lookup_fields_member casefold config key v w before after k with hsame | ⟨rfl, hv, hw⟩
          · rwa [← hsame]
          · rw [hv] at hk
            rw [hw]
            cases hexpected : (fields casefold config ms).lookup k with
            | none => rw [hexpected] at hk; cases hk
            | some other =>
                rw [hexpected] at hk
                simp only [Option.map_some, compareField, referencesOnly_eq, hreordered.strList_eq] at hk ⊢
                split_ifs at hk ⊢ with hskip
                · rfl
                · exact ih other hk
      | _ => exact absurd hnil (ne_nil_compare_mapping fun _ h => nomatch h)

theorem Reordered.isEmpty_left {x y : Data} (h : Reordered casefold path x y) (actual : Data) :
    (compare casefold config x actual path).isEmpty = (compare casefold config y actual path).isEmpty := by
  rw [Bool.eq_iff_iff, List.isEmpty_iff, List.isEmpty_iff]
  exact ⟨h.compare_left actual, h.symm.compare_left actual⟩

theorem Reordered.isEmpty_right {x y : Data} (h : Reordered casefold path x y) (expected : Data) :
    (compare casefold config expected x path).isEmpty = (compare casefold config expected y path).isEmpty := by
  rw [Bool.eq_iff_iff, List.isEmpty_iff, List.isEmpty_iff]
  exact ⟨h.compare_right expected, h.symm.compare_right expected⟩

/-! ## Verdicts -/

/-- `GoldenComparisonResult.matches` -/
def semanticVerdict (casefold : String → String) (config : GoldenComparisonConfig) (expected actual : Data) :
    Except String Bool :=
  (compareSemanticEntities casefold config expected actual).map List.isEmpty

def takeoffVerdict (casefold : String → String) (config : GoldenComparisonConfig) (expected actual : Data) : Bool :=
  (compareTakeoffReports casefold config expected actual).isEmpty

/-- Entity payloads that differ in the order of one collection without order: as lists of entities, or as mappings. -/
inductive PayloadReordered (casefold : String → String) : Data → Data → Prop
  | entities {xs ys : List Data} : Reordered casefold "$.entities" (.list xs) (.list ys) →
      PayloadReordered casefold (.list xs) (.list ys)
  | mapping {ms ns : List (String × Data)} : Reordered casefold "$" (.mapping ms) (.mapping ns) →
      PayloadReordered casefold (.mapping ms) (.mapping ns)

/-- What is extracted from reordered payloads: the same error, the same entities or reordered ones. -/
theorem PayloadReordered.extract {x y : Data} (h : PayloadReordered casefold x y) :
    extractEntities x = extractEntities y ∨ ∃ xs ys, extractEntities x = .ok xs ∧ extractEntities y = .ok ys ∧
      Reordered casefold "$.entities" (.list xs) (.list ys) := by
  cases h with
  | entities h => exact .inr ⟨_, _, rfl, rfl, h⟩
  | mapping h =>
      cases h with
      | @member _ key v w before after hreordered =>
          unfold extractEntities
          dsimp only
          rw [List.lookup_append, List.lookup_append]
          cases hbefore : before.lookup "entities" with
          | some u => exact .inl rfl
          | none =>
              by_cases hkey : "entities" = key
              · subst hkey
                simp only [List.lookup_cons_self, Option.none_or]
                cases hreordered with
                | perm hleaf hperm => exact .inr ⟨_, _, rfl, rfl, .perm hleaf hperm⟩
                | unordered before after hleaf h => exact .inr ⟨_, _, rfl, rfl, .unordered before after hleaf h⟩
                | ordered before after hleaf h => exact .inr ⟨_, _, rfl, rfl, .ordered before after hleaf h⟩
                | member _ _ _ => exact .inl rfl
              · have hne : ("entities" == key) = false := beq_false_of_ne hkey
                simp [List.lookup_cons, hne]

theorem reordered_entities {xs ys : List Data} (h : Reordered casefold "$.entities" (.list xs) (.list ys)) :
    Reordered casefold "$" (.mapping [("entities", .list xs)]) (.mapping [("entities", .list ys)]) :=
  .member [] [] h

theorem semanticVerdict_left {x y : Data} (h : PayloadReordered casefold x y) (actual : Data) :
    semanticVerdict casefold config x actual = semanticVerdict casefold config y actual := by
  unfold semanticVerdict compareSemanticEntities
  rcases h.extract with hsame | ⟨xs, ys, hx, hy, hreordered⟩
  · rw [hsame]
  · rw [hx, hy]
    cases hactual : extractEntities actual with
    | error e => rfl
    | ok zs => exact congrArg Except.ok ((reordered_entities hreordered).isEmpty_left _)

theorem semanticVerdict_right {x y : Data} (h : PayloadReordered casefold x y) (expected : Data) :
    semanticVerdict casefold config expected x = semanticVerdict casefold config expected y := by
  unfold semanticVerdict compareSemanticEntities
  cases hexpected : extractEntities expected with
  | error e => rfl
  | ok zs =>
      rcases h.extract with hsame | ⟨xs, ys, hx, hy, hreordered⟩
      · rw [hsame]
      · rw [hx, hy]
        exact congrArg Except.ok ((reordered_entities hreordered).isEmpty_right _)

end

end CadHarness.Golden
