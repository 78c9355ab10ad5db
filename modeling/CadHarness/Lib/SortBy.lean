import Mathlib.Data.List.Sort
import Mathlib.Data.List.Lex
import Mathlib.Data.List.Perm.Basic

/-!
# Lists sorted by a key

A stable sort by a key in a linear order, as `OrderBy` does it. Where no two elements have one key, the
result depends on the elements only, not on the order in which they came.
-/

namespace CadHarness.Lib

variable {α β κ : Type} [LinearOrder κ]

/-- The elements in the order of their keys. Those of one key keep their order. -/
def sortBy (key : α → κ) (l : List α) : List α :=
  l.insertionSort (fun a b => key a ≤ key b)

variable (key : α → κ)

theorem sortBy_perm (l : List α) : (sortBy key l).Perm l := List.perm_insertionSort _ _

@[simp] theorem mem_sortBy {l : List α} {a : α} : a ∈ sortBy key l ↔ a ∈ l := (sortBy_perm key l).mem_iff

@[simp] theorem length_sortBy (l : List α) : (sortBy key l).length = l.length := (sortBy_perm key l).length_eq

theorem pairwise_sortBy (l : List α) : (sortBy key l).Pairwise (fun a b => key a ≤ key b) := by
  have : Std.Total (fun a b : α => key a ≤ key b) := ⟨fun a b => le_total _ _⟩
  have : IsTrans α (fun a b => key a ≤ key b) := ⟨fun _ _ _ => le_trans⟩
  exact List.pairwise_insertionSort _ l

/-- Sorting looks at the keys only. -/
theorem map_sortBy {key : α → κ} {key' : β → κ} {f : α → β} (h : ∀ a, key' (f a) = key a) (l : List α) :
    (sortBy key l).map f = sortBy key' (l.map f) :=
  List.map_insertionSort _ _ f l (fun a _ b _ => by rw [h, h])

/-- What is related to the elements one by one can be put in their order. -/
theorem exists_forall₂_sortBy {R : β → α → Prop} {m : List β} {l : List α} (h : List.Forall₂ R m l) :
    ∃ m', m'.Perm m ∧ List.Forall₂ R m' (sortBy key l) := by
  obtain ⟨m', hm', hperm⟩ := List.perm_comp_forall₂ (sortBy_perm key l) h.flip
  exact ⟨m', hperm, hm'.flip⟩

variable {key}

theorem perm_of_sortBy_eq {l l' : List α} (h : sortBy key l = sortBy key l') : l.Perm l' :=
  ((sortBy_perm key l).symm.trans (List.Perm.of_eq h)).trans (sortBy_perm key l')

/-- With distinct keys the order is strict. -/
theorem pairwise_lt_sortBy {l : List α} (h : (l.map key).Nodup) :
    (sortBy key l).Pairwise (fun a b => key a < key b) := by
  have hne : (sortBy key l).Pairwise (fun a b => key a ≠ key b) :=
    List.pairwise_map.mp (((sortBy_perm key l).map key).nodup_iff.mpr h)
  exact ((pairwise_sortBy key l).and hne).imp (fun h => lt_of_le_of_ne h.1 h.2)

/-- Elements with distinct keys are sorted the same way, however they are ordered before. -/
theorem sortBy_congr {l l' : List α} (h : (l.map key).Nodup) (hperm : l.Perm l') :
    sortBy key l = sortBy key l' := by
  have hsorted : (sortBy key l).Perm (sortBy key l') :=
    (sortBy_perm key l).trans (hperm.trans (sortBy_perm key l').symm)
  have h' : (l'.map key).Nodup := (hperm.map key).nodup_iff.mp h
  exact hsorted.eq_of_pairwise (fun _ _ _ _ hlt hlt' => absurd hlt (lt_asymm hlt')) (pairwise_lt_sortBy h)
    (pairwise_lt_sortBy h')

/-- An element with the greatest key comes last. -/
theorem sortBy_concat {l : List α} {a : α} (hnodup : (l.map key).Nodup) (h : ∀ b ∈ l, key b < key a) :
    sortBy key (l ++ [a]) = sortBy key l ++ [a] := by
  have hne : key a ∉ l.map key := by
    intro hmem
    obtain ⟨b, hb, hkey⟩ := List.mem_map.mp hmem
    exact absurd hkey (h b hb).ne
  have hnodup' : ((l ++ [a]).map key).Nodup := by
    rw [List.map_append]
    exact hnodup.append (List.nodup_singleton _) (by simpa using hne)
  have hsorted : (sortBy key l ++ [a]).Pairwise (fun b c => key b < key c) := by
    rw [List.pairwise_append]
    exact ⟨pairwise_lt_sortBy hnodup, List.pairwise_singleton _ _, by simpa using h⟩
  have hperm : (sortBy key (l ++ [a])).Perm (sortBy key l ++ [a]) :=
    (sortBy_perm key _).trans ((sortBy_perm key l).symm.append_right [a])
  exact hperm.eq_of_pairwise (fun _ _ _ _ hlt hlt' => absurd hlt (lt_asymm hlt')) (pairwise_lt_sortBy hnodup')
    hsorted

/-- The last element has the greatest key. -/
theorem le_of_getLast?_sortBy {l : List α} {a b : α} (ha : (sortBy key l).getLast? = some a) (hb : b ∈ l) :
    key b ≤ key a := by
  obtain ⟨front, hfront⟩ := List.getLast?_eq_some_iff.mp ha
  have hmem : b ∈ front ++ [a] := hfront ▸ (mem_sortBy key).mpr hb
  have hsorted : (front ++ [a]).Pairwise (fun b c => key b ≤ key c) := hfront ▸ pairwise_sortBy key l
  rcases List.mem_append.mp hmem with hb | hb
  · exact (List.pairwise_append.mp hsorted).2.2 b hb a (List.mem_singleton_self a)
  · rw [List.mem_singleton.mp hb]

end CadHarness.Lib
