import CadHarness.Lib.SortBy
import Mathlib.Algebra.BigOperators.Group.List.Basic
import Mathlib.Algebra.Order.Field.Basic
import Mathlib.Algebra.Order.BigOperators.Group.List
import Mathlib.Data.List.SplitBy
import Mathlib.Data.Prod.Lex
import Mathlib.Tactic.Linarith

/-!
# Levels of close numbers

Numbers are gathered into runs: sorted, and parted wherever the next number is further away than a gap. A number
that is within the gap of the mean of a run belongs to the run. Two rankings of the same members by the same values
agree unless they order some two members differently.
-/

namespace CadHarness.Lib

/-! ## Rankings -/

section Rankings

variable {ι κ : Type} [LinearOrder κ] {f g : ι → κ} {members : List ι}

/-- Two rankings with the same values, of which the second follows the first, are equal. -/
theorem eq_of_same_ranks (hvalues : (members.map f).Perm (members.map g))
    (hfollows : ∀ a ∈ members, ∀ b ∈ members, f a < f b → g a ≤ g b) : ∀ a ∈ members, f a = g a := by
  -- Sorted by both, the first before the second, the members are sorted by each.
  let key := fun a => toLex (f a, g a)
  have hperm := sortBy_perm key members
  have hsorted := pairwise_sortBy key members
  have hpair : (sortBy key members).Pairwise fun a b => f a ≤ f b ∧ g a ≤ g b := by
    refine hsorted.imp_of_mem fun {a b} ha hb hle => ?_
    rw [Prod.Lex.toLex_le_toLex] at hle
    cases hle with
    | inl hlt => exact ⟨hlt.le, hfollows a ((mem_sortBy key).mp ha) b ((mem_sortBy key).mp hb) hlt⟩
    | inr heq => exact ⟨heq.1.le, heq.2⟩
  have hf : ((sortBy key members).map f).Pairwise (· ≤ ·) := List.pairwise_map.mpr (hpair.imp And.left)
  have hg : ((sortBy key members).map g).Pairwise (· ≤ ·) := List.pairwise_map.mpr (hpair.imp And.right)
  have heq : (sortBy key members).map f = (sortBy key members).map g := by
    refine List.Perm.eq_of_pairwise' hf hg ?_
    exact (hperm.map f).trans (hvalues.trans (hperm.map g).symm)
  intro a ha
  exact List.map_inj_left.mp heq a ((mem_sortBy key).mpr ha)

/-- Members and places that are paired have the same ranks, if the places follow the members. -/
theorem forall₂_same_ranks {π : Type} {R : ι → π → Prop} {places : List π} {g : π → κ}
    (h : List.Forall₂ R members places) (hvalues : (members.map f).Perm (places.map g))
    (hfollows : ∀ a ∈ members, ∀ b ∈ members, ∀ p q, R a p → R b q → f a < f b → g p ≤ g q) :
    List.Forall₂ (fun a p => R a p ∧ f a = g p) members places := by
  obtain ⟨hlength, hpaired⟩ := List.forall₂_iff_zip.mp h
  have hfst : (members.zip places).map (f ∘ Prod.fst) = members.map f := by
    rw [← List.map_map, List.map_fst_zip hlength.le]
  have hsnd : (members.zip places).map (g ∘ Prod.snd) = places.map g := by
    rw [← List.map_map, List.map_snd_zip hlength.ge]
  refine List.forall₂_iff_zip.mpr ⟨hlength, fun {a p} hmem => ⟨hpaired hmem, ?_⟩⟩
  refine eq_of_same_ranks (f := f ∘ Prod.fst) (g := g ∘ Prod.snd) ?_ ?_ (a, p) hmem
  · rwa [hfst, hsnd]
  · intro x hx y hy
    exact hfollows x.1 (List.of_mem_zip hx).1 y.1 (List.of_mem_zip hy).1 x.2 y.2 (hpaired hx) (hpaired hy)

end Rankings

/-! ## Means -/

variable {κ : Type} [Field κ] [LinearOrder κ]

def mean (values : List κ) : κ := values.sum / values.length

section Means

variable [IsStrictOrderedRing κ] {values : List κ} {bound : κ}

theorem mean_lt (hne : values ≠ []) (h : ∀ u ∈ values, u < bound) : mean values < bound := by
  have hlength : (0 : κ) < values.length := by exact_mod_cast List.length_pos_iff.mpr hne
  have hsum : values.sum < (values.map fun _ => bound).sum := by
    have := List.sum_lt_sum_of_ne_nil hne (fun u => u) (fun _ => bound) h
    rwa [List.map_id'] at this
  rw [mean, div_lt_iff₀ hlength]
  simpa [mul_comm] using hsum

theorem mean_le (hne : values ≠ []) (h : ∀ u ∈ values, u ≤ bound) : mean values ≤ bound := by
  have hlength : (0 : κ) < values.length := by exact_mod_cast List.length_pos_iff.mpr hne
  have hsum : values.sum ≤ (values.map fun _ => bound).sum := by
    have := List.sum_le_sum (l := values) (f := fun u => u) (g := fun _ => bound) h
    rwa [List.map_id'] at this
  rw [mean, div_le_iff₀ hlength]
  simpa [mul_comm] using hsum

theorem lt_mean (hne : values ≠ []) (h : ∀ u ∈ values, bound < u) : bound < mean values := by
  have hlength : (0 : κ) < values.length := by exact_mod_cast List.length_pos_iff.mpr hne
  have hsum : (values.map fun _ => bound).sum < values.sum := by
    have := List.sum_lt_sum_of_ne_nil hne (fun _ => bound) (fun u => u) h
    rwa [List.map_id'] at this
  rw [mean, lt_div_iff₀ hlength]
  simpa [mul_comm] using hsum

end Means

/-! ## Runs -/

/-- The numbers in their order, parted where the next one is further away than the gap. -/
def runs (gap : κ) (values : List κ) : List (List κ) :=
  (values.insertionSort (· ≤ ·)).splitBy fun a b => decide (|b - a| ≤ gap)

section Runs

variable {gap : κ} {values : List κ} {i j : Nat} {run run' : List κ} {v : κ}

theorem runs_flatten_perm : (runs gap values).flatten.Perm values := by
  rw [runs, List.flatten_splitBy]
  exact List.perm_insertionSort _ _

theorem runs_ne_nil (h : run ∈ runs gap values) : run ≠ [] := List.ne_nil_of_mem_splitBy h

/-- Every number belongs to a run. -/
theorem exists_run (gap : κ) (hv : v ∈ values) :
    ∃ (i : Nat) (run : List κ), (runs gap values)[i]? = some run ∧ v ∈ run := by
  obtain ⟨run, hrun, hmem⟩ := List.mem_flatten.mp ((@runs_flatten_perm κ _ _ gap values).mem_iff.mpr hv)
  obtain ⟨i, hi⟩ := List.mem_iff_getElem?.mp hrun
  exact ⟨i, run, hi, hmem⟩

/-- The gap lies between two runs, which are not empty. -/
def Apart (gap : κ) (run run' : List κ) : Prop := run ≠ [] ∧ run' ≠ [] ∧ ∀ u ∈ run, ∀ v ∈ run', u + gap < v

variable [IsStrictOrderedRing κ]

theorem Apart.trans (hgap : 0 ≤ gap) {run'' : List κ} (h : Apart gap run run') (h' : Apart gap run' run'') :
    Apart gap run run'' := by
  refine ⟨h.1, h'.2.1, fun u hu w hw => ?_⟩
  obtain ⟨v, hv⟩ := List.exists_mem_of_ne_nil _ h.2.1
  have huv := h.2.2 u hu v hv
  have hvw := h'.2.2 v hv w hw
  linarith

theorem runs_apart (hgap : 0 ≤ gap) : (runs gap values).Pairwise (Apart gap) := by
  have htrans : IsTrans (List κ) (Apart gap) := ⟨fun _ _ _ => Apart.trans hgap⟩
  have hsorted : (runs gap values).flatten.Pairwise (· ≤ ·) := by
    rw [runs, List.flatten_splitBy]
    exact List.pairwise_insertionSort _ _
  rw [List.pairwise_flatten] at hsorted
  obtain ⟨hwithin, hbetween⟩ := hsorted
  have hparted := List.isChain_getLast_head_splitBy (fun a b => decide (|b - a| ≤ gap))
    (values.insertionSort (· ≤ ·))
  rw [← runs] at hparted
  rw [← List.isChain_iff_pairwise, List.isChain_iff_getElem]
  intro i hi
  rw [List.isChain_iff_getElem] at hparted
  obtain ⟨hne, hne', hfar⟩ := hparted i hi
  refine ⟨hne, hne', fun u hu v hv => ?_⟩
  have hlast : u ≤ (runs gap values)[i].getLast hne := by
    rw [List.mem_iff_getElem] at hu
    obtain ⟨k, hk, rfl⟩ := hu
    rw [List.getLast_eq_getElem]
    rcases Nat.lt_or_ge k ((runs gap values)[i].length - 1) with hlt | hge
    · exact List.pairwise_iff_getElem.mp (hwithin _ (List.getElem_mem _)) k _ hk (by omega) hlt
    · exact le_of_eq (by congr 1; omega)
  have hhead : (runs gap values)[i + 1].head hne' ≤ v := by
    rw [List.mem_iff_getElem] at hv
    obtain ⟨k, hk, rfl⟩ := hv
    rw [List.head_eq_getElem]
    rcases Nat.eq_zero_or_pos k with rfl | hpos
    · exact le_refl _
    · exact List.pairwise_iff_getElem.mp (hwithin _ (List.getElem_mem _)) 0 k (by omega) hk hpos
  have hle := List.pairwise_iff_getElem.mp hbetween i (i + 1) (by omega) hi (by omega)
    _ (List.getLast_mem hne) _ (List.head_mem hne')
  rw [decide_eq_false_iff_not, not_le, abs_of_nonneg (sub_nonneg.mpr hle)] at hfar
  linarith

/-- Of two runs the first lies below the second. -/
theorem apart_of_lt (hgap : 0 ≤ gap) (hi : (runs gap values)[i]? = some run) (hj : (runs gap values)[j]? = some run')
    (hij : i < j) : Apart gap run run' := by
  obtain ⟨hi', rfl⟩ := List.getElem?_eq_some_iff.mp hi
  obtain ⟨hj', rfl⟩ := List.getElem?_eq_some_iff.mp hj
  exact List.pairwise_iff_getElem.mp (runs_apart hgap) i j hi' hj' hij

/-- No number belongs to two runs. -/
theorem run_unique (hgap : 0 ≤ gap) (hi : (runs gap values)[i]? = some run) (hj : (runs gap values)[j]? = some run')
    (hv : v ∈ run) (hv' : v ∈ run') : i = j := by
  rcases Nat.lt_trichotomy i j with h | h | h
  · have := (apart_of_lt hgap hi hj h).2.2 v hv v hv'
    linarith
  · exact h
  · have := (apart_of_lt hgap hj hi h).2.2 v hv' v hv
    linarith

theorem Apart.mean_lt (h : Apart gap run run') : mean run + gap < mean run' := by
  refine lt_mean h.2.1 fun v hv => ?_
  have : mean run < v - gap := Lib.mean_lt h.1 fun u hu => by
    have := h.2.2 u hu v hv
    linarith
  linarith

/-- What is as close as the gap to the mean of a run belongs to it. -/
theorem mem_run_of_near (hgap : 0 ≤ gap) (hv : v ∈ values) (hi : (runs gap values)[i]? = some run)
    (hnear : |v - mean run| ≤ gap) : v ∈ run := by
  obtain ⟨j, run', hj, hv'⟩ := exists_run gap hv
  rw [abs_le] at hnear
  rcases Nat.lt_trichotomy i j with h | h | h
  · have hapart := apart_of_lt hgap hi hj h
    have : mean run < v - gap := Lib.mean_lt hapart.1 fun u hu => by
      have := hapart.2.2 u hu v hv'
      linarith
    linarith
  · rw [h, hj] at hi
    cases hi
    exact hv'
  · have hapart := apart_of_lt hgap hj hi h
    have : v + gap < mean run := lt_mean hapart.2.1 fun u hu => hapart.2.2 v hv' u hu
    linarith

end Runs

end CadHarness.Lib
