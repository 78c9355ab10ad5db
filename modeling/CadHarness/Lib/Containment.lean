import Mathlib.MeasureTheory.Integral.Bochner.Set
import Mathlib.MeasureTheory.Measure.AEDisjoint

/-!
# Nested regions

A finite family of regions in which any two are nested or apart. A region that lies in an even number of others counts
positive and one that lies in an odd number counts negative; what remains is the part of the plane that is covered an odd
number of times.
-/

namespace CadHarness.Lib
open MeasureTheory

/-- Whatever contains the same is nested. -/
structure Laminar {ι : Type*} (inside : ι → ι → Prop) : Prop where
  trans : ∀ a b c, inside a b → inside b c → inside a c
  nested : ∀ a b c, inside a b → inside a c → b = c ∨ inside b c ∨ inside c b

section

variable {ι : Type*} [Fintype ι] {inside : ι → ι → Prop} {area : ι → ℝ}

open Classical in
/-- What contains a member. -/
noncomputable def containers (inside : ι → ι → Prop) (a : ι) : Finset ι := Finset.univ.filter (inside a)

@[simp] theorem mem_containers {a b : ι} : b ∈ containers inside a ↔ inside a b := by
  simp [containers]

section

variable [DecidableEq ι]

/-- The least container has all the others for containers. -/
theorem Laminar.containers_eq_insert (h : Laminar inside) {a p : ι} (hp : inside a p)
    (hleast : ∀ q, inside a q → ¬ inside q p) : containers inside a = insert p (containers inside p) := by
  ext q
  rw [Finset.mem_insert, mem_containers, mem_containers]
  constructor
  · intro hq
    rcases h.nested a p q hp hq with hpq | hpq | hqp
    · exact .inl hpq.symm
    · exact .inr hpq
    · exact absurd hqp (hleast q hq)
  · rintro (rfl | hq)
    · exact hp
    · exact h.trans a p q hp hq

theorem Laminar.card_containers (h : Laminar inside) (hirrefl : ∀ a, ¬ inside a a) {a p : ι} (hp : inside a p)
    (hleast : ∀ q, inside a q → ¬ inside q p) : (containers inside a).card = (containers inside p).card + 1 := by
  rw [h.containers_eq_insert hp hleast, Finset.card_insert_of_notMem]
  rw [mem_containers]
  exact hirrefl p

/-- The members that have a point are a chain, so that their signs alternate. -/
theorem sum_sign_eq (hsmaller : ∀ a b, inside a b → area a < area b) (members : Finset ι)
    (hup : ∀ a ∈ members, ∀ b, inside a b → b ∈ members)
    (hchain : ∀ a ∈ members, ∀ b ∈ members, a ≠ b → inside a b ∨ inside b a) :
    ∑ a ∈ members, (-1 : ℝ) ^ (containers inside a).card = if Odd members.card then 1 else 0 := by
  induction hcard : members.card generalizing members with
  | zero => simp [Finset.card_eq_zero.mp hcard]
  | succ n ih =>
      -- The smallest member has all the others for containers.
      obtain ⟨m, hm, hleast⟩ := members.exists_min_image area (Finset.card_pos.mp (by omega))
      have hother : containers inside m = members.erase m := by
        ext b
        rw [mem_containers, Finset.mem_erase]
        constructor
        · intro hb
          exact ⟨fun heq => (hsmaller m b hb).ne (by rw [heq]), hup m hm b hb⟩
        · rintro ⟨hne, hb⟩
          exact (hchain m hm b hb hne.symm).resolve_right fun hbm => not_lt.mpr (hleast b hb) (hsmaller b m hbm)
      have hcard' : (members.erase m).card = n := by rw [Finset.card_erase_of_mem hm, hcard, Nat.add_sub_cancel]
      have hrest := ih (members.erase m)
        (fun a ha b hab => Finset.mem_erase.mpr ⟨fun heq => not_lt.mpr (hleast a (Finset.mem_of_mem_erase ha))
          (heq ▸ hsmaller a b hab), hup a (Finset.mem_of_mem_erase ha) b hab⟩)
        (fun a ha b hb => hchain a (Finset.mem_of_mem_erase ha) b (Finset.mem_of_mem_erase hb)) hcard'
      rw [← Finset.add_sum_erase members _ hm, hrest, hother, hcard']
      rcases Nat.even_or_odd n with heven | hodd
      · rw [heven.neg_one_pow, if_neg (Nat.not_odd_iff_even.mpr heven), if_pos heven.add_one, add_zero]
      · rw [hodd.neg_one_pow, if_pos hodd, if_neg (Nat.not_odd_iff_even.mpr hodd.add_one), neg_add_cancel]

end

variable {P : Type*} {region : ι → Set P}

open Classical in
/-- The members that have a point. -/
noncomputable def covering (region : ι → Set P) (p : P) : Finset ι := Finset.univ.filter fun a => p ∈ region a

theorem mem_covering {a : ι} {p : P} : a ∈ covering region p ↔ p ∈ region a := by
  simp [covering]

/-- The points that are covered an odd number of times. -/
def coveredOddly (region : ι → Set P) : Set P := {p | Odd (covering region p).card}

variable [MeasurableSpace P] {μ : Measure P}

/-- The regions of what is nested are, and those of the rest are apart. -/
structure RegionsNest (μ : Measure P) (inside : ι → ι → Prop) (region : ι → Set P) : Prop where
  measurable : ∀ a, MeasurableSet (region a)
  finite : ∀ a, μ (region a) ≠ ⊤
  subset : ∀ a b, inside a b → region a ⊆ region b
  apart : ∀ a b, a ≠ b → ¬ inside a b → ¬ inside b a → AEDisjoint μ (region a) (region b)

open Classical in
/-- The signs of the regions that cover a point add up to one where their number is odd, and to zero elsewhere. -/
theorem sum_sign_indicator (h : RegionsNest μ inside region) (hsmaller : ∀ a b, inside a b → area a < area b) :
    (fun p => ∑ a, (-1 : ℝ) ^ (containers inside a).card * (region a).indicator 1 p) =ᵐ[μ]
      (coveredOddly region).indicator 1 := by
  have hapart : ∀ᵐ p ∂μ, ∀ a b, a ≠ b → ¬ inside a b → ¬ inside b a → p ∉ region a ∩ region b := by
    simp only [ae_all_iff]
    intro a b hne hab hba
    exact measure_eq_zero_iff_ae_notMem.mp (h.apart a b hne hab hba)
  filter_upwards [hapart] with p hp
  have hsum : ∑ a, (-1 : ℝ) ^ (containers inside a).card * (region a).indicator 1 p =
      ∑ a ∈ covering region p, (-1 : ℝ) ^ (containers inside a).card := by
    rw [covering, Finset.sum_filter]
    refine Finset.sum_congr rfl fun a _ => ?_
    by_cases ha : p ∈ region a <;> simp [ha]
  rw [hsum, sum_sign_eq hsmaller]
  · by_cases hodd : Odd (covering region p).card
    · rw [if_pos hodd, Set.indicator_of_mem (show p ∈ coveredOddly region from hodd), Pi.one_apply]
    · rw [if_neg hodd, Set.indicator_of_notMem (show p ∉ coveredOddly region from hodd)]
  · intro a ha b hab
    exact mem_covering.mpr (h.subset a b hab (mem_covering.mp ha))
  · intro a ha b hb hne
    by_contra hnot
    obtain ⟨hab, hba⟩ := not_or.mp hnot
    exact hp a b hne hab hba ⟨mem_covering.mp ha, mem_covering.mp hb⟩

open Classical in
theorem measurableSet_coveredOddly (hmeasurable : ∀ a, MeasurableSet (region a)) :
    MeasurableSet (coveredOddly region) := by
  have hcount : Measurable fun p => (covering region p).card := by
    simp only [covering, Finset.card_filter]
    exact Finset.measurable_fun_sum _ fun a _ => Measurable.ite (hmeasurable a) measurable_const measurable_const
  exact hcount (MeasurableSet.of_discrete (s := {n | Odd n}))

/-- The signed areas of nested regions add up to the area that is covered an odd number of times. -/
theorem sum_sign_measure (h : RegionsNest μ inside region) (hsmaller : ∀ a b, inside a b → area a < area b) :
    ∑ a, (-1 : ℝ) ^ (containers inside a).card * μ.real (region a) = μ.real (coveredOddly region) := by
  have hintegrable (a : ι) : Integrable (fun p => (-1 : ℝ) ^ (containers inside a).card * (region a).indicator 1 p) μ :=
    (((integrable_indicator_iff (h.measurable a)).mpr (integrableOn_const (h.finite a))).const_mul _)
  calc ∑ a, (-1 : ℝ) ^ (containers inside a).card * μ.real (region a)
      = ∑ a, ∫ p, (-1 : ℝ) ^ (containers inside a).card * (region a).indicator 1 p ∂μ := by
        refine Finset.sum_congr rfl fun a _ => ?_
        rw [integral_const_mul, integral_indicator_one (h.measurable a)]
    _ = ∫ p, ∑ a, (-1 : ℝ) ^ (containers inside a).card * (region a).indicator 1 p ∂μ :=
        (integral_finsetSum _ fun a _ => hintegrable a).symm
    _ = ∫ p, (coveredOddly region).indicator 1 p ∂μ := integral_congr_ae (sum_sign_indicator h hsmaller)
    _ = μ.real (coveredOddly region) := integral_indicator_one (measurableSet_coveredOddly h.measurable)

end

/-! ## Sums over trees -/

section

variable {ι P : Type*} [DecidableEq ι] {members : Finset ι} {root : ι} {parent : ι → Option ι}

/-- The members below a parent. -/
def below (parent : ι → Option ι) (members : Finset ι) (p : ι) : Finset ι := members.filter fun a => parent a = some p

theorem mem_below {a p : ι} : a ∈ below parent members p ↔ a ∈ members ∧ parent a = some p := by
  rw [below, Finset.mem_filter]

/-- Every member but the root is counted at its parent. -/
theorem sum_eq_root_add (f : ι → ℝ) (hroot : root ∈ members) (htop : parent root = none)
    (hup : ∀ a ∈ members, a ≠ root → ∃ p ∈ members, parent a = some p) :
    ∑ a ∈ members, f a = f root + ∑ p ∈ members, ∑ a ∈ below parent members p, f a := by
  have hmaps : ∀ a ∈ members.erase root, (parent a).getD root ∈ members := by
    intro a ha
    obtain ⟨p, hp, hparent⟩ := hup a (Finset.mem_of_mem_erase ha) (Finset.ne_of_mem_erase ha)
    rwa [hparent, Option.getD_some]
  rw [← Finset.add_sum_erase members f hroot, ← Finset.sum_fiberwise_of_maps_to hmaps]
  refine congrArg (f root + ·) (Finset.sum_congr rfl fun p hp => Finset.sum_congr ?_ fun _ _ => rfl)
  ext a
  rw [Finset.mem_filter, Finset.mem_erase, mem_below]
  constructor
  · rintro ⟨⟨hne, ha⟩, heq⟩
    obtain ⟨q, -, hparent⟩ := hup a ha hne
    rw [hparent, Option.getD_some] at heq
    exact ⟨ha, heq ▸ hparent⟩
  · rintro ⟨ha, hparent⟩
    refine ⟨⟨?_, ha⟩, by rw [hparent, Option.getD_some]⟩
    rintro rfl
    rw [htop] at hparent
    cases hparent

/-- Where what is below each parent is apart, the areas with alternating signs are those of the unions. -/
theorem sum_sign_below [MeasurableSpace P] {μ : Measure P} {region : ι → Set P} {sign : ι → ℝ} (hroot : root ∈ members)
    (htop : parent root = none) (hup : ∀ a ∈ members, a ≠ root → ∃ p ∈ members, parent a = some p)
    (hsign : ∀ a p, parent a = some p → sign a = -sign p) (hmeasurable : ∀ a ∈ members, MeasurableSet (region a))
    (hfinite : ∀ a ∈ members, μ (region a) ≠ ⊤)
    (hapart : ∀ a ∈ members, ∀ b ∈ members, a ≠ b → parent a = parent b → AEDisjoint μ (region a) (region b)) :
    ∑ a ∈ members, μ.real (region a) * sign a =
      μ.real (region root) * sign root -
        ∑ p ∈ members, sign p * μ.real (⋃ a ∈ below parent members p, region a) := by
  rw [sum_eq_root_add _ hroot htop hup, sub_eq_add_neg, ← Finset.sum_neg_distrib]
  refine congrArg (_ + ·) (Finset.sum_congr rfl fun p _ => ?_)
  have hunion : μ.real (⋃ a ∈ below parent members p, region a) = ∑ a ∈ below parent members p, μ.real (region a) := by
    refine measureReal_biUnion_finset₀ ?_ ?_ ?_
    · intro a ha b hb hne
      obtain ⟨ha, hparent⟩ := mem_below.mp ha
      obtain ⟨hb, hparent'⟩ := mem_below.mp hb
      exact hapart a ha b hb hne (hparent.trans hparent'.symm)
    · intro a ha
      exact (hmeasurable a (mem_below.mp ha).1).nullMeasurableSet
    · intro a ha
      exact hfinite a (mem_below.mp ha).1
  rw [hunion, Finset.mul_sum, ← Finset.sum_neg_distrib]
  refine Finset.sum_congr rfl fun a ha => ?_
  rw [hsign a p (mem_below.mp ha).2]
  ring

end

end CadHarness.Lib
