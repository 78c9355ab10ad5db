import Mathlib.Data.Nat.Basic
import Mathlib.Data.List.Sort
import Mathlib.Order.Bounds.Basic

/-!
# Enumerating a collection that changes

The members of a collection are numbered as they come, and a member that has gone never comes back. An
enumeration asks for one member after the other, while others come and go.
-/

namespace CadHarness.Lib

/-- Who is in the collection, at each time. -/
structure Roster where
  present : Nat → Nat → Prop
  gone : ∀ {s t u n}, s ≤ t → t ≤ u → present s n → ¬ present t n → ¬ present u n
  newer : ∀ {r s t m n}, r ≤ s → s ≤ t → present r m → ¬ present s n → present t n → m < n

namespace Roster

variable {R : Roster} {s t u n : Nat}

/-- A member is there from when it is seen first to when it is seen last. -/
theorem present_between (hs : s ≤ t) (ht : t ≤ u) (h : R.present s n) (h' : R.present u n) : R.present t n := by
  by_contra hgone
  exact R.gone hs ht h hgone h'

/-- From a time, the members from a bound on are enumerated until another time. -/
inductive Scan (R : Roster) : Nat → Nat → List Nat → Nat → Prop
  | done {bound t : Nat} (h : ∀ n, R.present t n → ¬ bound ≤ n) : Scan R bound t [] t
  | next {bound t n u t' : Nat} {ns : List Nat} (h : IsLeast {m | bound ≤ m ∧ R.present t m} n) (ht : t ≤ u)
      (hrest : Scan R (n + 1) u ns t') : Scan R bound t (n :: ns) t'

namespace Scan

variable {bound t' : Nat} {ns : List Nat}

theorem le (h : Scan R bound t ns t') : t ≤ t' := by
  induction h with
  | done h => exact Nat.le_refl _
  | next h ht hrest ih => exact Nat.le_trans ht ih

theorem bound_le (h : Scan R bound t ns t') : ∀ n ∈ ns, bound ≤ n := by
  induction h with
  | done h => simp
  | @next bound t n u t' ns h ht hrest ih =>
      intro m hm
      rcases List.mem_cons.mp hm with rfl | hm
      · exact h.1.1
      · have := ih m hm
        have := h.1.1
        omega

theorem sorted (h : Scan R bound t ns t') : ns.Pairwise (· < ·) := by
  induction h with
  | done h => exact .nil
  | next h ht hrest ih => exact .cons (fun m hm => hrest.bound_le m hm) ih

/-- Who is enumerated was there at some time. -/
theorem sound (h : Scan R bound t ns t') : ∀ n ∈ ns, ∃ u, t ≤ u ∧ u ≤ t' ∧ R.present u n := by
  induction h with
  | done h => simp
  | @next bound t n u t' ns h ht hrest ih =>
      intro m hm
      rcases List.mem_cons.mp hm with rfl | hm
      · exact ⟨t, Nat.le_refl t, Nat.le_trans ht hrest.le, h.1.2⟩
      · obtain ⟨v, huv, hv, hpresent⟩ := ih m hm
        exact ⟨v, Nat.le_trans ht huv, hv, hpresent⟩

/-- Who is there at the end was enumerated. -/
theorem complete (h : Scan R bound t ns t') : ∀ n, bound ≤ n → R.present t' n → n ∈ ns := by
  induction h with
  | done h =>
      intro n hn hpresent
      exact absurd hn (h n hpresent)
  | @next bound t n u t' ns h ht hrest ih =>
      intro m hm hpresent
      rcases Nat.lt_trichotomy m n with hlt | rfl | hlt
      · have habsent : ¬ R.present t m := fun hpres => absurd (h.2 ⟨hm, hpres⟩) (by omega)
        have := R.newer (Nat.le_refl t) (Nat.le_trans ht hrest.le) h.1.2 habsent hpresent
        omega
      · exact List.mem_cons_self
      · exact List.mem_cons_of_mem n (ih m hlt hpresent)

/-- An enumeration while nobody comes or goes. -/
theorem eq_of_present_iff {members : List Nat} (h : Scan R 0 t ns t') (hmembers : members.Pairwise (· < ·))
    (hpresent : ∀ s, t ≤ s → s ≤ t' → ∀ n, R.present s n ↔ n ∈ members) : ns = members := by
  apply h.sorted.eq_of_mem_iff hmembers
  intro n
  constructor
  · intro hn
    obtain ⟨s, hs, hs', hp⟩ := h.sound n hn
    exact (hpresent s hs hs' n).mp hp
  · intro hn
    exact h.complete n (Nat.zero_le n) ((hpresent t' h.le (Nat.le_refl t') n).mpr hn)

end Scan

/-- Two enumerations of the same members, and whoever came between them stays until the end of the second: then
nobody came or went between them. -/
theorem present_iff_of_scans {t₀ t₁ t₂ t₃ : Nat} {ns : List Nat} (hfirst : Scan R 0 t₀ ns t₁)
    (hsecond : Scan R 0 t₂ ns t₃)
    (hstay : ∀ s n, t₁ ≤ s → s ≤ t₂ → ¬ R.present t₁ n → R.present s n → R.present t₃ n) (hs : t₁ ≤ s)
    (hs' : s ≤ t₂) (n : Nat) : R.present s n ↔ n ∈ ns := by
  constructor
  · intro hpresent
    by_cases h₁ : R.present t₁ n
    · exact hfirst.complete n (Nat.zero_le n) h₁
    · exact hsecond.complete n (Nat.zero_le n) (hstay s n hs hs' h₁ hpresent)
  · intro hmem
    obtain ⟨u, -, hu, hpresent⟩ := hfirst.sound n hmem
    obtain ⟨v, hv, -, hpresent'⟩ := hsecond.sound n hmem
    exact R.present_between (Nat.le_trans hu hs) (Nat.le_trans hs' hv) hpresent hpresent'

end Roster

end CadHarness.Lib
