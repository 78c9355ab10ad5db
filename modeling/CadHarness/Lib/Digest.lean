import Mathlib.Algebra.Ring.Nat
import Mathlib.Data.List.Basic
import Mathlib.Data.List.Forall2
import Mathlib.Data.List.Induction

/-!
# Digests

Hexadecimal text of a fixed width, and records that are chained by their hashes.
-/

namespace CadHarness.Lib.Hex

/-- A digit, in lower case. -/
def digit (n : Nat) : Char := if n < 10 then Char.ofNat (48 + n) else Char.ofNat (87 + n)

theorem digit_injOn : ∀ m < 16, ∀ n < 16, digit m = digit n → m = n := by decide

/-- The last `width` digits of a number. -/
def digits : Nat → Nat → List Char
  | 0, _ => []
  | width + 1, n => digits width (n / 16) ++ [digit (n % 16)]

@[simp] theorem length_digits (width n : Nat) : (digits width n).length = width := by
  induction width generalizing n with
  | zero => rfl
  | succ width ih => simp [digits, ih]

theorem digits_inj {width m n : Nat} (hm : m < 16 ^ width) (hn : n < 16 ^ width)
    (h : digits width m = digits width n) : m = n := by
  induction width generalizing m n with
  | zero =>
      rw [Nat.pow_zero] at hm hn
      omega
  | succ width ih =>
      obtain ⟨hfront, hlast⟩ := List.append_inj' h rfl
      have hdiv : m / 16 = n / 16 := ih (by rw [Nat.pow_succ] at hm; omega) (by rw [Nat.pow_succ] at hn; omega) hfront
      have hmod : m % 16 = n % 16 := digit_injOn _ (by omega) _ (by omega) (List.cons.inj hlast).1
      omega

end CadHarness.Lib.Hex

/-!
## Chains of hashes

Records that each carry the hash of the record before them and a hash of themselves. A chain can be
verified from its first record, and its last hash pins all of it.
-/

namespace CadHarness.Lib

/-- How a record is linked: the hash it names as the one before, the hash it carries, and the hash of what
it says. -/
structure Linked (α η : Type) where
  previous : α → Option η
  stored : α → η
  computed : α → η

namespace Linked

variable {α η : Type} (L : Linked α η)

/-- Each record names the hash before it, and carries its own. -/
def Chained : Option η → List α → Prop
  | _, [] => True
  | previous, a :: l =>
      L.previous a = previous ∧ L.stored a = L.computed a ∧ Chained (some (L.stored a)) l

/-- The last hash of a chain, or what came before it. -/
def lastHash (start : Option η) (l : List α) : Option η := (l.getLast?.map L.stored).or start

variable {L}

@[simp] theorem chained_nil (start : Option η) : L.Chained start [] := trivial

@[simp] theorem lastHash_nil (start : Option η) : L.lastHash start [] = start := rfl

@[simp] theorem lastHash_cons (start : Option η) (a : α) (l : List α) :
    L.lastHash start (a :: l) = L.lastHash (some (L.stored a)) l := by
  cases l with
  | nil => rfl
  | cons b l =>
      have hlast := List.getLast?_eq_some_getLast (List.cons_ne_nil b l)
      rw [lastHash, lastHash, List.getLast?_cons_cons, hlast]
      rfl

@[simp] theorem lastHash_concat (start : Option η) (l : List α) (a : α) :
    L.lastHash start (l ++ [a]) = some (L.stored a) := by simp [lastHash]

/-- A chain grows at its end. -/
theorem chained_concat {start : Option η} {l : List α} {a : α} :
    L.Chained start (l ++ [a]) ↔
      L.Chained start l ∧ L.previous a = L.lastHash start l ∧ L.stored a = L.computed a := by
  induction l generalizing start with
  | nil => simp [Chained]
  | cons b l ih => simp only [List.cons_append, Chained, ih, lastHash_cons, and_assoc]

/-- Two chains that end in one hash are of one length, and record by record they say the same, when records
of one hash say the same and name the same hash before them. -/
theorem Chained.forall₂ {R : α → α → Prop} {l l' : List α} (h : L.Chained none l) (h' : L.Chained none l')
    (hR : ∀ a ∈ l, ∀ b ∈ l', L.computed a = L.computed b → L.previous a = L.previous b ∧ R a b)
    (hlast : L.lastHash none l = L.lastHash none l') : List.Forall₂ R l l' := by
  -- From the last record backwards.
  induction l using List.reverseRecOn generalizing l' with
  | nil =>
      cases l' using List.reverseRecOn with
      | nil => exact .nil
      | append_singleton l' b => simp at hlast
  | append_singleton l a ih =>
      cases l' using List.reverseRecOn with
      | nil => simp at hlast
      | append_singleton l' b =>
          rw [chained_concat] at h h'
          rw [lastHash_concat, lastHash_concat, Option.some.injEq] at hlast
          have hcomputed : L.computed a = L.computed b := by rw [← h.2.2, ← h'.2.2, hlast]
          obtain ⟨hprevious, hsame⟩ := hR a (by simp) b (by simp) hcomputed
          have hfront : List.Forall₂ R l l' := by
            apply ih h.1 h'.1
            · intro a ha b hb
              exact hR a (by simp [ha]) b (by simp [hb])
            · rw [← h.2.1, ← h'.2.1, hprevious]
          exact List.rel_append hfront (.cons hsame .nil)

end Linked

end CadHarness.Lib
