import CadHarness.Lib.Assoc
import Mathlib.Data.List.Sort
import Mathlib.Order.Lex
import Mathlib.Data.List.Lex
import Mathlib.Data.List.Pairwise

/-!
# Orders of keys

Strings ordered by code points and by UTF-16 units, and lists of members sorted by key. The two orders
differ on strings with characters outside the first plane.
-/

namespace CadHarness.Lib

/-! ## Code points and UTF-16 units -/

def codePoints (s : String) : List Nat := s.toList.map Char.toNat

/-- The UTF-16 units of a character. -/
def utf16Char (c : Char) : List Nat :=
  if c.toNat < 0x10000 then [c.toNat]
  else [0xD800 + (c.toNat - 0x10000) / 0x400, 0xDC00 + (c.toNat - 0x10000) % 0x400]

def utf16 (s : String) : List Nat := s.toList.flatMap utf16Char

/-- Whether the first characters in which the strings differ are one from U+E000 to U+FFFF and one from
U+10000. -/
def discordant : List Char → List Char → Bool
  | c :: cs, d :: ds =>
      if c = d then discordant cs ds
      else (0xE000 ≤ c.toNat && c.toNat < 0x10000 && 0x10000 ≤ d.toNat) ||
        (0xE000 ≤ d.toNat && d.toNat < 0x10000 && 0x10000 ≤ c.toNat)
  | _, _ => false

/-- Whether the two orders differ on two strings. -/
def Discordant (k l : String) : Prop := discordant k.toList l.toList = true

instance (k l : String) : Decidable (Discordant k l) := inferInstanceAs (Decidable (_ = _))

theorem toNat_injective : Function.Injective Char.toNat := fun _ _ h => Char.toNat_inj.mp h

theorem codePoints_injective : Function.Injective codePoints := by
  intro s t h
  exact String.toList_injective (List.map_injective_iff.mpr toNat_injective h)

theorem scalar (c : Char) : c.toNat < 0xD800 ∨ (0xE000 ≤ c.toNat ∧ c.toNat < 0x110000) := by
  have h : c.toNat.isValidChar := c.valid
  unfold Nat.isValidChar at h
  omega

theorem utf16Char_append_inj {c d : Char} {s t : List Nat} (h : utf16Char c ++ s = utf16Char d ++ t) :
    c = d ∧ s = t := by
  have hc := scalar c
  have hd := scalar d
  unfold utf16Char at h
  rw [← toNat_injective.eq_iff]
  split_ifs at h <;> simp only [List.cons_append, List.nil_append, List.cons.injEq] at h
  · exact h
  · omega
  · omega
  · exact ⟨by omega, h.2.2⟩

theorem utf16_injective : Function.Injective utf16 := by
  intro s t h
  apply String.toList_injective
  unfold utf16 at h
  generalize s.toList = cs at h ⊢
  generalize t.toList = ds at h ⊢
  induction cs generalizing ds with
  | nil =>
      cases ds with
      | nil => rfl
      | cons d ds => unfold utf16Char at h; simp at h; split_ifs at h <;> simp at h
  | cons c cs ih =>
      cases ds with
      | nil => unfold utf16Char at h; simp at h; split_ifs at h <;> simp at h
      | cons d ds =>
          obtain ⟨rfl, hrest⟩ := utf16Char_append_inj (by simpa using h)
          rw [ih ds hrest]

theorem utf16Char_append_lt_iff (c : Char) {s t : List Nat} :
    utf16Char c ++ s < utf16Char c ++ t ↔ s < t := by
  unfold utf16Char
  split_ifs <;> simp

theorem toNat_lt_or_gt {c d : Char} (h : c ≠ d) : c.toNat < d.toNat ∨ d.toNat < c.toNat :=
  Nat.lt_or_gt_of_ne (fun h' => h (toNat_injective h'))

/-- Where two characters differ, so do the orders, or not. -/
theorem utf16Char_append_lt_of_ne {c d : Char} (h : c ≠ d) {s t : List Nat} :
    (c.toNat < d.toNat ↔ utf16Char c ++ s < utf16Char d ++ t) ↔
      ¬ ((0xE000 ≤ c.toNat ∧ c.toNat < 0x10000 ∧ 0x10000 ≤ d.toNat) ∨
        (0xE000 ≤ d.toNat ∧ d.toNat < 0x10000 ∧ 0x10000 ≤ c.toNat)) := by
  have hc := scalar c
  have hd := scalar d
  have hne := toNat_lt_or_gt h
  unfold utf16Char
  split_ifs <;> simp only [List.cons_append, List.nil_append, List.cons_lt_cons_iff] <;> omega

theorem lt_iff_lt_iff (cs ds : List Char) :
    (cs.map Char.toNat < ds.map Char.toNat ↔ cs.flatMap utf16Char < ds.flatMap utf16Char) ↔
      ¬ discordant cs ds = true := by
  induction cs generalizing ds with
  | nil =>
      cases ds with
      | nil => simp [discordant]
      | cons d ds =>
          have hne : utf16Char d ≠ [] := by unfold utf16Char; split_ifs <;> simp
          obtain ⟨u, us, hu⟩ := List.exists_cons_of_ne_nil hne
          simp [discordant, hu]
  | cons c cs ih =>
      cases ds with
      | nil => simp [discordant]
      | cons d ds =>
          simp only [List.map_cons, List.flatMap_cons]
          by_cases hcd : c = d
          · subst hcd
            rw [utf16Char_append_lt_iff, discordant, if_pos rfl, ← ih ds]
            simp
          · have hlt : c.toNat :: cs.map Char.toNat < d.toNat :: ds.map Char.toNat ↔ c.toNat < d.toNat := by
              have hne := toNat_lt_or_gt hcd
              rw [List.cons_lt_cons_iff]
              omega
            rw [hlt, utf16Char_append_lt_of_ne hcd, discordant, if_neg hcd]
            simp only [Bool.or_eq_true, Bool.and_eq_true, decide_eq_true_eq, and_assoc]

/-- The orders agree on two strings, unless these are discordant. -/
theorem codePoints_lt_iff_utf16_lt {k l : String} :
    (codePoints k < codePoints l ↔ utf16 k < utf16 l) ↔ ¬ Discordant k l :=
  lt_iff_lt_iff k.toList l.toList

/-! ## Members sorted by key -/

variable {α β : Type}

/-- The members in the order of their keys. Those of one key keep their order. -/
def sortOn (key : String → List Nat) (ms : List (String × α)) : List (String × α) :=
  ms.insertionSort (fun m n => key m.1 ≤ key n.1)

theorem sortOn_perm (key : String → List Nat) (ms : List (String × α)) : (sortOn key ms).Perm ms :=
  List.perm_insertionSort _ _

theorem pairwise_sortOn (key : String → List Nat) (ms : List (String × α)) :
    (sortOn key ms).Pairwise (fun m n => key m.1 ≤ key n.1) := by
  have : Std.Total (fun m n : String × α => key m.1 ≤ key n.1) := ⟨fun m n => le_total _ _⟩
  have : IsTrans (String × α) (fun m n => key m.1 ≤ key n.1) := ⟨fun _ _ _ => le_trans⟩
  exact List.pairwise_insertionSort _ ms

/-- Sorting what is sorted changes nothing. -/
@[simp] theorem sortOn_sortOn (key : String → List Nat) (ms : List (String × α)) :
    sortOn key (sortOn key ms) = sortOn key ms :=
  (pairwise_sortOn key ms).insertionSort_eq

/-- Sorting looks at the keys only. -/
theorem sortOn_map (key : String → List Nat) (f : String × α → β) (ms : List (String × α)) :
    sortOn key (ms.map (fun m => (m.1, f m))) = (sortOn key ms).map (fun m => (m.1, f m)) :=
  (List.map_insertionSort _ _ (fun m : String × α => (m.1, f m)) ms (fun _ _ _ _ => Iff.rfl)).symm

theorem sortOn_congr {key key' : String → List Nat} {ms : List (String × α)}
    (h : ∀ m ∈ ms, ∀ n ∈ ms, (key m.1 ≤ key n.1 ↔ key' m.1 ≤ key' n.1)) :
    sortOn key ms = sortOn key' ms := by
  have hmap := List.map_insertionSort _ (fun m n : String × α => key' m.1 ≤ key' n.1) id ms h
  simpa only [sortOn, List.map_id] using hmap

theorem related_of_pairwise {R : α → α → Prop} {l : List α} (h : l.Pairwise R) {a b : α} (ha : a ∈ l)
    (hb : b ∈ l) (hne : a ≠ b) : R a b ∨ R b a := by
  have : Std.Symm (fun a b => R a b ∨ R b a) := ⟨fun _ _ => Or.symm⟩
  exact (h.imp (S := fun a b => R a b ∨ R b a) Or.inl).forall ha hb hne

/-- Members with the same distinct keys, one list a permutation of the other, are the same. -/
theorem eq_of_perm_of_keys {ms ns : List (String × α)} (hkeys : ms.map Prod.fst = ns.map Prod.fst)
    (hnodup : (ms.map Prod.fst).Nodup) (h : ms.Perm ns) : ms = ns := by
  induction ms generalizing ns with
  | nil => exact h.nil_eq
  | cons m ms ih =>
      cases ns with
      | nil => cases hkeys
      | cons n ns =>
          simp only [List.map_cons, List.cons.injEq, List.nodup_cons] at hkeys hnodup
          have hmn : m = n := by
            rcases List.mem_cons.mp (h.mem_iff.mp List.mem_cons_self) with hm | hm
            · exact hm
            · exact absurd (hkeys.2 ▸ List.mem_map_of_mem hm) hnodup.1
          subst hmn
          rw [ih hkeys.2 hnodup.2 (List.Perm.cons_inv h)]

/-- Members sorted by code points and by UTF-16 units are the same when they are the same before, and no
two of their keys are discordant. -/
theorem sortOn_eq_sortOn_iff {ms ns : List (String × α)} (hkeys : ms.map Prod.fst = ns.map Prod.fst)
    (hnodup : (ms.map Prod.fst).Nodup) :
    sortOn codePoints ms = sortOn utf16 ns ↔
      ms = ns ∧ ∀ k ∈ ms.map Prod.fst, ∀ l ∈ ms.map Prod.fst, ¬ Discordant k l := by
  constructor
  · intro h
    have hperm : ms.Perm ns := (sortOn_perm codePoints ms).symm.trans (h ▸ sortOn_perm utf16 ns)
    obtain rfl := eq_of_perm_of_keys hkeys hnodup hperm
    refine ⟨rfl, fun k hk l hl => ?_⟩
    -- The common list is sorted in both orders.
    have hsorted : (sortOn codePoints ms).Pairwise
        (fun m n => codePoints m.1 ≤ codePoints n.1 ∧ utf16 m.1 ≤ utf16 n.1) :=
      List.pairwise_and_iff.mpr ⟨pairwise_sortOn _ _, h ▸ pairwise_sortOn _ _⟩
    obtain ⟨m, hm, rfl⟩ := List.mem_map.mp hk
    obtain ⟨n, hn, rfl⟩ := List.mem_map.mp hl
    rw [← codePoints_lt_iff_utf16_lt]
    by_cases hmn : m.1 = n.1
    · simp [hmn]
    · have hcp : codePoints m.1 ≠ codePoints n.1 := codePoints_injective.ne hmn
      have hutf : utf16 m.1 ≠ utf16 n.1 := utf16_injective.ne hmn
      rcases related_of_pairwise hsorted ((sortOn_perm _ _).mem_iff.mpr hm)
        ((sortOn_perm _ _).mem_iff.mpr hn) (fun h => hmn (congrArg Prod.fst h)) with ⟨h₁, h₂⟩ | ⟨h₁, h₂⟩
      · exact iff_of_true (lt_of_le_of_ne h₁ hcp) (lt_of_le_of_ne h₂ hutf)
      · exact iff_of_false (not_lt.mpr h₁) (not_lt.mpr h₂)
  · rintro ⟨rfl, h⟩
    apply sortOn_congr
    intro m hm n hn
    have hlt := codePoints_lt_iff_utf16_lt.mpr
      (h n.1 (List.mem_map_of_mem hn) m.1 (List.mem_map_of_mem hm))
    rw [← not_lt, hlt, not_lt]

/-- Two lists of distinct keys sort to the same list just when they have the same members. -/
theorem sortOn_eq_iff_lookup {key : String → List Nat} (hkey : Function.Injective key)
    {ms ns : List (String × α)} (hms : (ms.map Prod.fst).Nodup) (hns : (ns.map Prod.fst).Nodup) :
    sortOn key ms = sortOn key ns ↔ ∀ k, ms.lookup k = ns.lookup k := by
  constructor
  · intro h k
    have hperm : ms.Perm ns := (sortOn_perm key ms).symm.trans (h ▸ sortOn_perm key ns)
    apply Option.ext
    intro a
    rw [Assoc.lookup_eq_some_iff hms, Assoc.lookup_eq_some_iff hns, hperm.mem_iff]
  · intro h
    have hperm : ms.Perm ns := by
      apply (List.perm_ext_iff_of_nodup hms.of_map hns.of_map).mpr
      rintro ⟨k, a⟩
      rw [← Assoc.lookup_eq_some_iff hms, ← Assoc.lookup_eq_some_iff hns, h]
    -- Keys that are equal belong to one member, so that the order of the members is strict.
    have hstrict (l : List (String × α)) (hl : (l.map Prod.fst).Nodup) :
        (sortOn key l).Pairwise (fun m n => key m.1 < key n.1) := by
      have hne : (sortOn key l).Pairwise (fun m n => m.1 ≠ n.1) :=
        List.pairwise_map.mp (((sortOn_perm key l).map Prod.fst).nodup_iff.mpr hl)
      exact ((pairwise_sortOn key l).and hne).imp (fun h => lt_of_le_of_ne h.1 (hkey.ne h.2))
    have hsorted : (sortOn key ms).Perm (sortOn key ns) :=
      (sortOn_perm key ms).trans (hperm.trans (sortOn_perm key ns).symm)
    exact hsorted.eq_of_pairwise (fun _ _ _ _ h h' => absurd h (lt_asymm h')) (hstrict ms hms)
      (hstrict ns hns)

end CadHarness.Lib
