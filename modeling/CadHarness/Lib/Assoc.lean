import Mathlib.Data.List.Basic
import Mathlib.Tactic.Tauto

/-!
# Association lists

A dictionary as the list of its entries. Assigning to a key that is there keeps its place, a new key
goes to the end.
-/

namespace CadHarness.Lib.Assoc

variable {κ α : Type} [DecidableEq κ]

def set : List (κ × α) → κ → α → List (κ × α)
  | [], k, v => [(k, v)]
  | (j, w) :: l, k, v => if j = k then (k, v) :: l else (j, w) :: set l k v

def remove (l : List (κ × α)) (k : κ) : List (κ × α) := l.filter (fun e => decide (e.1 ≠ k))

theorem lookup_cons (i j : κ) (w : α) (l : List (κ × α)) :
    ((i, w) :: l).lookup j = if j = i then some w else l.lookup j := by
  by_cases h : j = i
  · subst h; simp
  · have hb : (j == i) = false := beq_eq_false_iff_ne.mpr h
    rw [List.lookup_cons, hb, if_neg h]

theorem mem_of_lookup {l : List (κ × α)} {k : κ} {v : α} (h : l.lookup k = some v) : (k, v) ∈ l := by
  obtain ⟨l₁, l₂, rfl, -⟩ := List.lookup_eq_some_iff.mp h
  simp

theorem lookup_set (l : List (κ × α)) (k j : κ) (v : α) :
    (set l k v).lookup j = if j = k then some v else l.lookup j := by
  induction l with
  | nil => rw [set, lookup_cons]
  | cons e l ih =>
      obtain ⟨i, w⟩ := e
      by_cases hik : i = k
      · subst hik
        rw [set, if_pos rfl, lookup_cons, lookup_cons]
        split <;> rfl
      · rw [set, if_neg hik, lookup_cons, lookup_cons, ih]
        by_cases hj : j = i
        · subst hj; rw [if_pos rfl, if_pos rfl, if_neg hik]
        · rw [if_neg hj, if_neg hj]

@[simp] theorem lookup_set_self (l : List (κ × α)) (k : κ) (v : α) :
    (set l k v).lookup k = some v := by
  rw [lookup_set, if_pos rfl]

theorem lookup_set_ne (l : List (κ × α)) {k j : κ} (v : α) (h : j ≠ k) :
    (set l k v).lookup j = l.lookup j := by
  rw [lookup_set, if_neg h]

theorem mem_set {l : List (κ × α)} {k : κ} {v : α} {e : κ × α} (h : e ∈ set l k v) :
    e = (k, v) ∨ e ∈ l := by
  induction l with
  | nil => exact Or.inl (List.mem_singleton.mp h)
  | cons f l ih =>
      obtain ⟨i, w⟩ := f
      by_cases hik : i = k
      · rw [set, if_pos hik] at h
        rcases List.mem_cons.mp h with h | h
        · exact Or.inl h
        · exact Or.inr (List.mem_cons_of_mem _ h)
      · rw [set, if_neg hik] at h
        rcases List.mem_cons.mp h with h | h
        · exact Or.inr (h ▸ List.mem_cons_self)
        · exact (ih h).imp_right (List.mem_cons_of_mem _)

theorem lookup_remove (l : List (κ × α)) (k j : κ) :
    (remove l k).lookup j = if j = k then none else l.lookup j := by
  induction l with
  | nil => simp [remove]
  | cons e l ih =>
      obtain ⟨i, w⟩ := e
      rw [lookup_cons]
      by_cases hik : i = k
      · subst hik
        have hr : remove ((i, w) :: l) i = remove l i := by simp [remove]
        rw [hr, ih]
        split <;> rfl
      · have hr : remove ((i, w) :: l) k = (i, w) :: remove l k := by simp [remove, hik]
        rw [hr, lookup_cons, ih]
        by_cases hj : j = i
        · subst hj; rw [if_pos rfl, if_pos rfl, if_neg hik]
        · rw [if_neg hj, if_neg hj]

@[simp] theorem lookup_remove_self (l : List (κ × α)) (k : κ) : (remove l k).lookup k = none := by
  rw [lookup_remove, if_pos rfl]

theorem lookup_remove_ne (l : List (κ × α)) {k j : κ} (h : j ≠ k) :
    (remove l k).lookup j = l.lookup j := by
  rw [lookup_remove, if_neg h]

theorem set_of_lookup_none {l : List (κ × α)} {k : κ} (h : l.lookup k = none) (v : α) :
    set l k v = l ++ [(k, v)] := by
  induction l with
  | nil => rfl
  | cons e l ih =>
      obtain ⟨i, w⟩ := e
      rw [lookup_cons] at h
      by_cases hik : k = i
      · rw [if_pos hik] at h; cases h
      · rw [if_neg hik] at h
        rw [set, if_neg (Ne.symm hik), ih h, List.cons_append]

theorem remove_of_lookup_none {l : List (κ × α)} {k : κ} (h : l.lookup k = none) : remove l k = l := by
  induction l with
  | nil => rfl
  | cons e l ih =>
      obtain ⟨i, w⟩ := e
      rw [lookup_cons] at h
      by_cases hik : k = i
      · rw [if_pos hik] at h; cases h
      · rw [if_neg hik] at h
        have hr : remove ((i, w) :: l) k = (i, w) :: remove l k := by simp [remove, Ne.symm hik]
        rw [hr, ih h]

/-- Removing the key that was just added gives the list back. -/
theorem remove_set_of_lookup_none {l : List (κ × α)} {k : κ} (h : l.lookup k = none) (v : α) :
    remove (set l k v) k = l := by
  have hr : remove (l ++ [(k, v)]) k = remove l k := by simp [remove]
  rw [set_of_lookup_none h, hr, remove_of_lookup_none h]

/-! ## Distinct keys -/

theorem lookup_eq_some_iff {l : List (κ × α)} (h : (l.map Prod.fst).Nodup) {k : κ} {v : α} :
    l.lookup k = some v ↔ (k, v) ∈ l := by
  induction l with
  | nil => simp
  | cons e l ih =>
      obtain ⟨i, w⟩ := e
      simp only [List.map_cons, List.nodup_cons] at h
      rw [lookup_cons, List.mem_cons, Prod.mk.injEq]
      by_cases hki : k = i
      · subst hki
        have hmem : (k, v) ∉ l := fun hm => h.1 (List.mem_map_of_mem hm)
        simp [hmem, eq_comm]
      · simp [hki, ih h.2]

theorem mem_keys_set {l : List (κ × α)} {k j : κ} {v : α} :
    j ∈ (set l k v).map Prod.fst ↔ j = k ∨ j ∈ l.map Prod.fst := by
  induction l with
  | nil => simp [set]
  | cons e l ih =>
      obtain ⟨i, w⟩ := e
      by_cases hik : i = k
      · simp [set, hik]
      · simp only [set, if_neg hik, List.map_cons, List.mem_cons, ih]
        tauto

theorem nodup_set {l : List (κ × α)} (h : (l.map Prod.fst).Nodup) (k : κ) (v : α) :
    ((set l k v).map Prod.fst).Nodup := by
  induction l with
  | nil => simp [set]
  | cons e l ih =>
      obtain ⟨i, w⟩ := e
      simp only [List.map_cons, List.nodup_cons] at h
      by_cases hik : i = k
      · rw [set, if_pos hik, List.map_cons, List.nodup_cons, ← hik]
        exact h
      · rw [set, if_neg hik, List.map_cons, List.nodup_cons, mem_keys_set]
        exact ⟨not_or.mpr ⟨hik, h.1⟩, ih h.2⟩

theorem nodup_remove {l : List (κ × α)} (h : (l.map Prod.fst).Nodup) (k : κ) :
    ((remove l k).map Prod.fst).Nodup :=
  h.sublist (List.filter_sublist.map _)

end CadHarness.Lib.Assoc

/-!
## Counters

How often each name was counted, names in the order in which they were first seen.
-/

namespace CadHarness.Lib

abbrev Counter := List (String × Nat)

namespace Counter

/-- `counter[name] += 1` -/
def add (c : Counter) (name : String) : Counter := Assoc.set c name ((c.lookup name).getD 0 + 1)

@[simp] theorem add_ne_nil (c : Counter) (name : String) : c.add name ≠ [] := by
  cases c with
  | nil => simp [add, Assoc.set]
  | cons e c =>
      simp only [add, Assoc.set]
      split <;> simp

end Counter

end CadHarness.Lib
