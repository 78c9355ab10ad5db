import Mathlib.Algebra.Group.Nat.Even
import Mathlib.Algebra.Order.Group.Multiset
import Mathlib.Combinatorics.SimpleGraph.Connectivity.Connected
import Mathlib.Data.List.Chain

/-!
# Trails

Lists of edges that follow one another, in a graph with several edges between two vertices. A vertex is met an even
number of times, except for the two ends of the trail.
-/

namespace CadHarness.Lib.Trail

variable {ε κ : Type*} (start finish : ε → κ)

/-- The vertices at the ends of the edges, each as often as an edge ends there. -/
def incidence (edges : List ε) : Multiset κ := (edges.map fun e => {start e, finish e}).sum

/-- Each edge starts where the one before finishes. -/
def IsTrail (edges : List ε) : Prop := edges.IsChain fun e f => finish e = start f

/-- The vertices, with those joined that are the ends of an edge. -/
def graph (edges : List ε) : SimpleGraph κ := .fromRel fun k k' => ∃ e ∈ edges, start e = k ∧ finish e = k'

variable {start finish} {edges rest : List ε} {first last e : ε} {k k' : κ}

@[simp] theorem incidence_nil : incidence start finish [] = 0 := rfl

@[simp] theorem incidence_cons : incidence start finish (e :: edges) = {start e, finish e} + incidence start finish edges :=
  List.sum_cons

@[simp] theorem incidence_append :
    incidence start finish (edges ++ rest) = incidence start finish edges + incidence start finish rest := by
  rw [incidence, List.map_append, List.sum_append]
  rfl

theorem mem_incidence : k ∈ incidence start finish edges ↔ ∃ e ∈ edges, k = start e ∨ k = finish e := by
  induction edges with
  | nil => simp
  | cons e edges ih => simp [ih, or_assoc]

/-- What two lists have the same ends of edges. -/
theorem incidence_congr {ε' : Type*} {start' finish' : ε' → κ} {edges' : List ε'}
    (h : (edges.map fun e => s(start e, finish e)).Perm (edges'.map fun e => s(start' e, finish' e))) :
    incidence start finish edges = incidence start' finish' edges' := by
  have hsum := (h.map Sym2.toMultiset).sum_eq
  rwa [List.map_map, List.map_map] at hsum

theorem graph_adj : (graph start finish edges).Adj k k' ↔ k ≠ k' ∧ s(k, k') ∈ edges.map fun e => s(start e, finish e) := by
  simp only [graph, SimpleGraph.fromRel_adj, List.mem_map, Sym2.eq_iff, and_or_left, exists_or]

theorem graph_congr {ε' : Type*} {start' finish' : ε' → κ} {edges' : List ε'}
    (h : (edges.map fun e => s(start e, finish e)).Perm (edges'.map fun e => s(start' e, finish' e))) :
    graph start finish edges = graph start' finish' edges' := by
  ext k k'
  rw [graph_adj, graph_adj, h.mem_iff]

section parity

variable [DecidableEq κ]

theorem even_count_pair {a b : κ} : Even (Multiset.count k {a, b}) ↔ (k = a ↔ k = b) := by
  rw [Multiset.insert_eq_cons, Multiset.count_cons, Multiset.count_singleton]
  by_cases ha : k = a
  · by_cases hb : k = b
    · rw [if_pos ha, if_pos hb]
      exact iff_of_true ⟨1, rfl⟩ (iff_of_true ha hb)
    · rw [if_pos ha, if_neg hb]
      exact iff_of_false Nat.not_even_one fun h => hb (h.mp ha)
  · by_cases hb : k = b
    · rw [if_neg ha, if_pos hb]
      exact iff_of_false Nat.not_even_one fun h => ha (h.mpr hb)
    · rw [if_neg ha, if_neg hb]
      exact iff_of_true Even.zero (iff_of_false ha hb)

/-- A vertex is met an even number of times, unless it is one of the ends. -/
theorem even_count_incidence (h : IsTrail start finish edges) (hfirst : edges.head? = some first)
    (hlast : edges.getLast? = some last) :
    Even (Multiset.count k (incidence start finish edges)) ↔ (k = start first ↔ k = finish last) := by
  induction edges generalizing first with
  | nil => cases hfirst
  | cons e edges ih =>
      obtain rfl := Option.some.inj hfirst
      cases edges with
      | nil =>
          obtain rfl : e = last := by simpa using hlast
          rw [incidence_cons, incidence_nil, add_zero, even_count_pair]
      | cons f edges =>
          obtain ⟨hnext, htail⟩ := List.isChain_cons_cons.mp h
          rw [List.getLast?_cons_cons] at hlast
          rw [incidence_cons, Multiset.count_add, Nat.even_add, even_count_pair, ih htail rfl hlast, hnext]
          tauto

end parity

/-! ## Components -/

/-- The edges of a trail are in one component. -/
theorem IsTrail.reachable {G : SimpleGraph κ} (hG : ∀ e ∈ edges, G.Reachable (start e) (finish e))
    (h : IsTrail start finish edges) (hfirst : edges.head? = some first) (he : e ∈ edges) :
    G.Reachable (start first) (start e) := by
  induction edges generalizing first with
  | nil => cases hfirst
  | cons f edges ih =>
      obtain rfl := Option.some.inj hfirst
      rcases List.mem_cons.mp he with rfl | he
      · exact .refl _
      cases edges with
      | nil => cases he
      | cons g edges =>
          obtain ⟨hnext, htail⟩ := List.isChain_cons_cons.mp h
          have hstep := hG f List.mem_cons_self
          rw [hnext] at hstep
          exact hstep.trans (ih (fun e he => hG e (List.mem_cons_of_mem f he)) htail rfl he)

theorem reachable_of_mem (he : e ∈ edges) : (graph start finish edges).Reachable (start e) (finish e) := by
  by_cases heq : start e = finish e
  · rw [heq]
  · exact SimpleGraph.Adj.reachable ⟨heq, .inl ⟨e, he, rfl, rfl⟩⟩

/-- What a set of edges does not share with the rest, it does not reach. -/
theorem mem_incidence_of_reachable (hrest : ∀ e ∈ rest, e ∉ edges →
      start e ∉ incidence start finish edges ∧ finish e ∉ incidence start finish edges)
    (h : (graph start finish rest).Reachable k k') (hk : k ∈ incidence start finish edges) :
    k' ∈ incidence start finish edges := by
  obtain ⟨walk⟩ := h
  induction walk with
  | nil => exact hk
  | cons hadj _ ih =>
      refine ih ?_
      rcases hadj.2 with ⟨e, he, rfl, rfl⟩ | ⟨e, he, rfl, rfl⟩
      · by_cases hmem : e ∈ edges
        · exact mem_incidence.mpr ⟨e, hmem, .inr rfl⟩
        · exact absurd hk (hrest e he hmem).1
      · by_cases hmem : e ∈ edges
        · exact mem_incidence.mpr ⟨e, hmem, .inl rfl⟩
        · exact absurd hk (hrest e he hmem).2

section components

variable {trails : List (List ε)} {G : SimpleGraph κ}

theorem mem_incidence_iff_of_apart (hG : G = graph start finish trails.flatten)
    (hapart : trails.Pairwise fun t t' => Disjoint (incidence start finish t) (incidence start finish t'))
    {t : List ε} (ht : t ∈ trails) (hfirst : first ∈ t) (hreach : G.Reachable (start first) k) :
    k ∈ incidence start finish t := by
  subst hG
  refine mem_incidence_of_reachable ?_ hreach (mem_incidence.mpr ⟨first, hfirst, .inl rfl⟩)
  intro e he hnot
  obtain ⟨u, hu, he⟩ := List.mem_flatten.mp he
  have hne : u ≠ t := by
    rintro rfl
    exact hnot he
  have hsymm : Std.Symm fun t t' => Disjoint (incidence start finish t) (incidence start finish t') :=
    ⟨fun _ _ h => h.symm⟩
  have hdisjoint := hapart.forall hu ht hne
  exact ⟨Multiset.disjoint_left.mp hdisjoint (mem_incidence.mpr ⟨e, he, .inl rfl⟩),
    Multiset.disjoint_left.mp hdisjoint (mem_incidence.mpr ⟨e, he, .inr rfl⟩)⟩

open Classical in
/-- Trails that share no vertex are the components of their edges. -/
theorem components_of_apart (hG : G = graph start finish trails.flatten) (hne : ∀ t ∈ trails, t ≠ [])
    (htrail : ∀ t ∈ trails, IsTrail start finish t)
    (hapart : trails.Pairwise fun t t' => Disjoint (incidence start finish t) (incidence start finish t')) :
    ∃ components : List G.ConnectedComponent, components.Nodup ∧
      (∀ e ∈ trails.flatten, G.connectedComponentMk (start e) ∈ components) ∧
      List.Forall₂ (fun t c => trails.flatten.filter (fun e => G.connectedComponentMk (start e) = c) = t)
        trails components := by
  by_cases hnil : trails = []
  · subst hnil
    exact ⟨[], .nil, by simp, .nil⟩
  obtain ⟨some, hsome⟩ := List.exists_mem_of_ne_nil trails hnil
  have hnonempty : Nonempty G.ConnectedComponent :=
    ⟨G.connectedComponentMk (start (some.head (hne some hsome)))⟩
  -- All edges of a trail are in one component, and nothing else is.
  have hconst (t : List ε) (ht : t ∈ trails) : ∃ c, ∀ e ∈ t, G.connectedComponentMk (start e) = c := by
    refine ⟨G.connectedComponentMk (start (t.head (hne t ht))), fun e he => ?_⟩
    refine (SimpleGraph.ConnectedComponent.sound ?_).symm
    refine (htrail t ht).reachable (fun e he => ?_) (List.head?_eq_some_head (hne t ht)) he
    rw [hG]
    exact reachable_of_mem (List.mem_flatten_of_mem ht he)
  choose! component hcomponent using hconst
  have hother (t u : List ε) (ht : t ∈ trails)
      (hdisjoint : Disjoint (incidence start finish t) (incidence start finish u)) (e : ε) (he : e ∈ u) :
      G.connectedComponentMk (start e) ≠ component t := by
    intro heq
    have hhead := List.head_mem (hne t ht)
    rw [← hcomponent t ht _ hhead] at heq
    have hmem := mem_incidence_iff_of_apart hG hapart ht hhead (SimpleGraph.ConnectedComponent.exact heq.symm)
    exact Multiset.disjoint_left.mp hdisjoint hmem (mem_incidence.mpr ⟨e, he, .inl rfl⟩)
  refine ⟨trails.map component, ?_, ?_, ?_⟩
  · rw [List.Nodup, List.pairwise_map]
    refine hapart.imp_of_mem ?_
    intro t u ht hu hdisjoint heq
    exact hother t u ht hdisjoint _ (List.head_mem (hne u hu))
      ((hcomponent u hu _ (List.head_mem (hne u hu))).trans heq.symm)
  · intro e he
    obtain ⟨t, ht, he⟩ := List.mem_flatten.mp he
    rw [hcomponent t ht e he]
    exact List.mem_map_of_mem ht
  · rw [List.forall₂_map_right_iff, List.forall₂_same]
    intro t ht
    obtain ⟨before, after, rfl⟩ := List.append_of_mem ht
    obtain ⟨-, hafter, hbefore⟩ := List.pairwise_append.mp hapart
    have hnone (others : List (List ε))
        (hothers : ∀ u ∈ others, Disjoint (incidence start finish t) (incidence start finish u)) :
        others.flatten.filter (fun e => G.connectedComponentMk (start e) = component t) = [] := by
      rw [List.filter_eq_nil_iff]
      intro e he
      obtain ⟨u, hu, he⟩ := List.mem_flatten.mp he
      simpa using hother t u ht (hothers u hu) e he
    have hself : t.filter (fun e => G.connectedComponentMk (start e) = component t) = t := by
      rw [List.filter_eq_self]
      intro e he
      simpa using hcomponent t ht e he
    rw [List.flatten_append, List.flatten_cons, List.filter_append, List.filter_append, hself,
      hnone before fun u hu => (hbefore u hu t List.mem_cons_self).symm,
      hnone after (List.pairwise_cons.mp hafter).1, List.nil_append, List.append_nil]

end components

end CadHarness.Lib.Trail
