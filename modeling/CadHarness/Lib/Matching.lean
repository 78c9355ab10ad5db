import Mathlib.Data.Finset.Card
import Mathlib.Logic.Function.Basic

/-!
# Bipartite matching

Augmenting paths, searched depth first with one set of visited vertices. A search that fails leaves a set of vertices
with too few neighbours, so that no matching covers them whatever was matched before.
-/

namespace CadHarness.Lib.Matching

/-- The left vertex that owns a right one. -/
abbrev Owners := Nat → Option Nat

structure Search where
  found : Bool
  visited : Finset Nat
  owners : Owners

/-- The neighbours of a vertex one by one. `augment` goes on from the owner of one. -/
def tryEdges (augment : Nat → Finset Nat → Owners → Search) (left : Nat) : List Nat → Finset Nat → Owners → Search
  | [], visited, owners => ⟨false, visited, owners⟩
  | right :: rest, visited, owners =>
      if right ∈ visited then tryEdges augment left rest visited owners
      else
        match owners right with
        | none => ⟨true, insert right visited, Function.update owners right (some left)⟩
        | some owner =>
            let search := augment owner (insert right visited) owners
            if search.found then ⟨true, search.visited, Function.update search.owners right (some left)⟩
            else tryEdges augment left rest search.visited search.owners

/-- The search for an augmenting path from a left vertex. The fuel bounds the length of the path. -/
def augment (edges : Nat → List Nat) : Nat → Nat → Finset Nat → Owners → Search
  | 0, _, visited, owners => ⟨false, visited, owners⟩
  | fuel + 1, left, visited, owners => tryEdges (augment edges fuel) left (edges left) visited owners

/-- The left vertices that stay unmatched, and the owners. -/
structure State where
  unmatched : List Nat
  owners : Owners

def matchNext (edges : Nat → List Nat) (rights : Nat) (state : State) (left : Nat) : State :=
  let search := augment edges (rights + 1) left ∅ state.owners
  ⟨if search.found then state.unmatched else state.unmatched ++ [left], search.owners⟩

def matchAll (edges : Nat → List Nat) (lefts rights : Nat) : State :=
  (List.range lefts).foldl (matchNext edges rights) ⟨[], fun _ => none⟩

/-- A matching that covers the left vertices. -/
def Covers (edges : Nat → List Nat) (lefts : Nat) (f : Nat → Nat) : Prop :=
  (∀ left < lefts, f left ∈ edges left) ∧ ∀ left < lefts, ∀ left' < lefts, f left = f left' → left = left'

/-! ## One search -/

section
variable {edges : Nat → List Nat} {rights : Nat} {left : Nat} {visited visited' : Finset Nat} {owners owners' : Owners}

/-- Outside what was visited, no left vertex owns two right ones, and this one owns none. -/
structure Ready (left : Nat) (visited : Finset Nat) (owners : Owners) : Prop where
  injective : ∀ j k e, j ∉ visited → k ∉ visited → owners j = some e → owners k = some e → j = k
  free : ∀ j, j ∉ visited → owners j ≠ some left

/-- What a successful search does to the owners. -/
structure Augmented (edges : Nat → List Nat) (left : Nat) (visited : Finset Nat) (owners owners' : Owners) : Prop where
  kept : ∀ j ∈ visited, owners' j = owners j
  edge : ∀ j e, owners' j = some e → owners j = some e ∨ j ∈ edges e
  matched : ∀ e, (∃ j, j ∉ visited ∧ owners' j = some e) ↔ e = left ∨ ∃ j, j ∉ visited ∧ owners j = some e
  injective : ∀ j k e, j ∉ visited → k ∉ visited → owners' j = some e → owners' k = some e → j = k

/-- What a failed search has visited: the neighbours that it was to try, and all neighbours of what it came by. -/
structure Failed (edges : Nat → List Nat) (rights : Nat) (tried : List Nat) (visited visited' : Finset Nat)
    (owners : Owners) : Prop where
  subset : visited ⊆ visited'
  bound : ∀ j ∈ visited', j < rights
  tried : ∀ j ∈ tried, j ∈ visited'
  closed : ∀ j ∈ visited', j ∉ visited → ∃ owner, owners j = some owner ∧ ∀ k ∈ edges owner, k ∈ visited'

theorem Ready.mono (h : Ready left visited owners) (hsubset : visited ⊆ visited') : Ready left visited' owners :=
  ⟨fun j k e hj hk => h.injective j k e (fun hj' => hj (hsubset hj')) (fun hk' => hk (hsubset hk')),
    fun j hj => h.free j fun hj' => hj (hsubset hj')⟩

/-- The owner of a vertex that is visited now is ready itself. -/
theorem Ready.owner (h : Ready left visited owners) {j owner : Nat} (hj : j ∉ visited) (howner : owners j = some owner) :
    Ready owner (insert j visited) owners := by
  refine ⟨(h.mono (Finset.subset_insert j visited)).injective, fun k hk hsame => ?_⟩
  rw [Finset.mem_insert, not_or] at hk
  exact hk.1 (h.injective k j owner hk.2 hj hsame howner)

theorem Augmented.single (h : Ready left visited owners) {j : Nat} (hj : j ∉ visited) (hedge : j ∈ edges left)
    (hnone : owners j = none) : Augmented edges left visited owners (Function.update owners j (some left)) := by
  refine ⟨fun k hk => ?_, fun k e hk => ?_, fun e => ⟨?_, ?_⟩, fun k k' e hk hk' hke hke' => ?_⟩
  · exact Function.update_of_ne (ne_of_mem_of_not_mem hk hj) _ _
  · by_cases hkj : k = j
    · subst hkj
      rw [Function.update_self] at hk
      exact .inr (Option.some.inj hk ▸ hedge)
    · exact .inl (by rwa [Function.update_of_ne hkj] at hk)
  · rintro ⟨k, hk, hke⟩
    by_cases hkj : k = j
    · subst hkj
      rw [Function.update_self] at hke
      exact .inl (Option.some.inj hke).symm
    · exact .inr ⟨k, hk, by rwa [Function.update_of_ne hkj] at hke⟩
  · rintro (rfl | ⟨k, hk, hke⟩)
    · exact ⟨j, hj, Function.update_self _ _ _⟩
    · have hkj : k ≠ j := fun heq => by rw [heq, hnone] at hke; cases hke
      exact ⟨k, hk, by rwa [Function.update_of_ne hkj]⟩
  · by_cases hkj : k = j <;> by_cases hkj' : k' = j
    · exact hkj.trans hkj'.symm
    · rw [hkj, Function.update_self] at hke
      rw [Function.update_of_ne hkj', ← hke] at hke'
      exact absurd hke' (h.free k' hk')
    · rw [hkj', Function.update_self] at hke'
      rw [Function.update_of_ne hkj, ← hke'] at hke
      exact absurd hke (h.free k hk)
    · rw [Function.update_of_ne hkj] at hke
      rw [Function.update_of_ne hkj'] at hke'
      exact h.injective k k' e hk hk' hke hke'

/-- The owner of a vertex has found another, so that the vertex is free. -/
theorem Augmented.step (h : Ready left visited owners) {j owner : Nat} (hj : j ∉ visited) (hedge : j ∈ edges left)
    (howner : owners j = some owner) (hfound : Augmented edges owner (insert j visited) owners owners') :
    Augmented edges left visited owners (Function.update owners' j (some left)) := by
  have hout {k : Nat} (hk : k ∉ visited) (hkj : k ≠ j) : k ∉ insert j visited := by
    rw [Finset.mem_insert, not_or]
    exact ⟨hkj, hk⟩
  have hback {k e : Nat} (hk : k ∉ visited) (hkj : k ≠ j) (hke : owners' k = some e) :
      ∃ k, k ∉ visited ∧ owners k = some e := by
    rcases (hfound.matched e).mp ⟨k, hout hk hkj, hke⟩ with rfl | ⟨k', hk', hke'⟩
    · exact ⟨j, hj, howner⟩
    · rw [Finset.mem_insert, not_or] at hk'
      exact ⟨k', hk'.2, hke'⟩
  refine ⟨fun k hk => ?_, fun k e hk => ?_, fun e => ⟨?_, ?_⟩, fun k k' e hk hk' hke hke' => ?_⟩
  · rw [Function.update_of_ne (ne_of_mem_of_not_mem hk hj)]
    exact hfound.kept k (Finset.mem_insert_of_mem hk)
  · by_cases hkj : k = j
    · subst hkj
      rw [Function.update_self] at hk
      exact .inr (Option.some.inj hk ▸ hedge)
    · exact hfound.edge k e (by rwa [Function.update_of_ne hkj] at hk)
  · rintro ⟨k, hk, hke⟩
    by_cases hkj : k = j
    · subst hkj
      rw [Function.update_self] at hke
      exact .inl (Option.some.inj hke).symm
    · rw [Function.update_of_ne hkj] at hke
      exact .inr (hback hk hkj hke)
  · rintro (rfl | ⟨k, hk, hke⟩)
    · exact ⟨j, hj, Function.update_self _ _ _⟩
    · have hmatched : ∃ k, k ∉ insert j visited ∧ owners' k = some e := by
        refine (hfound.matched e).mpr ?_
        by_cases hkj : k = j
        · subst hkj
          exact .inl (Option.some.inj (hke.symm.trans howner))
        · exact .inr ⟨k, hout hk hkj, hke⟩
      obtain ⟨k', hk', hke'⟩ := hmatched
      rw [Finset.mem_insert, not_or] at hk'
      exact ⟨k', hk'.2, by rwa [Function.update_of_ne hk'.1]⟩
  · have hfree {k : Nat} (hk : k ∉ visited) (hkj : k ≠ j) : owners' k ≠ some left := by
      intro hsame
      obtain ⟨k', hk', hke⟩ := hback hk hkj hsame
      exact h.free k' hk' hke
    by_cases hkj : k = j <;> by_cases hkj' : k' = j
    · exact hkj.trans hkj'.symm
    · rw [hkj, Function.update_self] at hke
      rw [Function.update_of_ne hkj', ← hke] at hke'
      exact absurd hke' (hfree hk' hkj')
    · rw [hkj', Function.update_self] at hke'
      rw [Function.update_of_ne hkj, ← hke'] at hke
      exact absurd hke (hfree hk hkj)
    · rw [Function.update_of_ne hkj] at hke
      rw [Function.update_of_ne hkj'] at hke'
      exact hfound.injective k k' e (hout hk hkj) (hout hk' hkj') hke hke'

/-- What was visited in vain does not count. -/
theorem Augmented.of_subset (h : Ready left visited owners) (hsubset : visited ⊆ visited')
    (hfound : Augmented edges left visited' owners owners') : Augmented edges left visited owners owners' := by
  have hback {j e : Nat} (hj : j ∉ visited) (hje : owners' j = some e) :
      e = left ∨ ∃ j, j ∉ visited ∧ owners j = some e := by
    by_cases hj' : j ∈ visited'
    · exact .inr ⟨j, hj, (hfound.kept j hj').symm.trans hje⟩
    · exact ((hfound.matched e).mp ⟨j, hj', hje⟩).imp_right fun ⟨k, hk, hke⟩ => ⟨k, fun hk' => hk (hsubset hk'), hke⟩
  have hcross {j k e : Nat} (hj : j ∉ visited) (hj' : j ∈ visited') (hk : k ∉ visited') (hje : owners' j = some e)
      (hke : owners' k = some e) : j = k := by
    rw [hfound.kept j hj'] at hje
    rcases (hfound.matched e).mp ⟨k, hk, hke⟩ with rfl | ⟨k', hk', hke'⟩
    · exact absurd hje (h.free j hj)
    · have hsame : j = k' := h.injective j k' e hj (fun hk'' => hk' (hsubset hk'')) hje hke'
      exact absurd hj' (hsame ▸ hk')
  refine ⟨fun j hj => hfound.kept j (hsubset hj), hfound.edge, fun e => ⟨?_, ?_⟩, fun j k e hj hk hje hke => ?_⟩
  · rintro ⟨j, hj, hje⟩
    exact hback hj hje
  · intro he
    have hmatched : e = left ∨ (∃ j, j ∉ visited' ∧ owners j = some e) ∨
        ∃ j, j ∉ visited ∧ j ∈ visited' ∧ owners j = some e := by
      rcases he with he | ⟨j, hj, hje⟩
      · exact .inl he
      · by_cases hj' : j ∈ visited'
        · exact .inr (.inr ⟨j, hj, hj', hje⟩)
        · exact .inr (.inl ⟨j, hj', hje⟩)
    rcases hmatched with he | he | ⟨j, hj, hj', hje⟩
    · obtain ⟨j, hj, hje⟩ := (hfound.matched e).mpr (.inl he)
      exact ⟨j, fun hj' => hj (hsubset hj'), hje⟩
    · obtain ⟨j, hj, hje⟩ := (hfound.matched e).mpr (.inr he)
      exact ⟨j, fun hj' => hj (hsubset hj'), hje⟩
    · exact ⟨j, hj, (hfound.kept j hj').trans hje⟩
  · by_cases hj' : j ∈ visited' <;> by_cases hk' : k ∈ visited'
    · rw [hfound.kept j hj'] at hje
      rw [hfound.kept k hk'] at hke
      exact h.injective j k e hj hk hje hke
    · exact hcross hj hj' hk' hje hke
    · exact (hcross hk hk' hj' hke hje).symm
    · exact hfound.injective j k e hj' hk' hje hke

/-- What a search gives: an augmented matching, or the vertices that it visited in vain. -/
def Outcome (edges : Nat → List Nat) (rights : Nat) (tried : List Nat) (left : Nat) (visited : Finset Nat)
    (owners : Owners) (search : Search) : Prop :=
  if search.found then Augmented edges left visited owners search.owners
  else search.owners = owners ∧ Failed edges rights tried visited search.visited owners

theorem tryEdges_outcome {next : Nat → Finset Nat → Owners → Search} {fuel : Nat}
    (hedges : ∀ e, ∀ j ∈ edges e, j < rights)
    (hnext : ∀ owner visited owners, (∀ j ∈ visited, j < rights) → rights < fuel + visited.card →
      Ready owner visited owners → Outcome edges rights (edges owner) owner visited owners (next owner visited owners))
    {tried : List Nat} (htried : ∀ j ∈ tried, j ∈ edges left) (hbound : ∀ j ∈ visited, j < rights)
    (hfuel : rights < fuel + 1 + visited.card) (h : Ready left visited owners) :
    Outcome edges rights tried left visited owners (tryEdges next left tried visited owners) := by
  induction tried generalizing visited with
  | nil => exact ⟨rfl, Finset.Subset.refl _, hbound, fun j hj => absurd hj List.not_mem_nil, fun j hj hj' => absurd hj hj'⟩
  | cons right rest ih =>
      have hrest : ∀ j ∈ rest, j ∈ edges left := fun j hj => htried j (List.mem_cons_of_mem right hj)
      have hright : right ∈ edges left := htried right List.mem_cons_self
      unfold tryEdges
      by_cases hvisited : right ∈ visited
      · rw [if_pos hvisited]
        have houtcome := ih hrest hbound hfuel h
        unfold Outcome at houtcome ⊢
        split_ifs at houtcome ⊢
        · exact houtcome
        · obtain ⟨howners, hsubset, hbound', htried', hclosed⟩ := houtcome
          refine ⟨howners, hsubset, hbound', fun j hj => ?_, hclosed⟩
          rcases List.mem_cons.mp hj with rfl | hj
          · exact hsubset hvisited
          · exact htried' j hj
      rw [if_neg hvisited]
      cases howner : owners right with
      | none => exact Augmented.single h hvisited hright howner
      | some owner =>
          have hbound' : ∀ j ∈ insert right visited, j < rights := fun j hj => by
            rcases Finset.mem_insert.mp hj with rfl | hj
            · exact hedges left _ hright
            · exact hbound j hj
          have hcard : (insert right visited).card = visited.card + 1 := Finset.card_insert_of_notMem hvisited
          have houtcome := hnext owner (insert right visited) owners hbound' (by omega) (h.owner hvisited howner)
          dsimp only
          unfold Outcome at houtcome
          by_cases hfound : (next owner (insert right visited) owners).found
          · rw [if_pos hfound] at houtcome ⊢
            exact Augmented.step h hvisited hright howner houtcome
          · rw [if_neg hfound] at houtcome ⊢
            obtain ⟨hsame, hsubset, hbound'', htried', hclosed⟩ := houtcome
            have hsubset' : visited ⊆ (next owner (insert right visited) owners).visited :=
              (Finset.subset_insert right visited).trans hsubset
            have hgrown := Finset.card_le_card hsubset'
            have houtcome := ih hrest hbound'' (by omega) (h.mono hsubset')
            rw [hsame]
            unfold Outcome at houtcome ⊢
            split_ifs at houtcome ⊢
            · exact Augmented.of_subset h hsubset' houtcome
            · obtain ⟨howners, hsubset'', hbound''', htried'', hclosed'⟩ := houtcome
              have hin : right ∈ (next owner (insert right visited) owners).visited :=
                hsubset (Finset.mem_insert_self right visited)
              refine ⟨howners, hsubset'.trans hsubset'', hbound''', fun j hj => ?_, fun j hj hj' => ?_⟩
              · rcases List.mem_cons.mp hj with rfl | hj
                · exact hsubset'' hin
                · exact htried'' j hj
              · by_cases hj₁ : j ∈ (next owner (insert right visited) owners).visited
                · by_cases hjright : j = right
                  · subst hjright
                    exact ⟨owner, howner, fun k hk => hsubset'' (htried' k hk)⟩
                  · have hj₂ : j ∉ insert right visited := by
                      rw [Finset.mem_insert, not_or]
                      exact ⟨hjright, hj'⟩
                    obtain ⟨owner', howner', hneighbours⟩ := hclosed j hj₁ hj₂
                    exact ⟨owner', howner', fun k hk => hsubset'' (hneighbours k hk)⟩
                · exact hclosed' j hj hj₁

theorem augment_outcome (hedges : ∀ e, ∀ j ∈ edges e, j < rights) (fuel : Nat) (hbound : ∀ j ∈ visited, j < rights)
    (hfuel : rights < fuel + visited.card) (h : Ready left visited owners) :
    Outcome edges rights (edges left) left visited owners (augment edges fuel left visited owners) := by
  induction fuel generalizing left visited owners with
  | zero =>
      have hcard : visited.card ≤ rights := by
        have hsubset : visited ⊆ Finset.range rights := fun j hj => Finset.mem_range.mpr (hbound j hj)
        exact (Finset.card_le_card hsubset).trans_eq (Finset.card_range rights)
      omega
  | succ fuel ih =>
      exact tryEdges_outcome hedges (fun _ _ _ hbound' hfuel' h' => ih hbound' hfuel' h') (fun j hj => hj) hbound hfuel h

/-- A search that fails from nothing visited leaves no matching that covers the left vertices. -/
theorem Failed.not_covers {lefts : Nat} {f : Nat → Nat} (hinjective : ∀ j k e, owners j = some e → owners k = some e → j = k)
    (hfree : ∀ j, owners j ≠ some left) (hlefts : ∀ j e, owners j = some e → e < lefts) (hleft : left < lefts)
    (h : Failed edges rights (edges left) ∅ visited owners) : ¬ Covers edges lefts f := by
  rintro ⟨hedge, hf⟩
  have howner (j : Nat) (hj : j ∈ visited) : ∃ owner, owners j = some owner ∧ ∀ k ∈ edges owner, k ∈ visited :=
    h.closed j hj (Finset.notMem_empty j)
  choose! owner howns hneighbours using howner
  have hnotin : left ∉ visited.image owner := fun hmem => by
    obtain ⟨j, hj, heq⟩ := Finset.mem_image.mp hmem
    exact hfree j (heq ▸ howns j hj)
  have hcard : (insert left (visited.image owner)).card = visited.card + 1 := by
    rw [Finset.card_insert_of_notMem hnotin, Finset.card_image_of_injOn]
    intro j hj k hk heq
    exact hinjective j k (owner j) (howns j hj) (heq ▸ howns k hk)
  have hbelow : ∀ e ∈ insert left (visited.image owner), e < lefts ∧ f e ∈ visited := by
    intro e he
    rcases Finset.mem_insert.mp he with rfl | he
    · exact ⟨hleft, h.tried _ (hedge e hleft)⟩
    · obtain ⟨j, hj, rfl⟩ := Finset.mem_image.mp he
      have hlt := hlefts j (owner j) (howns j hj)
      exact ⟨hlt, hneighbours j hj _ (hedge (owner j) hlt)⟩
  have hle : (insert left (visited.image owner)).card ≤ visited.card :=
    Finset.card_le_card_of_injOn f (fun e he => (hbelow e he).2)
      fun e he e' he' heq => hf e (hbelow e he).1 e' (hbelow e' he').1 heq
  omega

/-! ## All searches -/

/-- After the searches from the first left vertices. -/
structure Matched (edges : Nat → List Nat) (done : Nat) (state : State) : Prop where
  edge : ∀ j e, state.owners j = some e → j ∈ edges e
  matched : ∀ e, (∃ j, state.owners j = some e) ↔ e < done ∧ e ∉ state.unmatched
  injective : ∀ j k e, state.owners j = some e → state.owners k = some e → j = k
  unmatched : ∀ e ∈ state.unmatched, e < done
  refuted : state.unmatched ≠ [] → ∀ lefts f, done ≤ lefts → ¬ Covers edges lefts f

theorem Matched.next {done : Nat} {state : State} (hedges : ∀ e, ∀ j ∈ edges e, j < rights) (h : Matched edges done state) :
    Matched edges (done + 1) (matchNext edges rights state done) := by
  have hfree (j : Nat) : state.owners j ≠ some done := fun hj => by
    have hlt := ((h.matched done).mp ⟨j, hj⟩).1
    omega
  have hready : Ready done ∅ state.owners := ⟨fun j k e _ _ => h.injective j k e, fun j _ => hfree j⟩
  have houtcome := augment_outcome hedges (rights + 1) (fun j hj => absurd hj (Finset.notMem_empty j))
    (by rw [Finset.card_empty]; omega) hready
  unfold Outcome at houtcome
  unfold matchNext
  dsimp only
  split_ifs at houtcome ⊢ with hfound
  · have hmatched (e : Nat) : (∃ j, (augment edges (rights + 1) done ∅ state.owners).owners j = some e) ↔
        e = done ∨ ∃ j, state.owners j = some e := by
      have := houtcome.matched e
      simpa only [Finset.notMem_empty, not_false_eq_true, true_and] using this
    refine ⟨fun j e hj => ?_, fun e => ?_, fun j k e => ?_, fun e he => ?_, fun hne lefts f hle => ?_⟩
    · exact (houtcome.edge j e hj).elim (h.edge j e) id
    · rw [hmatched e, h.matched e]
      have hdone : done ∉ state.unmatched := fun hmem => absurd (h.unmatched done hmem) (lt_irrefl done)
      constructor
      · rintro (rfl | ⟨hlt, hnot⟩)
        · exact ⟨Nat.lt_succ_self e, hdone⟩
        · exact ⟨Nat.lt_succ_of_lt hlt, hnot⟩
      · rintro ⟨hlt, hnot⟩
        rcases Nat.lt_succ_iff_lt_or_eq.mp hlt with hlt | rfl
        · exact .inr ⟨hlt, hnot⟩
        · exact .inl rfl
    · exact houtcome.injective j k e (Finset.notMem_empty j) (Finset.notMem_empty k)
    · exact Nat.lt_succ_of_lt (h.unmatched e he)
    · exact h.refuted hne lefts f (by omega)
  · obtain ⟨hsame, hfailed⟩ := houtcome
    rw [hsame]
    refine ⟨h.edge, fun e => ?_, h.injective, fun e he => ?_, fun _ lefts f hle => ?_⟩
    · rw [h.matched e, List.mem_append, List.mem_singleton]
      constructor
      · rintro ⟨hlt, hnot⟩
        exact ⟨by omega, by rintro (hmem | rfl); exacts [hnot hmem, lt_irrefl _ hlt]⟩
      · rintro ⟨hlt, hnot⟩
        rw [not_or] at hnot
        exact ⟨by omega, hnot.1⟩
    · rcases List.mem_append.mp he with he | he
      · exact Nat.lt_succ_of_lt (h.unmatched e he)
      · rw [List.mem_singleton.mp he]
        exact Nat.lt_succ_self done
    · exact hfailed.not_covers h.injective hfree (fun j e hj => by have := (h.matched e).mp ⟨j, hj⟩; omega) (by omega)

theorem matchAll_matched (hedges : ∀ e, ∀ j ∈ edges e, j < rights) (lefts : Nat) :
    Matched edges lefts (matchAll edges lefts rights) := by
  induction lefts with
  | zero =>
      refine ⟨fun j e hj => ?_, fun e => ?_, fun j k e hj => ?_, fun e he => ?_, fun hne => absurd rfl hne⟩
      · cases hj
      · refine iff_of_false ?_ fun he => absurd he.1 (Nat.not_lt_zero e)
        rintro ⟨j, hj⟩
        cases hj
      · cases hj
      · exact absurd he List.not_mem_nil
  | succ lefts ih =>
      rw [matchAll, List.range_succ, List.foldl_append]
      exact ih.next hedges

/-- No left vertex stays unmatched if and only if some matching covers them. -/
theorem matchAll_unmatched_iff (hedges : ∀ e, ∀ j ∈ edges e, j < rights) (lefts : Nat) :
    (matchAll edges lefts rights).unmatched = [] ↔ ∃ f, Covers edges lefts f := by
  have h := matchAll_matched hedges lefts
  constructor
  · intro hnil
    have howns (e : Nat) (he : e < lefts) : ∃ j, (matchAll edges lefts rights).owners j = some e :=
      (h.matched e).mpr ⟨he, by rw [hnil]; exact List.not_mem_nil⟩
    choose! f hf using howns
    refine ⟨f, fun e he => h.edge _ e (hf e he), fun e he e' he' heq => ?_⟩
    exact Option.some.inj ((hf e he).symm.trans (heq ▸ hf e' he'))
  · rintro ⟨f, hf⟩
    by_contra hne
    exact h.refuted hne lefts f le_rfl hf

end

end CadHarness.Lib.Matching
