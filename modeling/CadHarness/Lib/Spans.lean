import CadHarness.Lib.SortBy
import Mathlib.Algebra.Order.Field.Basic
import Mathlib.Order.Interval.Set.Basic
import Mathlib.Tactic.Linarith
import Mathlib.Tactic.Order

/-!
# Spans of time

Spans with a first and a last instant are merged one by one, in the order of their first instants. The gaps between the
merged spans are the maximal gaps in what the spans cover.
-/

namespace CadHarness.Lib

variable {α : Type} [LinearOrder α]

/-- What the spans cover. -/
def cover (spans : List (α × α)) : Set α := {t | ∃ s ∈ spans, s.1 ≤ t ∧ t ≤ s.2}

/-- A maximal gap of a set, between two of its elements. -/
def IsGap (covered : Set α) (a b : α) : Prop := a ∈ covered ∧ b ∈ covered ∧ a < b ∧ ∀ t, a < t → t < b → t ∉ covered

/-- A span, cut off before `start`, goes to the spans that are merged already, the latest of them first. -/
def mergeSpan (start : α) (merged : List (α × α)) (span : α × α) : List (α × α) :=
  let spanStart := max span.1 start
  match merged with
  | [] => [(spanStart, span.2)]
  | last :: rest =>
      if spanStart ≤ last.2 then (last.1, max last.2 span.2) :: rest else (spanStart, span.2) :: last :: rest

/-- What lies between a merged span and the one before it. -/
def gaps : List (α × α) → List (α × α)
  | current :: previous :: rest => (previous.2, current.1) :: gaps (previous :: rest)
  | _ => []

/-- The spans lie apart from each other, the latest first. -/
structure Separated (spans : List (α × α)) : Prop where
  ordered : ∀ s ∈ spans, s.1 ≤ s.2
  apart : spans.Pairwise fun s p => p.2 < s.1

theorem separated_nil : Separated ([] : List (α × α)) := ⟨fun _ h => absurd h List.not_mem_nil, .nil⟩

theorem Separated.tail {s : α × α} {spans : List (α × α)} (h : Separated (s :: spans)) : Separated spans :=
  ⟨fun p hp => h.ordered p (List.mem_cons_of_mem s hp), (List.pairwise_cons.mp h.apart).2⟩

/-- The last span covers the last instant. -/
theorem Separated.le_last {last : α × α} {spans : List (α × α)} (h : Separated (last :: spans)) {t : α}
    (ht : t ∈ cover (last :: spans)) : t ≤ last.2 := by
  obtain ⟨s, hs, hst, hts⟩ := ht
  rcases List.mem_cons.mp hs with rfl | hs
  · exact hts
  · have hbefore : s.2 < last.1 := (List.pairwise_cons.mp h.apart).1 s hs
    have hlast := h.ordered last List.mem_cons_self
    order

theorem mem_cover_cons {s : α × α} {spans : List (α × α)} {t : α} :
    t ∈ cover (s :: spans) ↔ (s.1 ≤ t ∧ t ≤ s.2) ∨ t ∈ cover spans := by
  simp only [cover, Set.mem_ofPred_eq, List.exists_mem_cons_iff]

/-! ## Merging -/

section Merging
variable {start : α} {merged spans : List (α × α)} {span : α × α}

theorem mergeSpan_separated (h : Separated merged) (hspan : span.1 ≤ span.2) (hstart : start ≤ span.2)
    (hlater : ∀ m ∈ merged, m.1 ≤ max span.1 start) : Separated (mergeSpan start merged span) := by
  have hclipped : max span.1 start ≤ span.2 := max_le hspan hstart
  cases merged with
  | nil =>
      refine ⟨fun s hs => ?_, List.pairwise_singleton _ _⟩
      obtain rfl := List.mem_singleton.mp hs
      exact hclipped
  | cons last rest =>
      unfold mergeSpan
      obtain ⟨hbefore, hrest⟩ := List.pairwise_cons.mp h.apart
      have hlast := h.ordered last List.mem_cons_self
      dsimp only
      split_ifs with htouch
      · refine ⟨fun s hs => ?_, List.pairwise_cons.mpr ⟨hbefore, hrest⟩⟩
        rcases List.mem_cons.mp hs with rfl | hs
        · exact hlast.trans (le_max_left _ _)
        · exact h.ordered s (List.mem_cons_of_mem last hs)
      · refine ⟨fun s hs => ?_, List.pairwise_cons.mpr ⟨fun p hp => ?_, h.apart⟩⟩
        · rcases List.mem_cons.mp hs with rfl | hs
          · exact hclipped
          · exact h.ordered s hs
        · have hp' : p.2 ≤ last.2 := h.le_last ⟨p, hp, h.ordered p hp, le_rfl⟩
          exact hp'.trans_lt (not_le.mp htouch)

theorem mem_cover_mergeSpan (hlater : ∀ m ∈ merged, m.1 ≤ max span.1 start) {t : α} :
    t ∈ cover (mergeSpan start merged span) ↔ t ∈ cover merged ∨ (start ≤ t ∧ span.1 ≤ t ∧ t ≤ span.2) := by
  have hclipped : (max span.1 start ≤ t ∧ t ≤ span.2) ↔ start ≤ t ∧ span.1 ≤ t ∧ t ≤ span.2 := by
    rw [max_le_iff]
    tauto
  cases merged with
  | nil => rw [mergeSpan, mem_cover_cons, hclipped, or_comm]
  | cons last rest =>
      unfold mergeSpan
      dsimp only
      split_ifs with htouch
      · rw [mem_cover_cons, mem_cover_cons, ← hclipped, le_max_iff]
        have hlast := hlater last List.mem_cons_self
        constructor
        · rintro (⟨hlow, hhigh | hhigh⟩ | hrest)
          · exact .inl (.inl ⟨hlow, hhigh⟩)
          · rcases le_total (max span.1 start) t with ht | ht
            · exact .inr ⟨ht, hhigh⟩
            · exact .inl (.inl ⟨hlow, ht.trans htouch⟩)
          · exact .inl (.inr hrest)
        · rintro ((⟨hlow, hhigh⟩ | hrest) | ⟨hlow, hhigh⟩)
          · exact .inl ⟨hlow, .inl hhigh⟩
          · exact .inr hrest
          · exact .inl ⟨hlast.trans hlow, .inr hhigh⟩
      · rw [mem_cover_cons, hclipped, or_comm]

theorem mem_mergeSpan {m : α × α} (hm : m ∈ mergeSpan start merged span) :
    m.1 = max span.1 start ∨ ∃ n ∈ merged, m.1 = n.1 := by
  cases merged with
  | nil => exact .inl (by rw [List.mem_singleton.mp hm])
  | cons last rest =>
      unfold mergeSpan at hm
      dsimp only at hm
      split_ifs at hm
      · rcases List.mem_cons.mp hm with rfl | hm
        · exact .inr ⟨last, List.mem_cons_self, rfl⟩
        · exact .inr ⟨m, List.mem_cons_of_mem last hm, rfl⟩
      · rcases List.mem_cons.mp hm with rfl | hm
        · exact .inl rfl
        · exact .inr ⟨m, hm, rfl⟩

/-- Merging keeps the spans apart and covers what they cover from `start` on. -/
theorem foldl_mergeSpan (hsorted : spans.Pairwise fun s p => s.1 ≤ p.1)
    (hspans : ∀ s ∈ spans, s.1 ≤ s.2 ∧ start ≤ s.2) (hmerged : Separated merged) (hstart : ∀ m ∈ merged, start ≤ m.1)
    (hlater : ∀ m ∈ merged, ∀ s ∈ spans, m.1 ≤ max s.1 start) :
    Separated (spans.foldl (mergeSpan start) merged) ∧ (∀ m ∈ spans.foldl (mergeSpan start) merged, start ≤ m.1) ∧
      ∀ t, t ∈ cover (spans.foldl (mergeSpan start) merged) ↔ t ∈ cover merged ∨ (start ≤ t ∧ t ∈ cover spans) := by
  induction spans generalizing merged with
  | nil => exact ⟨hmerged, hstart, fun t => by simp [cover]⟩
  | cons span spans ih =>
      obtain ⟨hfirst, hsorted⟩ := List.pairwise_cons.mp hsorted
      obtain ⟨hspan, hend⟩ := hspans span List.mem_cons_self
      have hlater' : ∀ m ∈ merged, m.1 ≤ max span.1 start := fun m hm => hlater m hm span List.mem_cons_self
      obtain ⟨hapart, hafter, hcover⟩ := ih hsorted
        (fun s hs => hspans s (List.mem_cons_of_mem span hs)) (mergeSpan_separated hmerged hspan hend hlater')
        (fun m hm => by
          rcases mem_mergeSpan hm with h | ⟨n, hn, h⟩
          · exact h ▸ le_max_right _ _
          · exact h ▸ hstart n hn)
        (fun m hm s hs => by
          rcases mem_mergeSpan hm with h | ⟨n, hn, h⟩
          · exact h ▸ max_le_max_right start (hfirst s hs)
          · exact h ▸ hlater n hn s (List.mem_cons_of_mem span hs))
      refine ⟨hapart, hafter, fun t => ?_⟩
      rw [List.foldl_cons, hcover t, mem_cover_mergeSpan hlater', mem_cover_cons]
      tauto

end Merging

/-! ## Gaps -/

section Gaps
variable [DenselyOrdered α] {spans : List (α × α)}

/-- The gaps between spans that lie apart are the maximal gaps in what they cover. -/
theorem mem_gaps_iff (h : Separated spans) {a b : α} : (a, b) ∈ gaps spans ↔ IsGap (cover spans) a b := by
  induction spans with
  | nil => exact iff_of_false List.not_mem_nil fun hgap => by simpa [cover] using hgap.1
  | cons current spans ih =>
      cases spans with
      | nil =>
          refine iff_of_false List.not_mem_nil fun ⟨ha, hb, hab, hfree⟩ => ?_
          simp only [cover, List.mem_singleton, exists_eq_left, Set.mem_ofPred_eq] at ha hb hfree
          obtain ⟨t, hat, htb⟩ := exists_between hab
          exact hfree t hat htb ⟨by order, by order⟩
      | cons previous rest =>
          have hbefore : previous.2 < current.1 := (List.pairwise_cons.mp h.apart).1 previous List.mem_cons_self
          have hcurrent := h.ordered current List.mem_cons_self
          have hprevious := h.tail.ordered previous List.mem_cons_self
          have hle {t : α} (ht : t ∈ cover (previous :: rest)) : t ≤ previous.2 := h.tail.le_last ht
          have hlast : previous.2 ∈ cover (previous :: rest) := ⟨previous, List.mem_cons_self, hprevious, le_rfl⟩
          rw [gaps, List.mem_cons, Prod.mk.injEq, ih h.tail]
          constructor
          · rintro (⟨rfl, rfl⟩ | ⟨ha, hb, hab, hfree⟩)
            · refine ⟨mem_cover_cons.mpr (.inr hlast), mem_cover_cons.mpr (.inl ⟨le_rfl, hcurrent⟩), hbefore, ?_⟩
              intro t hat htb ht
              rcases mem_cover_cons.mp ht with ht | ht
              · order [ht.1]
              · order [hle ht]
            · refine ⟨mem_cover_cons.mpr (.inr ha), mem_cover_cons.mpr (.inr hb), hab, fun t hat htb ht => ?_⟩
              rcases mem_cover_cons.mp ht with ht | ht
              · order [ht.1, hle hb]
              · exact hfree t hat htb ht
          · rintro ⟨ha, hb, hab, hfree⟩
            have hfree' (t : α) (hat : a < t) (htb : t < b) : t ∉ cover (previous :: rest) := fun ht =>
              hfree t hat htb (mem_cover_cons.mpr (.inr ht))
            rcases mem_cover_cons.mp hb with hb | hb
            · rcases mem_cover_cons.mp ha with ha | ha
              · obtain ⟨t, hat, htb⟩ := exists_between hab
                exact absurd (mem_cover_cons.mpr (.inl ⟨by order [ha.1], by order [hb.2]⟩)) (hfree t hat htb)
              · -- The gap ends with the last span, so it reaches from one end to the other.
                refine .inl ⟨(hle ha).antisymm (not_lt.mp fun hlt => ?_), hb.1.antisymm' (not_lt.mp fun hlt => ?_)⟩
                · exact hfree' _ hlt (by order [hb.1]) hlast
                · exact hfree _ (by order [hle ha]) hlt (mem_cover_cons.mpr (.inl ⟨le_rfl, hcurrent⟩))
            · rcases mem_cover_cons.mp ha with ha | ha
              · order [ha.1, hle hb]
              · exact .inr ⟨ha, hb, hab, hfree'⟩

theorem gaps_pos (h : Separated spans) {g : α × α} (hg : g ∈ gaps spans) : g.1 < g.2 :=
  ((mem_gaps_iff h).mp hg).2.2.1

theorem gaps_nodup (h : Separated spans) : (gaps spans).Nodup := by
  induction spans with
  | nil => exact List.nodup_nil
  | cons current spans ih =>
      cases spans with
      | nil => exact List.nodup_nil
      | cons previous rest =>
          refine List.nodup_cons.mpr ⟨fun hmem => ?_, ih h.tail⟩
          have hgap := (mem_gaps_iff h.tail).mp hmem
          have hle := h.tail.le_last hgap.2.1
          have hlt := hgap.2.2.1
          exact absurd hlt (not_lt.mpr hle)

/-- The gaps take no more time than there is between the first instant and the last span. -/
theorem sum_gaps_le {α : Type} [Field α] [LinearOrder α] [IsStrictOrderedRing α] {spans : List (α × α)} {start : α} {last : α × α} (h : Separated (last :: spans)) (hstart : ∀ s ∈ last :: spans, start ≤ s.1) :
    ((gaps (last :: spans)).map fun g => g.2 - g.1).sum ≤ last.1 - start := by
  induction spans generalizing last with
  | nil =>
      have := hstart last List.mem_cons_self
      simpa [gaps] using this
  | cons previous rest ih =>
      have hprevious := h.tail.ordered previous List.mem_cons_self
      have hsum := ih h.tail fun s hs => hstart s (List.mem_cons_of_mem last hs)
      rw [gaps, List.map_cons, List.sum_cons]
      linarith

end Gaps

end CadHarness.Lib
