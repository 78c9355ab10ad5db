import CadHarness.Validation.DrawingAuditRules
import Mathlib.Data.List.Sort
import Mathlib.Order.Lattice.Nat

/-!
# Coincident entities

An entity is reported as a duplicate of an earlier one with the same layer and the same other attributes; entities of
equal geometry are not compared otherwise.
-/

namespace CadHarness.Validation
open CadHarness.Geometry CadHarness.Plan

noncomputable section
open Classical

variable {tolerance : ToleranceProfile} {entities : List DrawnEntity} {entity original : Placed}
  {seen rest : List Placed}

/-! ## Reports -/

/-- A geometry of which something is drawn. -/
def HasLength : DrawnGeometry → Prop
  | .line startMm endMm => startMm ≠ endMm
  | .arc _ radiusMm _ _ => 0 < radiusMm
  | .circle _ radiusMm => 0 < radiusMm
  | .ellipse _ majorAxisMm minorAxisMm _ => 0 < majorAxisMm ∧ 0 < minorAxisMm
  | .polyline vertices closed => ∃ s ∈ segments (vertices.map vertexOf) closed, s.1.pointMm ≠ s.2.pointMm
  | _ => False

/-- A finding, with the entity that it is about and the other one that it names. -/
structure Report where
  finding : Finding
  entity : Placed
  other : Placed

def reports (tolerance : ToleranceProfile) (entities : List DrawnEntity) : List Report :=
  ((duplicatesFrom [] entities.zipIdx).map fun pair => ⟨duplicateFinding tolerance pair.1.1 pair.2.1, pair.1, pair.2⟩) ++
    (overlaps tolerance entities.zipIdx).map fun pair => ⟨overlapFinding tolerance pair.1.1 pair.2.1, pair.1, pair.2⟩

/-- The findings of the reports are those of the two rules. -/
theorem findings_of_reports (tolerance : ToleranceProfile) (entities : List DrawnEntity) :
    (reports tolerance entities).map Report.finding =
      duplicateEntityRule tolerance entities ++ overlappingEntityRule tolerance entities := by
  simp only [reports, duplicateEntityRule, overlappingEntityRule, List.map_append, List.map_map]
  rfl

/-- The finding is about the entity, and the other one that it names is the given one, or an earlier one that is drawn
like it. -/
def Names (entity other : Placed) (report : Report) : Prop :=
  report.entity = entity ∧
    (report.other = other ∨ report.other.2 < entity.2 ∧ report.other.1.geometry = entity.1.geometry)

/-- Two entities that are drawn alike have a finding about one of them. -/
def CoincidencesReported (tolerance : ToleranceProfile) (entities : List DrawnEntity) : Prop :=
  ∀ earlier ∈ entities.zipIdx, ∀ later ∈ entities.zipIdx, earlier.2 < later.2 →
    earlier.1.geometry = later.1.geometry → HasLength earlier.1.geometry →
    ∃ report ∈ reports tolerance entities, Names earlier later report ∨ Names later earlier report

/-- Entities that are drawn alike differ in nothing but their references. -/
def AlikeInAll (entities : List DrawnEntity) : Prop :=
  ∀ earlier ∈ entities, ∀ later ∈ entities, earlier.geometry = later.geometry → HasLength earlier.geometry →
    payload earlier = payload later

theorem geometry_eq_of_payload {first second : DrawnEntity} (h : payload first = payload second) :
    first.geometry = second.geometry := by
  cases first
  cases second
  simp only [payload, Drawing.EntityRecord.mk.injEq] at h
  exact h.2.2.2.2.2.1

/-! ## Duplicates -/

/-- A duplicate has the payload of an entity before it. -/
theorem duplicatesFrom_sound (h : (entity, original) ∈ duplicatesFrom seen rest) :
    ∃ before after, rest = before ++ entity :: after ∧ original ∈ seen ++ before ∧
      payload original.1 = payload entity.1 := by
  induction rest generalizing seen with
  | nil => simp [duplicatesFrom] at h
  | cons first rest ih =>
      rw [duplicatesFrom] at h
      cases hfind : seen.find? fun candidate => payload candidate.1 = payload first.1 with
      | none =>
          rw [hfind] at h
          obtain ⟨before, after, rfl, hmem, hpayload⟩ := ih h
          exact ⟨first :: before, after, rfl, by simpa using hmem, hpayload⟩
      | some found =>
          rw [hfind, List.mem_cons] at h
          cases h with
          | inl heq =>
              obtain ⟨rfl, rfl⟩ := Prod.mk.inj heq
              refine ⟨[], rest, rfl, ?_, by simpa using List.find?_some hfind⟩
              simpa using List.mem_of_find?_eq_some hfind
          | inr h =>
              obtain ⟨before, after, rfl, hmem, hpayload⟩ := ih h
              refine ⟨first :: before, after, rfl, ?_, hpayload⟩
              simp only [List.mem_append, List.mem_cons] at hmem ⊢
              tauto

/-- An entity with the payload of one before it is a duplicate. -/
theorem duplicatesFrom_complete {before after : List Placed} (h : ∃ candidate ∈ seen ++ before,
    payload candidate.1 = payload entity.1) :
    ∃ original, (entity, original) ∈ duplicatesFrom seen (before ++ entity :: after) := by
  induction before generalizing seen with
  | nil =>
      rw [List.append_nil] at h
      obtain ⟨candidate, hmem, hpayload⟩ := h
      rw [List.nil_append, duplicatesFrom]
      cases hfind : seen.find? fun original => payload original.1 = payload entity.1 with
      | none => exact absurd hpayload (by simpa using List.find?_eq_none.mp hfind candidate hmem)
      | some original => exact ⟨original, List.mem_cons_self⟩
  | cons first before ih =>
      obtain ⟨candidate, hmem, hpayload⟩ := h
      rw [List.cons_append, duplicatesFrom]
      cases hfind : seen.find? fun original => payload original.1 = payload first.1 with
      | none => exact ih ⟨candidate, by simpa using hmem, hpayload⟩
      | some found =>
          simp only [List.mem_append, List.mem_cons] at hmem
          -- The first entity is not kept, but the one with its payload was seen before.
          have hseen : ∃ candidate ∈ seen ++ before, payload candidate.1 = payload entity.1 := by
            rcases hmem with hmem | rfl | hmem
            · exact ⟨candidate, List.mem_append_left _ hmem, hpayload⟩
            · refine ⟨found, List.mem_append_left _ (List.mem_of_find?_eq_some hfind), ?_⟩
              rw [← hpayload]
              simpa using List.find?_some hfind
            · exact ⟨candidate, List.mem_append_right _ hmem, hpayload⟩
          obtain ⟨original, h⟩ := ih hseen
          exact ⟨original, List.mem_cons_of_mem _ h⟩

theorem overlaps_geometry_ne {placed : List Placed} (h : (entity, original) ∈ overlaps tolerance placed) :
    entity.1.geometry ≠ original.1.geometry := by
  induction placed with
  | nil => simp [overlaps] at h
  | cons first rest ih =>
      simp only [overlaps, List.mem_append, List.mem_map, List.mem_filter, decide_eq_true_eq] at h
      cases h with
      | inl h =>
          obtain ⟨second, ⟨-, hne, -⟩, heq⟩ := h
          obtain ⟨rfl, rfl⟩ := Prod.mk.inj heq
          exact hne
      | inr h => exact ih h

/-! ## Positions -/

theorem zipIdx_sorted (entities : List DrawnEntity) : entities.zipIdx.Pairwise fun a b => a.2 < b.2 := by
  rw [← List.pairwise_map (f := Prod.snd), List.zipIdx_map_snd]
  exact List.pairwise_lt_range'

theorem before_of_split {before after : List Placed} (h : entities.zipIdx = before ++ entity :: after)
    (hmem : original ∈ before) : original.2 < entity.2 := by
  have hsorted := zipIdx_sorted entities
  rw [h, List.pairwise_append] at hsorted
  exact hsorted.2.2 original hmem entity List.mem_cons_self

theorem mem_before {before after : List Placed} (h : entities.zipIdx = before ++ entity :: after)
    (hmem : original ∈ entities.zipIdx) (hlt : original.2 < entity.2) : original ∈ before := by
  have hsorted := zipIdx_sorted entities
  rw [h, List.pairwise_append, List.pairwise_cons] at hsorted
  rw [h, List.mem_append, List.mem_cons] at hmem
  rcases hmem with hmem | rfl | hmem
  · exact hmem
  · exact absurd hlt (lt_irrefl _)
  · exact absurd hlt (hsorted.2.1.1 original hmem).not_gt

/-- Of two placed entities with one position, there is only one. -/
theorem placed_ext (h : entity ∈ entities.zipIdx) (h' : original ∈ entities.zipIdx) (heq : entity.2 = original.2) :
    entity = original := by
  have hentity := List.mk_mem_zipIdx_iff_getElem?.mp h
  have horiginal := List.mk_mem_zipIdx_iff_getElem?.mp h'
  rw [heq, horiginal] at hentity
  exact Prod.ext (Option.some.inj hentity).symm heq

theorem mem_of_placed (h : entity ∈ entities.zipIdx) : entity.1 ∈ entities :=
  List.fst_mem_of_mem_zipIdx h

/-- What a duplicate is reported for. -/
theorem report_sound (h : (entity, original) ∈ duplicatesFrom [] entities.zipIdx) :
    original ∈ entities.zipIdx ∧ original.2 < entity.2 ∧ payload original.1 = payload entity.1 := by
  obtain ⟨before, after, hsplit, hmem, hpayload⟩ := duplicatesFrom_sound h
  rw [List.nil_append] at hmem
  refine ⟨?_, before_of_split hsplit hmem, hpayload⟩
  rw [hsplit]
  exact List.mem_append_left _ hmem

theorem report_complete (hentity : entity ∈ entities.zipIdx) (horiginal : original ∈ entities.zipIdx)
    (hlt : original.2 < entity.2) (hpayload : payload original.1 = payload entity.1) :
    ∃ found, (entity, found) ∈ duplicatesFrom [] entities.zipIdx := by
  obtain ⟨before, after, hsplit⟩ := List.append_of_mem hentity
  rw [hsplit]
  exact duplicatesFrom_complete ⟨original, by simpa using mem_before hsplit horiginal hlt, hpayload⟩

/-- The first entity of a kind. -/
theorem exists_first {p : Placed → Prop} (h : ∃ entity ∈ entities.zipIdx, p entity) :
    ∃ entity ∈ entities.zipIdx, p entity ∧ ∀ other ∈ entities.zipIdx, p other → entity.2 ≤ other.2 := by
  have hexists : ∃ i, ∃ entity ∈ entities.zipIdx, p entity ∧ entity.2 = i := by
    obtain ⟨entity, hmem, hp⟩ := h
    exact ⟨entity.2, entity, hmem, hp, rfl⟩
  obtain ⟨entity, hmem, hp, hi⟩ := Nat.find_spec hexists
  refine ⟨entity, hmem, hp, ?_⟩
  intro other hother hpother
  rw [hi]
  exact Nat.find_min' hexists ⟨other, hother, hpother, rfl⟩

theorem exists_placed {e : DrawnEntity} (h : e ∈ entities) : ∃ entity ∈ entities.zipIdx, entity.1 = e := by
  rw [← List.zipIdx_map_fst 0 entities, List.mem_map] at h
  obtain ⟨entity, hmem, heq⟩ := h
  exact ⟨entity, hmem, heq⟩

/-! ## Coverage -/

/-- A line of ten millimetres on a layer. -/
def lineOn (entityRef layer : String) : DrawnEntity :=
  .mk entityRef "LINE" layer true "model" (.line (0, 0) (10, 0)) ⟨0, 0, 10, 0⟩ false

end

end CadHarness.Validation
