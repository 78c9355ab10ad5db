import CadHarness.Canonical.SameValue
import CadHarness.Domain.Plan

/-!
# What a plan hash pins

Plans of one hash make the same change of the drawing, but for what is excluded from the hash at every
depth.
-/

namespace CadHarness.Domain
open CadHarness.Lib CadHarness.Canonical

/-- The same members of a dictionary, but for excluded ones. -/
abbrev SameDict (a b : List (String × Value)) : Prop := SameValue (.obj a) (.obj b)

structure SameOperation (o p : Operation) : Prop where
  operationId : o.operationId = p.operationId
  featureId : o.featureId = p.featureId
  type : o.type = p.type
  layer : o.layer = p.layer
  geometry : SameDict o.geometry p.geometry
  expected : SameDict o.expected p.expected
  targetEntityRef : o.targetEntityRef = p.targetEntityRef

structure SameExpectation (e f : ValidationExpectation) : Prop where
  ruleId : e.ruleId = f.ruleId
  featureId : e.featureId = f.featureId
  operationId : e.operationId = f.operationId
  expected : SameDict e.expected f.expected

/-- Plans that agree on every field but the identifiers of the plan and its hash. -/
structure SamePlan (p q : OperationPlan) : Prop where
  schemaVersion : p.schemaVersion = q.schemaVersion
  documentId : p.documentId = q.documentId
  expectedRevision : p.expectedRevision = q.expectedRevision
  canonicalUnits : p.canonicalUnits = q.canonicalUnits
  profileRef : p.profileRef = q.profileRef
  operations : List.Forall₂ SameOperation p.operations q.operations
  validationExpectations :
    List.Forall₂ SameExpectation p.validationExpectations q.validationExpectations

/-! ## Fields of a record -/

theorem sameValue_str_iff {s t : String} : SameValue (.str s) (.str t) ↔ s = t := by
  constructor
  · intro h; cases h; rfl
  · rintro rfl; exact .str _

theorem sameValue_optional_iff {s t : Option String} : SameValue (optional s) (optional t) ↔ s = t := by
  constructor
  · intro h
    cases s <;> cases t <;> cases h <;> rfl
  · rintro rfl
    cases s with
    | none => exact .null
    | some s => exact .str s

theorem sameValue_map_iff {α : Type} {f : α → Value} {R : α → α → Prop}
    (hf : ∀ a b, SameValue (f a) (f b) ↔ R a b) {l m : List α} :
    SameValue (.arr (l.map f)) (.arr (m.map f)) ↔ List.Forall₂ R l m := by
  induction l generalizing m with
  | nil =>
      cases m with
      | nil => exact iff_of_true .nil .nil
      | cons b m => exact iff_of_false nofun nofun
  | cons a l ih =>
      cases m with
      | nil => exact iff_of_false nofun nofun
      | cons b m =>
          rw [List.forall₂_cons, ← hf, ← ih]
          constructor
          · intro h
            cases h with
            | cons hhead htail => exact ⟨hhead, htail⟩
          · rintro ⟨hhead, htail⟩
            exact .cons hhead htail

/-- Records are compared field by field, and an excluded field is not compared. -/
theorem sameValue_field_iff {k : String} {x y : Value} {ms ns : List (String × Value)}
    (hms : ms.lookup k = none) (hns : ns.lookup k = none) :
    SameValue (.obj ((k, x) :: ms)) (.obj ((k, y) :: ns)) ↔
      (k ∉ excludedPlanFields → SameValue x y) ∧ SameValue (.obj ms) (.obj ns) := by
  have hother {l : String} (hl : l ≠ k) : (l == k) = false := beq_eq_false_iff_ne.mpr hl
  constructor
  · intro h
    cases h with
    | obj hkeys hvalues =>
        refine ⟨fun hk => hvalues k x y hk (by simp) (by simp), .obj (fun l hl => ?_) ?_⟩
        · by_cases hlk : l = k
          · rw [hlk, hms, hns]
          · simpa [List.lookup_cons, hother hlk] using hkeys l hl
        · intro l a b hl ha hb
          have hlk : l ≠ k := by rintro rfl; rw [hms] at ha; cases ha
          apply hvalues l a b hl
          · rw [List.lookup_cons, hother hlk]; exact ha
          · rw [List.lookup_cons, hother hlk]; exact hb
  · rintro ⟨hxy, h⟩
    cases h with
    | obj hkeys hvalues =>
        refine .obj (fun l hl => ?_) (fun l a b hl ha hb => ?_)
        · by_cases hlk : l = k
          · simp [hlk]
          · simpa [List.lookup_cons, hother hlk] using hkeys l hl
        · by_cases hlk : l = k
          · subst hlk
            rw [List.lookup_cons_self] at ha hb
            obtain rfl := Option.some.inj ha
            obtain rfl := Option.some.inj hb
            exact hxy hl
          · rw [List.lookup_cons, hother hlk] at ha hb
            exact hvalues l a b hl ha hb

theorem sameValue_nil : SameValue (.obj []) (.obj []) := .obj (by simp) (by simp)

/-! ## Plans -/

theorem OperationType.value_injective : Function.Injective OperationType.value := by
  intro a b h
  cases a <;> cases b <;> first | rfl | exact absurd h (by decide)

theorem sameValue_operation_iff (o p : Operation) : SameValue o.dump p.dump ↔ SameOperation o p := by
  unfold Operation.dump
  repeat rw [sameValue_field_iff rfl rfl]
  simp only [sameValue_str_iff, sameValue_optional_iff, OperationType.value_injective.eq_iff]
  constructor
  · rintro ⟨h₁, h₂, h₃, h₄, h₅, h₆, h₇, _⟩
    exact ⟨h₁ (by decide), h₂ (by decide), h₃ (by decide), h₄ (by decide), h₅ (by decide), h₆ (by decide),
      h₇ (by decide)⟩
  · intro h
    exact ⟨fun _ => h.operationId, fun _ => h.featureId, fun _ => h.type, fun _ => h.layer,
      fun _ => h.geometry, fun _ => h.expected, fun _ => h.targetEntityRef, sameValue_nil⟩

theorem sameValue_expectation_iff (e f : ValidationExpectation) :
    SameValue e.dump f.dump ↔ SameExpectation e f := by
  unfold ValidationExpectation.dump
  repeat rw [sameValue_field_iff rfl rfl]
  simp only [sameValue_str_iff, sameValue_optional_iff]
  constructor
  · rintro ⟨h₁, h₂, h₃, h₄, _⟩
    exact ⟨h₁ (by decide), h₂ (by decide), h₃ (by decide), h₄ (by decide)⟩
  · intro h
    exact ⟨fun _ => h.ruleId, fun _ => h.featureId, fun _ => h.operationId, fun _ => h.expected,
      sameValue_nil⟩

theorem sameValue_plan_iff (p q : OperationPlan) : SameValue p.dump q.dump ↔ SamePlan p q := by
  unfold OperationPlan.dump
  repeat rw [sameValue_field_iff rfl rfl]
  simp only [sameValue_str_iff, sameValue_map_iff sameValue_operation_iff,
    sameValue_map_iff sameValue_expectation_iff]
  constructor
  · rintro ⟨h₁, _, _, h₄, h₅, h₆, h₇, h₈, h₉, _, _⟩
    exact ⟨h₁ (by decide), h₄ (by decide), h₅ (by decide), h₆ (by decide), h₇ (by decide), h₈ (by decide),
      h₉ (by decide)⟩
  · intro h
    have hplan : "plan_id" ∈ excludedPlanFields := by decide
    have hjob : "job_id" ∈ excludedPlanFields := by decide
    have hhash : "plan_hash" ∈ excludedPlanFields := by decide
    exact ⟨fun _ => h.schemaVersion, (absurd hplan ·), (absurd hjob ·), fun _ => h.documentId,
      fun _ => h.expectedRevision, fun _ => h.canonicalUnits, fun _ => h.profileRef, fun _ => h.operations,
      fun _ => h.validationExpectations, (absurd hhash ·), sameValue_nil⟩

/-! ## The hash -/

theorem canonicalJson_strip_eq_iff {x y : Value} :
    canonicalJson (stripVolatile (volatileFields ++ planIdentityFields) x) =
        canonicalJson (stripVolatile (volatileFields ++ planIdentityFields) y) ↔
      canonicalValue x = canonicalValue y := by
  constructor
  · intro h
    have hrender := String.ofList_injective h
    exact (Json.render_append_inj _ _ Json.delimited_nil Json.delimited_nil
      (by rw [List.append_nil, List.append_nil]; exact hrender)).1
  · intro h
    exact congrArg (fun v => String.ofList v.render) h

theorem computeHash_eq_iff {sha256 : String → String} (hsha : Function.Injective sha256)
    (p q : OperationPlan) :
    p.computeHash sha256 = q.computeHash sha256 ↔ canonicalValue p.dump = canonicalValue q.dump := by
  unfold OperationPlan.computeHash sha256Of
  rw [← canonicalJson_strip_eq_iff]
  constructor
  · intro h
    have hlist := congrArg String.toList h
    rw [String.toList_append, String.toList_append] at hlist
    exact hsha (String.toList_injective (List.append_cancel_left hlist))
  · intro h
    rw [h]

/-- Two plans have one hash just when they agree on every field that is not excluded, at any depth. -/
theorem plan_hash_eq_iff {sha256 : String → String} (hsha : Function.Injective sha256) {p q : OperationPlan}
    (hp : p.dump.DistinctKeys) (hq : q.dump.DistinctKeys) :
    p.computeHash sha256 = q.computeHash sha256 ↔ SamePlan p q := by
  rw [computeHash_eq_iff hsha, canonicalValue_eq_iff hp hq, sameValue_plan_iff]

/-- A plan of one operation, with the given geometry. -/
def planOf (geometry : List (String × Value)) : OperationPlan :=
  { schemaVersion, planId := "plan_1", jobId := "job_1", documentId := "doc-1", expectedRevision := "rev-1",
    canonicalUnits := "mm", profileRef := "default@1",
    operations := [{ operationId := "op-1", featureId := "feature-1", type := .createText,
                     layer := "OUTLINE", geometry }] }

theorem planOf_distinctKeys {geometry : List (String × Value)} (h : (Json.obj geometry).DistinctKeys) :
    (planOf geometry).dump.DistinctKeys := by
  simp [planOf, OperationPlan.dump, Operation.dump, Json.DistinctKeys, Json.DistinctKeysItems,
    Json.DistinctKeysMembers, optional] at h ⊢
  exact h

/-- A text is in the hash, but not under the name of an excluded field. -/
theorem plan_hash_eq_iff_text :
    ((planOf [("value", .str "M6")]).computeHash id = (planOf [("value", .str "M8")]).computeHash id ↔
      SamePlan (planOf [("value", .str "M6")]) (planOf [("value", .str "M8")])) :=
  plan_hash_eq_iff Function.injective_id
    (planOf_distinctKeys (by simp [Json.DistinctKeys, Json.DistinctKeysMembers]))
    (planOf_distinctKeys (by simp [Json.DistinctKeys, Json.DistinctKeysMembers]))

/-- The geometry of an operation may differ in a field that has the name of an excluded one. -/
theorem plan_hash_misses_geometry :
    ¬ ∀ sha256 : String → String, Function.Injective sha256 → ∀ p q : OperationPlan,
      p.dump.DistinctKeys → q.dump.DistinctKeys → p.computeHash sha256 = q.computeHash sha256 →
      List.Forall₂ (fun o o' => Canonical.normalize (.obj o.geometry) = Canonical.normalize (.obj o'.geometry))
        p.operations q.operations := by
  intro h
  have hsame := h id Function.injective_id (planOf [("request_id", .str "M6")])
    (planOf [("request_id", .str "M8")])
    (planOf_distinctKeys (by simp [Json.DistinctKeys, Json.DistinctKeysMembers]))
    (planOf_distinctKeys (by simp [Json.DistinctKeys, Json.DistinctKeysMembers])) rfl
  cases hsame with
  | cons hgeometry _ =>
      have hlookup := congrArg (fun v => v.get? "request_id") hgeometry
      simp [Canonical.normalize, Canonical.normalizeMembers, sortOn, Json.get?] at hlookup

end CadHarness.Domain
