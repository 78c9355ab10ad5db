import CadHarness.Canonical.Lemmas.Numbers

/-!
# Agreement on the plan hash

The bridge hashes the bytes that the harness hashes for exactly the plans that `Agrees` describes.
-/

/-!
## Values in both canonical forms

The harness strips, normalizes and writes in three passes, the bridge in one. Member by member the two
come to the same unless a number or an order of keys differs.
-/

namespace CadHarness.Canonical
open CadHarness.Lib

/-- The value that the harness writes. -/
def canonicalValue (x : Json Number) : Json NumberText :=
  dumps (normalize (stripVolatile (volatileFields ++ planIdentityFields) x))

def canonicalItems (xs : List (Json Number)) : List (Json NumberText) :=
  dumpsItems (normalizeItems (stripVolatileItems (volatileFields ++ planIdentityFields) xs))

/-- The members that the harness writes, before they are sorted. -/
def canonicalMembers (ms : List (String × Json Number)) : List (String × Json NumberText) :=
  dumpsMembers (normalizeMembers (stripVolatileMembers (volatileFields ++ planIdentityFields) ms))

@[simp] theorem canonicalItems_nil : canonicalItems [] = [] := rfl

@[simp] theorem canonicalItems_cons (x : Json Number) (xs : List (Json Number)) :
    canonicalItems (x :: xs) = canonicalValue x :: canonicalItems xs := rfl

@[simp] theorem canonicalMembers_nil : canonicalMembers [] = [] := rfl

/-- Both sides exclude the same fields. -/
theorem volatile_eq_excluded : volatileFields ++ planIdentityFields = excludedPlanFields := rfl

theorem canonicalMembers_cons_of_mem {k : String} (h : k ∈ excludedPlanFields) (x : Json Number)
    (ms : List (String × Json Number)) : canonicalMembers ((k, x) :: ms) = canonicalMembers ms := by
  unfold canonicalMembers
  rw [volatile_eq_excluded, stripVolatileMembers, if_pos h]

theorem canonicalMembers_cons_of_not_mem {k : String} (h : k ∉ excludedPlanFields) (x : Json Number)
    (ms : List (String × Json Number)) :
    canonicalMembers ((k, x) :: ms) = (k, canonicalValue x) :: canonicalMembers ms := by
  unfold canonicalMembers canonicalValue
  rw [volatile_eq_excluded, stripVolatileMembers, if_neg h]
  rfl

theorem dumpsMembers_eq_map (ms : List (String × Json Number)) :
    dumpsMembers ms = ms.map (fun m => (m.1, dumps m.2)) := by
  induction ms with
  | nil => rfl
  | cons m ms ih => rw [dumpsMembers, ih]; rfl

/-- The members are sorted twice, which is sorting them once. -/
theorem canonicalValue_obj (ms : List (String × Json Number)) :
    canonicalValue (.obj ms) = .obj (sortOn codePoints (canonicalMembers ms)) := by
  have hsorted (ns : List (String × Json Number)) :
      sortOn codePoints (dumpsMembers (sortOn codePoints ns)) = sortOn codePoints (dumpsMembers ns) := by
    rw [dumpsMembers_eq_map, dumpsMembers_eq_map, ← sortOn_map, sortOn_sortOn]
  rw [canonicalValue, stripVolatile, normalize, dumps, hsorted, canonicalMembers]

theorem canonicalMembers_keys (ms : List (String × Json Number)) :
    (canonicalMembers ms).map Prod.fst = keptKeys ms := by
  induction ms with
  | nil => rfl
  | cons m ms ih =>
      obtain ⟨k, x⟩ := m
      by_cases hk : k ∈ excludedPlanFields
      · rw [canonicalMembers_cons_of_mem hk, ih]
        simp [keptKeys, hk]
      · rw [canonicalMembers_cons_of_not_mem hk, List.map_cons, ih]
        simp [keptKeys, hk]

theorem writeMembers_keys {net : Band} {ms : List (String × Json Number)}
    {ws : List (String × Json NumberText)} (h : writeMembers net ms = some ws) :
    ws.map Prod.fst = keptKeys ms := by
  induction ms generalizing ws with
  | nil =>
      obtain rfl := Option.some.inj h
      rfl
  | cons m ms ih =>
      obtain ⟨k, x⟩ := m
      by_cases hk : k ∈ excludedPlanFields
      · rw [writeMembers, if_pos hk] at h
        rw [ih h]
        simp [keptKeys, hk]
      · rw [writeMembers, if_neg hk] at h
        simp only [Option.bind_eq_bind, Option.bind_eq_some_iff, Option.pure_def, Option.some.injEq] at h
        obtain ⟨w, _, ws, hws, rfl⟩ := h
        rw [List.map_cons, ih hws]
        simp [keptKeys, hk]

theorem bind_cons_eq_some_iff {α : Type} {o : Option α} {p : Option (List α)} {a : α} {l : List α} :
    (do return (← o) :: (← p)) = some (a :: l) ↔ o = some a ∧ p = some l := by
  cases o <;> cases p <;> simp

theorem bind_cons_member_eq_some_iff {α : Type} {o : Option α} {p : Option (List (String × α))} {k : String}
    {a : α} {l : List (String × α)} :
    (do return (k, ← o) :: (← p)) = some ((k, a) :: l) ↔ o = some a ∧ p = some l := by
  cases o <;> cases p <;> simp

variable (net : Band)

mutual
/-- The bridge writes what the harness writes just when the value agrees. -/
theorem writeCanonical_eq_iff : (x : Json Number) → x.DistinctKeys →
    (writeCanonical net x = some (canonicalValue x) ↔ Agrees net x)
  | .null, _ => iff_of_true rfl trivial
  | .bool _, _ => iff_of_true rfl trivial
  | .str _, _ => iff_of_true rfl trivial
  | .num n, _ => by
      rw [Agrees, ← canonicalNumber_eq_iff, writeCanonical, Option.map_eq_some_iff]
      constructor
      · rintro ⟨t, ht, hnum⟩
        rw [ht, Json.num.inj hnum]
      · intro h
        exact ⟨_, h, rfl⟩
  | .arr xs, h => by
      rw [Agrees, ← writeItems_eq_iff xs h, writeCanonical, Option.map_eq_some_iff]
      constructor
      · rintro ⟨ws, hws, harr⟩
        rw [hws, Json.arr.inj harr]
        rfl
      · intro h
        exact ⟨_, h, rfl⟩
  | .obj ms, h => by
      have hnodup : ((canonicalMembers ms).map Prod.fst).Nodup := by
        rw [canonicalMembers_keys]
        exact h.1.filter _
      have hsort : ∀ {ws}, writeMembers net ms = some ws →
          (sortOn codePoints (canonicalMembers ms) = sortOn utf16 ws ↔ canonicalMembers ms = ws ∧
            ∀ k ∈ (canonicalMembers ms).map Prod.fst, ∀ l ∈ (canonicalMembers ms).map Prod.fst,
              ¬ Discordant k l) := by
        intro ws hws
        exact sortOn_eq_sortOn_iff (by rw [canonicalMembers_keys, writeMembers_keys hws]) hnodup
      rw [Agrees, ← writeMembers_eq_iff ms h.2, writeCanonical, canonicalValue_obj, Option.map_eq_some_iff]
      constructor
      · rintro ⟨ws, hws, hobj⟩
        obtain ⟨rfl, hkeys⟩ := (hsort hws).mp (Json.obj.inj hobj).symm
        rw [canonicalMembers_keys] at hkeys
        exact ⟨hkeys, hws⟩
      · rintro ⟨hkeys, hws⟩
        rw [← canonicalMembers_keys] at hkeys
        exact ⟨_, hws, congrArg _ ((hsort hws).mpr ⟨rfl, hkeys⟩).symm⟩

theorem writeItems_eq_iff : (xs : List (Json Number)) → Json.DistinctKeysItems xs →
    (writeItems net xs = some (canonicalItems xs) ↔ AgreesItems net xs)
  | [], _ => iff_of_true rfl trivial
  | x :: xs, h => by
      rw [AgreesItems, ← writeCanonical_eq_iff x h.1, ← writeItems_eq_iff xs h.2, writeItems,
        canonicalItems_cons, bind_cons_eq_some_iff]

theorem writeMembers_eq_iff : (ms : List (String × Json Number)) → Json.DistinctKeysMembers ms →
    (writeMembers net ms = some (canonicalMembers ms) ↔ AgreesMembers net ms)
  | [], _ => iff_of_true rfl trivial
  | (k, x) :: ms, h => by
      rw [AgreesMembers, ← writeMembers_eq_iff ms h.2, writeMembers]
      by_cases hk : k ∈ excludedPlanFields
      · rw [if_pos hk, canonicalMembers_cons_of_mem hk]
        simp [hk]
      · rw [if_neg hk, canonicalMembers_cons_of_not_mem hk, bind_cons_member_eq_some_iff,
          writeCanonical_eq_iff x h.1]
        simp [hk]
end

end CadHarness.Canonical

namespace CadHarness.Canonical
open CadHarness.Lib

/-- The bridge reads the double whose text the harness sends. -/
theorem nearest_read_repr (x : Double) :
    .nearest x.1.neg (Decimal.read (decimalText pythonBand x.1.shortest)) = x.1 := by
  rw [read_decimalText, Binary64.nearest_shortest]

theorem text_eq_iff_value_eq {a b : Json NumberText} :
    (String.ofList a.render).toUTF8 = (String.ofList b.render).toUTF8 ↔ a = b := by
  constructor
  · intro h
    have hlist : a.render = b.render := String.ofList_injective (String.toByteArray_inj.mp h)
    exact (Json.render_append_inj a b Json.delimited_nil Json.delimited_nil (by rw [hlist])).1
  · rintro rfl; rfl

/-- The bytes agree just when every integer is a `long`, every float is rounded alike and has one notation,
and no object has two discordant keys. -/
theorem plan_hash_input_agrees_iff (net : Band) (plan : OperationPlan) :
    computePlanHashInput net plan = some (planHashInput plan) ↔ Agrees net plan.json := by
  rw [← writeCanonical_eq_iff net plan.json plan.distinct, computePlanHashInput, Option.map_eq_some_iff]
  constructor
  · rintro ⟨value, hvalue, htext⟩
    rw [hvalue, text_eq_iff_value_eq.mp htext]
    rfl
  · intro h
    exact ⟨_, h, rfl⟩

/-- A plan of one circle, of the given radius. -/
def circlePlan (radius : Number) : OperationPlan where
  json := .obj
    [("schema_version", .str "1.13"), ("plan_id", .str "plan_1"), ("job_id", .str "job_1"),
      ("document_id", .str "doc-1"), ("expected_revision", .str "rev-1"), ("canonical_units", .str "mm"),
      ("profile_ref", .str "default@1"),
      ("operations", .arr [.obj
        [("operation_id", .str "op-1"), ("feature_id", .str "feature-1"), ("type", .str "create_circle"),
          ("layer", .str "OUTLINE"), ("geometry", .obj [("radius", .num radius)]), ("expected", .obj []),
          ("target_entity_ref", .null)]]),
      ("validation_expectations", .arr []), ("plan_hash", .null)]
  distinct := by
    simp [Json.DistinctKeys, Json.DistinctKeysItems, Json.DistinctKeysMembers]

/-- The number 1e15 of millimetres. -/
def wide : Double := ⟨.nearest false (10 ^ 15), by decide +kernel⟩

/-- The harness writes a radius of 1e15 in fixed notation, the bridge in scientific notation. -/
theorem plan_hash_input_differs :
    ¬ ∀ plan : OperationPlan, computePlanHashInput dotNetBand plan = some (planHashInput plan) := by
  intro h
  have hbytes := h (circlePlan (.double wide))
  rw [computePlanHashInput, Option.map_eq_some_iff] at hbytes
  obtain ⟨value, hvalue, htext⟩ := hbytes
  rw [text_eq_iff_value_eq.mp htext] at hvalue
  have hagrees := (writeCanonical_eq_iff dotNetBand _ (circlePlan (.double wide)).distinct).mp hvalue
  have hwide : (Number.double wide).Agrees dotNetBand := by
    simp [circlePlan, Agrees, AgreesItems, AgreesMembers, excludedPlanFields] at hagrees
    exact hagrees.2.2.1.2
  exact absurd hwide.2 (by decide +kernel)

end CadHarness.Canonical
