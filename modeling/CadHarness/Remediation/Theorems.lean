import CadHarness.Lib.Fallible
import CadHarness.Remediation.Compiler

/-!
# When a remediation plan can be applied

The operations of a plan have identifiers of their own and each is traced to the finding that caused it, but a finding
may change an entity that another has deleted.
-/

namespace CadHarness.Remediation
open CadHarness.Drawing CadHarness.Plan CadHarness.Lib
open CadHarness.Geometry (KernelError ToleranceProfile operationId)

variable {tolerance : ToleranceProfile} {model : DrawingModel} {ref ref' : FindingRef} {operations : List Operation}

/-! ## Applying a plan -/

/-- No operation targets an entity that an operation before it has deleted. -/
def NoDeadTarget (operations : List Operation) : Prop :=
  operations.Pairwise fun earlier later => ∀ entityRef, earlier.type = .deleteEntity →
    earlier.targetEntityRef = some entityRef → later.targetEntityRef ≠ some entityRef

/-- `_execute_operation` of the adapter, as far as it looks up targets among the entities that are there. -/
def applyTargets (live : List String) : List Operation → Option (List String)
  | [] => some live
  | operation :: rest =>
      match operation.type, operation.targetEntityRef with
      | .updateEntity, some entityRef => if entityRef ∈ live then applyTargets live rest else none
      | .deleteEntity, some entityRef =>
          if entityRef ∈ live then applyTargets (live.filter (· ≠ entityRef)) rest else none
      | .updateEntity, none | .deleteEntity, none => none
      | _, _ => applyTargets live rest

/-- Every operation that needs a target has one. -/
def Targeted (operation : Operation) : Prop :=
  operation.type = .updateEntity ∨ operation.type = .deleteEntity → operation.targetEntityRef ≠ none

theorem applyTargets_isSome {live : List String}
    (hlive : ∀ o ∈ operations, ∀ entityRef, o.targetEntityRef = some entityRef → entityRef ∈ live)
    (htargeted : ∀ o ∈ operations, Targeted o) (h : NoDeadTarget operations) :
    (applyTargets live operations).isSome = true := by
  induction operations generalizing live with
  | nil => rfl
  | cons o rest ih =>
      obtain ⟨hdead, hrest⟩ := List.pairwise_cons.mp h
      rw [List.forall_mem_cons] at hlive htargeted
      unfold applyTargets
      split
      · rename_i entityRef htype htarget
        rw [if_pos (hlive.1 entityRef htarget)]
        exact ih hlive.2 htargeted.2 hrest
      · rename_i entityRef htype htarget
        rw [if_pos (hlive.1 entityRef htarget)]
        apply ih _ htargeted.2 hrest
        intro later hlater target htarget'
        apply List.mem_filter.mpr
        refine ⟨hlive.2 later hlater target htarget', ?_⟩
        have hne := hdead later hlater entityRef htype htarget
        rw [htarget'] at hne
        simpa using hne
      · rename_i htype htarget
        exact absurd htarget (htargeted.1 (.inl htype))
      · rename_i htype htarget
        exact absurd htarget (htargeted.1 (.inr htype))
      · exact ih hlive.2 htargeted.2 hrest

/-! ## What a finding deletes and touches -/

/-- Whether the operations of a finding delete its entity. -/
def deletes (ref : FindingRef) : Bool :=
  ref.1 ∈ deleteRules ∨ ref.1 = "OVERLAPPING_ENTITY" ∨ ref.1 = "FILLET_NOT_TANGENT"

/-- The lines on both sides of a fillet. -/
def adjacent (model : DrawingModel) (entityRef : String) : Option (EntityRecord × EntityRecord) :=
  entityByRef model.entities entityRef >>= fun entry => neighbours model.entities entry.1

/-- The entities that the operations of a finding target: a contour is closed without one, and a rebuilt fillet moves
the ends of its lines. -/
def touched (model : DrawingModel) (ref : FindingRef) : List String :=
  if ref.1 = "OPEN_CONTOUR" then []
  else if ref.1 = "FILLET_NOT_TANGENT" then
    match adjacent model ref.2 with
    | some (previous, following) => [previous.entityRef, ref.2, following.entityRef]
    | none => [ref.2]
  else [ref.2]

/-- An operation of a finding. -/
structure Made (ref : FindingRef) (suffix : String) (type : Domain.OperationType) (target : Option String)
    (operation : Operation) : Prop where
  operationId_eq : operation.operationId = operationId (findingFeature ref) suffix
  type_eq : operation.type = type
  target_eq : operation.targetEntityRef = target

/-- The operations that a finding is compiled to. -/
inductive Compiled (model : DrawingModel) (ref : FindingRef) : List Operation → Prop
  | deletion {o : Operation} {suffix : String} (hsuffix : ':' ∉ suffix.toList) (hdeletes : deletes ref = true)
      (htouched : touched model ref = [ref.2]) (ho : Made ref suffix .deleteEntity (some ref.2) o) :
      Compiled model ref [o]
  | closure {o : Operation} (hdeletes : deletes ref = false) (htouched : touched model ref = [])
      (ho : Made ref "closure" .createLine none o) : Compiled model ref [o]
  | change {o : Operation} {suffix : String} (hsuffix : ':' ∉ suffix.toList) (hdeletes : deletes ref = false)
      (htouched : touched model ref = [ref.2]) (ho : Made ref suffix .updateEntity (some ref.2) o) :
      Compiled model ref [o]
  | fillet {o₁ o₂ o₃ o₄ : Operation} {previous following : EntityRecord} (hdeletes : deletes ref = true)
      (hadjacent : adjacent model ref.2 = some (previous, following))
      (htouched : touched model ref = [previous.entityRef, ref.2, following.entityRef])
      (h₁ : Made ref "previous-tangent" .updateEntity (some previous.entityRef) o₁)
      (h₂ : Made ref "delete-old-arc" .deleteEntity (some ref.2) o₂)
      (h₃ : Made ref "following-tangent" .updateEntity (some following.entityRef) o₃)
      (h₄ : Made ref "replacement-arc" .createArc none o₄) : Compiled model ref [o₁, o₂, o₃, o₄]

/-! ## Compiling a finding -/

theorem findingByRef_ruleId {report : AuditReport} {finding : Finding} (h : findingByRef report ref = some finding) :
    finding.ruleId = ref.1 := by
  have hfound := List.find?_some h
  simp only [decide_eq_true_eq] at hfound
  exact hfound.1

theorem entityByRef_spec {entities : List EntityRecord} {entityRef : String} {index : Nat} {entity : EntityRecord}
    (h : entityByRef entities entityRef = some (index, entity)) : entity ∈ entities ∧ entity.entityRef = entityRef := by
  obtain ⟨entry, hfound, heq⟩ := Option.map_eq_some_iff.mp h
  obtain ⟨rfl, rfl⟩ := Prod.mk.inj heq
  constructor
  · exact List.fst_mem_of_mem_zipIdx (List.mem_reverse.mp (List.mem_of_find?_eq_some hfound))
  · simpa using List.find?_some hfound

theorem closeContour_ok {finding : Finding} {entity : EntityRecord} {featureId : String}
    (h : closeContour tolerance model finding entity featureId = .ok operations) :
    ∃ o, operations = [o] ∧ o.operationId = operationId featureId "closure" ∧ o.type = .createLine ∧
      o.targetEntityRef = none := by
  obtain ⟨⟨start, finish⟩, -, h⟩ := Fallible.bind_eq_ok.mp h
  dsimp only at h
  split at h
  · simp at h
  · exact ⟨_, (Except.ok.inj h).symm, rfl, rfl, rfl⟩

theorem rebuildFillet_ok {index : Nat} {entity : EntityRecord} {featureId : String} {radius : ℝ}
    (h : rebuildFillet tolerance model index entity featureId radius = .ok operations) :
    ∃ previous following o₁ o₂ o₃ o₄, neighbours model.entities index = some (previous, following) ∧
      operations = [o₁, o₂, o₃, o₄] ∧
      (o₁.operationId = operationId featureId "previous-tangent" ∧ o₁.type = .updateEntity ∧
        o₁.targetEntityRef = some previous.entityRef) ∧
      (o₂.operationId = operationId featureId "delete-old-arc" ∧ o₂.type = .deleteEntity ∧
        o₂.targetEntityRef = some entity.entityRef) ∧
      (o₃.operationId = operationId featureId "following-tangent" ∧ o₃.type = .updateEntity ∧
        o₃.targetEntityRef = some following.entityRef) ∧
      (o₄.operationId = operationId featureId "replacement-arc" ∧ o₄.type = .createArc ∧ o₄.targetEntityRef = none) := by
  unfold rebuildFillet at h
  split at h
  · simp at h
  · split at h
    · simp at h
    · rename_i previous following hneighbours
      split at h
      · obtain ⟨vertex, -, h⟩ := Fallible.bind_eq_ok.mp h
        dsimp only at h
        obtain ⟨rebuilt, -, h⟩ := Fallible.bind_eq_ok.mp h
        obtain ⟨arc, -, h⟩ := Fallible.bind_eq_ok.mp h
        exact ⟨previous, following, _, _, _, _, hneighbours, (Except.ok.inj h).symm, ⟨rfl, rfl, rfl⟩, ⟨rfl, rfl, rfl⟩,
          ⟨rfl, rfl, rfl⟩, ⟨rfl, rfl, rfl⟩⟩
      · simp at h

theorem Change.made (change : Change) {entity : EntityRecord} {ruleId : String} :
    Made (ruleId, entity.entityRef) change.suffix .updateEntity (some entity.entityRef)
      (change.operation entity (findingFeature (ruleId, entity.entityRef))) := ⟨rfl, rfl, rfl⟩

theorem expectedLayer_suffix {finding : Finding} {entity : EntityRecord} {change : Change}
    (h : expectedLayer finding entity = .ok change) : change.suffix = "layer" := by
  unfold expectedLayer at h
  split at h
  · split at h
    · simp at h
    · rw [← Except.ok.inj h]
  · simp at h

theorem expectedStyle_suffix {finding : Finding} {entity : EntityRecord} {change : Change}
    (h : expectedStyle finding entity = .ok change) : change.suffix = "style" := by
  unfold expectedStyle at h
  split at h
  · rw [← Except.ok.inj h]
  · simp at h

theorem expectedMeasurement_suffix {finding : Finding} {entity : EntityRecord} {change : Change}
    (h : expectedMeasurement finding entity = .ok change) : change.suffix = "text-override" := by
  unfold expectedMeasurement at h
  split at h
  · rw [← Except.ok.inj h]
  · simp at h

/-- The rules that change an entity in place. -/
theorem change_compiled {ruleId : String} {entity : EntityRecord} {change : Change}
    (hrule : ruleId ∈ ["ENTITY_ON_EXPECTED_LAYER", "DIMSTYLE_IN_PROFILE", "TEXTSTYLE_IN_PROFILE",
      "DIMENSION_TEXT_MATCHES_GEOMETRY"]) (hsuffix : ':' ∉ change.suffix.toList)
    (h : operations = [change.operation entity (findingFeature (ruleId, entity.entityRef))]) :
    Compiled model (ruleId, entity.entityRef) operations := by
  rw [h]
  simp only [List.mem_cons, List.not_mem_nil, or_false] at hrule
  apply Compiled.change hsuffix _ _ change.made
  · rcases hrule with rfl | rfl | rfl | rfl <;> simp [deletes, deleteRules]
  · rcases hrule with rfl | rfl | rfl | rfl <;> simp [touched]

theorem compileFinding_compiled {finding : Finding} {index : Nat} {entity : EntityRecord} {technical : Dict}
    (hrule : finding.ruleId = ref.1) (hentity : entityByRef model.entities ref.2 = some (index, entity))
    (h : compileFinding tolerance model finding index entity technical = .ok operations) :
    Compiled model ref operations := by
  obtain ⟨ruleId, entityRef⟩ := ref
  obtain ⟨hmem, rfl⟩ := entityByRef_spec hentity
  dsimp only at hrule
  subst hrule
  unfold compileFinding at h
  dsimp only at h
  split at h
  · rename_i hdelete
    rw [← Except.ok.inj h]
    refine .deletion (by decide) (by simp [deletes, hdelete]) ?_ ⟨rfl, rfl, rfl⟩
    simp only [deleteRules, List.mem_cons, List.not_mem_nil, or_false] at hdelete
    rcases hdelete with heq | heq <;> simp [touched, heq]
  split at h
  · rename_i hoverlap
    split at h
    · rw [← Except.ok.inj h]
      exact .deletion (by decide) (by simp [deletes, hoverlap]) (by simp [touched, hoverlap]) ⟨rfl, rfl, rfl⟩
    · simp at h
  split at h
  · rename_i hopen
    obtain ⟨o, rfl, hid, htype, htarget⟩ := closeContour_ok h
    exact .closure (by simp [deletes, deleteRules, hopen]) (by simp [touched, hopen]) ⟨hid, htype, htarget⟩
  split at h
  · rename_i hlayer
    obtain ⟨change, hchange, h⟩ := Fallible.bind_eq_ok.mp h
    exact change_compiled (by simp [hlayer]) (by rw [expectedLayer_suffix hchange]; decide) (Except.ok.inj h).symm
  split at h
  · rename_i hstyle
    obtain ⟨change, hchange, h⟩ := Fallible.bind_eq_ok.mp h
    refine change_compiled ?_ (by rw [expectedStyle_suffix hchange]; decide) (Except.ok.inj h).symm
    rcases hstyle with heq | heq <;> simp [heq]
  split at h
  · rename_i hdimension
    obtain ⟨change, hchange, h⟩ := Fallible.bind_eq_ok.mp h
    exact change_compiled (by simp [hdimension]) (by rw [expectedMeasurement_suffix hchange]; decide)
      (Except.ok.inj h).symm
  split at h
  · rename_i hfillet
    split at h
    · obtain ⟨previous, following, o₁, o₂, o₃, o₄, hneighbours, rfl, h₁, h₂, h₃, h₄⟩ := rebuildFillet_ok h
      have hadjacent : adjacent model entity.entityRef = some (previous, following) := by
        rw [adjacent, hentity]
        exact hneighbours
      exact .fillet (by simp [deletes, hfillet]) hadjacent (by simp [touched, hfillet, hadjacent]) ⟨h₁.1, h₁.2.1, h₁.2.2⟩
        ⟨h₂.1, h₂.2.1, h₂.2.2⟩ ⟨h₃.1, h₃.2.1, h₃.2.2⟩ ⟨h₄.1, h₄.2.1, h₄.2.2⟩
    · simp at h
  · simp at h

theorem compileSelected_compiled {report : AuditReport} {technical : List (String × Dict)}
    (h : compileSelected tolerance model report technical ref = .ok operations) :
    ref.1 ∈ directRules ∧ ref.2 ∈ model.entities.map EntityRecord.entityRef ∧ Compiled model ref operations := by
  unfold compileSelected at h
  split at h
  · simp at h
  · simp at h
  · rename_i finding index entity hfinding hentity
    split at h
    · simp at h
    · split at h
      · simp at h
      · rename_i hdirect
        obtain ⟨hmem, heq⟩ := entityByRef_spec hentity
        exact ⟨not_not.mp hdirect, List.mem_map.mpr ⟨entity, hmem, heq⟩,
          compileFinding_compiled (findingByRef_ruleId hfinding) hentity h⟩

/-! ## Identifiers -/

/-- A text is cut at its first colon in one way. -/
theorem cut_first {s s' t t' : List Char} (h : s ++ ':' :: t = s' ++ ':' :: t') (hs : ':' ∉ s) (hs' : ':' ∉ s') :
    s = s' ∧ t = t' := by
  induction s generalizing s' with
  | nil =>
      cases s' with
      | nil => exact ⟨rfl, (List.cons.inj h).2⟩
      | cons c s' =>
          rw [← (List.cons.inj h).1] at hs'
          exact absurd List.mem_cons_self hs'
  | cons c s ih =>
      cases s' with
      | nil =>
          rw [(List.cons.inj h).1] at hs
          exact absurd List.mem_cons_self hs
      | cons c' s' =>
          obtain ⟨rfl, hrest⟩ := List.cons.inj h
          obtain ⟨rfl, rfl⟩ := ih hrest (fun hmem => hs (List.mem_cons_of_mem c hmem))
            (fun hmem => hs' (List.mem_cons_of_mem c hmem))
          exact ⟨rfl, rfl⟩

/-- And at its last. -/
theorem cut_last {s s' t t' : List Char} (h : s ++ ':' :: t = s' ++ ':' :: t') (ht : ':' ∉ t) (ht' : ':' ∉ t') :
    s = s' ∧ t = t' := by
  have hreverse := congrArg List.reverse h
  simp only [List.reverse_append, List.reverse_cons, List.append_assoc, List.singleton_append] at hreverse
  obtain ⟨htail, hinit⟩ := cut_first hreverse (by simpa using ht) (by simpa using ht')
  exact ⟨List.reverse_injective hinit, List.reverse_injective htail⟩

theorem operationId_toList (suffix : String) : (operationId (findingFeature ref) suffix).toList =
    "op:remediation:".toList ++ (ref.1.toList ++ ':' :: (ref.2.toList ++ ':' :: suffix.toList)) := by
  have htext : operationId (findingFeature ref) suffix =
      "op:" ++ ("remediation:" ++ ref.1 ++ ":" ++ ref.2) ++ ":" ++ suffix := rfl
  simp [htext]

theorem operationId_inj {suffix suffix' : String} (hrule : ':' ∉ ref.1.toList) (hrule' : ':' ∉ ref'.1.toList)
    (hsuffix : ':' ∉ suffix.toList) (hsuffix' : ':' ∉ suffix'.toList)
    (h : operationId (findingFeature ref) suffix = operationId (findingFeature ref') suffix') :
    ref = ref' ∧ suffix = suffix' := by
  have hchars := congrArg String.toList h
  rw [operationId_toList, operationId_toList] at hchars
  obtain ⟨heqRule, hrest⟩ := cut_first (List.append_cancel_left hchars) hrule hrule'
  obtain ⟨heqRef, heqSuffix⟩ := cut_last hrest hsuffix hsuffix'
  exact ⟨Prod.ext (String.toList_inj.mp heqRule) (String.toList_inj.mp heqRef), String.toList_inj.mp heqSuffix⟩

theorem directRules_colon {ruleId : String} (h : ruleId ∈ directRules) : ':' ∉ ruleId.toList := by
  have hall : ∀ r ∈ directRules, ':' ∉ r.toList := by decide
  exact hall ruleId h

namespace Compiled

theorem made (h : Compiled model ref operations) :
    ∀ o ∈ operations, ∃ suffix type target, ':' ∉ suffix.toList ∧ Made ref suffix type target o := by
  cases h with
  | deletion hsuffix hdeletes htouched ho => simpa using ⟨_, hsuffix, _, _, ho⟩
  | closure hdeletes htouched ho => simpa using ⟨_, by decide, _, _, ho⟩
  | change hsuffix hdeletes htouched ho => simpa using ⟨_, hsuffix, _, _, ho⟩
  | fillet hdeletes hadjacent htouched h₁ h₂ h₃ h₄ =>
      simp only [List.forall_mem_cons, List.not_mem_nil, false_implies, implies_true, and_true]
      exact ⟨⟨_, _, _, by decide, h₁⟩, ⟨_, _, _, by decide, h₂⟩, ⟨_, _, _, by decide, h₃⟩, ⟨_, _, _, by decide, h₄⟩⟩

theorem ids_nodup (hrule : ':' ∉ ref.1.toList) (h : Compiled model ref operations) :
    (operations.map (·.operationId)).Nodup := by
  have hne {suffix suffix' : String} (hs : ':' ∉ suffix.toList) (hs' : ':' ∉ suffix'.toList) (hne : suffix ≠ suffix') :
      operationId (findingFeature ref) suffix ≠ operationId (findingFeature ref) suffix' := by
    intro heq
    exact hne (operationId_inj hrule hrule hs hs' heq).2
  cases h with
  | deletion => simp
  | closure => simp
  | change => simp
  | fillet hdeletes hadjacent htouched h₁ h₂ h₃ h₄ =>
      simp [h₁.operationId_eq, h₂.operationId_eq, h₃.operationId_eq, h₄.operationId_eq]
      refine ⟨⟨?_, ?_, ?_⟩, ⟨?_, ?_⟩, ?_⟩ <;> exact hne (by decide) (by decide) (by decide)

theorem targeted (h : Compiled model ref operations) : ∀ o ∈ operations, Targeted o := by
  cases h with
  | deletion hsuffix hdeletes htouched ho => simp [Targeted, ho.target_eq]
  | closure hdeletes htouched ho => simp [Targeted, ho.type_eq]
  | change hsuffix hdeletes htouched ho => simp [Targeted, ho.target_eq]
  | fillet hdeletes hadjacent htouched h₁ h₂ h₃ h₄ =>
      simp [Targeted, h₁.target_eq, h₂.target_eq, h₃.target_eq, h₄.type_eq]

theorem deleted_iff (h : Compiled model ref operations) (entityRef : String) :
    (∃ o ∈ operations, o.type = .deleteEntity ∧ o.targetEntityRef = some entityRef) ↔
      deletes ref = true ∧ ref.2 = entityRef := by
  cases h with
  | deletion hsuffix hdeletes htouched ho => simp [ho.type_eq, ho.target_eq, hdeletes]
  | closure hdeletes htouched ho => simp [ho.type_eq, hdeletes]
  | change hsuffix hdeletes htouched ho => simp [ho.type_eq, hdeletes]
  | fillet hdeletes hadjacent htouched h₁ h₂ h₃ h₄ =>
      simp [h₁.type_eq, h₂.type_eq, h₂.target_eq, h₃.type_eq, h₄.type_eq, hdeletes]

theorem target_iff (h : Compiled model ref operations) (entityRef : String) :
    (∃ o ∈ operations, o.targetEntityRef = some entityRef) ↔ entityRef ∈ touched model ref := by
  cases h with
  | deletion hsuffix hdeletes htouched ho => simp [ho.target_eq, htouched, eq_comm]
  | closure hdeletes htouched ho => simp [ho.target_eq, htouched]
  | change hsuffix hdeletes htouched ho => simp [ho.target_eq, htouched, eq_comm]
  | fillet hdeletes hadjacent htouched h₁ h₂ h₃ h₄ =>
      simp [h₁.target_eq, h₂.target_eq, h₃.target_eq, h₄.target_eq, htouched, eq_comm]

/-- One finding deletes what it touches again only where a fillet is followed by a line of its own name. -/
theorem noDeadTarget_iff (h : Compiled model ref operations) : NoDeadTarget operations ↔
    ∀ previous following, ref.1 = "FILLET_NOT_TANGENT" → adjacent model ref.2 = some (previous, following) →
      following.entityRef ≠ ref.2 := by
  have hnone (htouched : ∀ previous following, touched model ref ≠ [previous, ref.2, following]) :
      ∀ previous following, ref.1 = "FILLET_NOT_TANGENT" → adjacent model ref.2 = some (previous, following) →
        following.entityRef ≠ ref.2 := by
    intro previous following hrule hadjacent
    exact absurd (by simp [touched, hrule, hadjacent]) (htouched previous.entityRef following.entityRef)
  cases h with
  | deletion hsuffix hdeletes htouched ho => exact iff_of_true (List.pairwise_singleton _ _) (hnone (by simp [htouched]))
  | closure hdeletes htouched ho => exact iff_of_true (List.pairwise_singleton _ _) (hnone (by simp [htouched]))
  | change hsuffix hdeletes htouched ho => exact iff_of_true (List.pairwise_singleton _ _) (hnone (by simp [htouched]))
  | @fillet o₁ o₂ o₃ o₄ previous following hdeletes hadjacent htouched h₁ h₂ h₃ h₄ =>
      have hdead : NoDeadTarget [o₁, o₂, o₃, o₄] ↔ following.entityRef ≠ ref.2 := by
        simp [NoDeadTarget, h₁.type_eq, h₂.type_eq, h₂.target_eq, h₃.type_eq, h₃.target_eq, h₄.target_eq]
      rw [hdead]
      constructor
      · intro hne previous' following' hrule hadjacent'
        rw [hadjacent] at hadjacent'
        obtain ⟨rfl, rfl⟩ := Prod.mk.inj (Option.some.inj hadjacent')
        exact hne
      · intro hall
        apply hall previous following _ hadjacent
        by_contra hrule
        simp [touched, hrule] at htouched
        split at htouched <;> simp at htouched

/-- A finding and one after it. -/
theorem apart_iff (h : Compiled model ref operations) {operations' : List Operation}
    (h' : Compiled model ref' operations') :
    (∀ x ∈ operations, ∀ y ∈ operations', ∀ entityRef, x.type = .deleteEntity → x.targetEntityRef = some entityRef →
      y.targetEntityRef ≠ some entityRef) ↔ (deletes ref = true → ref.2 ∉ touched model ref') := by
  constructor
  · intro hall hdeletes htouched
    obtain ⟨x, hx, htype, htarget⟩ := (h.deleted_iff ref.2).mpr ⟨hdeletes, rfl⟩
    obtain ⟨y, hy, htarget'⟩ := (h'.target_iff ref.2).mpr htouched
    exact hall x hx y hy ref.2 htype htarget htarget'
  · intro himp x hx y hy entityRef htype htarget htarget'
    obtain ⟨hdeletes, rfl⟩ := (h.deleted_iff entityRef).mp ⟨x, hx, htype, htarget⟩
    exact himp hdeletes ((h'.target_iff _).mp ⟨y, hy, htarget'⟩)

end Compiled

theorem neighbours_mem {entities : List EntityRecord} {index : Nat} {previous following : EntityRecord}
    (h : neighbours entities index = some (previous, following)) : previous ∈ entities ∧ following ∈ entities := by
  cases index with
  | zero => simp [neighbours] at h
  | succ index =>
      obtain ⟨p, hp, h⟩ := Option.bind_eq_some_iff.mp h
      obtain ⟨f, hf, heq⟩ := Option.map_eq_some_iff.mp h
      obtain ⟨rfl, rfl⟩ := Prod.mk.inj heq
      exact ⟨List.mem_of_getElem? hp, List.mem_of_getElem? hf⟩

/-- A finding touches entities of the drawing only. -/
theorem touched_mem (href : ref.2 ∈ model.entities.map EntityRecord.entityRef) :
    ∀ entityRef ∈ touched model ref, entityRef ∈ model.entities.map EntityRecord.entityRef := by
  unfold touched
  split
  · simp
  · split
    · cases hadjacent : adjacent model ref.2 with
      | none => simpa using href
      | some lines =>
          obtain ⟨previous, following⟩ := lines
          obtain ⟨entry, -, hneighbours⟩ := Option.bind_eq_some_iff.mp hadjacent
          obtain ⟨hprevious, hfollowing⟩ := neighbours_mem hneighbours
          simp only [List.forall_mem_cons, List.not_mem_nil, false_implies, implies_true, and_true]
          exact ⟨List.mem_map_of_mem hprevious, href, List.mem_map_of_mem hfollowing⟩
    · simpa using href

/-! ## The plan -/

/-- No finding touches an entity that a selected one before it deletes, and a fillet is not followed by a line of its own
name. -/
structure Untangled (model : DrawingModel) (selected : List FindingRef) : Prop where
  apart : selected.Pairwise fun earlier later => deletes earlier = true → earlier.2 ∉ touched model later
  fillet : ∀ ref ∈ selected, ∀ previous following, ref.1 = "FILLET_NOT_TANGENT" →
    adjacent model ref.2 = some (previous, following) → following.entityRef ≠ ref.2

/-- A plan that can be applied as a whole, each of its operations with one finding behind it. -/
structure Executable (model : DrawingModel) (selected : List FindingRef) (result : RemediationResult) : Prop where
  noDeadTarget : NoDeadTarget result.plan.operations
  ids_nodup : (result.plan.operations.map (·.operationId)).Nodup
  traced : ∀ o ∈ result.plan.operations, ∃! ref : FindingRef, ref ∈ selected ∧
    ⟨o.operationId, ref.1, ref.2⟩ ∈ result.operationSources
  applies : (applyTargets (model.entities.map EntityRecord.entityRef) result.plan.operations).isSome = true

section

variable {pairs : List (FindingRef × List Operation)}

theorem noDeadTarget_flatten (h : ∀ pair ∈ pairs, Compiled model pair.1 pair.2) :
    NoDeadTarget (pairs.map Prod.snd).flatten ↔ Untangled model (pairs.map Prod.fst) := by
  have hsingle : (∀ l ∈ pairs.map Prod.snd, NoDeadTarget l) ↔ ∀ ref ∈ pairs.map Prod.fst, ∀ previous following,
      ref.1 = "FILLET_NOT_TANGENT" → adjacent model ref.2 = some (previous, following) →
        following.entityRef ≠ ref.2 := by
    rw [List.forall_mem_map, List.forall_mem_map]
    exact forall₂_congr fun pair hpair => (h pair hpair).noDeadTarget_iff
  have hpairwise := List.Pairwise.iff_of_mem fun {x y} hx hy => (h x hx).apart_iff (h y hy)
  unfold NoDeadTarget at hsingle ⊢
  rw [List.pairwise_flatten, hsingle, List.pairwise_map, hpairwise, and_comm]
  constructor
  · rintro ⟨hapart, hfillet⟩
    exact ⟨List.pairwise_map.mpr hapart, hfillet⟩
  · rintro ⟨hapart, hfillet⟩
    exact ⟨List.pairwise_map.mp hapart, hfillet⟩

/-- The operations of different findings have different identifiers. -/
theorem operation_finding (h : ∀ pair ∈ pairs, Compiled model pair.1 pair.2) (hrules : ∀ pair ∈ pairs, ':' ∉ pair.1.1.toList)
    {pair pair' : FindingRef × List Operation} (hpair : pair ∈ pairs) (hpair' : pair' ∈ pairs) {o o' : Operation}
    (ho : o ∈ pair.2) (ho' : o' ∈ pair'.2) (heq : o.operationId = o'.operationId) : pair.1 = pair'.1 := by
  obtain ⟨suffix, type, target, hsuffix, hmade⟩ := (h pair hpair).made o ho
  obtain ⟨suffix', type', target', hsuffix', hmade'⟩ := (h pair' hpair').made o' ho'
  rw [hmade.operationId_eq, hmade'.operationId_eq] at heq
  exact (operationId_inj (hrules pair hpair) (hrules pair' hpair') hsuffix hsuffix' heq).1

theorem ids_nodup_flatten (h : ∀ pair ∈ pairs, Compiled model pair.1 pair.2)
    (hrules : ∀ pair ∈ pairs, ':' ∉ pair.1.1.toList) (hnodup : (pairs.map Prod.fst).Nodup) :
    ((pairs.map Prod.snd).flatten.map (·.operationId)).Nodup := by
  rw [List.map_flatten, List.map_map]
  apply List.pairwise_flatten.mpr
  constructor
  · rw [List.forall_mem_map]
    intro pair hpair
    exact (h pair hpair).ids_nodup (hrules pair hpair)
  · rw [List.pairwise_map]
    apply (List.pairwise_map.mp hnodup).imp_of_mem
    intro pair pair' hpair hpair' hne id hid id' hid' heq
    obtain ⟨o, ho, rfl⟩ := List.mem_map.mp hid
    obtain ⟨o', ho', rfl⟩ := List.mem_map.mp hid'
    exact hne (operation_finding h hrules hpair hpair' ho ho' heq)

theorem traced_flatten (h : ∀ pair ∈ pairs, Compiled model pair.1 pair.2)
    (hrules : ∀ pair ∈ pairs, ':' ∉ pair.1.1.toList) :
    ∀ o ∈ (pairs.map Prod.snd).flatten, ∃! ref : FindingRef, ref ∈ pairs.map Prod.fst ∧
      ⟨o.operationId, ref.1, ref.2⟩ ∈ pairs.flatMap fun pair => sourcesOf pair.1 pair.2 := by
  intro o ho
  obtain ⟨l, hl, ho⟩ := List.mem_flatten.mp ho
  obtain ⟨pair, hpair, rfl⟩ := List.mem_map.mp hl
  refine ⟨pair.1, ⟨List.mem_map_of_mem hpair, List.mem_flatMap_of_mem hpair (List.mem_map_of_mem ho)⟩, ?_⟩
  rintro ref ⟨-, hsource⟩
  obtain ⟨pair', hpair', hsource⟩ := List.mem_flatMap.mp hsource
  obtain ⟨o', ho', heq⟩ := List.mem_map.mp hsource
  obtain ⟨hid, hrule, hentity⟩ := OperationSource.mk.inj heq
  rw [operation_finding h hrules hpair hpair' ho ho' hid.symm]
  exact Prod.ext hrule.symm hentity.symm

end

theorem refuse_ok {p : Prop} {e : KernelError} {u : Unit} (h : refuse p e = .ok u) : ¬ p := by
  intro hp
  rw [refuse, if_pos hp] at h
  simp at h

theorem checkSelection_nodup {auditId : String} {evidence : Option DrawingAuditEvidence} {selected : List FindingRef}
    {technical : List (String × Dict)} {checked : DrawingAuditEvidence × String}
    (h : checkSelection model auditId evidence selected technical = .ok checked) : selected.Nodup := by
  obtain ⟨-, -, h⟩ := Fallible.bind_eq_ok.mp h
  obtain ⟨evidence, -, h⟩ := Fallible.bind_eq_ok.mp h
  obtain ⟨-, -, h⟩ := Fallible.bind_eq_ok.mp h
  obtain ⟨-, -, h⟩ := Fallible.bind_eq_ok.mp h
  obtain ⟨u, hrefuse, -⟩ := Fallible.bind_eq_ok.mp h
  exact not_not.mp (refuse_ok hrefuse)

/-- A compiled plan can be applied exactly when the selected findings do not get in each other's way. -/
theorem compilePlan_executable_iff {jobId auditId : String} {evidence : Option DrawingAuditEvidence}
    {selected : List FindingRef} {technical : List (String × Dict)} {result : RemediationResult}
    (h : compilePlan tolerance jobId model auditId evidence selected technical = .ok result) :
    Executable model selected result ↔ Untangled model selected := by
  obtain ⟨⟨evidence, profileRef⟩, hchecked, h⟩ := Fallible.bind_eq_ok.mp h
  obtain ⟨generated, hgenerated, h⟩ := Fallible.bind_eq_ok.mp h
  have hnodup := checkSelection_nodup hchecked
  have hall := Fallible.mapM_eq_ok.mp hgenerated
  obtain ⟨hlength, hpairs⟩ := List.forall₂_iff_zip.mp hall
  have hspec : ∀ pair ∈ selected.zip generated, pair.1.1 ∈ directRules ∧
      pair.1.2 ∈ model.entities.map EntityRecord.entityRef ∧ Compiled model pair.1 pair.2 :=
    fun pair hpair => compileSelected_compiled (hpairs hpair)
  have hcompiled : ∀ pair ∈ selected.zip generated, Compiled model pair.1 pair.2 := fun pair hpair => (hspec pair hpair).2.2
  have hrules : ∀ pair ∈ selected.zip generated, ':' ∉ pair.1.1.toList :=
    fun pair hpair => directRules_colon (hspec pair hpair).1
  have hfst : (selected.zip generated).map Prod.fst = selected := List.map_fst_zip hlength.le
  have hsnd : (selected.zip generated).map Prod.snd = generated := List.map_snd_zip hlength.ge
  have hdead := noDeadTarget_flatten hcompiled
  have hids := ids_nodup_flatten hcompiled hrules (by rwa [hfst])
  have htraced := traced_flatten hcompiled hrules
  rw [hfst, hsnd] at hdead htraced
  rw [hsnd] at hids
  have hmade : ∀ o ∈ ((selected.zip generated).map Prod.snd).flatten, ∃ pair ∈ selected.zip generated, o ∈ pair.2 := by
    intro o ho
    obtain ⟨l, hl, ho⟩ := List.mem_flatten.mp ho
    obtain ⟨pair, hpair, rfl⟩ := List.mem_map.mp hl
    exact ⟨pair, hpair, ho⟩
  rw [hsnd] at hmade
  rw [← Except.ok.inj h]
  constructor
  · intro hexecutable
    exact hdead.mp hexecutable.noDeadTarget
  · intro huntangled
    have hnone := hdead.mpr huntangled
    refine ⟨hnone, hids, htraced, applyTargets_isSome ?_ ?_ hnone⟩
    · intro o ho entityRef htarget
      obtain ⟨pair, hpair, ho⟩ := hmade o ho
      obtain ⟨-, href, hcompiled⟩ := hspec pair hpair
      exact touched_mem href entityRef ((hcompiled.target_iff entityRef).mp ⟨o, ho, htarget⟩)
    · intro o ho
      obtain ⟨pair, hpair, ho⟩ := hmade o ho
      exact (hcompiled pair hpair).targeted o ho

/-! ## A duplicate on the wrong layer -/

def line (entityRef : String) : EntityRecord :=
  .mk entityRef "AcDbLine" "0" true "model" (.line (0, 0) (1, 0)) ⟨0, 0, 1, 0⟩ false

theorem twoLines_factor (factor : ℝ) (h : some (1 : ℝ) = some factor) : 0 < factor := by
  rw [← Option.some.inj h]
  exact one_pos

theorem twoLines_layer (h : ScopeKind.modelSpace = .layer) : (none : Option String).getD "" ≠ "" :=
  ScopeKind.noConfusion h

theorem twoLines_layout (h : ScopeKind.modelSpace = .layout) : (none : Option String).getD "" ≠ "" :=
  ScopeKind.noConfusion h

theorem twoLines_selection (h : ScopeKind.modelSpace = .selection) : ([] : List String) ≠ [] :=
  ScopeKind.noConfusion h

theorem twoLines_normalized (h : some (1 : ℝ) = none) : true = false := absurd h (Option.some_ne_none 1)

theorem twoLines_coverage {α : Type} (_ : true = true) : ([] : List α) = [] := rfl

theorem twoLines_chord : (0 : ℝ) < 1 := one_pos

def twoLines : DrawingModel where
  documentId := "D1"
  revision := "R1"
  displayName := "two lines"
  sourceUnitCode := "mm"
  toMmFactor := some 1
  geometryNormalized := true
  scope := { kind := .modelSpace, layer_given := twoLines_layer, layout_given := twoLines_layout,
             selection_given := twoLines_selection }
  entities := [line "E1", line "E2"]
  arcChordToleranceMm := 1
  normalized_given := twoLines_normalized
  factor_pos := twoLines_factor
  coverage := twoLines_coverage
  chord_pos := twoLines_chord

def misplacedDuplicate : DrawingAuditEvidence where
  auditId := "A1"
  documentId := "D1"
  revision := "R1"
  report :=
    { profileRef := some "profile@1"
      findings := [{ ruleId := "DUPLICATE_ENTITY", entityRef := some "E2" },
        { ruleId := "ENTITY_ON_EXPECTED_LAYER", entityRef := some "E2", expected := .str "OUTLINE" }] }

def bothFindings : List FindingRef := [("DUPLICATE_ENTITY", "E2"), ("ENTITY_ON_EXPECTED_LAYER", "E2")]

theorem bothFindings_compiled : ∃ result,
    compilePlan {} "J1" twoLines "A1" (some misplacedDuplicate) bothFindings [] = .ok result ∧
      result.plan.operations.map (fun o => (o.type, o.targetEntityRef)) =
        [(.deleteEntity, some "E2"), (.updateEntity, some "E2")] := by
  have hchecked : checkSelection twoLines "A1" (some misplacedDuplicate) bothFindings [] =
      .ok (misplacedDuplicate, "profile@1") := by
    simp [checkSelection, refuse, twoLines, misplacedDuplicate, bothFindings, findingByRef, unexpectedTechnical]
  have hdelete : compileSelected {} twoLines misplacedDuplicate.report [] ("DUPLICATE_ENTITY", "E2") =
      .ok [deletion (line "E2") (findingFeature ("DUPLICATE_ENTITY", "E2")) "delete"
        [("remediates_rule_id", .str "DUPLICATE_ENTITY")]] := by
    simp [compileSelected, findingByRef, misplacedDuplicate, entityByRef, twoLines, line, EntityRecord.entityRef,
      nonAutomaticRules, List.lookup_cons, List.lookup_nil, directRules, compileFinding, deleteRules]
  have hupdate : compileSelected {} twoLines misplacedDuplicate.report [] ("ENTITY_ON_EXPECTED_LAYER", "E2") =
      .ok [update (line "E2") (findingFeature ("ENTITY_ON_EXPECTED_LAYER", "E2")) "layer" "OUTLINE" []
        [("layer", .str "OUTLINE")]] := by
    simp [compileSelected, findingByRef, misplacedDuplicate, entityByRef, twoLines, line, EntityRecord.entityRef,
      nonAutomaticRules, List.lookup_cons, List.lookup_nil, directRules, compileFinding, deleteRules, expectedLayer, Change.operation]
  have hgenerated := Fallible.mapM_eq_ok.mpr (.cons hdelete (.cons hupdate .nil))
  exact ⟨_, Fallible.bind_eq_ok.mpr ⟨_, hchecked, Fallible.bind_eq_ok.mpr ⟨_, hgenerated, rfl⟩⟩, rfl⟩

/-- The layer of a deleted duplicate is set. -/
theorem deleted_duplicate_updated : ∃ result,
    compilePlan {} "J1" twoLines "A1" (some misplacedDuplicate) bothFindings [] = .ok result ∧
      ¬ Executable twoLines bothFindings result := by
  obtain ⟨result, hcompiled, hoperations⟩ := bothFindings_compiled
  refine ⟨result, hcompiled, ?_⟩
  intro hexecutable
  have hdead : (result.plan.operations.map fun o => (o.type, o.targetEntityRef)).Pairwise fun earlier later =>
      ∀ entityRef, earlier.1 = .deleteEntity → earlier.2 = some entityRef → later.2 ≠ some entityRef :=
    List.pairwise_map.mpr hexecutable.noDeadTarget
  rw [hoperations] at hdead
  simp at hdead

theorem compilePlan_executable_iff_bothFindings : ∃ result,
    compilePlan {} "J1" twoLines "A1" (some misplacedDuplicate) bothFindings [] = .ok result ∧
      (Executable twoLines bothFindings result ↔ Untangled twoLines bothFindings) := by
  obtain ⟨result, hcompiled, -⟩ := bothFindings_compiled
  exact ⟨result, hcompiled, compilePlan_executable_iff hcompiled⟩

end CadHarness.Remediation
