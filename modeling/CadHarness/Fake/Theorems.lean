import CadHarness.Fake.FakeAutoCADAdapter
import CadHarness.Lib.Fallible

/-!
# Commits that raise behind their writes

A commit of the adapter in memory is undone exactly, and its references stay distinct. A commit that raises
leaves everything as it was, unless it raises once the entities are in the document: as it hashes the plan, or
the new geometry.
-/

namespace CadHarness.Fake
open CadHarness.Lib CadHarness.Canonical
open CadHarness.Domain (Exc)

/-! ## Entities under their references -/

/-- The references are distinct, and every entity stands under its own. -/
structure Wf (l : Entities) : Prop where
  distinct : (l.map Prod.fst).Nodup
  named : ∀ e ∈ l, e.2.entityRef = e.1

theorem wf_nil : Wf [] := ⟨List.nodup_nil, by simp⟩

namespace Wf

variable {l : Entities}

theorem set (h : Wf l) {ref : String} {e : FakeEntity} (he : e.entityRef = ref) : Wf (Assoc.set l ref e) where
  distinct := Assoc.nodup_set h.distinct _ _
  named := by
    intro f hf
    rcases Assoc.mem_set hf with rfl | hf
    · exact he
    · exact h.named f hf

theorem filter (h : Wf l) (keep : String × FakeEntity → Bool) : Wf (l.filter keep) where
  distinct := h.distinct.sublist (List.filter_sublist.map _)
  named := fun e he => h.named e (List.mem_of_mem_filter he)

theorem remove (h : Wf l) (ref : String) : Wf (Assoc.remove l ref) := h.filter _

theorem lookup (h : Wf l) {ref : String} {e : FakeEntity} (he : l.lookup ref = some e) : e.entityRef = ref :=
  h.named (ref, e) (Assoc.mem_of_lookup he)

theorem refs_nodup (h : Wf l) : (l.map (fun e => e.2.entityRef)).Nodup := by
  have heq : l.map (fun e => e.2.entityRef) = l.map Prod.fst := List.map_congr_left h.named
  rw [heq]
  exact h.distinct

end Wf

/-! ## Staging -/

variable {p : Primitives}

theorem targetEntity_named {documentId : String} {o : Operation} {l : Entities} {e : FakeEntity} (h : Wf l)
    (he : targetEntity documentId o l = .ok e) : l.lookup e.entityRef = some e := by
  unfold targetEntity at he
  split at he
  · rename_i found hfound
    obtain rfl := Except.ok.inj he
    obtain ⟨ref, -, hlookup⟩ := Option.bind_eq_some_iff.mp hfound
    rw [h.lookup hlookup]
    exact hlookup
  · cases he

theorem wf_foldl_set {l : Entities} (h : Wf l) (built : List (FakeEntity × EntityResult)) :
    Wf (built.foldl (fun l e => Assoc.set l e.1.entityRef e.1) l) := by
  induction built generalizing l with
  | nil => exact h
  | cons e built ih => exact ih (h.set rfl)

theorem execute_wf {documentId : String} {o : Operation} {s s' : Staging} (h : Wf s.entities)
    (ho : execute p documentId s o = .ok s') : Wf s'.entities := by
  unfold execute at ho
  split at ho
  · obtain ⟨e, he, ho⟩ := Fallible.bind_eq_ok.mp ho
    split at ho
    · obtain rfl := Fallible.pure_eq_ok.mp ho
      exact h.set rfl
    · cases ho
  · obtain ⟨e, he, ho⟩ := Fallible.bind_eq_ok.mp ho
    obtain rfl := Fallible.pure_eq_ok.mp ho
    exact h.remove _
  · obtain ⟨⟨built, counter⟩, -, ho⟩ := Fallible.bind_eq_ok.mp ho
    obtain rfl := Fallible.pure_eq_ok.mp ho
    exact wf_foldl_set h built

theorem stage_wf {documentId : String} {operations : List Operation} {s s' : Staging} (h : Wf s.entities)
    (hs : stage p documentId operations s = .ok s') : Wf s'.entities := by
  induction operations generalizing s with
  | nil =>
      obtain rfl := Fallible.pure_eq_ok.mp hs
      exact h
  | cons o operations ih =>
      obtain ⟨next, ho, hrest⟩ := Fallible.bind_eq_ok.mp hs
      exact ih (execute_wf h ho) hrest

/-! ## The staged entities in the document -/

theorem applyEntity_eq {l : Entities} (h : Wf l) {e : String × FakeEntity} (he : e.2.entityRef = e.1) :
    applyEntity l e = Assoc.set l e.1 e.2 := by
  unfold applyEntity
  cases hlookup : l.lookup e.1 with
  | none => rfl
  | some existing =>
      have hsame : existing.entityRef = e.2.entityRef := (h.lookup hlookup).trans he.symm
      dsimp only
      rw [hsame]

theorem foldl_applyEntity {working l : Entities} (h : Wf l) (hw : ∀ e ∈ working, e.2.entityRef = e.1) :
    Wf (working.foldl applyEntity l) ∧
      working.foldl applyEntity l = working.foldl (fun l e => Assoc.set l e.1 e.2) l := by
  induction working generalizing l with
  | nil => exact ⟨h, rfl⟩
  | cons e working ih =>
      have he : e.2.entityRef = e.1 := hw e List.mem_cons_self
      rw [List.foldl_cons, List.foldl_cons, applyEntity_eq h he]
      exact ih (h.set he) (fun f hf => hw f (List.mem_cons_of_mem _ hf))

theorem lookup_foldl_set {working : Entities} (hd : (working.map Prod.fst).Nodup) (l : Entities) (ref : String) :
    (working.foldl (fun l e => Assoc.set l e.1 e.2) l).lookup ref = (working.lookup ref).or (l.lookup ref) := by
  induction working generalizing l with
  | nil => rfl
  | cons e working ih =>
      obtain ⟨k, v⟩ := e
      obtain ⟨hk, hd⟩ := List.nodup_cons.mp hd
      rw [List.foldl_cons, ih hd, Assoc.lookup_set, Assoc.lookup_cons]
      by_cases href : ref = k
      · have hnone : working.lookup ref = none := by
          rw [List.lookup_eq_none_iff]
          intro f hf
          have hne : ref ≠ f.1 := by
            intro heq
            have hmem : ref ∈ working.map Prod.fst := by
              rw [heq]
              exact List.mem_map_of_mem hf
            exact hk (href ▸ hmem)
          simpa using hne
        rw [hnone, if_pos href, if_pos href]
        rfl
      · rw [if_neg href, if_neg href]

theorem applyEntities_wf {entities working : Entities} (h : Wf entities) (hw : Wf working) :
    Wf (applyEntities entities working) :=
  (foldl_applyEntity (h.filter _) hw.named).1

/-- The document holds what was staged. -/
theorem mem_applyEntities {entities working : Entities} (h : Wf entities) (hw : Wf working)
    {e : String × FakeEntity} : e ∈ applyEntities entities working ↔ e ∈ working := by
  obtain ⟨ref, entity⟩ := e
  rw [← Assoc.lookup_eq_some_iff (applyEntities_wf h hw).distinct, ← Assoc.lookup_eq_some_iff hw.distinct]
  have hlookup : (applyEntities entities working).lookup ref = working.lookup ref := by
    unfold applyEntities
    rw [(foldl_applyEntity (h.filter _) hw.named).2, lookup_foldl_set hw.distinct]
    cases hworking : working.lookup ref with
    | some staged => rfl
    | none =>
        rw [Option.none_or, List.lookup_eq_none_iff]
        intro f hf
        have hkept := (List.mem_filter.mp hf).2
        have hne : ref ≠ f.1 := by
          rintro rfl
          simp [hworking] at hkept
        simpa using hne
  rw [hlookup]

/-! ## The revision -/

/-- The geometry can be hashed: it has no infinity, no NaN, and no integer that is too long to be written. -/
def Writable (geometry : Dict) : Prop :=
  (Json.traverse finite? (.obj geometry)).isSome ∧ (Json.traverse short? (.obj geometry)).isSome

theorem geometryHash_ok_iff {geometry : Dict} :
    (∃ hash, geometryHash p geometry = .ok hash) ↔ Writable geometry := by
  unfold geometryHash Writable
  cases Json.traverse finite? (.obj geometry) with
  | none => simp
  | some value =>
      cases Json.traverse short? (.obj geometry) with
      | none => simp
      | some _ => simp

theorem currentRevision_ok_iff {d : FakeDocument} :
    (∃ revision, currentRevision p d = .ok revision) ↔ ∀ e ∈ d.entities, Writable e.2.geometry := by
  constructor
  · rintro ⟨revision, h⟩ e he
    obtain ⟨prints, hprints, -⟩ := Fallible.bind_eq_ok.mp h
    obtain ⟨l, -, hprint⟩ := Fallible.exists_of_mem_mapM hprints (List.mem_map_of_mem he)
    obtain ⟨hash, hhash, -⟩ := Fallible.bind_eq_ok.mp hprint
    exact geometryHash_ok_iff.mp ⟨hash, hhash⟩
  · intro h
    have hprints : ∃ prints, (d.entities.map Prod.snd).mapM (fingerprint p) = .ok prints := by
      generalize hl : d.entities = l at h
      clear hl
      induction l with
      | nil => exact ⟨[], rfl⟩
      | cons e l ih =>
          obtain ⟨hash, hhash⟩ := (@geometryHash_ok_iff p _).mpr (h e List.mem_cons_self)
          obtain ⟨prints, hprints⟩ := ih (fun f hf => h f (List.mem_cons_of_mem _ hf))
          refine ⟨[e.2.entityRef, e.2.entityType, e.2.layer, hash] :: prints, ?_⟩
          simp [List.mapM_cons, fingerprint, hhash, hprints]
    obtain ⟨prints, hprints⟩ := hprints
    unfold currentRevision
    rw [hprints]
    exact ⟨_, rfl⟩

/-! ## What a commit does -/

/-- The staging of a commit. -/
def staged (p : Primitives) (request : CommitRequest) (a : FakeAutoCADAdapter) : Except Exc Staging :=
  stage p a.document.documentId request.plan.operations ⟨a.document.entities, a.entityCounter, []⟩

def checkpointOf (request : CommitRequest) (newId : String) : Option String :=
  if request.createCheckpoint then some newId else none

/-- The adapter with the staged entities in its document. -/
def applied (request : CommitRequest) (newId : String) (s : Staging) (a : FakeAutoCADAdapter) : FakeAutoCADAdapter :=
  { a with document := written (checkpointed a.document (checkpointOf request newId)) s.entities
           entityCounter := s.counter }

/-- A new checkpoint has a name that no other has. -/
structure Fresh (newId : String) (a : FakeAutoCADAdapter) : Prop where
  named : newId ≠ ""
  new : a.document.snapshots.lookup newId = none

/-- The ways in which a commit ends. -/
inductive CommitOutcome (p : Primitives) (request : CommitRequest) (newId : String) (a : FakeAutoCADAdapter) :
    Except Exc CommitResult × FakeAutoCADAdapter → Prop
  | replayed {previous : CommitResult} (h : a.executions.lookup request.idempotencyKey = some previous) :
      CommitOutcome p request newId a (.ok previous, a)
  | refused (e : Exc) (h : a.executions.lookup request.idempotencyKey = none)
      (hcurrent : currentRevision p a.document ≠ .ok request.expectedRevision) :
      CommitOutcome p request newId a (.error e, a)
  | unstaged (e : Exc) (h : a.executions.lookup request.idempotencyKey = none)
      (hcurrent : currentRevision p a.document = .ok request.expectedRevision)
      (hstaged : staged p request a = .error e) : CommitOutcome p request newId a (.error e, a)
  | unhashed (e : Exc) {s : Staging} (h : a.executions.lookup request.idempotencyKey = none)
      (hcurrent : currentRevision p a.document = .ok request.expectedRevision) (hstaged : staged p request a = .ok s)
      (hhash : ¬ ((∃ hash, planHash p request.plan = .ok hash) ∧
        ∃ revision, currentRevision p (applied request newId s a).document = .ok revision)) :
      CommitOutcome p request newId a (.error e, applied request newId s a)
  | committed {s : Staging} {result : CommitResult} (h : a.executions.lookup request.idempotencyKey = none)
      (hcurrent : currentRevision p a.document = .ok request.expectedRevision) (hstaged : staged p request a = .ok s)
      (hhash : ∃ hash, planHash p request.plan = .ok hash)
      (hrevision : currentRevision p (applied request newId s a).document = .ok result.newRevision)
      (hcheckpoint : result.checkpointId = checkpointOf request newId) :
      CommitOutcome p request newId a (.ok result, { applied request newId s a with
        executions := Assoc.set a.executions request.idempotencyKey result })

@[simp] theorem checkpointed_documentId (d : FakeDocument) (c : Option String) :
    (checkpointed d c).documentId = d.documentId := by
  cases c <;> rfl

@[simp] theorem checkpointed_entities (d : FakeDocument) (c : Option String) :
    (checkpointed d c).entities = d.entities := by
  cases c <;> rfl

@[simp] theorem checkpointed_writeCounter (d : FakeDocument) (c : Option String) :
    (checkpointed d c).writeCounter = d.writeCounter := by
  cases c <;> rfl

theorem withdrawn_checkpointed {request : CommitRequest} {newId : String} {a : FakeAutoCADAdapter}
    (hnew : Fresh newId a) :
    withdrawn (checkpointed a.document (checkpointOf request newId)) (checkpointOf request newId) = a.document := by
  unfold checkpointOf
  cases request.createCheckpoint with
  | false => rfl
  | true =>
      simp only [if_true, withdrawn, if_neg hnew.named, checkpointed, Assoc.remove_set_of_lookup_none hnew.new]

theorem commit_outcome (request : CommitRequest) {newId : String} {a : FakeAutoCADAdapter} (hnew : Fresh newId a) :
    CommitOutcome p request newId a (commit p request newId a) := by
  unfold commit
  cases hprevious : a.executions.lookup request.idempotencyKey with
  | some previous => exact .replayed hprevious
  | none =>
      dsimp only
      cases hcurrent : currentRevision p a.document with
      | error e => exact .refused e hprevious (by simp [hcurrent])
      | ok current =>
          dsimp only
          split
          · rename_i hne
            exact .refused _ hprevious (by simpa [hcurrent] using hne)
          · rename_i heq
            have hexpected : currentRevision p a.document = .ok request.expectedRevision := by
              rw [hcurrent, not_not.mp heq]
            have hstage : stage p (checkpointed a.document (checkpointOf request newId)).documentId
                request.plan.operations
                ⟨(checkpointed a.document (checkpointOf request newId)).entities, a.entityCounter, []⟩ =
                staged p request a := by
              rw [checkpointed_documentId, checkpointed_entities]
              rfl
            unfold checkpointOf at hstage
            rw [hstage]
            cases hstaged : staged p request a with
            | error e =>
                have hback := @withdrawn_checkpointed request newId a hnew
                unfold checkpointOf at hback
                dsimp only
                rw [hback]
                exact .unstaged e hprevious hexpected hstaged
            | ok s =>
                dsimp only
                cases hhash : planHash p request.plan with
                | error e => exact .unhashed e hprevious hexpected hstaged (by simp [hhash])
                | ok hash =>
                    dsimp only
                    cases hrevision : currentRevision p (applied request newId s a).document with
                    | error e =>
                        have hfailed := hrevision
                        unfold applied checkpointOf at hfailed
                        dsimp only at hfailed
                        rw [hfailed]
                        exact .unhashed e hprevious hexpected hstaged (by simp [hrevision])
                    | ok newRevision =>
                        have hmade := hrevision
                        unfold applied checkpointOf at hmade
                        dsimp only at hmade
                        rw [hmade]
                        exact .committed hprevious hexpected hstaged ⟨hash, hhash⟩ hrevision rfl

/-- The adapter with the entities of a checkpoint. -/
def restored (entities : Entities) (a : FakeAutoCADAdapter) : FakeAutoCADAdapter :=
  { a with document := { a.document with entities, writeCounter := a.document.writeCounter + 1 } }

/-- The ways in which a rollback ends. -/
inductive RollbackOutcome (p : Primitives) (request : RollbackRequest) (a : FakeAutoCADAdapter) :
    Except Exc RollbackResult × FakeAutoCADAdapter → Prop
  | refused (e : Exc) : RollbackOutcome p request a (.error e, a)
  | restored {entities : Entities} (hlookup : a.document.snapshots.lookup request.checkpointId = some entities)
      (r : Except Exc RollbackResult) : RollbackOutcome p request a (r, restored entities a)

theorem rollback_outcome (request : RollbackRequest) (a : FakeAutoCADAdapter) :
    RollbackOutcome p request a (rollback p request a) := by
  unfold rollback
  dsimp only
  split
  · exact .refused _
  · split
    · exact .refused _
    · split
      · exact .refused _
      · split
        · exact .refused _
        · rename_i entities hfound
          have hlookup : a.document.snapshots.lookup request.checkpointId = some entities := by
            split at hfound
            · cases hfound
            · exact hfound
          split
          · exact .restored hlookup _
          · exact .restored hlookup _

/-! ## Runs -/

/-- Commits and rollbacks lead from one adapter to another. -/
inductive Later (p : Primitives) (a : FakeAutoCADAdapter) : FakeAutoCADAdapter → Prop
  | refl : Later p a a
  | commit {b : FakeAutoCADAdapter} (h : Later p a b) (request : CommitRequest) {newId : String}
      (hnew : Fresh newId b) : Later p a (commit p request newId b).2
  | rollback {b : FakeAutoCADAdapter} (h : Later p a b) (request : RollbackRequest) :
      Later p a (rollback p request b).2

/-- The entities and those of every checkpoint stand under their references. -/
structure FakeDocument.Wf (d : FakeDocument) : Prop where
  entities : Fake.Wf d.entities
  snapshots : ∀ c entities, d.snapshots.lookup c = some entities → Fake.Wf entities

theorem checkpointed_wf {d : FakeDocument} (h : d.Wf) (c : Option String) : (checkpointed d c).Wf where
  entities := by
    rw [checkpointed_entities]
    exact h.entities
  snapshots := by
    intro c' entities he
    cases c with
    | none => exact h.snapshots c' entities he
    | some c =>
        unfold checkpointed at he
        rw [Assoc.lookup_set] at he
        split at he
        · obtain rfl := Option.some.inj he
          exact h.entities
        · exact h.snapshots c' entities he

theorem applied_wf {request : CommitRequest} {newId : String} {s : Staging} {a : FakeAutoCADAdapter}
    (h : a.document.Wf) (hs : staged p request a = .ok s) : (applied request newId s a).document.Wf where
  entities := applyEntities_wf (checkpointed_wf h _).entities (stage_wf h.entities hs)
  snapshots := (checkpointed_wf h _).snapshots

theorem Later.wf {a b : FakeAutoCADAdapter} (h : Later p a b) (ha : a.document.Wf) : b.document.Wf := by
  induction h with
  | refl => exact ha
  | @commit b h request newId hnew ih =>
      have houtcome := @commit_outcome p request newId b hnew
      generalize Fake.commit p request newId b = outcome at houtcome ⊢
      cases houtcome with
      | replayed | refused | unstaged => exact ih
      | unhashed e hnone hcurrent hstaged => exact applied_wf ih hstaged
      | committed hnone hcurrent hstaged => exact applied_wf ih hstaged
  | @rollback b h request ih =>
      have houtcome := @rollback_outcome p request b
      generalize Fake.rollback p request b = outcome at houtcome ⊢
      cases houtcome with
      | refused => exact ih
      | restored hlookup => exact ⟨ih.snapshots _ _ hlookup, ih.snapshots⟩

theorem lookup_checkpointed {d : FakeDocument} {request : CommitRequest} {newId c : String} {entities : Entities}
    (hnew : d.snapshots.lookup newId = none) (hc : d.snapshots.lookup c = some entities) :
    (checkpointed d (checkpointOf request newId)).snapshots.lookup c = some entities := by
  unfold checkpointOf
  cases request.createCheckpoint with
  | false => exact hc
  | true =>
      have hne : c ≠ newId := by
        rintro rfl
        simp [hc] at hnew
      exact (Assoc.lookup_set_ne _ _ hne).trans hc

/-- A checkpoint stays. -/
theorem Later.snapshot {a b : FakeAutoCADAdapter} (h : Later p a b) {c : String} {entities : Entities}
    (hc : a.document.snapshots.lookup c = some entities) : b.document.snapshots.lookup c = some entities := by
  induction h with
  | refl => exact hc
  | @commit b h request newId hnew ih =>
      have houtcome := @commit_outcome p request newId b hnew
      generalize Fake.commit p request newId b = outcome at houtcome ⊢
      cases houtcome with
      | replayed | refused | unstaged => exact ih
      | unhashed | committed => exact lookup_checkpointed hnew.new ih
  | @rollback b h request ih =>
      have houtcome := @rollback_outcome p request b
      generalize Fake.rollback p request b = outcome at houtcome ⊢
      cases houtcome with
      | refused | restored => exact ih

/-! ## The three properties -/

/-- A commit that raises leaves the adapter as it was. -/
def CommitAtomic (p : Primitives) (request : CommitRequest) (newId : String) (a : FakeAutoCADAdapter) : Prop :=
  ∀ e, (commit p request newId a).1 = .error e → (commit p request newId a).2 = a

/-- A commit that writes can be rolled back to its checkpoint, and whenever that is done, the entities are
those before the commit. -/
structure CommitRestorable (p : Primitives) (request : CommitRequest) (newId : String) (a : FakeAutoCADAdapter) :
    Prop where
  available : ∀ result c, a.executions.lookup request.idempotencyKey = none →
    (commit p request newId a).1 = .ok result → result.checkpointId = some c →
    ∀ r : RollbackRequest, r.documentId = a.document.documentId → r.checkpointId = c →
      r.currentRevision = result.newRevision → ∃ done, (rollback p r (commit p request newId a).2).1 = .ok done
  exact : ∀ result c, a.executions.lookup request.idempotencyKey = none →
    (commit p request newId a).1 = .ok result → result.checkpointId = some c →
    ∀ b, Later p (commit p request newId a).2 b → ∀ r : RollbackRequest, r.checkpointId = c →
      ∀ done, (rollback p r b).1 = .ok done → (rollback p r b).2.document.entities = a.document.entities

/-- No two entities have one reference. -/
def DistinctRefs (a : FakeAutoCADAdapter) : Prop := (a.document.entities.map (fun e => e.2.entityRef)).Nodup

/-- If a commit stages its operations, the plan has a hash, and every geometry that is left can be hashed. -/
def Revisable (p : Primitives) (request : CommitRequest) (a : FakeAutoCADAdapter) : Prop :=
  a.executions.lookup request.idempotencyKey = none →
    currentRevision p a.document = .ok request.expectedRevision →
    ∀ s, staged p request a = .ok s →
      (∃ hash, planHash p request.plan = .ok hash) ∧ ∀ e ∈ s.entities, Writable e.2.geometry

theorem applied_revision_ok_iff {request : CommitRequest} {newId : String} {s : Staging} {a : FakeAutoCADAdapter}
    (ha : a.document.Wf) (hs : staged p request a = .ok s) :
    (∃ revision, currentRevision p (applied request newId s a).document = .ok revision) ↔
      ∀ e ∈ s.entities, Writable e.2.geometry := by
  have hmem : ∀ e, e ∈ (applied request newId s a).document.entities ↔ e ∈ s.entities := fun e =>
    mem_applyEntities (checkpointed_wf ha _).entities (stage_wf ha.entities hs)
  rw [currentRevision_ok_iff]
  simp only [hmem]

/-- What is written counts. -/
theorem applied_ne {request : CommitRequest} {newId : String} {s : Staging} {a : FakeAutoCADAdapter} :
    applied request newId s a ≠ a := by
  intro h
  have hcounter : (applied request newId s a).document.writeCounter = a.document.writeCounter := by rw [h]
  simp [applied, written] at hcounter

theorem commitAtomic_iff {request : CommitRequest} {newId : String} {a : FakeAutoCADAdapter} (ha : a.document.Wf)
    (hnew : Fresh newId a) : CommitAtomic p request newId a ↔ Revisable p request a := by
  have houtcome := @commit_outcome p request newId a hnew
  unfold CommitAtomic
  generalize commit p request newId a = outcome at houtcome ⊢
  cases houtcome with
  | replayed h => exact iff_of_true (by simp) (by simp [Revisable, h])
  | refused e h hcurrent =>
      exact iff_of_true (fun _ _ => rfl) (fun _ hok => absurd hok hcurrent)
  | unstaged e h hcurrent hstaged => exact iff_of_true (fun _ _ => rfl) (by simp [Revisable, hstaged])
  | @unhashed e s h hcurrent hstaged hhash =>
      apply iff_of_false
      · intro hatomic
        exact applied_ne (hatomic e rfl)
      · intro hrevisable
        obtain ⟨hplan, hwritable⟩ := hrevisable h hcurrent s hstaged
        exact hhash ⟨hplan, (applied_revision_ok_iff ha hstaged).mpr hwritable⟩
  | @committed s result h hcurrent hstaged hhash hrevision =>
      apply iff_of_true
      · intro e he
        cases he
      · intro _ _ s' hs'
        obtain rfl : s = s' := Except.ok.inj (hstaged.symm.trans hs')
        exact ⟨hhash, (applied_revision_ok_iff ha hstaged).mp ⟨_, hrevision⟩⟩

/-- What a commit that has written leaves for its rollback. -/
theorem committed_checkpoint {request : CommitRequest} {newId : String} {a : FakeAutoCADAdapter}
    (hnew : Fresh newId a) {result : CommitResult} {c : String}
    (hnone : a.executions.lookup request.idempotencyKey = none)
    (hresult : (commit p request newId a).1 = .ok result) (hc : result.checkpointId = some c) :
    c ≠ "" ∧ (∀ e ∈ a.document.entities, Writable e.2.geometry) ∧
      (commit p request newId a).2.document.documentId = a.document.documentId ∧
      (commit p request newId a).2.document.snapshots.lookup c = some a.document.entities ∧
      currentRevision p (commit p request newId a).2.document = .ok result.newRevision := by
  have houtcome := @commit_outcome p request newId a hnew
  generalize commit p request newId a = outcome at houtcome hresult ⊢
  cases houtcome with
  | replayed h => exact absurd h (by simp [hnone])
  | refused | unstaged | unhashed => cases hresult
  | committed h hcurrent hstaged hhash hrevision hcheckpoint =>
      obtain rfl := Except.ok.inj hresult
      rw [hc] at hcheckpoint
      unfold checkpointOf at hcheckpoint
      split at hcheckpoint
      · rename_i hasked
        obtain rfl := Option.some.inj hcheckpoint
        have hof : checkpointOf request c = some c := if_pos hasked
        refine ⟨hnew.named, currentRevision_ok_iff.mp ⟨_, hcurrent⟩, ?_, ?_, hrevision⟩
        · simp [applied, written]
        · simp [applied, written, hof, checkpointed]
      · cases hcheckpoint

theorem commit_restorable {request : CommitRequest} {newId : String} {a : FakeAutoCADAdapter}
    (hnew : Fresh newId a) : CommitRestorable p request newId a where
  available := by
    intro result c hnone hresult hc r hdocument hname hcurrent
    obtain ⟨hne, hwritable, hid, hlookup, hrevision⟩ := committed_checkpoint hnew hnone hresult hc
    obtain ⟨revision, hrestored⟩ := (@currentRevision_ok_iff p
      (restored a.document.entities (commit p request newId a).2).document).mpr hwritable
    unfold restored at hrestored
    unfold rollback
    dsimp only
    rw [if_neg (not_not_intro (hdocument.trans hid.symm)), hrevision]
    dsimp only
    rw [if_neg (not_not_intro hcurrent.symm), hname, if_neg hne, hlookup]
    dsimp only at hrestored ⊢
    rw [hrestored]
    exact ⟨_, rfl⟩
  exact := by
    intro result c hnone hresult hc b hb r hname done hdone
    obtain ⟨-, -, -, hlookup, -⟩ := committed_checkpoint hnew hnone hresult hc
    have hkept := hb.snapshot hlookup
    have houtcome := @rollback_outcome p r b
    generalize rollback p r b = outcome at houtcome hdone ⊢
    cases houtcome with
    | refused => cases hdone
    | restored hfound =>
        rw [hname, hkept] at hfound
        exact (Option.some.inj hfound).symm

/-- Hashes tell all. Nothing is measured in floating point. -/
def textPrimitives : Primitives where
  sha256 text := text
  computeHash _ := .error .assertionError
  measureShape _ := .error .assertionError
  circleArea _ := .error .assertionError

/-- The first commit of a new document, which creates a text of some height. -/
def textCommit (height : PyNumber) : CommitRequest where
  plan :=
    { planId := "plan_1", jobId := "job_1", documentId := "doc_1", profileRef := "default@1",
      expectedRevision := "sha256:\x7b\"document_id\":\"doc_1\",\"parts\":[0,[]]\x7d", planHash := some "sha256:plan",
      operations := [{ operationId := "op_1", featureId := "note", type := .createText, layer := "TEXT",
                       geometry := [("height_mm", .num height)] }] }
  idempotencyKey := "key_1"
  expectedRevision := "sha256:\x7b\"document_id\":\"doc_1\",\"parts\":[0,[]]\x7d"

theorem newDocument_wf (documentId : String) : FakeDocument.Wf { documentId } := ⟨wf_nil, by simp⟩

end CadHarness.Fake
