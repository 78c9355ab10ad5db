import CadHarness.Checkpoint.Lemmas.History
import CadHarness.Checkpoint.RecoveryTheorems

/-!
# The catalog as a state machine

Whatever instances do with a store, in whatever order, its records keep to their lifecycle, and no call loses
what another one has persisted.
-/

namespace CadHarness.Checkpoint
open CadHarness.Lib

variable {P : Primitives} {key : Key} {io : Io} {s s' : Session} {p : CatalogPayload}

theorem DurableCheckpointState.Next.irrefl {state : DurableCheckpointState} : ¬ state.Next state := by
  intro h
  cases state <;> cases h

/-- A call whose outcome is recorded has nothing to change in the catalog. -/
theorem CatalogCall.Replays.not_mutates {c : CatalogCall} {disk : Disk} {q : CatalogPayload} (h : c.Replays p)
    (hv : Valid P p) : ¬ Mutates P disk c.outcome? p q := by
  obtain ⟨id, state, hout, record, hr, hid, hstate⟩ := h
  intro hm
  obtain ⟨current, hcur, hcid, hnext⟩ := hm.changes id state hout
  obtain rfl := hv.eq_of_id hr hcur (hcid.trans hid.symm)
  rw [hstate] at hnext
  exact hnext.irrefl

/-- Nor in the catalog that the load has recovered. -/
theorem CatalogCall.Replays.not_mutates_recovered {c : CatalogCall} {disk : Disk} {q : CatalogPayload}
    (h : c.Replays p) (hv : Valid P p) : ¬ Mutates P disk c.outcome? (p.recovered P disk) q := by
  obtain ⟨id, state, hout, record, hr, hid, hstate⟩ := h
  intro hm
  obtain ⟨current, hcur, hcid, hnext⟩ := hm.changes id state hout
  obtain ⟨old, hold, rfl⟩ := List.mem_map.mp hcur
  unfold DurableCheckpointRecord.recovered at hcid hnext
  split at hnext
  · cases hnext
  · rename_i hfresh
    rw [if_neg hfresh] at hcid
    obtain rfl := hv.eq_of_id hr hold (hcid.trans hid.symm)
    rw [hstate] at hnext
    exact hnext.irrefl

/-- What a call replaces that replays a recorded outcome. -/
theorem Touched.replays {c : CatalogCall} (h : Touched P key c.outcome? s s') (hnil : s.written = [])
    (hp : s.disk.payload? = some p) (hc : c.Replays p) :
    s'.written = [] ∨ (∃ record ∈ p.records, record.Stale P s.disk) ∧ persisted s'.written = [p.recovered P s.disk] := by
  have heq : ∀ {p'}, Verified P key s.disk p' → p' = p := fun hv =>
    Option.some.inj (hv.payload?.symm.trans hp)
  cases h with
  | nothing hs => exact .inl (hs.2.trans hnil)
  | recovered hv _ hstale _ hpers ht =>
      cases heq hv
      rcases hpers.files with hsame | ⟨-, ⟨-, hw⟩ | ⟨-, hw⟩⟩
      · exact .inl (ht.2.trans (hsame.2.trans hnil))
      · refine .inr ⟨hstale, ?_⟩
        rw [ht.2, hw, hnil]
        rfl
      · refine .inr ⟨hstale, ?_⟩
        rw [ht.2, hw, hnil]
        rfl
  | mutated hv _ hm _ _ _ =>
      cases heq hv
      exact absurd hm (hc.not_mutates hv.storable.valid)
  | recoveredMutated hv _ _ _ _ hm _ _ _ =>
      cases heq hv
      exact absurd hm (hc.not_mutates_recovered hv.storable.valid)
  | created hnone _ _ _ _ =>
      rw [Disk.payload?, hnone] at hp
      cases hp

/-- The catalogs that a store has persisted, whatever its instances did: each is a mutation of the one before,
and the last is on the disk. A call that replays a recorded outcome persists at most what its load recovers. -/
theorem catalog_lifecycle {S₀ S : Store} {tr : List StoreEvent} (hi : (storeSystem P).init S₀)
    (hr : (storeSystem P).Run S₀ tr S) :
    (history tr).Pairwise (fun p q => p.generation < q.generation ∧
        ∀ (i : Nat) record, p.records[i]? = some record → ∃ record', q.records[i]? = some record' ∧
          record' = { record with state := record'.state } ∧ (record.Terminal → record' = record)) ∧
      (catalogSystem P).Run none (history tr) S.disk.payload? ∧ S.disk.payload? = (history tr).getLast? ∧
      (∀ p ∈ history tr, (p.records.map (·.checkpointId)).Nodup ∧
        (p.records.map fun record => P.fileNameKey record.checkpointFileName).Nodup) ∧
      ∀ (c : CatalogCall) key io generation r s p, S.disk.payload? = some p → c.Replays p →
        Ran (c.run P io key) ⟨generation, S.disk, []⟩ r s → s.written = [] ∨
          (∃ record ∈ p.records, record.Stale P S.disk) ∧ persisted s.written = [p.recovered P S.disk] := by
  have hrun := storeSystem_run hi hr
  refine ⟨?_, hrun, catalogSystem_last hrun, ?_, ?_⟩
  · refine (catalogSystem_precedes hrun).imp ?_
    intro p q hpq
    refine ⟨hpq.generation, fun i record hi => ?_⟩
    obtain ⟨record', hi', hev⟩ := hpq.kept i record hi
    exact ⟨record', hi', hev.facts, hev.terminal⟩
  · intro p hp
    have hvalid := catalogSystem_valid hrun p hp
    exact ⟨hvalid.ids, hvalid.fileNames⟩
  · intro c key io generation r s p hp hc hran
    exact (c.run_touched.of_ran hran).replays rfl hp hc

/-! ## A replay that writes -/

def exampleFacts : ArtifactFacts := ⟨exampleTag, 4096, "AC1032"⟩

def exampleRegistration (checkpointId checkpointFileName : String) : DurableCheckpointCatalog.Registration where
  checkpointId := checkpointId
  jobId := "job"
  documentId := "document"
  preRevision := "revision"
  originalPath := "part.dwg"
  checkpointFileName := checkpointFileName
  createdUtc := ⟨0, 0⟩

def exampleRecord (checkpointId checkpointFileName : String) (state : DurableCheckpointState) :
    DurableCheckpointRecord :=
  { (exampleRegistration checkpointId checkpointFileName).record exampleTag exampleFacts with state := state }

def examplePayload (records : List DurableCheckpointRecord) (generation : Int) : CatalogPayload :=
  ⟨currentCatalogSchema, generation, records⟩

/-- The root with these drawings staged in it. -/
def exampleDisk (payload : CatalogPayload) (names : List String) : Disk :=
  Disk.stored examplePrimitives exampleKey payload { artifacts := names.map fun name => (name, .dwg exampleFacts) }

def exampleStore (payload : CatalogPayload) (names : List String) : Store :=
  ⟨exampleDisk payload names, Function.update (fun _ => none) 0 (some ⟨exampleKey, payload.generation, false⟩)⟩

/-- The replacements of a call that persists `q` over `p`. -/
def exampleWritten (p q : CatalogPayload) (names : List String) : Written :=
  [(.catalog, (exampleDisk p names).half examplePrimitives exampleKey q), (.watermark, exampleDisk q names)]

theorem exampleStore_call {c : CatalogCall} {reply : CatalogReply} {p q : CatalogPayload} {names : List String}
    (h : Ran (c.run examplePrimitives .faultless exampleKey) ⟨p.generation, exampleDisk p names, []⟩ (.ok reply)
      ⟨q.generation, exampleDisk q names, exampleWritten p q names⟩) :
    Store.Step examplePrimitives (exampleStore p names) (.called 0 c (.ok reply) (exampleWritten p q names))
      (exampleStore q names) := by
  have hstep := Store.Step.called (S := exampleStore p names) (i := 0) rfl rfl h
  rw [exampleStore, Function.update_idem] at hstep
  exact hstep

theorem exampleStore_stage (p : CatalogPayload) (names names' : List String) :
    Store.Step examplePrimitives (exampleStore p names) .staged (exampleStore p names') := .staged

def emptyStore : Store := ⟨{}, fun _ => none⟩

theorem emptyStore_init : (storeSystem examplePrimitives).init emptyStore := ⟨rfl, rfl, fun _ => rfl⟩

def firstRegistered : CatalogPayload := examplePayload [exampleRecord "a" "a.dwg" .available] 1

def secondRegistered : CatalogPayload :=
  examplePayload [exampleRecord "a" "a.dwg" .available, exampleRecord "b" "b.dwg" .available] 2

def firstExpired : CatalogPayload :=
  examplePayload [exampleRecord "a" "a.dwg" .expired, exampleRecord "b" "b.dwg" .available] 3

def secondQuarantined : CatalogPayload :=
  examplePayload [exampleRecord "a" "a.dwg" .expired, exampleRecord "b" "b.dwg" .quarantined] 4

def exampleTrace : List StoreEvent :=
  [.opened 0 (.ok ()) createdSession.written, .staged,
    .called 0 (.registerCheckpoint (exampleRegistration "a" "a.dwg")) (.ok (.record (exampleRecord "a" "a.dwg" .available)))
      (exampleWritten DurableCheckpointCatalog.emptyCatalog firstRegistered ["a.dwg", "b.dwg"]),
    .called 0 (.registerCheckpoint (exampleRegistration "b" "b.dwg")) (.ok (.record (exampleRecord "b" "b.dwg" .available)))
      (exampleWritten firstRegistered secondRegistered ["a.dwg", "b.dwg"]),
    .called 0 (.expire "a") (.ok (.record (exampleRecord "a" "a.dwg" .expired)))
      (exampleWritten secondRegistered firstExpired ["a.dwg", "b.dwg"]),
    .staged]

/-- Two drawings are registered, the first one expires, and the second one disappears. -/
theorem exampleStore_run :
    (storeSystem examplePrimitives).Run emptyStore exampleTrace (exampleStore firstExpired ["a.dwg"]) := by
  have hopened : Store.Step examplePrimitives emptyStore (.opened 0 (.ok ()) createdSession.written)
      (exampleStore DurableCheckpointCatalog.emptyCatalog []) :=
    @Store.Step.opened _ _ _ exampleKey .faultless _ rfl createdSession_ran
  refine .cons hopened ?_
  refine .cons (exampleStore_stage _ _ ["a.dwg", "b.dwg"]) ?_
  refine .cons (exampleStore_call (.of_decide (by decide +kernel))) ?_
  refine .cons (exampleStore_call (.of_decide (by decide +kernel))) ?_
  refine .cons (exampleStore_call (.of_decide (by decide +kernel))) ?_
  exact .single (exampleStore_stage _ _ _)

/-- The second `Expire` of a checkpoint writes when another one has lost its artifact. -/
theorem replay_writes :
    (storeSystem examplePrimitives).init emptyStore ∧
      (storeSystem examplePrimitives).Run emptyStore exampleTrace (exampleStore firstExpired ["a.dwg"]) ∧
      (exampleStore firstExpired ["a.dwg"]).disk.payload? = some firstExpired ∧
      (CatalogCall.expire "a").Replays firstExpired ∧
      Store.Step examplePrimitives (exampleStore firstExpired ["a.dwg"])
        (.called 0 (.expire "a") (.ok (.record (exampleRecord "a" "a.dwg" .expired)))
          (exampleWritten firstExpired secondQuarantined ["a.dwg"])) (exampleStore secondQuarantined ["a.dwg"]) :=
  ⟨emptyStore_init, exampleStore_run, rfl, ⟨"a", .expired, rfl, _, .head _, rfl, rfl⟩,
    exampleStore_call (.of_decide (by decide +kernel))⟩

/-- Four catalogs are persisted in the run of the example. -/
theorem catalog_lifecycle_example :
    history exampleTrace = [DurableCheckpointCatalog.emptyCatalog, firstRegistered, secondRegistered, firstExpired] ∧
      (exampleStore firstExpired ["a.dwg"]).disk.payload? = (history exampleTrace).getLast? :=
  ⟨rfl, (catalog_lifecycle emptyStore_init exampleStore_run).2.2.1⟩

end CadHarness.Checkpoint
