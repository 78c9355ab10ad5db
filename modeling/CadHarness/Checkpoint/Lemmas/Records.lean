import CadHarness.Checkpoint.DurableCheckpointCatalog
import CadHarness.Lib.Post
import Mathlib.Data.List.Forall2
import Mathlib.Logic.Relation

/-!
# Records of the catalog

The life of a record, one mutation of the catalog, and what loading asks of a catalog and its artifacts.
-/

namespace CadHarness.Checkpoint
open CadHarness.Lib

/-! ## Lifecycle -/

/-- The changes of state that the catalog makes. -/
inductive DurableCheckpointState.Next : DurableCheckpointState → DurableCheckpointState → Prop
  | begin : Next .available .restoring
  | expire : Next .available .expired
  | complete : Next .restoring .consumed
  | cancel : Next .restoring .available
  | quarantineAvailable : Next .available .quarantined
  | quarantineRestoring : Next .restoring .quarantined

/-- What one mutation does to a record. -/
def DurableCheckpointRecord.Step (record record' : DurableCheckpointRecord) : Prop :=
  record' = record ∨ ∃ state, record.state.Next state ∧ record' = { record with state := state }

/-- What any number of mutations do to a record. -/
abbrev DurableCheckpointRecord.Evolves : DurableCheckpointRecord → DurableCheckpointRecord → Prop :=
  Relation.ReflTransGen DurableCheckpointRecord.Step

def DurableCheckpointRecord.Terminal (record : DurableCheckpointRecord) : Prop :=
  record.state = .consumed ∨ record.state = .quarantined ∨ record.state = .expired

variable {record record' : DurableCheckpointRecord}

theorem DurableCheckpointRecord.Terminal.not_active (h : record.Terminal) : ¬ record.Active := by
  unfold Active
  rcases h with h | h | h <;> simp [h]

theorem DurableCheckpointState.Next.active {state : DurableCheckpointState} (h : record.state.Next state) :
    record.Active := by
  unfold DurableCheckpointRecord.Active
  cases hs : record.state <;> rw [hs] at h <;> first | (cases h; done) | simp

theorem DurableCheckpointRecord.Step.active (h : record.Step record') (hne : record' ≠ record) :
    record.Active := by
  rcases h with rfl | ⟨state, hnext, -⟩
  · exact absurd rfl hne
  · exact hnext.active

/-- Nothing but the state of a record ever changes. -/
theorem DurableCheckpointRecord.Evolves.facts (h : record.Evolves record') :
    record' = { record with state := record'.state } := by
  induction h with
  | refl => rfl
  | tail _ hstep ih =>
      rcases hstep with rfl | ⟨state, -, rfl⟩
      · exact ih
      · rw [ih]

/-- A record in a terminal state stays as it is. -/
theorem DurableCheckpointRecord.Evolves.terminal (h : record.Evolves record') (ht : record.Terminal) :
    record' = record := by
  induction h with
  | refl => rfl
  | tail _ hstep ih =>
      subst ih
      by_contra hne
      exact ht.not_active (hstep.active hne)

/-! ## One mutation -/

/-- `q` is `p` after one mutation: a record more, or some records in another state. -/
inductive CatalogPayload.Next (p : CatalogPayload) : CatalogPayload → Prop
  | append (record : DurableCheckpointRecord) : record.state = .available →
      Next p { p with generation := p.generation + 1, records := p.records ++ [record] }
  | change {records : List DurableCheckpointRecord} : List.Forall₂ DurableCheckpointRecord.Step p.records records →
      Next p { p with generation := p.generation + 1, records }

theorem CatalogPayload.Next.generation {p q : CatalogPayload} (h : p.Next q) : q.generation = p.generation + 1 := by
  cases h <;> rfl

/-- Every record keeps its place in the catalog. -/
theorem CatalogPayload.Next.kept {p q : CatalogPayload} (h : p.Next q) {i : Nat} {record : DurableCheckpointRecord}
    (hi : p.records[i]? = some record) : ∃ record', q.records[i]? = some record' ∧ record.Step record' := by
  cases h with
  | append r _ =>
      refine ⟨record, ?_, .inl rfl⟩
      rw [List.getElem?_append_left (List.getElem?_eq_some_iff.mp hi).1, hi]
  | change hall =>
      obtain ⟨hlt, rfl⟩ := List.getElem?_eq_some_iff.mp hi
      have hlt' := hall.length_eq ▸ hlt
      exact ⟨_, List.getElem?_eq_getElem hlt', hall.get hlt hlt'⟩

/-! ## Validity -/

/-- A catalog that `ValidateCatalogStructure` accepts. -/
structure Valid (P : Primitives) (payload : CatalogPayload) : Prop where
  schema : payload.catalogSchema = currentCatalogSchema
  generation : 0 ≤ payload.generation
  size : payload.records.length ≤ maximumRecords
  loaded : ∀ record ∈ payload.records, isLoadedRecord record = true
  ids : (payload.records.map (·.checkpointId)).Nodup
  fileNames : (payload.records.map fun record => P.fileNameKey record.checkpointFileName).Nodup

variable {P : Primitives} {s : Session}

theorem validateRecords_post (ids fileNames : List String) (records : List DurableCheckpointRecord) :
    Post (validateRecords P ids fileNames records) s (fun r s' => s' = s ∧ (r = .ok () ↔
      (∀ record ∈ records, isLoadedRecord record = true) ∧
      (∀ record ∈ records, record.checkpointId ∉ ids ∧ P.fileNameKey record.checkpointFileName ∉ fileNames) ∧
      (records.map (·.checkpointId)).Nodup ∧
      (records.map fun record => P.fileNameKey record.checkpointFileName).Nodup)) := by
  induction records generalizing ids fileNames with
  | nil => simp [validateRecords]
  | cons record rest ih =>
      simp only [validateRecords, Post.bind, Post.ite, Post.throw]
      refine ⟨fun hbad => ⟨trivial, iff_of_false Post.not_ok fun h => ?_⟩,
        fun hload => ⟨fun hdup => ⟨trivial, iff_of_false Post.not_ok fun h => ?_⟩, fun hfresh => ?_⟩⟩
      · simp [h.1 record List.mem_cons_self] at hbad
      · obtain ⟨hid, hname⟩ := h.2.1 record List.mem_cons_self
        exact hdup.elim hid hname
      · refine (ih _ _).mono fun r s' h => h.imp_right fun hr => hr.trans ?_
        simp only [Bool.not_eq_true', Bool.not_eq_false] at hload
        simp only [List.mem_cons, not_or, forall_eq_or_imp, hload, true_and, List.map_cons, List.nodup_cons,
          List.mem_map, not_exists, not_and]
        grind

theorem validateCatalogStructure_post (payload : CatalogPayload) :
    Post (validateCatalogStructure P payload) s (fun r s' => s' = s ∧ (r = .ok () ↔ Valid P payload)) := by
  simp only [validateCatalogStructure, Post.bind, Post.ite, Post.throw]
  refine ⟨fun hbad => ⟨trivial, iff_of_false Post.not_ok fun h => ?_⟩, fun hgood => ?_⟩
  · rcases hbad with h' | h' | h'
    · exact h' h.schema
    · exact absurd h.generation (not_le.mpr h')
    · exact absurd h.size (not_le.mpr h')
  · simp only [not_or, not_not, not_lt] at hgood
    refine (validateRecords_post [] [] payload.records).mono fun r s' h => h.imp_right fun hr => hr.trans ?_
    constructor
    · rintro ⟨hloaded, -, hids, hnames⟩
      exact ⟨hgood.1, hgood.2.1, hgood.2.2, hloaded, hids, hnames⟩
    · intro h
      exact ⟨h.loaded, by simp, h.ids, h.fileNames⟩

/-! ## Artifacts -/

/-- The artifact is there as it was when it was registered. -/
def DurableCheckpointRecord.Matches (P : Primitives) (disk : Disk) (record : DurableCheckpointRecord) : Prop :=
  ∃ facts, disk.artifact? P record.checkpointFileName = some (.dwg facts) ∧
    facts.byteLength = record.byteLength ∧ facts.sha256 = record.sha256 ∧ facts.dwgVersion = record.dwgVersion

/-- No active record is left without its artifact. -/
def Clean (P : Primitives) (disk : Disk) (payload : CatalogPayload) : Prop :=
  ∀ record ∈ payload.records, record.Active → record.Matches P disk

/-- The artifact of the record is something else than a drawing, which no load survives. -/
def DurableCheckpointRecord.Corrupt (P : Primitives) (disk : Disk) (record : DurableCheckpointRecord) : Prop :=
  record.Active ∧ disk.artifact? P record.checkpointFileName = some .notDwg

/-- An active record whose artifact is gone or changed. -/
def DurableCheckpointRecord.Stale (P : Primitives) (disk : Disk) (record : DurableCheckpointRecord) : Prop :=
  record.Active ∧ ¬ record.Matches P disk

open Classical in
/-- Loading quarantines a stale record. -/
noncomputable def DurableCheckpointRecord.recovered (P : Primitives) (disk : Disk)
    (record : DurableCheckpointRecord) : DurableCheckpointRecord :=
  if record.Stale P disk then { record with state := .quarantined } else record

theorem DurableCheckpointRecord.recovered_of_stale {disk : Disk} {stale : Bool}
    (h : stale = true ↔ record.Stale P disk) :
    record.recovered P disk = if stale then { record with state := .quarantined } else record := by
  unfold recovered
  cases stale with
  | true => rw [if_pos (h.mp rfl), if_pos rfl]
  | false => rw [if_neg (fun hs => Bool.false_ne_true (h.mpr hs)), if_neg Bool.false_ne_true]

/-- The catalog that loading goes on with when some record is stale. -/
noncomputable def CatalogPayload.recovered (P : Primitives) (disk : Disk) (payload : CatalogPayload) :
    CatalogPayload :=
  { payload with
    generation := payload.generation + 1
    records := payload.records.map (·.recovered P disk) }

theorem artifactMatches_post (record : DurableCheckpointRecord) :
    Post (artifactMatches P record) s (fun r s' => s' = s ∧
      ((r = .ok true ∧ record.Matches P s.disk) ∨ (r = .ok false ∧ ¬ record.Matches P s.disk ∧
          s.disk.artifact? P record.checkpointFileName ≠ some .notDwg) ∨
        (∃ e, r = .error e) ∧ s.disk.artifact? P record.checkpointFileName = some .notDwg)) := by
  unfold artifactMatches readArtifactFacts DurableCheckpointRecord.Matches
  simp only [Post.tryCatch, Post.bind, Post.get]
  cases s.disk.artifact? P record.checkpointFileName with
  | none => simp
  | some artifact =>
      cases artifact with
      | unreadable => simp
      | notDwg => simp
      | dwg facts =>
          simp
          tauto

theorem isStale_post (record : DurableCheckpointRecord) :
    Post (isStale P record) s (fun r s' => s' = s ∧
      ((∃ e, r = .error e) ∧ record.Corrupt P s.disk ∨
        ∃ stale, r = .ok stale ∧ ¬ record.Corrupt P s.disk ∧ (stale = true ↔ record.Stale P s.disk))) := by
  simp only [isStale, Post.ite, Post.map, Post.pure]
  constructor
  · intro hactive
    refine (artifactMatches_post record).mono fun r s' hr => hr.imp_right fun h => ?_
    rcases h with ⟨rfl, hm⟩ | ⟨rfl, hm, hd⟩ | ⟨⟨e, rfl⟩, hd⟩
    · refine .inr ⟨false, rfl, fun hc => ?_, by simp [DurableCheckpointRecord.Stale, hm]⟩
      obtain ⟨facts, hf, -⟩ := hm
      cases hc.2.symm.trans hf
    · exact .inr ⟨true, rfl, fun hc => hd hc.2, by simp [DurableCheckpointRecord.Stale, hactive, hm]⟩
    · exact .inl ⟨⟨e, rfl⟩, hactive, hd⟩
  · intro hinactive
    exact ⟨trivial, .inr ⟨false, rfl, fun hc => hinactive hc.1, by simp [DurableCheckpointRecord.Stale, hinactive]⟩⟩

theorem recoverRecords_post (records : List DurableCheckpointRecord) :
    Post (recoverRecords P records) s (fun r s' => s' = s ∧
      ((∃ e, r = .error e) ∧ (∃ record ∈ records, record.Corrupt P s.disk) ∨
        ∃ recovered, r = .ok (records.map (·.recovered P s.disk), recovered) ∧
          (∀ record ∈ records, ¬ record.Corrupt P s.disk) ∧
          (recovered = true ↔ ∃ record ∈ records, record.Stale P s.disk))) := by
  induction records with
  | nil => simp [recoverRecords]
  | cons record rest ih =>
      rw [recoverRecords]
      refine (isStale_post record).seq ?_ ?_
      · rintro stale _ ⟨rfl, ⟨⟨e, he⟩, -⟩ | ⟨_, he, hc, hstale⟩⟩ <;> cases he
        refine ih.seq ?_ ?_
        · rintro _ _ ⟨rfl, ⟨⟨e, he⟩, -⟩ | ⟨recovered, he, hcs, hrec⟩⟩ <;> cases he
          refine ⟨rfl, .inr ⟨stale || recovered, ?_, by simpa using ⟨hc, hcs⟩, by simp [hstale, hrec]⟩⟩
          rw [List.map_cons, DurableCheckpointRecord.recovered_of_stale hstale]
        · rintro e _ ⟨rfl, ⟨-, bad, hbad, hc'⟩ | ⟨_, he, -⟩⟩
          · exact ⟨rfl, .inl ⟨⟨e, rfl⟩, bad, List.mem_cons_of_mem _ hbad, hc'⟩⟩
          · cases he
      · rintro e _ ⟨rfl, ⟨-, hc⟩ | ⟨_, he, -⟩⟩
        · exact ⟨rfl, .inl ⟨⟨e, rfl⟩, record, List.mem_cons_self, hc⟩⟩
        · cases he

end CadHarness.Checkpoint
