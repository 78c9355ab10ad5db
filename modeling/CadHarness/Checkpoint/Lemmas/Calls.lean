import CadHarness.Checkpoint.CatalogStore
import CadHarness.Checkpoint.Lemmas.Methods

/-!
# What a call does to the files

A call replaces nothing, persists the catalog that its load has recovered, persists its own mutation, or the
one after the other.
-/

namespace CadHarness.Checkpoint
open CadHarness.Lib

variable {P : Primitives} {key : Key} {io : Io} {s : Session}

/-- The mutation of a call on a loaded catalog. -/
structure Mutates (P : Primitives) (disk : Disk) (outcome : Option (String × DurableCheckpointState))
    (p q : CatalogPayload) : Prop where
  generation : q.generation ≤ maximumGeneration
  next : Valid P p → p.Next q
  clean : Clean P disk p → Clean P disk q
  changes : ∀ id state, outcome = some (id, state) →
    ∃ current ∈ p.records, current.checkpointId = id ∧ current.state.Next state

/-- The sessions agree on the files. -/
def Session.SameFiles (s t : Session) : Prop := t.disk = s.disk ∧ t.written = s.written

/-- A checkpoint is staged. -/
def Disk.HasDwg (P : Primitives) (disk : Disk) : Prop :=
  (disk.artifacts.any fun file => (P.fileNameKey ".dwg").toList.isSuffixOf (P.fileNameKey file.1).toList) = true

/-- What a call may do to the files. -/
inductive Touched (P : Primitives) (key : Key) (outcome : Option (String × DurableCheckpointState)) (s : Session) :
    Session → Prop
  | nothing {s' : Session} : s.SameFiles s' → Touched P key outcome s s'
  | recovered {p : CatalogPayload} {r : Except Exception Unit} {t s' : Session} : Verified P key s.disk p →
      (∀ record ∈ p.records, ¬ record.Corrupt P s.disk) → (∃ record ∈ p.records, record.Stale P s.disk) →
      p.generation + 1 ≤ maximumGeneration → Persisted P key (p.recovered P s.disk) s r t → t.SameFiles s' →
      Touched P key outcome s s'
  | mutated {p q : CatalogPayload} {r : Except Exception Unit} {u t s' : Session} : Verified P key s.disk p →
      Clean P s.disk p → Mutates P s.disk outcome p q → s.SameFiles u → Persisted P key q u r t →
      t.SameFiles s' → Touched P key outcome s s'
  | recoveredMutated {p q : CatalogPayload} {r : Except Exception Unit} {u t s' : Session} : Verified P key s.disk p →
      (∀ record ∈ p.records, ¬ record.Corrupt P s.disk) → (∃ record ∈ p.records, record.Stale P s.disk) →
      p.generation + 1 ≤ maximumGeneration → Storable P key (p.recovered P s.disk) →
      Mutates P s.disk outcome (p.recovered P s.disk) q →
      (s.wroteBoth P key (p.recovered P s.disk)).SameFiles u → Persisted P key q u r t → t.SameFiles s' →
      Touched P key outcome s s'
  | created {r : Except Exception Unit} {t s' : Session} : s.disk.catalog = none → s.disk.watermark = none →
      ¬ s.disk.HasDwg P → Persisted P key DurableCheckpointCatalog.emptyCatalog s r t → t.SameFiles s' → Touched P key outcome s s'

variable {s' t : Session} {outcome : Option (String × DurableCheckpointState)}

theorem Session.SameFiles.refl (s : Session) : s.SameFiles s := ⟨rfl, rfl⟩

theorem Session.SameFiles.observed (s : Session) (generation : Int) : s.SameFiles (s.observed generation) := ⟨rfl, rfl⟩

theorem Session.SameFiles.trans {u : Session} (h : s.SameFiles t) (h' : t.SameFiles u) : s.SameFiles u :=
  ⟨h'.1.trans h.1, h'.2.trans h.2⟩

theorem Touched.trans (h : Touched P key outcome s s') (h' : s'.SameFiles t) : Touched P key outcome s t := by
  cases h with
  | nothing hsame => exact .nothing (hsame.trans h')
  | recovered hv hc hs hg hp hsame => exact .recovered hv hc hs hg hp (hsame.trans h')
  | mutated hv hcl hm hu hp hsame => exact .mutated hv hcl hm hu hp (hsame.trans h')
  | recoveredMutated hv hc hs hg hst hm hu hp hsame =>
      exact .recoveredMutated hv hc hs hg hst hm hu hp (hsame.trans h')
  | created hc hw hd hp hsame => exact .created hc hw hd hp (hsame.trans h')

/-- What a loaded catalog went through before it was handed on. -/
theorem Loaded.touched {r : Except Exception CatalogPayload} (h : Loaded P key s r s') :
    Touched P key outcome s s' := by
  cases h with
  | refused => exact .nothing (.refl _)
  | clean _ _ _ => exact .nothing (.observed _ _)
  | @recovered _ r _ hv _ hc hs hg hp =>
      cases r with
      | ok _ => exact .recovered hv hc hs hg hp (.observed _ _)
      | error _ => exact .recovered hv hc hs hg hp (.refl _)

theorem recovered_clean {p : CatalogPayload} {disk : Disk} : Clean P disk (p.recovered P disk) := by
  intro record hr hactive
  obtain ⟨old, hold, rfl⟩ := List.mem_map.mp hr
  by_cases hs : old.Stale P disk
  · rw [DurableCheckpointRecord.recovered, if_pos hs] at hactive
    rcases hactive with h | h <;> cases h
  · rw [DurableCheckpointRecord.recovered, if_neg hs] at hactive ⊢
    by_contra hm
    exact hs ⟨hactive, hm⟩

/-- What a method does to the files whose action has the effect of a call. -/
theorem Persisted.sameFiles_observed {q : CatalogPayload} {r : Except Exception Unit} (u : Session) :
    u.SameFiles (match r with
      | .ok _ => u.observed q.generation
      | .error _ => u) := by
  cases r with
  | ok _ => exact .observed _ _
  | error _ => exact .refl _

theorem Freshened.touched {α : Type} {r : Except Exception α}
    {A : CatalogPayload → Session → Except Exception (MutationResult α) → Prop} (h : Freshened P key A s r s')
    (hA : ∀ p u m, A p u (.ok m) → m.shouldPersist = true → Mutates P u.disk outcome p m.catalog) :
    Touched P key outcome s s' := by
  cases h with
  | unloaded hl => exact hl.touched
  | refused hl _ => exact hl.touched
  | kept hl _ _ => exact hl.touched.trans (.observed _ _)
  | @persisted p m r t u hl ha hpers hp =>
      have hmut := hA p t m ha hpers
      generalize hr : (Except.ok p : Except Exception CatalogPayload) = x at hl
      cases hl with
      | refused => cases hr
      | clean hv _ hclean =>
          cases hr
          exact .mutated hv hclean ⟨hmut.generation, hmut.next, hmut.clean, hmut.changes⟩ (.observed _ _) hp
            (Persisted.sameFiles_observed _)
      | @recovered _ x _ hv _ hc hs hg hpr =>
          cases x with
          | error e => cases hr
          | ok _ =>
              cases hr
              cases hpr with
              | both hst =>
                  exact .recoveredMutated hv hc hs hg hst
                    ⟨hmut.generation, hmut.next, hmut.clean, hmut.changes⟩ (.observed _ _) hp
                    (Persisted.sameFiles_observed _)

/-! ## The calls -/

namespace DurableCheckpointCatalog

theorem changeState_touched {checkpointId message : String} {required : List DurableCheckpointState}
    {nextState : DurableCheckpointState} (hnext : ∀ state ∈ required, state.Next nextState) :
    Post (withFreshCatalog P io key (changeState checkpointId required nextState message)) s
      (fun _ s' => Touched P key (some (checkpointId, nextState)) s s') := by
  refine (withFreshCatalog_post (fun p u => changeState_post (P := P) hnext) ?_).mono fun r s' h => h.touched ?_
  · intro p u m h hp
    obtain ⟨heffect, -⟩ := h m rfl
    rcases heffect with ⟨hk, -⟩ | ⟨-, hg, -⟩
    · cases hk.symm.trans hp
    · exact hg
  · intro p u m h hp
    obtain ⟨heffect, current, hmem, hid, -, -, hreq⟩ := h m rfl
    rcases heffect with ⟨hk, -⟩ | ⟨-, hg, hn, hc⟩
    · cases hk.symm.trans hp
    · refine ⟨hg, hn, hc, ?_⟩
      rintro id state hout
      cases hout
      exact ⟨current, hmem, hid, hnext _ (hreq hp).1⟩

theorem register_touched {r : Registration} {originalPathHash : String} :
    Post (withFreshCatalog P io key (register P r originalPathHash)) s (fun _ s' => Touched P key none s s') := by
  refine (withFreshCatalog_post (fun p u => register_post (P := P)) ?_).mono fun x s' h => h.touched ?_
  · intro p u m h hp
    rcases h m rfl with ⟨hk, -⟩ | ⟨-, hg, -⟩
    · cases hk.symm.trans hp
    · exact hg
  · intro p u m h hp
    rcases h m rfl with ⟨hk, -⟩ | ⟨-, hg, hn, hc⟩
    · cases hk.symm.trans hp
    · exact ⟨hg, hn, hc, nofun⟩

/-- A method that only looks at the catalog. -/
theorem noWrite_touched {α : Type} (read : CatalogPayload → CatalogM α)
    (hread : ∀ p u, Post (read p) u (fun _ u' => u' = u)) :
    Post (withFreshCatalog P io key fun p => return .noWrite (← read p) p) s
      (fun _ s' => Touched P key none s s') := by
  have hA : ∀ p u, Post (do return .noWrite (← read p) p : CatalogM (MutationResult α)) u
      (fun x u' => u' = u ∧ ∀ m, x = .ok m → m.shouldPersist = false) := by
    intro p u
    refine (hread p u).seq ?_ ?_
    · rintro a _ rfl
      refine ⟨rfl, fun m hm => ?_⟩
      cases hm
      rfl
    · rintro e _ rfl
      exact ⟨rfl, fun _ => Post.not_ok⟩
  refine (withFreshCatalog_post hA ?_).mono fun x s' h => h.touched ?_
  · intro p u m h hp
    cases (h m rfl).symm.trans hp
  · intro p u m h hp
    cases (h m rfl).symm.trans hp

theorem validate_touched {α : Type} {ok : Prop} [Decidable ok] {e : Exception} {m : CatalogM α}
    (h : Post m s (fun _ s' => Touched P key outcome s s')) :
    Post (do (if ok then pure () else throw e : CatalogM Unit); m) s (fun _ s' => Touched P key outcome s s') := by
  rw [Post.bind, Post.ite]
  exact ⟨fun _ => h, fun _ => .nothing (.refl _)⟩

end DurableCheckpointCatalog

/-- What a call does to the files. -/
theorem CatalogCall.run_touched (c : CatalogCall) :
    Post (c.run P io key) s (fun _ s' => Touched P key c.outcome? s s') := by
  open DurableCheckpointCatalog in
  cases c with
  | registerCheckpoint r =>
      refine Post.map.mpr ?_
      iterate 5 refine validate_touched ?_
      refine Post.guard.mpr ⟨fun _ => .nothing (.refl _), fun _ => ?_⟩
      split
      · exact .nothing (.refl _)
      · exact register_touched
  | getRequired id =>
      exact Post.map.mpr (validate_touched (noWrite_touched (requireRecord · id) fun p u =>
        (requireRecord_post p id).mono fun _ _ h => h.1))
  | snapshot => exact Post.map.mpr (noWrite_touched (fun p => pure _) fun p u => rfl)
  | beginRestore id => exact Post.map.mpr (validate_touched (changeState_touched (by simp [DurableCheckpointState.Next.begin])))
  | complete id => exact Post.map.mpr (validate_touched (changeState_touched (by simp [DurableCheckpointState.Next.complete])))
  | cancelBeforeReplacement id =>
      exact Post.map.mpr (validate_touched (changeState_touched (by simp [DurableCheckpointState.Next.cancel])))
  | quarantine id =>
      exact Post.map.mpr (changeState_touched (by
        simp [DurableCheckpointState.Next.quarantineAvailable, DurableCheckpointState.Next.quarantineRestoring]))
  | expire id => exact Post.map.mpr (validate_touched (changeState_touched (by simp [DurableCheckpointState.Next.expire])))

/-- What the constructor does to the files. -/
theorem DurableCheckpointCatalog.new_touched :
    Post (new P io key) s (fun _ s' => Touched P key none s s') := by
  refine Post.guard.mpr ⟨fun _ => .nothing (.refl _), fun _ => ?_⟩
  refine Post.guard.mpr ⟨fun _ => .nothing (.refl _), fun _ => ?_⟩
  rw [acquireInterprocessLock, Post.bind, Post.ite]
  refine ⟨fun _ => ?_, fun _ => .nothing (.refl _)⟩
  rw [Post.pure]
  dsimp only
  rw [Post.bind, Post.get]
  refine Post.guard.mpr ⟨fun _ => .nothing (.refl _), fun hpair => ?_⟩
  refine Post.ite.mpr ⟨fun _ => ?_, fun hnone => ?_⟩
  · refine loadAndRecoverUnderLock_post.seq ?_ ?_
    · intro p s' hl
      exact hl.touched.trans (.observed _ _)
    · intro e s' hl
      exact hl.touched
  · refine Post.guard.mpr ⟨fun _ => .nothing (.refl _), fun hdwg => ?_⟩
    have hcatalog : s.disk.catalog = none := by simpa using hnone
    have hwatermark : s.disk.watermark = none := by
      rw [not_not, hcatalog] at hpair
      simpa using hpair.symm
    refine (persistUnderLock_post (by decide)).seq ?_ ?_
    · intro _ s' hp
      exact .created hcatalog hwatermark hdwg hp (.observed _ _)
    · intro e s' hp
      exact .created hcatalog hwatermark hdwg hp (.refl _)

/-- When the constructor succeeds. -/
theorem DurableCheckpointCatalog.new_ok :
    Post (new P io key) s (fun r _ => r = .ok () → s.disk.catalog.isSome = s.disk.watermark.isSome ∧
      (s.disk.catalog.isSome = true → ∃ p, Verified P key s.disk p)) := by
  refine Post.guard.mpr ⟨fun _ => Post.not_ok, fun _ => ?_⟩
  refine Post.guard.mpr ⟨fun _ => Post.not_ok, fun _ => ?_⟩
  rw [acquireInterprocessLock, Post.bind, Post.ite]
  refine ⟨fun _ => ?_, fun _ => Post.not_ok⟩
  rw [Post.pure]
  dsimp only
  rw [Post.bind, Post.get]
  refine Post.guard.mpr ⟨fun _ => Post.not_ok, fun hpair => ?_⟩
  have hpair := not_not.mp hpair
  refine Post.ite.mpr ⟨fun _ => ?_, fun hnone => ?_⟩
  · refine loadAndRecoverUnderLock_post.seq ?_ fun _ _ _ => Post.not_ok
    intro p s' hl _
    refine ⟨hpair, fun _ => ?_⟩
    generalize hr : (Except.ok p : Except Exception CatalogPayload) = x at hl
    cases hl with
    | refused => cases hr
    | clean hv _ _ => exact ⟨_, hv⟩
    | recovered hv _ _ _ _ _ => exact ⟨_, hv⟩
  · refine Post.guard.mpr ⟨fun _ => Post.not_ok, fun _ => ?_⟩
    refine (persistUnderLock_post (by decide)).seq ?_ fun _ _ _ => Post.not_ok
    exact fun _ _ _ _ => ⟨hpair, fun hsome => absurd hsome hnone⟩

end CadHarness.Checkpoint
