import CadHarness.Lib.SortBy
import Mathlib.Algebra.Order.Ring.Nat
import Mathlib.Data.Prod.Lex
import Mathlib.Data.String.Basic

/-!
# What retention keeps

The artifacts fall into those that are expired, those that leave for the quota, and those that are kept. The last two
are the unexpired ones in the order of their age, so the laws are about where that list is cut.
-/

/-!
## Retention of artifacts

`cad_harness.security.retention`. Artifacts that are too old are deleted, and of the others the oldest until the rest
is within the quota.
-/

namespace CadHarness.Security
open CadHarness.Lib

/-- An instant in UTC, in microseconds. -/
abbrev Instant := Int

@[ext] structure RetentionArtifact where
  id : String
  artifactRef : String
  createdAt : Instant
  byteSize : Nat
deriving DecidableEq

structure RetentionPolicy where
  maxAgeDays : Nat
  maxTotalBytes : Nat
  maxAgeDays_pos : 0 < maxAgeDays

abbrev ArtifactKey := Instant ×ₗ String ×ₗ String ×ₗ Nat

/-- `_artifact_order` -/
def artifactOrder (artifact : RetentionArtifact) : ArtifactKey :=
  toLex (artifact.createdAt, toLex (artifact.id, toLex (artifact.artifactRef, artifact.byteSize)))

def microsecondsPerDay : Int := 24 * 60 * 60 * 1000000

/-- `_is_expired`: an age is taken apart into days, seconds and microseconds. -/
def isExpired (artifact : RetentionArtifact) (now : Instant) (maxAgeDays : Nat) : Bool :=
  let age := now - artifact.createdAt
  let days := age / microsecondsPerDay
  let seconds := age % microsecondsPerDay / 1000000
  let microseconds := age % microsecondsPerDay % 1000000
  days > maxAgeDays || (days = maxAgeDays && (seconds > 0 || microseconds > 0))

def totalBytes (artifacts : List RetentionArtifact) : Nat := (artifacts.map RetentionArtifact.byteSize).sum

/-- The artifacts that leave until the bytes that remain are within the quota. -/
def quotaEvictions (maxTotalBytes : Nat) : List RetentionArtifact → Nat → List RetentionArtifact
  | [], _ => []
  | artifact :: rest, remainingBytes =>
      if remainingBytes ≤ maxTotalBytes then []
      else artifact :: quotaEvictions maxTotalBytes rest (remainingBytes - artifact.byteSize)

/-- `select_artifacts_for_deletion` -/
def selectArtifactsForDeletion (artifacts : List RetentionArtifact) (policy : RetentionPolicy) (now : Instant) :
    List RetentionArtifact :=
  let ordered := sortBy artifactOrder artifacts
  let expired := ordered.filter fun artifact => isExpired artifact now policy.maxAgeDays
  let remaining := ordered.filter fun artifact => !isExpired artifact now policy.maxAgeDays
  sortBy artifactOrder (expired ++ quotaEvictions policy.maxTotalBytes remaining (totalBytes remaining))

end CadHarness.Security

namespace CadHarness.Security
open CadHarness.Lib

/-! ## Ages -/

theorem age_over {age : Int} {days : Nat} : age / 86400000000 > days ∨ age / 86400000000 = days ∧
    (age % 86400000000 / 1000000 > 0 ∨ age % 86400000000 % 1000000 > 0) ↔ days * 86400000000 < age := by
  omega

/-- An artifact is expired when it is older than the days, to the microsecond. -/
theorem isExpired_iff {artifact : RetentionArtifact} {now : Instant} {maxAgeDays : Nat} :
    isExpired artifact now maxAgeDays = true ↔ maxAgeDays * microsecondsPerDay < now - artifact.createdAt := by
  unfold isExpired
  dsimp only
  rw [show microsecondsPerDay = 86400000000 from rfl, Bool.or_eq_true, Bool.and_eq_true, Bool.or_eq_true, decide_eq_true_eq, decide_eq_true_eq, decide_eq_true_eq,
    decide_eq_true_eq]
  exact age_over

/-! ## The order -/

theorem artifactOrder_injective : Function.Injective artifactOrder := by
  intro a b h
  simp only [artifactOrder, EmbeddingLike.apply_eq_iff_eq, Prod.mk.injEq] at h
  obtain ⟨hcreated, hid, href, hsize⟩ := h
  exact RetentionArtifact.ext hid href hcreated hsize

theorem createdAt_le {a b : RetentionArtifact} (h : artifactOrder a ≤ artifactOrder b) : a.createdAt ≤ b.createdAt := by
  rw [artifactOrder, artifactOrder, Prod.Lex.toLex_le_toLex] at h
  rcases h with h | h
  · exact h.le
  · exact h.1.le

/-- The order tells all artifacts apart, so their order before does not matter. -/
theorem sortBy_artifactOrder_congr {artifacts artifacts' : List RetentionArtifact} (h : artifacts.Perm artifacts') :
    sortBy artifactOrder artifacts = sortBy artifactOrder artifacts' := by
  refine List.Perm.eq_of_pairwise (fun a b _ _ hab hba => artifactOrder_injective (le_antisymm hab hba))
    (pairwise_sortBy _ _) (pairwise_sortBy _ _) ?_
  exact (sortBy_perm _ _).trans (h.trans (sortBy_perm _ _).symm)

/-! ## The quota -/

@[simp] theorem totalBytes_append (first second : List RetentionArtifact) :
    totalBytes (first ++ second) = totalBytes first + totalBytes second := by
  simp [totalBytes]

theorem totalBytes_cons (artifact : RetentionArtifact) (rest : List RetentionArtifact) :
    totalBytes (artifact :: rest) = artifact.byteSize + totalBytes rest := by
  simp [totalBytes]

theorem totalBytes_perm {artifacts artifacts' : List RetentionArtifact} (h : artifacts.Perm artifacts') :
    totalBytes artifacts = totalBytes artifacts' := (h.map _).sum_nat

/-- Evictions are taken from the front. What they leave is within the quota, and the last of them was needed. -/
theorem quotaEvictions_spec (maxTotalBytes : Nat) (remaining : List RetentionArtifact) :
    ∃ kept, remaining = quotaEvictions maxTotalBytes remaining (totalBytes remaining) ++ kept ∧
      totalBytes kept ≤ maxTotalBytes ∧
      ∀ last, (quotaEvictions maxTotalBytes remaining (totalBytes remaining)).getLast? = some last →
        maxTotalBytes < totalBytes kept + last.byteSize := by
  induction remaining with
  | nil => exact ⟨[], rfl, Nat.zero_le _, by simp [quotaEvictions]⟩
  | cons artifact rest ih =>
      rw [quotaEvictions]
      split
      · next hwithin => exact ⟨artifact :: rest, rfl, hwithin, by simp⟩
      · next hover =>
        rw [totalBytes_cons, Nat.add_sub_cancel_left] at *
        obtain ⟨kept, hsplit, hwithin, hlast⟩ := ih
        refine ⟨kept, congrArg (artifact :: ·) hsplit, hwithin, ?_⟩
        intro last h
        rw [List.getLast?_cons] at h
        cases hrest : (quotaEvictions maxTotalBytes rest (totalBytes rest)).getLast? with
        | some last' =>
            rw [hrest] at h
            cases h
            exact hlast last' hrest
        | none =>
            rw [hrest] at h
            obtain rfl : artifact = last := by simpa using h
            rw [List.getLast?_eq_none_iff] at hrest
            rw [hrest, List.nil_append] at hsplit
            rw [hsplit] at hover
            omega

/-! ## What is kept -/

/-- The artifacts that are left when the selected ones are deleted. -/
def survivors (artifacts : List RetentionArtifact) (policy : RetentionPolicy) (now : Instant) : List RetentionArtifact :=
  artifacts.diff (selectArtifactsForDeletion artifacts policy now)

section Selection

variable (artifacts : List RetentionArtifact) (policy : RetentionPolicy) (now : Instant)

/-- The artifacts that are young enough, the oldest first. -/
def unexpired : List RetentionArtifact :=
  (sortBy artifactOrder artifacts).filter fun artifact => !isExpired artifact now policy.maxAgeDays

/-- The unexpired artifacts that leave for the quota. -/
def evicted : List RetentionArtifact :=
  quotaEvictions policy.maxTotalBytes (unexpired artifacts policy now) (totalBytes (unexpired artifacts policy now))

theorem selected_perm : (selectArtifactsForDeletion artifacts policy now).Perm
    ((sortBy artifactOrder artifacts).filter (fun artifact => isExpired artifact now policy.maxAgeDays) ++
      evicted artifacts policy now) :=
  sortBy_perm _ _

theorem append_diff_self (selected kept : List RetentionArtifact) : (selected ++ kept).diff selected = kept := by
  induction selected with
  | nil => rfl
  | cons artifact rest ih => rw [List.cons_append, List.diff_cons, List.erase_cons_head, ih]

/-- The survivors are the unexpired artifacts after the evicted ones. -/
theorem exists_survivors : ∃ kept, (survivors artifacts policy now).Perm kept ∧
    unexpired artifacts policy now = evicted artifacts policy now ++ kept ∧ totalBytes kept ≤ policy.maxTotalBytes ∧
      ∀ last, (evicted artifacts policy now).getLast? = some last → policy.maxTotalBytes < totalBytes kept + last.byteSize := by
  obtain ⟨kept, hsplit, hwithin, hlast⟩ := quotaEvictions_spec policy.maxTotalBytes (unexpired artifacts policy now)
  refine ⟨kept, ?_, hsplit, hwithin, hlast⟩
  have hall : (selectArtifactsForDeletion artifacts policy now ++ kept).Perm artifacts := by
    have hfilter := List.filter_append_perm (fun artifact => isExpired artifact now policy.maxAgeDays)
      (sortBy artifactOrder artifacts)
    refine ((selected_perm artifacts policy now).append_right kept).trans ?_
    rw [List.append_assoc, evicted, ← hsplit]
    exact hfilter.trans (sortBy_perm _ _)
  exact (hall.symm.diff_right _).trans (by rw [append_diff_self])

variable {artifacts policy now}

theorem mem_unexpired {artifact : RetentionArtifact} : artifact ∈ unexpired artifacts policy now ↔
    artifact ∈ artifacts ∧ isExpired artifact now policy.maxAgeDays = false := by
  simp [unexpired]

/-- A selected artifact that is not expired left for the quota. -/
theorem mem_evicted {artifact : RetentionArtifact} (h : artifact ∈ selectArtifactsForDeletion artifacts policy now)
    (hyoung : isExpired artifact now policy.maxAgeDays = false) : artifact ∈ evicted artifacts policy now := by
  rw [(selected_perm artifacts policy now).mem_iff, List.mem_append, List.mem_filter] at h
  rcases h with ⟨-, hexpired⟩ | h
  · rw [hyoung] at hexpired
    cases hexpired
  · exact h

theorem evicted_subset {kept : List RetentionArtifact}
    (hsplit : unexpired artifacts policy now = evicted artifacts policy now ++ kept) {artifact : RetentionArtifact}
    (h : artifact ∈ evicted artifacts policy now) : artifact ∈ selectArtifactsForDeletion artifacts policy now ∧
      isExpired artifact now policy.maxAgeDays = false := by
  refine ⟨(selected_perm artifacts policy now).mem_iff.mpr (List.mem_append_right _ h), ?_⟩
  exact (mem_unexpired.mp (hsplit ▸ List.mem_append_left _ h)).2

theorem unexpired_sorted : (unexpired artifacts policy now).Pairwise fun a b => artifactOrder a ≤ artifactOrder b :=
  (pairwise_sortBy artifactOrder artifacts).filter _

/-- Nothing is selected from unexpired artifacts within the quota. -/
theorem select_eq_nil (hyoung : ∀ artifact ∈ artifacts, isExpired artifact now policy.maxAgeDays = false)
    (hwithin : totalBytes artifacts ≤ policy.maxTotalBytes) : selectArtifactsForDeletion artifacts policy now = [] := by
  have hall : unexpired artifacts policy now = sortBy artifactOrder artifacts :=
    List.filter_eq_self.mpr fun artifact h => by rw [hyoung artifact ((mem_sortBy _).mp h)]; rfl
  have hnone : (sortBy artifactOrder artifacts).filter (fun artifact => isExpired artifact now policy.maxAgeDays) = [] :=
    List.filter_eq_nil_iff.mpr fun artifact h => by simp [hyoung artifact ((mem_sortBy _).mp h)]
  have hevicted : evicted artifacts policy now = [] := by
    rw [evicted, hall, totalBytes_perm (sortBy_perm artifactOrder artifacts)]
    cases hsorted : sortBy artifactOrder artifacts with
    | nil => rfl
    | cons artifact rest => rw [quotaEvictions, if_pos hwithin]
  have hperm := selected_perm artifacts policy now
  rw [hnone, hevicted] at hperm
  exact List.Perm.eq_nil hperm

end Selection

/-! ## Main result -/

/-- What is kept is unexpired and within the quota. Unexpired artifacts leave from the oldest, and only as many as the
quota needs. The selection does not depend on the order of the artifacts, and nothing is selected from what is kept. -/
theorem select_retains (artifacts : List RetentionArtifact) (policy : RetentionPolicy) (now : Instant) :
    (∀ kept ∈ survivors artifacts policy now, now - kept.createdAt ≤ policy.maxAgeDays * microsecondsPerDay) ∧
    totalBytes (survivors artifacts policy now) ≤ policy.maxTotalBytes ∧
    (∀ selected ∈ selectArtifactsForDeletion artifacts policy now,
      now - selected.createdAt ≤ policy.maxAgeDays * microsecondsPerDay →
      (∀ kept ∈ survivors artifacts policy now, selected.createdAt ≤ kept.createdAt) ∧
      ((∀ other ∈ selectArtifactsForDeletion artifacts policy now,
          now - other.createdAt ≤ policy.maxAgeDays * microsecondsPerDay → artifactOrder other ≤ artifactOrder selected) →
        policy.maxTotalBytes < totalBytes (survivors artifacts policy now) + selected.byteSize)) ∧
    (∀ others : List RetentionArtifact, others.Perm artifacts →
      selectArtifactsForDeletion others policy now = selectArtifactsForDeletion artifacts policy now) ∧
    selectArtifactsForDeletion (survivors artifacts policy now) policy now = [] := by
  have hage (artifact : RetentionArtifact) : now - artifact.createdAt ≤ policy.maxAgeDays * microsecondsPerDay ↔
      isExpired artifact now policy.maxAgeDays = false := by
    rw [← Bool.not_eq_true, isExpired_iff, not_lt]
  simp only [hage]
  obtain ⟨kept, hperm, hsplit, hwithin, hlast⟩ := exists_survivors artifacts policy now
  have hyoung : ∀ artifact ∈ survivors artifacts policy now, isExpired artifact now policy.maxAgeDays = false := by
    intro artifact h
    exact (mem_unexpired.mp (hsplit ▸ List.mem_append_right _ (hperm.mem_iff.mp h))).2
  rw [totalBytes_perm hperm]
  refine ⟨hyoung, hwithin, ?_, ?_, select_eq_nil hyoung (totalBytes_perm hperm ▸ hwithin)⟩
  · intro selected hselected hnew
    have hevicted := mem_evicted hselected hnew
    have hsorted := hsplit ▸ @unexpired_sorted artifacts policy now
    refine ⟨fun other hother => ?_, fun hnewest => ?_⟩
    · exact createdAt_le ((List.pairwise_append.mp hsorted).2.2 selected hevicted other (hperm.mem_iff.mp hother))
    · cases hend : (evicted artifacts policy now).getLast? with
      | none =>
          rw [List.getLast?_eq_none_iff] at hend
          rw [hend] at hevicted
          cases hevicted
      | some last =>
          obtain ⟨front, hfront⟩ := List.getLast?_eq_some_iff.mp hend
          have hmem : last ∈ evicted artifacts policy now := List.mem_of_getLast? hend
          have hle : artifactOrder last ≤ artifactOrder selected :=
            hnewest last (evicted_subset hsplit hmem).1 (evicted_subset hsplit hmem).2
          have hge : artifactOrder selected ≤ artifactOrder last := by
            have hfirst := (List.pairwise_append.mp hsorted).1
            rw [hfront] at hfirst hevicted
            rcases List.mem_append.mp hevicted with h | h
            · exact (List.pairwise_append.mp hfirst).2.2 selected h last List.mem_cons_self
            · rw [List.mem_singleton.mp h]
          rw [artifactOrder_injective (le_antisymm hge hle)]
          exact hlast last hend
  · intro others hothers
    rw [selectArtifactsForDeletion, selectArtifactsForDeletion, sortBy_artifactOrder_congr hothers]

end CadHarness.Security
