import CadHarness.Com.Editing
import CadHarness.Com.Lemmas.SemanticRuns
import CadHarness.Lib.Roster

/-!
# Sessions of a user

Which entities a session has at each call, and how an enumeration of the model space goes through them.
-/

namespace CadHarness.Com
open CadHarness.Lib CadHarness.Domain CadHarness.Drawing Prog

noncomputable section

/-! ## Edits -/

namespace ModelSpace

theorem mem_members {d : ModelSpace} {n : Nat} : n ∈ d.members ↔ (d.entities n).isSome = true := by
  unfold members
  rw [List.mem_filter, List.mem_range]
  constructor
  · exact And.right
  · intro h
    refine ⟨?_, h⟩
    by_contra hn
    rw [d.bounded n (Nat.not_lt.mp hn)] at h
    cases h

theorem members_sorted (d : ModelSpace) : d.members.Pairwise (· < ·) :=
  List.pairwise_lt_range.filter _

theorem lt_issued {d : ModelSpace} {n : Nat} (h : (d.entities n).isSome = true) : n < d.issued := by
  by_contra hn
  rw [d.bounded n (Nat.not_lt.mp hn)] at h
  cases h

theorem firstFrom_eq_some {d : ModelSpace} {bound n : Nat} (h : d.firstFrom bound = some n) :
    IsLeast {m | bound ≤ m ∧ (d.entities m).isSome = true} n := by
  obtain ⟨hn, before, after, hmembers, hbefore⟩ := List.find?_eq_some_iff_append.mp h
  have hmem : n ∈ d.members := by rw [hmembers]; simp
  refine ⟨⟨by simpa using hn, mem_members.mp hmem⟩, ?_⟩
  rintro m ⟨hm, hpresent⟩
  have hsorted := d.members_sorted
  have hmem : m ∈ d.members := mem_members.mpr hpresent
  rw [hmembers] at hmem hsorted
  rcases List.mem_append.mp hmem with hbef | haft
  · have := hbefore m hbef
    simp at this
    omega
  · rcases List.mem_cons.mp haft with rfl | haft
    · exact Nat.le_refl m
    · exact ((List.pairwise_cons.mp (List.pairwise_append.mp hsorted).2.1).1 m haft).le

theorem firstFrom_eq_none {d : ModelSpace} {bound : Nat} (h : d.firstFrom bound = none) (n : Nat)
    (hn : (d.entities n).isSome = true) : ¬ bound ≤ n := by
  have := List.find?_eq_none.mp h n (mem_members.mpr hn)
  simpa using this

end ModelSpace

namespace Edit

variable {d : ModelSpace} {es : List Edit} {n : Nat}

theorem issued_le_apply (d : ModelSpace) (e : Edit) : d.issued ≤ (e.apply d).issued := by
  cases e with
  | create state => exact Nat.le_succ d.issued
  | change m state => exact Nat.le_refl _
  | delete m => exact Nat.le_refl _

theorem isSome_of_apply {e : Edit} (h : ((e.apply d).entities n).isSome = true) :
    (d.entities n).isSome = true ∨ d.issued ≤ n := by
  cases e with
  | create state =>
      by_cases hn : n = d.issued
      · exact .inr hn.ge
      · rw [entities_create, if_neg hn] at h
        exact .inl h
  | change m state =>
      left
      by_cases hn : n = m
      · subst hn
        simpa using h
      · rwa [entities_change, if_neg hn] at h
  | delete m =>
      left
      by_cases hn : n = m
      · subst hn
        simp at h
      · rwa [entities_delete, if_neg hn] at h

theorem issued_le_foldl (d : ModelSpace) (es : List Edit) : d.issued ≤ (es.foldl (fun d e => e.apply d) d).issued := by
  induction es generalizing d with
  | nil => exact Nat.le_refl _
  | cons e es ih => exact Nat.le_trans (issued_le_apply d e) (ih _)

/-- An entity that is there was there before, or it is new. -/
theorem isSome_of_foldl (h : ((es.foldl (fun d e => e.apply d) d).entities n).isSome = true) :
    (d.entities n).isSome = true ∨ d.issued ≤ n := by
  induction es generalizing d with
  | nil => exact .inl h
  | cons e es ih =>
      rcases ih h with h | h
      · exact isSome_of_apply h
      · exact .inr (Nat.le_trans (issued_le_apply d e) h)

/-- An entity that stays, and is not changed, stays as it is. -/
theorem entities_foldl (h : (d.entities n).isSome = true) (h' : ((es.foldl (fun d e => e.apply d) d).entities n).isSome = true)
    (hes : ∀ state, .change n state ∉ es) : (es.foldl (fun d e => e.apply d) d).entities n = d.entities n := by
  induction es generalizing d with
  | nil => rfl
  | cons e es ih =>
      have h' : ((es.foldl (fun d e => e.apply d) (e.apply d)).entities n).isSome = true := h'
      have hsome : ((e.apply d).entities n).isSome = true := by
        rcases isSome_of_foldl h' with hsome | hnew
        · exact hsome
        · have := issued_le_apply d e
          have := ModelSpace.lt_issued h
          omega
      have hsame : (e.apply d).entities n = d.entities n := by
        cases e with
        | create state => rw [entities_create, if_neg (ModelSpace.lt_issued h).ne]
        | change m state =>
            have hne : n ≠ m := by
              rintro rfl
              exact hes state List.mem_cons_self
            rw [entities_change, if_neg hne]
        | delete m =>
            have hne : n ≠ m := by
              rintro rfl
              simp at hsome
            rw [entities_delete, if_neg hne]
      rw [List.foldl_cons, ih hsome h' (fun state hmem => hes state (List.mem_cons_of_mem _ hmem)), hsame]

theorem isSome_apply {e : Edit} (h : (d.entities n).isSome = true) (he : e ≠ .delete n) :
    ((e.apply d).entities n).isSome = true := by
  cases e with
  | create state =>
      rw [entities_create, if_neg (ModelSpace.lt_issued h).ne]
      exact h
  | change m state =>
      by_cases hn : n = m
      · subst hn
        simpa using h
      · rwa [entities_change, if_neg hn]
  | delete m =>
      have hn : n ≠ m := by
        rintro rfl
        exact he rfl
      rwa [entities_delete, if_neg hn]

/-- An entity that is not deleted stays. -/
theorem isSome_foldl (h : (d.entities n).isSome = true) (hes : .delete n ∉ es) :
    ((es.foldl (fun d e => e.apply d) d).entities n).isSome = true := by
  induction es generalizing d with
  | nil => exact h
  | cons e es ih =>
      rw [List.mem_cons, not_or] at hes
      exact ih (isSome_apply h (Ne.symm hes.1)) hes.2

end Edit

namespace Session

variable (session : Session)

theorem issued_le {s t : Nat} (h : s ≤ t) : (session.stateAt s).issued ≤ (session.stateAt t).issued := by
  induction h with
  | refl => exact Nat.le_refl _
  | step h ih => exact Nat.le_trans ih (Edit.issued_le_foldl _ _)

theorem isSome_of_le {s t n : Nat} (h : s ≤ t) (ht : ((session.stateAt t).entities n).isSome = true) :
    ((session.stateAt s).entities n).isSome = true ∨ (session.stateAt s).issued ≤ n := by
  induction h with
  | refl => exact .inl ht
  | step h ih =>
      rcases Edit.isSome_of_foldl ht with ht | ht
      · exact ih ht
      · exact .inr (Nat.le_trans (session.issued_le h) ht)

/-- The entities of the model space, by their numbers. -/
def roster : Roster where
  present t n := ((session.stateAt t).entities n).isSome = true
  gone := by
    intro s t u n hst htu hs ht hu
    rcases session.isSome_of_le htu hu with h | h
    · exact ht h
    · have := ModelSpace.lt_issued hs
      have := session.issued_le hst
      omega
  newer := by
    intro r s t m n hrs hst hm hs ht
    rcases session.isSome_of_le hst ht with h | h
    · exact absurd h hs
    · have := ModelSpace.lt_issued hm
      have := session.issued_le hrs
      omega

theorem mem_members_stateAt {t n : Nat} : n ∈ (session.stateAt t).members ↔ session.roster.present t n :=
  ModelSpace.mem_members

/-- An entity that stays, and is not changed, stays as it is. -/
theorem entities_eq {s t n : Nat} (h : s ≤ t) (hs : session.roster.present s n) (ht : session.roster.present t n)
    (hedits : ∀ k, s ≤ k → k < t → ∀ state, .change n state ∉ session.edits k) :
    (session.stateAt t).entities n = (session.stateAt s).entities n := by
  induction h with
  | refl => rfl
  | @step t h ih =>
      have hmid : session.roster.present t n := session.roster.present_between h (Nat.le_succ t) hs ht
      have hlast := Edit.entities_foldl hmid ht (hedits t h (Nat.lt_succ_self t))
      exact hlast.trans (ih hmid (fun k hk hkt => hedits k hk (Nat.lt_succ_of_lt hkt)))

/-- An entity that is not deleted stays. -/
theorem present_of_kept {s t n : Nat} (h : s ≤ t) (hs : session.roster.present s n)
    (hedits : ∀ k, s ≤ k → k < t → .delete n ∉ session.edits k) : session.roster.present t n := by
  induction h with
  | refl => exact hs
  | @step t h ih =>
      have hmid := ih (fun k hk hkt => hedits k hk (Nat.lt_succ_of_lt hkt))
      exact Edit.isSome_foldl hmid (hedits t h (Nat.lt_succ_self t))

/-! ## Enumerations -/

/-- An enumeration of the model space, with what its body made of each entity. -/
theorem exec_forEach_scan {α : Type} {body : ComObject → ComM α} {fuel : Nat} {previous : Option ComObject}
    {tr tr' : List ComEvent} {results : List α}
    (h : exec session.world (forEach .spaceObject body fuel previous) tr = (tr', .ok results)) :
    ∃ ns t', t' + 1 = tr'.length ∧ ns.length < fuel ∧
      Roster.Scan session.roster (boundAfter previous) tr.length ns t' ∧
      List.Forall₂ (fun n a => ∃ tr₁ tr₂, tr.length ≤ tr₁.length ∧ tr₂.length ≤ t' ∧ tr₂ <+: tr' ∧
        exec session.world (body (.entityObject n)) tr₁ = (tr₂, .ok a)) ns results := by
  induction fuel generalizing tr previous results with
  | zero => cases h
  | succ fuel ih =>
      obtain ⟨_, next, hcall, h⟩ := exec_bind_eq_ok.mp h
      obtain ⟨hnext, rfl⟩ := exec_com_eq_ok.mp hcall
      have hfirst : ((session.stateAt tr.length).firstFrom (boundAfter previous)).map .entityObject = next :=
        Except.ok.inj hnext
      cases hn : (session.stateAt tr.length).firstFrom (boundAfter previous) with
      | none =>
          rw [hn] at hfirst
          subst hfirst
          cases h
          exact ⟨[], tr.length, by simp, Nat.succ_pos fuel, .done (ModelSpace.firstFrom_eq_none hn), .nil⟩
      | some n =>
          rw [hn] at hfirst
          subst hfirst
          obtain ⟨tr₂, a, ha, h⟩ := exec_bind_eq_ok.mp h
          obtain ⟨tr₃, rest, hrest, hreturn⟩ := exec_bind_eq_ok.mp h
          cases hreturn
          obtain ⟨ns, t', ht', hlength, hscan, hbodies⟩ := ih hrest
          have hle : tr.length ≤ tr₂.length := by
            have := (exec_isPrefix ha).length_le
            rw [List.length_append] at this
            omega
          refine ⟨n :: ns, t', ht', Nat.succ_lt_succ hlength, .next (ModelSpace.firstFrom_eq_some hn) hle hscan,
            .cons ?_ ?_⟩
          · exact ⟨_, tr₂, by simp, hscan.le, exec_isPrefix hrest, ha⟩
          · apply hbodies.imp
            rintro m b ⟨tr₄, tr₅, h₄, h₅, hprefix, hrun⟩
            exact ⟨tr₄, tr₅, Nat.le_trans hle h₄, h₅, hprefix, hrun⟩

end Session

end

end CadHarness.Com
