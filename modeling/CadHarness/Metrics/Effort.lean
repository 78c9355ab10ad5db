import CadHarness.Lib.Spans
import Mathlib.Algebra.BigOperators.Group.Finset.Basic
import Mathlib.Algebra.Order.BigOperators.Group.List
import Mathlib.Algebra.Order.Ring.Rat
import Mathlib.Algebra.Order.Ring.Star
import Mathlib.Data.List.TakeWhile
import Mathlib.Data.Prod.Lex
import Mathlib.Data.Rat.Star

/-!
# Minutes of a job

`cad_harness.metrics.collector`: what of the time since a job was created was work. Instants are in seconds, and nothing
is rounded.
-/

namespace CadHarness.Metrics
open CadHarness.Lib

structure AuditEvent where
  eventType : String
  jobId : Option String
  createdAt : ℚ

structure EngineerActivityInterval where
  startedAt : ℚ
  endedAt : ℚ
  ordered : startedAt ≤ endedAt

def EngineerActivityInterval.span (interval : EngineerActivityInterval) : ℚ × ℚ := (interval.startedAt, interval.endedAt)

/-- The events of the job from `JOB_CREATED` on, in the order of their instants. -/
def measured (events : List AuditEvent) (jobId : String) : List AuditEvent :=
  (sortBy AuditEvent.createdAt (events.filter fun event => event.jobId = some jobId)).dropWhile fun event =>
    event.eventType ≠ "JOB_CREATED"

/-- The spans of work from `start` on. -/
def spans (measured : List AuditEvent) (engineerActivity : List EngineerActivityInterval) (start : ℚ) : List (ℚ × ℚ) :=
  (measured.map fun event => (event.createdAt, event.createdAt)) ++
    (engineerActivity.filter fun interval => interval.endedAt ≥ start).map EngineerActivityInterval.span

/-- The merged spans, the latest first. -/
def mergedSpans (measured : List AuditEvent) (engineerActivity : List EngineerActivityInterval) (start : ℚ) :
    List (ℚ × ℚ) :=
  (sortBy (fun span => toLex span) (spans measured engineerActivity start)).foldl (mergeSpan start) []

/-- `calculate_harness_minutes` before it rounds: the minutes of work, those of fixups included, and the idle ones -/
def calculateHarnessMinutes (events : List AuditEvent) (jobId : String) (manualFixupMinutes idleGapMinutes : ℚ)
    (engineerActivity : List EngineerActivityInterval) : Except String (ℚ × ℚ) :=
  if manualFixupMinutes < 0 then .error "manual_fixup_minutes must be finite and non-negative"
  else
    match measured events jobId with
    | [] => .error "A JOB_CREATED event is required to measure harness effort"
    | first :: rest =>
        let start := first.createdAt
        let idleSeconds := (((gaps (mergedSpans (first :: rest) engineerActivity start)).filter fun gap =>
          gap.2 - gap.1 > idleGapMinutes * 60).map fun gap => gap.2 - gap.1).sum
        let last := engineerActivity.foldl (fun last interval => max last interval.endedAt)
          ((first :: rest).getLast (List.cons_ne_nil first rest)).createdAt
        let wallSeconds := last - start
        let activeMinutes := max 0 ((wallSeconds - idleSeconds) / 60)
        .ok (activeMinutes + manualFixupMinutes, idleSeconds / 60)

/-! ## What the minutes are -/

def IsCreated (events : List AuditEvent) (jobId : String) (t : ℚ) : Prop :=
  ∃ event ∈ events, event.jobId = some jobId ∧ event.eventType = "JOB_CREATED" ∧ event.createdAt = t

/-- When there was activity on the job from `start` on: at its events and in the intervals. -/
def activity (events : List AuditEvent) (jobId : String) (engineerActivity : List EngineerActivityInterval) (start : ℚ) :
    Set ℚ :=
  {t | start ≤ t ∧ ((∃ event ∈ events, event.jobId = some jobId ∧ event.createdAt = t) ∨
    ∃ interval ∈ engineerActivity, interval.startedAt ≤ t ∧ t ≤ interval.endedAt)}

/-- The minutes of work and of idleness, from what there was of activity. -/
structure IsEffort (active idle idleGapMinutes start : ℚ) (activity : Set ℚ) : Prop where
  wall : ∃ last, IsGreatest activity last ∧ active + idle = (last - start) / 60
  idle : ∃ long : Finset (ℚ × ℚ),
    (∀ gap, gap ∈ long ↔ IsGap activity gap.1 gap.2 ∧ gap.2 - gap.1 > idleGapMinutes * 60) ∧
      idle = (∑ gap ∈ long, (gap.2 - gap.1)) / 60

/-- There is one such pair of minutes only. -/
theorem IsEffort.unique {active idle active' idle' idleGapMinutes start : ℚ} {activity : Set ℚ}
    (h : IsEffort active idle idleGapMinutes start activity) (h' : IsEffort active' idle' idleGapMinutes start activity) :
    active = active' ∧ idle = idle' := by
  obtain ⟨last, hlast, hwall⟩ := h.wall
  obtain ⟨last', hlast', hwall'⟩ := h'.wall
  obtain ⟨long, hlong, hidle⟩ := h.idle
  obtain ⟨long', hlong', hidle'⟩ := h'.idle
  obtain rfl : last = last' := hlast.unique hlast'
  obtain rfl : long = long' := Finset.ext fun gap => (hlong gap).trans (hlong' gap).symm
  have hsame : idle = idle' := hidle.trans hidle'.symm
  exact ⟨by linarith, hsame⟩

/-! ## The events from `JOB_CREATED` on -/

section
variable {events : List AuditEvent} {jobId : String} {first : AuditEvent} {rest : List AuditEvent}
  {engineerActivity : List EngineerActivityInterval} {start : ℚ}

theorem measured_split (h : measured events jobId = first :: rest) :
    ∃ before, sortBy AuditEvent.createdAt (events.filter fun event => event.jobId = some jobId) =
      before ++ first :: rest ∧ (∀ event ∈ before, event.eventType ≠ "JOB_CREATED") ∧ first.eventType = "JOB_CREATED" := by
  refine ⟨_, ((congrArg _ h).symm.trans List.takeWhile_append_dropWhile).symm, fun event hevent => ?_, ?_⟩
  · have hnot := List.mem_takeWhile_imp hevent
    exact of_decide_eq_true hnot
  · have hhead := List.head?_dropWhile_not (fun event : AuditEvent => decide (event.eventType ≠ "JOB_CREATED"))
      (sortBy AuditEvent.createdAt (events.filter fun event => event.jobId = some jobId))
    rw [measured] at h
    rw [h] at hhead
    simpa using hhead

theorem mem_measured (h : measured events jobId = first :: rest) {event : AuditEvent} (hevent : event ∈ first :: rest) :
    event ∈ events ∧ event.jobId = some jobId := by
  obtain ⟨before, hsplit, -⟩ := measured_split h
  have hmem : event ∈ sortBy AuditEvent.createdAt (events.filter fun event => event.jobId = some jobId) :=
    hsplit ▸ List.mem_append_right before hevent
  rw [mem_sortBy, List.mem_filter] at hmem
  exact ⟨hmem.1, of_decide_eq_true hmem.2⟩

theorem measured_sorted (h : measured events jobId = first :: rest) :
    (first :: rest).Pairwise fun event event' => event.createdAt ≤ event'.createdAt := by
  obtain ⟨before, hsplit, -⟩ := measured_split h
  have hpairwise := pairwise_sortBy AuditEvent.createdAt (events.filter fun event => event.jobId = some jobId)
  rw [hsplit] at hpairwise
  exact (List.pairwise_append.mp hpairwise).2.1

/-- An event of the job is measured, or it comes no later than the first that is. -/
theorem mem_measured_or (h : measured events jobId = first :: rest) {event : AuditEvent} (hevent : event ∈ events)
    (hjob : event.jobId = some jobId) :
    event ∈ first :: rest ∨ (event.createdAt ≤ first.createdAt ∧ event.eventType ≠ "JOB_CREATED") := by
  obtain ⟨before, hsplit, hbefore, -⟩ := measured_split h
  have hmem : event ∈ sortBy AuditEvent.createdAt (events.filter fun event => event.jobId = some jobId) := by
    rw [mem_sortBy, List.mem_filter]
    exact ⟨hevent, decide_eq_true hjob⟩
  have hpairwise := pairwise_sortBy AuditEvent.createdAt (events.filter fun event => event.jobId = some jobId)
  rw [hsplit] at hmem hpairwise
  rcases List.mem_append.mp hmem with hmem | hmem
  · exact .inr ⟨(List.pairwise_append.mp hpairwise).2.2 event hmem first List.mem_cons_self, hbefore event hmem⟩
  · exact .inl hmem

theorem le_of_mem_measured (h : measured events jobId = first :: rest) {event : AuditEvent}
    (hevent : event ∈ first :: rest) : first.createdAt ≤ event.createdAt := by
  rcases List.mem_cons.mp hevent with rfl | hevent
  · exact le_rfl
  · exact (List.pairwise_cons.mp (measured_sorted h)).1 event hevent

theorem isLeast_created (h : measured events jobId = first :: rest) :
    IsLeast {t | IsCreated events jobId t} first.createdAt := by
  obtain ⟨-, -, -, hcreated⟩ := measured_split h
  obtain ⟨hfirst, hjob⟩ := mem_measured h List.mem_cons_self
  refine ⟨⟨first, hfirst, hjob, hcreated, rfl⟩, ?_⟩
  rintro t ⟨event, hevent, hjob', hcreated', rfl⟩
  rcases mem_measured_or h hevent hjob' with hmem | ⟨-, hnot⟩
  · exact le_of_mem_measured h hmem
  · exact absurd hcreated' hnot

theorem exists_measured {t : ℚ} (h : IsCreated events jobId t) : ∃ first rest, measured events jobId = first :: rest := by
  obtain ⟨event, hevent, hjob, hcreated, -⟩ := h
  cases hmeasured : measured events jobId with
  | cons first rest => exact ⟨first, rest, rfl⟩
  | nil =>
      have hmem : event ∈ sortBy AuditEvent.createdAt (events.filter fun event => event.jobId = some jobId) := by
        rw [mem_sortBy, List.mem_filter]
        exact ⟨hevent, decide_eq_true hjob⟩
      have hnot := of_decide_eq_true (List.dropWhile_eq_nil_iff.mp hmeasured event hmem)
      exact absurd hcreated hnot

/-- The measured events are those of the job from the first on. -/
theorem exists_measured_iff (h : measured events jobId = first :: rest) {t : ℚ} :
    (∃ event ∈ first :: rest, event.createdAt = t) ↔
      first.createdAt ≤ t ∧ ∃ event ∈ events, event.jobId = some jobId ∧ event.createdAt = t := by
  constructor
  · rintro ⟨event, hevent, rfl⟩
    obtain ⟨hmem, hjob⟩ := mem_measured h hevent
    exact ⟨le_of_mem_measured h hevent, event, hmem, hjob, rfl⟩
  · rintro ⟨hle, event, hevent, hjob, rfl⟩
    rcases mem_measured_or h hevent hjob with hmem | ⟨hge, -⟩
    · exact ⟨event, hmem, rfl⟩
    · exact ⟨first, List.mem_cons_self, hle.antisymm hge⟩

/-! ## Merged activity -/

theorem mem_cover_spans (h : measured events jobId = first :: rest) {t : ℚ} :
    first.createdAt ≤ t ∧ t ∈ cover (spans (first :: rest) engineerActivity first.createdAt) ↔
      t ∈ activity events jobId engineerActivity first.createdAt := by
  have hevents : (∃ s ∈ (first :: rest).map fun event => (event.createdAt, event.createdAt), s.1 ≤ t ∧ t ≤ s.2) ↔
      ∃ event ∈ first :: rest, event.createdAt = t := by
    simp only [List.mem_map, exists_exists_and_eq_and, ← le_antisymm_iff]
  have hintervals (hle : first.createdAt ≤ t) :
      (∃ s ∈ (engineerActivity.filter fun interval => interval.endedAt ≥ first.createdAt).map
        EngineerActivityInterval.span, s.1 ≤ t ∧ t ≤ s.2) ↔
      ∃ interval ∈ engineerActivity, interval.startedAt ≤ t ∧ t ≤ interval.endedAt := by
    simp only [List.mem_map, exists_exists_and_eq_and, List.mem_filter, decide_eq_true_eq, EngineerActivityInterval.span]
    constructor
    · rintro ⟨interval, ⟨hmem, -⟩, hspan⟩
      exact ⟨interval, hmem, hspan⟩
    · rintro ⟨interval, hmem, hspan⟩
      exact ⟨interval, ⟨hmem, hle.trans hspan.2⟩, hspan⟩
  refine and_congr_right fun hle => ?_
  simp only [cover, spans, Set.mem_ofPred_eq, List.mem_append, or_and_right, exists_or]
  rw [hevents, hintervals hle, exists_measured_iff h]
  simp only [hle, true_and]

theorem spans_ordered (h : measured events jobId = first :: rest) {s : ℚ × ℚ}
    (hs : s ∈ spans (first :: rest) engineerActivity first.createdAt) : s.1 ≤ s.2 ∧ first.createdAt ≤ s.2 := by
  rcases List.mem_append.mp hs with hs | hs
  · obtain ⟨event, hevent, rfl⟩ := List.mem_map.mp hs
    exact ⟨le_rfl, le_of_mem_measured h hevent⟩
  · obtain ⟨interval, hinterval, rfl⟩ := List.mem_map.mp hs
    exact ⟨interval.ordered, of_decide_eq_true (List.mem_filter.mp hinterval).2⟩

theorem mergedSpans_spec (engineerActivity : List EngineerActivityInterval) (h : measured events jobId = first :: rest) :
    Separated (mergedSpans (first :: rest) engineerActivity first.createdAt) ∧
      (∀ s ∈ mergedSpans (first :: rest) engineerActivity first.createdAt, first.createdAt ≤ s.1) ∧
      cover (mergedSpans (first :: rest) engineerActivity first.createdAt) =
        activity events jobId engineerActivity first.createdAt := by
  have hsorted := (pairwise_sortBy (fun span : ℚ × ℚ => toLex span)
    (spans (first :: rest) engineerActivity first.createdAt)).imp fun {s p} hle =>
      show s.1 ≤ p.1 from (Prod.Lex.toLex_le_toLex.mp hle).elim le_of_lt fun heq => heq.1.le
  have hcover {t : ℚ} : t ∈ cover (sortBy (fun span : ℚ × ℚ => toLex span)
      (spans (first :: rest) engineerActivity first.createdAt)) ↔
      t ∈ cover (spans (first :: rest) engineerActivity first.createdAt) := by
    simp only [cover, Set.mem_ofPred_eq, mem_sortBy]
  obtain ⟨hseparated, hstart, hmerged⟩ := foldl_mergeSpan hsorted
    (fun s hs => spans_ordered h ((mem_sortBy _).mp hs)) separated_nil (fun m hm => absurd hm List.not_mem_nil)
    (fun m hm => absurd hm List.not_mem_nil)
  refine ⟨hseparated, hstart, Set.ext fun t => ?_⟩
  rw [mergedSpans, hmerged t, hcover, ← mem_cover_spans h]
  simp [cover]

/-! ## The last activity -/

/-- The greatest of an instant and the ends of the intervals. -/
theorem foldl_max_spec (engineerActivity : List EngineerActivityInterval) (t : ℚ) :
    (t ≤ engineerActivity.foldl (fun last interval => max last interval.endedAt) t) ∧
      (∀ interval ∈ engineerActivity,
        interval.endedAt ≤ engineerActivity.foldl (fun last interval => max last interval.endedAt) t) ∧
      (engineerActivity.foldl (fun last interval => max last interval.endedAt) t = t ∨
        ∃ interval ∈ engineerActivity,
          engineerActivity.foldl (fun last interval => max last interval.endedAt) t = interval.endedAt) := by
  induction engineerActivity generalizing t with
  | nil => exact ⟨le_rfl, fun _ h => absurd h List.not_mem_nil, .inl rfl⟩
  | cons interval engineerActivity ih =>
      obtain ⟨hle, hends, hmem⟩ := ih (max t interval.endedAt)
      refine ⟨(le_max_left _ _).trans hle, fun other hother => ?_, ?_⟩
      · rcases List.mem_cons.mp hother with rfl | hother
        · exact (le_max_right _ _).trans hle
        · exact hends other hother
      · rcases hmem with hmem | ⟨other, hother, hmem⟩
        · rcases max_choice t interval.endedAt with hmax | hmax
          · exact .inl (hmem.trans hmax)
          · exact .inr ⟨interval, List.mem_cons_self, hmem.trans hmax⟩
        · exact .inr ⟨other, List.mem_cons_of_mem interval hother, hmem⟩

theorem isGreatest_last (engineerActivity : List EngineerActivityInterval) (h : measured events jobId = first :: rest) :
    IsGreatest (activity events jobId engineerActivity first.createdAt)
      (engineerActivity.foldl (fun last interval => max last interval.endedAt)
        ((first :: rest).getLast (List.cons_ne_nil first rest)).createdAt) := by
  have hlast : (first :: rest).getLast (List.cons_ne_nil first rest) ∈ first :: rest := List.getLast_mem _
  obtain ⟨hle, hends, hmem⟩ := foldl_max_spec engineerActivity
    ((first :: rest).getLast (List.cons_ne_nil first rest)).createdAt
  have hstart := le_of_mem_measured h hlast
  refine ⟨⟨hstart.trans hle, ?_⟩, ?_⟩
  · rcases hmem with hmem | ⟨interval, hinterval, hmem⟩
    · obtain ⟨hevent, hjob⟩ := mem_measured h hlast
      exact .inl ⟨_, hevent, hjob, hmem.symm⟩
    · exact .inr ⟨interval, hinterval, by rw [hmem]; exact interval.ordered, hmem.le⟩
  · rintro t ⟨htstart, hevent | ⟨interval, hinterval, -, hend⟩⟩
    · obtain ⟨event, hmeasured, rfl⟩ := (exists_measured_iff h).mpr ⟨htstart, hevent⟩
      refine le_trans ?_ hle
      have hsorted := measured_sorted h
      rw [← List.dropLast_append_getLast (List.cons_ne_nil first rest)] at hmeasured hsorted
      rcases List.mem_append.mp hmeasured with hmeasured | hmeasured
      · exact (List.pairwise_append.mp hsorted).2.2 event hmeasured _ (List.mem_singleton_self _)
      · rw [List.mem_singleton.mp hmeasured]
    · exact hend.trans (hends interval hinterval)

/-! ## The minutes of work and of idleness -/

/-- The long gaps take no more time than there is. -/
theorem sum_long_le {merged : List (ℚ × ℚ)} {last : ℚ} (limit : ℚ) (hseparated : Separated merged)
    (hstart : ∀ s ∈ merged, start ≤ s.1) (hlast : ∀ t ∈ cover merged, t ≤ last) (hle : start ≤ last) :
    (((gaps merged).filter fun gap => gap.2 - gap.1 > limit).map fun gap => gap.2 - gap.1).sum ≤ last - start := by
  have hlong : (((gaps merged).filter fun gap => gap.2 - gap.1 > limit).map fun gap => gap.2 - gap.1).sum ≤
      ((gaps merged).map fun gap => gap.2 - gap.1).sum := by
    refine (List.filter_sublist.map _).sum_le_sum fun length hlength => ?_
    obtain ⟨gap, hgap, rfl⟩ := List.mem_map.mp hlength
    exact (sub_pos.mpr (gaps_pos hseparated hgap)).le
  cases merged with
  | nil => simpa [gaps] using hle
  | cons span merged =>
      have hsum := sum_gaps_le hseparated hstart
      have hspan : span.1 ≤ last :=
        hlast span.1 ⟨span, List.mem_cons_self, le_rfl, hseparated.ordered span List.mem_cons_self⟩
      linarith

theorem calculateHarnessMinutes_eq {manualFixupMinutes : ℚ} (idleGapMinutes : ℚ)
    (engineerActivity : List EngineerActivityInterval) (hfixup : 0 ≤ manualFixupMinutes)
    (h : measured events jobId = first :: rest) : ∃ active idle,
      calculateHarnessMinutes events jobId manualFixupMinutes idleGapMinutes engineerActivity =
        .ok (active + manualFixupMinutes, idle) ∧
      IsEffort active idle idleGapMinutes first.createdAt (activity events jobId engineerActivity first.createdAt) := by
  obtain ⟨hseparated, hstart, hcover⟩ := mergedSpans_spec engineerActivity h
  have hgreatest := isGreatest_last engineerActivity h
  have hidle := sum_long_le (idleGapMinutes * 60) hseparated hstart
    (fun t ht => hgreatest.2 (hcover ▸ ht)) hgreatest.1.1
  have hcalculated : calculateHarnessMinutes events jobId manualFixupMinutes idleGapMinutes engineerActivity =
      .ok (max 0 ((engineerActivity.foldl (fun last interval => max last interval.endedAt)
        ((first :: rest).getLast (List.cons_ne_nil first rest)).createdAt - first.createdAt -
          (((gaps (mergedSpans (first :: rest) engineerActivity first.createdAt)).filter fun gap =>
            gap.2 - gap.1 > idleGapMinutes * 60).map fun gap => gap.2 - gap.1).sum) / 60) + manualFixupMinutes,
        (((gaps (mergedSpans (first :: rest) engineerActivity first.createdAt)).filter fun gap =>
          gap.2 - gap.1 > idleGapMinutes * 60).map fun gap => gap.2 - gap.1).sum / 60) := by
    rw [calculateHarnessMinutes, if_neg (not_lt.mpr hfixup), h]
  refine ⟨_, _, hcalculated, ⟨_, hgreatest, ?_⟩, ((gaps (mergedSpans (first :: rest) engineerActivity
    first.createdAt)).filter fun gap => gap.2 - gap.1 > idleGapMinutes * 60).toFinset, fun gap => ?_, ?_⟩
  · rw [max_eq_right (div_nonneg (sub_nonneg.mpr hidle) (by norm_num)), ← add_div, sub_add_cancel]
  · rw [List.mem_toFinset, List.mem_filter, decide_eq_true_eq, ← hcover]
    exact and_congr_left fun _ => mem_gaps_iff hseparated
  · rw [List.sum_toFinset _ ((gaps_nodup hseparated).filter _)]

theorem calculateHarnessMinutes_of_not_created {manualFixupMinutes idleGapMinutes : ℚ} (hfixup : 0 ≤ manualFixupMinutes)
    (h : ¬ ∃ t, IsCreated events jobId t) :
    calculateHarnessMinutes events jobId manualFixupMinutes idleGapMinutes engineerActivity =
      .error "A JOB_CREATED event is required to measure harness effort" := by
  cases hmeasured : measured events jobId with
  | nil => rw [calculateHarnessMinutes, if_neg (not_lt.mpr hfixup), hmeasured]
  | cons first rest => exact absurd ⟨_, (isLeast_created hmeasured).1⟩ h

/-- The minutes depend on when the job was created and on when there was activity only. -/
theorem calculateHarnessMinutes_congr {events' : List AuditEvent} {engineerActivity' : List EngineerActivityInterval}
    (manualFixupMinutes idleGapMinutes : ℚ) (hcreated : ∀ t, IsCreated events jobId t ↔ IsCreated events' jobId t)
    (hactivity : ∀ start, activity events jobId engineerActivity start = activity events' jobId engineerActivity' start) :
    calculateHarnessMinutes events jobId manualFixupMinutes idleGapMinutes engineerActivity =
      calculateHarnessMinutes events' jobId manualFixupMinutes idleGapMinutes engineerActivity' := by
  by_cases hfixup : manualFixupMinutes < 0
  · rw [calculateHarnessMinutes, calculateHarnessMinutes, if_pos hfixup, if_pos hfixup]
  rw [not_lt] at hfixup
  by_cases hexists : ∃ t, IsCreated events jobId t
  · obtain ⟨t, ht⟩ := hexists
    obtain ⟨first, rest, h⟩ := exists_measured ht
    obtain ⟨first', rest', h'⟩ := exists_measured ((hcreated t).mp ht)
    have hstart : first.createdAt = first'.createdAt := by
      refine (isLeast_created h).unique ?_
      simp only [hcreated]
      exact isLeast_created h'
    obtain ⟨active, idle, hcalculated, heffort⟩ := calculateHarnessMinutes_eq idleGapMinutes engineerActivity hfixup h
    obtain ⟨active', idle', hcalculated', heffort'⟩ := calculateHarnessMinutes_eq idleGapMinutes engineerActivity' hfixup
      h'
    rw [← hstart, ← hactivity] at heffort'
    obtain ⟨rfl, rfl⟩ := heffort.unique heffort'
    rw [hcalculated, hcalculated']
  · rw [calculateHarnessMinutes_of_not_created hfixup hexists,
      calculateHarnessMinutes_of_not_created hfixup fun h => hexists (h.imp fun t => (hcreated t).mpr)]

/-! ## Where the minutes are the same -/

section
variable (events) (jobId) (manualFixupMinutes idleGapMinutes : ℚ)

theorem calculateHarnessMinutes_perm {events' : List AuditEvent} {engineerActivity' : List EngineerActivityInterval}
    (hevents : events'.Perm events) (hintervals : engineerActivity'.Perm engineerActivity) :
    calculateHarnessMinutes events' jobId manualFixupMinutes idleGapMinutes engineerActivity' =
      calculateHarnessMinutes events jobId manualFixupMinutes idleGapMinutes engineerActivity := by
  refine calculateHarnessMinutes_congr _ _ (fun t => ?_) (fun start => ?_)
  · simp only [IsCreated, hevents.mem_iff]
  · simp only [activity, hevents.mem_iff, hintervals.mem_iff]

/-- An interval may be split in two that touch. -/
theorem calculateHarnessMinutes_split {whole left right : EngineerActivityInterval} (hleft : left.startedAt = whole.startedAt)
    (htouch : left.endedAt = right.startedAt) (hright : right.endedAt = whole.endedAt)
    (before after : List EngineerActivityInterval) :
    calculateHarnessMinutes events jobId manualFixupMinutes idleGapMinutes (before ++ left :: right :: after) =
      calculateHarnessMinutes events jobId manualFixupMinutes idleGapMinutes (before ++ whole :: after) := by
  have hspans (t : ℚ) : (left.startedAt ≤ t ∧ t ≤ left.endedAt ∨ right.startedAt ≤ t ∧ t ≤ right.endedAt) ↔
      whole.startedAt ≤ t ∧ t ≤ whole.endedAt := by
    have hordered := left.ordered
    have hordered' := right.ordered
    rw [hleft, hright, ← htouch]
    rw [hleft] at hordered
    rw [hright, ← htouch] at hordered'
    constructor
    · rintro (⟨hlow, hhigh⟩ | ⟨hlow, hhigh⟩)
      · exact ⟨hlow, hhigh.trans hordered'⟩
      · exact ⟨hordered.trans hlow, hhigh⟩
    · rintro ⟨hlow, hhigh⟩
      exact (le_total t left.endedAt).imp (fun h => ⟨hlow, h⟩) (fun h => ⟨h, hhigh⟩)
  refine calculateHarnessMinutes_congr _ _ (fun t => Iff.rfl) (fun start => Set.ext fun t => ?_)
  refine and_congr_right fun _ => or_congr_right ?_
  simp only [List.mem_append, List.mem_cons, or_and_right, exists_or, exists_eq_left]
  exact or_congr_right (or_assoc.symm.trans (or_congr_left (hspans t)))

/-- An interval in another adds nothing. -/
theorem calculateHarnessMinutes_contained {inner outer : EngineerActivityInterval} (houter : outer ∈ engineerActivity)
    (hstart : outer.startedAt ≤ inner.startedAt) (hend : inner.endedAt ≤ outer.endedAt) :
    calculateHarnessMinutes events jobId manualFixupMinutes idleGapMinutes (inner :: engineerActivity) =
      calculateHarnessMinutes events jobId manualFixupMinutes idleGapMinutes engineerActivity := by
  refine calculateHarnessMinutes_congr _ _ (fun t => Iff.rfl) (fun start => Set.ext fun t => ?_)
  simp only [activity, Set.mem_ofPred_eq, List.exists_mem_cons_iff]
  refine and_congr_right fun _ => or_congr_right (or_iff_right_of_imp ?_)
  rintro ⟨hlow, hhigh⟩
  exact ⟨outer, houter, hstart.trans hlow, hhigh.trans hend⟩

end

end

/-- A job with ten minutes between two events. -/
def breakEvents : List AuditEvent := [⟨"COMMIT_FINISHED", some "job_1", 600⟩, ⟨"JOB_CREATED", some "job_1", 0⟩]

theorem breakEvents_created : ∃ t, IsCreated breakEvents "job_1" t :=
  ⟨0, _, List.mem_cons_of_mem _ List.mem_cons_self, rfl, rfl, rfl⟩

end CadHarness.Metrics
