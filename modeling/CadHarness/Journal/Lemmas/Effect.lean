import CadHarness.Journal.DurableCommitCoordinator
import CadHarness.Journal.Lemmas.Methods

/-!
# What a step of a request does to the journal

A step touches at most the entry of the request's own key, and in one of five ways.
-/

/-!
## The protocol of a request

The order in which a request calls the journal and the host, whatever they answer.
-/

namespace CadHarness.Journal
open CadHarness.Lib

/-- How far a request has come. -/
inductive Stage where
  | arrived
  | authorized
  | reserved (reservationId : String)
  | running (reservationId : String)
  | settled (reservationId : String) (result : Except Unit BridgeHostResult)
  | doubtful (reservationId : String)
  | done (result : BridgeHostResult)

namespace Stage

/-- The reservation that a request has to complete. -/
def reservation? : Stage → Option String
  | .reserved v | .running v | .settled v _ | .doubtful v => some v
  | .arrived | .authorized | .done _ => none

/-- The stage that a decision of the journal leads to. -/
def ofDecision (d : CommitJournalDecision) : Stage :=
  match d.kind, d.reservationId with
  | .replayCommitted, _ => .done (d.result.getD ⟨.failed, none⟩)
  | .unknown, _ => .done ⟨.unknownCommitState, none⟩
  | .idempotencyKeyReused, _ => .done ⟨.idempotencyKeyReused, none⟩
  | .execute, none => .done ⟨.failed, none⟩
  | .execute, some v => .reserved v

def next : Stage → (o : CommitOp) → o.Result → Stage
  | .arrived, .authorize, .ok true => .authorized
  | .arrived, .authorize, _ => .done ⟨.rejected, none⟩
  | .authorized, .begin _ _ _, .ok d => ofDecision d
  | .authorized, .begin _ _ _, .error _ => .done ⟨.failed, none⟩
  | .reserved v, .startCommit, _ => .running v
  | .running v, .awaitCommit, r => .settled v r
  | .settled _ _, .markCommitted _ _ _ _ result, .ok _ => .done result
  | .settled v _, .markCommitted _ _ _ _ _, .error _ => .doubtful v
  | .settled _ (.ok result), .markUnknown _ _ _ _, _ => .done result
  | .settled _ (.error _), .markUnknown _ _ _ _, _ => .done ⟨.unknownCommitState, none⟩
  | .settled _ (.ok result), .abandon _ _ _ _, _ => .done result
  | .doubtful _, .markUnknown _ _ _ _, _ => .done ⟨.unknownCommitState, none⟩
  | q, _, _ => q

/-- What a request may do at a stage. -/
inductive May (c : CommitCall) : Stage → CommitOp → Prop
  | authorize : May c .arrived .authorize
  | begin : May c .authorized (.begin c.jobId c.idempotencyKey c.digest)
  | startCommit {v : String} : May c (.reserved v) .startCommit
  | awaitCommit {v : String} : May c (.running v) .awaitCommit
  | markCommitted {v : String} {result : BridgeHostResult} : result.outcome = .ok →
      May c (.settled v (.ok result)) (.markCommitted c.jobId c.idempotencyKey c.digest v result)
  | markUnknown {v : String} {r : Except Unit BridgeHostResult} :
      (∀ result, r = .ok result → result.outcome = .unknownCommitState) →
      May c (.settled v r) (.markUnknown c.jobId c.idempotencyKey c.digest v)
  | abandon {v : String} {result : BridgeHostResult} : result.outcome ≠ .ok →
      result.outcome ≠ .unknownCommitState →
      May c (.settled v (.ok result)) (.abandon c.jobId c.idempotencyKey c.digest v)
  | giveUp {v : String} : May c (.doubtful v) (.markUnknown c.jobId c.idempotencyKey c.digest v)

end Stage

open DurableCommitCoordinator

variable {c : CommitCall}

/-- The relation that the stages of a request follow. -/
def CommitCall.next (_ : CommitCall) : Prog.Sem commitSig Stage := fun q o r q' => q' = q.next o r

theorem runReserved_sat {v : String} :
    (runReserved c.jobId c.idempotencyKey c.digest v).Sat c.next (Stage.May c) (.reserved v)
      (fun q a => q = .done a) := by
  unfold runReserved op
  refine ⟨.startCommit, ?_⟩
  rintro _ _ rfl
  refine ⟨.awaitCommit, ?_⟩
  rintro r _ rfl
  rcases r with err | result
  · refine ⟨.markUnknown nofun, ?_⟩
    rintro _ _ rfl
    rfl
  · obtain ⟨outcome, data⟩ := result
    cases outcome with
    | ok =>
        refine ⟨.markCommitted rfl, ?_⟩
        rintro r _ rfl
        rcases r with err | _
        · refine ⟨.giveUp, ?_⟩
          rintro _ _ rfl
          rfl
        · rfl
    | unknownCommitState =>
        refine ⟨.markUnknown (by rintro _ ⟨⟩; rfl), ?_⟩
        rintro _ _ rfl
        rfl
    | _ =>
        refine ⟨.abandon nofun nofun, ?_⟩
        rintro _ _ rfl
        rfl

theorem executeAsync_sat :
    c.run.Sat c.next (Stage.May c) .arrived (fun q a => q = .done a) := by
  unfold CommitCall.run executeAsync op
  refine ⟨.authorize, ?_⟩
  rintro r _ rfl
  rcases r with err | _ | _
  · rfl
  · rfl
  · refine ⟨.begin, ?_⟩
    rintro r _ rfl
    rcases r with err | d
    · rfl
    · obtain ⟨kind, result, v⟩ := d
      cases kind with
      | execute =>
          cases v with
          | none => rfl
          | some v => exact runReserved_sat
      | replayCommitted => rfl
      | unknown => rfl
      | idempotencyKeyReused => rfl

/-- Every request keeps to the stages. -/
def commitProtocol :
    Pool.Protocol commitSig CommitCall BridgeHostResult Stage CommitCall.run where
  first _ := .arrived
  next := CommitCall.next
  may := Stage.May
  returns _ q a := q = .done a
  keeps _ := executeAsync_sat

end CadHarness.Journal

namespace CadHarness.Journal
open CadHarness.Lib DurableCommitJournal

variable {P : Primitives} {s s' : Site} {c : CommitCall} {q : Stage}

def CommitCall.keyHash (P : Primitives) (c : CommitCall) : String :=
  computeKeyHash P c.jobId c.idempotencyKey

/-- The entry is the request's own open reservation. -/
def CommitCall.Owns (P : Primitives) (c : CommitCall) (v : String) (files : Directory)
    (e : JournalEnvelope) : Prop :=
  Owned c.process (c.keyHash P) c.digest v files e

/-- What a step of the request `c` at the stage `q` may make of the entry of its key. -/
inductive Effect (P : Primitives) (s : Site) (c : CommitCall) (q : Stage) :
    Option JournalEnvelope → Option JournalEnvelope → Prop
  | kept {x : Option JournalEnvelope} : Effect P s c q x x
  | reserved {v : String} : q = .authorized →
      Effect P s c q none
        (some (envelope P (preparedRecord (c.keyHash P) c.digest c.process v)))
  | committed {e : JournalEnvelope} {v : String} {data : JsonObject} : q.reservation? = some v →
      c.Owns P v s.files e →
      Effect P s c q (some e) (some (envelope P
        { e.payload with state := .committed, resultData := some (sanitizeData data) }))
  | unknown {e : JournalEnvelope} : e.payload.state = .prepared →
      (¬ s.Alive (owner e.payload) ∨ ∃ v, q.reservation? = some v ∧ c.Owns P v s.files e) →
      Effect P s c q (some e) (some (envelope P e.payload.asUnknown))
  | removed {e : JournalEnvelope} {v : String} : q.reservation? = some v → c.Owns P v s.files e →
      Effect P s c q (some e) none

/-- No process started or died. -/
def SameProcesses (s s' : Site) : Prop :=
  ∀ p, (s'.Alive p ↔ s.Alive p) ∧ (s.process p ≠ .absent → s'.process p ≠ .absent)

theorem SameProcesses.refl : SameProcesses s s := fun _ => ⟨Iff.rfl, fun h => h⟩

/-- The request's step changes the journal as `Effect` says, and leaves the other keys and the
processes' being alive. -/
structure Touches (P : Primitives) (s : Site) (c : CommitCall) (q : Stage) (s' : Site) : Prop where
  processes : SameProcesses s s'
  others : ∀ name, name ≠ c.keyHash P → s'.files.lookup name = s.files.lookup name
  own : Effect P s c q (s.files.lookup (c.keyHash P)) (s'.files.lookup (c.keyHash P))
  valid : Valid P s.files → Valid P s'.files

theorem Site.after_processes {p : CommitJournalProcessIdentity} {t : Session} (h : s.Alive p) :
    SameProcesses s (s.after p t) := by
  intro p'
  by_cases hp : p' = p
  · subst hp
    exact ⟨iff_of_true ⟨_, Site.after_self⟩ h, fun _ => by rw [Site.after_self]; exact nofun⟩
  · rw [Site.Alive, Site.Alive, Site.after_of_ne hp]
    exact ⟨Iff.rfl, fun h => h⟩

/-- A call on the journal meets the postcondition of its method. -/
theorem Site.Calls.post {α : Type} {p : CommitJournalProcessIdentity} {m : JournalM α}
    {r : Except Exception α} {Q : Directory → Except Exception α → Directory → Prop}
    (h : s.Calls p m r s')
    (hm : ∀ t : Session, Post m t (fun r t' => Q t.files r t'.files)) :
    Q s.files r s'.files ∧ SameProcesses s s' := by
  cases h with
  | ok hp hrun => exact ⟨(hm _).ok hrun, Site.after_processes ⟨_, hp⟩⟩
  | error hp hrun => exact ⟨(hm _).error hrun, Site.after_processes ⟨_, hp⟩⟩

theorem Touches.kept (ha : SameProcesses s s') (hf : s'.files = s.files) :
    Touches P s c q s' :=
  ⟨ha, fun _ _ => by rw [hf], by rw [hf]; exact .kept, fun h => by rw [hf]; exact h⟩

/-- Replacing the entry of the request's key by a valid one. -/
theorem Touches.set (ha : SameProcesses s s') {record : JournalRecord}
    (hf : s'.files = Assoc.set s.files (c.keyHash P) (envelope P record))
    (hv : Valid P s.files → ValidRecord (c.keyHash P) record) (hs : Sized P record)
    (he : Effect P s c q (s.files.lookup (c.keyHash P)) (some (envelope P record))) :
    Touches P s c q s' := by
  refine ⟨ha, fun name hn => ?_, ?_, fun h => ?_⟩
  · rw [hf, Assoc.lookup_set_ne _ _ hn]
  · rw [hf, Assoc.lookup_set_self]; exact he
  · have hr := hv h
    have hk := hr.keyHash
    rw [← hk] at hr hf
    rw [hf]
    exact h.set hr hs

theorem ValidRecord.complete {name : String} {record : JournalRecord} (h : ValidRecord name record)
    {state : CommitJournalState} {resultData : Option JsonObject}
    (hiff : state = .committed ↔ resultData.isSome = true) :
    ValidRecord name { record with state := state, resultData := resultData } :=
  ⟨h.version, h.keyHash, h.name, h.digest, h.processId, h.startTime, h.reservationId, hiff⟩

theorem Touches.transition (ha : SameProcesses s s') {v : String} (hq : q.reservation? = some v)
    {r : Except Exception Unit} {state : CommitJournalState} {resultData : Option JsonObject}
    (h : TransitionResult P c.process (c.keyHash P) c.digest v state resultData
      s.files r s'.files)
    (hst : (state = .unknown ∧ resultData = none) ∨
      ∃ data, state = .committed ∧ resultData = some (sanitizeData data)) :
    Touches P s c q s' := by
  generalize hf : s'.files = files at h
  cases h with
  | failed => exact .kept ha hf
  | replaced hO hs =>
      refine Touches.set ha hf (fun hV => ?_) hs ?_
      · refine (hV _ _ hO.lookup).record.complete ?_
        rcases hst with ⟨rfl, rfl⟩ | ⟨data, rfl, rfl⟩ <;> simp
      · rw [hO.lookup]
        rcases hst with ⟨rfl, rfl⟩ | ⟨data, rfl, rfl⟩
        · exact .unknown hO.state (Or.inr ⟨v, hq, hO⟩)
        · exact .committed hq hO

theorem Touches.abandon (ha : SameProcesses s s') {v : String} (hq : q.reservation? = some v)
    {r : Except Exception Unit}
    (h : AbandonResult c.process (c.keyHash P) c.digest v s.files r s'.files) : Touches P s c q s' := by
  generalize hf : s'.files = files at h
  cases h with
  | failed => exact .kept ha hf
  | removed hO =>
      refine ⟨ha, fun name hn => ?_, ?_, fun hV => ?_⟩
      · rw [hf, Assoc.lookup_remove_ne _ hn]
      · rw [hf, Assoc.lookup_remove_self, hO.lookup]; exact .removed hq hO
      · rw [hf]; exact hV.remove _

/-- A process identity as the operating system gives it. -/
def CommitJournalProcessIdentity.Positive (p : CommitJournalProcessIdentity) : Prop :=
  0 < p.processId ∧ 0 < p.startTimeUtcTicks

theorem Touches.begin (ha : SameProcesses s s') {io : Io} (hio : s.Sound io)
    (hp : c.process.Positive) {r : Except Exception CommitJournalDecision}
    (h : BeginResult P io c.process c.jobId (c.keyHash P) c.digest
      (ValidIdentity c.jobId c.idempotencyKey c.digest) s.files r s'.files) :
    Touches P s c .authorized s' := by
  generalize hf : s'.files = files at h
  cases h with
  | failed _ => exact .kept ha hf
  | reserved hnone _ hid hs =>
      refine Touches.set ha hf (fun _ => ?_) hs (by rw [hnone]; exact .reserved rfl)
      exact ⟨rfl, rfl, P.sha256_hex _, hid.2.2.2.2, hp.1, hp.2, io.newGuid_hex, by simp [preparedRecord]⟩
  | reused _ _ => exact .kept ha hf
  | replayed _ _ _ _ _ => exact .kept ha hf
  | unknown _ _ _ => exact .kept ha hf
  | recovered he _ hst hdead _ hs =>
      refine Touches.set ha hf (fun hV => (hV _ _ he).record.complete (by simp)) hs ?_
      rw [he]
      exact .unknown hst (Or.inl (hio _ hdead))

/-! ## Where the step takes the request -/

/-- The step removed the reservation. -/
def CommitOp.Abandons : (o : CommitOp) → o.Result → Prop
  | .abandon _ _ _ _, .ok _ => True
  | _, _ => False

/-- The result is the one the journal holds for the request. -/
def CommittedAs (P : Primitives) (files : Directory) (c : CommitCall) (a : BridgeHostResult) : Prop :=
  ValidIdentity c.jobId c.idempotencyKey c.digest ∧ ∃ e data, files.lookup (c.keyHash P) = some e ∧ e.payload.state = .committed ∧
    e.payload.digest = c.digest ∧ a.data = some data ∧
    e.payload.resultData = some (sanitizeData data)

/-- The entry of a request that has a reservation to complete. -/
def HeldAs (P : Primitives) (c : CommitCall) (q : Stage) (v : String) (e : JournalEnvelope) : Prop :=
  ValidIdentity c.jobId c.idempotencyKey c.digest ∧
    (e.payload = preparedRecord (c.keyHash P) c.digest c.process v ∨
      (q = .doubtful v ∧ e.payload.state = .committed))

/-- No entry keeps the job it was computed for. -/
def Clean (files : Directory) : Prop :=
  ∀ name e data, files.lookup name = some e → e.payload.resultData = some data →
    data.lookup "job_id" = none

/-- A step of a request: what it does to the journal, and what is true at the stage it leads to. -/
structure Moves (P : Primitives) (s : Site) (c : CommitCall) (q : Stage) (o : CommitOp) (r : o.Result)
    (s' : Site) : Prop where
  touches : Touches P s c q s'
  held : ∀ v, (q.next o r).reservation? = some v →
    (q.reservation? = some v ∧ ∃ e, s'.files.lookup (c.keyHash P) = some e ∧
      HeldAs P c (q.next o r) v e) ∨
    (s.files.lookup (c.keyHash P) = none ∧ ∃ e, s'.files.lookup (c.keyHash P) = some e ∧
      HeldAs P c (q.next o r) v e)
  replies : ∀ a, q.next o r = .done a → a.outcome = .ok → CommittedAs P s'.files c a
  removes : s.files.lookup (c.keyHash P) ≠ none → s'.files.lookup (c.keyHash P) = none → o.Abandons r

theorem BeginResult.present {io : Io} {process : CommitJournalProcessIdentity} {jobId h d : String}
    {identity : Prop} {files files' : Directory} {r : Except Exception CommitJournalDecision}
    (hr : BeginResult P io process jobId h d identity files r files') (hsome : files.lookup h ≠ none) :
    files'.lookup h ≠ none := by
  cases hr with
  | reserved _ _ _ _ => rw [Assoc.lookup_set_self]; exact nofun
  | recovered _ _ _ _ _ _ => rw [Assoc.lookup_set_self]; exact nofun
  | _ => exact hsome

theorem TransitionResult.present {process : CommitJournalProcessIdentity} {h d v : String}
    {state : CommitJournalState} {resultData : Option JsonObject} {files files' : Directory}
    {r : Except Exception Unit} (hr : TransitionResult P process h d v state resultData files r files')
    (hsome : files.lookup h ≠ none) : files'.lookup h ≠ none := by
  cases hr with
  | failed => exact hsome
  | replaced _ _ => rw [Assoc.lookup_set_self]; exact nofun

/-- Marking the outcome unknown ends a request without a success. -/
theorem markUnknown_moves {v : String} {r : Except Exception Unit} (hq : q.reservation? = some v)
    (hact : s.Act P c (.markUnknown c.jobId c.idempotencyKey c.digest v) r s')
    (hdone : ∃ a, q.next (.markUnknown c.jobId c.idempotencyKey c.digest v) r = .done a ∧
      a.outcome ≠ .ok) :
    Moves P s c q (.markUnknown c.jobId c.idempotencyKey c.digest v) r s' := by
  obtain ⟨io, hio, hcall⟩ := hact
  obtain ⟨hr, hproc⟩ := hcall.post (Q := fun files r files' =>
    TransitionResult P c.process (c.keyHash P) c.digest v .unknown none files r files')
    (fun _ => markUnknown_post)
  obtain ⟨a, hdone, ha⟩ := hdone
  refine ⟨.transition hproc hq hr (Or.inl ⟨rfl, rfl⟩), ?_, ?_, fun h h' => absurd h' (TransitionResult.present hr h)⟩
  · rw [hdone]; exact nofun
  · rw [hdone]; rintro _ ⟨⟩ hok; exact absurd hok ha

theorem act_moves {o : CommitOp} {r : o.Result} (hmay : Stage.May c q o) (hact : s.Act P c o r s')
    (ha : s.Alive c.process) (hp : c.process.Positive) (hclean : Clean s.files)
    (hheld : ∀ v, q.reservation? = some v →
      ∃ e, s.files.lookup (c.keyHash P) = some e ∧ HeldAs P c q v e) :
    Moves P s c q o r s' := by
  cases hmay with
  | authorize =>
      obtain rfl : s' = s := hact
      refine ⟨.kept .refl rfl, ?_, ?_, fun h h' => absurd h' h⟩
      · rcases r with _ | _ | _ <;> exact nofun
      · rcases r with _ | _ | _
        · rintro _ ⟨⟩ ⟨⟩
        · rintro _ ⟨⟩ ⟨⟩
        · exact nofun
  | startCommit =>
      obtain rfl : s' = s := hact
      refine ⟨.kept .refl rfl, ?_, nofun, fun h h' => absurd h' h⟩
      intro v hv
      obtain ⟨e, he, hid, hheld⟩ := hheld v hv
      exact Or.inl ⟨hv, e, he, hid, Or.inl (hheld.resolve_right nofun)⟩
  | awaitCommit =>
      obtain rfl : s' = s := hact
      refine ⟨.kept .refl rfl, ?_, nofun, fun h h' => absurd h' h⟩
      intro v hv
      obtain ⟨e, he, hid, hheld⟩ := hheld v hv
      exact Or.inl ⟨hv, e, he, hid, Or.inl (hheld.resolve_right nofun)⟩
  | begin =>
      obtain ⟨io, hio, hcall⟩ := hact
      obtain ⟨hr, hproc⟩ := hcall.post (Q := fun files r files' =>
        BeginResult P io c.process c.jobId (c.keyHash P) c.digest
          (ValidIdentity c.jobId c.idempotencyKey c.digest) files r files') (fun _ => begin_post)
      refine ⟨.begin hproc hio hp hr, ?_, ?_, fun h h' => absurd h' (BeginResult.present hr h)⟩
      all_goals generalize s'.files = files at hr
      · intro v hv
        cases hr with
        | reserved hnone hok hid _ =>
            rcases r with err | d
            · cases hv
            obtain rfl := hok d rfl
            obtain rfl : io.newGuid = v := Option.some.inj hv
            exact Or.inr ⟨hnone, _, Assoc.lookup_set_self _ _ _, hid, Or.inl rfl⟩
        | recovered _ _ _ _ hok _ =>
            rcases r with err | d
            · cases hv
            · obtain rfl := hok d rfl; cases hv
        | _ => cases hv
      · intro a hq' hok'
        cases hr with
        | reserved _ hok _ _ =>
            rcases r with err | d
            · cases hq'; cases hok'
            · obtain rfl := hok d rfl; cases hq'
        | @replayed e data he hd hst hdata hid =>
            cases hq'
            refine ⟨hid, e, _, he, hst, hd, rfl, ?_⟩
            rw [hdata, restoreResultData, sanitizeData,
              Assoc.remove_set_of_lookup_none (hclean _ _ _ he hdata)]
        | recovered _ _ _ _ hok _ =>
            rcases r with err | d
            · cases hq'; cases hok'
            · obtain rfl := hok d rfl; cases hq'; cases hok'
        | _ => cases hq'; cases hok'
  | @markCommitted v result ho =>
      obtain ⟨io, hio, hcall⟩ := hact
      obtain ⟨hr, hproc⟩ := hcall.post (Q := fun files r files' =>
        (∃ e, r = .error e ∧ files' = files) ∨ ∃ data, result.data = some data ∧
          TransitionResult P c.process (c.keyHash P) c.digest v .committed
            (some (sanitizeData data)) files r files') (fun _ => markCommitted_post)
      obtain ⟨e, he, hid, hpre⟩ := hheld v rfl
      have hpre := hpre.resolve_right nofun
      rcases hr with ⟨err, rfl, hf⟩ | ⟨data, hdata, hr⟩
      · refine ⟨.kept hproc hf, ?_, nofun, fun h h' => absurd (hf ▸ h') h⟩
        rintro _ ⟨⟩
        exact Or.inl ⟨rfl, e, by rw [hf]; exact he, hid, Or.inl hpre⟩
      · refine ⟨.transition hproc rfl hr (Or.inr ⟨data, rfl, rfl⟩), ?_, ?_,
          fun h h' => absurd h' (TransitionResult.present hr h)⟩
        all_goals generalize s'.files = files at hr
        · intro w hw
          cases hr with
          | failed =>
              cases hw
              exact Or.inl ⟨rfl, e, he, hid, Or.inl hpre⟩
          | replaced hO hs =>
              rcases r with err | _
              · cases hw
                exact Or.inl ⟨rfl, _, Assoc.lookup_set_self _ _ _, hid, Or.inr ⟨rfl, rfl⟩⟩
              · cases hw
        · intro a hq' _
          cases hr with
          | failed => cases hq'
          | replaced hO hs =>
              rcases r with err | _
              · cases hq'
              · cases hq'
                exact ⟨hid, _, data, Assoc.lookup_set_self _ _ _, rfl, hO.digest, hdata, rfl⟩
  | @markUnknown v r' ho =>
      refine markUnknown_moves rfl hact ?_
      rcases r' with err | result
      · exact ⟨_, rfl, nofun⟩
      · refine ⟨result, rfl, ?_⟩
        rw [ho result rfl]
        exact nofun
  | @abandon v result h₁ h₂ =>
      obtain ⟨io, hio, hcall⟩ := hact
      obtain ⟨hr, hproc⟩ := hcall.post (Q := fun files r files' =>
        AbandonResult c.process (c.keyHash P) c.digest v files r files') (fun _ => abandon_post)
      refine ⟨.abandon hproc rfl hr, ?_, ?_, ?_⟩
      · rcases r with _ | _ <;> exact nofun
      · rcases r with _ | _ <;> (rintro _ ⟨⟩ hok; exact absurd hok h₁)
      · intro hsome hnone
        generalize s'.files = files at hr hnone
        cases hr with
        | failed => exact absurd hnone hsome
        | removed _ => trivial
  | giveUp => exact markUnknown_moves rfl hact ⟨_, rfl, nofun⟩

end CadHarness.Journal
