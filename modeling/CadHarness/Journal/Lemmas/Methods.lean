import CadHarness.Journal.DurableCommitJournal
import CadHarness.Lib.Post

/-!
# What each method of the journal may do

One lemma a method: the results it may have, and what each result says of the entry it is about, before
and after. No later proof opens a method.
-/

namespace CadHarness.Journal
open CadHarness.Lib

variable {P : Primitives} {io : Io} {process : CommitJournalProcessIdentity} {s : Session}
  {jobId idempotencyKey digest reservationId : String}

/-! ## Valid entries -/

/-- An entry of at most the maximal size. -/
def Sized (P : Primitives) (record : JournalRecord) : Prop :=
  0 < P.payloadLength (envelope P record) ∧ P.payloadLength (envelope P record) ≤ maximumJournalBytes

/-- A record that passes the check on loading. -/
structure ValidRecord (name : String) (record : JournalRecord) : Prop where
  version : record.version = journalVersion
  keyHash : record.keyHash = name
  name : isLowerHex name 64 = true
  digest : isLowerHex record.digest 64 = true
  processId : 0 < record.ownerProcessId
  startTime : 0 < record.ownerStartTimeUtcTicks
  reservationId : isLowerHex record.reservationId 32 = true
  resultData : record.state = .committed ↔ record.resultData.isSome = true

/-- An entry that is read without an error, unless the operating system fails. -/
structure ValidEntry (P : Primitives) (name : String) (e : JournalEnvelope) : Prop where
  eq : e = envelope P e.payload
  sized : Sized P e.payload
  record : ValidRecord name e.payload

/-- Every file of the directory can be read. -/
def Valid (P : Primitives) (files : Directory) : Prop :=
  ∀ name e, files.lookup name = some e → ValidEntry P name e

theorem Valid.set {files : Directory} (h : Valid P files) {record : JournalRecord}
    (hr : ValidRecord record.keyHash record) (hs : Sized P record) :
    Valid P (Assoc.set files record.keyHash (envelope P record)) := by
  intro name e he
  rw [Assoc.lookup_set] at he
  split at he
  · cases he
    subst name
    exact ⟨rfl, hs, hr⟩
  · exact h name e he

theorem Valid.remove {files : Directory} (h : Valid P files) (name : String) :
    Valid P (Assoc.remove files name) := by
  intro name' e he
  rw [Assoc.lookup_remove] at he
  split at he
  · cases he
  · exact h name' e he

/-- The identity of a request, as the journal accepts it. -/
def ValidIdentity (jobId idempotencyKey digest : String) : Prop :=
  DotNet.isNullOrWhiteSpace jobId = false ∧ DotNet.length jobId ≤ 64 ∧
    DotNet.isNullOrWhiteSpace idempotencyKey = false ∧ DotNet.length idempotencyKey ≤ 128 ∧
    isLowerHex digest 64 = true

theorem validateIdentity_post :
    Post (validateIdentity jobId idempotencyKey digest) s (fun r s' => s' = s ∧
      (r = .ok () ↔ ValidIdentity jobId idempotencyKey digest)) := by
  unfold validateIdentity ValidIdentity
  rw [Post.ite]
  constructor
  · intro hc
    simp only [Bool.or_eq_true, decide_eq_true_eq, Bool.not_eq_true'] at hc
    simp only [Post.throw, reduceCtorEq, true_and, false_iff]
    rintro ⟨h₁, h₂, h₃, h₄, h₅⟩
    simp [h₁, h₃, h₅] at hc
    omega
  · intro hc
    simp only [Bool.or_eq_true, decide_eq_true_eq, Bool.not_eq_true', not_or, Nat.not_lt,
      Bool.not_eq_true, Bool.not_eq_false] at hc
    simpa [and_assoc] using hc

theorem acquireInterprocessLock_post :
    Post (acquireInterprocessLock io) s (fun r s' => s' = s ∧ (r = .ok () ↔ io.lockAcquired = true)) := by
  unfold acquireInterprocessLock
  rw [Post.ite]
  simp

theorem validateLoadedRecord_post {name : String} {record : JournalRecord} :
    Post (validateLoadedRecord name record) s (fun r s' => s' = s ∧
      (r = .ok () ↔ ValidRecord name record)) := by
  unfold validateLoadedRecord
  rw [Post.ite]
  constructor
  · intro hc
    simp only [Post.throw, reduceCtorEq, true_and, false_iff]
    rintro ⟨h₁, h₂, h₃, h₄, h₅, h₆, h₇, h₈⟩
    subst h₂
    simp only [h₁, h₃, h₄, h₇, Int.not_le.mpr h₅, Int.not_le.mpr h₆] at hc
    cases hr : record.resultData.isSome <;> simp_all
  · intro hc
    simp only [Bool.or_eq_true, decide_eq_true_eq, Bool.not_eq_true', not_or, Int.not_le, ne_eq,
      Bool.not_eq_false, bne_iff_ne, not_not] at hc
    obtain ⟨⟨⟨⟨⟨⟨⟨h₁, h₂⟩, h₃⟩, h₄⟩, h₅⟩, h₆⟩, h₇⟩, h₈⟩ := hc
    refine ⟨rfl, iff_of_true rfl ⟨h₁, h₂, h₂ ▸ h₃, h₄, h₅, h₆, h₇, ?_⟩⟩
    rw [← h₈, decide_eq_true_eq]

theorem validateAuthentication_post {e : JournalEnvelope} :
    Post (validateAuthentication P e) s (fun r s' => s' = s ∧
      (r = .ok () ↔ e = envelope P e.payload)) := by
  unfold validateAuthentication
  obtain ⟨record, tag⟩ := e
  by_cases ht : P.hmac record = tag
  · subst ht
    simp [P.hmac_hex, envelope]
  · have hne : ¬ tag = P.hmac record := fun h => ht h.symm
    simp only [envelope, JournalEnvelope.mk.injEq, true_and, hne, iff_false, Post.ite]
    simp [ht]

theorem readRecord_post {name : String} {e : JournalEnvelope} :
    Post (readRecord P io name e) s (fun r s' => s' = s ∧
      (∀ record, r = .ok record → record = e.payload ∧ ValidEntry P name e) ∧
      (io.readable name = true → ValidEntry P name e → r = .ok e.payload)) := by
  unfold readRecord
  simp only [Post.bind, Post.ite, Post.throw, Post.pure]
  refine ⟨fun hn => ⟨trivial, fun _ => Post.not_ok, fun _ hv => ?_⟩, fun hn =>
    ⟨fun hz => ⟨trivial, fun _ => Post.not_ok, fun _ hv => ?_⟩, fun hz =>
      ⟨fun hr => ⟨trivial, fun _ => Post.not_ok, fun hr' => ?_⟩, fun _ => ?_⟩⟩⟩
  · simp [hv.record.name] at hn
  · have hs := hv.sized
    rw [Sized, ← hv.eq] at hs
    simp only [Bool.or_eq_true, decide_eq_true_eq] at hz
    omega
  · simp [hr'] at hr
  · refine validateAuthentication_post.mono ?_
    rintro r s' ⟨rfl, hr⟩
    rcases r with err | _
    · exact ⟨rfl, fun _ => Post.not_ok, fun _ hv => Post.not_ok (hr.mpr hv.eq)⟩
    · have heq := hr.mp rfl
      refine validateLoadedRecord_post.mono ?_
      rintro r s' ⟨rfl, hr⟩
      rcases r with err | _
      · exact ⟨rfl, fun _ => Post.not_ok, fun _ hv => Post.not_ok (hr.mpr hv.record)⟩
      · simp only [Bool.or_eq_true, decide_eq_true_eq] at hz
        have hs : Sized P e.payload := by rw [Sized, ← heq]; omega
        exact ⟨rfl, by rintro _ ⟨⟩; exact ⟨rfl, heq, hs, hr.mp rfl⟩, fun _ _ => trivial⟩

/-- Afterwards the cache holds of the entry what the directory holds. -/
theorem refreshRecord_post {keyHash : String} :
    Post (refreshRecord P io keyHash) s (fun r s' => s'.files = s.files ∧
      (r = .ok () → s'.records.lookup keyHash = (s.files.lookup keyHash).map JournalEnvelope.payload ∧
        ∀ e, s.files.lookup keyHash = some e → ValidEntry P keyHash e) ∧
      (io.readable keyHash = true → Valid P s.files → r = .ok ())) := by
  unfold refreshRecord
  simp only [Post.bind, Post.get]
  cases hf : s.files.lookup keyHash with
  | none => exact ⟨rfl, fun _ => ⟨Assoc.lookup_remove_self _ _, by simp⟩, fun _ _ => rfl⟩
  | some e =>
      simp only [Post.bind]
      refine readRecord_post.mono ?_
      rintro r s' ⟨rfl, hok, hv⟩
      cases r with
      | error err => exact ⟨rfl, Post.not_ok, fun hr hV => Post.not_ok (hv hr (hV _ _ hf))⟩
      | ok record =>
          obtain ⟨rfl, hvalid⟩ := hok record rfl
          simpa using hvalid

/-- The file of the record is there afterwards, or nothing has happened. -/
theorem persist_post {record : JournalRecord} :
    Post (persist P io record) s (fun r s' => s'.records = s.records ∧
      ((∃ e, r = .error e ∧ s'.files = s.files) ∨
        (Sized P record ∧ s'.files = Assoc.set s.files record.keyHash (envelope P record)))) := by
  unfold persist
  simp only [Post.bind, Post.ite, Post.throw]
  refine ⟨fun _ => ⟨trivial, Or.inl ⟨_, rfl, trivial⟩⟩, fun hz => ?_⟩
  have hs : Sized P record := by
    simp only [Bool.or_eq_true, decide_eq_true_eq] at hz
    unfold Sized
    omega
  cases io.persist record.keyHash with
  | failed => exact ⟨rfl, Or.inl ⟨_, rfl, rfl⟩⟩
  | replacedThenFailed => exact ⟨rfl, Or.inr ⟨hs, rfl⟩⟩
  | done => exact ⟨rfl, Or.inr ⟨hs, rfl⟩⟩

/-- A record whose outcome is not known any more. -/
def JournalRecord.asUnknown (record : JournalRecord) : JournalRecord :=
  { record with state := .unknown, resultData := none }

theorem recoverAsUnknown_post {record : JournalRecord} :
    Post (recoverAsUnknown P io record) s (fun r s' =>
      (∀ x, r = .ok x → x = record.asUnknown) ∧
      ((∃ e, r = .error e ∧ s'.files = s.files) ∨ (Sized P record.asUnknown ∧
        s'.files = Assoc.set s.files record.keyHash (envelope P record.asUnknown)))) := by
  unfold recoverAsUnknown
  simp only [Post.bind]
  refine persist_post.mono ?_
  rintro r s' ⟨_, hr⟩
  cases r with
  | error e =>
      refine ⟨fun _ => Post.not_ok, ?_⟩
      rcases hr with ⟨_, _, hf⟩ | ⟨hs, hf⟩
      · exact Or.inl ⟨e, rfl, hf⟩
      · exact Or.inr ⟨hs, hf⟩
  | ok _ =>
      refine ⟨by rintro _ ⟨⟩; rfl, ?_⟩
      rcases hr with ⟨_, hr, _⟩ | ⟨hs, hf⟩
      · cases hr
      · exact Or.inr ⟨hs, hf⟩

/-! ## Begin -/

namespace DurableCommitJournal

/-- What `Begin` may answer, given the entry that is there, and the files it leaves. -/
inductive BeginResult (P : Primitives) (io : Io) (process : CommitJournalProcessIdentity)
    (jobId keyHash digest : String) (identity : Prop) (files : Directory) :
    Except Exception CommitJournalDecision → Directory → Prop
  | failed {e : Exception} :
      (io.Faultless → identity → Valid P files → ∀ e, files.lookup keyHash = some e →
        e.payload.state = .prepared) →
      BeginResult P io process jobId keyHash digest identity files (.error e) files
  | reserved {r : Except Exception CommitJournalDecision} : files.lookup keyHash = none →
      (∀ d, r = .ok d → d = ⟨.execute, none, some io.newGuid⟩) → identity →
      Sized P (preparedRecord keyHash digest process io.newGuid) →
      BeginResult P io process jobId keyHash digest identity files r
        (Assoc.set files keyHash (envelope P (preparedRecord keyHash digest process io.newGuid)))
  | reused {e : JournalEnvelope} : files.lookup keyHash = some e → e.payload.digest ≠ digest →
      BeginResult P io process jobId keyHash digest identity files
        (.ok ⟨.idempotencyKeyReused, none, none⟩) files
  | replayed {e : JournalEnvelope} {data : JsonObject} : files.lookup keyHash = some e →
      e.payload.digest = digest → e.payload.state = .committed → e.payload.resultData = some data →
      identity →
      BeginResult P io process jobId keyHash digest identity files
        (.ok ⟨.replayCommitted, some (.success (restoreResultData data jobId)), none⟩) files
  | unknown {e : JournalEnvelope} : files.lookup keyHash = some e → e.payload.digest = digest →
      e.payload.state ≠ .committed →
      BeginResult P io process jobId keyHash digest identity files (.ok ⟨.unknown, none, none⟩) files
  | recovered {e : JournalEnvelope} {r : Except Exception CommitJournalDecision} :
      files.lookup keyHash = some e → e.payload.digest = digest → e.payload.state = .prepared →
      io.liveness (owner e.payload) = .dead → (∀ d, r = .ok d → d = ⟨.unknown, none, none⟩) →
      Sized P e.payload.asUnknown →
      BeginResult P io process jobId keyHash digest identity files r
        (Assoc.set files keyHash (envelope P e.payload.asUnknown))

theorem decideExisting_post {keyHash : String} {identity : Prop} {e : JournalEnvelope}
    (hf : s.files.lookup keyHash = some e) (hv : ValidEntry P keyHash e) (hid : identity) :
    Post (decideExisting P io jobId digest e.payload) s (fun r s' =>
      BeginResult P io process jobId keyHash digest identity s.files r s'.files) := by
  unfold decideExisting
  simp only [Post.bind, Post.ite, Post.pure]
  refine ⟨fun hd => .reused hf hd, fun hd => ?_⟩
  have hd : e.payload.digest = digest := not_not.mp hd
  constructor
  · intro hc
    simp only [Bool.and_eq_true, decide_eq_true_eq, isOwnerProvenDead] at hc
    refine recoverAsUnknown_post.mono ?_
    rintro r s' ⟨hok, hfiles⟩
    rw [hv.record.keyHash] at hfiles
    rcases r with err | x
    · rcases hfiles with ⟨_, _, hfiles⟩ | ⟨hs, hfiles⟩
      · simp only [hfiles]
        refine .failed (fun _ _ _ e' he' => ?_)
        rw [hf] at he'
        cases he'
        exact hc.1
      · simp only [hfiles]; exact .recovered hf hd hc.1 hc.2 (fun _ => Post.not_ok) hs
    · obtain rfl := hok x rfl
      rcases hfiles with ⟨_, hr, _⟩ | ⟨hs, hfiles⟩
      · cases hr
      · simp only [JournalRecord.asUnknown, Post.pure]
        rw [hfiles]
        exact .recovered hf hd hc.1 hc.2 (by rintro _ ⟨⟩; rfl) hs
  · intro _
    have hiff := hv.record.resultData
    cases hst : e.payload.state with
    | prepared => exact .unknown hf hd (by simp [hst])
    | unknown => exact .unknown hf hd (by simp [hst])
    | committed =>
        cases hr : e.payload.resultData with
        | none => simp [hst, hr] at hiff
        | some data => exact .replayed hf hd hst hr hid

theorem begin_post {idempotencyKey : String} :
    Post (begin P io process jobId idempotencyKey digest) s (fun r s' =>
      BeginResult P io process jobId (computeKeyHash P jobId idempotencyKey) digest
        (ValidIdentity jobId idempotencyKey digest) s.files r s'.files) := by
  unfold begin
  simp only [Post.bind]
  refine validateIdentity_post.mono ?_
  rintro r s' ⟨rfl, hid⟩
  rcases r with err | _
  · exact .failed (fun _ h => Post.not_ok (hid.mpr h))
  have hid := hid.mp rfl
  refine acquireInterprocessLock_post.mono ?_
  rintro r s' ⟨rfl, hlock⟩
  rcases r with err | _
  · exact .failed (fun h => Post.not_ok (hlock.mpr h.lockAcquired))
  refine refreshRecord_post.mono ?_
  rintro r s' ⟨hfiles, hok, hread⟩
  rcases r with err | _
  · simp only [hfiles]
    exact .failed (fun h _ hV => Post.not_ok (hread (h.readable _) hV))
  obtain ⟨hlookup, hvalid⟩ := hok rfl
  simp only [Post.get]
  rw [← hfiles] at hlookup hvalid ⊢
  cases hf : s'.files.lookup (computeKeyHash P jobId idempotencyKey) with
  | some e =>
      rw [hf] at hlookup
      simp only [hlookup, Option.map_some]
      exact decideExisting_post hf (hvalid e hf) hid
  | none =>
      rw [hf] at hlookup
      simp only [hlookup, Option.map_none, Post.bind, current, Post.ite, Post.pure, Post.throw]
      have hnone : ∀ e, s'.files.lookup (computeKeyHash P jobId idempotencyKey) = some e →
          e.payload.state = .prepared := by
        simp [hf]
      refine ⟨fun _ => ?_, fun _ => .failed (fun _ _ _ => hnone)⟩
      refine persist_post.mono ?_
      rintro r t ⟨_, hp⟩
      rcases r with err | _
      · rcases hp with ⟨_, _, ht⟩ | ⟨hs, ht⟩
        · simp only [ht]; exact .failed (fun _ _ _ => hnone)
        · simp only [ht]; exact .reserved hf (fun _ => Post.not_ok) hid hs
      · rcases hp with ⟨_, hr, _⟩ | ⟨hs, ht⟩
        · cases hr
        · simp only [Post.modify, ht]
          exact .reserved hf (by rintro _ ⟨⟩; rfl) hid hs

/-! ## Transitions and removal -/

/-- The reservation that a call completes: the prepared entry that its process made. -/
structure Owned (process : CommitJournalProcessIdentity) (keyHash digest reservationId : String)
    (files : Directory) (e : JournalEnvelope) : Prop where
  lookup : files.lookup keyHash = some e
  keyHash : e.payload.keyHash = keyHash
  digest : e.payload.digest = digest
  state : e.payload.state = .prepared
  reservationId : e.payload.reservationId = reservationId
  owner : owner e.payload = process

/-- What completing a reservation may do: nothing, with an exception, or replace the entry. -/
inductive TransitionResult (P : Primitives) (process : CommitJournalProcessIdentity)
    (keyHash digest reservationId : String) (state : CommitJournalState)
    (resultData : Option JsonObject) (files : Directory) : Except Exception Unit → Directory → Prop
  | failed {e : Exception} :
      TransitionResult P process keyHash digest reservationId state resultData files (.error e) files
  | replaced {e : JournalEnvelope} {r : Except Exception Unit} :
      Owned process keyHash digest reservationId files e →
      Sized P { e.payload with state := state, resultData := resultData } →
      TransitionResult P process keyHash digest reservationId state resultData files r
        (Assoc.set files keyHash
          (envelope P { e.payload with state := state, resultData := resultData }))

/-- What removing a reservation may do: nothing, with an exception, or delete the entry. -/
inductive AbandonResult (process : CommitJournalProcessIdentity)
    (keyHash digest reservationId : String) (files : Directory) :
    Except Exception Unit → Directory → Prop
  | failed {e : Exception} : AbandonResult process keyHash digest reservationId files (.error e) files
  | removed {e : JournalEnvelope} : Owned process keyHash digest reservationId files e →
      AbandonResult process keyHash digest reservationId files (.ok ()) (Assoc.remove files keyHash)

theorem requireMatchingRecord_post {keyHash : String} :
    Post (requireMatchingRecord keyHash digest) s (fun r s' => s' = s ∧
      ∀ record, r = .ok record → s.records.lookup keyHash = some record ∧ record.digest = digest) := by
  unfold requireMatchingRecord
  simp only [Post.bind, Post.get]
  cases hl : s.records.lookup keyHash with
  | none => exact ⟨rfl, fun _ => Post.not_ok⟩
  | some record =>
      simp only [Post.bind, Post.ite, Post.throw, Post.pure]
      exact ⟨fun _ => ⟨trivial, fun _ => Post.not_ok⟩, fun hd => ⟨trivial, by rintro _ ⟨⟩; exact ⟨rfl, not_not.mp hd⟩⟩⟩

theorem isOwnedReservation_post {record : JournalRecord} :
    Post (isOwnedReservation io process record reservationId) s (fun r s' => s' = s ∧
      (r = .ok true → record.reservationId = reservationId ∧ owner record = process)) := by
  unfold isOwnedReservation current
  simp only [Post.bind, Post.ite, Post.throw, Post.pure]
  refine ⟨fun _ => ⟨trivial, fun h => ?_⟩, fun _ => ⟨trivial, Post.not_ok⟩⟩
  simp only [Except.ok.injEq, Bool.and_eq_true, decide_eq_true_eq] at h
  exact ⟨h.1.1, by rw [owner, h.1.2, h.2]⟩

/-- What both ways of completing a reservation begin with: nothing is changed before the reservation is
known to be the caller's own. -/
theorem ownedReservation_post {idempotencyKey message : String} {k : JournalRecord → JournalM Unit}
    {Q : Except Exception Unit → Directory → Prop} (hfail : ∀ e, Q (.error e) s.files)
    (hk : ∀ e t, t.files = s.files →
      Owned process (computeKeyHash P jobId idempotencyKey) digest reservationId s.files e →
      Post (k e.payload) t (fun r s' => Q r s'.files)) :
    Post (do
      validateIdentity jobId idempotencyKey digest
      acquireInterprocessLock io
      refreshRecord P io (computeKeyHash P jobId idempotencyKey)
      let existing ← requireMatchingRecord (computeKeyHash P jobId idempotencyKey) digest
      if existing.state ≠ .prepared then
        throw (.invalidOperation message)
      if !(← isOwnedReservation io process existing reservationId) then
        throw (.invalidOperation message)
      k existing) s (fun r s' => Q r s'.files) := by
  simp only [Post.bind]
  refine validateIdentity_post.mono ?_
  rintro r s' ⟨rfl, _⟩
  rcases r with err | _
  · exact hfail err
  refine acquireInterprocessLock_post.mono ?_
  rintro r s' ⟨rfl, _⟩
  rcases r with err | _
  · exact hfail err
  refine refreshRecord_post.mono ?_
  rintro r s' ⟨hfiles, hok, _⟩
  rw [← hfiles] at hfail
  rcases r with err | _
  · exact hfail err
  obtain ⟨hlookup, hvalid⟩ := hok rfl
  refine requireMatchingRecord_post.mono ?_
  rintro r t ⟨rfl, hmatch⟩
  rcases r with err | record
  · exact hfail err
  obtain ⟨hrecord, hdigest⟩ := hmatch record rfl
  rw [hlookup] at hrecord
  obtain ⟨e, he, rfl⟩ := Option.map_eq_some_iff.mp hrecord
  simp only [Post.ite, Post.bind, Post.throw]
  refine ⟨fun _ => hfail _, fun hst => ?_⟩
  have hst : e.payload.state = .prepared := not_not.mp hst
  refine isOwnedReservation_post.mono ?_
  rintro r t ⟨rfl, howned⟩
  rcases r with err | owned
  · exact hfail err
  refine ⟨fun _ => hfail _, fun ho => ?_⟩
  obtain ⟨hrid, hown⟩ := howned (by simpa using ho)
  exact hk e t hfiles ⟨he, (hvalid e he).record.keyHash, hdigest, hst, hrid, hown⟩

theorem transition_post {idempotencyKey : String} {state : CommitJournalState}
    {result : Option BridgeHostResult} :
    Post (transition P io process jobId idempotencyKey digest reservationId state result) s
      (fun r s' => TransitionResult P process (computeKeyHash P jobId idempotencyKey) digest
        reservationId state (result.bind (fun x => x.data.map sanitizeData)) s.files r s'.files) := by
  unfold transition
  refine ownedReservation_post (fun _ => .failed) (fun e t ht hO => ?_)
  rw [← ht] at hO ⊢
  have hput : ∀ resultData, Post (do
      persist P io { e.payload with state := state, resultData := resultData }
      modify (fun s => { s with
        records := Assoc.set s.records (computeKeyHash P jobId idempotencyKey)
          { e.payload with state := state, resultData := resultData } })) t
      (fun r s' => TransitionResult P process (computeKeyHash P jobId idempotencyKey) digest
        reservationId state resultData t.files r s'.files) := by
    intro resultData
    have hkey := hO.keyHash
    rw [← hkey] at hO ⊢
    simp only [Post.bind]
    refine persist_post.mono ?_
    rintro r s' ⟨_, hp⟩
    rcases r with err | _
    · rcases hp with ⟨_, _, hp⟩ | ⟨hs, hp⟩
      · simp only [hp]; exact .failed
      · simp only [hp]; exact .replaced hO hs
    · rcases hp with ⟨_, hr, _⟩ | ⟨hs, hp⟩
      · cases hr
      · simp only [Post.modify, hp]; exact .replaced hO hs
  cases result with
  | none => exact hput none
  | some result =>
      simp only [Post.bind, Post.map, sanitizeResultData]
      cases hdata : result.data with
      | none => exact .failed
      | some data => simpa [hdata] using hput (some (sanitizeData data))

theorem markUnknown_post {idempotencyKey : String} :
    Post (markUnknown P io process jobId idempotencyKey digest reservationId) s (fun r s' =>
      TransitionResult P process (computeKeyHash P jobId idempotencyKey) digest reservationId .unknown
        none s.files r s'.files) :=
  transition_post

theorem markCommitted_post {idempotencyKey : String} {result : BridgeHostResult} :
    Post (markCommitted P io process jobId idempotencyKey digest reservationId result) s (fun r s' =>
      (∃ e, r = .error e ∧ s'.files = s.files) ∨ ∃ data, result.data = some data ∧
        TransitionResult P process (computeKeyHash P jobId idempotencyKey) digest reservationId
          .committed (some (sanitizeData data)) s.files r s'.files) := by
  unfold markCommitted
  simp only [Post.ite, Post.bind, Post.throw]
  refine ⟨fun _ => Or.inl ⟨_, rfl, trivial⟩, fun hc => ?_⟩
  cases hd : result.data with
  | none => simp [hd] at hc
  | some data =>
      refine transition_post.mono (fun _ _ h => Or.inr ⟨data, rfl, ?_⟩)
      simpa only [Option.bind_some, hd, Option.map_some] using h

theorem abandon_post {idempotencyKey : String} :
    Post (abandon P io process jobId idempotencyKey digest reservationId) s (fun r s' =>
      AbandonResult process (computeKeyHash P jobId idempotencyKey) digest reservationId s.files r
        s'.files) := by
  unfold abandon
  refine ownedReservation_post (fun _ => .failed) (fun e t ht hO => ?_)
  simp only [Post.ite, Post.bind, Post.throw, Post.modify]
  refine ⟨fun _ => ?_, fun _ => ?_⟩
  · rw [ht]; exact .failed
  · rw [ht]; exact .removed hO

/-! ## The constructor -/

/-- Every entry is as it was, or its prepared record has become unknown, its owner being dead. -/
def Recovers (P : Primitives) (io : Io) (files files' : Directory) : Prop :=
  ∀ name, files'.lookup name = files.lookup name ∨
    ∃ e, files.lookup name = some e ∧ ValidEntry P name e ∧ e.payload.state = .prepared ∧
      io.liveness (owner e.payload) = .dead ∧ Sized P e.payload.asUnknown ∧
      files'.lookup name = some (envelope P e.payload.asUnknown)

/-- The record is the one that the directory holds under the name. -/
def Loaded (P : Primitives) (files : Directory) (entry : String × JournalRecord) : Prop :=
  ∃ e, files.lookup entry.1 = some e ∧ entry.2 = e.payload ∧ ValidEntry P entry.1 e

theorem loadRecords_post {names : List String} (h : ∀ entry ∈ s.records, Loaded P s.files entry) :
    Post (loadRecords P io names) s (fun r s' => s'.files = s.files ∧
      (r = .ok () → ∀ entry ∈ s'.records, Loaded P s.files entry)) := by
  induction names generalizing s with
  | nil => exact ⟨rfl, fun _ => h⟩
  | cons name rest ih =>
      unfold loadRecords
      simp only [Post.bind, Post.get]
      cases hf : s.files.lookup name with
      | none => exact ⟨rfl, Post.not_ok⟩
      | some e =>
          simp only [Post.bind]
          refine readRecord_post.mono ?_
          rintro r s' ⟨rfl, hok, _⟩
          rcases r with err | record
          · exact ⟨rfl, Post.not_ok⟩
          obtain ⟨rfl, hv⟩ := hok record rfl
          simp only [Post.get, Post.ite, Post.bind, Post.throw, Post.modify]
          refine ⟨fun _ => ⟨trivial, Post.not_ok⟩, fun _ => ih ?_⟩
          intro entry hentry
          rcases Assoc.mem_set hentry with rfl | hentry
          · exact ⟨e, by rw [hv.record.keyHash]; exact hf, rfl, by rw [hv.record.keyHash]; exact hv⟩
          · exact h entry hentry

theorem recoverRecords_post {files : Directory} {entries : List (String × JournalRecord)}
    (h : ∀ entry ∈ entries, Loaded P files entry) (hs : Recovers P io files s.files) :
    Post (recoverRecords P io entries) s (fun _ s' => Recovers P io files s'.files) := by
  induction entries generalizing s with
  | nil => exact hs
  | cons entry rest ih =>
      obtain ⟨name, record⟩ := entry
      obtain ⟨e, he, hrec, hv⟩ := h _ List.mem_cons_self
      have hrest : ∀ entry ∈ rest, Loaded P files entry := fun x hx => h x (List.mem_cons_of_mem _ hx)
      simp only at he hrec hv
      subst hrec
      unfold recoverRecords
      simp only [Post.ite, Post.bind]
      refine ⟨fun hc => ?_, fun _ => ih hrest hs⟩
      simp only [Bool.and_eq_true, decide_eq_true_eq, isOwnerProvenDead] at hc
      refine recoverAsUnknown_post.mono ?_
      rintro r s' ⟨_, hr⟩
      have hs' : Recovers P io files s'.files := by
        rcases hr with ⟨_, _, hr⟩ | ⟨hsized, hr⟩
        · rw [hr]; exact hs
        · intro name'
          rw [hr, hv.record.keyHash, Assoc.lookup_set]
          split
          · next heq =>
              subst heq
              exact Or.inr ⟨e, he, hv, hc.1, hc.2, hsized, rfl⟩
          · exact hs name'
      rcases r with err | _
      · exact hs'
      · exact ih hrest hs'

theorem new_post {files : Directory} :
    Post (new P io) ⟨[], files⟩ (fun _ s' => Recovers P io files s'.files) := by
  have hrefl : Recovers P io files files := fun _ => Or.inl rfl
  unfold new loadAndRecover
  simp only [Post.bind]
  refine acquireInterprocessLock_post.mono ?_
  rintro r s' ⟨rfl, _⟩
  rcases r with err | _
  · exact hrefl
  simp only [Post.get, Post.ite, Post.bind, Post.throw]
  refine ⟨fun _ => hrefl, fun _ => ?_⟩
  refine (loadRecords_post (by simp)).mono ?_
  rintro r s' ⟨hfiles, hl⟩
  rcases r with err | _
  · simp only [hfiles]; exact hrefl
  · exact recoverRecords_post (hl rfl) (by rw [hfiles]; exact hrefl)

end DurableCommitJournal

end CadHarness.Journal
