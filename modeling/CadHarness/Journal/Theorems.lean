import CadHarness.Journal.Lemmas.Invariant
import CadHarness.Journal.Schedule

/-!
# What the durable commit guarantees

Over every interleaving of any number of processes and crashes: a key's commit is started again only
after a definite non-commit was abandoned, terminal entries stay, and a success is replayed.
-/

namespace CadHarness.Journal
open CadHarness.Lib DurableCommitJournal

variable {P : Primitives} {S₀ S S' : CommitPool} {tr tr' : List CommitEvent}

/-! ## At most one commit -/

/-- Whoever starts a commit on a key that was started before does so after the earlier request has
abandoned it. -/
theorem abandoned_between {i j : Nat} {c d : CommitCall} {tr₁ tr₂ : List CommitEvent}
    (h₀ : (commitSystem P).init S₀)
    (h : (commitSystem P).Run S₀ (tr₁ ++ started i c :: (tr₂ ++ [started j d])) S)
    (hk : c.keyHash P = d.keyHash P) : Abandoned i tr₂ := by
  have hsplit : tr₁ ++ started i c :: (tr₂ ++ [started j d]) =
      (tr₁ ++ started i c :: tr₂) ++ [started j d] := by simp
  rw [hsplit] at h
  obtain ⟨S₂, hrun₂, hstep₂⟩ := h.inv_snoc
  obtain ⟨S₁, hrun₁, hrest⟩ := hrun₂.inv_append
  obtain ⟨qs₂, hqs₂⟩ := inv_run h₀ hrun₂
  obtain ⟨q, hq, hmay, ha, _⟩ := hqs₂.act_inv hstep₂
  have hmem : started i c ∈ tr₁ ++ started i c :: tr₂ := by simp
  -- The later request is about to start, so it holds the key and has not started before.
  cases hmay with
  | @startCommit v =>
      have hab : Abandoned i (tr₁ ++ started i c :: tr₂) := by
        refine (hqs₂.inv.exclusive hmem).resolve_right (fun hx => ?_)
        obtain rfl := hx.2 j ⟨d, _, v, hq, rfl, ha, hk.symm⟩
        exact hqs₂.inv.unstarted hq (Or.inr (Or.inr ⟨v, rfl⟩)) c hmem
      -- The earlier one had not abandoned before it started.
      obtain ⟨qs₁, hqs₁⟩ := inv_run h₀ hrun₁
      have hcut : started i c :: tr₂ = [started i c] ++ tr₂ := rfl
      rw [hcut] at hrest
      obtain ⟨S₁', hone, _⟩ := hrest.inv_append
      rw [← List.nil_append [started i c]] at hone
      obtain ⟨S₁'', hnil, hstep₁⟩ := hone.inv_snoc
      obtain rfl := hnil.inv_nil
      obtain ⟨q₁, hq₁, hmay₁, _, _⟩ := hqs₁.act_inv hstep₁
      cases hmay₁ with
      | startCommit =>
          obtain ⟨e, he, hisab⟩ := hab
          rcases List.mem_append.mp he with he | he
          · exact absurd ⟨e, he, hisab⟩ (hqs₁.inv.unabandoned hq₁ nofun)
          · rcases List.mem_cons.mp he with rfl | he
            · obtain ⟨_, _, _, hev, hab⟩ := hisab
              cases hev
              exact hab.elim
            · exact ⟨e, he, hisab⟩

/-! ## Terminal entries -/

theorem step_settled {qs : Stages}
    (hqs : commitProtocol.Holds (fun tr s qs => Inv P tr s qs) tr S qs) {ev : CommitEvent}
    (h : (commitSystem P).step S ev S') {name : String} {e : JournalEnvelope}
    (he : S.world.files.lookup name = some e) (hst : e.payload.state ≠ .prepared) :
    S'.world.files.lookup name = some e := by
  cases ev with
  | start i c => cases h; exact he
  | reply i c a => cases h; exact he
  | act i c o r =>
      obtain ⟨q, hq, hmay, ha, hact⟩ := hqs.act_inv h
      have hm := act_moves hmay hact ha (hqs.inv.positive _ ha) hqs.inv.clean
        (fun v hv => hqs.inv.held hq hv ha)
      exact hm.touches.settled he hst
  | env ev =>
      obtain ⟨s', henv, rfl⟩ : ∃ s', Site.Env P S.world ev s' ∧ S' = ⟨s', S.next, S.thread⟩ := by
        cases h with
        | env henv => exact ⟨_, henv, rfl⟩
      exact (henv.recovered).settled he hst

/-- A committed or unknown entry never changes again. -/
theorem run_settled (h₀ : (commitSystem P).init S₀) (h : (commitSystem P).Run S₀ tr S)
    (h' : (commitSystem P).Run S tr' S') {name : String} {e : JournalEnvelope}
    (he : S.world.files.lookup name = some e) (hst : e.payload.state ≠ .prepared) :
    S'.world.files.lookup name = some e := by
  have hrun := h'.induct (I := fun tr' S' => (commitSystem P).Run S₀ (tr ++ tr') S' ∧
    S'.world.files.lookup name = some e) ⟨by rw [List.append_nil]; exact h, he⟩ ?_
  · exact hrun.2
  · rintro tr' T ev T' _ ⟨hT, hlookup⟩ hstep
    obtain ⟨qs, hqs⟩ := inv_run h₀ hT
    refine ⟨?_, step_settled hqs hstep hlookup hst⟩
    rw [← List.append_assoc]
    exact hT.snoc hstep

/-! ## Replay -/

/-- The data of a replay: the data of the receipt, for the job of the request. -/
def replayData (data : JsonObject) (jobId : String) : JsonObject :=
  restoreResultData (sanitizeData data) jobId

theorem lookup_replayData (data : JsonObject) (jobId key : String) :
    (replayData data jobId).lookup key =
      if key = "job_id" then some (.str jobId) else data.lookup key := by
  rw [replayData, restoreResultData, sanitizeData, Assoc.lookup_set]
  by_cases hk : key = "job_id"
  · rw [if_pos hk, if_pos hk]
  · rw [if_neg hk, if_neg hk, Assoc.lookup_remove_ne _ hk]

/-- The answer to a request whose key has been committed. -/
def replayDecision (data : JsonObject) (jobId : String) : CommitJournalDecision :=
  ⟨.replayCommitted, some (.success (replayData data jobId)), none⟩

/-- `Begin` answers a request for what was committed by the replay, unless it throws. -/
theorem BeginResult.committed {io : Io} {process : CommitJournalProcessIdentity} {identity : Prop}
    {c : CommitCall} {a : BridgeHostResult} {files files' : Directory}
    {r : Except Exception CommitJournalDecision} (hc : CommittedAs P files c a)
    (hr : BeginResult P io process c.jobId (c.keyHash P) c.digest identity files r files') :
    (∃ e, r = .error e ∧ ¬ (io.Faultless ∧ identity ∧ Valid P files)) ∨
      ∃ data, a.data = some data ∧ r = .ok (replayDecision data c.jobId) := by
  obtain ⟨_, e, data, he, hst, hd, ha, hdata⟩ := hc
  cases hr with
  | @failed err hfail =>
      refine Or.inl ⟨err, rfl, fun ⟨hio, hid, hV⟩ => ?_⟩
      have := hfail hio hid hV e he
      rw [hst] at this; cases this
  | reserved hnone _ _ _ => rw [he] at hnone; cases hnone
  | reused he' hd' => rw [he] at he'; cases he'; exact absurd hd hd'
  | replayed he' _ _ hdata' _ =>
      rw [he] at he'
      cases he'
      rw [hdata] at hdata'
      cases hdata'
      exact Or.inr ⟨data, ha, rfl⟩
  | unknown he' _ hst' => rw [he] at he'; cases he'; exact absurd hst hst'
  | recovered he' _ hst' _ _ _ => rw [he] at he'; cases he'; rw [hst] at hst'; cases hst'

/-- Without a fault of the operating system, every process replays what was committed. -/
theorem begin_committed {c : CommitCall} {a : BridgeHostResult} {files : Directory}
    (hc : CommittedAs P files c a) (hV : Valid P files) {io : Io} (hio : io.Faultless)
    (process : CommitJournalProcessIdentity) (records : List (String × JournalRecord)) :
    ∃ data t, a.data = some data ∧
      DurableCommitJournal.begin P io process c.jobId c.idempotencyKey c.digest ⟨records, files⟩ =
        .ok (replayDecision data c.jobId) t := by
  have hid := hc.1
  have hpost := @begin_post P io process ⟨records, files⟩ c.jobId c.digest c.idempotencyKey
  generalize hrun : DurableCommitJournal.begin P io process c.jobId c.idempotencyKey c.digest
    ⟨records, files⟩ = res at *
  cases res with
  | error e t =>
      rcases BeginResult.committed hc (hpost.error hrun) with ⟨_, _, hno⟩ | ⟨_, _, hr⟩
      · exact absurd ⟨hio, hid, hV⟩ hno
      · cases hr
  | ok d t =>
      rcases BeginResult.committed hc (hpost.ok hrun) with ⟨_, hr, _⟩ | ⟨data, ha, hr⟩
      · cases hr
      · cases hr; exact ⟨data, t, ha, rfl⟩

/-- Two requests for the same commit. -/
def CommitCall.Same (c d : CommitCall) : Prop :=
  d.jobId = c.jobId ∧ d.idempotencyKey = c.idempotencyKey ∧ d.digest = c.digest

theorem CommittedAs.same {files : Directory} {c d : CommitCall} {a : BridgeHostResult}
    (h : CommittedAs P files c a) (hs : c.Same d) : CommittedAs P files d a := by
  obtain ⟨hj, hk, hd⟩ := hs
  unfold CommittedAs CommitCall.keyHash at *
  rw [hj, hk, hd]
  exact h

/-- After a success was answered, a later request for the same commit is told to replay it, whenever
`Begin` does not throw. -/
theorem begun_replay {i j : Nat} {c d : CommitCall} {a : BridgeHostResult}
    {decision : CommitJournalDecision} (h₀ : (commitSystem P).init S₀)
    (h : (commitSystem P).Run S₀ tr S) (h' : (commitSystem P).Run S tr' S')
    (hrep : Event.reply i c a ∈ tr) (hok : a.outcome = .ok) (hs : c.Same d)
    (hb : begun j d (.ok decision) ∈ tr') :
    ∃ data, a.data = some data ∧ decision = replayDecision data d.jobId := by
  obtain ⟨tr₁, tr₂, rfl⟩ := List.mem_iff_append.mp hb
  have hcut : tr₁ ++ begun j d (.ok decision) :: tr₂ =
      (tr₁ ++ [begun j d (.ok decision)]) ++ tr₂ := by simp
  rw [hcut] at h'
  obtain ⟨T', hT', _⟩ := h'.inv_append
  obtain ⟨T, hT, hstep⟩ := hT'.inv_snoc
  obtain ⟨qs, hqs⟩ := inv_run h₀ (h.append hT)
  obtain ⟨q, hq, hmay, ha, hact⟩ := hqs.act_inv hstep
  have hc : CommittedAs P T.world.files d a :=
    (hqs.inv.replied (List.mem_append_left _ hrep) hok).same hs
  obtain ⟨io, hio, hcall⟩ := hact
  obtain ⟨hr, _⟩ := hcall.post (Q := fun files r files' =>
    BeginResult P io d.process d.jobId (d.keyHash P) d.digest
      (ValidIdentity d.jobId d.idempotencyKey d.digest) files r files') (fun _ => begin_post)
  rcases BeginResult.committed hc hr with ⟨_, hr, _⟩ | ⟨data, hdata, hr⟩
  · cases hr
  · cases hr; exact ⟨data, hdata, rfl⟩

/-- What a later request for the same commit is answered: the replay, unless it was not authorized or
the journal could not be read. -/
theorem replied_replay {i j : Nat} {c d : CommitCall} {a b : BridgeHostResult}
    (h₀ : (commitSystem P).init S₀) (h : (commitSystem P).Run S₀ tr S)
    (h' : (commitSystem P).Run S tr' S') (hrep : Event.reply i c a ∈ tr) (hok : a.outcome = .ok)
    (hs : c.Same d) (hlater : Event.start j d ∈ tr') (hb : Event.reply j d b ∈ tr') :
    (b = ⟨.rejected, none⟩ ∧ ∃ r, r ≠ .ok true ∧ authorized j d r ∈ tr') ∨
    (b = ⟨.failed, none⟩ ∧ ∃ e, begun j d (.error e) ∈ tr') ∨
    ∃ data, a.data = some data ∧ b = .success (replayData data d.jobId) := by
  obtain ⟨qs, hhist⟩ := history_run h₀ (h.append h')
  obtain ⟨_, hqs⟩ := inv_run h₀ h
  -- All that happened to the later request happened in the later part of the run.
  have hlate : ∀ {e : CommitEvent}, e ∈ tr ++ tr' → e.thread? = some j → e ∈ tr' := by
    intro e he hj
    refine (List.mem_append.mp he).resolve_left (fun he => ?_)
    have := Pool.start_fresh h' hlater
    have := hqs.fresh e he j hj
    omega
  cases hhist.replied (List.mem_append_right tr hb) with
  | rejected hr he => exact Or.inl ⟨rfl, _, hr, hlate he rfl⟩
  | failed he => exact Or.inr (Or.inl ⟨rfl, _, hlate he rfl⟩)
  | decided he hd =>
      obtain ⟨data, hdata, rfl⟩ := begun_replay h₀ h h' hrep hok hs (hlate he rfl)
      refine Or.inr (Or.inr ⟨data, hdata, ?_⟩)
      rcases hd with hd | ⟨v, hd⟩
      · cases hd; rfl
      · cases hd

/-! ## Another digest -/

/-- While the key has an entry, a request with another digest is refused. -/
theorem begun_reused {j : Nat} {d : CommitCall} {r : Except Exception CommitJournalDecision}
    {e : JournalEnvelope} {qs : Stages}
    (hqs : commitProtocol.Holds (fun tr s qs => Inv P tr s qs) tr S qs)
    (hstep : (commitSystem P).step S (begun j d r) S')
    (he : S.world.files.lookup (d.keyHash P) = some e) (hd : e.payload.digest ≠ d.digest) :
    (∃ err, r = .error err) ∨ r = .ok ⟨.idempotencyKeyReused, none, none⟩ := by
  obtain ⟨q, hq, hmay, ha, io, hio, hcall⟩ := hqs.act_inv hstep
  obtain ⟨hr, _⟩ := hcall.post (Q := fun files r files' =>
    BeginResult P io d.process d.jobId (d.keyHash P) d.digest
      (ValidIdentity d.jobId d.idempotencyKey d.digest) files r files') (fun _ => begin_post)
  generalize S'.world.files = files at hr
  cases hr with
  | failed _ => exact Or.inl ⟨_, rfl⟩
  | reserved hnone _ _ _ => rw [he] at hnone; cases hnone
  | reused _ _ => exact Or.inr rfl
  | replayed he' hd' _ _ _ => rw [he] at he'; cases he'; exact absurd hd' hd
  | unknown he' hd' _ => rw [he] at he'; cases he'; exact absurd hd' hd
  | recovered he' hd' _ _ _ _ => rw [he] at he'; cases he'; exact absurd hd' hd

/-- Over any run of any number of processes, with crashes at any step, and its continuations. A commit
is started again on a key only after the request that started it before has ended with a definite
non-commit and has removed its reservation, whatever the digests. Committed and unknown entries never
change. After a success was answered, every later request for the same commit is answered by the same
data, under its own job id, unless it was not authorized or the journal could not be read; and without
such a fault every process replays it. A request whose digest differs from that of the entry is never
told to execute. -/
theorem durable_commit_at_most_once (h₀ : (commitSystem P).init S₀)
    (h : (commitSystem P).Run S₀ tr S) :
    (∀ tr₁ tr₂ tr₃ i j c d, tr = tr₁ ++ started i c :: (tr₂ ++ started j d :: tr₃) →
      c.jobId = d.jobId → c.idempotencyKey = d.idempotencyKey →
      (∃ e ∈ tr₂, IsAbandon i e) ∧ ∃ c' result, awaited i c' (.ok result) ∈ tr ∧
        result.outcome ≠ .ok ∧ result.outcome ≠ .unknownCommitState) ∧
    (∀ tr' S', (commitSystem P).Run S tr' S' → ∀ name e, S.world.files.lookup name = some e →
      e.payload.state = .committed ∨ e.payload.state = .unknown →
      S'.world.files.lookup name = some e) ∧
    (∀ i c a tr' S', Event.reply i c a ∈ tr → a.outcome = .ok → (commitSystem P).Run S tr' S' →
      ∃ data, a.data = some data ∧
        (∀ io process records, io.Faultless → ∃ t,
          DurableCommitJournal.begin P io process c.jobId c.idempotencyKey c.digest
            ⟨records, S'.world.files⟩ = .ok (replayDecision data c.jobId) t) ∧
        (∀ key, (replayData data c.jobId).lookup key =
          if key = "job_id" then some (.str c.jobId) else data.lookup key) ∧
        ∀ j d b, c.Same d → Event.start j d ∈ tr' → Event.reply j d b ∈ tr' →
          b = .success (replayData data c.jobId) ∨
          (b = ⟨.rejected, none⟩ ∧ ∃ r, r ≠ .ok true ∧ authorized j d r ∈ tr') ∨
          (b = ⟨.failed, none⟩ ∧ ∃ e, begun j d (.error e) ∈ tr')) ∧
    (∀ j d r e S', (commitSystem P).step S (begun j d r) S' →
      S.world.files.lookup (computeKeyHash P d.jobId d.idempotencyKey) = some e →
      e.payload.digest ≠ d.digest →
      (∃ err, r = .error err) ∨ r = .ok ⟨.idempotencyKeyReused, none, none⟩) := by
  obtain ⟨qs, hqs⟩ := inv_run h₀ h
  refine ⟨?_, ?_, ?_, ?_⟩
  · rintro tr₁ tr₂ tr₃ i j c d rfl hj hk
    have hcut : tr₁ ++ started i c :: (tr₂ ++ started j d :: tr₃) =
        (tr₁ ++ started i c :: (tr₂ ++ [started j d])) ++ tr₃ := by simp
    have hrun := h
    rw [hcut] at hrun
    obtain ⟨S₂, hrun, _⟩ := hrun.inv_append
    have hab : Abandoned i tr₂ :=
      abandoned_between h₀ hrun (by rw [CommitCall.keyHash, CommitCall.keyHash, hj, hk])
    refine ⟨hab, ?_⟩
    obtain ⟨e, he, hisab⟩ := hab
    exact hqs.inv.definite ⟨e, by simp [he], hisab⟩
  · intro tr' S' h' name e he hst
    refine run_settled h₀ h h' he ?_
    rcases hst with hst | hst <;> (rw [hst]; exact nofun)
  · intro i c a tr' S' hrep hok h'
    obtain ⟨qs', hqs'⟩ := inv_run h₀ (h.append h')
    have hc := hqs'.inv.replied (List.mem_append_left _ hrep) hok
    have ⟨_, e, data, he, _, _, hdata, _⟩ := hc
    refine ⟨data, hdata, fun io process records hio => ?_, lookup_replayData data c.jobId, ?_⟩
    · obtain ⟨data', t, hdata', hrun⟩ := begin_committed hc hqs'.inv.valid hio process records
      rw [hdata] at hdata'
      cases hdata'
      exact ⟨t, hrun⟩
    · intro j d b hs hlater hb
      rcases replied_replay h₀ h h' hrep hok hs hlater hb with hb | hb | ⟨data', hdata', hb⟩
      · exact Or.inr (Or.inl hb)
      · exact Or.inr (Or.inr hb)
      · rw [hdata] at hdata'
        cases hdata'
        rw [hs.1] at hb
        exact Or.inl hb
  · intro j d r e S' hstep he hd
    exact begun_reused hqs hstep he hd

/-! ## Concrete runs -/

def examplePrimitives : Primitives where
  sha256 _ := "0000000000000000000000000000000000000000000000000000000000000000"
  hmac _ := "0000000000000000000000000000000000000000000000000000000000000000"
  payloadLength _ := 1
  sha256_hex _ := by decide
  hmac_hex _ := by decide

def exampleIo : Io where
  lockAcquired := true
  readable _ := true
  liveness _ := .unknown
  currentKnown := true
  newGuid := "00000000000000000000000000000000"
  persist _ := .done
  deleted := true
  newGuid_hex := by decide

def exampleProcess : CommitJournalProcessIdentity := ⟨1, 1⟩

/-- A request whose digest is a row of one hexadecimal digit. -/
def exampleCall (digit : Char) : CommitCall :=
  ⟨exampleProcess, "job-1", "key-1", String.ofList (List.replicate 64 digit)⟩

def exampleSite : Site := ⟨[], fun _ => .absent⟩

/-- The next step of a request, authorized, with that outcome of its commit. -/
def exampleGo (i : Nat) (result : BridgeHostResult) : Command :=
  .go i ⟨exampleIo, .ok true, .ok result⟩

/-- A request runs to its reply. -/
def exampleRequest (i : Nat) (digit : Char) (result : BridgeHostResult) : List Command :=
  .request (exampleCall digit) :: List.replicate 6 (exampleGo i result)

def exampleRun (cmds : List Command) : List CommitEvent × CommitPool :=
  schedule examplePrimitives (Pool.empty exampleSite) (.startProcess exampleProcess exampleIo :: cmds)

theorem exampleRun_run (cmds : List Command) :
    (commitSystem examplePrimitives).Run (Pool.empty exampleSite) (exampleRun cmds).1
      (exampleRun cmds).2 :=
  schedule_run _ _ _

theorem exampleSite_init : (commitSystem examplePrimitives).init (Pool.empty exampleSite) :=
  ⟨exampleSite, ⟨rfl, fun _ => rfl⟩, rfl⟩

/-- A key that is abandoned, and then taken for another digest. -/
def abandonedRun : List Command :=
  exampleRequest 0 'a' ⟨.rejected, none⟩ ++
    .request (exampleCall 'b') :: List.replicate 3 (exampleGo 1 (.success []))

theorem abandonedRun_starts :
    starts (exampleRun abandonedRun).1 = [(0, exampleCall 'a'), (1, exampleCall 'b')] := by decide +kernel

def committedRun : List Command := exampleRequest 0 'a' (.success [])

theorem committedRun_replies :
    replies (exampleRun committedRun).1 = [(0, exampleCall 'a', .success [])] := by decide +kernel

/-- Two more requests for what was committed, the first of them not authorized. -/
def repeatedRun : List CommitEvent × CommitPool :=
  schedule examplePrimitives (exampleRun committedRun).2
    (.request (exampleCall 'a') ::
      List.replicate 2 (.go 1 ⟨exampleIo, .ok false, .error ()⟩) ++
      .request (exampleCall 'a') :: List.replicate 3 (exampleGo 2 (.success [])))

theorem repeatedRun_replies :
    (requests repeatedRun.1, replies repeatedRun.1) =
      ([(1, exampleCall 'a'), (2, exampleCall 'a')],
        [(1, exampleCall 'a', ⟨.rejected, none⟩),
          (2, exampleCall 'a', .success [("job_id", .str "job-1")])]) := by
  decide +kernel

theorem durable_commit_at_most_once_example :
    replies (exampleRun committedRun).1 = [(0, exampleCall 'a', .success [])] ∧
    ∀ tr' S', (commitSystem examplePrimitives).Run (exampleRun committedRun).2 tr' S' →
      ∃ data, (BridgeHostResult.success []).data = some data ∧
        ∀ j d b, (exampleCall 'a').Same d → Event.start j d ∈ tr' → Event.reply j d b ∈ tr' →
          b = .success (replayData data "job-1") ∨
          (b = ⟨.rejected, none⟩ ∧ ∃ r, r ≠ .ok true ∧ authorized j d r ∈ tr') ∨
          (b = ⟨.failed, none⟩ ∧ ∃ e, begun j d (.error e) ∈ tr') := by
  refine ⟨committedRun_replies, fun tr' S' h' => ?_⟩
  have hrep : Event.reply 0 (exampleCall 'a') (.success []) ∈ (exampleRun committedRun).1 :=
    mem_replies (by rw [committedRun_replies]; exact List.mem_cons_self)
  obtain ⟨data, hdata, _, _, hall⟩ := (durable_commit_at_most_once exampleSite_init
    (exampleRun_run committedRun)).2.2.1 0 (exampleCall 'a') _ tr' S' hrep rfl h'
  exact ⟨data, hdata, hall⟩

/-- After a definite non-commit the key is free for another digest. After a success, a later request for
the same commit may be refused by the caller's authorization, and a receipt without a job id is replayed
with one. -/
theorem durable_commit_other_digest :
    (¬ ∀ (P : Primitives) (S₀ S : CommitPool) (tr : List CommitEvent) (i j : Nat) (c d : CommitCall),
      (commitSystem P).init S₀ → (commitSystem P).Run S₀ tr S → started i c ∈ tr → started j d ∈ tr →
      c.jobId = d.jobId → c.idempotencyKey = d.idempotencyKey → c.digest = d.digest) ∧
    (¬ ∀ (P : Primitives) (S₀ S S' : CommitPool) (tr tr' : List CommitEvent) (i j : Nat)
      (c d : CommitCall) (a b : BridgeHostResult), (commitSystem P).init S₀ →
      (commitSystem P).Run S₀ tr S → (commitSystem P).Run S tr' S' → Event.reply i c a ∈ tr →
      a.outcome = .ok → c.Same d → Event.start j d ∈ tr' → Event.reply j d b ∈ tr' →
      b.outcome = .ok) ∧
    (¬ ∀ (P : Primitives) (S₀ S S' : CommitPool) (tr tr' : List CommitEvent) (i j : Nat)
      (c d : CommitCall) (a b : BridgeHostResult), (commitSystem P).init S₀ →
      (commitSystem P).Run S₀ tr S → (commitSystem P).Run S tr' S' → Event.reply i c a ∈ tr →
      a.outcome = .ok → c.Same d → Event.start j d ∈ tr' → Event.reply j d b ∈ tr' →
      b.outcome = .ok → b.data = a.data) := by
  have hcommitted : Event.reply 0 (exampleCall 'a') (.success []) ∈ (exampleRun committedRun).1 :=
    mem_replies (by rw [committedRun_replies]; exact List.mem_cons_self)
  have hrequests := congrArg Prod.fst repeatedRun_replies
  have hreplies := congrArg Prod.snd repeatedRun_replies
  simp only at hrequests hreplies
  refine ⟨fun hall => ?_, fun hall => ?_, fun hall => ?_⟩
  · have h := hall _ _ _ _ 0 1 (exampleCall 'a') (exampleCall 'b') exampleSite_init
      (exampleRun_run abandonedRun) (mem_starts (by rw [abandonedRun_starts]; simp))
      (mem_starts (by rw [abandonedRun_starts]; simp)) rfl rfl
    exact absurd h (by decide)
  · have h := hall _ _ _ _ _ repeatedRun.1 0 1 (exampleCall 'a') (exampleCall 'a') (.success [])
      ⟨.rejected, none⟩ exampleSite_init (exampleRun_run committedRun) (schedule_run _ _ _) hcommitted
      rfl ⟨rfl, rfl, rfl⟩ (mem_requests (by rw [hrequests]; simp)) (mem_replies (by rw [hreplies]; simp))
    cases h
  · have h := hall _ _ _ _ _ repeatedRun.1 0 2 (exampleCall 'a') (exampleCall 'a') (.success [])
      (.success [("job_id", .str "job-1")]) exampleSite_init (exampleRun_run committedRun)
      (schedule_run _ _ _) hcommitted rfl ⟨rfl, rfl, rfl⟩ (mem_requests (by rw [hrequests]; simp))
      (mem_replies (by rw [hreplies]; simp)) rfl
    cases h

end CadHarness.Journal
