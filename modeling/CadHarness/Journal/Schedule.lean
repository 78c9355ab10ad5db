import CadHarness.Journal.DurableCommitCoordinator

/-!
# Schedules

A concrete run is computed from a schedule: which request takes its next step, and what it is answered.
-/

namespace CadHarness.Journal
open CadHarness.Lib

/-- What the surroundings answer to the next step of a request. -/
structure Answers where
  io : Io
  authorize : Except Unit Bool
  commit : Except Unit BridgeHostResult

/-- What happens next. -/
inductive Command where
  | startProcess (p : CommitJournalProcessIdentity) (io : Io)
  | crash (p : CommitJournalProcessIdentity)
  | request (c : CommitCall)
  | go (i : Nat) (answers : Answers)

/-- The probe of a schedule cannot tell whether a process lives. -/
def Io.blind (io : Io) : Io := { io with liveness := fun _ => .unknown }

theorem Io.blind_sound (s : Site) (io : Io) : s.Sound io.blind := nofun

namespace Site

variable {α : Type} {P : Primitives} {s s' : Site}

def isAlive (s : Site) (p : CommitJournalProcessIdentity) : Bool :=
  match s.process p with
  | .running _ => true
  | _ => false

theorem alive_of_isAlive {p : CommitJournalProcessIdentity} (h : s.isAlive p = true) : s.Alive p := by
  unfold isAlive at h
  cases hp : s.process p with
  | running records => exact ⟨records, hp⟩
  | absent => rw [hp] at h; cases h
  | exited => rw [hp] at h; cases h

def runCall (s : Site) (p : CommitJournalProcessIdentity) (m : JournalM α) :
    Option (Except Exception α × Site) :=
  match s.process p with
  | .running records =>
      match m ⟨records, s.files⟩ with
      | .ok a t => some (.ok a, s.after p t)
      | .error e t => some (.error e, s.after p t)
  | _ => none

theorem runCall_calls {p : CommitJournalProcessIdentity} {m : JournalM α} {r : Except Exception α}
    (h : s.runCall p m = some (r, s')) : s.Calls p m r s' := by
  unfold runCall at h
  cases hp : s.process p with
  | running records =>
      simp only [hp] at h
      cases hm : m ⟨records, s.files⟩ with
      | ok a t => simp only [hm] at h; cases h; exact .ok hp hm
      | error e t => simp only [hm] at h; cases h; exact .error hp hm
  | absent => simp only [hp] at h; cases h
  | exited => simp only [hp] at h; cases h

/-- The operation of a request, under these answers. -/
def runAct (P : Primitives) (s : Site) (c : CommitCall) (answers : Answers) :
    (o : CommitOp) → Option (o.Result × Site)
  | .authorize => some (answers.authorize, s)
  | .startCommit => some ((), s)
  | .awaitCommit => some (answers.commit, s)
  | .begin j k d =>
      s.runCall c.process (DurableCommitJournal.begin P answers.io.blind c.process j k d)
  | .markCommitted j k d v result =>
      s.runCall c.process (DurableCommitJournal.markCommitted P answers.io.blind c.process j k d v result)
  | .markUnknown j k d v =>
      s.runCall c.process (DurableCommitJournal.markUnknown P answers.io.blind c.process j k d v)
  | .abandon j k d v =>
      s.runCall c.process (DurableCommitJournal.abandon P answers.io.blind c.process j k d v)

theorem runAct_act {c : CommitCall} {answers : Answers} {o : CommitOp} {r : o.Result}
    (h : s.runAct P c answers o = some (r, s')) : s.Act P c o r s' := by
  cases o with
  | authorize => cases h; rfl
  | startCommit => cases h; rfl
  | awaitCommit => cases h; rfl
  | _ => exact ⟨_, Io.blind_sound _ _, runCall_calls h⟩

end Site

/-- The next state of the pool, if the command applies. -/
def Command.perform (P : Primitives) (S : CommitPool) : Command → Option (CommitEvent × CommitPool)
  | .startProcess p io =>
      match S.world.process p, DurableCommitJournal.new P io.blind ⟨[], S.world.files⟩ with
      | .absent, .ok () t =>
          if 0 < p.processId ∧ 0 < p.startTimeUtcTicks then
            some (.env (.started p), ⟨S.world.after p t, S.next, S.thread⟩)
          else none
      | _, _ => none
  | .crash p =>
      if S.world.isAlive p then
        some (.env (.crashed p), ⟨S.world.setStatus p .exited, S.next, S.thread⟩)
      else none
  | .request c =>
      if S.world.isAlive c.process then
        some (.start S.next c,
          ⟨S.world, S.next + 1, Function.update S.thread S.next (some (c, c.run))⟩)
      else none
  | .go i answers =>
      match S.thread i with
      | none => none
      | some (c, .ret a) =>
          if S.world.isAlive c.process then
            some (.reply i c a, ⟨S.world, S.next, Function.update S.thread i none⟩)
          else none
      | some (c, .op o k) =>
          match S.world.isAlive c.process, S.world.runAct P c answers o with
          | true, some (r, s') =>
              some (.act i c o r, ⟨s', S.next, Function.update S.thread i (some (c, k r))⟩)
          | _, _ => none

theorem Command.perform_step {P : Primitives} {S S' : CommitPool} {cmd : Command} {e : CommitEvent}
    (h : cmd.perform P S = some (e, S')) : (commitSystem P).step S e S' := by
  cases cmd with
  | startProcess p io =>
      simp only [perform] at h
      split at h
      · next hp hnew =>
          split at h
          · next hpos =>
              cases h
              exact .env (.started hp hpos.1 hpos.2 (Io.blind_sound _ _) hnew)
          · cases h
      · cases h
  | crash p =>
      simp only [perform] at h
      split at h
      · next ha => cases h; exact .env (.crashed (Site.alive_of_isAlive ha))
      · cases h
  | request c =>
      simp only [perform] at h
      split at h
      · next ha => cases h; exact .start (Site.alive_of_isAlive ha)
      · cases h
  | go i answers =>
      simp only [perform] at h
      split at h
      · cases h
      · next hi =>
          split at h
          · next ha => cases h; exact .reply hi (Site.alive_of_isAlive ha)
          · cases h
      · next hi =>
          split at h
          · next ha hact => cases h; exact .act hi (Site.alive_of_isAlive ha) (Site.runAct_act hact)
          · cases h

/-- The run of a schedule, as far as its commands apply. -/
def schedule (P : Primitives) (S : CommitPool) : List Command → List CommitEvent × CommitPool
  | [] => ([], S)
  | cmd :: cmds =>
      match cmd.perform P S with
      | none => ([], S)
      | some (e, S') =>
          let (tr, S'') := schedule P S' cmds
          (e :: tr, S'')

theorem schedule_run (P : Primitives) (S : CommitPool) (cmds : List Command) :
    (commitSystem P).Run S (schedule P S cmds).1 (schedule P S cmds).2 := by
  induction cmds generalizing S with
  | nil => exact .nil
  | cons cmd cmds ih =>
      unfold schedule
      cases hp : cmd.perform P S with
      | none => exact .nil
      | some x => exact System.Run.cons (Command.perform_step hp) (ih x.2)

/-- The commits that were started, and by which request. -/
def starts (tr : List CommitEvent) : List (Nat × CommitCall) :=
  tr.filterMap fun
    | .act i c .startCommit _ => some (i, c)
    | _ => none

/-- The requests that came in. -/
def requests (tr : List CommitEvent) : List (Nat × CommitCall) :=
  tr.filterMap fun
    | .start i c => some (i, c)
    | _ => none

/-- The answers that were given. -/
def replies (tr : List CommitEvent) : List (Nat × CommitCall × BridgeHostResult) :=
  tr.filterMap fun
    | .reply i c a => some (i, c, a)
    | _ => none

theorem mem_starts {tr : List CommitEvent} {i : Nat} {c : CommitCall} (h : (i, c) ∈ starts tr) :
    Event.act (S := commitSig) i c .startCommit () ∈ tr := by
  obtain ⟨e, he, hx⟩ := List.mem_filterMap.mp h
  split at hx
  · cases hx; exact he
  · cases hx

theorem mem_requests {tr : List CommitEvent} {i : Nat} {c : CommitCall} (h : (i, c) ∈ requests tr) :
    Event.start i c ∈ tr := by
  obtain ⟨e, he, hx⟩ := List.mem_filterMap.mp h
  split at hx
  · cases hx; exact he
  · cases hx

theorem mem_replies {tr : List CommitEvent} {i : Nat} {c : CommitCall} {a : BridgeHostResult}
    (h : (i, c, a) ∈ replies tr) : Event.reply i c a ∈ tr := by
  obtain ⟨e, he, hx⟩ := List.mem_filterMap.mp h
  split at hx
  · cases hx; exact he
  · cases hx

end CadHarness.Journal
