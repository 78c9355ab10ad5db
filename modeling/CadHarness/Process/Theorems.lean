import CadHarness.Process.Lemmas.Envelopes

/-!
# The broker against the one-shot worker

The broker sends the payload in an envelope and has no handler around the encoding of a response. A call has the outcome
of the one-shot worker, and leaves the broker ready for the next, just when both envelopes can be encoded.
-/

namespace CadHarness.Process
open CadHarness.Lib CadHarness.Domain
open CadHarness.Ipc (Scalar)

variable {World : Type} {host : Host World} {c : Call} {p : Prepared} {w : World}

/-! ## Prepared requests -/

/-- A prepared request holds its payload with sorted members, once as text. -/
structure Prepared.Sound (p : Prepared) : Prop where
  decoded : decodeJsonObject p.requestJson = .ok p.normalizedPayload
  sorted : sortMembers p.normalizedPayload = p.normalizedPayload

theorem prepareRequest_ok (h : prepareRequest host c w = .ok p) : p.Sound := by
  simp only [prepareRequest, Fallible.bind_eq_ok, Fallible.ite_eq_ok, reduceCtorEq, and_false, false_or,
    Fallible.pure_eq_ok] at h
  obtain ⟨bytes, hbytes, payload, hpayload, roots, -, requestJson, hrequest, -, rfl⟩ := h
  rw [decodeJsonObject_encodeJson hbytes] at hpayload
  obtain rfl := Except.ok.inj hpayload
  refine ⟨?_, sortMembers_sortMembers _⟩
  rw [decodeJsonObject_encodeJson hrequest, sortMembers_sortMembers]

theorem ofValue?_value (command : ProcessWorkerCommand) : ProcessWorkerCommand.ofValue? command.value = some command := by
  cases command <;> decide +kernel

theorem errorEnvelope_encodable (command : ProcessWorkerCommand) : Encodable (errorEnvelope command.value) := by
  have h : (encodeJson (errorEnvelope command.value)).toBool = true := by cases command <;> decide +kernel
  exact encodable_iff.mpr (Fallible.exists_of_toBool h)

/-! ## The processes -/

/-- The response to a prepared request, and what it leaves of the world. -/
def response (host : Host World) (p : Prepared) (w : World) : JsonValue × World :=
  respond host p.command p.normalizedPayload p.normalizedOutputRoot p.normalizedInputRoot w

/-- The envelope of a prepared request. -/
def Prepared.envelope (p : Prepared) : JsonValue :=
  brokerRequest p.command p.normalizedPayload p.normalizedOutputRoot p.normalizedInputRoot

theorem workerMain_sound (h : p.Sound) :
    workerMain host p.command.value p.requestJson p.normalizedOutputRoot p.normalizedInputRoot w =
      ((encodeJson (response host p w).1).toOption, (response host p w).2) := by
  unfold workerMain
  rw [ofValue?_value, h.decoded]
  rfl

theorem runOneShotWorker_sound (h : p.Sound) : runOneShotWorker host p w =
    match encodeJson (response host p w).1 with
    | .ok bytes => (decodeJsonObject bytes >>= (unwrapResponse · p.command), (response host p w).2)
    | .error _ => (.error (harnessError "Isolated process worker failed" none
        [("command", .str p.command.value), ("worker_terminal", .bool true)]), (response host p w).2) := by
  unfold runOneShotWorker
  rw [workerMain_sound h]
  cases encodeJson (response host p w).1 <;> rfl

theorem root?_sortKeys (root : Option String) :
    root? ((some (root.elim Json.null Json.str : JsonValue)).map Json.sortKeys) = some root := by
  cases root <;> rfl

theorem envelopeKeys_nodup : ["command", "payload", "allowed_output_root", "allowed_input_root"].Nodup := by
  decide

/-- The broker answers the envelope of a request as the one-shot worker answers the request, or dies. -/
theorem brokerTurn_envelope (h : p.Sound) {request : Bytes} (hrequest : encodeJson p.envelope = .ok request) :
    brokerTurn host request w =
      match encodeJson (response host p w).1 with
      | .ok bytes => (.replied bytes, (response host p w).2)
      | .error _ => (.died, (response host p w).2) := by
  have hdecoded := decodeJsonObject_encodeJson hrequest
  have hlookup := @lookup_sortMembers [("command", .str p.command.value), ("payload", .obj p.normalizedPayload),
    ("allowed_output_root", p.normalizedOutputRoot.elim .null .str),
    ("allowed_input_root", p.normalizedInputRoot.elim .null .str)] envelopeKeys_nodup
  generalize sortMembers _ = members at hdecoded hlookup
  have hcommand : members.lookup "command" = some (.str p.command.value) := hlookup "command"
  have hpayload : members.lookup "payload" = some (.obj p.normalizedPayload) := by
    have hsorted : Json.sortKeys (Json.obj p.normalizedPayload) = .obj p.normalizedPayload :=
      congrArg Json.obj h.sorted
    refine (hlookup "payload").trans ?_
    exact congrArg some hsorted
  have houtput : root? (members.lookup "allowed_output_root") = some p.normalizedOutputRoot := by
    rw [hlookup "allowed_output_root"]
    exact root?_sortKeys _
  have hinput : root? (members.lookup "allowed_input_root") = some p.normalizedInputRoot := by
    rw [hlookup "allowed_input_root"]
    exact root?_sortKeys _
  unfold brokerTurn
  rw [hdecoded]
  split
  · rename_i heq
    cases heq
  · rename_i heq
    obtain rfl := Except.ok.inj heq
    cases hcommand
  · rename_i heq
    obtain rfl := Except.ok.inj heq
    simp only [hcommand, hpayload, houtput, hinput, ofValue?_value]
    rfl

/-! ## One call -/

/-- The broker as it was started: it answers, and nothing is left in its connection. -/
def ProcessWorkerBroker.Ready (b : ProcessWorkerBroker) : Prop := b = {}

/-- The same result, or an error of the same class. -/
def SameOutcome : Except Exc Dict → Except Exc Dict → Prop
  | .ok result, .ok result' => result = result'
  | .error e, .error e' => e.typeName = e'.typeName
  | .ok _, .error _ | .error _, .ok _ => False

theorem SameOutcome.refl (outcome : Except Exc Dict) : SameOutcome outcome outcome := by
  cases outcome <;> rfl

theorem run_unencodable (operation : String) (h : p.Sound) (hrequest : ¬ Encodable p.envelope) :
    ∃ message, ProcessWorkerBroker.run host operation p {} w = (.error (invalidParameters message), {}, w) := by
  obtain ⟨message, hmessage⟩ := encodeJson_error hrequest
  refine ⟨message, ?_⟩
  have hbind : (decodeJsonObject p.requestJson >>= fun payload => encodeJson
      (brokerRequest p.command payload p.normalizedOutputRoot p.normalizedInputRoot)) =
      .error (invalidParameters message) := by
    rw [h.decoded]
    exact hmessage
  unfold ProcessWorkerBroker.run
  simp only [hbind]
  rfl

theorem run_encodable (operation : String) (h : p.Sound) (hrequest : Encodable p.envelope) :
    ProcessWorkerBroker.run host operation p {} w =
      match encodeJson (response host p w).1 with
      | .ok bytes => (decodeJsonObject bytes >>= (unwrapResponse · p.command), {}, (response host p w).2)
      | .error _ => (.error (ProcessWorkerBroker.timeoutError operation), { terminal := true, alive := false },
          (response host p w).2) := by
  obtain ⟨request, hencoded⟩ := encodable_iff.mp hrequest
  have hbind : (decodeJsonObject p.requestJson >>= fun payload => encodeJson
      (brokerRequest p.command payload p.normalizedOutputRoot p.normalizedInputRoot)) = .ok request := by
    rw [h.decoded]
    exact hencoded
  have hturn := @brokerTurn_envelope World host _ w h _ hencoded
  unfold ProcessWorkerBroker.run
  simp only [hbind, ProcessWorkerBroker.serve, brokerMain, List.nil_append, hturn]
  cases encodeJson (response host p w).1 <;> rfl

/-- Every error of the one-shot worker is a plain `HarnessError`. -/
theorem unwrapResponse_error {envelope : Dict} {command : ProcessWorkerCommand} {e : Exc}
    (h : unwrapResponse envelope command = .error e) : e.typeName = "HarnessError" := by
  unfold unwrapResponse at h
  split at h
  · split_ifs at h
    · cases h
      rfl
    · split at h
      · cases h
      · cases h
        rfl
    · cases h
      rfl
  · cases h
    rfl

theorem runOneShotWorker_error (h : p.Sound) {e : Exc} (he : (runOneShotWorker host p w).1 = .error e) :
    e.typeName = "HarnessError" := by
  rw [runOneShotWorker_sound h] at he
  cases hresponse : encodeJson (response host p w).1 with
  | error _ =>
      rw [hresponse] at he
      cases he
      rfl
  | ok bytes =>
      rw [hresponse] at he
      obtain ⟨ms, hms⟩ : ∃ ms, (response host p w).1 = .obj ms := by
        unfold response respond
        split
        · exact ⟨_, rfl⟩
        · exact ⟨_, rfl⟩
      rw [hms] at hresponse
      simp only [decodeJsonObject_encodeJson hresponse, Fallible.ok_bind] at he
      exact unwrapResponse_error he

/-- The outcome, the world and the broker of a call are as they should be. -/
def Agrees (host : Host World) (c : Call) (b : ProcessWorkerBroker) (w : World) : Prop :=
  SameOutcome (runBrokered host c b w).1 (runOneShot host c w).1 ∧
    (runBrokered host c b w).2.2 = (runOneShot host c w).2 ∧ (runBrokered host c b w).2.1.Ready

/-- The request of a call and the result of its command can be put in their envelopes. -/
def Conveyed (host : Host World) (c : Call) (w : World) : Prop :=
  ∀ p, prepareRequest host c w = .ok p → Encodable p.envelope ∧
    ∀ result, (executeCommand host p.command p.normalizedPayload p.normalizedOutputRoot p.normalizedInputRoot w).1 =
      .ok result → Encodable (okEnvelope p.command result)

theorem encodable_response : Encodable (response host p w).1 ↔
    ∀ result, (executeCommand host p.command p.normalizedPayload p.normalizedOutputRoot p.normalizedInputRoot w).1 =
      .ok result → Encodable (okEnvelope p.command result) := by
  unfold response respond
  generalize executeCommand host p.command p.normalizedPayload p.normalizedOutputRoot p.normalizedInputRoot w = executed
  obtain ⟨outcome, w'⟩ := executed
  cases outcome with
  | ok result => simp
  | error e => simp [errorEnvelope_encodable]

theorem agrees_iff : Agrees host c {} w ↔ Conveyed host c w := by
  unfold Agrees Conveyed runBrokered runOneShot
  cases hprepared : prepareRequest host c w with
  | error e => exact iff_of_true ⟨.refl _, rfl, rfl⟩ fun p hp => by cases hp
  | ok p =>
      have hsound := prepareRequest_ok hprepared
      simp only [Except.ok.injEq, forall_eq', ← encodable_response]
      by_cases hrequest : Encodable p.envelope
      · by_cases hresponse : Encodable (response host p w).1
        · obtain ⟨bytes, hbytes⟩ := encodable_iff.mp hresponse
          refine iff_of_true ?_ ⟨hrequest, hresponse⟩
          rw [run_encodable c.operation hsound hrequest, runOneShotWorker_sound hsound, hbytes]
          exact ⟨.refl _, rfl, rfl⟩
        · obtain ⟨message, herror⟩ := encodeJson_error hresponse
          refine iff_of_false ?_ fun h => hresponse h.2
          rw [run_encodable c.operation hsound hrequest, herror]
          rintro ⟨-, -, hready⟩
          cases hready
      · obtain ⟨message, hrun⟩ := @run_unencodable World host _ w c.operation hsound hrequest
        refine iff_of_false ?_ fun h => hrequest h.1
        rw [hrun]
        rintro ⟨hsame, -⟩
        cases hone : (runOneShotWorker host p w).1 with
        | ok result =>
            rw [hone] at hsame
            exact hsame
        | error e =>
            rw [hone] at hsame
            have hclass : "InvalidFeatureParametersError" = "HarnessError" :=
              hsame.trans (runOneShotWorker_error hsound hone)
            exact absurd hclass (by decide)

/-! ## Sequences of calls -/

/-- From this broker and world, every call agrees with the one-shot worker. -/
def Refines (host : Host World) : ProcessWorkerBroker → World → List Call → Prop
  | _, _, [] => True
  | b, w, c :: calls =>
      Agrees host c b w ∧ Refines host (runBrokered host c b w).2.1 (runBrokered host c b w).2.2 calls

/-- Every call can be conveyed in the world that the one-shot worker leaves of the calls before it. -/
def AllConveyed (host : Host World) : World → List Call → Prop
  | _, [] => True
  | w, c :: calls => Conveyed host c w ∧ AllConveyed host (runOneShot host c w).2 calls

/-- The broker refines the one-shot worker over a sequence of calls just when all of them can be conveyed. -/
theorem broker_refines_iff (host : Host World) (w : World) (calls : List Call) :
    Refines host {} w calls ↔ AllConveyed host w calls := by
  induction calls generalizing w with
  | nil => exact Iff.rfl
  | cons c calls ih =>
      rw [Refines, AllConveyed, ← agrees_iff]
      refine and_congr_right fun ⟨_, hworld, hready⟩ => ?_
      rw [hworld, show (runBrokered host c {} w).2.1 = {} from hready]
      exact ih _

/-! ## A response that is nested too deeply -/

/-- The bridge answers with an array that is nested 31 levels, which its frames allow. -/
def nestedHost : Host Unit where
  casefold text := text
  lower text := text
  drawingReadRequest _ := none
  isContract _ _ := false
  isTolerance _ := false
  outputRoot _ _ := none
  inputRoot _ _ _ := none
  writeMarker _ _ _ _ := none
  execute _ _ _ _ w :=
    (.ok (.obj [("transport_ok", .bool true), ("response", .obj [("result", Ipc.nested 30)]),
      ("server_process_id", .num (.number (.int 4711)))]), w)

def inspectCall : Call where
  operation := "bridge_ipc_broker"
  command := .bridgeRequest
  payload := [("pipe_name", .str "cad-bridge"), ("envelope", .obj [("method", .str "inspect")]),
    ("timeout_seconds", .num (.number (.int 5))), ("max_frame_bytes", .num (.number (.int 1048576)))]

def echoCall : Call where
  operation := "echo"
  command := .echoJson
  payload := [("value", .str "still there")]

theorem nestedHost_unencodable : ¬ Encodable (okEnvelope .bridgeRequest (.obj [("transport_ok", .bool true),
    ("response", .obj [("result", Ipc.nested 30)]), ("server_process_id", .num (.number (.int 4711)))])) := by
  intro h
  have hvalid := (validateJsonValue_ok_iff 0 _).mpr h.1
  have hinvalid : (validateJsonValue 0 (okEnvelope .bridgeRequest (.obj [("transport_ok", .bool true),
      ("response", .obj [("result", Ipc.nested 30)]), ("server_process_id", .num (.number (.int 4711)))]))).toBool =
      false := by decide +kernel
  rw [hvalid] at hinvalid
  cases hinvalid

/-- The broker dies of the response, and with it the next call. -/
theorem broker_dies_of_nested_response : ¬ Refines nestedHost {} () [inspectCall, echoCall] := by
  rintro ⟨hagrees, -⟩
  have hprepared : (prepareRequest nestedHost inspectCall ()).toBool = true := by decide +kernel
  obtain ⟨p, hp⟩ := Fallible.exists_of_toBool hprepared
  have hcommand : p.command = .bridgeRequest := by
    simp only [prepareRequest, Fallible.bind_eq_ok, Fallible.ite_eq_ok, reduceCtorEq, and_false, false_or,
      Fallible.pure_eq_ok] at hp
    obtain ⟨_, _, _, _, _, _, _, _, _, rfl⟩ := hp
    rfl
  have hconveyed := (agrees_iff.mp hagrees p hp).2
  rw [hcommand] at hconveyed
  exact nestedHost_unencodable (hconveyed _ rfl)

end CadHarness.Process
