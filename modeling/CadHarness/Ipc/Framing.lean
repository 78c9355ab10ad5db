import CadHarness.Domain.Errors
import CadHarness.Lib.JsonText

/-!
# Frames on both sides

The harness counts the levels below the root, the bridge the open containers. They differ by an empty
container on the last level.
-/

/-!
## Frames of the bridge pipe

Both ends of the pipe: `encode_frame` of `cad_harness.adapters.dotnet_bridge`, and what
`PipeRequestProcessor` does with a frame before it looks into the request.
-/

namespace CadHarness.Ipc
open CadHarness.Lib CadHarness.Domain
open CadHarness.Canonical (Double Number numberRepr)

/-! ## The harness -/

/-- A leaf of a Python value that is not `None`, a `bool` or a `str`. -/
inductive Scalar where
  | number (n : Number)
  /-- A float that is infinite or not a number. -/
  | nonFinite
  /-- A value of any other type. -/
  | other

def maxFrameBytes : Nat := 1048576

def maxJsonDepth : Nat := 32

/-- The walk of `_validate_json_tree`, with the top of `pending` in front. -/
def validatePending : List (Json Scalar × Nat) → Except Exc Unit
  | [] => .ok ()
  | (current, depth) :: pending =>
      if maxJsonDepth < depth then
        .error (.valueError "JSON nesting exceeds the maximum depth 32")
      else
        match current with
        | .num .nonFinite => .error (.valueError "JSON numbers must be finite")
        | .num .other => .error (.valueError "Envelope contains a value outside the JSON contract")
        | current => validatePending ((current.children.map (fun item => (item, depth + 1))).reverse ++ pending)
  termination_by pending => (pending.map (fun p => p.1.size)).sum
  decreasing_by
    have hlt : (current.children.map (fun v => v.size)).sum < current.size := Json.sum_size_children_lt current
    simp only [List.map_append, List.map_reverse, List.map_map, List.sum_append, List.sum_reverse, List.map_cons,
      List.sum_cons, Function.comp_def]
    omega

def validateJsonTree (value : Json Scalar) : Except Exc Unit := validatePending [(value, 0)]

/-- The text of a number in `json.dumps` with `allow_nan=False`. -/
def Scalar.text : Scalar → Option NumberText
  | .number n => some (numberRepr n)
  | .nonFinite | .other => none

/-- `struct.Struct(">I").pack` -/
def packLength (n : Nat) : List UInt8 :=
  [.ofNat (n / 2 ^ 24), .ofNat (n / 2 ^ 16), .ofNat (n / 2 ^ 8), .ofNat n]

def utf8 (s : String) : List UInt8 := s.toByteArray.data.toList

def encodeFrame (payload : List (String × Json Scalar)) : Except Exc (List UInt8) := do
  validateJsonTree (.obj payload)
  match (Json.obj payload).traverse Scalar.text with
  | none => .error (.valueError "Out of range float values are not JSON compliant")
  | some value =>
      let body := utf8 (.ofList value.render)
      if maxFrameBytes < body.length then
        .error (.valueError "Frame exceeds 1048576 bytes")
      return packLength body.length ++ body

/-! ## The bridge -/

structure PipeServerOptions where
  maxRequestBytes : Nat := 1048576
  maxRequestDepth : Nat := 32

def readExactly (n : Nat) (input : List UInt8) : Option (List UInt8 × List UInt8) :=
  if input.length < n then none else some (input.take n, input.drop n)

/-- `BinaryPrimitives.ReadInt32BigEndian` -/
def readInt32BigEndian (header : List UInt8) : Int :=
  let unsigned : Nat := header.foldl (fun n b => 256 * n + b.toNat) 0
  if unsigned < 2 ^ 31 then unsigned else (unsigned : Int) - 2 ^ 32

/-- `JsonDocument.Parse`, in what it demands of the nesting. -/
def parseDocument (maxDepth : Nat) (json : String) : Bool :=
  Json.Reader.run maxDepth {} json.toList = some {}

/-- `ProcessPayloadAsync` up to the validation of the request. -/
def processPayload (options : PipeServerOptions) (payload : List UInt8) : Except String String :=
  if payload = [] ∨ options.maxRequestBytes < payload.length then
    .error "The IPC request size is outside the configured limit."
  else
    match String.fromUTF8? ⟨payload.toArray⟩ with
    | none => .error "The IPC request is not valid UTF-8."
    | some json =>
        if parseDocument options.maxRequestDepth json then .ok json
        else .error "The IPC request is malformed or exceeds the configured JSON depth."

/-- `ProcessNextAsync` up to the validation of the request. -/
def processNext (options : PipeServerOptions) (input : List UInt8) : Except String String :=
  match readExactly 4 input with
  | none => .error "The IPC frame header is incomplete."
  | some (header, input) =>
      let length := readInt32BigEndian header
      if length ≤ 0 ∨ options.maxRequestBytes < length then
        .error "The IPC request size is outside the configured limit."
      else
        match readExactly length.toNat input with
        | none => .error "The IPC frame body is incomplete."
        | some (payload, _) => processPayload options payload

end CadHarness.Ipc

namespace CadHarness.Ipc
open CadHarness.Lib CadHarness.Domain

/-! ## What the harness accepts -/

/-- The nodes at and below a value that stands at a depth are ones that the harness sends. -/
def Sendable (depth : Nat) (v : Json Scalar) : Prop :=
  ∀ n, ∀ w ∈ Json.level n v, depth + n ≤ maxJsonDepth ∧ w ≠ .num .nonFinite ∧ w ≠ .num .other

theorem sendable_iff {depth : Nat} {v : Json Scalar} :
    Sendable depth v ↔ (depth ≤ maxJsonDepth ∧ v ≠ .num .nonFinite ∧ v ≠ .num .other) ∧
      ∀ c ∈ v.children, Sendable (depth + 1) c := by
  constructor
  · intro h
    refine ⟨h 0 v (List.mem_singleton_self v), fun c hc n w hw => ?_⟩
    have hnode := h (n + 1) w (Json.mem_level_succ.mpr ⟨c, hc, hw⟩)
    exact ⟨by omega, hnode.2⟩
  · rintro ⟨hroot, hchildren⟩ n w hw
    cases n with
    | zero =>
        obtain rfl := List.mem_singleton.mp hw
        exact hroot
    | succ n =>
        obtain ⟨c, hc, hw⟩ := Json.mem_level_succ.mp hw
        have hnode := hchildren c hc n w hw
        exact ⟨by omega, hnode.2⟩

/-- The walk goes through when every pending value is sendable. -/
theorem validatePending_ok_iff (pending : List (Json Scalar × Nat)) :
    validatePending pending = .ok () ↔ ∀ p ∈ pending, Sendable p.2 p.1 := by
  fun_induction validatePending pending with
  | case1 => simp
  | case2 current depth pending h =>
      refine iff_of_false nofun (fun hall => ?_)
      have hroot := (sendable_iff.mp (hall _ List.mem_cons_self)).1
      omega
  | case3 depth pending h =>
      exact iff_of_false nofun (fun hall => (sendable_iff.mp (hall _ List.mem_cons_self)).1.2.1 rfl)
  | case4 depth pending h =>
      exact iff_of_false nofun (fun hall => (sendable_iff.mp (hall _ List.mem_cons_self)).1.2.2 rfl)
  | case5 depth pending h current hfinite hother ih =>
      rw [ih]
      have hroot : depth ≤ maxJsonDepth ∧ current ≠ .num .nonFinite ∧ current ≠ .num .other :=
        ⟨by omega, hfinite, hother⟩
      simp [sendable_iff (v := current), hroot, or_imp, forall_and]

theorem encodeFrame_ok {payload : List (String × Json Scalar)} {frame : List UInt8}
    (h : encodeFrame payload = .ok frame) :
    Sendable 0 (.obj payload) ∧ ∃ value, (Json.obj payload).traverse Scalar.text = some value ∧
      (utf8 (.ofList value.render)).length ≤ maxFrameBytes ∧
      frame = packLength (utf8 (.ofList value.render)).length ++ utf8 (.ofList value.render) := by
  unfold encodeFrame at h
  cases hvalid : validateJsonTree (.obj payload) with
  | error e => rw [hvalid] at h; cases h
  | ok u =>
      rw [hvalid] at h
      have hsendable := (validatePending_ok_iff _).mp hvalid (.obj payload, 0) (List.mem_singleton_self _)
      refine ⟨hsendable, ?_⟩
      cases htext : (Json.obj payload).traverse Scalar.text with
      | none => rw [htext] at h; cases h
      | some value =>
          simp only [htext, bind, Except.bind] at h
          split_ifs at h with hlen
          exact ⟨value, rfl, by omega, (Except.ok.inj h).symm⟩

theorem encodeFrame_of_sendable {payload : List (String × Json Scalar)} {value : Json NumberText}
    (h : Sendable 0 (.obj payload)) (hvalue : (Json.obj payload).traverse Scalar.text = some value)
    (hlen : (utf8 (.ofList value.render)).length ≤ maxFrameBytes) :
    encodeFrame payload =
      .ok (packLength (utf8 (.ofList value.render)).length ++ utf8 (.ofList value.render)) := by
  have hvalid : validateJsonTree (.obj payload) = .ok () :=
    (validatePending_ok_iff _).mpr (fun p hp => by obtain rfl := List.mem_singleton.mp hp; exact h)
  simp only [encodeFrame, hvalid, hvalue, bind, Except.bind]
  rw [if_neg (by omega)]
  rfl

/-! ## What the bridge accepts -/

theorem readInt32BigEndian_packLength {n : Nat} (h : n < 2 ^ 31) :
    readInt32BigEndian (packLength n) = n := by
  have hvalue : (packLength n).foldl (fun n b => 256 * n + b.toNat) 0 = n := by
    simp only [packLength, List.foldl_cons, List.foldl_nil, UInt8.toNat_ofNat']
    omega
  rw [readInt32BigEndian, hvalue, if_pos h]

theorem readExactly_append (a b : List UInt8) : readExactly a.length (a ++ b) = some (a, b) := by
  simp [readExactly]

theorem fromUTF8_utf8 (s : String) : String.fromUTF8? ⟨(utf8 s).toArray⟩ = some s := by
  have hbytes : (⟨(utf8 s).toArray⟩ : ByteArray) = s.toByteArray := by rw [utf8, Array.toArray_toList]
  rw [hbytes, String.fromUTF8?, dif_pos s.isValidUTF8]
  rfl

theorem utf8_ne_nil {s : String} (h : s ≠ "") : utf8 s ≠ [] := by
  intro hnil
  have hs := fromUTF8_utf8 s
  rw [hnil] at hs
  exact h (Option.some.inj (hs.symm.trans (by decide +kernel)))

/-- The bridge parses a frame of one text just when it parses the text. -/
theorem processNext_frame {options : PipeServerOptions} {s : String} (hs : s ≠ "")
    (hlen : (utf8 s).length ≤ options.maxRequestBytes) (hmax : options.maxRequestBytes < 2 ^ 31) :
    processNext options (packLength (utf8 s).length ++ utf8 s) =
      if parseDocument options.maxRequestDepth s then .ok s
      else .error "The IPC request is malformed or exceeds the configured JSON depth." := by
  have hpos : 0 < (utf8 s).length := List.length_pos_iff.mpr (utf8_ne_nil hs)
  have hheader : readExactly 4 (packLength (utf8 s).length ++ utf8 s) =
      some (packLength (utf8 s).length, utf8 s) := readExactly_append (packLength _) _
  have hbody : readExactly (utf8 s).length (utf8 s) = some (utf8 s, []) := by
    simpa using readExactly_append (utf8 s) []
  have hlength : readInt32BigEndian (packLength (utf8 s).length) = (utf8 s).length :=
    readInt32BigEndian_packLength (by omega)
  have hrange : ¬ (((utf8 s).length : Int) ≤ 0 ∨ (options.maxRequestBytes : Int) < (utf8 s).length) := by omega
  have hpayload : ¬ (utf8 s = [] ∨ options.maxRequestBytes < (utf8 s).length) :=
    not_or.mpr ⟨utf8_ne_nil hs, by omega⟩
  simp only [processNext, hheader, hlength, if_neg hrange, Int.toNat_natCast, hbody, processPayload,
    if_neg hpayload, fromUTF8_utf8]

theorem parseDocument_render (maxDepth : Nat) (value : Json NumberText) :
    parseDocument maxDepth (.ofList value.render) = true ↔
      ¬ ∃ w ∈ Json.level maxDepth value, w.IsContainer := by
  rw [parseDocument, String.toList_ofList, Json.Reader.run_render value (Nat.zero_le _), ← Json.nesting_le_iff,
    Json.Reader.after, Nat.zero_add, decide_eq_true_iff]
  split_ifs with h
  · exact iff_of_true rfl h
  · exact iff_of_false not_false h

/-! ## Both sides -/

/-- A container on the last level that the harness sends is empty. -/
theorem Sendable.container_iff {v : Json Scalar} (h : Sendable 0 v) :
    (∃ w ∈ Json.level maxJsonDepth v, w.IsContainer) ↔
      ∃ w ∈ Json.level maxJsonDepth v, w = .arr [] ∨ w = .obj [] := by
  constructor
  · rintro ⟨w, hw, hcontainer⟩
    refine ⟨w, hw, hcontainer.eq_empty (List.eq_nil_iff_forall_not_mem.mpr (fun c hc => ?_))⟩
    have hdepth := (h (maxJsonDepth + 1) c (Json.children_mem_level hw hc)).1
    omega
  · rintro ⟨w, hw, rfl | rfl⟩
    · exact ⟨_, hw, trivial⟩
    · exact ⟨_, hw, trivial⟩

/-- The bridge takes a frame of the harness just when the payload has no empty container 32 levels below
its root. -/
theorem bridge_accepts_frame_iff {payload : List (String × Json Scalar)} {frame : List UInt8}
    (h : encodeFrame payload = .ok frame) :
    (processNext {} frame).isOk ↔
      ¬ ∃ w ∈ Json.level maxJsonDepth (.obj payload), w = .arr [] ∨ w = .obj [] := by
  obtain ⟨hsendable, value, hvalue, hlen, rfl⟩ := encodeFrame_ok h
  have hne : String.ofList value.render ≠ "" := by
    intro hempty
    have hnil := congrArg String.toList hempty
    rw [String.toList_ofList] at hnil
    have hshape := Json.kind_render value []
    rw [hnil] at hshape
    cases hshape
  rw [processNext_frame hne hlen (by decide), ← hsendable.container_iff,
    Json.exists_container_traverse hvalue, show maxJsonDepth = ({} : PipeServerOptions).maxRequestDepth from rfl,
    ← parseDocument_render]
  cases parseDocument ({} : PipeServerOptions).maxRequestDepth (.ofList value.render) <;> simp [Except.isOk, Except.toBool]

/-- An array in an array, a number of times. -/
def nested : Nat → Json Scalar
  | 0 => .arr []
  | n + 1 => .arr [nested n]

/-- A request whose parameters hold an empty array at the given depth below them. -/
def nestedRequest (n : Nat) : List (String × Json Scalar) :=
  [("schema_version", .str "1.13"), ("method", .str "preview"), ("request_id", .str "req_1"),
    ("params", .obj [("plan", nested n)])]

theorem sendable_nested {n depth : Nat} (h : depth + n ≤ maxJsonDepth) : Sendable depth (nested n) := by
  induction n generalizing depth with
  | zero => exact sendable_iff.mpr ⟨⟨by omega, nofun, nofun⟩, nofun⟩
  | succ n ih =>
      refine sendable_iff.mpr ⟨⟨by omega, nofun, nofun⟩, fun c hc => ?_⟩
      obtain rfl := List.mem_singleton.mp hc
      exact ih (by omega)

theorem sendable_nestedRequest {n : Nat} (h : n + 2 ≤ maxJsonDepth) :
    Sendable 0 (.obj (nestedRequest n)) := by
  have hleaf (s : String) : Sendable 1 (.str s) := sendable_iff.mpr ⟨⟨by decide, nofun, nofun⟩, nofun⟩
  have hparams : Sendable 1 (.obj [("plan", nested n)]) := by
    refine sendable_iff.mpr ⟨⟨by decide, nofun, nofun⟩, fun c hc => ?_⟩
    obtain rfl := List.mem_singleton.mp hc
    exact sendable_nested (by omega)
  refine sendable_iff.mpr ⟨⟨by decide, nofun, nofun⟩, fun c hc => ?_⟩
  simp only [Json.children, nestedRequest, List.map_cons, List.map_nil, List.mem_cons, List.not_mem_nil,
    or_false] at hc
  rcases hc with rfl | rfl | rfl | rfl
  · exact hleaf _
  · exact hleaf _
  · exact hleaf _
  · exact hparams

/-- A request that is nested one level less goes through. -/
theorem bridge_accepts_nested :
    ∃ frame, encodeFrame (nestedRequest 29) = .ok frame ∧ (processNext {} frame).isOk := by
  have hframe := encodeFrame_of_sendable (sendable_nestedRequest (by decide : 29 + 2 ≤ maxJsonDepth)) rfl
    (by decide +kernel)
  refine ⟨_, hframe, (bridge_accepts_frame_iff hframe).mpr ?_⟩
  have hlevel : Json.level maxJsonDepth (Json.obj (nestedRequest 29)) = [] := by rfl
  rw [hlevel]
  exact fun ⟨_, hw, _⟩ => nomatch hw

/-- An empty array 32 levels below the root goes out, and the bridge refuses it. -/
theorem bridge_refuses_frame :
    ¬ ∀ payload frame, encodeFrame payload = .ok frame → (processNext {} frame).isOk := by
  intro h
  have hframe := encodeFrame_of_sendable (sendable_nestedRequest (by decide : 30 + 2 ≤ maxJsonDepth)) rfl
    (by decide +kernel)
  have hok := h _ _ hframe
  rw [processNext_frame (by decide +kernel) (by decide +kernel) (by decide), if_neg (by decide +kernel)] at hok
  cases hok

end CadHarness.Ipc
