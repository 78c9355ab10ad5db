import CadHarness.Canonical.SameValue
import CadHarness.Ipc.Framing
import CadHarness.Lib.Fallible
import CadHarness.Process.ProcessRunner

/-!
# Envelopes

When a value can be encoded, and that decoding gives it back with the members of its objects in the order of their
keys.
-/

namespace CadHarness.Process
open CadHarness.Lib CadHarness.Domain
open CadHarness.Canonical (numberRepr integerText floatRepr)
open CadHarness.Ipc (Scalar Sendable sendable_iff utf8)

/-! ## Numbers -/

theorem readSign_append {neg : Bool} {s : List Char} (h : ∃ c t, s = c :: t ∧ c.isDigit) :
    readSign (Canonical.sign neg ++ s) = (neg, s) := by
  obtain ⟨c, t, rfl, hc⟩ := h
  cases neg with
  | true => rfl
  | false =>
      have hminus : c ≠ '-' := by
        rintro rfl
        cases hc
      change readSign (c :: t) = _
      unfold readSign
      split
      · rename_i heq
        exact absurd (List.cons.inj heq).1 hminus
      · rfl

theorem readScalar_integerText (i : Int) : readScalar (integerText i) = .number (.int i) := by
  have hall : (Nat.toDigits 10 i.natAbs).all Char.isDigit = true :=
    List.all_eq_true.mpr fun _ hc => Nat.isDigit_of_mem_toDigits (by decide) (by decide) hc
  have hsign : readSign (integerText i).text = (decide (i < 0), Nat.toDigits 10 i.natAbs) :=
    readSign_append (Canonical.toDigits_cons i.natAbs)
  rw [readScalar, hsign]
  simp only [readUnsigned, hall, if_true, Nat.ofDigitChars_ten_toDigits, decide_eq_true_eq, Scalar.number.injEq,
    Canonical.Number.int.injEq]
  split_ifs <;> omega

theorem readScalar_floatRepr (x : Canonical.Double) : readScalar (floatRepr x.1) = .number (.double x) := by
  have hsign : readSign (floatRepr x.1).text =
      (x.1.neg, Canonical.decimalText Canonical.pythonBand x.1.shortest) :=
    readSign_append (Canonical.decimalText_cons _ _)
  have hall : (Canonical.decimalText Canonical.pythonBand x.1.shortest).all Char.isDigit = false := by
    rw [List.all_eq_false]
    rcases Canonical.point_or_e_mem_decimalText Canonical.pythonBand x.1.shortest with h | h
    · exact ⟨'.', h, by decide⟩
    · exact ⟨'e', h, by decide⟩
  have hvalue : Binary64.nearest x.1.neg (Decimal.read (Canonical.decimalText Canonical.pythonBand x.1.shortest)) =
      x.1 := by
    rw [Canonical.read_decimalText, Binary64.nearest_shortest]
  rw [readScalar, hsign]
  simp only [readUnsigned, hall, hvalue, x.2, dite_true, Bool.false_eq_true, if_false]

/-- A number is read back from its text. -/
theorem readScalar_numberText {n : Scalar} {literal : NumberText} (h : numberText n = some literal) :
    readScalar literal = n := by
  cases n with
  | nonFinite => cases h
  | other => cases h
  | number n =>
      cases n with
      | int i =>
          by_cases hlong : maxStrDigits < (Nat.toDigits 10 i.natAbs).length
          · rw [numberText, if_pos hlong] at h
            cases h
          · rw [numberText, if_neg hlong] at h
            cases h
            exact readScalar_integerText i
      | double x =>
          cases h
          exact readScalar_floatRepr x

/-! ## Validation -/

theorem check_depth {depth : Nat} {e : Exc} {m : Except Exc Unit} :
    (if maxJsonDepth < depth then .error e else m) = .ok () ↔ depth ≤ Ipc.maxJsonDepth ∧ m = .ok () := by
  rw [Fallible.ite_eq_ok, not_lt]
  exact or_iff_right fun h => nomatch h.2

mutual
theorem validateJsonValue_ok_iff : (depth : Nat) → (v : JsonValue) →
    (validateJsonValue depth v = .ok () ↔ Sendable depth v)
  | depth, .null | depth, .bool _ | depth, .str _ | depth, .num (.number _) => by
      rw [validateJsonValue, sendable_iff, check_depth]
      simp [Json.children]
  | depth, .num .nonFinite | depth, .num .other => by
      rw [validateJsonValue, sendable_iff, check_depth]
      simp
  | depth, .arr xs => by
      rw [validateJsonValue, sendable_iff, check_depth, validateItems_ok_iff (depth + 1) xs]
      simp [Json.children]
  | depth, .obj ms => by
      rw [validateJsonValue, sendable_iff, check_depth, validateMembers_ok_iff (depth + 1) ms]
      simp [Json.children]

theorem validateItems_ok_iff : (depth : Nat) → (xs : List JsonValue) →
    (validateItems depth xs = .ok () ↔ ∀ x ∈ xs, Sendable depth x)
  | depth, [] => by simp [validateItems]
  | depth, x :: xs => by
      rw [validateItems, Fallible.bind_eq_ok]
      simp [validateJsonValue_ok_iff depth x, validateItems_ok_iff depth xs]

theorem validateMembers_ok_iff : (depth : Nat) → (ms : Dict) →
    (validateMembers depth ms = .ok () ↔ ∀ x ∈ ms.map Prod.snd, Sendable depth x)
  | depth, [] => by simp [validateMembers]
  | depth, (k, x) :: ms => by
      rw [validateMembers, Fallible.bind_eq_ok]
      simp [validateJsonValue_ok_iff depth x, validateMembers_ok_iff depth ms]
end

/-! ## Sorting the members -/

theorem mem_children_sortKeys {v c : JsonValue} : c ∈ v.sortKeys.children ↔ ∃ d ∈ v.children, c = d.sortKeys := by
  cases v with
  | arr xs =>
      have hmap : Json.sortKeysItems xs = xs.map Json.sortKeys := by
        induction xs with
        | nil => rfl
        | cons x xs ih => rw [Json.sortKeysItems, ih, List.map_cons]
      simp only [Json.sortKeys, Json.children, hmap, List.mem_map, eq_comm]
  | obj ms =>
      have hperm := (sortOn_perm codePoints (Json.sortKeysMembers ms)).map Prod.snd
      rw [Json.sortKeys, Json.children, hperm.mem_iff, Json.sortKeysMembers_eq_map, List.map_map, Json.children]
      constructor
      · intro h
        obtain ⟨m, hm, rfl⟩ := List.mem_map.mp h
        exact ⟨m.2, List.mem_map_of_mem hm, rfl⟩
      · rintro ⟨d, hd, rfl⟩
        obtain ⟨m, hm, rfl⟩ := List.mem_map.mp hd
        exact List.mem_map_of_mem (f := Prod.snd ∘ fun m => (m.1, Json.sortKeys m.2)) hm
  | _ => simp [Json.sortKeys, Json.children]

theorem sortKeys_eq_num {v : JsonValue} {n : Scalar} : v.sortKeys = .num n ↔ v = .num n := by
  cases v <;> simp [Json.sortKeys]

/-- The order of the members does not matter for what can be encoded. -/
theorem sendable_sortKeys {depth : Nat} {v : JsonValue} : Sendable depth v.sortKeys ↔ Sendable depth v := by
  generalize hsize : v.size = size
  induction size using Nat.strong_induction_on generalizing depth v with
  | _ size ih =>
      subst hsize
      rw [sendable_iff, sendable_iff (v := v), ne_eq, ne_eq, sortKeys_eq_num, sortKeys_eq_num]
      refine and_congr_right fun _ => ?_
      have hlt : ∀ c ∈ v.children, c.size < v.size := by
        intro c hc
        have hsum := Json.sum_size_children_lt v
        have hle : c.size ≤ (v.children.map Json.size).sum := List.le_sum_of_mem (List.mem_map_of_mem hc)
        omega
      simp only [mem_children_sortKeys]
      constructor
      · intro h c hc
        exact (ih c.size (hlt c hc) rfl).mp (h _ ⟨c, hc, rfl⟩)
      · rintro h _ ⟨c, hc, rfl⟩
        exact (ih c.size (hlt c hc) rfl).mpr (h c hc)

theorem dumps_sortKeys (v : JsonValue) : dumps v.sortKeys = dumps v := by
  rw [dumps, Json.sortKeys_sortKeys, dumps]

/-! ## Encoding and decoding -/

/-- A value that is JSON, nested at most 32 levels and at most 16 MiB long. -/
def Encodable (v : JsonValue) : Prop :=
  Sendable 0 v ∧ ∃ text, dumps v = some text ∧ (utf8 (.ofList text)).length ≤ maxEnvelopeBytes

theorem encodeJson_ok_iff {v : JsonValue} {bytes : Bytes} : encodeJson v = .ok bytes ↔
    Sendable 0 v ∧ ∃ text, dumps v = some text ∧ (utf8 (.ofList text)).length ≤ maxEnvelopeBytes ∧
      bytes = utf8 (.ofList text) := by
  unfold encodeJson
  cases hvalid : validateJsonValue 0 v with
  | error e =>
      refine iff_of_false nofun fun h => ?_
      rw [(validateJsonValue_ok_iff 0 v).mpr h.1] at hvalid
      cases hvalid
  | ok _ =>
      have hsendable := (validateJsonValue_ok_iff 0 v).mp hvalid
      cases hdumps : dumps v with
      | none => exact iff_of_false nofun fun ⟨_, text, htext, _⟩ => nomatch htext
      | some text =>
          simp only [hsendable, true_and, Option.some.injEq, exists_eq_left', Fallible.ite_eq_ok, reduceCtorEq,
            and_false, false_or, not_lt, Except.ok.injEq, eq_comm (a := bytes)]

theorem encodable_iff {v : JsonValue} : Encodable v ↔ ∃ bytes, encodeJson v = .ok bytes := by
  unfold Encodable
  constructor
  · rintro ⟨h, text, htext, hlen⟩
    exact ⟨_, encodeJson_ok_iff.mpr ⟨h, text, htext, hlen, rfl⟩⟩
  · rintro ⟨bytes, h⟩
    obtain ⟨hs, text, htext, hlen, -⟩ := encodeJson_ok_iff.mp h
    exact ⟨hs, text, htext, hlen⟩

theorem encodeJson_sortKeys {v : JsonValue} {bytes : Bytes} :
    encodeJson v.sortKeys = .ok bytes ↔ encodeJson v = .ok bytes := by
  rw [encodeJson_ok_iff, encodeJson_ok_iff, sendable_sortKeys, dumps_sortKeys]

/-- A value that cannot be encoded is reported as an invalid parameter. -/
theorem encodeJson_error {v : JsonValue} (h : ¬ Encodable v) :
    ∃ message, encodeJson v = .error (invalidParameters message) := by
  unfold Encodable at h
  unfold encodeJson
  cases hvalid : validateJsonValue 0 v with
  | error e => exact ⟨_, rfl⟩
  | ok _ =>
      have hsendable := (validateJsonValue_ok_iff 0 v).mp hvalid
      cases hdumps : dumps v with
      | none => exact ⟨_, rfl⟩
      | some text =>
          have hlen : maxEnvelopeBytes < (utf8 (.ofList text)).length := by
            by_contra hlen
            exact h ⟨hsendable, text, hdumps, not_lt.mp hlen⟩
          exact ⟨_, if_pos hlen⟩

theorem loads_dumps {v : JsonValue} {text : List Char} (h : dumps v = some text) :
    loads (utf8 (.ofList text)) = some v.sortKeys := by
  obtain ⟨w, hw, rfl⟩ := Option.map_eq_some_iff.mp h
  have hback : w.traverse (fun literal => some (readScalar literal)) = some v.sortKeys :=
    Json.traverse_inv (fun n m hnm => by rw [readScalar_numberText hnm]) hw
  simp only [loads, Ipc.fromUTF8_utf8, String.toList_ofList, Json.read_render, hback, Option.bind_eq_bind,
    Option.bind_some]

/-- The members of an object in the order of their keys. -/
def sortMembers (ms : Dict) : Dict := sortOn codePoints (Json.sortKeysMembers ms)

/-- What was encoded is decoded. -/
theorem decodeJsonObject_encodeJson {ms : Dict} {bytes : Bytes} (h : encodeJson (.obj ms) = .ok bytes) :
    decodeJsonObject bytes = .ok (sortMembers ms) := by
  obtain ⟨hsendable, text, htext, hlen, rfl⟩ := encodeJson_ok_iff.mp h
  have hvalid : validateJsonValue 0 (Json.obj ms).sortKeys = .ok () :=
    (validateJsonValue_ok_iff 0 _).mpr (sendable_sortKeys.mpr hsendable)
  rw [decodeJsonObject, if_neg (not_lt.mpr hlen), loads_dumps htext]
  simp only [hvalid]
  rfl

theorem sortMembers_sortMembers (ms : Dict) : sortMembers (sortMembers ms) = sortMembers ms := by
  have h := Json.sortKeys_sortKeys (Json.obj ms)
  simp only [Json.sortKeys, Json.obj.injEq] at h
  exact h

theorem lookup_sortKeysMembers (ms : Dict) (k : String) :
    (Json.sortKeysMembers ms).lookup k = (ms.lookup k).map Json.sortKeys := by
  induction ms with
  | nil => rfl
  | cons m ms ih =>
      obtain ⟨l, x⟩ := m
      rw [Json.sortKeysMembers, List.lookup_cons, List.lookup_cons, ih]
      split <;> rfl

theorem lookup_sortMembers {ms : Dict} (h : (ms.map Prod.fst).Nodup) (k : String) :
    (sortMembers ms).lookup k = (ms.lookup k).map Json.sortKeys := by
  have hkeys : (Json.sortKeysMembers ms).map Prod.fst = ms.map Prod.fst := by
    rw [Json.sortKeysMembers_eq_map, List.map_map]
    rfl
  have hnodup : ((Json.sortKeysMembers ms).map Prod.fst).Nodup := by rwa [hkeys]
  have hperm := sortOn_perm codePoints (Json.sortKeysMembers ms)
  have hnodup' : ((sortMembers ms).map Prod.fst).Nodup := (hperm.map Prod.fst).nodup_iff.mpr hnodup
  rw [← lookup_sortKeysMembers]
  apply Option.ext
  intro a
  rw [Assoc.lookup_eq_some_iff hnodup', Assoc.lookup_eq_some_iff hnodup]
  exact hperm.mem_iff

end CadHarness.Process
