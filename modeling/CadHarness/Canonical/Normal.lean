import CadHarness.Canonical.SameValue
import CadHarness.Domain.Plan

/-!
# What a hash of a value pins

Nothing is excluded here: two values have one canonical text just when they are normalized to one value.
-/

namespace CadHarness.Canonical
open CadHarness.Lib

/-! ## Objects with sorted members -/

mutual
/-- The members of every object are in the order of their keys. -/
def SortedKeys : Json Number → Prop
  | .null | .bool _ | .num _ | .str _ => True
  | .arr xs => SortedKeysItems xs
  | .obj ms => ms.Pairwise (fun m n => codePoints m.1 ≤ codePoints n.1) ∧ SortedKeysMembers ms

def SortedKeysItems : List (Json Number) → Prop
  | [] => True
  | x :: xs => SortedKeys x ∧ SortedKeysItems xs

def SortedKeysMembers : List (String × Json Number) → Prop
  | [] => True
  | (_, x) :: ms => SortedKeys x ∧ SortedKeysMembers ms
end

theorem sortedKeysMembers_iff (ms : List (String × Json Number)) :
    SortedKeysMembers ms ↔ ∀ m ∈ ms, SortedKeys m.2 := by
  induction ms with
  | nil => simp [SortedKeysMembers]
  | cons m ms ih => simp [SortedKeysMembers, ih]

mutual
theorem sortedKeys_normalize : (x : Json Number) → SortedKeys (normalize x)
  | .null => trivial
  | .bool _ => trivial
  | .num _ => trivial
  | .str _ => trivial
  | .arr xs => sortedKeysItems_normalize xs
  | .obj ms => by
      have hmembers := (sortedKeysMembers_iff _).mp (sortedKeysMembers_normalize ms)
      have hsorted : SortedKeysMembers (sortOn codePoints (normalizeMembers ms)) := by
        rw [sortedKeysMembers_iff]
        intro m hm
        exact hmembers m ((sortOn_perm _ _).mem_iff.mp hm)
      exact ⟨pairwise_sortOn _ _, hsorted⟩

theorem sortedKeysItems_normalize : (xs : List (Json Number)) → SortedKeysItems (normalizeItems xs)
  | [] => trivial
  | x :: xs => ⟨sortedKeys_normalize x, sortedKeysItems_normalize xs⟩

theorem sortedKeysMembers_normalize : (ms : List (String × Json Number)) →
    SortedKeysMembers (normalizeMembers ms)
  | [] => trivial
  | (_, x) :: ms => ⟨sortedKeys_normalize x, sortedKeysMembers_normalize ms⟩
end

/-- Members in order are written in order. -/
theorem sortOn_dumpsMembers {ms : List (String × Json Number)}
    (h : ms.Pairwise (fun m n => codePoints m.1 ≤ codePoints n.1)) :
    sortOn codePoints (dumpsMembers ms) = dumpsMembers ms := by
  have hms : sortOn codePoints ms = ms := h.insertionSort_eq
  rw [dumpsMembers_eq_map, sortOn_map codePoints (fun m => dumps m.2), hms]

/-! ## The text -/

mutual
/-- What is written of values with sorted members tells them apart. -/
theorem dumps_inj : (x y : Json Number) → SortedKeys x → SortedKeys y → dumps x = dumps y → x = y
  | .null, y, _, _, h => by
      cases y with
      | null => rfl
      | _ => cases h
  | .bool b, y, _, _, h => by
      cases y with
      | bool c => cases h; rfl
      | _ => cases h
  | .num m, y, _, _, h => by
      cases y with
      | num n => rw [numberRepr_inj (Json.num.inj h)]
      | _ => cases h
  | .str s, y, _, _, h => by
      cases y with
      | str t => cases h; rfl
      | _ => cases h
  | .arr xs, y, hx, hy, h => by
      cases y with
      | arr ys => rw [dumpsItems_inj xs ys hx hy (Json.arr.inj h)]
      | _ => cases h
  | .obj ms, y, hx, hy, h => by
      cases y with
      | obj ns =>
          have hmembers := Json.obj.inj h
          rw [sortOn_dumpsMembers hx.1, sortOn_dumpsMembers hy.1] at hmembers
          rw [dumpsMembers_inj ms ns hx.2 hy.2 hmembers]
      | _ => cases h

theorem dumpsItems_inj : (xs ys : List (Json Number)) → SortedKeysItems xs → SortedKeysItems ys →
    dumpsItems xs = dumpsItems ys → xs = ys
  | [], [], _, _, _ => rfl
  | [], _ :: _, _, _, h => by cases h
  | _ :: _, [], _, _, h => by cases h
  | x :: xs, y :: ys, hx, hy, h => by
      rw [dumpsItems, dumpsItems, List.cons.injEq] at h
      rw [dumps_inj x y hx.1 hy.1 h.1, dumpsItems_inj xs ys hx.2 hy.2 h.2]

theorem dumpsMembers_inj : (ms ns : List (String × Json Number)) → SortedKeysMembers ms →
    SortedKeysMembers ns → dumpsMembers ms = dumpsMembers ns → ms = ns
  | [], [], _, _, _ => rfl
  | [], _ :: _, _, _, h => by cases h
  | _ :: _, [], _, _, h => by cases h
  | (k, x) :: ms, (l, y) :: ns, hx, hy, h => by
      rw [dumpsMembers, dumpsMembers, List.cons.injEq, Prod.mk.injEq] at h
      rw [h.1.1, dumps_inj x y hx.1 hy.1 h.1.2, dumpsMembers_inj ms ns hx.2 hy.2 h.2]
end

/-- Two values have one canonical text just when they are normalized to one value. -/
theorem canonicalJson_eq_iff {x y : Json Number} : canonicalJson x = canonicalJson y ↔ normalize x = normalize y := by
  constructor
  · intro h
    have hrender := String.ofList_injective h
    have hdumps : dumps (normalize x) = dumps (normalize y) :=
      (Json.render_append_inj _ _ Json.delimited_nil Json.delimited_nil
        (by rw [List.append_nil, List.append_nil]; exact hrender)).1
    exact dumps_inj _ _ (sortedKeys_normalize x) (sortedKeys_normalize y) hdumps
  · intro h
    rw [canonicalJson, canonicalJson, h]

/-- A digest pins a value up to its normalization. -/
theorem sha256Of_eq_iff {sha256 : String → String} (hsha : Function.Injective sha256) {x y : Json Number} :
    Domain.sha256Of sha256 x = Domain.sha256Of sha256 y ↔ normalize x = normalize y := by
  rw [← canonicalJson_eq_iff]
  constructor
  · intro h
    have hlist := congrArg String.toList h
    unfold Domain.sha256Of at hlist
    rw [String.toList_append, String.toList_append] at hlist
    exact hsha (String.toList_injective (List.append_cancel_left hlist))
  · intro h
    rw [Domain.sha256Of, h, Domain.sha256Of]

@[simp] theorem normalizeItems_map_str (l : List String) : normalizeItems (l.map .str) = l.map .str := by
  induction l with
  | nil => rfl
  | cons s l ih => rw [List.map_cons, normalizeItems, ih, normalize]

/-! ## Members of a normalized object -/

theorem normalizeMembers_eq_map (ms : List (String × Json Number)) :
    normalizeMembers ms = ms.map (fun m => (m.1, normalize m.2)) := by
  induction ms with
  | nil => rfl
  | cons m ms ih => rw [normalizeMembers, ih]; rfl

theorem lookup_normalizeMembers (ms : List (String × Json Number)) (k : String) :
    (normalizeMembers ms).lookup k = (ms.lookup k).map normalize := by
  induction ms with
  | nil => rfl
  | cons m ms ih =>
      obtain ⟨l, x⟩ := m
      rw [normalizeMembers, List.lookup_cons, List.lookup_cons, ih]
      split <;> rfl

/-- Objects are normalized to one value just when their members of each name are. -/
theorem normalize_obj_eq_iff {ms ns : List (String × Json Number)} (hms : (ms.map Prod.fst).Nodup)
    (hns : (ns.map Prod.fst).Nodup) :
    normalize (.obj ms) = normalize (.obj ns) ↔
      ∀ k, (ms.lookup k).map normalize = (ns.lookup k).map normalize := by
  have hkeys (l : List (String × Json Number)) : (normalizeMembers l).map Prod.fst = l.map Prod.fst := by
    rw [normalizeMembers_eq_map, List.map_map]
    rfl
  rw [normalize, normalize, Json.obj.injEq,
    sortOn_eq_iff_lookup codePoints_injective (by rwa [hkeys]) (by rwa [hkeys])]
  simp only [lookup_normalizeMembers]

end CadHarness.Canonical
