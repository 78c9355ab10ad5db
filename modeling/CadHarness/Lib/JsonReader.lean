import CadHarness.Lib.JsonText
import CadHarness.Lib.KeyOrder
import Mathlib.Data.List.TakeWhile

/-!
# Reading compact JSON text

A reader of the text that is written without blanks, which gives back the value, and objects with their
members in the order of their keys.
-/

namespace CadHarness.Lib

/-! ## Strings -/

/-- The characters of a string literal up to its closing quote, and what comes after it. -/
def readLiteral : Nat → List Char → Option (List Char × List Char)
  | 0, _ => none
  | fuel + 1, s =>
      match unescapeChar s with
      | some (c, s) => (readLiteral fuel s).map fun p => (c :: p.1, p.2)
      | none => if s.head? = some '"' then some ([], s.tail) else none

theorem readLiteral_escape {cs : List Char} {fuel : Nat} (h : cs.length < fuel) (s : List Char) :
    readLiteral fuel (escape cs ++ s) = some (cs, s) := by
  induction cs generalizing fuel with
  | nil =>
      cases fuel with
      | zero => exact absurd h (Nat.not_lt_zero _)
      | succ fuel => rfl
  | cons c cs ih =>
      cases fuel with
      | zero => exact absurd h (Nat.not_lt_zero _)
      | succ fuel =>
          rw [escape, List.append_assoc, readLiteral, unescapeChar_escapeChar]
          simp only [ih (Nat.lt_of_succ_lt_succ h), Option.map_some]

theorem length_escapeChar_pos (c : Char) : 0 < (escapeChar c).length := by
  unfold escapeChar
  split_ifs <;> simp

theorem length_lt_escape (cs : List Char) : cs.length < (escape cs).length := by
  induction cs with
  | nil => simp [escape]
  | cons c cs ih =>
      have hc := length_escapeChar_pos c
      simp only [escape, List.length_cons, List.length_append]
      omega

namespace Json

/-! ## Values -/

/-- A number and what comes after it. -/
def readNumber (s : List Char) : Option (Json NumberText × List Char) :=
  if h : s.takeWhile isNumberChar = [] then none
  else some (.num ⟨s.takeWhile isNumberChar, h, fun _ => List.mem_takeWhile_imp⟩, s.dropWhile isNumberChar)

mutual
/-- A value and what comes after it. -/
def readValue : Nat → List Char → Option (Json NumberText × List Char)
  | 0, _ => none
  | _ + 1, 'n' :: 'u' :: 'l' :: 'l' :: s => some (.null, s)
  | _ + 1, 't' :: 'r' :: 'u' :: 'e' :: s => some (.bool true, s)
  | _ + 1, 'f' :: 'a' :: 'l' :: 's' :: 'e' :: s => some (.bool false, s)
  | fuel + 1, '"' :: s => (readLiteral fuel s).map fun p => (.str (.ofList p.1), p.2)
  | _ + 1, '[' :: ']' :: s => some (.arr [], s)
  | fuel + 1, '[' :: s => do
      let (x, s) ← readValue fuel s
      let (xs, s) ← readItems fuel s
      return (.arr (x :: xs), s)
  | _ + 1, '{' :: '}' :: s => some (.obj [], s)
  | fuel + 1, '{' :: s => do
      let (m, s) ← readMember fuel s
      let (ms, s) ← readMembers fuel s
      return (.obj (m :: ms), s)
  | _ + 1, s => readNumber s

/-- The other items of an array. -/
def readItems : Nat → List Char → Option (List (Json NumberText) × List Char)
  | _ + 1, ']' :: s => some ([], s)
  | fuel + 1, ',' :: s => do
      let (x, s) ← readValue fuel s
      let (xs, s) ← readItems fuel s
      return (x :: xs, s)
  | _, _ => none

/-- A member of an object. -/
def readMember : Nat → List Char → Option ((String × Json NumberText) × List Char)
  | fuel + 1, '"' :: s => do
      let (k, s) ← readLiteral fuel s
      match s with
      | ':' :: s =>
          let (x, s) ← readValue fuel s
          return ((.ofList k, x), s)
      | _ => none
  | _, _ => none

/-- The other members of an object. -/
def readMembers : Nat → List Char → Option (List (String × Json NumberText) × List Char)
  | _ + 1, '}' :: s => some ([], s)
  | fuel + 1, ',' :: s => do
      let (m, s) ← readMember fuel s
      let (ms, s) ← readMembers fuel s
      return (m :: ms, s)
  | _, _ => none
end

/-- The value of a text, if it is the text of one. -/
def read (s : List Char) : Option (Json NumberText) :=
  match readValue s.length s with
  | some (v, []) => some v
  | _ => none

theorem readNumber_append (n : NumberText) {s : List Char} (hs : Delimited s) :
    readNumber (n.text ++ s) = some (.num n, s) := by
  have htake : (n.text ++ s).takeWhile isNumberChar = n.text := by
    rw [List.takeWhile_append_of_pos n.chars]
    cases s with
    | nil => simp
    | cons c s => simp [hs c rfl]
  have hdrop : (n.text ++ s).dropWhile isNumberChar = s := by
    rw [List.dropWhile_append_of_pos n.chars]
    cases s with
    | nil => simp
    | cons c s => simp [hs c rfl]
  unfold readNumber
  rw [dif_neg (by rw [htake]; exact n.nonempty)]
  simp only [htake, hdrop]

theorem readValue_number (fuel : Nat) (n : NumberText) (s : List Char) :
    readValue (fuel + 1) (n.text ++ s) = readNumber (n.text ++ s) := by
  obtain ⟨c, cs, hcs⟩ := List.exists_cons_of_ne_nil n.nonempty
  have hc : isNumberChar c = true := n.chars c (hcs ▸ List.mem_cons_self)
  have hne {b : Char} (hb : isNumberChar b = false) : c ≠ b := by
    rintro rfl
    rw [hc] at hb
    cases hb
  have hn : c ≠ 'n' := hne (by decide)
  have ht : c ≠ 't' := hne (by decide)
  have hf : c ≠ 'f' := hne (by decide)
  have hq : c ≠ '"' := hne (by decide)
  have hb : c ≠ '[' := hne (by decide)
  have ho : c ≠ '{' := hne (by decide)
  rw [hcs, List.cons_append]
  unfold readValue
  split <;> simp_all

/-- An array that is not empty. -/
theorem readValue_open {fuel : Nat} {s : List Char} (h : ∀ t, s ≠ ']' :: t) :
    readValue (fuel + 1) ('[' :: s) = (do
      let (x, s) ← readValue fuel s
      let (xs, s) ← readItems fuel s
      return (.arr (x :: xs), s)) := by
  cases s with
  | nil => rfl
  | cons c s =>
      rw [readValue]
      intro t ht
      exact h t ht

/-- An object that is not empty. -/
theorem readValue_brace {fuel : Nat} {s : List Char} :
    readValue (fuel + 1) ('{' :: '"' :: s) = (do
      let (m, s) ← readMember fuel ('"' :: s)
      let (ms, s) ← readMembers fuel s
      return (.obj (m :: ms), s)) := by
  rw [readValue]
  intro t ht
  cases ht

mutual
theorem readValue_render : (v : Json NumberText) → {fuel : Nat} → v.render.length ≤ fuel → {s : List Char} →
    Delimited s → readValue fuel (v.render ++ s) = some (v, s)
  | v, 0, h, s, hs => by
      have hkind := kind_render v []
      rw [List.eq_nil_of_length_eq_zero (Nat.le_zero.mp h)] at hkind
      cases hkind
  | .null, fuel + 1, _, s, _ => rfl
  | .bool true, fuel + 1, _, s, _ => rfl
  | .bool false, fuel + 1, _, s, _ => rfl
  | .num n, fuel + 1, _, s, hs => by rw [render, readValue_number, readNumber_append n hs]
  | .str x, fuel + 1, h, s, _ => by
      have hlt := length_lt_escape x.toList
      have hle : (escape x.toList).length ≤ fuel := Nat.le_of_succ_le_succ h
      rw [render, List.cons_append, readValue, readLiteral_escape (by omega)]
      simp only [Option.map_some, String.ofList_toList]
  | .arr [], fuel + 1, _, s, _ => rfl
  | .arr (x :: xs), fuel + 1, h, s, _ => by
      simp only [render, List.length_cons, List.length_append] at h
      have hx := @readValue_render x fuel (by omega) _ (delimited_items xs s)
      have hxs := @readItems_render xs fuel (by omega) s
      rw [render, List.cons_append, List.append_assoc, readValue_open (fun t => render_append_ne x), hx]
      simp only [Option.bind_eq_bind, Option.bind_some, hxs, Option.pure_def]
  | .obj [], fuel + 1, _, s, _ => rfl
  | .obj ((k, x) :: ms), fuel + 1, h, s, _ => by
      simp only [render, List.length_cons, List.length_append] at h
      have hm := @readMember_render k x fuel (by simp only [List.length_cons, List.length_append]; omega) _
        (delimited_members ms s)
      have hms := @readMembers_render ms fuel (by omega) s
      simp only [List.cons_append, List.append_assoc] at hm
      simp only [render, List.cons_append, List.append_assoc]
      rw [readValue_brace, hm]
      simp only [Option.bind_eq_bind, Option.bind_some, hms, Option.pure_def]

theorem readItems_render : (xs : List (Json NumberText)) → {fuel : Nat} → (renderItems xs).length ≤ fuel →
    (s : List Char) → readItems fuel (renderItems xs ++ s) = some (xs, s)
  | [], 0, h, s => by simp [renderItems] at h
  | _ :: _, 0, h, s => by simp [renderItems] at h
  | [], fuel + 1, _, s => rfl
  | x :: xs, fuel + 1, h, s => by
      simp only [renderItems, List.length_cons, List.length_append] at h
      have hx := @readValue_render x fuel (by omega) _ (delimited_items xs s)
      have hxs := @readItems_render xs fuel (by omega) s
      simp only [renderItems, List.cons_append, List.append_assoc, readItems, hx, Option.bind_eq_bind,
        Option.bind_some, hxs, Option.pure_def]

theorem readMember_render : (k : String) → (x : Json NumberText) → {fuel : Nat} →
    ('"' :: (escape k.toList ++ ':' :: x.render)).length ≤ fuel → {s : List Char} → Delimited s →
    readMember fuel ('"' :: (escape k.toList ++ ':' :: x.render) ++ s) = some ((k, x), s)
  | k, x, 0, h, s, _ => by simp at h
  | k, x, fuel + 1, h, s, hs => by
      simp only [List.length_cons, List.length_append] at h
      have hlt := length_lt_escape k.toList
      have hx := @readValue_render x fuel (by omega) _ hs
      simp only [List.cons_append, List.append_assoc, readMember,
        readLiteral_escape (show k.toList.length < fuel by omega), Option.bind_eq_bind, Option.bind_some, hx,
        Option.pure_def, String.ofList_toList]

theorem readMembers_render : (ms : List (String × Json NumberText)) → {fuel : Nat} →
    (renderMembers ms).length ≤ fuel → (s : List Char) →
    readMembers fuel (renderMembers ms ++ s) = some (ms, s)
  | [], 0, h, s => by simp [renderMembers] at h
  | _ :: _, 0, h, s => by simp [renderMembers] at h
  | [], fuel + 1, _, s => rfl
  | (k, x) :: ms, fuel + 1, h, s => by
      simp only [renderMembers, List.length_cons, List.length_append] at h
      have hm := @readMember_render k x fuel (by simp only [List.length_cons, List.length_append]; omega) _
        (delimited_members ms s)
      have hms := @readMembers_render ms fuel (by omega) s
      simp only [List.cons_append, List.append_assoc] at hm
      simp only [renderMembers, List.cons_append, List.append_assoc, readMembers, hm, Option.bind_eq_bind,
        Option.bind_some, hms, Option.pure_def]
end

/-- The reader gives back what was written. -/
theorem read_render (v : Json NumberText) : read v.render = some v := by
  have hv := readValue_render v (Nat.le_refl _) delimited_nil
  rw [List.append_nil] at hv
  rw [read, hv]

/-! ## The order of the members -/

section
variable {ν μ : Type}

mutual
/-- The value with the members of every object in the order of their keys. -/
def sortKeys : Json ν → Json ν
  | .null => .null
  | .bool b => .bool b
  | .num n => .num n
  | .str s => .str s
  | .arr xs => .arr (sortKeysItems xs)
  | .obj ms => .obj (sortOn codePoints (sortKeysMembers ms))

def sortKeysItems : List (Json ν) → List (Json ν)
  | [] => []
  | x :: xs => sortKeys x :: sortKeysItems xs

def sortKeysMembers : List (String × Json ν) → List (String × Json ν)
  | [] => []
  | (k, x) :: ms => (k, sortKeys x) :: sortKeysMembers ms
end

theorem sortKeysMembers_eq_map (ms : List (String × Json ν)) :
    sortKeysMembers ms = ms.map fun m => (m.1, sortKeys m.2) := by
  induction ms with
  | nil => rfl
  | cons m ms ih => rw [sortKeysMembers, ih, List.map_cons]

mutual
theorem sortKeys_sortKeys : (v : Json ν) → sortKeys (sortKeys v) = sortKeys v
  | .null => rfl
  | .bool _ => rfl
  | .num _ => rfl
  | .str _ => rfl
  | .arr xs => by rw [sortKeys, sortKeys, sortKeysItems_sortKeysItems xs]
  | .obj ms => by
      have hmap : sortKeysMembers (sortOn codePoints (sortKeysMembers ms)) =
          sortOn codePoints (sortKeysMembers (sortKeysMembers ms)) := by
        rw [sortKeysMembers_eq_map (sortOn _ _), sortKeysMembers_eq_map (sortKeysMembers ms)]
        exact (sortOn_map codePoints (fun m => sortKeys m.2) _).symm
      rw [sortKeys, sortKeys, hmap, sortKeysMembers_sortKeysMembers ms, sortOn_sortOn]

theorem sortKeysItems_sortKeysItems : (xs : List (Json ν)) →
    sortKeysItems (sortKeysItems xs) = sortKeysItems xs
  | [] => rfl
  | x :: xs => by rw [sortKeysItems, sortKeysItems, sortKeys_sortKeys x, sortKeysItems_sortKeysItems xs]

theorem sortKeysMembers_sortKeysMembers : (ms : List (String × Json ν)) →
    sortKeysMembers (sortKeysMembers ms) = sortKeysMembers ms
  | [] => rfl
  | (k, x) :: ms => by rw [sortKeysMembers, sortKeysMembers, sortKeys_sortKeys x, sortKeysMembers_sortKeysMembers ms]
end

/-! ## Numbers -/

variable {f : ν → Option μ} {g : μ → Option ν}

mutual
/-- What one translation of the numbers does, the other undoes. -/
theorem traverse_inv (h : ∀ n m, f n = some m → g m = some n) : {v : Json ν} → {w : Json μ} →
    traverse f v = some w → traverse g w = some v
  | .null, _, hw => by obtain rfl := Option.some.inj hw; rfl
  | .bool _, _, hw => by obtain rfl := Option.some.inj hw; rfl
  | .str _, _, hw => by obtain rfl := Option.some.inj hw; rfl
  | .num n, _, hw => by
      obtain ⟨m, hm, rfl⟩ := Option.map_eq_some_iff.mp hw
      rw [traverse, h n m hm, Option.map_some]
  | .arr _, _, hw => by
      obtain ⟨ys, hys, rfl⟩ := Option.map_eq_some_iff.mp hw
      rw [traverse, traverseItems_inv h hys, Option.map_some]
  | .obj _, _, hw => by
      obtain ⟨ns, hns, rfl⟩ := Option.map_eq_some_iff.mp hw
      rw [traverse, traverseMembers_inv h hns, Option.map_some]

theorem traverseItems_inv (h : ∀ n m, f n = some m → g m = some n) : {xs : List (Json ν)} → {ys : List (Json μ)} →
    traverseItems f xs = some ys → traverseItems g ys = some xs
  | [], _, hw => by obtain rfl := Option.some.inj hw; rfl
  | _ :: _, _, hw => by
      simp only [traverseItems, Option.bind_eq_bind, Option.bind_eq_some_iff, Option.pure_def,
        Option.some.injEq] at hw
      obtain ⟨y, hy, ys, hys, rfl⟩ := hw
      simp only [traverseItems, traverse_inv h hy, traverseItems_inv h hys, Option.bind_eq_bind, Option.bind_some,
        Option.pure_def]

theorem traverseMembers_inv (h : ∀ n m, f n = some m → g m = some n) : {ms : List (String × Json ν)} →
    {ns : List (String × Json μ)} → traverseMembers f ms = some ns → traverseMembers g ns = some ms
  | [], _, hw => by obtain rfl := Option.some.inj hw; rfl
  | (_, _) :: _, _, hw => by
      simp only [traverseMembers, Option.bind_eq_bind, Option.bind_eq_some_iff, Option.pure_def,
        Option.some.injEq] at hw
      obtain ⟨y, hy, ns, hns, rfl⟩ := hw
      simp only [traverseMembers, traverse_inv h hy, traverseMembers_inv h hns, Option.bind_eq_bind,
        Option.bind_some, Option.pure_def]
end

end

end Json

end CadHarness.Lib
