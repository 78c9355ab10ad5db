import CadHarness.Lib.Json
import Mathlib.Data.List.Forall2
import Mathlib.Tactic.IntervalCases

/-!
# Compact JSON text

A JSON value whose numbers are already text, written without blanks. The text determines the value,
whatever comes after it.
-/

namespace CadHarness.Lib

/-! ## Strings -/

/-- A character inside a string literal. -/
def escapeChar (c : Char) : List Char :=
  if c = '"' then ['\\', '"']
  else if c = '\\' then ['\\', '\\']
  else if c = '\n' then ['\\', 'n']
  else if c = '\r' then ['\\', 'r']
  else if c = '\t' then ['\\', 't']
  else if c.toNat = 0x08 then ['\\', 'b']
  else if c.toNat = 0x0C then ['\\', 'f']
  else if c.toNat < 0x20 then
    ['\\', 'u', '0', '0', Nat.digitChar (c.toNat / 16), Nat.digitChar (c.toNat % 16)]
  else [c]

/-- The characters of a string literal, up to and with the closing quote. -/
def escape : List Char → List Char
  | [] => ['"']
  | c :: cs => escapeChar c ++ escape cs

/-- The value of a hexadecimal digit. -/
def hexValue (c : Char) : Nat :=
  if c.isDigit then c.toNat - 48 else c.toNat - 87

/-- The first character of a string literal, unless it is the closing quote. -/
def unescapeChar : List Char → Option (Char × List Char)
  | '\\' :: 'n' :: s => some ('\n', s)
  | '\\' :: 'r' :: s => some ('\r', s)
  | '\\' :: 't' :: s => some ('\t', s)
  | '\\' :: 'b' :: s => some (Char.ofNat 0x08, s)
  | '\\' :: 'f' :: s => some (Char.ofNat 0x0C, s)
  | '\\' :: 'u' :: '0' :: '0' :: a :: b :: s => some (Char.ofNat (16 * hexValue a + hexValue b), s)
  | '\\' :: c :: s => some (c, s)
  | '"' :: _ => none
  | c :: s => some (c, s)
  | [] => none

theorem hexValue_digitChar {n : Nat} (h : n < 16) : hexValue (Nat.digitChar n) = n := by
  interval_cases n <;> rfl

theorem unescapeChar_escapeChar (c : Char) (s : List Char) :
    unescapeChar (escapeChar c ++ s) = some (c, s) := by
  unfold escapeChar
  split_ifs with h₁ h₂ h₃ h₄ h₅ h₆ h₇ h₈
  · rw [h₁]; rfl
  · rw [h₂]; rfl
  · rw [h₃]; rfl
  · rw [h₄]; rfl
  · rw [h₅]; rfl
  · rw [← Char.ofNat_toNat c, h₆]; rfl
  · rw [← Char.ofNat_toNat c, h₇]; rfl
  · simp only [List.cons_append, List.nil_append, unescapeChar]
    rw [hexValue_digitChar (by omega), hexValue_digitChar (by omega), Nat.div_add_mod, Char.ofNat_toNat]
  · unfold unescapeChar
    split <;> simp_all

theorem unescapeChar_quote (s : List Char) : unescapeChar ('"' :: s) = none := rfl

theorem escape_append_inj {cs ds s t : List Char} (h : escape cs ++ s = escape ds ++ t) :
    cs = ds ∧ s = t := by
  induction cs generalizing ds with
  | nil =>
      cases ds with
      | nil => exact ⟨rfl, (List.cons.inj h).2⟩
      | cons d ds =>
          have hd := congrArg unescapeChar h
          rw [escape, escape, List.append_assoc, unescapeChar_escapeChar] at hd
          cases hd
  | cons c cs ih =>
      have hc := congrArg unescapeChar h
      rw [escape, List.append_assoc, unescapeChar_escapeChar] at hc
      cases ds with
      | nil => cases hc
      | cons d ds =>
          rw [escape, List.append_assoc, unescapeChar_escapeChar] at hc
          obtain ⟨rfl, htail⟩ := Prod.mk.inj (Option.some.inj hc)
          obtain ⟨rfl, hst⟩ := ih htail
          exact ⟨rfl, hst⟩

/-! ## Values -/

/-- Whether a character may stand in a number. -/
def isNumberChar (c : Char) : Bool := c.isDigit || c = '-' || c = '+' || c = '.' || c = 'e'

/-- The text of a number. -/
structure NumberText where
  text : List Char
  nonempty : text ≠ []
  chars : ∀ c ∈ text, isNumberChar c

theorem NumberText.ext {m n : NumberText} (h : m.text = n.text) : m = n := by
  cases m; cases n; simp_all

namespace Json

mutual
/-- The compact text of a value. -/
def render : Json NumberText → List Char
  | .null => ['n', 'u', 'l', 'l']
  | .bool true => ['t', 'r', 'u', 'e']
  | .bool false => ['f', 'a', 'l', 's', 'e']
  | .num n => n.text
  | .str s => '"' :: escape s.toList
  | .arr [] => ['[', ']']
  | .arr (x :: xs) => '[' :: (x.render ++ renderItems xs)
  | .obj [] => ['{', '}']
  | .obj ((k, x) :: ms) => '{' :: '"' :: (escape k.toList ++ ':' :: (x.render ++ renderMembers ms))

/-- The other items of an array and its closing bracket. -/
def renderItems : List (Json NumberText) → List Char
  | [] => [']']
  | x :: xs => ',' :: (x.render ++ renderItems xs)

/-- The other members of an object and its closing brace. -/
def renderMembers : List (String × Json NumberText) → List Char
  | [] => ['}']
  | (k, x) :: ms => ',' :: '"' :: (escape k.toList ++ ':' :: (x.render ++ renderMembers ms))
end

/-- What may follow a value: nothing, or what closes or goes on with the value around it. -/
def Delimited (s : List Char) : Prop := ∀ c, s.head? = some c → isNumberChar c = false

theorem delimited_nil : Delimited [] := nofun

theorem delimited_items (xs : List (Json NumberText)) (s : List Char) : Delimited (renderItems xs ++ s) := by
  intro c hc
  cases xs with
  | nil => obtain rfl := Option.some.inj hc; rfl
  | cons x xs => obtain rfl := Option.some.inj hc; rfl

theorem delimited_members (ms : List (String × Json NumberText)) (s : List Char) :
    Delimited (renderMembers ms ++ s) := by
  intro c hc
  cases ms with
  | nil => obtain rfl := Option.some.inj hc; rfl
  | cons m ms => obtain rfl := Option.some.inj hc; rfl

theorem number_append_inj {m n s t : List Char} (hm : ∀ c ∈ m, isNumberChar c)
    (hn : ∀ c ∈ n, isNumberChar c) (hs : Delimited s) (ht : Delimited t) (h : m ++ s = n ++ t) :
    m = n ∧ s = t := by
  have htake : ∀ {m s : List Char}, (∀ c ∈ m, isNumberChar c) → Delimited s →
      (m ++ s).takeWhile isNumberChar = m := by
    intro m s hm hs
    rw [List.takeWhile_append_of_pos hm]
    cases s with
    | nil => simp
    | cons c s => simp [hs c rfl]
  have hmn : m = n := by rw [← htake hm hs, h, htake hn ht]
  subst hmn
  exact ⟨rfl, List.append_cancel_left h⟩

/-- The kind of value that begins with a character. -/
def kind (c : Char) : Nat :=
  if isNumberChar c then 3 else
    match c with
    | 'n' => 0 | 't' => 1 | 'f' => 1 | '"' => 4 | '[' => 5 | '{' => 6 | _ => 7

/-- The kind of a value. -/
def shape : Json NumberText → Nat
  | .null => 0
  | .bool _ => 1
  | .num _ => 3
  | .str _ => 4
  | .arr _ => 5
  | .obj _ => 6

theorem kind_render (a : Json NumberText) (s : List Char) :
    (a.render ++ s).head?.map kind = some a.shape := by
  cases a with
  | null => simp [render, shape, kind, isNumberChar, Char.isDigit]
  | bool b => cases b <;> simp [render, shape, kind, isNumberChar, Char.isDigit]
  | num n =>
      obtain ⟨text, hne, hchars⟩ := n
      cases text with
      | nil => exact absurd rfl hne
      | cons c cs => simp [render, shape, kind, hchars c (by simp)]
  | str t => simp [render, shape, kind, isNumberChar, Char.isDigit]
  | arr xs => cases xs <;> simp [render, shape, kind, isNumberChar, Char.isDigit]
  | obj ms =>
      cases ms with
      | nil => simp [render, shape, kind, isNumberChar, Char.isDigit]
      | cons m ms => simp [render, shape, kind, isNumberChar, Char.isDigit]

theorem shape_eq {a b : Json NumberText} {s t : List Char} (h : a.render ++ s = b.render ++ t) :
    a.shape = b.shape := by
  have hkind := congrArg (fun l => l.head?.map kind) h
  simpa only [kind_render, Option.some.injEq] using hkind

/-- A value does not begin with the bracket that closes an array. -/
theorem render_append_ne (a : Json NumberText) {s t : List Char} : a.render ++ s ≠ ']' :: t := by
  intro h
  have hkind := kind_render a s
  have hclose : kind ']' = 7 := by decide
  rw [h, List.head?_cons, Option.map_some, hclose] at hkind
  cases a <;> simp [shape] at hkind

mutual
/-- The text of a value determines the value and where the text ends. -/
theorem render_append_inj : (a b : Json NumberText) → {s t : List Char} → Delimited s → Delimited t →
    a.render ++ s = b.render ++ t → a = b ∧ s = t
  | .null, b, s, t, _, _, h => by
      cases b with
      | null => exact ⟨rfl, List.append_cancel_left h⟩
      | _ => exact absurd (shape_eq h) (by simp [shape])
  | .bool true, b, s, t, _, _, h => by
      cases b with
      | bool b =>
          cases b with
          | true => exact ⟨rfl, List.append_cancel_left h⟩
          | false => simp [render] at h
      | _ => exact absurd (shape_eq h) (by simp [shape])
  | .bool false, b, s, t, _, _, h => by
      cases b with
      | bool b =>
          cases b with
          | true => simp [render] at h
          | false => exact ⟨rfl, List.append_cancel_left h⟩
      | _ => exact absurd (shape_eq h) (by simp [shape])
  | .num n, b, s, t, hs, ht, h => by
      cases b with
      | num m =>
          obtain ⟨htext, hst⟩ := number_append_inj n.chars m.chars hs ht (by simpa [render] using h)
          exact ⟨congrArg _ (NumberText.ext htext), hst⟩
      | _ => exact absurd (shape_eq h) (by simp [shape])
  | .str x, b, s, t, _, _, h => by
      cases b with
      | str y =>
          obtain ⟨hxy, hst⟩ := escape_append_inj (by simpa [render] using h)
          exact ⟨congrArg _ (String.toList_injective hxy), hst⟩
      | _ => exact absurd (shape_eq h) (by simp [shape])
  | .arr [], b, s, t, _, _, h => by
      cases b with
      | arr ys =>
          cases ys with
          | nil => exact ⟨rfl, List.append_cancel_left h⟩
          | cons y ys => exact (render_append_ne y (by simpa [render] using h.symm)).elim
      | _ => exact absurd (shape_eq h) (by simp [shape])
  | .arr (x :: xs), b, s, t, _, _, h => by
      cases b with
      | arr ys =>
          cases ys with
          | nil => exact (render_append_ne x (by simpa [render] using h)).elim
          | cons y ys =>
              have htail : x.render ++ (renderItems xs ++ s) = y.render ++ (renderItems ys ++ t) := by
                simpa [render] using h
              obtain ⟨rfl, hrest⟩ :=
                render_append_inj x y (delimited_items xs s) (delimited_items ys t) htail
              obtain ⟨rfl, hst⟩ := renderItems_append_inj xs ys hrest
              exact ⟨rfl, hst⟩
      | _ => exact absurd (shape_eq h) (by simp [shape])
  | .obj [], b, s, t, _, _, h => by
      cases b with
      | obj ns =>
          cases ns with
          | nil => exact ⟨rfl, List.append_cancel_left h⟩
          | cons n ns => simp [render] at h
      | _ => exact absurd (shape_eq h) (by simp [shape])
  | .obj ((k, x) :: ms), b, s, t, _, _, h => by
      cases b with
      | obj ns =>
          cases ns with
          | nil => simp [render] at h
          | cons n ns =>
              obtain ⟨l, y⟩ := n
              obtain ⟨hkey, hvalue⟩ := escape_append_inj (s := ':' :: (x.render ++ renderMembers ms ++ s))
                (t := ':' :: (y.render ++ renderMembers ns ++ t)) (by simpa [render] using h)
              have htail : x.render ++ (renderMembers ms ++ s) = y.render ++ (renderMembers ns ++ t) := by
                simpa using hvalue
              obtain ⟨rfl, hrest⟩ :=
                render_append_inj x y (delimited_members ms s) (delimited_members ns t) htail
              obtain ⟨rfl, hst⟩ := renderMembers_append_inj ms ns hrest
              obtain rfl := String.toList_injective hkey
              exact ⟨rfl, hst⟩
      | _ => exact absurd (shape_eq h) (by simp [shape])

theorem renderItems_append_inj : (xs ys : List (Json NumberText)) → {s t : List Char} →
    renderItems xs ++ s = renderItems ys ++ t → xs = ys ∧ s = t
  | [], [], _, _, h => ⟨rfl, List.append_cancel_left h⟩
  | [], y :: ys, _, _, h => by simp [renderItems] at h
  | x :: xs, [], _, _, h => by simp [renderItems] at h
  | x :: xs, y :: ys, s, t, h => by
      have htail : x.render ++ (renderItems xs ++ s) = y.render ++ (renderItems ys ++ t) := by
        simpa [renderItems] using h
      obtain ⟨rfl, hrest⟩ := render_append_inj x y (delimited_items xs s) (delimited_items ys t) htail
      obtain ⟨rfl, hst⟩ := renderItems_append_inj xs ys hrest
      exact ⟨rfl, hst⟩

theorem renderMembers_append_inj : (ms ns : List (String × Json NumberText)) → {s t : List Char} →
    renderMembers ms ++ s = renderMembers ns ++ t → ms = ns ∧ s = t
  | [], [], _, _, h => ⟨rfl, List.append_cancel_left h⟩
  | [], (l, y) :: ns, _, _, h => by simp [renderMembers] at h
  | (k, x) :: ms, [], _, _, h => by simp [renderMembers] at h
  | (k, x) :: ms, (l, y) :: ns, s, t, h => by
      obtain ⟨hkey, hvalue⟩ := escape_append_inj (s := ':' :: (x.render ++ renderMembers ms ++ s))
        (t := ':' :: (y.render ++ renderMembers ns ++ t)) (by simpa [renderMembers] using h)
      have htail : x.render ++ (renderMembers ms ++ s) = y.render ++ (renderMembers ns ++ t) := by
        simpa using hvalue
      obtain ⟨rfl, hrest⟩ := render_append_inj x y (delimited_members ms s) (delimited_members ns t) htail
      obtain ⟨rfl, hst⟩ := renderMembers_append_inj ms ns hrest
      obtain rfl := String.toList_injective hkey
      exact ⟨rfl, hst⟩
end

end Json

end CadHarness.Lib

/-!
## Nesting of JSON

The nodes of a value by level, and a reader that refuses the text of a value once it has too many open
containers.
-/

namespace CadHarness.Lib.Json

variable {ν μ : Type}

/-! ## Levels -/

/-- The items of an array, or the values of the members of an object. -/
def children : Json ν → List (Json ν)
  | .arr xs => xs
  | .obj ms => ms.map Prod.snd
  | _ => []

def IsContainer : Json ν → Prop
  | .arr _ | .obj _ => True
  | _ => False

/-- The nodes that stand a number of levels below the root. -/
def level : Nat → Json ν → List (Json ν)
  | 0, v => [v]
  | n + 1, v => v.children.flatMap (level n)

@[simp] theorem level_zero (v : Json ν) : level 0 v = [v] := rfl

theorem mem_level_succ {n : Nat} {v w : Json ν} : w ∈ level (n + 1) v ↔ ∃ c ∈ v.children, w ∈ level n c :=
  List.mem_flatMap

/-- A child of a node of one level is a node of the next. -/
theorem children_mem_level {n : Nat} {v w c : Json ν} (hw : w ∈ level n v) (hc : c ∈ w.children) :
    c ∈ level (n + 1) v := by
  induction n generalizing v with
  | zero =>
      obtain rfl := List.mem_singleton.mp hw
      exact mem_level_succ.mpr ⟨c, hc, List.mem_singleton_self c⟩
  | succ n ih =>
      obtain ⟨u, hu, hw⟩ := mem_level_succ.mp hw
      exact mem_level_succ.mpr ⟨u, hu, ih hw⟩

theorem IsContainer.eq_empty {v : Json ν} (h : v.IsContainer) (hc : v.children = []) :
    v = .arr [] ∨ v = .obj [] := by
  cases v with
  | arr xs => exact .inl (congrArg Json.arr hc)
  | obj ms => exact .inr (congrArg Json.obj (List.map_eq_nil_iff.mp hc))
  | _ => exact h.elim

/-! ## Size -/

mutual
/-- The number of nodes. -/
def size : Json ν → Nat
  | .null | .bool _ | .num _ | .str _ => 1
  | .arr xs => 1 + sizeItems xs
  | .obj ms => 1 + sizeMembers ms

def sizeItems : List (Json ν) → Nat
  | [] => 0
  | x :: xs => x.size + sizeItems xs

def sizeMembers : List (String × Json ν) → Nat
  | [] => 0
  | (_, x) :: ms => x.size + sizeMembers ms
end

theorem sizeItems_eq (xs : List (Json ν)) : sizeItems xs = (xs.map size).sum := by
  induction xs with
  | nil => rfl
  | cons x xs ih => rw [sizeItems, ih, List.map_cons, List.sum_cons]

theorem sizeMembers_eq (ms : List (String × Json ν)) : sizeMembers ms = (ms.map (fun m => m.2.size)).sum := by
  induction ms with
  | nil => rfl
  | cons m ms ih => rw [sizeMembers, ih, List.map_cons, List.sum_cons]

theorem sum_size_children_lt (v : Json ν) : (v.children.map size).sum < v.size := by
  cases v with
  | arr xs => rw [children, size, sizeItems_eq]; omega
  | obj ms =>
      rw [children, size, sizeMembers_eq, List.map_map]
      simp only [Function.comp_def]
      omega
  | _ => simp [children, size]

/-! ## Translation of the numbers -/

mutual
/-- The value with its numbers translated, if every number can be. -/
def traverse (f : ν → Option μ) : Json ν → Option (Json μ)
  | .null => some .null
  | .bool b => some (.bool b)
  | .num n => (f n).map .num
  | .str s => some (.str s)
  | .arr xs => (traverseItems f xs).map .arr
  | .obj ms => (traverseMembers f ms).map .obj

def traverseItems (f : ν → Option μ) : List (Json ν) → Option (List (Json μ))
  | [] => some []
  | x :: xs => do return (← traverse f x) :: (← traverseItems f xs)

def traverseMembers (f : ν → Option μ) : List (String × Json ν) → Option (List (String × Json μ))
  | [] => some []
  | (k, x) :: ms => do return (k, ← traverse f x) :: (← traverseMembers f ms)
end

variable {f : ν → Option μ}

theorem traverseItems_forall₂ {xs : List (Json ν)} {ys : List (Json μ)} (h : traverseItems f xs = some ys) :
    List.Forall₂ (fun x y => traverse f x = some y) xs ys := by
  induction xs generalizing ys with
  | nil =>
      obtain rfl := Option.some.inj h
      exact .nil
  | cons x xs ih =>
      simp only [traverseItems, Option.bind_eq_bind, Option.bind_eq_some_iff, Option.pure_def,
        Option.some.injEq] at h
      obtain ⟨y, hy, ys, hys, rfl⟩ := h
      exact .cons hy (ih hys)

theorem traverseMembers_forall₂ {ms : List (String × Json ν)} {ns : List (String × Json μ)}
    (h : traverseMembers f ms = some ns) :
    List.Forall₂ (fun x y => traverse f x = some y) (ms.map Prod.snd) (ns.map Prod.snd) := by
  induction ms generalizing ns with
  | nil =>
      obtain rfl := Option.some.inj h
      exact .nil
  | cons m ms ih =>
      simp only [traverseMembers, Option.bind_eq_bind, Option.bind_eq_some_iff, Option.pure_def,
        Option.some.injEq] at h
      obtain ⟨y, hy, ns, hns, rfl⟩ := h
      exact .cons hy (ih hns)

/-- A translated value has translated children. -/
theorem traverse_children {v : Json ν} {w : Json μ} (h : traverse f v = some w) :
    List.Forall₂ (fun x y => traverse f x = some y) v.children w.children := by
  cases v with
  | arr xs =>
      obtain ⟨ys, hys, rfl⟩ := Option.map_eq_some_iff.mp h
      exact traverseItems_forall₂ hys
  | obj ms =>
      obtain ⟨ns, hns, rfl⟩ := Option.map_eq_some_iff.mp h
      exact traverseMembers_forall₂ hns
  | num n =>
      obtain ⟨m, _, rfl⟩ := Option.map_eq_some_iff.mp h
      exact .nil
  | _ =>
      obtain rfl := Option.some.inj h
      exact .nil

theorem traverse_isContainer {v : Json ν} {w : Json μ} (h : traverse f v = some w) :
    v.IsContainer ↔ w.IsContainer := by
  cases v with
  | arr xs => obtain ⟨ys, _, rfl⟩ := Option.map_eq_some_iff.mp h; exact Iff.rfl
  | obj ms => obtain ⟨ns, _, rfl⟩ := Option.map_eq_some_iff.mp h; exact Iff.rfl
  | num n => obtain ⟨m, _, rfl⟩ := Option.map_eq_some_iff.mp h; exact Iff.rfl
  | _ => obtain rfl := Option.some.inj h; exact Iff.rfl

theorem traverse_level {v : Json ν} {w : Json μ} (h : traverse f v = some w) (n : Nat) :
    List.Forall₂ (fun x y => traverse f x = some y) (level n v) (level n w) := by
  induction n generalizing v w with
  | zero => exact .cons h .nil
  | succ n ih => exact List.rel_flatMap (traverse_children h) (fun _ _ hxy => ih hxy)

/-- Translation keeps where the containers stand. -/
theorem exists_container_traverse {v : Json ν} {w : Json μ} (h : traverse f v = some w) (n : Nat) :
    (∃ x ∈ level n v, x.IsContainer) ↔ ∃ y ∈ level n w, y.IsContainer := by
  have hlevel := traverse_level h n
  generalize level n v = xs at hlevel ⊢
  generalize level n w = ys at hlevel ⊢
  induction hlevel with
  | nil => simp
  | cons hxy _ ih => simp only [List.mem_cons, exists_eq_or_imp, traverse_isContainer hxy, ih]

mutual
theorem traverse_isSome : (v : Json ν) → (∀ n, ∀ m, .num m ∈ level n v → (f m).isSome) →
    (traverse f v).isSome
  | .null, _ => rfl
  | .bool _, _ => rfl
  | .num m, h => by
      rw [traverse, Option.isSome_map]
      exact h 0 m (List.mem_singleton_self _)
  | .str _, _ => rfl
  | .arr xs, h => by
      rw [traverse, Option.isSome_map]
      exact traverseItems_isSome xs (fun x hx n m hm => h (n + 1) m (mem_level_succ.mpr ⟨x, hx, hm⟩))
  | .obj ms, h => by
      rw [traverse, Option.isSome_map]
      exact traverseMembers_isSome ms (fun x hx n m hm => h (n + 1) m (mem_level_succ.mpr ⟨x, hx, hm⟩))

theorem traverseItems_isSome : (xs : List (Json ν)) →
    (∀ x ∈ xs, ∀ n, ∀ m, .num m ∈ level n x → (f m).isSome) → (traverseItems f xs).isSome
  | [], _ => rfl
  | x :: xs, h => by
      obtain ⟨y, hy⟩ := Option.isSome_iff_exists.mp (traverse_isSome x (h x List.mem_cons_self))
      obtain ⟨ys, hys⟩ := Option.isSome_iff_exists.mp
        (traverseItems_isSome xs (fun z hz => h z (List.mem_cons_of_mem _ hz)))
      simp [traverseItems, hy, hys]

theorem traverseMembers_isSome : (ms : List (String × Json ν)) →
    (∀ x ∈ ms.map Prod.snd, ∀ n, ∀ m, .num m ∈ level n x → (f m).isSome) → (traverseMembers f ms).isSome
  | [], _ => rfl
  | (k, x) :: ms, h => by
      obtain ⟨y, hy⟩ := Option.isSome_iff_exists.mp (traverse_isSome x (h x List.mem_cons_self))
      obtain ⟨ns, hns⟩ := Option.isSome_iff_exists.mp
        (traverseMembers_isSome ms (fun z hz => h z (List.mem_cons_of_mem _ hz)))
      simp [traverseMembers, hy, hns]
end

/-! ## A reader of bounded depth -/

/-- Where a reader stands: between tokens, in a string, or behind a backslash in a string. -/
inductive Mode where
  | token
  | string
  | escape
  deriving DecidableEq

structure Reader where
  mode : Mode := .token
  depth : Nat := 0
  deriving DecidableEq

/-- Read a character. A container is not opened when there are as many open as allowed. -/
def Reader.step (maxDepth : Nat) (r : Reader) (c : Char) : Option Reader :=
  match r.mode with
  | .escape => some { r with mode := .string }
  | .string =>
      if c = '\\' then some { r with mode := .escape }
      else if c = '"' then some { r with mode := .token }
      else some r
  | .token =>
      if c = '"' then some { r with mode := .string }
      else if c = '{' ∨ c = '[' then
        if maxDepth ≤ r.depth then none else some { r with depth := r.depth + 1 }
      else if c = '}' ∨ c = ']' then some { r with depth := r.depth - 1 }
      else some r

def Reader.run (maxDepth : Nat) (r : Reader) (s : List Char) : Option Reader := s.foldlM (step maxDepth) r

mutual
/-- The number of containers that are open at the deepest point of a value. -/
def nesting : Json ν → Nat
  | .null | .bool _ | .num _ | .str _ => 0
  | .arr xs => 1 + nestingItems xs
  | .obj ms => 1 + nestingMembers ms

def nestingItems : List (Json ν) → Nat
  | [] => 0
  | x :: xs => max x.nesting (nestingItems xs)

def nestingMembers : List (String × Json ν) → Nat
  | [] => 0
  | (_, x) :: ms => max x.nesting (nestingMembers ms)
end

theorem nestingItems_le {xs : List (Json ν)} {n : Nat} : nestingItems xs ≤ n ↔ ∀ x ∈ xs, x.nesting ≤ n := by
  induction xs with
  | nil => simp [nestingItems]
  | cons x xs ih => simp [nestingItems, ih]

theorem nestingMembers_le {ms : List (String × Json ν)} {n : Nat} :
    nestingMembers ms ≤ n ↔ ∀ x ∈ ms.map Prod.snd, x.nesting ≤ n := by
  induction ms with
  | nil => simp [nestingMembers]
  | cons m ms ih => simp only [nestingMembers, max_le_iff, ih, List.map_cons, List.forall_mem_cons]

/-- At most `n` containers are ever open just when none stands `n` levels below the root. -/
theorem nesting_le_iff {v : Json ν} {n : Nat} : v.nesting ≤ n ↔ ¬ ∃ w ∈ level n v, w.IsContainer := by
  induction n generalizing v with
  | zero => cases v <;> simp [nesting, IsContainer]
  | succ n ih =>
      have hchildren : v.nesting ≤ n + 1 ↔ ∀ c ∈ v.children, c.nesting ≤ n := by
        cases v with
        | arr xs => rw [nesting, children, ← nestingItems_le]; omega
        | obj ms => rw [nesting, children, ← nestingMembers_le]; omega
        | _ => simp [nesting, children]
      rw [hchildren]
      constructor
      · rintro h ⟨w, hw, hcontainer⟩
        obtain ⟨c, hc, hw⟩ := mem_level_succ.mp hw
        exact ih.mp (h c hc) ⟨w, hw, hcontainer⟩
      · intro h c hc
        apply ih.mpr
        rintro ⟨w, hw, hcontainer⟩
        exact h ⟨w, mem_level_succ.mpr ⟨c, hc, hw⟩, hcontainer⟩

namespace Reader

variable {maxDepth : Nat}

theorem run_cons (r : Reader) (c : Char) (s : List Char) :
    run maxDepth r (c :: s) = (step maxDepth r c).bind (fun r => run maxDepth r s) := rfl

theorem run_append (r : Reader) (s t : List Char) :
    run maxDepth r (s ++ t) = (run maxDepth r s).bind (fun r => run maxDepth r t) :=
  List.foldlM_append

/-- A character of a string leaves the reader in the string. -/
theorem run_escapeChar (d : Nat) (c : Char) :
    run maxDepth ⟨.string, d⟩ (escapeChar c) = some ⟨.string, d⟩ := by
  unfold escapeChar
  split_ifs <;> simp_all [run, step]

theorem run_escape (d : Nat) (s : List Char) : run maxDepth ⟨.string, d⟩ (escape s) = some ⟨.token, d⟩ := by
  induction s with
  | nil => rfl
  | cons c s ih => rw [escape, run_append, run_escapeChar, Option.bind_some, ih]

theorem run_string (d : Nat) (s t : List Char) :
    run maxDepth ⟨.token, d⟩ ('"' :: (escape s ++ t)) = run maxDepth ⟨.token, d⟩ t := by
  rw [run_cons, show step maxDepth ⟨.token, d⟩ '"' = some ⟨.string, d⟩ from rfl, Option.bind_some, run_append,
    run_escape, Option.bind_some]

theorem step_numberChar {d : Nat} {c : Char} (h : isNumberChar c) :
    step maxDepth ⟨.token, d⟩ c = some ⟨.token, d⟩ := by
  have hne {b : Char} (hb : isNumberChar b = false) : c ≠ b := by
    rintro rfl
    rw [h] at hb
    cases hb
  have hquote : c ≠ '"' := hne (by decide)
  have hopen : ¬ (c = '{' ∨ c = '[') := not_or.mpr ⟨hne (by decide), hne (by decide)⟩
  have hclose : ¬ (c = '}' ∨ c = ']') := not_or.mpr ⟨hne (by decide), hne (by decide)⟩
  simp [step, hquote, hopen, hclose]

theorem run_number {d : Nat} {s : List Char} (h : ∀ c ∈ s, isNumberChar c) :
    run maxDepth ⟨.token, d⟩ s = some ⟨.token, d⟩ := by
  induction s with
  | nil => rfl
  | cons c s ih =>
      rw [run_cons, step_numberChar (h c List.mem_cons_self), Option.bind_some]
      exact ih (fun c hc => h c (List.mem_cons_of_mem _ hc))

/-- The state after a value, if its containers may be opened. -/
def after (maxDepth d n : Nat) : Option Reader := if d + n ≤ maxDepth then some ⟨.token, d⟩ else none

theorem after_zero {d : Nat} (h : d ≤ maxDepth) : after maxDepth d 0 = some ⟨.token, d⟩ := if_pos h

/-- A value and what comes after it, up to the end of the container around them. -/
theorem run_value_append {d m n : Nat} {s t : List Char} {r : Reader}
    (hs : run maxDepth ⟨.token, d⟩ s = after maxDepth d m)
    (ht : run maxDepth ⟨.token, d⟩ t = (after maxDepth d n).map (fun _ => r)) :
    run maxDepth ⟨.token, d⟩ (s ++ t) = (after maxDepth d (max m n)).map (fun _ => r) := by
  rw [run_append, hs]
  unfold after at ht ⊢
  split_ifs at ht ⊢ <;> first | omega | simp_all

theorem step_comma (d : Nat) : step maxDepth ⟨.token, d⟩ ',' = some ⟨.token, d⟩ := rfl

theorem step_colon (d : Nat) : step maxDepth ⟨.token, d⟩ ':' = some ⟨.token, d⟩ := rfl

/-- A container opens one level. -/
theorem run_open {d n : Nat} {c : Char} {s : List Char} (hc : c = '{' ∨ c = '[')
    (hs : d + 1 ≤ maxDepth → run maxDepth ⟨.token, d + 1⟩ s = (after maxDepth (d + 1) n).map (fun _ => ⟨.token, d⟩)) :
    run maxDepth ⟨.token, d⟩ (c :: s) = after maxDepth d (1 + n) := by
  have hquote : c ≠ '"' := by rcases hc with rfl | rfl <;> decide
  rw [run_cons]
  by_cases hd : maxDepth ≤ d
  · have hstep : step maxDepth ⟨.token, d⟩ c = none := by simp [step, hquote, hc, hd]
    rw [hstep, after, if_neg (by omega)]
    rfl
  · have hstep : step maxDepth ⟨.token, d⟩ c = some ⟨.token, d + 1⟩ := by simp [step, hquote, hc, hd]
    rw [hstep, Option.bind_some, hs (by omega)]
    unfold after
    split_ifs <;> first | rfl | omega

mutual
/-- The reader comes to the end of a value when its containers may be opened. -/
theorem run_render : (v : Json NumberText) → {d : Nat} → d ≤ maxDepth →
    run maxDepth ⟨.token, d⟩ v.render = after maxDepth d v.nesting
  | .null, d, h => (after_zero h).symm
  | .bool true, d, h => (after_zero h).symm
  | .bool false, d, h => (after_zero h).symm
  | .num n, d, h => by rw [render, run_number n.chars, nesting, after_zero h]
  | .str s, d, h => by
      rw [render, ← List.append_nil (escape s.toList), run_string, nesting, after_zero h]
      rfl
  | .arr [], d, h => run_open (n := 0) (.inr rfl) (fun hd => by rw [after_zero hd]; rfl)
  | .arr (x :: xs), d, h =>
      run_open (.inr rfl) (fun hd => run_value_append (run_render x hd) (run_renderItems xs hd))
  | .obj [], d, h => run_open (n := 0) (.inl rfl) (fun hd => by rw [after_zero hd]; rfl)
  | .obj ((k, x) :: ms), d, h => by
      refine run_open (.inl rfl) (fun hd => ?_)
      rw [run_string, run_cons, step_colon]
      exact run_value_append (run_render x hd) (run_renderMembers ms hd)

theorem run_renderItems : (xs : List (Json NumberText)) → {d : Nat} → d + 1 ≤ maxDepth →
    run maxDepth ⟨.token, d + 1⟩ (renderItems xs) =
      (after maxDepth (d + 1) (nestingItems xs)).map (fun _ => ⟨.token, d⟩)
  | [], d, h => by rw [nestingItems, after_zero h]; rfl
  | x :: xs, d, h => by
      rw [renderItems, run_cons, step_comma]
      exact run_value_append (run_render x h) (run_renderItems xs h)

theorem run_renderMembers : (ms : List (String × Json NumberText)) → {d : Nat} → d + 1 ≤ maxDepth →
    run maxDepth ⟨.token, d + 1⟩ (renderMembers ms) =
      (after maxDepth (d + 1) (nestingMembers ms)).map (fun _ => ⟨.token, d⟩)
  | [], d, h => by rw [nestingMembers, after_zero h]; rfl
  | (k, x) :: ms, d, h => by
      rw [renderMembers, run_cons, step_comma, Option.bind_some, run_string, run_cons, step_colon]
      exact run_value_append (run_render x h) (run_renderMembers ms h)
end

/-- A reader takes the text of a value just when no container stands as deep as it allows. -/
theorem run_render_isSome_iff (v : Json NumberText) :
    (run maxDepth ⟨.token, 0⟩ v.render).isSome ↔ ¬ ∃ w ∈ level maxDepth v, w.IsContainer := by
  rw [run_render v (Nat.zero_le _), ← nesting_le_iff, after, Nat.zero_add]
  split_ifs with h <;> simp [h]

end Reader

end CadHarness.Lib.Json
