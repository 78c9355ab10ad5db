import CadHarness.Lib.JsonReader

/-!
# JSON text in ASCII

The text of a value with every character beyond ASCII as escapes of its UTF-16 units. Reading the escapes first gives
back the text, so that the value is read from it.
-/

namespace CadHarness.Lib

/-! ## Escapes -/

/-- `\\uXXXX` -/
def escapeUnit (n : Nat) : List Char :=
  ['\\', 'u', Nat.digitChar (n / 0x1000), Nat.digitChar (n / 0x100 % 16), Nat.digitChar (n / 0x10 % 16), Nat.digitChar (n % 16)]

def asciiChar (c : Char) : List Char := if c.toNat < 0x7F then [c] else (utf16Char c).flatMap escapeUnit

def encodeAscii (text : List Char) : List Char := text.flatMap asciiChar

/-- The value of a hexadecimal digit, in either case. -/
def hexDigitValue (c : Char) : Nat :=
  if c.isDigit then c.toNat - 48 else if c.toNat < 97 then c.toNat - 55 else c.toNat - 87

/-- The value of four hexadecimal digits. -/
def hexUnit (a b c d : Char) : Nat :=
  0x1000 * hexDigitValue a + 0x100 * hexDigitValue b + 0x10 * hexDigitValue c + hexDigitValue d

/-- The characters of a text and the units that it escapes, but for those of ASCII. -/
def units : List Char → List (Char ⊕ Nat)
  | '\\' :: 'u' :: a :: b :: c :: d :: rest =>
      if hexUnit a b c d < 0x7F then .inl '\\' :: .inl 'u' :: .inl a :: .inl b :: .inl c :: .inl d :: units rest
      else .inr (hexUnit a b c d) :: units rest
  | '\\' :: c :: rest => .inl '\\' :: .inl c :: units rest
  | c :: rest => .inl c :: units rest
  | [] => []

/-- The text of characters and units, if the units go together. -/
def joinUnits : List (Char ⊕ Nat) → Option (List Char)
  | [] => some []
  | .inl c :: rest => (joinUnits rest).map (c :: ·)
  | .inr high :: rest =>
      if 0xD800 ≤ high ∧ high < 0xDC00 then
        match rest with
        | .inr low :: rest =>
            if 0xDC00 ≤ low ∧ low < 0xE000 then
              (joinUnits rest).map (Char.ofNat (0x10000 + (high - 0xD800) * 0x400 + (low - 0xDC00)) :: ·)
            else none
        | _ => none
      else if 0xDC00 ≤ high ∧ high < 0xE000 then none
      else (joinUnits rest).map (Char.ofNat high :: ·)

def decodeAscii (text : List Char) : Option (List Char) := joinUnits (units text)

theorem hexDigitValue_digitChar {n : Nat} (h : n < 16) : hexDigitValue (Nat.digitChar n) = n := by
  interval_cases n <;> rfl

theorem units_escapeUnit {n : Nat} (hlow : 0x7F ≤ n) (hhigh : n < 0x10000) (rest : List Char) :
    units (escapeUnit n ++ rest) = .inr n :: units rest := by
  have hvalue : hexUnit (Nat.digitChar (n / 0x1000)) (Nat.digitChar (n / 0x100 % 16)) (Nat.digitChar (n / 0x10 % 16))
      (Nat.digitChar (n % 16)) = n := by
    rw [hexUnit, hexDigitValue_digitChar (by omega), hexDigitValue_digitChar (by omega),
      hexDigitValue_digitChar (by omega), hexDigitValue_digitChar (by omega)]
    omega
  simp only [escapeUnit, List.cons_append, List.nil_append, units, hvalue]
  exact if_neg (by omega)

theorem joinUnits_unit {n : Nat} (h : n < 0xD800 ∨ 0xE000 ≤ n) (rest : List (Char ⊕ Nat)) :
    joinUnits (.inr n :: rest) = (joinUnits rest).map (Char.ofNat n :: ·) := by
  conv_lhs => unfold joinUnits
  rw [if_neg (by omega), if_neg (by omega)]

theorem joinUnits_pair {high low : Nat} (hhigh : 0xD800 ≤ high ∧ high < 0xDC00) (hlow : 0xDC00 ≤ low ∧ low < 0xE000)
    (rest : List (Char ⊕ Nat)) :
    joinUnits (.inr high :: .inr low :: rest) =
      (joinUnits rest).map (Char.ofNat (0x10000 + (high - 0xD800) * 0x400 + (low - 0xDC00)) :: ·) := by
  conv_lhs => unfold joinUnits
  rw [if_pos hhigh]
  exact if_pos hlow

/-- A character beyond ASCII is read from its units. -/
theorem joinUnits_asciiChar {c : Char} (h : ¬ c.toNat < 0x7F) (rest : List Char) :
    joinUnits (units (asciiChar c ++ rest)) = (joinUnits (units rest)).map (c :: ·) := by
  have hscalar := scalar c
  rw [asciiChar, if_neg h]
  unfold utf16Char
  split_ifs with hshort
  · rw [List.flatMap_singleton, units_escapeUnit (by omega) hshort, joinUnits_unit (by omega), Char.ofNat_toNat]
  · have hchar : Char.ofNat (0x10000 + (0xD800 + (c.toNat - 0x10000) / 0x400 - 0xD800) * 0x400 +
        (0xDC00 + (c.toNat - 0x10000) % 0x400 - 0xDC00)) = c := by
      have hnat : 0x10000 + (0xD800 + (c.toNat - 0x10000) / 0x400 - 0xD800) * 0x400 +
          (0xDC00 + (c.toNat - 0x10000) % 0x400 - 0xDC00) = c.toNat := by omega
      rw [hnat, Char.ofNat_toNat]
    rw [List.flatMap_cons, List.flatMap_singleton, List.append_assoc, units_escapeUnit (by omega) (by omega),
      units_escapeUnit (by omega) (by omega), joinUnits_pair (by omega) (by omega), hchar]

/-- The text escapes characters of ASCII only. -/
inductive Escaped : List Char → Prop
  | nil : Escaped []
  | plain {c : Char} {rest : List Char} : c ≠ '\\' → Escaped rest → Escaped (c :: rest)
  | escape {c : Char} {rest : List Char} : c ≠ 'u' → c.toNat < 0x7F → Escaped rest → Escaped ('\\' :: c :: rest)
  | unit {n : Nat} {rest : List Char} : n < 0x20 → Escaped rest →
      Escaped ('\\' :: 'u' :: '0' :: '0' :: Nat.digitChar (n / 16) :: Nat.digitChar (n % 16) :: rest)

theorem digitChar_lt {n : Nat} (h : n < 16) : (Nat.digitChar n).toNat < 0x7F := by
  interval_cases n <;> decide

theorem asciiChar_eq {c : Char} (h : c.toNat < 0x7F) : asciiChar c = [c] := if_pos h

theorem units_plain {c : Char} (h : c ≠ '\\') (rest : List Char) : units (c :: rest) = .inl c :: units rest := by
  rw [units]
  · exact fun _ _ _ _ _ heq => absurd heq h
  · exact fun _ _ heq => absurd heq h

theorem units_escape {c : Char} (h : c ≠ 'u') (rest : List Char) :
    units ('\\' :: c :: rest) = .inl '\\' :: .inl c :: units rest := by
  rw [units]
  exact fun _ _ _ _ _ heq => absurd heq h

@[simp] theorem encodeAscii_cons (c : Char) (text : List Char) :
    encodeAscii (c :: text) = asciiChar c ++ encodeAscii text := List.flatMap_cons

/-- The escapes are read back. -/
theorem decodeAscii_encodeAscii {text : List Char} (h : Escaped text) :
    decodeAscii (encodeAscii text) = some text := by
  rw [decodeAscii]
  induction h with
  | nil => rfl
  | @plain c rest hc _ ih =>
      rw [encodeAscii_cons]
      by_cases hascii : c.toNat < 0x7F
      · rw [asciiChar_eq hascii, List.singleton_append, units_plain hc, joinUnits, ih, Option.map_some]
      · rw [joinUnits_asciiChar hascii, ih, Option.map_some]
  | @escape c rest hc hascii _ ih =>
      rw [encodeAscii_cons, encodeAscii_cons, asciiChar_eq (by decide), asciiChar_eq hascii,
        List.singleton_append, List.singleton_append, units_escape hc, joinUnits, joinUnits, ih]
      rfl
  | @unit n rest hn _ ih =>
      have hvalue : hexUnit '0' '0' (Nat.digitChar (n / 16)) (Nat.digitChar (n % 16)) < 0x7F := by
        rw [hexUnit, hexDigitValue_digitChar (by omega), hexDigitValue_digitChar (by omega)]
        have hzero : hexDigitValue '0' = 0 := rfl
        omega
      simp only [encodeAscii_cons, asciiChar_eq (show '\\'.toNat < 0x7F by decide),
        asciiChar_eq (show 'u'.toNat < 0x7F by decide), asciiChar_eq (show '0'.toNat < 0x7F by decide),
        asciiChar_eq (digitChar_lt (show n / 16 < 16 by omega)), asciiChar_eq (digitChar_lt (show n % 16 < 16 by omega)),
        List.singleton_append, units, if_pos hvalue, joinUnits, ih, Option.map_some]

/-! ## Values -/

theorem Escaped.append {s t : List Char} (hs : Escaped s) (ht : Escaped t) : Escaped (s ++ t) := by
  induction hs with
  | nil => exact ht
  | plain hc _ ih => exact .plain hc ih
  | escape hc hascii _ ih => exact .escape hc hascii ih
  | unit hn _ ih => exact .unit hn ih

theorem escaped_escapeChar (c : Char) : Escaped (escapeChar c) := by
  unfold escapeChar
  split_ifs with h₁ h₂ h₃ h₄ h₅ h₆ h₇ h₈
  · exact .escape (by decide) (by decide) .nil
  · exact .escape (by decide) (by decide) .nil
  · exact .escape (by decide) (by decide) .nil
  · exact .escape (by decide) (by decide) .nil
  · exact .escape (by decide) (by decide) .nil
  · exact .escape (by decide) (by decide) .nil
  · exact .escape (by decide) (by decide) .nil
  · exact .unit h₈ .nil
  · exact .plain h₂ .nil

theorem escaped_escape (cs : List Char) : Escaped (escape cs) := by
  induction cs with
  | nil => exact .plain (by decide) .nil
  | cons c cs ih => exact (escaped_escapeChar c).append ih

theorem escaped_of_plain {text : List Char} (h : text.all (· != '\\') = true) : Escaped text := by
  induction text with
  | nil => exact .nil
  | cons c text ih =>
      rw [List.all_cons, Bool.and_eq_true, bne_iff_ne] at h
      exact .plain h.1 (ih h.2)

theorem NumberText.escaped (n : NumberText) : Escaped n.text := by
  refine escaped_of_plain (List.all_eq_true.2 fun c hc => bne_iff_ne.2 ?_)
  rintro rfl
  exact absurd (n.chars _ hc) (by decide)

namespace Json

mutual
theorem escaped_render : (v : Json NumberText) → Escaped v.render
  | .null | .bool true | .bool false => escaped_of_plain (by decide)
  | .num n => n.escaped
  | .str s => .plain (by decide) (escaped_escape s.toList)
  | .arr [] | .obj [] => escaped_of_plain (by decide)
  | .arr (x :: xs) => .plain (by decide) ((escaped_render x).append (escaped_renderItems xs))
  | .obj ((k, x) :: ms) =>
      .plain (by decide) (.plain (by decide) ((escaped_escape k.toList).append
        (.plain (by decide) ((escaped_render x).append (escaped_renderMembers ms)))))

theorem escaped_renderItems : (xs : List (Json NumberText)) → Escaped (renderItems xs)
  | [] => escaped_of_plain (by decide)
  | x :: xs => .plain (by decide) ((escaped_render x).append (escaped_renderItems xs))

theorem escaped_renderMembers : (ms : List (String × Json NumberText)) → Escaped (renderMembers ms)
  | [] => escaped_of_plain (by decide)
  | (k, x) :: ms =>
      .plain (by decide) (.plain (by decide) ((escaped_escape k.toList).append
        (.plain (by decide) ((escaped_render x).append (escaped_renderMembers ms)))))
end

/-- `json.dumps` in ASCII, without blanks -/
def renderAscii (v : Json NumberText) : List Char := encodeAscii v.render

/-- `json.loads` -/
def readAscii (text : List Char) : Option (Json NumberText) := decodeAscii text >>= read

theorem readAscii_renderAscii (v : Json NumberText) : readAscii v.renderAscii = some v := by
  rw [readAscii, renderAscii, decodeAscii_encodeAscii (escaped_render v)]
  exact read_render v

end Json

/-! ## Lengths -/

/-- The length of what a character of a string is written as. -/
def charWidth (c : Char) : Nat := (encodeAscii (escapeChar c)).length

def stringWidth (s : String) : Nat := 2 + (s.toList.map charWidth).sum

theorem encodeAscii_append (s t : List Char) : encodeAscii (s ++ t) = encodeAscii s ++ encodeAscii t :=
  List.flatMap_append

theorem length_encodeAscii_of_ascii {text : List Char} (h : ∀ c ∈ text, c.toNat < 0x7F) :
    (encodeAscii text).length = text.length := by
  induction text with
  | nil => rfl
  | cons c text ih =>
      rw [encodeAscii_cons, asciiChar_eq (h c List.mem_cons_self), List.singleton_append, List.length_cons,
        ih fun d hd => h d (List.mem_cons_of_mem c hd), List.length_cons]

theorem length_encodeAscii_escape (cs : List Char) :
    (encodeAscii (escape cs)).length = 1 + (cs.map charWidth).sum := by
  induction cs with
  | nil => rfl
  | cons c cs ih =>
      rw [escape, encodeAscii_append, List.length_append, ih, List.map_cons, List.sum_cons, charWidth]
      omega

theorem isNumberChar_ascii {c : Char} (h : isNumberChar c) : c.toNat < 0x7F := by
  simp only [isNumberChar, Bool.or_eq_true, decide_eq_true_eq, Char.isDigit, Bool.and_eq_true] at h
  rcases h with (((h | rfl) | rfl) | rfl) | rfl
  · have : c.toNat ≤ 57 := h.2
    omega
  all_goals decide

theorem NumberText.length_encodeAscii (n : NumberText) : (encodeAscii n.text).length = n.text.length :=
  length_encodeAscii_of_ascii fun c hc => isNumberChar_ascii (n.chars c hc)

namespace Json

variable {ν μ : Type}

mutual
/-- The length of the text of a value, with numbers of these lengths. -/
def width (number : ν → Nat) : Json ν → Nat
  | .null | .bool true => 4
  | .bool false => 5
  | .num n => number n
  | .str s => stringWidth s
  | .arr xs => 2 + (xs.length - 1) + widthItems number xs
  | .obj ms => 2 + (ms.length - 1) + widthMembers number ms

def widthItems (number : ν → Nat) : List (Json ν) → Nat
  | [] => 0
  | x :: xs => width number x + widthItems number xs

def widthMembers (number : ν → Nat) : List (String × Json ν) → Nat
  | [] => 0
  | (k, x) :: ms => stringWidth k + 1 + width number x + widthMembers number ms
end

theorem widthMembers_eq_sum (number : ν → Nat) (ms : List (String × Json ν)) :
    widthMembers number ms = (ms.map fun m => stringWidth m.1 + 1 + width number m.2).sum := by
  induction ms with
  | nil => rfl
  | cons m ms ih => rw [widthMembers, ih, List.map_cons, List.sum_cons]

mutual
theorem length_renderAscii : (v : Json NumberText) → v.renderAscii.length = v.width (fun n => n.text.length)
  | .null => rfl
  | .bool true => rfl
  | .bool false => rfl
  | .num n => n.length_encodeAscii
  | .str s => by
      simp only [renderAscii, render, encodeAscii_cons, List.length_append, length_encodeAscii_escape, width, stringWidth]
      have hquote : (asciiChar '"').length = 1 := rfl
      omega
  | .arr [] => rfl
  | .obj [] => rfl
  | .arr (x :: xs) => by
      have hx := length_renderAscii x
      have hxs := length_renderItems xs
      have hopen : (asciiChar '[').length = 1 := rfl
      simp only [renderAscii] at hx
      simp only [renderAscii, render, encodeAscii_cons, encodeAscii_append, List.length_append, width, widthItems,
        List.length_cons, hx, hxs, hopen]
      omega
  | .obj ((k, x) :: ms) => by
      have hx := length_renderAscii x
      have hms := length_renderMembers ms
      have hopen : (asciiChar '\x7b').length = 1 := rfl
      have hquote : (asciiChar '"').length = 1 := rfl
      have hcolon : (asciiChar ':').length = 1 := rfl
      simp only [renderAscii] at hx
      simp only [renderAscii, render, encodeAscii_cons, encodeAscii_append, List.length_append, width, widthMembers,
        length_encodeAscii_escape, stringWidth, List.length_cons, hx, hms, hopen, hquote, hcolon]
      omega

theorem length_renderItems : (xs : List (Json NumberText)) →
    (encodeAscii (renderItems xs)).length = 1 + xs.length + widthItems (fun n => n.text.length) xs
  | [] => rfl
  | x :: xs => by
      have hx := length_renderAscii x
      have hxs := length_renderItems xs
      have hcomma : (asciiChar ',').length = 1 := rfl
      simp only [renderAscii] at hx
      simp only [renderItems, encodeAscii_cons, encodeAscii_append, List.length_append, widthItems, List.length_cons, hx,
        hxs, hcomma]
      omega

theorem length_renderMembers : (ms : List (String × Json NumberText)) →
    (encodeAscii (renderMembers ms)).length = 1 + ms.length + widthMembers (fun n => n.text.length) ms
  | [] => rfl
  | (k, x) :: ms => by
      have hx := length_renderAscii x
      have hms := length_renderMembers ms
      have hcomma : (asciiChar ',').length = 1 := rfl
      have hquote : (asciiChar '"').length = 1 := rfl
      have hcolon : (asciiChar ':').length = 1 := rfl
      simp only [renderAscii] at hx
      simp only [renderMembers, encodeAscii_cons, encodeAscii_append, List.length_append, widthMembers,
        length_encodeAscii_escape, stringWidth, List.length_cons, hx, hms, hcomma, hquote, hcolon]
      omega
end

mutual
theorem width_traverse {f : ν → Option μ} {number : μ → Nat} : {v : Json ν} → {w : Json μ} → traverse f v = some w →
    w.width number = v.width (fun n => ((f n).map number).getD 0)
  | .null, _, hw => by obtain rfl := Option.some.inj hw; rfl
  | .bool b, _, hw => by obtain rfl := Option.some.inj hw; cases b <;> rfl
  | .str _, _, hw => by obtain rfl := Option.some.inj hw; rfl
  | .num n, _, hw => by
      obtain ⟨m, hm, rfl⟩ := Option.map_eq_some_iff.mp hw
      rw [width, width, hm, Option.map_some, Option.getD_some]
  | .arr _, _, hw => by
      obtain ⟨ys, hys, rfl⟩ := Option.map_eq_some_iff.mp hw
      have hlength := (traverseItems_forall₂ hys).length_eq
      rw [width, width, width_traverseItems hys, hlength]
  | .obj _, _, hw => by
      obtain ⟨ns, hns, rfl⟩ := Option.map_eq_some_iff.mp hw
      have hlength := (traverseMembers_forall₂ hns).length_eq
      rw [List.length_map, List.length_map] at hlength
      rw [width, width, width_traverseMembers hns, hlength]

theorem width_traverseItems {f : ν → Option μ} {number : μ → Nat} : {xs : List (Json ν)} → {ys : List (Json μ)} →
    traverseItems f xs = some ys → widthItems number ys = widthItems (fun n => ((f n).map number).getD 0) xs
  | [], _, hw => by obtain rfl := Option.some.inj hw; rfl
  | _ :: _, _, hw => by
      simp only [traverseItems, Option.bind_eq_bind, Option.bind_eq_some_iff, Option.pure_def,
        Option.some.injEq] at hw
      obtain ⟨y, hy, ys, hys, rfl⟩ := hw
      rw [widthItems, widthItems, width_traverse hy, width_traverseItems hys]

theorem width_traverseMembers {f : ν → Option μ} {number : μ → Nat} : {ms : List (String × Json ν)} →
    {ns : List (String × Json μ)} → traverseMembers f ms = some ns →
    widthMembers number ns = widthMembers (fun n => ((f n).map number).getD 0) ms
  | [], _, hw => by obtain rfl := Option.some.inj hw; rfl
  | (_, _) :: _, _, hw => by
      simp only [traverseMembers, Option.bind_eq_bind, Option.bind_eq_some_iff, Option.pure_def,
        Option.some.injEq] at hw
      obtain ⟨y, hy, ns, hns, rfl⟩ := hw
      rw [widthMembers, widthMembers, width_traverse hy, width_traverseMembers hns]
end

end Json

end CadHarness.Lib
