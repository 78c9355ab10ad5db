import CadHarness.Lib.KeyOrder

/-!
# Strings of UTF-16 units

A .NET string is a list of UTF-16 units that need not form characters. An encoder to bytes writes U+FFFD for
a surrogate that has no partner.
-/

namespace CadHarness.Lib

/-- A .NET string. -/
abbrev Text := List UInt16

namespace Text

instance lawfulBEq : LawfulBEq Text := List.instLawfulBEq

def isHighSurrogate (u : UInt16) : Bool := 0xD800 ≤ u.toNat && u.toNat < 0xDC00

def isLowSurrogate (u : UInt16) : Bool := 0xDC00 ≤ u.toNat && u.toNat < 0xE000

/-- The character of a unit. A surrogate alone is none and is read as U+FFFD. -/
def scalar (u : UInt16) : Char :=
  if isHighSurrogate u || isLowSurrogate u then Char.ofNat 0xFFFD else Char.ofNat u.toNat

/-- The character of a surrogate pair. -/
def pair (u v : UInt16) : Char :=
  Char.ofNat (0x10000 + (u.toNat - 0xD800) * 0x400 + (v.toNat - 0xDC00))

/-- The characters of a string, as an encoder with the replacement fallback reads them. -/
def decode : Text → List Char
  | [] => []
  | [u] => [scalar u]
  | u :: v :: us =>
      if isHighSurrogate u && isLowSurrogate v then pair u v :: decode us else scalar u :: decode (v :: us)

def encodeChar (c : Char) : Text := (utf16Char c).map UInt16.ofNat

def encode (cs : List Char) : Text := cs.flatMap encodeChar

/-- A string literal. -/
def ofString (s : String) : Text := encode s.toList

/-- The bytes of a string in UTF-8. -/
def utf8 (t : Text) : List UInt8 := (String.ofList (decode t)).toUTF8.data.toList

/-- Decoding takes one character off an encoded string. -/
theorem decode_encodeChar_append (c : Char) (t : Text) : decode (encodeChar c ++ t) = c :: decode t := by
  have hc := CadHarness.Lib.scalar c
  unfold encodeChar utf16Char
  split_ifs with hlt
  · have hu : (UInt16.ofNat c.toNat).toNat = c.toNat := UInt16.toNat_ofNat_of_lt' hlt
    have hhigh : isHighSurrogate (UInt16.ofNat c.toNat) = false := by
      simp only [isHighSurrogate, hu, Bool.and_eq_false_iff, decide_eq_false_iff_not]; omega
    have hlow : isLowSurrogate (UInt16.ofNat c.toNat) = false := by
      simp only [isLowSurrogate, hu, Bool.and_eq_false_iff, decide_eq_false_iff_not]; omega
    have hscalar : scalar (UInt16.ofNat c.toNat) = c := by
      simp only [scalar, hhigh, hlow, hu, Char.ofNat_toNat, Bool.or_self, Bool.false_eq_true, if_false]
    cases t with
    | nil => simp [decode, hscalar]
    | cons v vs => simp [decode, hhigh, hscalar]
  · have hu : (UInt16.ofNat (0xD800 + (c.toNat - 0x10000) / 0x400)).toNat
        = 0xD800 + (c.toNat - 0x10000) / 0x400 := UInt16.toNat_ofNat_of_lt' (by show _ < 65536; omega)
    have hv : (UInt16.ofNat (0xDC00 + (c.toNat - 0x10000) % 0x400)).toNat
        = 0xDC00 + (c.toNat - 0x10000) % 0x400 := UInt16.toNat_ofNat_of_lt' (by show _ < 65536; omega)
    have hpair : pair (UInt16.ofNat (0xD800 + (c.toNat - 0x10000) / 0x400))
        (UInt16.ofNat (0xDC00 + (c.toNat - 0x10000) % 0x400)) = c := by
      have hsum : 0x10000 + (0xD800 + (c.toNat - 0x10000) / 0x400 - 0xD800) * 0x400
          + (0xDC00 + (c.toNat - 0x10000) % 0x400 - 0xDC00) = c.toNat := by omega
      rw [pair, hu, hv, hsum, Char.ofNat_toNat]
    have hhigh : isHighSurrogate (UInt16.ofNat (0xD800 + (c.toNat - 0x10000) / 0x400)) = true := by
      simp only [isHighSurrogate, hu, Bool.and_eq_true, decide_eq_true_eq]; omega
    have hlow : isLowSurrogate (UInt16.ofNat (0xDC00 + (c.toNat - 0x10000) % 0x400)) = true := by
      simp only [isLowSurrogate, hv, Bool.and_eq_true, decide_eq_true_eq]; omega
    simp only [List.map_cons, List.map_nil, List.cons_append, List.nil_append, decode, hhigh, hlow,
      Bool.and_self, if_true, hpair]

@[simp] theorem encode_append (cs ds : List Char) : encode (cs ++ ds) = encode cs ++ encode ds :=
  List.flatMap_append

@[simp] theorem decode_encode (cs : List Char) : decode (encode cs) = cs := by
  induction cs with
  | nil => rfl
  | cons c cs ih => rw [encode, List.flatMap_cons, decode_encodeChar_append, ← encode, ih]

/-! ## Strings of whole characters -/

/-- Every surrogate has its partner. -/
def WellFormed (t : Text) : Prop := encode (decode t) = t

instance (t : Text) : Decidable (WellFormed t) := inferInstanceAs (Decidable (_ = _))

@[simp] theorem wellFormed_encode (cs : List Char) : WellFormed (encode cs) := by
  rw [WellFormed, decode_encode]

@[simp] theorem wellFormed_ofString (s : String) : WellFormed (ofString s) := wellFormed_encode _

theorem WellFormed.append {t t' : Text} (h : WellFormed t) (h' : WellFormed t') : WellFormed (t ++ t') := by
  rw [← h, ← h', ← encode_append]
  exact wellFormed_encode _

theorem WellFormed.flatten {ts : List Text} (h : ∀ t ∈ ts, WellFormed t) : WellFormed ts.flatten := by
  induction ts with
  | nil => rfl
  | cons t ts ih =>
      rw [List.flatten_cons]
      exact (h t List.mem_cons_self).append (ih (fun t' ht' => h t' (List.mem_cons_of_mem _ ht')))

theorem toNat_ofNat {n : Nat} (h : n.isValidChar) : (Char.ofNat n).toNat = n := by
  rw [Char.ofNat, dif_pos h]
  rfl

/-- Below the surrogates every unit is a character. -/
theorem wellFormed_of_lt {t : Text} (h : ∀ u ∈ t, u.toNat < 0xD800) : WellFormed t := by
  have hencode : encode (t.map (fun u => Char.ofNat u.toNat)) = t := by
    induction t with
    | nil => rfl
    | cons u t ih =>
        have hu := h u List.mem_cons_self
        have hvalid : (Char.ofNat u.toNat).toNat = u.toNat := toNat_ofNat (.inl hu)
        rw [List.map_cons, encode, List.flatMap_cons, ← encode, ih (fun v hv => h v (List.mem_cons_of_mem _ hv)),
          encodeChar, utf16Char, hvalid, if_pos (by omega), List.map_singleton, UInt16.ofNat_toNat]
        rfl
  rw [← hencode]
  exact wellFormed_encode _

/-- Well-formed strings with the same bytes are the same. -/
theorem WellFormed.eq_of_utf8 {t t' : Text} (h : WellFormed t) (h' : WellFormed t') (he : utf8 t = utf8 t') :
    t = t' := by
  have hbytes : (String.ofList (decode t)).toUTF8 = (String.ofList (decode t')).toUTF8 :=
    ByteArray.ext (Array.toList_inj.mp he)
  have hdecode : decode t = decode t' := String.ofList_injective (String.toByteArray_inj.mp hbytes)
  rw [← h, ← h', hdecode]

end Text
end CadHarness.Lib
