import CadHarness.Lib.Utf16

/-!
# Length-prefixed strings

A string is written as its length in decimal, a colon, the string and a semicolon. A list of strings can be
read back from the concatenation, whatever the strings hold.
-/

namespace CadHarness.Lib.Text

def colon : UInt16 := 58

def semicolon : UInt16 := 59

/-- A number in decimal. -/
def ofNat (n : Nat) : Text := encode (Nat.toDigits 10 n)

def frame (t : Text) : Text := ofNat t.length ++ colon :: (t ++ [semicolon])

def frames (ts : List Text) : Text := (ts.map frame).flatten

@[simp] theorem frames_nil : frames [] = [] := rfl

@[simp] theorem frames_cons (t : Text) (ts : List Text) : frames (t :: ts) = frame t ++ frames ts := rfl

@[simp] theorem frames_append (ts ts' : List Text) : frames (ts ++ ts') = frames ts ++ frames ts' := by
  simp [frames]

theorem ofNat_injective : Function.Injective ofNat := by
  intro m n h
  have hdigits : Nat.toDigits 10 m = Nat.toDigits 10 n := by
    rw [← decode_encode (Nat.toDigits 10 m), ← decode_encode (Nat.toDigits 10 n)]
    exact congrArg decode h
  rw [← Nat.ofDigitChars_toDigits (b := 10) (n := m) (by decide) (by decide), hdigits,
    Nat.ofDigitChars_toDigits (by decide) (by decide)]

theorem colon_notMem_ofNat (n : Nat) : colon ∉ ofNat n := by
  intro h
  obtain ⟨c, hc, hmem⟩ := List.mem_flatMap.mp h
  have hdigit : c.isDigit := Nat.isDigit_of_mem_toDigits (by decide) (by decide) hc
  simp only [Char.isDigit, Bool.and_eq_true, decide_eq_true_eq] at hdigit
  have hlow : 48 ≤ c.toNat := UInt32.le_iff_toNat_le.mp hdigit.1
  have hhigh : c.toNat ≤ 57 := UInt32.le_iff_toNat_le.mp hdigit.2
  rw [encodeChar, utf16Char, if_pos (by omega), List.map_singleton, List.mem_singleton] at hmem
  have hval := congrArg UInt16.toNat hmem
  rw [UInt16.toNat_ofNat_of_lt' (by show _ < 65536; omega)] at hval
  have : colon.toNat = 58 := rfl
  omega

/-- What stands before the first occurrence of a unit is determined. -/
theorem append_cons_inj {u : UInt16} {s s' r r' : Text} (hs : u ∉ s) (hs' : u ∉ s')
    (h : s ++ u :: r = s' ++ u :: r') : s = s' ∧ r = r' := by
  induction s generalizing s' with
  | nil =>
      cases s' with
      | nil => exact ⟨rfl, (List.cons.inj h).2⟩
      | cons v s' => exact absurd ((List.cons.inj h).1 ▸ List.mem_cons_self) hs'
  | cons v s ih =>
      cases s' with
      | nil => exact absurd ((List.cons.inj h).1 ▸ List.mem_cons_self) hs
      | cons v' s' =>
          obtain ⟨rfl, htail⟩ := List.cons.inj h
          obtain ⟨rfl, rfl⟩ := ih (fun hu => hs (List.mem_cons_of_mem _ hu))
            (fun hu => hs' (List.mem_cons_of_mem _ hu)) htail
          exact ⟨rfl, rfl⟩

/-- One string can be read off. -/
theorem frame_append_inj {t t' r r' : Text} (h : frame t ++ r = frame t' ++ r') : t = t' ∧ r = r' := by
  simp only [frame, List.append_assoc, List.cons_append, List.nil_append] at h
  obtain ⟨hlength, hrest⟩ := append_cons_inj (colon_notMem_ofNat _) (colon_notMem_ofNat _) h
  obtain ⟨ht, hr⟩ := List.append_inj hrest (ofNat_injective hlength)
  exact ⟨ht, (List.cons.inj hr).2⟩

/-- A list of known length can be read off. -/
theorem frames_append_inj {ts ts' : List Text} {r r' : Text} (hlength : ts.length = ts'.length)
    (h : frames ts ++ r = frames ts' ++ r') : ts = ts' ∧ r = r' := by
  induction ts generalizing ts' with
  | nil =>
      obtain rfl := List.length_eq_zero_iff.mp hlength.symm
      exact ⟨rfl, h⟩
  | cons t ts ih =>
      cases ts' with
      | nil => cases hlength
      | cons t' ts' =>
          simp only [frames_cons, List.append_assoc] at h
          obtain ⟨rfl, hrest⟩ := frame_append_inj h
          obtain ⟨rfl, rfl⟩ := ih (Nat.succ.inj hlength) hrest
          exact ⟨rfl, rfl⟩

/-- What is written for each element of a list can be read off, when it can for one element. -/
theorem flatten_map_append_inj {α : Type} {f : α → Text} {R : α → α → Prop} {l l' : List α} {r r' : Text}
    (hread : ∀ a ∈ l, ∀ a' ∈ l', ∀ s s', f a ++ s = f a' ++ s' → R a a' ∧ s = s')
    (hlength : l.length = l'.length) (h : (l.map f).flatten ++ r = (l'.map f).flatten ++ r') :
    List.Forall₂ R l l' ∧ r = r' := by
  induction l generalizing l' with
  | nil =>
      obtain rfl := List.length_eq_zero_iff.mp hlength.symm
      exact ⟨.nil, h⟩
  | cons a l ih =>
      cases l' with
      | nil => cases hlength
      | cons a' l' =>
          simp only [List.map_cons, List.flatten_cons, List.append_assoc] at h
          obtain ⟨ha, hrest⟩ := hread a List.mem_cons_self a' List.mem_cons_self _ _ h
          obtain ⟨hl, hr⟩ := ih (fun b hb b' hb' => hread b (List.mem_cons_of_mem _ hb) b' (List.mem_cons_of_mem _ hb'))
            (Nat.succ.inj hlength) hrest
          exact ⟨.cons ha hl, hr⟩

theorem frame_ne_nil (t : Text) : frame t ≠ [] := by simp [frame]

/-- All strings can be read back. -/
theorem frames_injective : Function.Injective frames := by
  intro ts ts' h
  induction ts generalizing ts' with
  | nil =>
      cases ts' with
      | nil => rfl
      | cons t' ts' => exact absurd (List.append_eq_nil_iff.mp h.symm).1 (frame_ne_nil t')
  | cons t ts ih =>
      cases ts' with
      | nil => exact absurd (List.append_eq_nil_iff.mp h).1 (frame_ne_nil t)
      | cons t' ts' =>
          obtain ⟨rfl, hrest⟩ := frame_append_inj h
          rw [ih hrest]

theorem WellFormed.frame {t : Text} (h : WellFormed t) : WellFormed (frame t) := by
  have hcolon : WellFormed [colon] := by decide
  have hsemicolon : WellFormed [semicolon] := by decide
  exact (wellFormed_encode _).append (hcolon.append (h.append hsemicolon))

theorem WellFormed.frames {ts : List Text} (h : ∀ t ∈ ts, WellFormed t) : WellFormed (frames ts) := by
  apply WellFormed.flatten
  intro t ht
  obtain ⟨t', ht', rfl⟩ := List.mem_map.mp ht
  exact (h t' ht').frame

end CadHarness.Lib.Text
