import Mathlib.Algebra.Order.Ring.Nat
import Mathlib.Data.List.Basic
import Mathlib.Tactic.SplitIfs

/-!
# Instants of the calendar

A date and a time of day in UTC, to the microsecond: its order, the instant one microsecond later, and its
text in ISO 8601.
-/

namespace CadHarness.Lib

/-! ## Digits of a fixed width -/

def decimalDigit (n : Nat) : Char := Char.ofNat (48 + n)

theorem decimalDigit_injOn : ∀ m < 10, ∀ n < 10, decimalDigit m = decimalDigit n → m = n := by decide

/-- The last `width` decimal digits of a number. -/
def decimalDigits : Nat → Nat → List Char
  | 0, _ => []
  | width + 1, n => decimalDigits width (n / 10) ++ [decimalDigit (n % 10)]

@[simp] theorem length_decimalDigits (width n : Nat) : (decimalDigits width n).length = width := by
  induction width generalizing n with
  | zero => rfl
  | succ width ih => simp [decimalDigits, ih]

theorem decimalDigits_inj {width m n : Nat} (hm : m < 10 ^ width) (hn : n < 10 ^ width)
    (h : decimalDigits width m = decimalDigits width n) : m = n := by
  induction width generalizing m n with
  | zero =>
      rw [Nat.pow_zero] at hm hn
      omega
  | succ width ih =>
      rw [Nat.pow_succ] at hm hn
      obtain ⟨hfront, hlast⟩ := List.append_inj' h rfl
      have hdiv : m / 10 = n / 10 := ih (by omega) (by omega) hfront
      have hmod : m % 10 = n % 10 := decimalDigit_injOn _ (by omega) _ (by omega) (List.cons.inj hlast).1
      omega

/-- Digits of one width are read back, with what follows a character after them. -/
theorem decimalDigits_append_inj {width m n : Nat} {c : Char} {s t : List Char} (hm : m < 10 ^ width)
    (hn : n < 10 ^ width) (h : decimalDigits width m ++ c :: s = decimalDigits width n ++ c :: t) :
    m = n ∧ s = t := by
  obtain ⟨hdigits, hrest⟩ := List.append_inj h (by simp)
  exact ⟨decimalDigits_inj hm hn hdigits, (List.cons.inj hrest).2⟩

/-! ## Instants -/

def isLeap (year : Nat) : Bool := year % 4 = 0 && (year % 100 ≠ 0 || year % 400 = 0)

def daysInMonth (year month : Nat) : Nat :=
  if month = 2 then (if isLeap year then 29 else 28)
  else if month = 4 ∨ month = 6 ∨ month = 9 ∨ month = 11 then 30
  else 31

theorem daysInMonth_le (year month : Nat) : daysInMonth year month ≤ 31 := by
  unfold daysInMonth
  split_ifs <;> omega

@[ext] structure DateTimeFields where
  year : Nat
  month : Nat
  day : Nat
  hour : Nat
  minute : Nat
  second : Nat
  microsecond : Nat
  deriving DecidableEq

namespace DateTimeFields

structure Valid (f : DateTimeFields) : Prop where
  year_pos : 1 ≤ f.year
  year_le : f.year ≤ 9999
  month_pos : 1 ≤ f.month
  month_le : f.month ≤ 12
  day_pos : 1 ≤ f.day
  day_le : f.day ≤ daysInMonth f.year f.month
  hour_lt : f.hour < 24
  minute_lt : f.minute < 60
  second_lt : f.second < 60
  microsecond_lt : f.microsecond < 1000000

theorem valid_iff (f : DateTimeFields) :
    f.Valid ↔ (1 ≤ f.year ∧ f.year ≤ 9999) ∧ (1 ≤ f.month ∧ f.month ≤ 12) ∧
      (1 ≤ f.day ∧ f.day ≤ daysInMonth f.year f.month) ∧ f.hour < 24 ∧ f.minute < 60 ∧ f.second < 60 ∧
      f.microsecond < 1000000 := by
  constructor
  · intro h
    exact ⟨⟨h.year_pos, h.year_le⟩, ⟨h.month_pos, h.month_le⟩, ⟨h.day_pos, h.day_le⟩, h.hour_lt, h.minute_lt,
      h.second_lt, h.microsecond_lt⟩
  · rintro ⟨⟨h₁, h₂⟩, ⟨h₃, h₄⟩, ⟨h₅, h₆⟩, h₇, h₈, h₉, h₁₀⟩
    exact ⟨h₁, h₂, h₃, h₄, h₅, h₆, h₇, h₈, h₉, h₁₀⟩

instance (f : DateTimeFields) : Decidable f.Valid := decidable_of_iff' _ f.valid_iff

/-- The fields as one number, two bytes for the year, three for the microseconds, one for every other. -/
def packed (f : DateTimeFields) : Nat :=
  (((((f.year * 256 + f.month) * 256 + f.day) * 256 + f.hour) * 256 + f.minute) * 256 + f.second) * 16777216 +
    f.microsecond

theorem Valid.day_lt {f : DateTimeFields} (h : f.Valid) : f.day < 32 := by
  have hday := h.day_le
  have hmonth := daysInMonth_le f.year f.month
  omega

theorem packed_inj {f g : DateTimeFields} (hf : f.Valid) (hg : g.Valid) (h : f.packed = g.packed) : f = g := by
  obtain ⟨-, -, -, hf₁, -, -, hf₂, hf₃, hf₄, hf₅⟩ := id hf
  obtain ⟨-, -, -, hg₁, -, -, hg₂, hg₃, hg₄, hg₅⟩ := id hg
  have hfd := hf.day_lt
  have hgd := hg.day_lt
  unfold packed at h
  ext <;> omega

/-- One microsecond later. -/
def next (f : DateTimeFields) : DateTimeFields :=
  if f.microsecond + 1 < 1000000 then { f with microsecond := f.microsecond + 1 }
  else if f.second + 1 < 60 then { f with second := f.second + 1, microsecond := 0 }
  else if f.minute + 1 < 60 then { f with minute := f.minute + 1, second := 0, microsecond := 0 }
  else if f.hour + 1 < 24 then { f with hour := f.hour + 1, minute := 0, second := 0, microsecond := 0 }
  else if f.day + 1 ≤ daysInMonth f.year f.month then
    { f with day := f.day + 1, hour := 0, minute := 0, second := 0, microsecond := 0 }
  else if f.month + 1 ≤ 12 then
    { f with month := f.month + 1, day := 1, hour := 0, minute := 0, second := 0, microsecond := 0 }
  else { year := f.year + 1, month := 1, day := 1, hour := 0, minute := 0, second := 0, microsecond := 0 }

theorem packed_lt_next {f : DateTimeFields} (h : f.Valid) : f.packed < f.next.packed := by
  obtain ⟨-, -, -, h₁, -, -, h₂, h₃, h₄, h₅⟩ := id h
  have hday := h.day_lt
  unfold next packed
  split_ifs <;> simp only <;> omega

/-- `YYYY-MM-DDTHH:MM:SS`, before the fraction of a second. -/
def stamp (f : DateTimeFields) : List Char :=
  decimalDigits 4 f.year ++ '-' :: (decimalDigits 2 f.month ++ '-' :: (decimalDigits 2 f.day ++ 'T' ::
    (decimalDigits 2 f.hour ++ ':' :: (decimalDigits 2 f.minute ++ ':' :: decimalDigits 2 f.second))))

/-- The microseconds, unless there are none. -/
def fraction (f : DateTimeFields) : List Char :=
  if f.microsecond = 0 then [] else '.' :: decimalDigits 6 f.microsecond

@[simp] theorem length_stamp (f : DateTimeFields) : f.stamp.length = 19 := by simp [stamp]

theorem stamp_inj {f g : DateTimeFields} (hf : f.Valid) (hg : g.Valid) (h : f.stamp = g.stamp) :
    f.year = g.year ∧ f.month = g.month ∧ f.day = g.day ∧ f.hour = g.hour ∧ f.minute = g.minute ∧
      f.second = g.second := by
  obtain ⟨-, hf₀, -, hf₁, -, -, hf₂, hf₃, hf₄, -⟩ := id hf
  obtain ⟨-, hg₀, -, hg₁, -, -, hg₂, hg₃, hg₄, -⟩ := id hg
  have hfd := hf.day_lt
  have hgd := hg.day_lt
  obtain ⟨hyear, h⟩ := decimalDigits_append_inj (by omega) (by omega) h
  obtain ⟨hmonth, h⟩ := decimalDigits_append_inj (by omega) (by omega) h
  obtain ⟨hday, h⟩ := decimalDigits_append_inj (by omega) (by omega) h
  obtain ⟨hhour, h⟩ := decimalDigits_append_inj (by omega) (by omega) h
  obtain ⟨hminute, h⟩ := decimalDigits_append_inj (by omega) (by omega) h
  exact ⟨hyear, hmonth, hday, hhour, hminute, decimalDigits_inj (by omega) (by omega) h⟩

theorem fraction_inj {f g : DateTimeFields} (hf : f.Valid) (hg : g.Valid) (h : f.fraction = g.fraction) :
    f.microsecond = g.microsecond := by
  have hf' := hf.microsecond_lt
  have hg' := hg.microsecond_lt
  unfold fraction at h
  split_ifs at h with hf₀ hg₀ hg₀
  · rw [hf₀, hg₀]
  · exact decimalDigits_inj (by omega) (by omega) (List.cons.inj h).2

end DateTimeFields

/-- An instant, from the first of the year 1 to the last of the year 9999. -/
structure DateTime where
  fields : DateTimeFields
  valid : fields.Valid

namespace DateTime

def packed (t : DateTime) : Nat := t.fields.packed

theorem packed_injective : Function.Injective packed := by
  intro t u h
  obtain ⟨f, hf⟩ := t
  obtain ⟨g, hg⟩ := u
  obtain rfl := DateTimeFields.packed_inj hf hg h
  rfl

instance : LE DateTime := ⟨fun t u => t.packed ≤ u.packed⟩

instance : LT DateTime := ⟨fun t u => t.packed < u.packed⟩

theorem le_iff_packed {t u : DateTime} : t ≤ u ↔ t.packed ≤ u.packed := Iff.rfl

theorem lt_iff_packed {t u : DateTime} : t < u ↔ t.packed < u.packed := Iff.rfl

instance : LinearOrder DateTime where
  le_refl t := Nat.le_refl t.packed
  le_trans _ _ _ := Nat.le_trans
  lt_iff_le_not_ge _ _ := Nat.lt_iff_le_and_not_ge
  le_antisymm _ _ h h' := packed_injective (Nat.le_antisymm h h')
  le_total t u := Nat.le_total t.packed u.packed
  toDecidableLE t u := inferInstanceAs (Decidable (t.packed ≤ u.packed))

/-- One microsecond later, unless the instant is the last. -/
def next (t : DateTime) : Option DateTime :=
  if h : t.fields.next.Valid then some ⟨t.fields.next, h⟩ else none

theorem lt_next {t u : DateTime} (h : t.next = some u) : t < u := by
  unfold next at h
  split_ifs at h
  obtain rfl := Option.some.inj h
  exact lt_iff_packed.mpr (DateTimeFields.packed_lt_next t.valid)

/-- The text of the instant, in UTC. -/
def isoformat (t : DateTime) : String :=
  String.ofList (t.fields.stamp ++ (t.fields.fraction ++ ['+', '0', '0', ':', '0', '0']))

theorem isoformat_injective : Function.Injective isoformat := by
  intro t u h
  obtain ⟨f, hf⟩ := t
  obtain ⟨g, hg⟩ := u
  obtain ⟨hstamp, hrest⟩ := List.append_inj (String.ofList_injective h) (by simp)
  obtain ⟨hyear, hmonth, hday, hhour, hminute, hsecond⟩ := DateTimeFields.stamp_inj hf hg hstamp
  have hmicro := DateTimeFields.fraction_inj hf hg (List.append_cancel_right hrest)
  obtain rfl : f = g := DateTimeFields.ext hyear hmonth hday hhour hminute hsecond hmicro
  rfl

end DateTime

end CadHarness.Lib
