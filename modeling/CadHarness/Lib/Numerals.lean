import Mathlib.Data.Nat.Init

/-!
# Numerals

Instances for the numerals of the models, so that one proof serves every definition that writes one.
-/

namespace CadHarness.Lib

instance atLeastTwo_two : Nat.AtLeastTwo 2 := ⟨Nat.le_refl 2⟩

instance atLeastTwo_three : Nat.AtLeastTwo 3 := ⟨by decide⟩

instance atLeastTwo_four : Nat.AtLeastTwo 4 := ⟨by decide⟩

instance atLeastTwo_five : Nat.AtLeastTwo 5 := ⟨by decide⟩

instance atLeastTwo_six : Nat.AtLeastTwo 6 := ⟨by decide⟩

instance atLeastTwo_seven : Nat.AtLeastTwo 7 := ⟨by decide⟩

instance atLeastTwo_eight : Nat.AtLeastTwo 8 := ⟨by decide⟩

instance atLeastTwo_nine : Nat.AtLeastTwo 9 := ⟨by decide⟩

instance atLeastTwo_ten : Nat.AtLeastTwo 10 := ⟨by decide⟩

instance atLeastTwo_eleven : Nat.AtLeastTwo 11 := ⟨by decide⟩

instance atLeastTwo_fifteen : Nat.AtLeastTwo 15 := ⟨by decide⟩

instance atLeastTwo_eighteen : Nat.AtLeastTwo 18 := ⟨by decide⟩

instance atLeastTwo_twenty : Nat.AtLeastTwo 20 := ⟨by decide⟩

instance atLeastTwo_twentyOne : Nat.AtLeastTwo 21 := ⟨by decide⟩

instance atLeastTwo_forty : Nat.AtLeastTwo 40 := ⟨by decide⟩

instance atLeastTwo_rightAngle : Nat.AtLeastTwo 90 := ⟨by decide⟩

instance atLeastTwo_hundred : Nat.AtLeastTwo 100 := ⟨by decide⟩

instance atLeastTwo_halfTurn : Nat.AtLeastTwo 180 := ⟨by decide⟩

instance atLeastTwo_fullTurn : Nat.AtLeastTwo 360 := ⟨by decide⟩

instance atLeastTwo_tenThousand : Nat.AtLeastTwo 10000 := ⟨by decide⟩

instance atLeastTwo_million : Nat.AtLeastTwo 1000000 := ⟨by decide⟩

end CadHarness.Lib
