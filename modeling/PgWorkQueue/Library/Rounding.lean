import Mathlib.Algebra.Order.Floor.Ring

/-!
# Rounding to the nearest integer, ties to even
-/

namespace Library.Rounding

variable {K : Type} [Field K] [LinearOrder K] [FloorRing K]

/-- The nearest integer; halfway between two, the even one. -/
def roundTiesEven (value : K) : Int :=
  if value - ⌊value⌋ < 1 / 2 then ⌊value⌋
  else if 1 / 2 < value - ⌊value⌋ then ⌊value⌋ + 1
  else if ⌊value⌋ % 2 = 0 then ⌊value⌋
  else ⌊value⌋ + 1

theorem floor_le_roundTiesEven (value : K) :
    ⌊value⌋ ≤ roundTiesEven value := by
  unfold roundTiesEven
  split_ifs <;> omega

theorem roundTiesEven_le_floor_add_one (value : K) :
    roundTiesEven value ≤ ⌊value⌋ + 1 := by
  unfold roundTiesEven
  split_ifs <;> omega

variable [IsStrictOrderedRing K]

theorem roundTiesEven_intCast (value : Int) :
    roundTiesEven (value : K) = value := by
  unfold roundTiesEven
  rw [Int.floor_intCast, sub_self, if_pos one_half_pos]

/-- Within one unit the remainder decides, and it grows with the value. -/
theorem roundTiesEven_le_of_floor_eq {low high : K} (ordered : low ≤ high)
    (sameFloor : ⌊low⌋ = ⌊high⌋) :
    roundTiesEven low ≤ roundTiesEven high := by
  have remainder : low - ⌊high⌋ ≤ high - ⌊high⌋ :=
    sub_le_sub_right ordered _
  have upper := roundTiesEven_le_floor_add_one low
  have lower := floor_le_roundTiesEven high
  unfold roundTiesEven at upper lower ⊢
  rw [sameFloor] at upper ⊢
  by_cases lowBelow : low - ⌊high⌋ < 1 / 2
  · rw [if_pos lowBelow]
    exact lower
  · have highNotBelow : ¬ high - ⌊high⌋ < 1 / 2 :=
      fun below => lowBelow (remainder.trans_lt below)
    rw [if_neg lowBelow, if_neg highNotBelow]
    by_cases lowAbove : 1 / 2 < low - ⌊high⌋
    · rw [if_pos lowAbove, if_pos (lowAbove.trans_le remainder)]
    · rw [if_neg lowAbove]
      by_cases highAbove : 1 / 2 < high - ⌊high⌋
      · rw [if_pos highAbove]
        split_ifs <;> omega
      · rw [if_neg highAbove]

theorem roundTiesEven_mono {low high : K} (ordered : low ≤ high) :
    roundTiesEven low ≤ roundTiesEven high := by
  rcases (Int.floor_mono ordered).eq_or_lt with sameFloor | lowerFloor
  · exact roundTiesEven_le_of_floor_eq ordered sameFloor
  · calc roundTiesEven low
        ≤ ⌊low⌋ + 1 := roundTiesEven_le_floor_add_one low
      _ ≤ ⌊high⌋ := lowerFloor
      _ ≤ roundTiesEven high := floor_le_roundTiesEven high

end Library.Rounding
