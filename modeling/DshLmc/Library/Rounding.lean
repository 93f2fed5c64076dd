import Mathlib.Algebra.Order.Floor.Ring
import Mathlib.Data.Int.ConditionallyCompleteOrder
import Mathlib.Data.Rat.Floor
import Mathlib.Tactic.Linarith

/-!
# From a number to an integer

A conversion to an integer drops what is behind the point, and a rounding goes to the nearest integer,
a half away from zero. Both keep the order and leave integers alone, and so the integers between two
bounds get no number from between the bounds out of them.
-/

namespace DshLmc

variable {K : Type*} [Field K] [LinearOrder K]

/-- A conversion that keeps the order and leaves integers alone. -/
structure IsRounding (f : K → ℤ) : Prop where
  monotone : Monotone f
  intCast : ∀ n : ℤ, f n = n

theorem IsRounding.mem_Icc {f : K → ℤ} (hf : IsRounding f) {x : K} {a b : ℤ} (ha : (a : K) ≤ x)
    (hb : x ≤ b) : f x ∈ Set.Icc a b := by
  have hlower := hf.monotone ha
  have hupper := hf.monotone hb
  rw [hf.intCast] at hlower hupper
  exact ⟨hlower, hupper⟩

/-- A function that is one of two with the same value around zero. -/
theorem monotone_ite_nonneg {f g : K → ℤ} (hf : Monotone f) (hg : Monotone g) (hzero : g 0 ≤ f 0) :
    Monotone fun x : K => if 0 ≤ x then f x else g x := by
  intro x y hxy
  by_cases hx : 0 ≤ x
  · simpa [hx, hx.trans hxy] using hf hxy
  · by_cases hy : 0 ≤ y
    · calc (if 0 ≤ x then f x else g x) = g x := if_neg hx
        _ ≤ g 0 := hg (le_of_not_ge hx)
        _ ≤ f 0 := hzero
        _ ≤ f y := hf hy
        _ = if 0 ≤ y then f y else g y := (if_pos hy).symm
    · simpa [hx, hy] using hg hxy

section Conversions

variable [FloorRing K]

/-- The integer part. -/
def truncate (x : K) : ℤ := if 0 ≤ x then ⌊x⌋ else ⌈x⌉

/-- The nearest integer, of two the one that is further from zero. -/
def roundHalfAway (x : K) : ℤ := if 0 ≤ x then ⌊x + 1 / 2⌋ else ⌈x - 1 / 2⌉

variable [IsStrictOrderedRing K]

theorem isRounding_roundHalfAway : IsRounding (roundHalfAway : K → ℤ) where
  monotone := by
    refine monotone_ite_nonneg (f := fun x : K => ⌊x + 1 / 2⌋) (g := fun x : K => ⌈x - 1 / 2⌉)
      (fun x y hxy => Int.floor_mono (by linarith)) (fun x y hxy => Int.ceil_mono (by linarith)) ?_
    rw [Int.ceil_le, zero_sub]
    have hfloor : (0 : ℤ) ≤ ⌊(0 : K) + 1 / 2⌋ := Int.floor_nonneg.mpr (by norm_num)
    have hcast : (0 : K) ≤ (⌊(0 : K) + 1 / 2⌋ : ℤ) := by exact_mod_cast hfloor
    linarith [one_half_pos (α := K)]
  intCast n := by
    rw [roundHalfAway]
    split
    · rw [Int.floor_intCast_add, add_eq_left, Int.floor_eq_zero_iff]
      norm_num
    · rw [sub_eq_add_neg, Int.ceil_intCast_add, add_eq_left, Int.ceil_eq_zero_iff]
      norm_num

theorem truncate_of_nonneg {x : K} {m : ℤ} (hm : 0 ≤ m) (hlower : (m : K) ≤ x)
    (hupper : x < m + 1) : truncate x = m := by
  have hx : 0 ≤ x := le_trans (by exact_mod_cast hm) hlower
  rw [truncate, if_pos hx, Int.floor_eq_iff]
  exact ⟨hlower, hupper⟩

/-- Below zero the integer part of a number that is not an integer is above the number. -/
theorem truncate_of_neg {x : K} {m : ℤ} (hm : m < 0) (hlower : (m : K) < x) (hupper : x < m + 1) :
    truncate x = m + 1 := by
  have hm' : (m : K) + 1 ≤ 0 := by exact_mod_cast hm
  rw [truncate, if_neg (not_le.mpr (hupper.trans_le hm')), Int.ceil_eq_iff]
  push_cast
  exact ⟨by linarith, hupper.le⟩

end Conversions

end DshLmc
