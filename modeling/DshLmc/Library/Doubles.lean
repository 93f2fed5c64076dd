import DshLmc.Library.Rounding
import Mathlib.Data.Int.Log
import Mathlib.Order.Monotone.Odd

/-!
# Arithmetic of doubles

An operation on doubles gives the double next to the exact result. Doubles have 53 bits, and of two
that are equally near it is the one whose last bit is zero. A number is a rational here, and one beyond
the largest double stays what it is.
-/

namespace DshLmc

/-- The nearest integer, of two the even one. -/
def roundHalfEven (x : ℚ) : ℤ :=
  if x - ⌊x⌋ < 1 / 2 then ⌊x⌋
  else if 1 / 2 < x - ⌊x⌋ then ⌊x⌋ + 1
  else if ⌊x⌋ % 2 = 0 then ⌊x⌋
  else ⌊x⌋ + 1

theorem isRounding_roundHalfEven : IsRounding roundHalfEven where
  monotone x y hxy := by
    have hx : roundHalfEven x = ⌊x⌋ ∨ roundHalfEven x = ⌊x⌋ + 1 := by
      unfold roundHalfEven
      split_ifs <;> simp
    have hy : roundHalfEven y = ⌊y⌋ ∨ roundHalfEven y = ⌊y⌋ + 1 := by
      unfold roundHalfEven
      split_ifs <;> simp
    rcases (Int.floor_mono hxy).lt_or_eq with hlt | heq
    · omega
    · have hle : x - ⌊x⌋ ≤ y - ⌊y⌋ := by
        rw [heq]
        linarith
      unfold roundHalfEven
      rw [heq] at hle ⊢
      split_ifs <;> first | omega | linarith
  intCast n := by simp [roundHalfEven]

/-- The place of the last bit of the doubles around a number. -/
def lastPlace (x : ℚ) : ℤ := max (Int.log 2 |x| - 52) (-1074)

/-- The double next to a number. -/
def roundDouble (x : ℚ) : ℚ := roundHalfEven (x / 2 ^ lastPlace x) * 2 ^ lastPlace x

theorem lastPlace_le {x : ℚ} {e : ℤ} (hne : x ≠ 0) (hx : |x| < 2 ^ (53 + e)) (he : -1074 ≤ e) :
    lastPlace x ≤ e := by
  refine max_le ?_ he
  have hlog := (Int.lt_zpow_iff_log_lt one_lt_two (abs_pos.mpr hne)).mp (by exact_mod_cast hx)
  omega

/-- A number of 53 bits is a double. -/
theorem roundDouble_eq_self {m e : ℤ} (hm : |m| < 2 ^ 53) (he : -1074 ≤ e) :
    roundDouble (m * 2 ^ e) = m * 2 ^ e := by
  obtain ⟨x, hx⟩ : ∃ x : ℚ, m * 2 ^ e = x := ⟨_, rfl⟩
  rw [hx]
  by_cases hzero : x = 0
  · rw [hzero, roundDouble, zero_div]
    have hround := isRounding_roundHalfEven.intCast 0
    rw [Int.cast_zero] at hround
    rw [hround, Int.cast_zero, zero_mul]
  have hpow : (0 : ℚ) < 2 ^ e := zpow_pos two_pos e
  have hbound : |x| < 2 ^ (53 + e) := by
    have hcast : (|(m : ℚ)|) < 2 ^ (53 : ℤ) := by exact_mod_cast hm
    calc |x| = |(m : ℚ)| * 2 ^ e := by rw [← hx, abs_mul, abs_of_pos hpow]
      _ < 2 ^ (53 : ℤ) * 2 ^ e := mul_lt_mul_of_pos_right hcast hpow
      _ = 2 ^ (53 + e) := (zpow_add₀ two_ne_zero _ _).symm
  obtain ⟨k, hk⟩ := Int.eq_ofNat_of_zero_le (sub_nonneg.mpr (lastPlace_le hzero hbound he))
  have hscaled : x / 2 ^ lastPlace x = ((m * 2 ^ k : ℤ) : ℚ) := by
    have hsplit : (2 : ℚ) ^ e = 2 ^ k * 2 ^ lastPlace x := by
      rw [← zpow_natCast, ← zpow_add₀ two_ne_zero]
      congr 1
      omega
    rw [div_eq_iff (zpow_pos two_pos _).ne']
    push_cast
    rw [mul_assoc, ← hsplit, hx]
  rw [roundDouble, hscaled, isRounding_roundHalfEven.intCast, ← hscaled,
    div_mul_cancel₀ _ (zpow_pos two_pos _).ne']

theorem roundDouble_intCast {n : ℤ} (h : |n| < 2 ^ 53) : roundDouble n = n := by
  have hdouble := roundDouble_eq_self (e := 0) h (by decide)
  rwa [zpow_zero, mul_one] at hdouble

theorem roundHalfEven_neg (x : ℚ) : roundHalfEven (-x) = -roundHalfEven x := by
  by_cases hint : (⌊x⌋ : ℚ) = x
  · rw [← hint, isRounding_roundHalfEven.intCast, ← Int.cast_neg, isRounding_roundHalfEven.intCast]
  · have hfloor : ⌊-x⌋ = -⌊x⌋ - 1 := by
      have hlt := (Int.floor_le x).lt_of_ne hint
      have hup := Int.lt_floor_add_one x
      rw [Int.floor_eq_iff]
      push_cast
      constructor <;> linarith
    have hfract : -x - ⌊-x⌋ = 1 - (x - ⌊x⌋) := by
      rw [hfloor]
      push_cast
      ring
    unfold roundHalfEven
    rw [hfract, hfloor]
    split_ifs <;> first | omega | linarith

theorem lastPlace_neg (x : ℚ) : lastPlace (-x) = lastPlace x := by rw [lastPlace, abs_neg, lastPlace]

theorem roundDouble_neg (x : ℚ) : roundDouble (-x) = -roundDouble x := by
  rw [roundDouble, lastPlace_neg, neg_div, roundHalfEven_neg, Int.cast_neg, neg_mul, roundDouble]

theorem roundDouble_le {x : ℚ} {n : ℤ} (h : x ≤ n * 2 ^ lastPlace x) :
    roundDouble x ≤ n * 2 ^ lastPlace x := by
  have hpow : (0 : ℚ) < 2 ^ lastPlace x := zpow_pos two_pos _
  have hround := isRounding_roundHalfEven.monotone ((div_le_iff₀ hpow).mpr h)
  rw [isRounding_roundHalfEven.intCast] at hround
  exact mul_le_mul_of_nonneg_right (by exact_mod_cast hround) hpow.le

theorem le_roundDouble {x : ℚ} {n : ℤ} (h : n * 2 ^ lastPlace x ≤ x) :
    n * 2 ^ lastPlace x ≤ roundDouble x := by
  have hpow : (0 : ℚ) < 2 ^ lastPlace x := zpow_pos two_pos _
  have hround := isRounding_roundHalfEven.monotone ((le_div_iff₀ hpow).mpr h)
  rw [isRounding_roundHalfEven.intCast] at hround
  exact mul_le_mul_of_nonneg_right (by exact_mod_cast hround) hpow.le

theorem lt_zpow_lastPlace (x : ℚ) : |x| < (2 ^ 53 : ℤ) * 2 ^ lastPlace x := by
  have hlog : |x| < 2 ^ (Int.log 2 |x| + 1) := by
    exact_mod_cast Int.lt_zpow_succ_log_self one_lt_two |x|
  have hle := le_max_left (Int.log 2 |x| - 52) (-1074)
  calc |x| < 2 ^ (Int.log 2 |x| + 1) := hlog
    _ ≤ 2 ^ (53 + lastPlace x) := zpow_le_zpow_right₀ one_le_two (by unfold lastPlace; omega)
    _ = (2 ^ 53 : ℤ) * 2 ^ lastPlace x := by
      rw [zpow_add₀ two_ne_zero]
      norm_num

theorem zpow_lastPlace_le {x : ℚ} (hpos : 0 < |x|) (h : -1074 < lastPlace x) :
    (2 ^ 52 : ℤ) * 2 ^ lastPlace x ≤ |x| := by
  have hlog : lastPlace x = Int.log 2 |x| - 52 :=
    (max_choice (Int.log 2 |x| - 52) (-1074)).resolve_right fun heq => h.ne' heq
  calc (2 ^ 52 : ℤ) * 2 ^ lastPlace x = (2 : ℚ) ^ (52 + lastPlace x) := by
        rw [zpow_add₀ two_ne_zero]
        norm_num
    _ = 2 ^ Int.log 2 |x| := by rw [hlog, add_sub_cancel]
    _ ≤ |x| := by exact_mod_cast Int.zpow_log_le_self one_lt_two hpos

/-- The places grow with the numbers, and where they do there is a power of two between. -/
theorem roundDouble_monotone : Monotone roundDouble := by
  refine monotone_of_odd_of_monotoneOn_nonneg roundDouble_neg fun x hx y hy hxy => ?_
  rcases (Set.mem_Ici.mp hx).eq_or_lt' with rfl | hpos
  · have hzero := le_roundDouble (x := y) (n := 0) (by simpa using Set.mem_Ici.mp hy)
    have hnone := roundDouble_intCast (n := 0) (by decide)
    simp only [Int.cast_zero, zero_mul] at hzero hnone
    rwa [hnone]
  have hypos := hpos.trans_le hxy
  have hplaces : lastPlace x ≤ lastPlace y := by
    refine max_le_max (sub_le_sub_right (Int.log_mono_right (abs_pos.mpr hpos.ne') ?_) _) le_rfl
    rwa [abs_of_pos hpos, abs_of_pos hypos]
  rcases hplaces.eq_or_lt with heq | hlt
  · have hpow : (0 : ℚ) < 2 ^ lastPlace x := zpow_pos two_pos _
    have hround := isRounding_roundHalfEven.monotone ((div_le_div_iff_of_pos_right hpow).mpr hxy)
    rw [roundDouble, roundDouble, ← heq]
    exact mul_le_mul_of_nonneg_right (by exact_mod_cast hround) hpow.le
  · have hupper := lt_zpow_lastPlace x
    have hlower := zpow_lastPlace_le (abs_pos.mpr hypos.ne') ((le_max_right _ _).trans_lt hlt)
    rw [abs_of_pos hpos] at hupper
    rw [abs_of_pos hypos] at hlower
    have hnext : (2 ^ 53 : ℤ) * (2 : ℚ) ^ lastPlace x ≤ (2 ^ 52 : ℤ) * 2 ^ lastPlace y := by
      have hdouble : (2 : ℚ) ^ (1 + lastPlace x) ≤ 2 ^ lastPlace y :=
        zpow_le_zpow_right₀ one_le_two (by omega)
      rw [zpow_add₀ two_ne_zero, zpow_one] at hdouble
      push_cast
      linarith
    exact (roundDouble_le hupper.le).trans (hnext.trans (le_roundDouble hlower))

end DshLmc
