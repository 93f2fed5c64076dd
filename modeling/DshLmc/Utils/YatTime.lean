import DshLmc.Library.Doubles

/-!
# Instants and their differences

A `yat::Time` counts microseconds. `TangoUtils` subtracts two of them as doubles of seconds, so the
difference that it gives need not be the exact one, and can be zero for two that differ.
-/

namespace DshLmc

/-- An instant of `yat::Time`, in microseconds from the Unix origin. -/
abbrev Time := Int

/-- A reading of the clock, in UTC and in local time. -/
structure Clock where
  utc : Time
  localTime : Time

def Clock.origin : Clock := { utc := 0, localTime := 0 }

/-- `yat::Time::set_current`. -/
def Clock.current (now : Clock) (useUTC : Bool) : Time :=
  if useUTC then now.utc else now.localTime

theorem current_origin (useUTC : Bool) : Clock.origin.current useUTC = 0 := by
  cases useUTC <;> rfl

/-- `yat::Time::double_unix`: the seconds. -/
def doubleUnix (t : Time) : ℚ := roundDouble (t / 1000000)

/-- The instant of a number of seconds, for where `yat::Time::set_double_unix` has to be run. -/
def cutToMicroseconds (seconds : ℚ) : Time := truncate (seconds * 1000000)

/-- `double_unix()*1000.`, the milliseconds. -/
def doubleUnixMSec (t : Time) : ℚ := roundDouble (doubleUnix t * 1000)

namespace TangoUtils

def getYatTimeDiffUSec (before after : Time) : ℚ :=
  roundDouble (roundDouble (doubleUnix after - doubleUnix before) * 1000000)

def getYatTimeDiffMSec (before after : Time) : ℚ :=
  roundDouble (getYatTimeDiffUSec before after / 1000)

def computeYatTimeoutMSec (now : Clock) (t : Time) (isUTC : Bool) : ℚ :=
  getYatTimeDiffMSec (now.current isUTC) t

end TangoUtils

theorem doubleUnix_monotone : Monotone doubleUnix := by
  intro t t' h
  refine roundDouble_monotone (div_le_div_of_nonneg_right ?_ (by norm_num))
  exact_mod_cast h

theorem roundDouble_nonpos {x : ℚ} (h : x ≤ 0) : roundDouble x ≤ 0 := by
  have hzero := roundDouble_monotone h
  have hnone := roundDouble_intCast (n := 0) (by decide)
  rw [Int.cast_zero] at hnone
  rwa [hnone] at hzero

/-- An instant that has passed is not ahead in doubles either. -/
theorem getYatTimeDiffMSec_nonpos {before after : Time} (h : after ≤ before) :
    TangoUtils.getYatTimeDiffMSec before after ≤ 0 := by
  have hdiff : doubleUnix after - doubleUnix before ≤ 0 := sub_nonpos.mpr (doubleUnix_monotone h)
  have husec : TangoUtils.getYatTimeDiffUSec before after ≤ 0 :=
    roundDouble_nonpos (mul_nonpos_of_nonpos_of_nonneg (roundDouble_nonpos hdiff) (by norm_num))
  exact roundDouble_nonpos (div_nonpos_of_nonpos_of_nonneg husec (by norm_num))

theorem doubleUnix_seconds {a : ℤ} (h : |a| < 2 ^ 53) : doubleUnix (a * 1000000) = a := by
  have hseconds : ((a * 1000000 : ℤ) : ℚ) / 1000000 = a := by
    push_cast
    exact mul_div_cancel_right₀ _ (by norm_num)
  rw [doubleUnix, hseconds, roundDouble_intCast h]

/-- Whole seconds are subtracted exactly. -/
theorem getYatTimeDiffMSec_seconds {a b : ℤ} (ha : |a| < 2 ^ 32) (hb : |b| < 2 ^ 32) :
    TangoUtils.getYatTimeDiffMSec (a * 1000000) (b * 1000000) = (((b - a) * 1000 : ℤ) : ℚ) := by
  rw [abs_lt] at ha hb
  have husec : TangoUtils.getYatTimeDiffUSec (a * 1000000) (b * 1000000)
      = (((b - a) * 1000000 : ℤ) : ℚ) := by
    rw [TangoUtils.getYatTimeDiffUSec, doubleUnix_seconds (abs_lt.mpr (by omega)),
      doubleUnix_seconds (abs_lt.mpr (by omega)), ← Int.cast_sub,
      roundDouble_intCast (abs_lt.mpr (by omega))]
    have hcast : ((b - a : ℤ) : ℚ) * 1000000 = (((b - a) * 1000000 : ℤ) : ℚ) := by push_cast; ring
    rw [hcast, roundDouble_intCast (abs_lt.mpr (by omega))]
  have hmsec : (((b - a) * 1000000 : ℤ) : ℚ) / 1000 = (((b - a) * 1000 : ℤ) : ℚ) := by
    push_cast
    ring
  rw [TangoUtils.getYatTimeDiffMSec, husec, hmsec, roundDouble_intCast (abs_lt.mpr (by omega))]

end DshLmc
