import Mathlib.Order.Interval.Set.Defs
import DshLmc.Core.SMDynAttr
import DshLmc.Library.Rounding

/-!
# Random values of integer attributes

A device gives its dynamic attributes random values, of a uniform or of a normal distribution. The
functions for integers are specializations of templates for reals. What a distribution returns is
chosen from outside: any integer from the bounds that a uniform distribution was made with, and any
number for a normal one.
-/

namespace DshLmc

open Tango

inductive IntegerType where
  | long
  | short
deriving DecidableEq

namespace IntegerType

def lowest : IntegerType → ℤ
  | .long => -2147483648
  | .short => -32768

def highest : IntegerType → ℤ
  | .long => 2147483647
  | .short => 32767

abbrev Carrier (T : IntegerType) : Type := Set.Icc T.lowest T.highest

def dataType : IntegerType → Int
  | .long => devLong
  | .short => devShort

/-- Which data types the functions of a type take. Those for a long do not look. -/
def supports : IntegerType → Int → Bool
  | .long, _ => true
  | .short, data_type => data_type = devShort || data_type = devEnum

end IntegerType

/-- `std::nextafter(m,DBL_MAX)`, for an integer that a double holds exactly. The step is that of the
binade in which the next double is, and below a power of two that is the lower one. -/
def nextafter (m : ℤ) : ℚ :=
  if m = 0 then 1 / 2 ^ 1074
  else if 0 < m then m + 2 ^ Nat.log2 m.natAbs / 2 ^ 52
  else m + 2 ^ Nat.log2 (2 * m.natAbs - 1) / 2 ^ 53

/-- What a `std::uniform_int_distribution` of these bounds returns. -/
abbrev UniformInt (a b : ℤ) : Type := Set.Icc a b

/-- What a `std::normal_distribution` returns, one time after the other. -/
abbrev NormalDraws (K : Type*) (_meanValue _sigmaValue : ℤ) : Type _ := ℕ → K

/-- An attribute whose data in the manager are integers. Only an enumeration has labels. -/
structure IntegerAttr (T : IntegerType) where
  data_type : Int
  data_format : Int
  max_dim_x : Int
  enum_labels : List String
  typed : data_type = T.dataType ∨ T = .short ∧ data_type = devEnum
  unlabelled : data_type ≠ devEnum → enum_labels = []

/-- What a call throws, and what it puts in the attribute. -/
structure Randomized where
  thrown : Option DevFailed
  stored : Option (List ℤ)

namespace IntegerAttr

variable {T : IntegerType}

/-- `SetDynAttrValue`, with its status. A scalar is a list of one value. -/
def setDynAttrValue (attr : IntegerAttr T) (data_format : Int) (attr_value : List ℤ)
    (outcome : WriteOutcome) : Int × Option (List ℤ) :=
  if attr.data_format ≠ data_format then (-1, none)
  else if data_format = Tango.spectrum ∧ attr.max_dim_x < attr_value.length then (-1, none)
  else if attr.enum_labels ≠ [] ∧ ∃ v ∈ attr_value, v < 0 ∨ v ≥ attr.enum_labels.length then (-1, none)
  else
    match outcome with
    | .succeeds => (0, some attr_value)
    | .failsBefore => (-1, none)
    | .failsAfter => (-1, some attr_value)

/-- The last part of each function. -/
def setOrThrow (attr : IntegerAttr T) (data_format : Int) (attr_value : List ℤ)
    (outcome : WriteOutcome) (failure : DevFailed) : Randomized :=
  match attr.setDynAttrValue data_format attr_value outcome with
  | (status, stored) => ⟨if status < 0 then some failure else none, stored⟩

/-- `LMCDevice::RandomizeScalarDynAttrUniform<Tango::DevLong>` and `<Tango::DevShort>`. The bound that
`nextafter` gives is converted to the integer type. -/
def randomizeScalarDynAttrUniform (attr : IntegerAttr T) (minValue maxValue : T.Carrier)
    (attr_name : String) (data_type : Int)
    (draw : UniformInt minValue (truncate (nextafter maxValue))) (outcome : WriteOutcome) :
    Randomized :=
  if T.supports data_type then
    attr.setOrThrow Tango.scalar [draw] outcome
      ⟨"RANDOMIZE_DYN_ATTR_UNIFORM_FAILED", "Failed to set dyn attr " ++ attr_name ++ " value!"⟩
  else ⟨some ⟨"RANDOMIZE_DYN_ATTR_UNIFORM_FAILED", "Invalid/unsupported data type!"⟩, none⟩

/-- `LMCDevice::RandomizeSpectrumDynAttrUniform<Tango::DevLong>` and `<Tango::DevShort>`. -/
def randomizeSpectrumDynAttrUniform (attr : IntegerAttr T) (minValue maxValue : T.Carrier)
    (attr_name : String) (data_type data_size : Int) (draws : ℕ → UniformInt minValue maxValue)
    (outcome : WriteOutcome) : Randomized :=
  if T.supports data_type then
    attr.setOrThrow Tango.spectrum ((List.range data_size.toNat).map fun i => (draws i : ℤ)) outcome
      ⟨if T = .long then "RANDOMIZE_SPECTRUM_DYN_ATTR_UNIFORM_FAILED"
        else "RANDOMIZE_DYN_ATTR_UNIFORM_FAILED", "Failed to set dyn attr " ++ attr_name ++ " value!"⟩
  else ⟨some ⟨"RANDOMIZE_DYN_ATTR_UNIFORM_FAILED", "Invalid/unsupported data type!"⟩, none⟩

section Gaussian

variable {K : Type*} [Field K] [LinearOrder K] [FloorRing K]

def maxRandomGenerations : Nat := 1000

/-- The `while` loop, with the generations that are left and the place in the draws. -/
def drawBetween (minValue maxValue : ℤ) (draws : ℕ → K) : ℕ → ℕ → Option (K × ℕ)
  | 0, _ => none
  | n + 1, next =>
      if (minValue : K) ≤ draws next ∧ draws next ≤ maxValue then some (draws next, next + 1)
      else drawBetween minValue maxValue draws n (next + 1)

/-- What is made of an accepted draw. The `std::min` with the upper bound is overwritten by the
`std::max` with the lower one, which looks at the value before. -/
def castBetween (minValue : ℤ) (random_value : K) : ℤ := max (roundHalfAway random_value) minValue

/-- The loop over the elements. -/
def gaussianValues (minValue maxValue : ℤ) (draws : ℕ → K) : ℕ → ℕ → Option (List ℤ)
  | 0, _ => some []
  | n + 1, next =>
      match drawBetween minValue maxValue draws maxRandomGenerations next with
      | none => none
      | some (attr_value, next) =>
          (gaussianValues minValue maxValue draws n next).map (castBetween minValue attr_value :: ·)

/-- `LMCDevice::RandomizeScalarDynAttrGaussian<Tango::DevLong>` and `<Tango::DevShort>`. -/
def randomizeScalarDynAttrGaussian (attr : IntegerAttr T)
    (minValue maxValue meanValue sigmaValue : T.Carrier) (attr_name : String)
    (draws : NormalDraws K meanValue sigmaValue) (outcome : WriteOutcome) : Randomized :=
  match drawBetween minValue maxValue draws maxRandomGenerations 0 with
  | none =>
      ⟨some ⟨"RANDOMIZE_SCALAR_DYN_ATTR_GAUSSIAN_FAILED",
        "Gaussian randomization failed (too many random generation)!"⟩, none⟩
  | some (random_value, _) =>
      attr.setOrThrow Tango.scalar [castBetween minValue random_value] outcome
        ⟨"RANDOMIZE_SPECTRUM_DYN_ATTR_GAUSSIAN_FAILED", "Failed to set attr " ++ attr_name ++ " value!"⟩

/-- `LMCDevice::RandomizeSpectrumDynAttrGaussian<Tango::DevLong>` and `<Tango::DevShort>`. -/
def randomizeSpectrumDynAttrGaussian (attr : IntegerAttr T)
    (minValue maxValue meanValue sigmaValue : T.Carrier) (attr_name : String) (data_size : Int)
    (draws : NormalDraws K meanValue sigmaValue) (outcome : WriteOutcome) : Randomized :=
  match gaussianValues minValue maxValue draws data_size.toNat 0 with
  | none =>
      ⟨some ⟨"RANDOMIZE_SPECTRUM_DYN_ATTR_GAUSSIAN_FAILED",
        "Gaussian randomization failed (too many random generation)!"⟩, none⟩
  | some attr_values =>
      attr.setOrThrow Tango.spectrum attr_values outcome
        ⟨"RANDOMIZE_SPECTRUM_DYN_ATTR_GAUSSIAN_FAILED", "Failed to set attr " ++ attr_name ++ " value!"⟩

end Gaussian

end IntegerAttr

end DshLmc
