import Mathlib.Data.List.Basic

/-!
# Tango values

The types and formats of Tango data have numbers, and a `CORBA::Any` holds a scalar or an array of
one of the element types. A float and a double are their bits. A state is its number.
-/

namespace DshLmc

/-- `Tango::DevFailed`: the reason and the description of its first error. -/
structure DevFailed where
  reason : String
  desc : String
deriving DecidableEq

namespace Tango

def devBoolean : Int := 1
def devShort : Int := 2
def devLong : Int := 3
def devFloat : Int := 4
def devDouble : Int := 5
def devString : Int := 8
def devState : Int := 19
def devEnum : Int := 29

def scalar : Int := 0
def spectrum : Int := 1

inductive ElementType where
  | state
  | float
  | double
  | long
  | short
  | string
  | boolean
deriving DecidableEq

def ElementType.Carrier : ElementType → Type
  | .state => UInt32
  | .float => UInt32
  | .double => UInt64
  | .long => Int32
  | .short => Int16
  | .string => String
  | .boolean => Bool

inductive Value where
  | scalar (T : ElementType) (value : T.Carrier)
  | spectrum (T : ElementType) (values : List T.Carrier)

namespace Value

def elementType : Value → ElementType
  | .scalar T _ => T
  | .spectrum T _ => T

def format : Value → Int
  | .scalar _ _ => Tango.scalar
  | .spectrum _ _ => Tango.spectrum

/-- An array of no elements. -/
def IsEmptySpectrum : Value → Prop
  | .scalar _ _ => False
  | .spectrum _ values => values = []

end Value

/-- A `CORBA::Any`, which may be empty. -/
abbrev CorbaAny := Option Value

/-- `any >>= value`. -/
def CorbaAny.extractScalar (T : ElementType) : CorbaAny → Option T.Carrier
  | some (.scalar T' value) => if h : T' = T then some (h ▸ value) else none
  | _ => none

/-- `any >>= values`. -/
def CorbaAny.extractSpectrum (T : ElementType) : CorbaAny → Option (List T.Carrier)
  | some (.spectrum T' values) => if h : T' = T then some (h ▸ values) else none
  | _ => none

theorem CorbaAny.extractScalar_eq_some_iff {T : ElementType} {any : CorbaAny} {value : T.Carrier} :
    any.extractScalar T = some value ↔ any = some (.scalar T value) := by
  cases any with
  | none => simp [extractScalar]
  | some v =>
      cases v with
      | spectrum T' values => simp [extractScalar]
      | scalar T' value' =>
          by_cases h : T' = T
          · subst h
            simp [extractScalar]
          · simp [extractScalar, h]

theorem CorbaAny.extractSpectrum_eq_some_iff {T : ElementType} {any : CorbaAny}
    {values : List T.Carrier} :
    any.extractSpectrum T = some values ↔ any = some (.spectrum T values) := by
  cases any with
  | none => simp [extractSpectrum]
  | some v =>
      cases v with
      | scalar T' value' => simp [extractSpectrum]
      | spectrum T' values' =>
          by_cases h : T' = T
          · subst h
            simp [extractSpectrum]
          · simp [extractSpectrum, h]

end Tango

end DshLmc
