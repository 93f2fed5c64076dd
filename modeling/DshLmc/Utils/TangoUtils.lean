import Mathlib.Data.UInt
import DshLmc.Library.Json
import DshLmc.Utils.Tango

/-!
# Tango values as JSON

`CorbaAnyToJsonObj` selects a converter by the number of the type. A converter extracts the value
and writes it under the key `value` of a JSON object, cast to a type that JSON has.
-/

namespace DshLmc

open Tango

/-- The reals of JSON are doubles. A float is a double too, so it comes back from one. -/
structure FloatFormat extends Json.Reals UInt64 where
  toDouble : UInt32 → UInt64
  toFloat : UInt64 → UInt32
  toFloat_toDouble : ∀ x, toFloat (toDouble x) = x

variable (F : FloatFormat)

/-- `Json::Value(static_cast<K>(item))`. -/
def Tango.ElementType.toJson : (T : ElementType) → T.Carrier → Json UInt64
  | .state, (item : UInt32) => .int item.toNat
  | .float, (item : UInt32) => .real (F.toDouble item)
  | .double, (item : UInt64) => .real item
  | .long, (item : Int32) => .int item.toInt
  | .short, (item : Int16) => .int item.toInt
  | .string, (item : String) => .string item
  | .boolean, (item : Bool) => .bool item

namespace TangoUtils

def convertScalarToJson (T : ElementType) (root : Json.Members UInt64) (any : CorbaAny) :
    Option (Json.Members UInt64) :=
  (any.extractScalar T).map fun value => root.set "value" (T.toJson F value)

def convertSpectrumToJson (T : ElementType) (root : Json.Members UInt64) (any : CorbaAny) :
    Option (Json.Members UInt64) :=
  (any.extractSpectrum T).map fun values =>
    (values.map (T.toJson F)).foldl (Json.Members.append "value") root

/-- The converter of a data type. Both formats have one for the same types. -/
def converterType (dataType : Int) : Option ElementType :=
  if dataType = devState then some .state
  else if dataType = devFloat then some .float
  else if dataType = devDouble then some .double
  else if dataType = devLong then some .long
  else if dataType = devShort then some .short
  else if dataType = devEnum then some .short
  else if dataType = devString then some .string
  else if dataType = devBoolean then some .boolean
  else none

/-- `TangoUtils::CorbaAnyToJsonObj`. An exception is caught, and the call returns -1. -/
def corbaAnyToJsonObj (root : Json.Members UInt64) (any : CorbaAny) (dataType dataFormat : Int) :
    Option (Json.Members UInt64) :=
  if dataFormat = Tango.scalar then
    (converterType dataType).bind fun T => convertScalarToJson F T root any
  else if dataFormat = Tango.spectrum then
    (converterType dataType).bind fun T => convertSpectrumToJson F T root any
  else none

end TangoUtils

end DshLmc
