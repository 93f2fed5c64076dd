import DshLmc.Utils.AttrData
import DshLmc.Utils.CodeUtils

/-!
# The attributes of a device

A device finds a Tango attribute by its name and throws when there is none. A dynamic attribute has
attribute data as well, in the type that its Tango data type stands for. The names are looked up by
Tango and by the manager of the dynamic attributes, so the device is a table of what they find.
-/

namespace DshLmc

open Tango

/-- The C++ type of a data type. An enumeration is a short. -/
def dataElementType (dataType : Int) : Option ElementType :=
  if dataType = devFloat then some .float
  else if dataType = devDouble then some .double
  else if dataType = devLong then some .long
  else if dataType = devShort then some .short
  else if dataType = devEnum then some .short
  else if dataType = devString then some .string
  else if dataType = devBoolean then some .boolean
  else if dataType = devState then some .state
  else none

/-- A Tango attribute. Only a dynamic attribute has data in the manager. -/
structure Attribute where
  data_type : Int
  data_format : Int
  is_writ_associated : Bool
  enum_labels : List String
  max_dim_x : Nat := 1
  data : Option AttrData
  /-- `CreateAndInitDynAttr` makes the data in the type and the format of the attribute. -/
  typed : ∀ d, data = some d → dataElementType data_type = some d.T ∧ d.m_data.format = data_format

structure Device where
  get_cmd_by_name : String → Except DevFailed Unit
  get_attr_by_name : String → Except DevFailed Attribute

namespace Attribute

/-- `GetDynAttrValue<T>` for scalars. `DevEnum` is another name for `DevShort`, so the specialization
for enumerations is the code for a short as well. -/
def getDynAttrValue (attr : Attribute) (T : ElementType) : Option T.Carrier :=
  if attr.data_format ≠ Tango.scalar then none
  else if T = .short ∧ attr.data_type ≠ devEnum then none
  else
    match attr.data with
    | some ⟨T', .scalar value, _, _, _, _⟩ => if h : T' = T then some (h ▸ value) else none
    | _ => none

def getEnumAttrLabelValue (attr : Attribute) (enumValue : Int16) : Option String :=
  if attr.data_type ≠ devEnum then none
  else if attr.enum_labels = [] then none
  else if enumValue.toInt < 0 ∨ enumValue.toInt > attr.enum_labels.length - 1 then none
  else attr.enum_labels[enumValue.toInt.toNat]?

end Attribute

end DshLmc
