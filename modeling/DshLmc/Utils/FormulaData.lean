import DshLmc.Utils.AttrData
import DshLmc.Utils.EvtSubscriptionData

/-!
# Formulas

A formula of an attribute has variables. A variable is an attribute of this device or of a proxy and
stands for its value or its quality factor. The variables are shared objects: the address tells one
from another, and the data that a variable has are in a store, because events change them.
-/

namespace DshLmc

inductive FormulaValueType where
  | eATTR_VALUE
  | eATTR_QUALITY_FACTOR
deriving DecidableEq

/-- A `FormulaVarPtr`. Only a `ProxyAttrFormulaVar` has a device. -/
structure FormulaVar where
  address : Nat
  attr_name : String
  attr_value_type : FormulaValueType
  device_name : Option String
deriving DecidableEq

/-- The `attr_data` of the variables, null until they are initialized. -/
abbrev VarData := Nat → Option AttrData

/-- A `Tango::EventData`. Without a value the event reports an error. -/
structure EventData where
  attr_value : Option DeviceAttribute

namespace FormulaVar

def setAttrValue (v : FormulaVar) (vars : VarData) (da : Option DeviceAttribute) :
    Option VarData := do
  let da ← da
  let attr_data ← vars v.address
  let attr_data' ← attr_data.setData da
  return fun address => if address = v.address then some attr_data' else vars address

/-- The variable is of a proxy, and the names are those of the event. -/
def binds (v : FormulaVar) (evt_sub : EvtSubscriptionData) : Bool :=
  match v.device_name with
  | none => false
  | some device_name =>
      sameName device_name evt_sub.device_name && sameName v.attr_name evt_sub.attr_name

end FormulaVar

abbrev FormulaSymbols := Std.ExtTreeMap String FormulaVar

structure FormulaData where
  m_formula : String
  m_symbols : FormulaSymbols
  m_evaluation_modes : List EventType
  m_attrName : String := ""
  m_postActions : List String := []
  m_setInvalidQualityIfOld : Bool := false

namespace FormulaData

def vars (f : FormulaData) : List FormulaVar := f.m_symbols.values

/-- `FormulaData::SetEventValue`. The search ends at the first variable that the event is for. -/
def setEventValue (f : FormulaData) (vars : VarData) (evt_sub : EvtSubscriptionData)
    (event_data : EventData) : Option VarData := do
  let item ← f.vars.find? (·.binds evt_sub)
  item.setAttrValue vars event_data.attr_value

def hasProxyInFormulaVars (f : FormulaData) (proxy_name : String) : Bool :=
  proxy_name ≠ "" && f.vars.any fun v => v.device_name = some proxy_name

end FormulaData

end DshLmc
