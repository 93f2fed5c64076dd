import DshLmc.Core.Attributes
import DshLmc.Utils.FormulaManager

/-!
# Formula attributes of a device

When a proxy is found down, the attributes whose formulas have a variable of it get their safe
values. A setter can throw, and one that casts the data of an attribute to a type that they do not
have goes through a null pointer.
-/

namespace DshLmc

open Tango

/-- The dynamic attributes of a device by their names. -/
abbrev Attributes := String → Option Attribute

/-- How a setter ends. A null pointer has no defined behaviour. -/
inductive Outcome where
  | ok
  | throws
  | undefined
deriving DecidableEq

/-- The conversion to `bool`. -/
def AttrQuality.toBool : AttrQuality → Bool
  | .valid => false
  | _ => true

/-- What the Tango device answers while a call runs: the time, and whether a write attribute takes
the value that is set in it. -/
structure WriteSystem where
  now : TimeVal
  setWAttrValue : String → Bool

namespace Attribute

/-- `set_data_to_safe` on the data of the attribute. -/
def setDataToSafe (attr : Attribute) (quality : Option AttrQuality) (now : TimeVal) : Attribute :=
  { attr with
    data := attr.data.map fun d => d.setDataToSafe quality now
    typed := by
      intro d hd
      obtain ⟨d', hd', rfl⟩ := Option.map_eq_some_iff.mp hd
      exact ⟨(attr.typed d' hd').1, (Data.format_fill ..).trans (attr.typed d' hd').2⟩ }

def setDynAttrSafeValueInManager (attr : Attribute) (T : ElementType) (format : Int)
    (changeAttrQuality : Bool) (attr_quality : AttrQuality) (now : TimeVal) :
    Attribute × Outcome :=
  match attr.data with
  | none => (attr, .throws)
  | some d =>
      if d.T = T ∧ d.m_data.format = format then
        (attr.setDataToSafe (if changeAttrQuality then some attr_quality else none) now, .ok)
      else (attr, .undefined)

def size (attr : Attribute) : Nat :=
  match attr.data with
  | some ⟨_, .spectrum values, _, _, _, _⟩ => values.length
  | _ => 0

variable (sys : WriteSystem) (attr_name : String)

def setScalarDynAttrToSafeValue (attr : Attribute) (T : ElementType) (changeAttrQuality : Bool)
    (attr_quality : AttrQuality) : Attribute × Outcome :=
  if attr.data_format ≠ Tango.scalar then (attr, .throws)
  else
    match attr.setDynAttrSafeValueInManager T Tango.scalar changeAttrQuality attr_quality
        sys.now with
    | (attr, .ok) =>
        if attr.is_writ_associated && !sys.setWAttrValue attr_name then (attr, .throws)
        else (attr, .ok)
    | result => result

def setSpectrumDynAttrToSafeValue (attr : Attribute) (T : ElementType) (changeAttrQuality : Bool)
    (attr_quality : AttrQuality) : Attribute × Outcome :=
  if attr.data_format ≠ Tango.spectrum then (attr, .throws)
  else
    match attr.setDynAttrSafeValueInManager T Tango.spectrum changeAttrQuality attr_quality
        sys.now with
    | (attr, .ok) =>
        if attr.size > attr.max_dim_x then (attr, .throws)
        else if attr.is_writ_associated && !sys.setWAttrValue attr_name then (attr, .throws)
        else (attr, .ok)
    | result => result

/-- The type that `SetDynAttrToSafeValue` takes for a spectrum: booleans for the states. -/
def spectrumElementType (dataType : Int) : Option ElementType :=
  if dataType = devState then some .boolean else dataElementType dataType

/-- The setter that `SetDynAttrToSafeValue` calls for the format and the type of an attribute. -/
def setDynAttrToSafeValue (attr : Attribute) (changeAttrQuality : Bool)
    (attr_quality : AttrQuality) : Attribute × Outcome :=
  if attr.data_format = Tango.scalar then
    match dataElementType attr.data_type with
    | none => (attr, .throws)
    | some T => attr.setScalarDynAttrToSafeValue sys attr_name T changeAttrQuality attr_quality
  else if attr.data_format = Tango.spectrum then
    match spectrumElementType attr.data_type with
    | none => (attr, .throws)
    | some T => attr.setSpectrumDynAttrToSafeValue sys attr_name T changeAttrQuality attr_quality
  else (attr, .throws)

end Attribute

/-- `LMCDevice::SetDynAttrToSafeValue`. It returns -1 when it catches an exception. -/
def setDynAttrToSafeValue (sys : WriteSystem) (attrs : Attributes) (attr_name : String)
    (changeAttrQuality : Bool) (attr_quality : AttrQuality) : Attributes × Outcome :=
  match attrs attr_name with
  | none => (attrs, .throws)
  | some attr =>
      let result := attr.setDynAttrToSafeValue sys attr_name changeAttrQuality attr_quality
      (fun name => if name = attr_name then some result.1 else attrs name, result.2)

/-- The loop of `EvaluateFormulasOnProxyDown`. -/
def setFormulasToSafeValue (sys : WriteSystem) (changeQualityFactor : Bool)
    (attr_quality : AttrQuality) :
    List (String × FormulaData) → Attributes → Option (Int × Attributes)
  | [], attrs => some (0, attrs)
  | (attr_name, _) :: rest, attrs =>
      match setDynAttrToSafeValue sys attrs attr_name changeQualityFactor attr_quality with
      | (_, .undefined) => none
      | (attrs, .throws) =>
          (setFormulasToSafeValue sys changeQualityFactor attr_quality rest attrs).map fun result =>
            (1, result.2)
      | (attrs, .ok) => setFormulasToSafeValue sys changeQualityFactor attr_quality rest attrs

def evaluateFormulasOnProxyDown (sys : WriteSystem) (mgr : FormulaManager) (attrs : Attributes)
    (proxy_name : String) (changeQualityFactor : Bool) (attr_quality : AttrQuality) :
    Option (Int × Attributes) :=
  match mgr.getFormulasLinkedToProxy proxy_name with
  | none => some (-1, attrs)
  | some formulas => setFormulasToSafeValue sys changeQualityFactor attr_quality formulas attrs

/-- `LMCDevice::ProcessProxyRunStatusInfo`. The quality factor of a hard offline is given where the
flag for a change of the quality factor is expected, and the quality factor has its default. -/
def processProxyRunStatusInfo (sys : WriteSystem) (mgr : FormulaManager) (attrs : Attributes)
    (proxy_name : String) (proxy_run_status : ProxyRunState) : Option (Int × Attributes) :=
  match proxy_run_status with
  | .ePROXY_HARD_OFFLINE =>
      (evaluateFormulasOnProxyDown sys mgr attrs proxy_name AttrQuality.invalid.toBool .valid).map
        fun result => (if result.1 < 0 then 1 else 0, result.2)
  | .ePROXY_SOFT_OFFLINE =>
      (evaluateFormulasOnProxyDown sys mgr attrs proxy_name false .valid).map
        fun result => (if result.1 < 0 then 1 else 0, result.2)
  | .ePROXY_ONLINE => some (0, attrs)

end DshLmc
