import DshLmc.Utils.FormulaEvaluator
import DshLmc.Utils.SpectrumAttrData

/-!
# Spectrum attributes with a formula

What a device does with the result of a spectrum formula.
-/

namespace DshLmc

open Tango

/-- A dynamic attribute, with its data in the manager. -/
structure DynSpectrum (K : ElementType) where
  data_format : Int
  max_dim_x : Int
  enum_labels : List String
  attr_data : SpectrumAttrData K.Carrier

namespace DynSpectrum

variable {K : ElementType}

/-- The check of `SetDynAttrValueInManager<Tango::DevEnum>`, which is made for every short. -/
def labelled : (K : ElementType) → List String → List K.Carrier → Bool
  | .short, enum_labels, attr_value =>
      enum_labels = [] || attr_value.all fun value : Int16 =>
        0 ≤ value.toInt && value.toInt < enum_labels.length
  | _, _, _ => true

/-- `LMCDevice::SetDynAttrValue` of an array. The written part is set and the event is pushed when the
value is already in the attribute, and either may fail. -/
def setDynAttrValue (attr_value : List K.Carrier) (attr_quality : AttrQuality) (now : TimeVal)
    (pushed : Bool) (attr : DynSpectrum K) : Int × DynSpectrum K :=
  if attr.data_format ≠ Tango.spectrum then (-1, attr)
  else if attr.max_dim_x < attr_value.length then (-1, attr)
  else if !labelled K attr.enum_labels attr_value then (-1, attr)
  else
    match attr.attr_data.setData now (.vector attr_value attr_quality) with
    | (status, attr_data) =>
        if status < 0 then (-1, { attr with attr_data })
        else (if pushed then 0 else -1, { attr with attr_data })

/-- `LMCDevice::SetFormulaSpectrumDynAttrValue`, with what it throws. -/
def setFormulaSpectrumDynAttrValue {T : Type} (num : FormulaNumbers T) (exprtk : Exprtk T)
    (store : FormulaStore) (timeref : TimeVal) (f : FormulaData) (formulaVarMaxTimeInterval : Int)
    (attr_name : String) (data_size : Int) (now : TimeVal) (pushed : Bool) (attr : DynSpectrum K) :
    Option DevFailed × DynSpectrum K :=
  match f.evaluateSpectrumFormula num exprtk store timeref formulaVarMaxTimeInterval data_size K with
  | none =>
      (some ⟨"SET_FORMULA_SPECTRUM_DYN_ATTR_VALUE_FAILED",
        "Failed to evaluate formula for attr " ++ attr_name ++ "!"⟩, attr)
  | some (formula_res, formula_attr_quality) =>
      match attr.setDynAttrValue formula_res formula_attr_quality now pushed with
      | (status, attr) =>
          if status < 0 then
            (some ⟨"SET_FORMULA_SPECTRUM_DYN_ATTR_VALUE_FAILED",
              "Failed to set dyn attr " ++ attr_name ++ " value!"⟩, attr)
          else (none, attr)

end DynSpectrum

end DshLmc
