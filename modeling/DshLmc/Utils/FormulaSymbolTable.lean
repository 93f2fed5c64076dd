import DshLmc.Utils.Exprtk
import DshLmc.Utils.FormulaData

/-!
# The symbols of a formula

To evaluate a formula its variables are entered in a symbol table, and the quality factors and the ages
of their attributes in three maps: one for numbers, one for arrays of numbers and one for texts. An
array of texts is entered as one text for each element, under the name of the variable with the index
behind it.
-/

namespace DshLmc

open Tango

/-- `TangoUtils::GetTimeDiffUSec`. The product and the sums are 32-bit numbers and wrap. -/
def getTimeDiffUSec (before after : TimeVal) : Int32 :=
  (after.tv_sec - before.tv_sec) * 1000000 + after.tv_usec - before.tv_usec

def getTimeDiffSec (before after : TimeVal) : Int := (getTimeDiffUSec before after).toInt.tdiv 1000000

/-- The numbers of the types whose data have an element type. An enumeration is a short. -/
def Tango.ElementType.dataTypes : ElementType → List Int
  | .state => [devState]
  | .float => [devFloat]
  | .double => [devDouble]
  | .long => [devLong]
  | .short => [devShort, devEnum]
  | .string => [devString]
  | .boolean => [devBoolean]

/-- The `attr_data` of a variable, with the labels of an enumeration. -/
structure FormulaAttr where
  data : AttrData
  m_data_type : Int
  m_labels : List String
  typed : m_data_type ∈ data.T.dataTypes

/-- What a `ProxyAttrFormulaVar` has for the time before its proxy answers. -/
structure ProxyAttrInit where
  attr_init_value_str : String
  exp_data_type : Int
  exp_data_format : Int
  exp_data_size : Int

/-- What the variables point to, by their addresses. A timestamp that no getter writes is what was in
its place before. -/
structure FormulaStore where
  attr_data : Nat → Option FormulaAttr
  init : Nat → ProxyAttrInit
  unwritten : Nat → TimeVal

/-- How values and texts become numbers of a formula, and how those become values. -/
structure FormulaNumbers (T : Type) where
  static_cast : (S : ElementType) → S.Carrier → T
  quality : AttrQuality → T
  /-- `istream >> value`. -/
  extract : String → Option T
  result : (K : ElementType) → T → K.Carrier

/-- `istream >> text`: the first word. -/
def extractWord (s : String) : Option String :=
  let isspace (c : Char) : Bool := c == ' ' || ('\t' ≤ c && c ≤ '\r')
  let word := (s.toList.dropWhile isspace).takeWhile fun c => !isspace c
  if word = [] then none else some (String.ofList word)

/-- `m_tangoStateStrMap`. -/
def tangoStateStrMap : List (String × UInt32) :=
  [("ON", 0), ("OFF", 1), ("CLOSE", 2), ("OPEN", 3), ("INSERT", 4), ("EXTRACT", 5), ("MOVING", 6),
    ("STANDBY", 7), ("FAULT", 8), ("INIT", 9), ("RUNNING", 10), ("ALARM", 11), ("DISABLE", 12),
    ("UNKNOWN", 13)]

structure Reading (K : Type) where
  attr_value : K
  attr_quality : AttrQuality
  attr_timestamp : TimeVal

def Reading.convert {K L : Type} (f : K → Option L) (r : Reading K) : Option (Reading L) :=
  (f r.attr_value).map fun value => ⟨value, r.attr_quality, r.attr_timestamp⟩

variable {T : Type} (num : FormulaNumbers T)

def tangoStateStrToValue (state_str : String) : Option T :=
  (tangoStateStrMap.lookup state_str).map (num.static_cast .state)

namespace FormulaAttr

variable (attr : FormulaAttr)

def reading {K : Type} (value : K) : Reading K :=
  ⟨value, attr.data.m_data_quality, attr.data.m_timestamp⟩

/-- `AttrDataConverter::convert_scalar` to a number. Only a text may fail. -/
def convertScalar (S : ElementType) (value : S.Carrier) : Option T :=
  match S, value with
  | .string, text => num.extract text
  | S, value => some (num.static_cast S value)

def getScalarAttrData : Option (Reading T) :=
  match attr.data.m_data with
  | .spectrum _ => none
  | .scalar value => (convertScalar num attr.data.T value).map attr.reading

/-- `GetSpectrumAttrData<T>`. Texts are not converted. -/
def getSpectrumAttrData : Option (Reading (List T)) :=
  match attr.data.m_data with
  | .scalar _ => none
  | .spectrum values =>
      if attr.data.T = .string then none
      else some (attr.reading (values.map (num.static_cast attr.data.T)))

/-- `ScalarAttrData<Tango::DevEnum>::get_data_str`. -/
def getLabel (value : Int16) : Option String :=
  if attr.m_labels = [] then none
  else if value < 0 ∨ Int16.ofNat attr.m_labels.length ≤ value then none
  else attr.m_labels[value.toInt.toNat]?

/-- `GetScalarAttrData<std::string>` of a text or an enumeration. -/
def getScalarAttrText : Option (Reading String) :=
  match attr.data.T, attr.data.m_data with
  | .string, .scalar text => some (attr.reading text)
  | .short, .scalar value => (attr.getLabel value).map attr.reading
  | _, _ => none

/-- `GetSpectrumAttrData<std::string>` of texts. -/
def getSpectrumAttrText : Option (Reading (List String)) :=
  match attr.data.T, attr.data.m_data with
  | .string, .spectrum texts => some (attr.reading texts)
  | _, _ => none

end FormulaAttr

namespace ProxyAttrInit

/-- `GetScalarAttrDataFromInitValue`, which leaves the timestamp. -/
def getScalar {K : Type} (init : ProxyAttrInit) (extract : String → Option K) (unwritten : TimeVal) :
    Option (Reading K) :=
  (extract init.attr_init_value_str).map fun value => ⟨value, .invalid, unwritten⟩

/-- `GetSpectrumAttrDataFromInitValue`: every element is the initial value. -/
def getSpectrum {K : Type} (init : ProxyAttrInit) (extract : String → Option K)
    (unwritten : TimeVal) : Option (Reading (List K)) :=
  if init.exp_data_size ≤ 0 then none
  else (extract init.attr_init_value_str).map fun value =>
    ⟨List.replicate init.exp_data_size.toNat value, .invalid, unwritten⟩

end ProxyAttrInit

structure FormulaVarData (K : Type) where
  attr_value : K
  attr_quality : AttrQuality
  attr_timediff : Int
  formula_var_name : String
  formula_attr_name : String

structure FormulaDataValues (T : Type) where
  scalar_values : Std.ExtTreeMap String (FormulaVarData T) := ∅
  spectrum_values : Std.ExtTreeMap String (FormulaVarData (List T)) := ∅
  scalar_string_values : Std.ExtTreeMap String (FormulaVarData String) := ∅

structure FormulaTables (T : Type) where
  symbol_table : SymbolTable T := {}
  data_values : FormulaDataValues T := {}

namespace FormulaVar

variable (exprtk : Exprtk T) (store : FormulaStore) (timeref : TimeVal) (v : FormulaVar)
  (var_name : String)

def is_proxy_attr : Bool := v.device_name.isSome

/-- The variable has data, and their value was set at least once. -/
def hasAttrData : Bool :=
  match store.attr_data v.address with
  | none => false
  | some attr => attr.data.m_is_value_set

def varData {K : Type} (r : Reading K) (attr_timediff : Int) : FormulaVarData K :=
  ⟨r.attr_value, r.attr_quality, attr_timediff, var_name, v.attr_name⟩

/-- The reading that is entered: from the initial value, or from the data. -/
def reading {K : Type} (useInitValue : Bool) (fromInit : ProxyAttrInit → TimeVal → Option (Reading K))
    (fromData : FormulaAttr → Option (Reading K)) : Option (Reading K) :=
  if v.is_proxy_attr && useInitValue then
    fromInit (store.init v.address) (store.unwritten v.address)
  else (store.attr_data v.address).bind fromData

/-- What a name stands for in the formula: the quality factor, or the value. -/
def symbol {K : Type} (data : FormulaVarData K) (ofValue : K → FormulaSymbol T) : FormulaSymbol T :=
  match v.attr_value_type with
  | .eATTR_QUALITY_FACTOR => .value (num.quality data.attr_quality)
  | .eATTR_VALUE => ofValue data.attr_value

/-- `insert` in the numbers, which leaves what is there. -/
def enterNumber (r : Reading T) (tables : FormulaTables T) : FormulaTables T :=
  let dt := getTimeDiffSec r.attr_timestamp timeref
  let data := v.varData var_name r dt
  let scalar_values := tables.data_values.scalar_values.insertIfNew var_name data
  { symbol_table := tables.symbol_table.add exprtk var_name
      (v.symbol num (scalar_values.getD var_name data) .value)
    data_values := { tables.data_values with scalar_values } }

def enterSpectrum (r : Reading (List T)) (tables : FormulaTables T) : FormulaTables T :=
  let dt := getTimeDiffSec timeref r.attr_timestamp
  let data := v.varData var_name r dt
  { symbol_table := tables.symbol_table.add exprtk var_name (v.symbol num data .vector)
    data_values := { tables.data_values with
      spectrum_values := tables.data_values.spectrum_values.insert var_name data } }

/-- `insert` in the texts, which leaves what is there. -/
def enterString (r : Reading String) (tables : FormulaTables T) : FormulaTables T :=
  let dt := getTimeDiffSec timeref r.attr_timestamp
  let data := v.varData var_name r dt
  let scalar_string_values := tables.data_values.scalar_string_values.insertIfNew var_name data
  { symbol_table := tables.symbol_table.add exprtk var_name
      (v.symbol num (scalar_string_values.getD var_name data) .text)
    data_values := { tables.data_values with scalar_string_values } }

/-- One element of an array of texts. -/
def enterElement (i : Nat) (data : FormulaVarData String) (tables : FormulaTables T) :
    FormulaTables T :=
  { symbol_table := tables.symbol_table.add exprtk (elementName var_name i) (v.symbol num data .text)
    data_values := { tables.data_values with
      scalar_string_values :=
        tables.data_values.scalar_string_values.insert (elementName var_name i) data } }

/-- The loop over the elements, from the index `i`. -/
def enterElements (attr_quality : AttrQuality) (dt : Int) :
    Nat → List String → FormulaTables T → FormulaTables T
  | _, [], tables => tables
  | i, attr_value :: rest, tables =>
      enterElements attr_quality dt (i + 1) rest
        (v.enterElement num exprtk var_name i
          ⟨attr_value, attr_quality, dt, var_name, v.attr_name⟩ tables)

/-- The index is a 32-bit number, which does not come to the end of more elements. -/
def enterStrings (r : Reading (List String)) (tables : FormulaTables T) : Option (FormulaTables T) :=
  let dt := getTimeDiffSec timeref r.attr_timestamp
  if 4294967296 < r.attr_value.length then none
  else some (v.enterElements num exprtk var_name r.attr_quality dt 0 r.attr_value tables)

section Readings

variable (useInitValue : Bool)

def readNumber : Option (Reading T) :=
  v.reading store useInitValue (·.getScalar num.extract ·) (·.getScalarAttrData num)

/-- The initial value is the name of a state. -/
def readState : Option (Reading T) :=
  v.reading store useInitValue
    (fun init unwritten => (init.getScalar extractWord unwritten).bind
      (·.convert (tangoStateStrToValue num)))
    (·.getScalarAttrData num)

def readSpectrum : Option (Reading (List T)) :=
  v.reading store useInitValue (·.getSpectrum num.extract ·) (·.getSpectrumAttrData num)

def readStateSpectrum : Option (Reading (List T)) :=
  v.reading store useInitValue
    (fun init unwritten => (init.getSpectrum extractWord unwritten).bind
      (·.convert (List.mapM (tangoStateStrToValue num))))
    (·.getSpectrumAttrData num)

def readString : Option (Reading String) :=
  v.reading store useInitValue (·.getScalar extractWord ·) (·.getScalarAttrText)

def readStrings : Option (Reading (List String)) :=
  v.reading store useInitValue (·.getSpectrum extractWord ·) (·.getSpectrumAttrText)

end Readings

section Add

variable (useInitValue : Bool) (tables : FormulaTables T)

def addNumericVarToSymbolTable : Option (FormulaTables T) := do
  let r ← v.readNumber num store useInitValue
  return v.enterNumber num exprtk timeref var_name r tables

def addStateVarToSymbolTable : Option (FormulaTables T) := do
  let r ← v.readState num store useInitValue
  return v.enterNumber num exprtk timeref var_name r tables

def addNumericSpectrumVarToSymbolTable : Option (FormulaTables T) := do
  let r ← v.readSpectrum num store useInitValue
  return v.enterSpectrum num exprtk timeref var_name r tables

def addStateSpectrumVarToSymbolTable : Option (FormulaTables T) := do
  let r ← v.readStateSpectrum num store useInitValue
  return v.enterSpectrum num exprtk timeref var_name r tables

def addStringVarToSymbolTable : Option (FormulaTables T) := do
  let r ← v.readString store useInitValue
  return v.enterString num exprtk timeref var_name r tables

def addStringSpectrumVarToSymbolTable : Option (FormulaTables T) := do
  let r ← v.readStrings store useInitValue
  v.enterStrings num exprtk timeref var_name r tables

end Add

/-- The format and the type that are expected of a proxy without data. -/
def expectedInfo : Option (Int × Int) :=
  if v.is_proxy_attr then
    some ((store.init v.address).exp_data_format, (store.init v.address).exp_data_type)
  else none

/-- The format and the type of the data. An attribute of this device has data. -/
def dataInfo : Option (Int × Int) :=
  match store.attr_data v.address with
  | none => v.expectedInfo store
  | some attr =>
      if attr.data.m_is_value_set then some (attr.data.m_data.format, attr.m_data_type)
      else v.expectedInfo store

/-- One variable of `FillSymbolTable`. -/
def addToSymbolTable (tables : FormulaTables T) : Option (FormulaTables T) := do
  let (data_format, data_type) ← v.dataInfo store
  let useInitValue := !v.hasAttrData store
  if data_format = Tango.scalar then
    if data_type = devString ∨ data_type = devEnum then
      v.addStringVarToSymbolTable num exprtk store timeref var_name useInitValue tables
    else if data_type = devState then
      v.addStateVarToSymbolTable num exprtk store timeref var_name useInitValue tables
    else v.addNumericVarToSymbolTable num exprtk store timeref var_name useInitValue tables
  else if data_format = Tango.spectrum then
    if data_type = devString then
      v.addStringSpectrumVarToSymbolTable num exprtk store timeref var_name useInitValue tables
    else if data_type = devEnum then none
    else if data_type = devState then
      v.addStateSpectrumVarToSymbolTable num exprtk store timeref var_name useInitValue tables
    else v.addNumericSpectrumVarToSymbolTable num exprtk store timeref var_name useInitValue tables
  else some tables

end FormulaVar

namespace FormulaData

variable (exprtk : Exprtk T) (store : FormulaStore) (timeref : TimeVal) (f : FormulaData)

/-- The loop of `FillSymbolTable`. -/
def addVars : List (String × FormulaVar) → FormulaTables T → Option (FormulaTables T)
  | [], tables => some tables
  | (var_name, v) :: rest, tables => do
      let tables ← v.addToSymbolTable num exprtk store timeref var_name tables
      addVars rest tables

def fillSymbolTable : Option (FormulaTables T) :=
  addVars num exprtk store timeref f.m_symbols.toList {}

/-- The loop of `ComputeFormulaAttrQuality` over one of the maps. -/
def checkQuality {K : Type} (attr_timestamp_threshold : Int) :
    List (String × FormulaVarData K) → Option AttrQuality
  | [] => some .valid
  | (_, data) :: rest => do
      let formula_var ← f.m_symbols[data.formula_var_name]?
      if data.formula_attr_name = f.m_attrName then checkQuality attr_timestamp_threshold rest
      else if f.m_setInvalidQualityIfOld ∧ attr_timestamp_threshold < data.attr_timediff.natAbs then
        some .invalid
      else if formula_var.attr_value_type = .eATTR_VALUE ∧ data.attr_quality = .invalid then
        some .invalid
      else checkQuality attr_timestamp_threshold rest

def computeFormulaAttrQuality (data_values : FormulaDataValues T) (attr_timestamp_threshold : Int) :
    Option AttrQuality := do
  let numbers ← f.checkQuality attr_timestamp_threshold data_values.scalar_values.toList
  if numbers = .invalid then return .invalid
  let arrays ← f.checkQuality attr_timestamp_threshold data_values.spectrum_values.toList
  if arrays = .invalid then return .invalid
  f.checkQuality attr_timestamp_threshold data_values.scalar_string_values.toList

end FormulaData

end DshLmc
