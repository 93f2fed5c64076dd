import DshLmc.Utils.TangoNames
import DshLmc.Utils.ValueNode

/-!
# Configured attributes

An `Attribute` element of a configuration becomes a device attribute: a Tango attribute under its
alias, with its properties, its values and the formula that computes it. An element that lacks a part,
or has one that is not known, is skipped.
-/

namespace DshLmc

open Tango

/-- What the parser calls of other libraries: the types of reals, `pugi::xml_text`, and
`yat::StringTokenizer` with `/` between the tokens. -/
structure ConfigLibraries where
  formats : RealFormats
  as_int : List Char → Int32
  as_llong : List Char → Int64
  as_double : List Char → UInt64
  as_bool : List Char → Bool
  count_tokens : List Char → ℕ

def Tango.image : Int := 2

def attrDataTypes : List (String × Int) :=
  [("DOUBLE", devDouble), ("FLOAT", devFloat), ("SHORT", devShort), ("LONG", devLong),
    ("ENUM", devEnum), ("STRING", devString), ("BOOL", devBoolean), ("STATE", devState)]

def getAttrDataType (dataTypeTag : List Char) : Int :=
  (attrDataTypes.lookup (String.ofList dataTypeTag)).getD (-1)

def getAttrDataFormat (dataFormatTag : List Char) : Int :=
  ([("SCALAR", scalar), ("SPECTRUM", Tango.spectrum), ("IMAGE", image)].lookup
    (String.ofList dataFormatTag)).getD (-1)

inductive AttrWriteType where
  | READ
  | WRITE
  | READ_WRITE
deriving DecidableEq

/-- An unknown type is `READ`. -/
def getAttrRWType (dataRWTag : List Char) : AttrWriteType :=
  ([("READ", AttrWriteType.READ), ("WRITE", .WRITE), ("READ_WRITE", .READ_WRITE)].lookup
    (String.ofList dataRWTag)).getD .READ

def getFormulaEvalMode (mode : List Char) : Option EventType :=
  [("CHANGE", EventType.change), ("PERIODIC", .periodic), ("USER", .user)].lookup
    (String.ofList mode)

/-- A formula as the parser makes it. The addresses of its variables count the elements, and only a
variable of a proxy has something to begin with. -/
structure ConfiguredFormula where
  data : FormulaData
  proxies : List (Option ProxyAttrInit)

structure ConfiguredVar where
  label : List Char
  var : FormulaVar
  proxy : Option ProxyAttrInit

section Formula

variable (lib : ConfigLibraries)

def isFQDNProxyAttr (url : List Char) : Bool := lib.count_tokens url == 6

/-- What the value of a variable names: the device of a proxy, the attribute, and whether it is its
value or its quality. -/
def parseVarValue (var_value : List Char) :
    Option (Option (List Char) × List Char × FormulaValueType) :=
  if isFQDNProxyAttr lib var_value then
    match TangoUtils.parseFullAttrName₅ var_value with
    | .error _ => none
    | .ok name =>
        if name.domain_name = [] then none
        else
          some (some (name.domain_name ++ '/' :: name.device_name), name.attr_name,
            if name.hasQualityTag then .eATTR_QUALITY_FACTOR else .eATTR_VALUE)
  else
    match Search.findText TangoUtils.qualitySuffix var_value with
    | none => some (none, var_value, .eATTR_VALUE)
    | some _ => some (none, var_value.take (var_value.length - 8), .eATTR_QUALITY_FACTOR)

/-- A spectrum has to have a size, and a size has to be positive. -/
def expDataSize (data_format : Int) (node : XmlNode) : Option Int64 :=
  match node.child "ExpDataSize" with
  | none => if data_format = Tango.spectrum then none else some 1
  | some tag =>
      let data_size := lib.as_llong tag.text
      if data_size ≤ 0 then none else some data_size

/-- A step of the loop over the `FormulaVar` elements. -/
def parseFormulaVar (address : ℕ) (node : XmlNode) : Option ConfiguredVar := do
  let var_label ← node.stripped "Label"
  let var_value ← node.stripped "Value"
  let var_init_value ← node.stripped "InitDataValue"
  let str_data_type ← node.stripped "ExpDataType"
  let str_data_format ← node.stripped "ExpDataFormat"
  let data_type := getAttrDataType str_data_type
  let data_format := getAttrDataFormat str_data_format
  if data_type < 0 ∨ data_format < 0 then none else
  let data_size ← expDataSize lib data_format node
  let (device_name, attr_name, value_type) ← parseVarValue lib var_value
  return {
    label := var_label
    var := ⟨address, String.ofList attr_name, value_type, device_name.map String.ofList⟩
    proxy := device_name.map fun _ =>
      ⟨String.ofList var_init_value, data_type, data_format, data_size.toInt⟩ }

def parseFormulaVars : ℕ → List XmlNode → Option (List ConfiguredVar)
  | _, [] => some []
  | address, node :: nodes => do
      let var ← parseFormulaVar lib address node
      let vars ← parseFormulaVars (address + 1) nodes
      return var :: vars

/-- `formula_symbols.insert`, which leaves a label that is there already. -/
def insertSymbol (formula_symbols : FormulaSymbols) (v : ConfiguredVar) : FormulaSymbols :=
  formula_symbols.insertIfNew (String.ofList v.label) v.var

def parseFormulaNode (node : XmlNode) : Option ConfiguredFormula := do
  let formula_expr ← node.child "Expression"
  let formulaEvalModeTag ← node.child "EvaluationMode"
  let evt_types ← (formulaEvalModeTag.childrenOf "Value").mapM fun it =>
    getFormulaEvalMode (stripBlankSpaces it.text)
  if evt_types = [] then none else
  let post_actions := ((node.child "PostActions").elim [] (·.childrenOf "Action")).map fun it =>
    String.ofList (stripBlankSpaces it.text)
  -- the code looks for the tag of the modes once more here, and not for the one of the variables
  let vars ← parseFormulaVars lib 0
    ((node.child "FormulaVars").elim [] (·.childrenOf "FormulaVar"))
  if vars = [] then none else
  return {
    data :=
      { m_formula := String.ofList formula_expr.text
        m_symbols := vars.foldl insertSymbol ∅
        m_evaluation_modes := evt_types
        m_postActions := post_actions
        m_setInvalidQualityIfOld := (node.child "SetInvalidQualityIfOld").isSome }
    proxies := vars.map (·.proxy) }

end Formula

inductive DispLevel where
  | OPERATOR
  | EXPERT
deriving DecidableEq

/-- `Tango::Attr` and its subclasses. -/
structure TangoAttr where
  name : List Char
  data_type : Int
  data_format : Int
  disp : DispLevel
  rw_type : AttrWriteType
  max_x : Int64
  max_y : Int64
  memorized : Bool
  polling_period : Option Int64

section TangoAttr

variable (lib : ConfigLibraries)

def displayLevel (node : XmlNode) : Option DispLevel :=
  match node.stripped "DisplayLevel" with
  | none => some .OPERATOR
  | some displayLevelStr =>
      [("OPERATOR", DispLevel.OPERATOR), ("EXPERT", .EXPERT)].lookup (String.ofList displayLevelStr)

def maxDims (data_format : Int) (node : XmlNode) : Option (Int64 × Int64) :=
  if data_format = Tango.spectrum then
    (node.child "DimX").map fun dimXTag => (lib.as_llong dimXTag.text, 0)
  else if data_format = image then do
    let dimXTag ← node.child "DimX"
    let dimYTag ← node.child "DimY"
    return (lib.as_llong dimXTag.text, lib.as_llong dimYTag.text)
  else some (1, 0)

def pollingPeriod (node : XmlNode) : Option Int64 := do
  let pollingTag ← node.child "Polling"
  let pollingPeriodTag ← pollingTag.child "Period"
  return lib.as_llong pollingPeriodTag.text

def hasMemorized (node : XmlNode) : Bool := (node.child "Memorized").isSome

/-- The first part of `ParseAttrNode`, to the end of what it sets in the Tango attribute. -/
def makeTangoAttr (node : XmlNode) : Option TangoAttr := do
  let name ← node.attributeValue "name"
  let str_data_type ← node.stripped "DataType"
  let data_type := getAttrDataType str_data_type
  if data_type < 0 then none else
  let str_data_format ← node.stripped "DataFormat"
  let data_format := getAttrDataFormat str_data_format
  let str_rw_type ← node.stripped "RWType"
  let disp ← displayLevel node
  if (str_rw_type = "READ".toList ∨ str_data_format ≠ "SCALAR".toList) ∧ hasMemorized node then none
  else
  let (max_x, max_y) ← maxDims lib data_format node
  if data_format < 0 then none else
  return {
    name := (node.attributeValue "alias").getD name
    data_type
    data_format
    disp
    rw_type := getAttrRWType str_rw_type
    max_x
    max_y
    memorized := hasMemorized node
    polling_period := pollingPeriod lib node }

end TangoAttr

/-- A field of `Tango::MultiAttrProp`, at first, with `AlrmValueNotSpec`, or with a value. -/
inductive AttrProp (α : Type) where
  | unset
  | notSpec
  | value (value : α)

structure ValueRange (α : Type) where
  min_value : AttrProp α
  max_value : AttrProp α
  min_alarm : AttrProp α
  max_alarm : AttrProp α
  min_warning : AttrProp α
  max_warning : AttrProp α

structure MultiAttrProp where
  description : List Char
  label : List Char
  unit : List Char
  range : Σ T : ElementType, ValueRange T.Carrier
  enum_labels : List (List Char)
  rel_change : AttrProp UInt64
  abs_change : AttrProp UInt64
  archive_rel_change : AttrProp UInt64
  archive_abs_change : AttrProp UInt64
  event_period : Option Int64
  archive_period : Option Int64

section Properties

variable (lib : ConfigLibraries)

/-- The `ValueRange` element. Without it the fields stay as they are. -/
def parseValueRange (N : NumberType) (node : XmlNode) : ValueRange N.element.Carrier :=
  match node.child "ValueRange" with
  | none => ⟨.unset, .unset, .unset, .unset, .unset, .unset⟩
  | some dataRangeTag =>
      let field (name : String) : AttrProp N.element.Carrier :=
        (dataRangeTag.stripped name).elim .notSpec
          fun text => .value (getValueFromString lib.formats N text)
      ⟨field "MinValue", field "MaxValue", field "MinAlarm", field "MaxAlarm", field "MinWarning",
        field "MaxWarning"⟩

def noValueRange (α : Type) : ValueRange α :=
  ⟨.notSpec, .notSpec, .notSpec, .notSpec, .notSpec, .notSpec⟩

def childText (node : XmlNode) (name : String) : List Char := (node.child name).elim [] (·.text)

def enumLabels (node : XmlNode) : List (List Char) :=
  ((node.child "PossibleValues").elim [] (·.childrenOf "Value")).map (stripBlankSpaces ·.text)

def eventText (node : XmlNode) (event name : String) : Option (List Char) := do
  let eventsTag ← node.child "Events"
  let eventTag ← eventsTag.child event
  let valueTag ← eventTag.child name
  return valueTag.text

/-- `ParseMultiAttrProp`, with the range for the type. -/
def parseMultiAttrProp (range : Σ T : ElementType, ValueRange T.Carrier) (node : XmlNode) :
    MultiAttrProp :=
  let change (event name : String) : AttrProp UInt64 :=
    (eventText node event name).elim .unset fun text => .value (lib.as_double text)
  { description := childText node "Description"
    label := childText node "Label"
    unit := stripBlankSpaces (childText node "Unit")
    range
    enum_labels := enumLabels node
    rel_change := change "RelChangeEvent" "ChangeValue"
    abs_change := change "AbsChangeEvent" "ChangeValue"
    archive_rel_change := change "ArchiveEvent" "RelChange"
    archive_abs_change := change "ArchiveEvent" "AbsChange"
    event_period := (eventText node "PeriodicEvent" "Period").map lib.as_llong
    archive_period := (eventText node "ArchiveEvent" "Period").map lib.as_llong }

def numberProp (N : NumberType) (node : XmlNode) : MultiAttrProp :=
  parseMultiAttrProp lib ⟨N.element, parseValueRange lib N node⟩ node

/-- For the types that have no order. What was read for a range or a change is replaced. -/
def unorderedProp (T : ElementType) (node : XmlNode) : MultiAttrProp :=
  { parseMultiAttrProp lib ⟨T, noValueRange T.Carrier⟩ node with
    rel_change := .notSpec
    abs_change := .notSpec
    archive_rel_change := .notSpec
    archive_abs_change := .notSpec }

def attrProp (data_type : Int) (node : XmlNode) : Option MultiAttrProp :=
  if data_type = devDouble then some (numberProp lib .double node)
  else if data_type = devFloat then some (numberProp lib .float node)
  else if data_type = devLong then some (numberProp lib .long node)
  else if data_type = devShort then some (numberProp lib .short node)
  else if data_type = devBoolean then some (unorderedProp lib .boolean node)
  else if data_type = devEnum then some (unorderedProp lib .short node)
  else if data_type = devString then some (unorderedProp lib .string node)
  else if data_type = devState then some (unorderedProp lib .state node)
  else none

end Properties

structure DeviceAttrImpl extends DeviceAttr where
  attr : TangoAttr
  prop : MultiAttrProp
  isPolled : Bool
  isMemorized : Bool
  default_prop_name : List Char
  formulaData : Option ConfiguredFormula

section AttrNode

variable (lib : ConfigLibraries)

/-- The specialization of `ParseValueNode` that the data type of the attribute asks for. -/
def parseTypedValue (dev_attr : DeviceAttr) (node : Option XmlNode) : Int × DeviceAttr :=
  if dev_attr.data_type = devDouble then parseValueNode lib.formats .double dev_attr node
  else if dev_attr.data_type = devFloat then parseValueNode lib.formats .float dev_attr node
  else if dev_attr.data_type = devLong then parseValueNode lib.formats .long dev_attr node
  else if dev_attr.data_type = devShort then parseValueNodeEnum lib.formats dev_attr node
  else if dev_attr.data_type = devBoolean then parseValueNode lib.formats .boolean dev_attr node
  else if dev_attr.data_type = devEnum then parseValueNodeEnum lib.formats dev_attr node
  else if dev_attr.data_type = devString then parseValueNodeString lib.formats dev_attr node
  else if dev_attr.data_type = devState then parseValueNodeState lib.formats dev_attr node
  else (-1, dev_attr)

def memorizedDefaultPropName (node : XmlNode) (name : List Char) : List Char :=
  if hasMemorized node then
    (node.stripped "MemorizedDefaultProp").getD (name.modifyHead Char.toUpper ++ "Default".toList)
  else []

/-- The end of `ParseAttrNode`. The formula gets the name, not the alias. -/
def parseAttrFormula (node : XmlNode) (name : List Char) : Option (Option ConfiguredFormula) :=
  match node.child "Formula" with
  | none => some none
  | some formulaTag => (parseFormulaNode lib formulaTag).map fun formula_data =>
      some { formula_data with
        data := { formula_data.data with m_attrName := String.ofList name } }

def parseAttrNode (node : XmlNode) : Option DeviceAttrImpl := do
  let name ← node.attributeValue "name"
  let attr ← makeTangoAttr lib node
  let prop ← attrProp lib attr.data_type node
  let dev_attr := parseTypedValue lib
    { data_type := attr.data_type, enum_labels := prop.enum_labels } (node.child "Value")
  if dev_attr.1 < 0 then none else
  let formulaData ← parseAttrFormula lib node name
  return {
    toDeviceAttr := dev_attr.2
    attr
    prop
    isPolled := attr.polling_period.isSome
    isMemorized := attr.memorized
    default_prop_name := memorizedDefaultPropName node name
    formulaData }

end AttrNode

end DshLmc
