import DshLmc.Library.Numerals
import DshLmc.Library.Search
import DshLmc.Utils.FormulaSymbolTable
import DshLmc.Utils.Xml

/-!
# The values of a configured attribute

The `Value` element of an attribute has the value that the attribute begins with, the value it falls
back to, and how it is randomized. `DevConfigParser::ParseValueNode` is a template, with
specializations for texts, for enumerations and shorts, and for states. Blanks are removed from every
text before it is converted.
-/

namespace DshLmc

open Tango

/-- A type of reals, by the bits of its numbers: the nearest one to a number in its range, and what
`operator>>` stores beyond the range, below and above. Zero is one number, whatever its sign. -/
structure RealFormat (Bits : Type) where
  zero : Bits
  round : ℚ → Option Bits
  limit : Bool → Bits

/-- `istream >> value`. -/
def RealFormat.extract {Bits : Type} (format : RealFormat Bits) (input : List Char) : Bits :=
  match readReal (input.dropWhile isBlank) with
  | none => format.zero
  | some q => (format.round q).getD (format.limit (q < 0))

structure RealFormats where
  float : RealFormat UInt32
  double : RealFormat UInt64

/-- `istream >> value` for an integer type. Beyond its range it stores the bound. -/
def extractInteger (lowest highest : ℤ) (input : List Char) : ℤ :=
  max lowest (min highest (readInteger (input.dropWhile isBlank)))

/-- `istream >> text`: the first word. -/
def extractString (input : List Char) : List Char :=
  (input.dropWhile isBlank).takeWhile (!isBlank ·)

/-- `istream >> std::boolalpha >> value`. A text that does not begin with the word is false. -/
def extractBoolean (input : List Char) : Bool :=
  "true".toList.isPrefixOf (input.dropWhile isBlank)

/-- The types that the template and the specialization for shorts read as numbers. -/
inductive NumberType where
  | double
  | float
  | long
  | short
  | boolean
deriving DecidableEq

@[reducible]
def NumberType.element : NumberType → ElementType
  | .double => .double
  | .float => .float
  | .long => .long
  | .short => .short
  | .boolean => .boolean

def getValueFromString (formats : RealFormats) :
    (N : NumberType) → List Char → N.element.Carrier
  | .double, input => formats.double.extract input
  | .float, input => formats.float.extract input
  | .long, input => Int32.ofInt (extractInteger (-2147483648) 2147483647 input)
  | .short, input => Int16.ofInt (extractInteger (-32768) 32767 input)
  | .boolean, input => extractBoolean input

def stripBlankSpaces (s : List Char) : List Char := stripBlanks s

/-- `DeviceAttrInitDataImpl`. -/
structure AttrInitData where
  T : ElementType
  init_value : T.Carrier
  safe_value : Option T.Carrier

/-- `AttrGenerationModel` and its subclasses. -/
inductive AttrGenerationModel (T : ElementType) where
  | const (initValue : T.Carrier)
  | gauss (initValue gaussMean gaussSigma minValue maxValue : T.Carrier)
  | uniform (initValue minValue maxValue : T.Carrier)
  | discrete (initValue : T.Carrier) (probWeights : List UInt64)

/-- What a `DeviceAttr` has for its values, and what they are read with. -/
structure DeviceAttr where
  data_type : Int
  enum_labels : List (List Char)
  attrInitData : Option AttrInitData := none
  randomize : Bool := false
  attrRandModel : Option (Σ T, AttrGenerationModel T) := none

section Models

variable (formats : RealFormats)

/-- The text of a child, without its blanks. -/
def XmlNode.stripped (node : XmlNode) (name : String) : Option (List Char) :=
  (node.child name).map fun tag => stripBlankSpaces tag.text

def gausRandomModel (N : NumberType) (initValue : N.element.Carrier) (randomize : XmlNode) :
    Option (AttrGenerationModel N.element) := do
  let tag ← randomize.child "GausRandomModel"
  let smin ← tag.stripped "Min"
  let smax ← tag.stripped "Max"
  let smean ← tag.stripped "GausMean"
  let ssigma ← tag.stripped "GausSigma"
  let value := getValueFromString formats N
  return .gauss initValue (value smean) (value ssigma) (value smin) (value smax)

def uniformRandomModel (N : NumberType) (initValue : N.element.Carrier) (randomize : XmlNode) :
    Option (AttrGenerationModel N.element) := do
  let tag ← randomize.child "UniformRandomModel"
  let smin ← tag.stripped "Min"
  let smax ← tag.stripped "Max"
  let value := getValueFromString formats N
  return .uniform initValue (value smin) (value smax)

def discreteRandomModel {T : ElementType} (initValue : T.Carrier) (randomize : XmlNode) :
    Option (AttrGenerationModel T) := do
  let tag ← randomize.child "DiscreteRandomModel"
  let probWeights ← tag.child "ProbWeights"
  let weights := (probWeights.childrenOf "Weight").map fun weight =>
    getValueFromString formats .double (stripBlankSpaces weight.text)
  if weights = [] then none else some (.discrete initValue weights)

/-- The models that a number can have. A later one replaces an earlier one. -/
def numberModel (N : NumberType) (initValue : N.element.Carrier) (randomize : XmlNode) :
    Option (AttrGenerationModel N.element) :=
  (discreteRandomModel formats initValue randomize).or
    ((uniformRandomModel formats N initValue randomize).or
      (gausRandomModel formats N initValue randomize))

end Models

section ParseValueNode

variable {T : ElementType}

/-- The end of a specialization: the model. -/
def setModel (model : T.Carrier → XmlNode → Option (AttrGenerationModel T)) (initValue : T.Carrier)
    (dev_attr : DeviceAttr) (node : XmlNode) : Int × DeviceAttr :=
  match node.child "Randomize" with
  | none => (0, { dev_attr with randomize := false, attrRandModel := some ⟨T, .const initValue⟩ })
  | some randomizeValueTag =>
      match model initValue randomizeValueTag with
      | none => (-1, dev_attr)
      | some attrRandModel =>
          (0, { dev_attr with randomize := true, attrRandModel := some ⟨T, attrRandModel⟩ })

/-- What the specializations share. A conversion that fails returns -1. -/
def parseValue (convertInit convertSafe : List Char → Option T.Carrier)
    (model : T.Carrier → XmlNode → Option (AttrGenerationModel T)) (dev_attr : DeviceAttr)
    (node : Option XmlNode) : Int × DeviceAttr :=
  match node with
  | none => (-1, dev_attr)
  | some node =>
      match (node.stripped "InitValue").bind convertInit with
      | none => (-1, dev_attr)
      | some initValue =>
          match node.stripped "SafeValue" with
          | none =>
              setModel model initValue { dev_attr with attrInitData := some ⟨T, initValue, none⟩ } node
          | some sSafeValue =>
              match convertSafe sSafeValue with
              | none => (-1, dev_attr)
              | some safeValue =>
                  setModel model initValue
                    { dev_attr with attrInitData := some ⟨T, initValue, some safeValue⟩ } node

variable (formats : RealFormats)

def parseValueNode (N : NumberType) : DeviceAttr → Option XmlNode → Int × DeviceAttr :=
  parseValue (fun input => some (getValueFromString formats N input))
    (fun input => some (getValueFromString formats N input)) (numberModel formats N)

/-- `ParseValueNode<Tango::DevString>`. Only the safe value goes through a stream. -/
def parseValueNodeString : DeviceAttr → Option XmlNode → Int × DeviceAttr :=
  parseValue (T := .string) (fun input => some (String.ofList input))
    (fun input => some (String.ofList (extractString input))) (discreteRandomModel formats)

/-- The index of the last label that is the text, as a short. -/
def enumValue (enum_labels : List (List Char)) (input : List Char) :
    Option ElementType.short.Carrier :=
  (Search.findLast input enum_labels).map Int16.ofNat

def tangoStateStrToDevState (state_str : List Char) : Option ElementType.state.Carrier :=
  tangoStateStrMap.lookup (String.ofList state_str)

/-- `ParseValueNode<Tango::DevEnum>`, which is the one for `Tango::DevShort` too: they are one type.
The data type of the attribute tells them apart. -/
def parseValueNodeEnum (dev_attr : DeviceAttr) (node : Option XmlNode) : Int × DeviceAttr :=
  if (node.bind (·.child "InitValue")).isNone then (-1, dev_attr)
  else if dev_attr.data_type = devEnum then
    parseValue (T := .short) (enumValue dev_attr.enum_labels) (enumValue dev_attr.enum_labels)
      (discreteRandomModel formats) dev_attr node
  else if dev_attr.data_type = devShort then parseValueNode formats .short dev_attr node
  else (0, dev_attr)

/-- `ParseValueNode<Tango::DevState>`. -/
def parseValueNodeState : DeviceAttr → Option XmlNode → Int × DeviceAttr :=
  parseValue (T := .state) tangoStateStrToDevState tangoStateStrToDevState
    (discreteRandomModel formats)

end ParseValueNode

end DshLmc
