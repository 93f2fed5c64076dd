import DshLmc.Utils.AlarmData
import DshLmc.Utils.AttrNode

/-!
# Configuration files

`DevConfigParser` makes attributes, alarms and archived attributes of a document. The document is in a
file, or is to be in a string. What pugixml makes of a text depends on the options too, and they are
not the same for the two.
-/

namespace DshLmc

namespace DevConfigParser

/-- The flags that tell `parse_default` from `parse_escapes`. -/
structure ParseOptions where
  parse_cdata : Bool
  parse_escapes : Bool
  parse_wconv_attribute : Bool
  parse_eol : Bool
deriving DecidableEq

def parseEscapes : ParseOptions := ⟨false, true, false, false⟩

def parseDefault : ParseOptions := ⟨true, true, true, true⟩

/-- Where documents come from: what pugixml loads from a text, and the texts of the files. -/
structure Documents where
  load : List Char → ParseOptions → Option XmlNode
  files : List Char → Option (List Char)

section Read

variable (docs : Documents)

def readFromFile (filename : List Char) : Option XmlNode :=
  (docs.files filename).bind fun text => docs.load text parseEscapes

/-- The string is the name of the stream that is opened. Without a file of the name the stream has
failed, and nothing is loaded. -/
def readFromString (input_string : List Char) : Option XmlNode :=
  (docs.files input_string).bind fun text => docs.load text parseDefault

def read (input : List Char) (fromFile : Bool) : Option XmlNode :=
  if fromFile then readFromFile docs input else readFromString docs input

end Read

/-- `DeviceFwdAttrImpl` and its `Tango::FwdAttr`. -/
structure DeviceFwdAttrImpl where
  name : List Char
  url : List Char
  label : List Char
  polling_period : Option Int64
  isPolled : Bool

/-- A `DeviceAttr*`. -/
inductive DeviceAttrPtr where
  | attr (da : DeviceAttrImpl)
  | fwd (da : DeviceFwdAttrImpl)

section Collections

variable (lib : ConfigLibraries)

def parseFwdAttrNode (node : XmlNode) : Option DeviceFwdAttrImpl := do
  let name ← node.attributeValue "name"
  let url ← node.stripped "Url"
  return {
    name := (node.attributeValue "alias").getD name
    url
    label := childText node "Label"
    polling_period := pollingPeriod lib node
    isPolled := (pollingPeriod lib node).isSome }

/-- The elements of a list in the root. -/
def listed (rootNode : XmlNode) (list name : String) : List XmlNode :=
  (rootNode.child list).elim [] (·.childrenOf name)

/-- A list of elements. One that cannot be parsed is skipped. -/
def parseAttributes (attrCollection : List DeviceAttrPtr) (rootNode : XmlNode) :
    List DeviceAttrPtr :=
  attrCollection
    ++ (listed rootNode "Attributes" "Attribute").filterMap
      (fun mp => (parseAttrNode lib mp).map .attr)
    ++ (listed rootNode "Attributes" "FwdAttribute").filterMap
      (fun mp => (parseFwdAttrNode lib mp).map .fwd)

/-- The labels and values of a formula, as a map has them. -/
def alarmSymbols (vars : List (List Char × List Char)) : List (List Char × List Char) :=
  let formula_symbols : Std.ExtTreeMap String (List Char) :=
    vars.foldl (fun m var => m.insertIfNew (String.ofList var.1) var.2) ∅
  formula_symbols.toList.map fun c => (c.1.toList, c.2)

def parseAlarmVar (node : XmlNode) : Option (List Char × List Char) := do
  let var_label ← node.stripped "Label"
  let var_value ← node.stripped "Value"
  return (var_label, var_value)

/-- `text().as_bool(true)`. -/
def asBool (node : XmlNode) : Bool := node.data.elim true lib.as_bool

def parseAlarmDataNode (node : XmlNode) : Option AlarmData := do
  let alarm_name ← node.stripped "Name"
  let alarm_formula ← node.stripped "Formula"
  let formulaSymbolsTag ← node.child "FormulaVars"
  let vars ← (formulaSymbolsTag.childrenOf "FormulaVar").mapM parseAlarmVar
  let alarm_level ← node.stripped "Level"
  let alarm_message ← node.stripped "Message"
  let alarm_data : AlarmData :=
    { m_name := alarm_name
      m_formula := alarm_formula
      m_symbols := alarmSymbols vars
      m_level := alarm_level
      m_groups := (listed node "Groups" "Group").map fun it => stripBlankSpaces it.text
      m_message := alarm_message
      m_on_delay := (node.child "OnDelay").elim 0 fun tag => lib.as_int tag.text
      m_off_delay := (node.child "OffDelay").elim 0 fun tag => lib.as_int tag.text
      m_silent_time := (node.child "SilentTime").elim (-1) fun tag => lib.as_int tag.text
      m_on_command := (node.stripped "OnCommand").getD []
      m_off_command := (node.stripped "OffCommand").getD []
      m_enabled := (node.child "Enabled").elim true (asBool lib)
      m_is_polled := (pollingPeriod lib node).isSome
      m_poll_period := (pollingPeriod lib node).getD 0 }
  if alarm_data.isValid then some alarm_data else none

def parseAlarmCollection (alarmCollection : List AlarmData) (rootNode : XmlNode) : List AlarmData :=
  alarmCollection ++ (listed rootNode "Alarms" "Alarm").filterMap (parseAlarmDataNode lib)

structure ArchivedData where
  m_name : List Char
  m_strategies : List (List Char)
  m_ttl : Int := 0
  m_enabled : Bool := true

def ArchivedData.isValid (d : ArchivedData) : Bool :=
  !d.m_name.isEmpty && !d.m_strategies.isEmpty && !decide (d.m_ttl < 0)

def parseArchivedDataNode (node : XmlNode) : Option ArchivedData := do
  let archived_attr_name ← node.stripped "Name"
  let archived_data : ArchivedData :=
    { m_name := archived_attr_name
      m_strategies := (listed node "Strategies" "Strategy").map fun it => stripBlankSpaces it.text
      m_ttl := (node.child "TimeToLive").elim 0 fun tag => (lib.as_int tag.text).toInt
      m_enabled := (node.child "EnabledAtStartup").elim true (asBool lib) }
  if archived_data.isValid then some archived_data else none

def parseArchivedAttrCollection (archivedAttrCollection : List ArchivedData) (rootNode : XmlNode) :
    List ArchivedData :=
  archivedAttrCollection
    ++ (listed rootNode "ArchivedAttributes" "ArchivedAttribute").filterMap
      (parseArchivedDataNode lib)

end Collections

section Parse

variable (docs : Documents) (lib : ConfigLibraries)

/-- What the three parsers share: they read a document, look for its root, and add to a collection. -/
def parseRoot {α : Type} (parseCollection : List α → XmlNode → List α) (collection : List α)
    (input : List Char) (fromFile : Bool) : Int × List α :=
  match (read docs input fromFile).bind (·.child "DeviceConfiguration") with
  | none => (-1, collection)
  | some rootNode => (0, parseCollection collection rootNode)

def parse : List DeviceAttrPtr → List Char → Bool → Int × List DeviceAttrPtr :=
  parseRoot docs (parseAttributes lib)

def parseAlarms : List AlarmData → List Char → Bool → Int × List AlarmData :=
  parseRoot docs (parseAlarmCollection lib)

def parseArchivedAttrs : List ArchivedData → List Char → Bool → Int × List ArchivedData :=
  parseRoot docs (parseArchivedAttrCollection lib)

end Parse

end DevConfigParser

end DshLmc
