import DshLmc.Core.Attributes
import DshLmc.Utils.RuleFactory
import Mathlib.Algebra.Group.Nat.Defs

/-!
# Allowed commands and writes

Before a command runs, or an attribute is written, the device goes through the attributes of the rules
registered for the operation and compares their current values. The two walks are one, with other maps
and other texts. A walk goes on when a check throws.
-/

namespace DshLmc

open Tango

variable (misread : Misread) (dev : Device)

/-- What differs between the state machines of commands and writes. -/
structure StateMachine where
  getAttrs : RuleFactory → String → Option (List String)
  isAllowed : RuleFactory → (T : ElementType) → String → String → T.Carrier → Bool
  /-- The reasons of the errors of a check, and of the function for one type. -/
  checkReason : String
  typeReason : String
  formatError : String
  /-- How the texts call the attribute of a rule. -/
  attrWord : String
  attributeWord : String
  refusal : String → String → DevFailed

def cmdMachine : StateMachine where
  getAttrs := RuleFactory.getAttrsInCmdRules
  isAllowed := RuleFactory.isCmdAllowed misread
  checkReason := "CHECK_IF_CMD_ALLOWED_FAILED"
  typeReason := "CHECK_IF_CMD_IS_ALLOWED_FAILED"
  formatError := "Invalid attr data format found (cmd state machine is supported for scalar " ++
    "attribute only), check failed!"
  attrWord := "attr"
  attributeWord := "attribute"
  refusal name attr_name :=
    ⟨"IS_CMD_ALLOWED", s!"Cmd {name} not allowed due to attr {attr_name} violating rules!"⟩

def attrWriteMachine : StateMachine where
  getAttrs := RuleFactory.getSMAttrsInAttrWriteRules
  isAllowed := RuleFactory.isAttrWriteAllowed misread
  checkReason := "CHECK_IF_ATTR_WRITE_ALLOWED_FAILED"
  typeReason := "CHECK_IF_ATTR_WRITE_IS_ALLOWED_FAILED"
  formatError := "Invalid sm attr data format found (attr state machine is supported for scalar " ++
    "attribute only), check failed!"
  attrWord := "sm attr"
  attributeWord := "sm attribute"
  refusal name attr_name := ⟨"ATTR_WRITE_NOT_ALLOWED",
    s!"Attr {name} write not allowed due to sm attr {attr_name} violating rules!"⟩

namespace StateMachine

variable (sm : StateMachine) (rules : RuleFactory)

/-- The value a check compares, with its type: the label of an enumeration. -/
def currentValue (attr : Attribute) (attr_name : String) :
    Except DevFailed ((T : ElementType) × T.Carrier) :=
  if attr.data_format ≠ Tango.scalar then
    .error ⟨sm.checkReason, sm.formatError⟩
  else
    match dataElementType attr.data_type with
    | none =>
        .error ⟨sm.checkReason,
          s!"Unsupported data type ({attr.data_type}) for {sm.attributeWord} {attr_name}!"⟩
    | some T =>
        match attr.getDynAttrValue T with
        | none => .error ⟨sm.typeReason, s!"Failed to get {sm.attrWord} {attr_name} value!"⟩
        | some value =>
            if attr.data_type = devEnum then
              match T, value with
              | .short, (enumValue : Int16) =>
                  match attr.getEnumAttrLabelValue enumValue with
                  | none =>
                      .error ⟨sm.typeReason, s!"Failed to retrieve labels for enum {sm.attrWord} " ++
                        s!"{attr_name} (attr_value={enumValue.toInt})!"⟩
                  | some label => .ok ⟨.string, label⟩
              | T, value => .ok ⟨T, value⟩
            else .ok ⟨T, value⟩

/-- `CheckIfCmdIsAllowed` and `CheckIfAttrWriteIsAllowed`. -/
def check (name attr_name : String) : Except DevFailed Bool := do
  let attr ← dev.get_attr_by_name attr_name
  let value ← sm.currentValue attr attr_name
  return sm.isAllowed rules value.1 name attr_name value.2

/-- The loop over the attributes of the rules: a check that throws is skipped. -/
def checkAll (check : String → Except DevFailed Bool) (name : String) :
    List String → Except DevFailed Unit
  | [] => .ok ()
  | attr_name :: rest =>
      match check attr_name with
      | .error _ => checkAll check name rest
      | .ok true => checkAll check name rest
      | .ok false => .error (sm.refusal name attr_name)

end StateMachine

open StateMachine

def checkIfCmdIsAllowed (rules : RuleFactory) (cmd_name attr_name : String) (check_cmd : Bool) :
    Except DevFailed Bool := do
  if check_cmd then dev.get_cmd_by_name cmd_name
  (cmdMachine misread).check dev rules cmd_name attr_name

/-- `std::string::find`. -/
def findSubstring (pattern : String) : List Char → Option Nat
  | [] => if pattern.toList = [] then some 0 else none
  | c :: rest =>
      if pattern.toList.isPrefixOf (c :: rest) then some 0
      else (findSubstring pattern rest).map (· + 1)

/-- The command that a state machine function `is_..._allowed` is about. -/
def cmdName (fcn_name : String) : String :=
  match findSubstring "is_" fcn_name.toList, findSubstring "_allowed" fcn_name.toList with
  | some pos_prefix, some pos_subfix =>
      String.ofList ((fcn_name.toList.drop ( pos_prefix + 3)).take
        ((2 ^ 64 + pos_subfix - pos_prefix - 3) % 2 ^ 64))
  | _, _ => fcn_name

def isCmdAllowed (rules : RuleFactory) (fcn_name : String) (check_cmd : Bool) :
    Except DevFailed Unit :=
  let cmd_name := cmdName fcn_name
  match (cmdMachine misread).getAttrs rules cmd_name with
  | none => .ok ()
  | some attr_names =>
      (cmdMachine misread).checkAll
        (fun attr_name => checkIfCmdIsAllowed misread dev rules cmd_name attr_name check_cmd)
        cmd_name attr_names

/-- `LMCDevice::IsAttrWriteAllowed`. An attribute that is not writable is allowed to be written. -/
def isAttrWriteAllowed (rules : RuleFactory) (attr_name : String) (check : Bool) :
    Except DevFailed Unit := do
  if check then
    let attr ← dev.get_attr_by_name attr_name
    if !attr.is_writ_associated then return
  match (attrWriteMachine misread).getAttrs rules attr_name with
  | none => .ok ()
  | some sm_attr_names =>
      (attrWriteMachine misread).checkAll
        ((attrWriteMachine misread).check dev rules attr_name) attr_name sm_attr_names

end DshLmc
