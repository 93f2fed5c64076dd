import DshLmc.Core.Attributes
import DshLmc.Utils.CodeUtils

/-!
# Transitions of a state machine attribute

`SetSMDynAttrValue` reads the attribute, asks the registered rules whether it may go from that value
to the new one, and writes. When the write fails it writes a fallback value, or what it has read. No
lock is held between the accesses, and other threads run there.
-/

namespace DshLmc

open Tango

section Rules

variable {T : ElementType} [Ord T.Carrier] [Std.TransOrd T.Carrier]

/-- `m_attrRulesPtr`: the values an attribute may take, by the value that it leaves. -/
abbrev AttrRules (T : ElementType) [Ord T.Carrier] := BiMapSet String T.Carrier

structure AttrRule (T : ElementType) where
  attr_name : String
  attr_key : T.Carrier
  attr_values : List T.Carrier

def AttrRules.addAttrRule (rules : AttrRules T) (r : AttrRule T) : AttrRules T :=
  rules.add r.attr_name r.attr_key ⟨T, r.attr_values⟩

def AttrRules.isAttrAllowed (rules : AttrRules T) (misread : Misread) (attr_name : String)
    (attr_key attr_value : T.Carrier) : Bool :=
  rules.hasAllowedValueInSet misread T attr_name attr_key attr_value

instance : Ord ElementType.string.Carrier := inferInstanceAs (Ord String)

instance : Std.TransOrd ElementType.string.Carrier := inferInstanceAs (Std.TransOrd String)

instance : Std.LawfulEqOrd ElementType.string.Carrier := inferInstanceAs (Std.LawfulEqOrd String)

instance : DecidableEq ElementType.string.Carrier := inferInstanceAs (DecidableEq String)

/-- How the rules see the values of an attribute: as they are, or as labels. -/
abbrev RuleValue (α : Type) (T : ElementType) := α → Option T.Carrier

def RuleValue.scalar (T : ElementType) : RuleValue T.Carrier T := some

def RuleValue.enum (attr : Attribute) : RuleValue Int16 .string := attr.getEnumAttrLabelValue

/-- `LMCDevice::IsAttrAllowed`. A value that has no label is refused. -/
def isAttrAllowed {α : Type} (ruleValue : RuleValue α T) (rules : AttrRules T) (misread : Misread)
    (attr_name : String) (attr_value_current attr_value_new : α) : Bool :=
  match ruleValue attr_value_current, ruleValue attr_value_new with
  | some current, some new => rules.isAttrAllowed misread attr_name current new
  | _, _ => false

end Rules

variable {α : Type}

/-- `SetDynAttrValue` may fail before it puts the value in the attribute, or after that, when it
sets the written part or pushes the event. -/
inductive WriteOutcome where
  | succeeds
  | failsBefore
  | failsAfter
deriving DecidableEq

/-- Where a thread is in `SetSMDynAttrValue`. -/
inductive SetSMDynAttrValue (α : Type) where
  | outside
  | reading (attr_value : α) (fallback : Option α)
  | checking (attr_value : α) (fallback : Option α) (attr_value_current : α)
  | writing (attr_value : α) (fallback : Option α) (attr_value_current : α)
  | fallingBack (attr_value_safe : α)

inductive SMAccess (α : Type) where
  | call (attr_value : α) (fallback : Option α)
  | read (succeeds : Bool)
  | check
  | write (outcome : WriteOutcome)

/-- The value of the attribute, the place of the thread and what the call returns, if it does. -/
@[grind =]
def SetSMDynAttrValue.advance (isAllowed : α → α → Bool) (value : α) :
    SetSMDynAttrValue α → SMAccess α → α × SetSMDynAttrValue α × Option Int
  | .outside, .call attr_value fallback => (value, .reading attr_value fallback, none)
  | .reading attr_value fallback, .read true => (value, .checking attr_value fallback value, none)
  | .reading _ _, .read false => (value, .outside, some (-1))
  | .checking attr_value fallback current, .check =>
      if isAllowed current attr_value then (value, .writing attr_value fallback current, none)
      else (value, .outside, some (-1))
  | .writing attr_value _ _, .write .succeeds => (attr_value, .outside, some 0)
  | .writing _ fallback current, .write .failsBefore =>
      (value, .fallingBack (fallback.getD current), none)
  | .writing attr_value fallback current, .write .failsAfter =>
      (attr_value, .fallingBack (fallback.getD current), none)
  | .fallingBack _, .write .failsBefore => (value, .outside, some (-1))
  | .fallingBack attr_value_safe, .write _ => (attr_value_safe, .outside, some (-1))
  | position, _ => (value, position, none)

/-- The attribute and the threads that set it. -/
structure SMDynAttr (ι α : Type) where
  value : α
  threads : ι → SetSMDynAttrValue α

namespace SMDynAttr

variable {ι : Type} [DecidableEq ι] (isAllowed : α → α → Bool)

def initial (value : α) : SMDynAttr ι α := ⟨value, fun _ => .outside⟩

/-- What the step of a thread returns to the caller of `SetSMDynAttrValue`. -/
def returned (s : SMDynAttr ι α) (step : ι × SMAccess α) : Option Int :=
  ((s.threads step.1).advance isAllowed s.value step.2).2.2

def step (s : SMDynAttr ι α) (step : ι × SMAccess α) : SMDynAttr ι α :=
  let after := (s.threads step.1).advance isAllowed s.value step.2
  { value := after.1
    threads := fun t => if t = step.1 then after.2.1 else s.threads t }

end SMDynAttr

end DshLmc
